import Mathlib
import SearchSql.Proofs.CompactTexts
import SearchSql.Proofs.LastWrites
import SearchSql.Proofs.Notes
import SearchSql.Proofs.QueryRuns
import SearchSql.Proofs.Targets
import SearchSql.Proofs.TypeUse
import SearchSql.Proofs.Unsupported

/-!
Explanations of queries. An explanation compiles with the configured fields alone, and a dry run
with the mappings below them, so that they show one request unless a mapping gives a type other than
analyzed text to a field that is compared for equality and is not configured.
-/

namespace SearchSql

variable {o : Options} {types types' : String → FieldType} {f : String}

theorem Note.message_ne (f g : String) :
    (missingField f).message ≠ (analyzedEquality g).message := by
  intro h
  have hfront : "negated predicate on '".toList.head? = some 'n' := by decide
  have hquote : "'".toList.head? = some '\'' := by decide
  have hhead := congrArg (fun s : String => s.toList.head?) h
  unfold message at hhead
  simp only [String.toList_append, List.head?_append, hfront, hquote, Option.some_or] at hhead
  cases hhead

theorem Note.message_injective : Function.Injective message := by
  intro n n' h
  cases n with
  | missingField f =>
    cases n' with
    | missingField g =>
      have hfield := (String.append_right_inj _).1 ((String.append_left_inj _).1 h)
      rw [hfield]
    | analyzedEquality g => exact (message_ne f g h).elim
  | analyzedEquality f =>
    cases n' with
    | missingField g => exact (message_ne g f h.symm).elim
    | analyzedEquality g =>
      have hfield := (String.append_right_inj _).1 ((String.append_left_inj _).1 h)
      rw [hfield]

namespace Expression

variable {e leaf : Expression}

theorem Regular.of_mem_leaves (h : e.Regular) : ∀ leaf ∈ e.leaves, leaf.Regular := by
  induction h with
  | compareField => exact List.forall_mem_singleton.2 .compareField
  | compare => exact List.forall_mem_singleton.2 .compare
  | between => exact List.forall_mem_singleton.2 .between
  | among hvalues => exact List.forall_mem_singleton.2 (.among hvalues)
  | like => exact List.forall_mem_singleton.2 .like
  | present => exact List.forall_mem_singleton.2 .present
  | not _ ih => exact fun leaf hleaf => ih leaf (mem_leaves_not.1 hleaf)
  | run _ _ _ ih => exact forall_mem_leaves_logical.2 ih

/-- A test for equality that is not refused has a note when its field is analyzed text. -/
theorem equates_iff (hregular : leaf.Regular) (hrefused : ¬ leaf.Refused types) :
    leaf.Equates (fun f => .ok (types f)) f ↔ leaf.ComparesEquality f ∧ types f = .analyzed := by
  constructor
  · intro h
    cases h with
    | comparison hop htype => exact ⟨.compare hop, Except.ok.inj htype⟩
    | membership _ htype => exact ⟨.among, Except.ok.inj htype⟩
  · rintro ⟨hequality, htype⟩
    cases hequality with
    | compare hop =>
      cases hregular with
      | compareField => exact (hrefused .fields).elim
      | compare => exact .comparison hop (congrArg Except.ok htype)
    | among =>
      cases hregular with
      | among hvalues => exact .membership hvalues (congrArg Except.ok htype)

end Expression

namespace Statement

/-- The condition compares the field for equality somewhere. -/
def AsksEquality (s : Statement) (f : String) : Prop :=
  ∃ e ∈ s.condition, ∃ leaf ∈ e.leaves, leaf.ComparesEquality f

variable {s : Statement} {r r' : Request} {schema schema' : Schema}

theorem notes_of_assemble {query : Option Query} {notes : List Note}
    (h : s.assemble query notes = .ok r) : r.notes = notes := by
  unfold assemble at h
  dsimp only at h
  split at h
  · split at h
    · cases h
      rfl
    · cases h
  · cases h
    rfl

/-- The notes of a request tell which of the fields that are compared for equality are analyzed. -/
theorem mem_notes_of_compile (hregular : ∀ e ∈ s.condition, e.Regular)
    (h : s.compile o schema.resolver = .ok r) :
    .analyzedEquality f ∈ r.notes ↔ s.AsksEquality f ∧ schema.typeOf f = .analyzed := by
  unfold compile at h
  cases hcondition : s.condition with
  | none =>
    rw [hcondition] at h
    rw [notes_of_assemble h, AsksEquality, hcondition]
    simp
  | some e =>
    rw [hcondition] at h
    obtain ⟨l, hl, hassemble⟩ := exists_of_bind_eq_ok h
    obtain ⟨l, hlower, hl⟩ := exists_of_bind_eq_ok hl
    cases hl
    have hrefused : ∀ leaf ∈ e.leaves, ¬ leaf.Refused schema.typeOf :=
      Expression.not_refused_of_lower (fun _ => rfl) hlower
    have hleaves := (hregular e hcondition).of_mem_leaves
    rw [notes_of_assemble hassemble, List.mem_eraseDups, Expression.mem_notes_lower hlower,
      AsksEquality, hcondition]
    constructor
    · rintro ⟨leaf, hleaf, hequates⟩
      obtain ⟨hequality, htype⟩ :=
        (Expression.equates_iff (hleaves leaf hleaf) (hrefused leaf hleaf)).1 hequates
      exact ⟨⟨e, rfl, leaf, hleaf, hequality⟩, htype⟩
    · rintro ⟨⟨_, ⟨⟩, leaf, hleaf, hequality⟩, htype⟩
      exact ⟨leaf, hleaf,
        (Expression.equates_iff (hleaves leaf hleaf) (hrefused leaf hleaf)).2 ⟨hequality, htype⟩⟩

/-- No pattern of a condition with a query is on numbers or dates, whatever gives the types. -/
theorem typedAlike_of_compile (h : s.compile o schema.resolver = .ok r)
    (h' : s.compile o schema'.resolver = .ok r')
    (hequality : ∀ f, s.AsksEquality f →
      (schema.typeOf f = .analyzed ↔ schema'.typeOf f = .analyzed)) :
    ∀ e ∈ s.condition, e.TypedAlike schema.typeOf schema'.typeOf := by
  intro e he
  have hordered {schema : Schema} {r : Request} (h : s.compile o schema.resolver = .ok r) :
      ∀ leaf ∈ e.leaves, ∀ f, leaf.ComparesPattern f → ¬ (schema.typeOf f).IsOrdered := by
    obtain ⟨_, _, _, ⟨hnone, _⟩ | ⟨e', l, hsome, hlower, _⟩⟩ := compile_eq_ok h
    · cases hnone.symm.trans he
    · obtain rfl := Option.some.inj (hsome.symm.trans he)
      have hrefused : ∀ leaf ∈ e'.leaves, ¬ leaf.Refused schema.typeOf :=
        Expression.not_refused_of_lower (fun _ => rfl) hlower
      intro leaf hleaf f hpattern hordered
      cases hpattern
      exact hrefused _ hleaf (.like hordered)
  constructor
  · intro leaf hleaf f hcompares
    exact hequality f ⟨e, he, leaf, hleaf, hcompares⟩
  · intro leaf hleaf f hpattern
    exact iff_of_false (hordered h leaf hleaf f hpattern) (hordered h' leaf hleaf f hpattern)

/-- Two schemas give one request when they agree on which of the fields compared for equality are
analyzed, and the notes on the request tell whether they do. -/
theorem compile_eq_iff (hregular : ∀ e ∈ s.condition, e.Regular)
    (h : s.compile o schema.resolver = .ok r) (h' : s.compile o schema'.resolver = .ok r') :
    (r.notes.map Note.message = r'.notes.map Note.message ↔
      ∀ f, s.AsksEquality f → (schema.typeOf f = .analyzed ↔ schema'.typeOf f = .analyzed)) ∧
    ((∀ f, s.AsksEquality f → (schema.typeOf f = .analyzed ↔ schema'.typeOf f = .analyzed)) →
      r = r') := by
  have hsame (hequality : ∀ f, s.AsksEquality f →
      (schema.typeOf f = .analyzed ↔ schema'.typeOf f = .analyzed)) : r = r' := by
    have houtcome :
        SameOutcome (s.compile o schema.resolver) (s.compile o schema'.resolver) :=
      sameOutcome_compile (fun _ => rfl) (fun _ => rfl) (typedAlike_of_compile h h' hequality)
    rw [h, h'] at houtcome
    cases houtcome
    rfl
  refine ⟨⟨fun hmessages f hasks => ?_, fun hequality => by rw [hsame hequality]⟩, hsame⟩
  have hnotes : r.notes = r'.notes := Note.message_injective.list_map hmessages
  have hmem := mem_notes_of_compile (f := f) hregular h
  have hmem' := mem_notes_of_compile (f := f) hregular h'
  rw [hnotes, hmem'] at hmem
  simpa [hasks] using hmem.symm

end Statement

theorem Request.ofText_eq_compile {resolve : Resolver} {sql : String} {s : Statement}
    (hs : Statement.ofText sql = .ok s) : Request.ofText o resolve sql = s.compile o resolve := by
  rw [Request.ofText, hs]
  rfl

namespace CommandLine

open Session Transcript

variable {world : World} {around : Surroundings} {flags : Flags} {config : Config} {sql : String}
  {s : Statement} {r : Request} {err : Error}

/-- The lines of an explanation. -/
def explanation (sql : String) (s : Statement) (r : Request) : List String :=
  ["sqles Query Explanation", "", "Query: " ++ sql, ""] ++ statementLines s ++ noteLines r.notes ++
    ["", "Request:", "POST /" ++ r.searchPath, r.body.pretty 0]

/-- The lines of a dry run. -/
def dryRunLines (verbose : Bool) (sql : String) (r : Request) : List String :=
  (if verbose then ["Input: " ++ sql] else []) ++ ["POST /" ++ r.searchPath, r.body.pretty 0]

theorem replay_explainQuery (hconfig : (loadConfig around flags).replay world = quiet (.ok config))
    (hs : Statement.ofText sql = .ok s)
    (hr : Request.ofText config.options config.fields.resolver sql = .ok r) :
    (explainQuery around flags sql).replay world =
      { output := explanation sql s r, complaints := [], calls := [], result := .ok () } := by
  simp [explainQuery, replay_bind, hconfig, hs, hr, before, quiet, explanation, Report.requestLines]

/-- An explanation that comes to an end has a configuration, a statement and a request. -/
theorem exists_of_explainQuery
    (hok : ((explainQuery around flags sql).replay world).result = .ok ()) :
    ∃ config s r, (loadConfig around flags).replay world = quiet (.ok config) ∧
      Statement.ofText sql = .ok s ∧
      Request.ofText config.options config.fields.resolver sql = .ok r := by
  have hquiet := (quiet_loadConfig world around flags).replay_eq
  cases hconfig : ((loadConfig around flags).replay world).result with
  | error err =>
    rw [hconfig] at hquiet
    simp [explainQuery, replay_bind, hquiet, before, quiet] at hok
  | ok config =>
    rw [hconfig] at hquiet
    cases hs : Statement.ofText sql with
    | error err => simp [explainQuery, replay_bind, hquiet, hs, before, quiet] at hok
    | ok s =>
      cases hr : Request.ofText config.options config.fields.resolver sql with
      | error err => simp [explainQuery, replay_bind, hquiet, hs, hr, before, quiet] at hok
      | ok r => exact ⟨config, s, r, hquiet, rfl, hr⟩

/-- A query run that comes to an end has all the mappings and a request. -/
theorem exists_of_runQuery (hconfig : (loadConfig around flags).replay world = quiet (.ok config))
    (hok : ((runQuery around flags sql).replay world).result = .ok ()) :
    (∀ c ∈ mappingCalls config flags.mapping sql, world.answers c = true) ∧
      ∃ r, compiled world config flags.mapping sql = .ok r := by
  have hrun : QueryRun world config flags sql _ := queryRun_replay hconfig
  generalize (runQuery around flags sql).replay world = t at hrun hok
  cases hrun with
  | unfetched => cases hok
  | uncompiled => cases hok
  | shown hanswers hcompiled => exact ⟨hanswers, _, hcompiled⟩
  | sent hanswers hcompiled => exact ⟨hanswers, _, hcompiled⟩

/-- A dry run that gets all the mappings and compiles shows its request. -/
theorem replay_runQuery_dry (hconfig : (loadConfig around flags).replay world = quiet (.ok config))
    (hdry : flags.dryRun = true)
    (hanswers : ∀ c ∈ mappingCalls config flags.mapping sql, world.answers c = true)
    (hcompiled : compiled world config flags.mapping sql = .ok r) :
    (runQuery around flags sql).replay world =
      { output := dryRunLines flags.verbose sql r, complaints := r.notes.map noteLine
        calls := mappingCalls config flags.mapping sql, result := .ok () } := by
  have hrun : QueryRun world config flags sql _ := queryRun_replay hconfig
  generalize (runQuery around flags sql).replay world = t at hrun ⊢
  cases hrun with
  | unfetched hlost =>
    obtain ⟨c, hmem, hc⟩ := hlost
    simp [hanswers c hmem] at hc
  | uncompiled _ herror => cases herror.symm.trans hcompiled
  | shown _ hcompiled' =>
    obtain rfl := Except.ok.inj (hcompiled'.symm.trans hcompiled)
    rfl
  | sent _ _ hsent => simp [hdry] at hsent

/-- A run succeeds just when its task comes to an end. -/
theorem succeeds_iff {args : List String} {invocation : Invocation}
    (hargs : Invocation.ofArguments args = .ok invocation) :
    ((run around args).replay world).result = .ok 0 ↔
      ((runTask around invocation).replay world).result = .ok () := by
  rw [replay_task hargs, before]
  cases ((runTask around invocation).replay world).result with
  | error err => simp [closing]
  | ok done => simp [closing, quiet]

/-- A run to explain a text leaves the explanation behind. -/
theorem replay_run_explain {args : List String}
    (hargs : Invocation.ofArguments args = .ok ⟨flags, .explain sql⟩)
    (hconfig : (loadConfig around flags).replay world = quiet (.ok config))
    (hs : Statement.ofText sql = .ok s)
    (hr : Request.ofText config.options config.fields.resolver sql = .ok r) :
    (run around args).replay world =
      { output := explanation sql s r, complaints := [], calls := [], result := .ok 0 } := by
  rw [replay_task hargs, runTask, replay_explainQuery hconfig hs hr]
  simp [before, closing, quiet]

/-- A dry run of a text asks for the mappings and shows the request. -/
theorem replay_run_dry {args : List String}
    (hargs : Invocation.ofArguments args = .ok ⟨flags, .query sql⟩)
    (hconfig : (loadConfig around flags).replay world = quiet (.ok config))
    (hdry : flags.dryRun = true)
    (hanswers : ∀ c ∈ mappingCalls config flags.mapping sql, world.answers c = true)
    (hcompiled : compiled world config flags.mapping sql = .ok r) :
    (run around args).replay world =
      { output := dryRunLines flags.verbose sql r, complaints := r.notes.map noteLine
        calls := mappingCalls config flags.mapping sql, result := .ok 0 } := by
  rw [replay_task hargs, runTask, replay_runQuery_dry hconfig hdry hanswers hcompiled]
  simp [before, closing, quiet]

/-- How the request that an explanation shows stands to the one that a dry run shows. The first is
compiled with the configured fields, the other with the mappings below them. -/
structure Explains (world : World) (config : Config) (mapping : Bool) (sql : String)
    (s : Statement) (r r' : Request) : Prop where
  parsed : Statement.ofText sql = .ok s
  explained : Request.ofText config.options config.fields.resolver sql = .ok r
  shown : compiled world config mapping sql = .ok r'
  path : r.searchPath = r'.searchPath
  same_iff : r.body.pretty 0 = r'.body.pretty 0 ∧
      r.notes.map Note.message = r'.notes.map Note.message ↔
    ∀ f, s.AsksEquality f → config.fields.get? f = none →
      (knownFields world config mapping sql).typeOf f = .analyzed
  unmapped : mapping = false → r = r'

/-- A configured field has its type whatever the mappings say of it. -/
theorem typeOf_knownFields {mapping : Bool} {f : String} {type : FieldType}
    (hfield : config.fields.get? f = some type) :
    (knownFields world config mapping sql).typeOf f = config.fields.typeOf f := by
  rw [knownFields]
  split
  · rw [Schema.typeOf, Schema.typeOf, Schema.get?_merge, hfield, Option.some_or]
  · rfl

/-- The configured fields and the mappings below them agree on analyzed text just when the mappings
give no other type to a field that is not configured. -/
theorem analyzed_knownFields_iff {mapping : Bool} {f : String} :
    (config.fields.typeOf f = .analyzed ↔
        (knownFields world config mapping sql).typeOf f = .analyzed) ↔
      (config.fields.get? f = none →
        (knownFields world config mapping sql).typeOf f = .analyzed) := by
  cases hfield : config.fields.get? f with
  | none =>
    have hanalyzed : config.fields.typeOf f = .analyzed := by
      rw [Schema.typeOf, hfield]
      rfl
    simp [hanalyzed]
  | some type =>
    simp [typeOf_knownFields hfield]

theorem explains_of_compiled {mapping : Bool} {r' : Request} (hs : Statement.ofText sql = .ok s)
    (hr : Request.ofText config.options config.fields.resolver sql = .ok r)
    (hr' : compiled world config mapping sql = .ok r') :
    Explains world config mapping sql s r r' := by
  have hcompile := hr
  have hcompile' := hr'
  rw [Request.ofText_eq_compile hs] at hcompile
  rw [compiled, Request.ofText_eq_compile hs] at hcompile'
  obtain ⟨hmessages, hsame⟩ :=
    Statement.compile_eq_iff (Statement.regular_of_ofText hs) hcompile hcompile'
  have hagree : (∀ f, s.AsksEquality f → (config.fields.typeOf f = .analyzed ↔
      (knownFields world config mapping sql).typeOf f = .analyzed)) ↔
      ∀ f, s.AsksEquality f → config.fields.get? f = none →
        (knownFields world config mapping sql).typeOf f = .analyzed :=
    forall_congr' fun f => imp_congr_right fun _ => analyzed_knownFields_iff
  have htargets {resolve : Resolver} {r : Request} (h : s.compile config.options resolve = .ok r) :
      r.targets = s.targets := by
    obtain ⟨query, notes, hassemble, _⟩ := Statement.compile_eq_ok h
    exact (Statement.assemble_eq_ok hassemble).1
  refine ⟨hs, hr, hr', ?_, ?_, ?_⟩
  · rw [Request.searchPath, Request.searchPath, htargets hcompile, htargets hcompile']
  · constructor
    · rintro ⟨_, hequal⟩
      exact hagree.1 (hmessages.1 hequal)
    · intro hunmapped
      have hequal := hsame (hagree.2 hunmapped)
      rw [hequal]
      exact ⟨rfl, rfl⟩
  · rintro rfl
    exact hsame fun f _ => Iff.rfl

/-- A mapping of the index bank that has one field. -/
def bankMapping (field type : String) : Json :=
  .single "bank" (.single "mappings" (.single "properties"
    (.single field (.single "type" (.text type)))))

/-- There is no file, and the server answers with this mapping. -/
def bankWorld (field type : String) : World :=
  { file := fun _ => .missing, reply := fun _ => .answer 200 (bankMapping field type).compact }

theorem answer_bankWorld (field type : String) (c : Call) :
    (bankWorld field type).answer c = .ok (bankMapping field type) := by
  have hread (value : Json) (hback : Json.ReadsBack Json.maxDepth value) :
      Server.readReply c.url (.answer 200 value.compact) = .ok value := by
    simp only [Server.readReply, Json.parse?_compact hback]
    rfl
  apply hread
  iterate 5 apply Json.readsBack_single
  apply Json.readsBack_text

theorem answers_bankWorld (field type : String) (c : Call) :
    (bankWorld field type).answers c = true := by
  rw [World.answers, answer_bankWorld]
  rfl

theorem mappingCalls_bank (hs : Statement.ofText sql = .ok s)
    (htargets : s.targets = [⟨"bank", none⟩]) :
    mappingCalls .default true sql = [.get "http://localhost:9200/bank/_mapping"] := by
  have hindices : sortedIndices s = ["bank"] := by
    rw [sortedIndices, htargets]
    rfl
  simp only [mappingCalls, hs, hindices]
  rfl

theorem knownFields_bankWorld (hs : Statement.ofText sql = .ok s)
    (htargets : s.targets = [⟨"bank", none⟩]) (field type : String) :
    knownFields (bankWorld field type) .default true sql =
      (Schema.empty.merge (.ofMapping (bankMapping field type))).merge .empty := by
  rw [knownFields, mappingCalls_bank hs htargets]
  simp only [↓reduceIte, List.map_cons, List.map_nil, World.mapping, answer_bankWorld]
  rfl

/-- An explanation and a dry run of a text show the same path. They show the same body and the same
notes just when the mappings, which only the dry run asks for, take every field that is compared for
equality and is not configured for analyzed text. -/
theorem explanation_shows_dry_run_iff (world : World) (around : Surroundings)
    {args args' : List String} {flags' : Flags}
    (hargs : Invocation.ofArguments args = .ok ⟨flags, .explain sql⟩)
    (hargs' : Invocation.ofArguments args' = .ok ⟨flags', .query sql⟩)
    (hconfig : flags'.config = flags.config) (hurl : flags'.url = flags.url)
    (hmapping : flags'.mapping = flags.mapping) (hdry : flags'.dryRun = true)
    (hok : ((run around args).replay world).result = .ok 0)
    (hok' : ((run around args').replay world).result = .ok 0) :
    ∃ config s r r', ((loadConfig around flags).replay world).result = .ok config ∧
      Explains world config flags.mapping sql s r r' ∧
      (run around args).replay world =
        { output := explanation sql s r, complaints := [], calls := [], result := .ok 0 } ∧
      (run around args').replay world =
        { output := dryRunLines flags'.verbose sql r', complaints := r'.notes.map noteLine
          calls := mappingCalls config flags.mapping sql, result := .ok 0 } := by
  obtain ⟨config, s, r, hload, hs, hr⟩ := exists_of_explainQuery ((succeeds_iff hargs).1 hok)
  have hload' : (loadConfig around flags').replay world = quiet (.ok config) := by
    rw [loadConfig_congr hconfig hurl, hload]
  obtain ⟨hanswers, r', hr'⟩ := exists_of_runQuery hload' ((succeeds_iff hargs').1 hok')
  have hshown := replay_run_dry hargs' hload' hdry hanswers hr'
  rw [hmapping] at hr' hshown
  refine ⟨config, s, r, r', ?_, explains_of_compiled hs hr hr', ?_, hshown⟩
  · rw [hload]
    rfl
  · exact replay_run_explain hargs hload hs hr

/-- The number that the mapping makes of one field does not show in its range, and the mapping says
nothing of the field that is compared for equality. -/
theorem explanation_shows_dry_run_range :
    let around : Surroundings := { configDir := none, url := none }
    let sql := "SELECT * FROM bank WHERE age > 30 AND city = 'Nogal'"
    let world := bankWorld "age" "long"
    let explained := (run around ["-m", "explain", sql]).replay world
    let dry := (run around ["-dm", "--", sql]).replay world
    (knownFields world .default true sql).typeOf "age" = .numeric ∧
      dry.calls = [.get "http://localhost:9200/bank/_mapping"] ∧
      ∃ s r r', explained.output = explanation sql s r ∧
        dry.output = dryRunLines false sql r' ∧ dry.complaints = r'.notes.map noteLine ∧
        r.body.pretty 0 = r'.body.pretty 0 ∧
        r.notes.map Note.message = r'.notes.map Note.message := by
  intro around sql world explained dry
  let flags : Flags := { Flags.none with mapping := true }
  let dryFlags : Flags := { flags with dryRun := true }
  have hargs : Invocation.ofArguments ["-m", "explain", sql] = .ok ⟨flags, .explain sql⟩ := by cbv
  have hargs' : Invocation.ofArguments ["-dm", "--", sql] = .ok ⟨dryFlags, .query sql⟩ := by cbv
  let e : Expression :=
    .and [.compareLiteral "age" .gt (.integer 30), .compareLiteral "city" .eq (.text "Nogal")]
  let s : Statement :=
    { projection := [.star], targets := [⟨"bank", none⟩], condition := some e, order := []
      limit := none, offset := none }
  have hs : Statement.ofText sql = .ok s := by cbv
  have hknown : knownFields world .default true sql = .ofPairs [("age", .numeric)] := by
    rw [knownFields_bankWorld hs rfl]
    cbv
  have hok : ((run around ["-m", "explain", sql]).replay world).result = .ok 0 := by
    obtain ⟨r, hr⟩ : ∃ r, s.compile Options.default Config.default.fields.resolver = .ok r :=
      ⟨_, rfl⟩
    rw [replay_run_explain hargs rfl hs ((Request.ofText_eq_compile hs).trans hr)]
  have hok' : ((run around ["-dm", "--", sql]).replay world).result = .ok 0 := by
    obtain ⟨r, hr⟩ : ∃ r, s.compile Options.default
        (Schema.ofPairs [("age", .numeric)]).resolver = .ok r := ⟨_, rfl⟩
    have hcompiled : compiled world .default true sql = .ok r := by
      rw [compiled, hknown, Request.ofText_eq_compile hs]
      exact hr
    rw [replay_run_dry hargs' rfl rfl (fun c _ => answers_bankWorld _ _ c) hcompiled]
  obtain ⟨config, s', r, r', hload, hexplains, hexplained, hdry⟩ :=
    explanation_shows_dry_run_iff world around hargs hargs' rfl rfl rfl rfl hok hok'
  obtain rfl : config = .default := (Except.ok.inj hload).symm
  obtain rfl := Except.ok.inj (hs.symm.trans hexplains.parsed)
  have hcity : ∀ f, s.AsksEquality f → f = "city" := by
    rintro f ⟨_, ⟨⟩, leaf, hleaf, hequality⟩
    have hleaves : e.leaves = [.compareLiteral "age" .gt (.integer 30),
        .compareLiteral "city" .eq (.text "Nogal")] := by rfl
    rw [hleaves, List.mem_pair] at hleaf
    rcases hleaf with rfl | rfl
    · cases hequality with
      | compare hop => simp at hop
    · cases hequality
      rfl
  have hsame := hexplains.same_iff.2 fun f hasks _ => by
    rw [hcity f hasks, hknown]
    rfl
  refine ⟨?_, (congrArg Transcript.calls hdry).trans (mappingCalls_bank hs rfl), s, r, r', ?_, ?_,
    ?_, hsame⟩
  · rw [hknown]
    rfl
  · exact congrArg Transcript.output hexplained
  · exact congrArg Transcript.output hdry
  · exact congrArg Transcript.complaints hdry

/-- The mapping makes an exact value of the field that is compared for equality. The dry run shows
that, and the explanation, given the same options, does not. -/
theorem explanation_of_mapped_keyword :
    let around : Surroundings := { configDir := none, url := none }
    let sql := "SELECT * FROM bank WHERE gender = 'F'"
    let world := bankWorld "gender" "keyword"
    let explained := (run around ["-m", "explain", sql]).replay world
    let dry := (run around ["-dm", "--", sql]).replay world
    let phrase := Json.single "query" (.single "match_phrase" (.single "gender"
      (.single "query" (.text "F"))))
    let term := Json.single "query" (.single "bool" (.single "filter"
      (.list [.single "term" (.single "gender" (.text "F"))])))
    explained.result = .ok 0 ∧ dry.result = .ok 0 ∧
      "  • " ++ (Note.analyzedEquality "gender").message ∈ explained.output ∧
      dry.complaints = [] ∧ explained.output.getLast? = some (phrase.pretty 0) ∧
      dry.output = ["POST /bank/_search", term.pretty 0] ∧ phrase.pretty 0 ≠ term.pretty 0 := by
  intro around sql world explained dry phrase term
  let flags : Flags := { Flags.none with mapping := true }
  let dryFlags : Flags := { flags with dryRun := true }
  have hargs : Invocation.ofArguments ["-m", "explain", sql] = .ok ⟨flags, .explain sql⟩ := by cbv
  have hargs' : Invocation.ofArguments ["-dm", "--", sql] = .ok ⟨dryFlags, .query sql⟩ := by cbv
  let s : Statement :=
    { projection := [.star], targets := [⟨"bank", none⟩]
      condition := some (.compareLiteral "gender" .eq (.text "F")), order := []
      limit := none, offset := none }
  have hs : Statement.ofText sql = .ok s := by cbv
  have hknown : knownFields world .default true sql = .ofPairs [("gender", .exact)] := by
    rw [knownFields_bankWorld hs rfl]
    cbv
  let request (query : Query) (notes : List Note) : Request :=
    { targets := s.targets, query, fetched := .all, sort := [], size := none, start := none
      aggregations := [], notes }
  have hr : s.compile Options.default Config.default.fields.resolver = .ok
      (request (.matchPhrase "gender" (.text "F")) [.analyzedEquality "gender"]) := rfl
  have hr' : s.compile Options.default (Schema.ofPairs [("gender", .exact)]).resolver = .ok
      (request (.bool [] [.term "gender" (.text "F")] [] [] none) []) := rfl
  have hcompiled : compiled world .default true sql = .ok
      (request (.bool [] [.term "gender" (.text "F")] [] [] none) []) := by
    rw [compiled, hknown, Request.ofText_eq_compile hs]
    exact hr'
  have hexplained : explained = _ :=
    replay_run_explain hargs rfl hs ((Request.ofText_eq_compile hs).trans hr)
  have hdry : dry = _ :=
    replay_run_dry hargs' rfl rfl (fun c _ => answers_bankWorld _ _ c) hcompiled
  rw [hexplained, hdry]
  refine ⟨rfl, rfl, ?_, rfl, rfl, rfl, ?_⟩
  · simp [explanation, noteLines, request]
  · decide +kernel

end CommandLine

end SearchSql
