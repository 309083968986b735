import Mathlib
import SearchSql.Proofs.ByteOrder
import SearchSql.Proofs.Members
import SearchSql.Proofs.Sessions

/-!
Runs of a query. A run asks for the mappings of its indices, one after the other, and sends one
request. What a dry run shows is what the other run sends.
-/

namespace SearchSql

open Transcript Session

namespace World

variable {world : World} {c : Call} {calls : List Call}

/-- The calls that are made of a list, of which the first one to fail is the last. -/
def attempted (world : World) (calls : List Call) : List Call :=
  calls.takeWhile world.answers ++ (calls.dropWhile world.answers).take 1

theorem attempted_cons_of_answers (h : world.answers c = true) :
    world.attempted (c :: calls) = c :: world.attempted calls := by
  simp [attempted, h]

theorem attempted_cons_of_not_answers (h : world.answers c = false) :
    world.attempted (c :: calls) = [c] := by
  simp [attempted, h]

theorem attempted_eq_self (h : ∀ c ∈ calls, world.answers c = true) :
    world.attempted calls = calls := by
  rw [attempted, List.takeWhile_eq_self_iff.2 h, List.dropWhile_eq_nil_iff.2 h, List.take_nil,
    List.append_nil]

theorem attempted_subset (world : World) (calls : List Call) : world.attempted calls ⊆ calls := by
  refine List.append_subset.2 ⟨List.takeWhile_subset _, ?_⟩
  exact ((List.take_sublist _ _).trans (List.dropWhile_sublist _)).subset

theorem answers_or (world : World) (calls : List Call) :
    (∀ c ∈ calls, world.answers c = true) ∨ ∃ c ∈ calls, world.answers c = false := by
  by_cases h : ∀ c ∈ calls, world.answers c = true
  · exact .inl h
  · exact .inr (by simpa using h)

/-- The types that a call for a mapping brings. -/
def mapping (world : World) (c : Call) : Schema :=
  match world.answer c with
  | .ok value => .ofMapping value
  | .error _ => .empty

end World

namespace CommandLine

variable {world : World} {around : Surroundings} {flags : Flags} {config : Config} {sql : String}
  {s : Statement} {i url : String} {indices : List String} {known : Schema} {err : Error}

theorem mem_sortedIndices : i ∈ sortedIndices s ↔ ∃ target ∈ s.targets, target.index = i := by
  rw [sortedIndices, Keyed.ofPairs, Keyed.mem_keys_insertAll]
  simp

theorem ascending_sortedIndices : (sortedIndices s).Pairwise (utf8Bytes · < utf8Bytes ·) :=
  List.pairwise_map.2 ((Keyed.ascending_ofPairs _).imp utf8Bytes_lt_of_lt)

/-- The call for the mapping of an index. -/
def mappingCall (url index : String) : Call := .get (Server.mappingUrl url index)

/-- The mappings come back one after the other, or a failure ends it. -/
theorem replay_fetchMappings (world : World) (url : String) (known : Schema)
    (indices : List String) : ∃ result, (fetchMappings url known indices).replay world =
      { output := [], complaints := []
        calls := world.attempted (indices.map (mappingCall url)), result } ∧
    ((∀ c ∈ indices.map (mappingCall url), world.answers c = true) → result = .ok
      (((indices.map (mappingCall url)).map world.mapping).foldl Schema.merge known)) ∧
    ((∃ c ∈ indices.map (mappingCall url), world.answers c = false) →
      ∃ err, result = .error err) := by
  induction indices generalizing known with
  | nil => exact ⟨.ok known, rfl, fun _ => rfl, by simp⟩
  | cons i indices ih =>
    have hfetch := Server.replay_fetchMapping world url i
    rw [fetchMappings, List.map_cons]
    cases hanswer : world.answer (mappingCall url i) with
    | error err =>
      have hanswers : world.answers (mappingCall url i) = false := by
        rw [World.answers, hanswer]
        rfl
      rw [← mappingCall, hanswer] at hfetch
      rw [World.attempted_cons_of_not_answers hanswers, replay_bind, hfetch]
      refine ⟨.error err, rfl, fun hall => ?_, fun _ => ⟨err, rfl⟩⟩
      simp [hanswers] at hall
    | ok value =>
      have hanswers : world.answers (mappingCall url i) = true := by
        rw [World.answers, hanswer]
        rfl
      have hmapping : world.mapping (mappingCall url i) = .ofMapping value := by
        rw [World.mapping, hanswer]
      rw [← mappingCall, hanswer] at hfetch
      obtain ⟨result, hrest, hok, herror⟩ := ih (known.merge (.ofMapping value))
      rw [World.attempted_cons_of_answers hanswers, replay_bind, hfetch]
      refine ⟨result, ?_, fun hall => ?_, fun hfails => herror ?_⟩
      · simp only [Except.map, hrest]
        rfl
      · rw [hok fun c hc => hall c (List.mem_cons_of_mem _ hc), List.map_cons, List.foldl_cons,
          hmapping]
      · simpa [hanswers] using hfails

/-- The calls for the mappings of the indices of a text, if they are asked for. -/
def mappingCalls (config : Config) (mapping : Bool) (sql : String) : List Call :=
  match mapping, Statement.ofText sql with
  | true, .ok s => (sortedIndices s).map (mappingCall config.server.url)
  | _, _ => []

/-- The types that a run compiles with: the configured ones, on top of those that the mappings
bring. -/
def knownFields (world : World) (config : Config) (mapping : Bool) (sql : String) : Schema :=
  if mapping then
    (((mappingCalls config mapping sql).map world.mapping).foldl Schema.merge .empty).merge
      config.fields
  else config.fields

/-- What the text compiles to with these types. -/
def compiled (world : World) (config : Config) (mapping : Bool) (sql : String) :
    Except Error Request :=
  Request.ofText config.options (knownFields world config mapping sql).resolver sql

theorem replay_buildSchema (world : World) (config : Config) (flags : Flags) (sql : String) :
    ∃ result, (buildSchema config flags sql).replay world =
      { output := [], complaints := []
        calls := world.attempted (mappingCalls config flags.mapping sql), result } ∧
    ((∀ c ∈ mappingCalls config flags.mapping sql, world.answers c = true) →
      result = .ok (knownFields world config flags.mapping sql) ∨
        ∃ err, result = .error err ∧ Statement.ofText sql = .error err) ∧
    ((∃ c ∈ mappingCalls config flags.mapping sql, world.answers c = false) →
      ∃ err, result = .error err) := by
  unfold buildSchema
  cases hmapping : flags.mapping with
  | false => exact ⟨_, rfl, fun _ => .inl rfl, by simp [mappingCalls]⟩
  | true =>
    cases hs : Statement.ofText sql with
    | error err =>
      have hnone : mappingCalls config true sql = [] := by simp [mappingCalls, hs]
      rw [hnone]
      exact ⟨.error err, rfl, fun _ => .inr ⟨err, rfl, rfl⟩, by simp⟩
    | ok s =>
      have hsome : mappingCalls config true sql =
          (sortedIndices s).map (mappingCall config.server.url) := by simp [mappingCalls, hs]
      obtain ⟨result, hfetch, hok, herror⟩ := replay_fetchMappings world config.server.url
        .empty (sortedIndices s)
      rw [← hsome] at hfetch hok herror
      refine ⟨result.map (·.merge config.fields), ?_, fun hall => .inl ?_, fun hfails => ?_⟩
      · change (fetchMappings _ _ _ >>= fun fetched => pure (fetched.merge config.fields)).replay
          world = _
        rw [replay_bind, hfetch]
        cases result <;> simp [Except.map, before, quiet]
      · rw [hok hall, knownFields]
        rfl
      · obtain ⟨err, rfl⟩ := herror hfails
        exact ⟨err, rfl⟩

theorem replay_sayIf (condition : Bool) (line : String) : (sayIf condition line).replay world =
    { output := if condition then [line] else [], complaints := [], calls := []
      result := .ok () } := by
  cases condition <;> rfl

theorem replay_send_request (world : World) (url : String) (verbose : Bool) (r : Request)
    (format : Format) :
    ∃ output, (do
      sayIf verbose ("Server: " ++ url)
      let response ← Server.search url r
      Session.sayAll (resultLines format r response) : Session Unit).replay world =
    { output, complaints := [], calls := [.post (Server.searchUrl url r) r.body]
      result := (world.answer (.post (Server.searchUrl url r) r.body) >>=
        Response.ofBody).map fun _ => () } := by
  simp only [replay_bind, replay_sayIf, Server.replay_search]
  cases world.answer (.post (Server.searchUrl url r) r.body) >>= Response.ofBody with
  | error err =>
    exact ⟨if verbose then ["Server: " ++ url] else [], by simp [before, quiet, Except.map]⟩
  | ok response =>
    exact ⟨(if verbose then ["Server: " ++ url] else []) ++ resultLines format r response,
      by simp [before, Except.map]⟩

/-- How a query run goes once it has its configuration. -/
inductive QueryRun (world : World) (config : Config) (flags : Flags) (sql : String) :
    Transcript Unit → Prop
  | unfetched {output err} :
      (∃ c ∈ mappingCalls config flags.mapping sql, world.answers c = false) →
      QueryRun world config flags sql
        { output, complaints := []
          calls := world.attempted (mappingCalls config flags.mapping sql), result := .error err }
  | uncompiled {output err err'} :
      (∀ c ∈ mappingCalls config flags.mapping sql, world.answers c = true) →
      compiled world config flags.mapping sql = .error err →
      QueryRun world config flags sql
        { output, complaints := [], calls := mappingCalls config flags.mapping sql
          result := .error err' }
  | shown {r} :
      (∀ c ∈ mappingCalls config flags.mapping sql, world.answers c = true) →
      compiled world config flags.mapping sql = .ok r → flags.dryRun = true →
      QueryRun world config flags sql
        { output := (if flags.verbose then ["Input: " ++ sql] else []) ++ Report.requestLines r
          complaints := r.notes.map noteLine, calls := mappingCalls config flags.mapping sql
          result := .ok () }
  | sent {r output} :
      (∀ c ∈ mappingCalls config flags.mapping sql, world.answers c = true) →
      compiled world config flags.mapping sql = .ok r → flags.dryRun = false →
      QueryRun world config flags sql
        { output, complaints := r.notes.map noteLine
          calls := mappingCalls config flags.mapping sql ++
            [.post (Server.searchUrl config.server.url r) r.body]
          result := (world.answer (.post (Server.searchUrl config.server.url r) r.body) >>=
            Response.ofBody).map fun _ => () }

theorem queryRun_replay (hconfig : (loadConfig around flags).replay world = quiet (.ok config)) :
    QueryRun world config flags sql ((runQuery around flags sql).replay world) := by
  obtain ⟨result, hbuild, hanswered, hfailed⟩ :=
    replay_buildSchema world config flags sql
  rw [runQuery, replay_bind, replay_sayIf]
  simp only [replay_bind, hconfig, quiet_result, quiet_before, hbuild]
  obtain hall | hfails := world.answers_or (mappingCalls config flags.mapping sql)
  · rw [World.attempted_eq_self hall]
    obtain rfl | ⟨err, rfl, hs⟩ := hanswered hall
    · simp only [replay_ofExcept, quiet_result, replay_complainAll]
      cases hcompiled : compiled world config flags.mapping sql with
      | error err =>
        have htext := hcompiled
        rw [compiled] at htext
        simpa [htext, before, quiet] using .uncompiled hall hcompiled
      | ok r =>
        have htext := hcompiled
        rw [compiled] at htext
        cases hdry : flags.dryRun with
        | true => simpa [htext, before, quiet] using .shown hall hcompiled hdry
        | false =>
          obtain ⟨output, hsend⟩ := replay_send_request world config.server.url flags.verbose r
            (flags.format.getD .table)
          simpa [htext, hsend, before, quiet] using .sent hall hcompiled hdry
    · have hcompiled : compiled world config flags.mapping sql = .error err := by
        rw [compiled, Request.ofText, hs]
        rfl
      simpa [before, quiet] using .uncompiled hall hcompiled
  · obtain ⟨err, rfl⟩ := hfailed hfails
    simpa [before, quiet] using .unfetched hfails

/-- How a run ends after its task. -/
def closing : Except Error Unit → Transcript Nat
  | .ok () => quiet (.ok 0)
  | .error err =>
    { output := [], complaints := ["Error: " ++ err.message], calls := [], result := .ok 1 }

theorem closing_calls (result : Except Error Unit) : (closing result).calls = [] := by
  cases result <;> rfl

/-- A run is its task and what it ends with. -/
theorem replay_task {args : List String} {invocation : Invocation}
    (hargs : Invocation.ofArguments args = .ok invocation) :
    (run around args).replay world = ((runTask around invocation).replay world).before
      (closing ((runTask around invocation).replay world).result) := by
  rw [run, hargs]
  dsimp only
  rw [replay_andThen]
  congr 1
  cases ((runTask around invocation).replay world).result <;> rfl

theorem replay_run {args : List String}
    (hargs : Invocation.ofArguments args = .ok ⟨flags, .query sql⟩) :
    (run around args).replay world = ((runQuery around flags sql).replay world).before
      (closing ((runQuery around flags sql).replay world).result) := replay_task hargs

/-- The mappings that are asked for: one for each index, in the order of the bytes. -/
structure Asks (config : Config) (mapping : Bool) (sql : String) (gets : List Call) : Prop where
  unasked : mapping = false ∨ (∃ err, Statement.ofText sql = .error err) → gets = []
  asked : ∀ s, mapping = true → Statement.ofText sql = .ok s → ∃ indices : List String,
    gets = indices.map (fun i => .get (Server.baseUrl config.server.url ++ "/" ++ i ++
      "/_mapping")) ∧
    indices.Pairwise (utf8Bytes · < utf8Bytes ·) ∧
    ∀ i, i ∈ indices ↔ ∃ target ∈ s.targets, target.index = i

/-- What a run asks of the server, and how it ends. -/
structure Sends (world : World) (config : Config) (flags : Flags) (sql : String)
    (t : Transcript Nat) : Prop where
  posted : ∀ r, flags.dryRun = false →
    (∀ c ∈ mappingCalls config flags.mapping sql, world.answers c = true) →
    compiled world config flags.mapping sql = .ok r →
    t.calls = world.attempted (mappingCalls config flags.mapping sql) ++
      [.post (Server.searchUrl config.server.url r) r.body]
  unposted : flags.dryRun = true ∨
    (∃ c ∈ mappingCalls config flags.mapping sql, world.answers c = false) ∨
    (∃ err, compiled world config flags.mapping sql = .error err) →
    t.calls = world.attempted (mappingCalls config flags.mapping sql)
  ended : t.result = .ok 0 ∨ t.result = .ok 1
  failed : t.result = .ok 1 ↔
    (∃ c ∈ mappingCalls config flags.mapping sql, world.answers c = false) ∨
    (∃ err, compiled world config flags.mapping sql = .error err) ∨
    flags.dryRun = false ∧ ∃ r err, compiled world config flags.mapping sql = .ok r ∧
      world.answer (.post (Server.searchUrl config.server.url r) r.body) >>= Response.ofBody =
        .error err

theorem asks_mappingCalls (config : Config) (mapping : Bool) (sql : String) :
    Asks config mapping sql (mappingCalls config mapping sql) where
  unasked h := by
    obtain rfl | ⟨err, hs⟩ := h
    · rfl
    · cases mapping <;> simp [mappingCalls, hs]
  asked s hmapping hs := by
    refine ⟨sortedIndices s, ?_, ascending_sortedIndices, fun i => mem_sortedIndices⟩
    simp only [mappingCalls, hmapping, hs]
    rfl

theorem sends_of_queryRun {t : Transcript Unit} (h : QueryRun world config flags sql t) :
    Sends world config flags sql (t.before (closing t.result)) := by
  cases h with
  | unfetched hfails =>
    obtain ⟨c, hmem, hc⟩ := id hfails
    refine ⟨fun r _ hall _ => ?_, fun _ => List.append_nil _, .inr rfl,
      ⟨fun _ => .inl hfails, fun _ => rfl⟩⟩
    simp [hall c hmem] at hc
  | @uncompiled _ err _ hall hcompiled =>
    refine ⟨fun r _ _ hr => ?_, fun _ => ?_, .inr rfl,
      ⟨fun _ => .inr (.inl ⟨err, hcompiled⟩), fun _ => rfl⟩⟩
    · cases hr.symm.trans hcompiled
    · rw [World.attempted_eq_self hall]
      exact List.append_nil _
  | @shown r hall hcompiled hdry =>
    refine ⟨fun _ hwet => ?_, fun _ => ?_, .inl rfl, ⟨nofun, ?_⟩⟩
    · simp [hdry] at hwet
    · rw [World.attempted_eq_self hall]
      exact List.append_nil _
    · rintro (⟨c, hmem, hc⟩ | ⟨err, herror⟩ | ⟨hwet, _⟩)
      · simp [hall c hmem] at hc
      · cases herror.symm.trans hcompiled
      · simp [hdry] at hwet
  | @sent r output hall hcompiled hdry =>
    refine ⟨fun r' _ _ hr => ?_, ?_, ?_, ?_⟩
    · obtain rfl := Except.ok.inj (hcompiled.symm.trans hr)
      rw [World.attempted_eq_self hall]
      simp [before, closing_calls]
    · rintro (hshown | ⟨c, hmem, hc⟩ | ⟨err, herror⟩)
      · simp [hdry] at hshown
      · simp [hall c hmem] at hc
      · cases herror.symm.trans hcompiled
    · cases world.answer (.post (Server.searchUrl config.server.url r) r.body) >>= Response.ofBody
      · exact .inr rfl
      · exact .inl rfl
    · cases hresponse : world.answer (.post (Server.searchUrl config.server.url r) r.body) >>=
          Response.ofBody with
      | error err => exact ⟨fun _ => .inr (.inr ⟨hdry, r, err, hcompiled, hresponse⟩), fun _ => rfl⟩
      | ok response =>
        refine ⟨nofun, ?_⟩
        rintro (⟨c, hmem, hc⟩ | ⟨err, herror⟩ | ⟨_, r', err, hr, herror⟩)
        · simp [hall c hmem] at hc
        · cases herror.symm.trans hcompiled
        · obtain rfl := Except.ok.inj (hcompiled.symm.trans hr)
          cases herror.symm.trans hresponse

/-- What a dry run shows is what the other run sends, if either gets that far. -/
structure Shows (world : World) (config : Config) (flags : Flags) (sql : String)
    (dry wet : Transcript Nat) : Prop where
  reached : dry.result = .ok 0 ↔ ∃ url body, .post url body ∈ wet.calls
  request : ∀ url body, .post url body ∈ wet.calls → ∃ path,
    url = Server.baseUrl config.server.url ++ "/" ++ path ∧
    wet.calls = dry.calls ++ [.post url body] ∧
    dry.output = (if flags.verbose then ["Input: " ++ sql] else []) ++
      ["POST /" ++ path, body.pretty 0]
  notes : ∀ url body, .post url body ∈ wet.calls → ∃ r,
    compiled world config flags.mapping sql = .ok r ∧
    dry.complaints = r.notes.map noteLine ∧
    (wet.result = .ok 0 ∧ wet.complaints = r.notes.map noteLine ∨
      wet.result = .ok 1 ∧ ∃ err : Error,
        wet.complaints = r.notes.map noteLine ++ ["Error: " ++ err.message])

theorem not_mem_mappingCalls {mapping : Bool} {body : Json} :
    .post url body ∉ mappingCalls config mapping sql := by
  intro hmem
  unfold mappingCalls at hmem
  split at hmem
  · obtain ⟨i, _, hi⟩ := List.mem_map.1 hmem
    cases hi
  · cases hmem

/-- A run that lacks a mapping or a request fails after the calls for mappings. -/
theorem QueryRun.failed {t : Transcript Unit} (h : QueryRun world config flags sql t)
    (hfails : (∃ c ∈ mappingCalls config flags.mapping sql, world.answers c = false) ∨
      ∃ err, compiled world config flags.mapping sql = .error err) :
    (∃ err, t.result = .error err) ∧
      t.calls = world.attempted (mappingCalls config flags.mapping sql) := by
  cases h with
  | unfetched => exact ⟨⟨_, rfl⟩, rfl⟩
  | uncompiled hall => exact ⟨⟨_, rfl⟩, (World.attempted_eq_self hall).symm⟩
  | shown hall hcompiled | sent hall hcompiled =>
    obtain ⟨c, hmem, hc⟩ | ⟨err, herror⟩ := hfails
    · simp [hall c hmem] at hc
    · cases herror.symm.trans hcompiled

theorem shows_of_queryRun {flags' : Flags} {t t' : Transcript Unit}
    (h : QueryRun world config flags sql t) (h' : QueryRun world config flags' sql t')
    (hmapping : flags'.mapping = flags.mapping) (hdry : flags.dryRun = true)
    (hwet : flags'.dryRun = false) : Shows world config flags sql (t.before (closing t.result))
      (t'.before (closing t'.result)) := by
  by_cases hfails : (∃ c ∈ mappingCalls config flags.mapping sql, world.answers c = false) ∨
      ∃ err, compiled world config flags.mapping sql = .error err
  · obtain ⟨⟨err, herror⟩, _⟩ := h.failed hfails
    obtain ⟨_, hcalls⟩ := h'.failed (hmapping ▸ hfails)
    have hnone (url : String) (body : Json) :
        .post url body ∉ (t'.before (closing t'.result)).calls := by
      rw [before, closing_calls, List.append_nil, hcalls]
      exact fun hmem => not_mem_mappingCalls (world.attempted_subset _ hmem)
    refine ⟨⟨fun hok => ?_, fun ⟨url, body, hmem⟩ => (hnone url body hmem).elim⟩,
      fun url body hmem => (hnone url body hmem).elim,
      fun url body hmem => (hnone url body hmem).elim⟩
    rw [herror] at hok
    cases hok
  · cases h with
    | unfetched hlost => exact (hfails (.inl hlost)).elim
    | uncompiled _ herror => exact (hfails (.inr ⟨_, herror⟩)).elim
    | sent _ _ hsent => simp [hdry] at hsent
    | @shown r hall hcompiled _ =>
      cases h' with
      | unfetched hlost => exact (hfails (.inl (hmapping ▸ hlost))).elim
      | uncompiled _ herror => exact (hfails (.inr ⟨_, hmapping ▸ herror⟩)).elim
      | shown _ _ hshown => simp [hwet] at hshown
      | @sent r' output _ hcompiled' _ =>
        rw [hmapping] at hcompiled'
        obtain rfl := Except.ok.inj (hcompiled.symm.trans hcompiled')
        have hpost {url body} (hmem : .post url body ∈ mappingCalls config flags'.mapping sql ++
            [.post (Server.searchUrl config.server.url r) r.body] ++ []) :
            url = Server.searchUrl config.server.url r ∧ body = r.body := by
          simpa [not_mem_mappingCalls] using hmem
        simp only [before, closing_calls]
        refine ⟨⟨fun _ => ⟨Server.searchUrl config.server.url r, r.body, by simp⟩, fun _ => rfl⟩,
          fun url body hmem => ?_, fun url body _ => ⟨r, hcompiled, by simp [closing, quiet], ?_⟩⟩
        · obtain ⟨rfl, rfl⟩ := hpost hmem
          exact ⟨r.searchPath, rfl, by simp [hmapping], by simp [closing, quiet,
            Report.requestLines]⟩
        · cases world.answer (.post (Server.searchUrl config.server.url r) r.body) >>=
              Response.ofBody with
          | error err => exact .inr ⟨rfl, err, rfl⟩
          | ok response => exact .inl ⟨rfl, List.append_nil _⟩

theorem loadConfig_congr {flags' : Flags} (hconfig : flags'.config = flags.config)
    (hurl : flags'.url = flags.url) : loadConfig around flags' = loadConfig around flags := by
  unfold loadConfig
  rw [hconfig, hurl]

/-- A query run asks for the mappings, if they are wanted, up to the first that fails. Then it sends
one request, unless that is only to be shown. A dry run shows that request and the same notes. -/
theorem query_run_sends_what_dry_run_shows (world : World) (around : Surroundings)
    {args : List String}
    (hargs : Invocation.ofArguments args = .ok ⟨flags, .query sql⟩) :
    (∀ err, ((loadConfig around flags).replay world).result = .error err →
      ((run around args).replay world).calls = [] ∧
      ((run around args).replay world).result = .ok 1) ∧
    ∀ config, ((loadConfig around flags).replay world).result = .ok config →
      Asks config flags.mapping sql (mappingCalls config flags.mapping sql) ∧
      Sends world config flags sql ((run around args).replay world) ∧
      ∀ args' flags', Invocation.ofArguments args' = .ok ⟨flags', .query sql⟩ →
        flags'.config = flags.config → flags'.url = flags.url → flags'.mapping = flags.mapping →
        flags.dryRun = true → flags'.dryRun = false →
        Shows world config flags sql ((run around args).replay world)
          ((run around args').replay world) := by
  have hquiet := (quiet_loadConfig world around flags).replay_eq
  constructor
  · intro err herror
    rw [herror] at hquiet
    rw [replay_run hargs, runQuery, replay_bind, replay_sayIf]
    simp [replay_bind, hquiet, before, quiet, closing]
  · intro config hconfig
    rw [hconfig] at hquiet
    refine ⟨asks_mappingCalls config flags.mapping sql, ?_, ?_⟩
    · rw [replay_run hargs]
      exact sends_of_queryRun (queryRun_replay hquiet)
    · intro args' flags' hargs' hconfig' hurl hmapping hdry hwet
      have hquiet' : (loadConfig around flags').replay world = quiet (.ok config) := by
        rw [loadConfig_congr hconfig' hurl, hquiet]
      rw [replay_run hargs, replay_run hargs']
      exact shows_of_queryRun (queryRun_replay hquiet) (queryRun_replay hquiet') hmapping hdry hwet

/-- Two indices are asked for in the order of their names. The server answers, but drops the
connection over the request that the dry run shows. -/
theorem query_run_sends_what_dry_run_shows_mappings :
    let around : Surroundings := { configDir := none, url := none }
    let world : World :=
      { file := fun _ => .missing
        reply := fun
          | .get _ => .answer 200 "\x7b\x7d"
          | .post _ _ => .dropped }
    let sql := "SELECT * FROM b, a WHERE n = 1"
    let dry := (run around ["-dm", "--", sql]).replay world
    let wet := (run around ["-m", "--", sql]).replay world
    dry.calls = [.get "http://localhost:9200/a/_mapping", .get "http://localhost:9200/b/_mapping"] ∧
      dry.result = .ok 0 ∧ wet.result = .ok 1 ∧
      ∃ path body, wet.calls = dry.calls ++ [.post ("http://localhost:9200/" ++ path) body] ∧
        dry.output = ["POST /" ++ path, body.pretty 0] := by
  intro around world sql dry wet
  let flags : Flags := { Flags.none with mapping := true }
  let dryFlags : Flags := { flags with dryRun := true }
  have hargs : Invocation.ofArguments ["-m", "--", sql] = .ok ⟨flags, .query sql⟩ := by cbv
  have hdry : Invocation.ofArguments ["-dm", "--", sql] = .ok ⟨dryFlags, .query sql⟩ := by cbv
  have hgets : mappingCalls .default true sql = [.get "http://localhost:9200/a/_mapping",
      .get "http://localhost:9200/b/_mapping"] := by cbv
  have hanswer (url : String) : world.answer (.get url) = .ok (.object []) := by cbv
  have hall : ∀ c ∈ mappingCalls .default true sql, world.answers c = true := by
    rw [hgets]
    simp [World.answers, hanswer, Except.isOk, Except.toBool]
  have hknown : knownFields world .default true sql = .empty := by
    rw [knownFields, hgets]
    simp only [↓reduceIte, List.map_cons, List.map_nil, World.mapping, hanswer]
    cbv
  obtain ⟨r, hcompiled⟩ : ∃ r, compiled world .default true sql = .ok r := by
    rw [compiled, hknown]
    exact ⟨_, by cbv⟩
  have hsends := ((query_run_sends_what_dry_run_shows world around hargs).2 .default rfl).2.1
  obtain ⟨-, hdrySends, hshows⟩ :=
    (query_run_sends_what_dry_run_shows world around hdry).2 .default rfl
  have hshown := hshows _ flags hargs rfl rfl rfl rfl rfl
  have hdryCalls : dry.calls = mappingCalls .default true sql :=
    (hdrySends.unposted (.inl rfl)).trans (World.attempted_eq_self hall)
  have hposted := hsends.posted r rfl hall hcompiled
  have hpost : .post (Server.searchUrl Config.default.server.url r) r.body ∈ wet.calls := by
    rw [hposted]
    exact List.mem_append_right _ (List.mem_singleton_self _)
  obtain ⟨path, hurl, hcalls, houtput⟩ := hshown.request _ _ hpost
  have hbase : Server.baseUrl Config.default.server.url ++ "/" = "http://localhost:9200/" := by cbv
  rw [hbase] at hurl
  refine ⟨hdryCalls.trans hgets, hshown.reached.2 ⟨_, _, hpost⟩,
    hsends.failed.2 (.inr (.inr ⟨rfl, r, _, hcompiled, rfl⟩)), path, r.body, ?_, houtput⟩
  rw [← hurl]
  exact hcalls

end CommandLine

end SearchSql
