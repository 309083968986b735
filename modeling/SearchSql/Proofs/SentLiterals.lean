import Mathlib
import SearchSql.Proofs.AskedValues
import SearchSql.Proofs.Members
import SearchSql.Proofs.Parsing.Sentence
import SearchSql.Proofs.Printing.Condition
import SearchSql.Proofs.Printing.Decimals

/-!
The literals of a condition in the body of its request. They are sent as values of their kind, but
JSON has no infinities, so a decimal past the largest double is sent as null.
-/

namespace SearchSql

variable {o : Options} {resolve : Resolver} {f : String}

theorem Literal.json_text (s : String) : (Literal.text s).json = .text s := rfl

namespace Json

/-- The kind of literal that a value in a body is. -/
def kind? : Json → Option LiteralKind
  | .integer _ => some .integer
  | .real _ => some .decimal
  | .text _ => some .text
  | .boolean _ => some .boolean
  | .null | .list _ | .object _ => none

/-- A clause of a kind asks for a value of its field. -/
@[mk_iff] inductive Carries (value : Json) : String → Json → Prop
  | term : Carries value "term" value
  | terms {values} : value ∈ values → Carries value "terms" (.list values)
  | matchAny : Carries value "match" (.single "query" value)
  | matchPhrase : Carries value "match_phrase" (.single "query" value)
  | range {key bounds} : (key, value) ∈ bounds → Carries value "range" (.object bounds)
  | wildcard : Carries value "wildcard" (.single "value" value)

/-- A query, or a clause in a section of one, asks for a value of a field. -/
@[mk_iff] inductive Asks (f : String) (value : Json) : Json → Prop
  | field {kind body} : Carries value kind body → Asks f value (Query.onField kind f body)
  | clause {name sections clauses q} : (name, .list clauses) ∈ sections → q ∈ clauses →
      Asks f value q → Asks f value (.single "bool" (.object sections))

variable {value : Json}

theorem single_inj {key key' : String} {body body' : Json} :
    single key body = single key' body' ↔ key = key' ∧ body = body' := by
  simp [single]

theorem Carries.ne_bool {kind : String} {body : Json} (h : Carries value kind body) :
    kind ≠ "bool" := by
  cases h <;> decide

theorem asks_onField {kind g : String} {body : Json} (hkind : kind ≠ "bool") :
    Asks f value (Query.onField kind g body) ↔ f = g ∧ Carries value kind body := by
  rw [asks_iff]
  simp only [Query.onField, single, object.injEq, List.cons.injEq, Prod.mk.injEq, and_true]
  constructor
  · rintro (⟨kind', body', hcarries, rfl, rfl, rfl⟩ | ⟨_, _, _, _, _, _, _, rfl, _⟩)
    · exact ⟨rfl, hcarries⟩
    · exact (hkind rfl).elim
  · rintro ⟨rfl, hcarries⟩
    exact .inl ⟨kind, body, hcarries, rfl, rfl, rfl⟩

theorem asks_bool {members : List (String × Option Json)} (hkeys : (members.map Prod.fst).Nodup) :
    Asks f value (.single "bool" (.ofSet members)) ↔
      ∃ name clauses, (name, some (.list clauses)) ∈ members ∧ ∃ q ∈ clauses, Asks f value q := by
  obtain ⟨entries, hentries, hmem⟩ := exists_ofSet hkeys
  rw [hentries, asks_iff]
  simp only [Query.onField, single, object.injEq, List.cons.injEq, Prod.mk.injEq, and_true]
  constructor
  · rintro (⟨_, _, hcarries, rfl, heq⟩ | ⟨name, sections, clauses, q, hsection, hq, hasks, -, rfl⟩)
    · exact (hcarries.ne_bool rfl).elim
    · exact ⟨name, clauses, (hmem _).1 hsection, q, hq, hasks⟩
  · rintro ⟨name, clauses, hsection, q, hq, hasks⟩
    exact .inr ⟨name, entries, clauses, q, (hmem (name, .list clauses)).2 hsection, hq, hasks,
      trivial, rfl⟩

end Json

namespace Query

variable {value : Json}

theorem mem_map_field {g : String} {v : Literal} {values : List Literal} :
    (f, v) ∈ values.map (g, ·) ↔ f = g ∧ v ∈ values := by
  simp [eq_comm, and_comm]

theorem listToJson_eq_map (qs : List Query) : listToJson qs = qs.map toJson := by
  induction qs with
  | nil => rfl
  | cons q qs ih => rw [listToJson, ih, List.map_cons]

/-- A section has the clauses that were given for it, and is there if there are any. -/
theorem exists_mem_section {cs : List Json} {P : Json → Prop} :
    (∃ clauses, some (.list clauses) = sectionJson cs ∧ ∃ q ∈ clauses, P q) ↔ ∃ q ∈ cs, P q := by
  cases cs <;> simp [sectionJson]

theorem section_asks {qs : List Query} (h : ∀ q ∈ qs, Json.Asks f value q.toJson ↔
    ∃ v, (f, v) ∈ q.asked ∧ v.json = value) :
    (∃ clauses, some (.list clauses) = sectionJson (listToJson qs) ∧
      ∃ q ∈ clauses, Json.Asks f value q) ↔ ∃ v, (f, v) ∈ askedByAny qs ∧ v.json = value := by
  rw [exists_mem_section, listToJson_eq_map, askedByAny_eq_flatMap]
  simp only [List.mem_map, exists_exists_and_eq_and, List.mem_flatMap]
  constructor
  · rintro ⟨q, hmem, hasks⟩
    obtain ⟨v, hv, hjson⟩ := (h q hmem).1 hasks
    exact ⟨v, ⟨q, hmem, hv⟩, hjson⟩
  · rintro ⟨v, ⟨q, hmem, hv⟩, hjson⟩
    exact ⟨q, hmem, (h q hmem).2 ⟨v, hv, hjson⟩⟩

theorem bounds_toJson (b : Bounds) (value : Json) : ∃ entries, b.toJson = .object entries ∧
    ((∃ key, (key, value) ∈ entries) ↔ ∃ v ∈ b.literals, v.json = value) := by
  obtain ⟨entries, hentries, hmem⟩ := @Json.exists_ofSet
    [("gt", b.gt.map Literal.json), ("gte", b.gte.map Literal.json),
      ("lt", b.lt.map Literal.json), ("lte", b.lte.map Literal.json)] (by simp)
  refine ⟨entries, hentries, ?_⟩
  simp only [hmem, Bounds.literals, List.mem_cons, Prod.mk.injEq, List.not_mem_nil, or_false,
    exists_or, exists_eq_left, eq_comm (a := some value), Option.map_eq_some_iff, List.mem_append,
    Option.mem_toList, or_and_right, or_assoc]

/-- The JSON form of a query asks for the values that the query asks for. -/
theorem asks_toJson (q : Query) :
    Json.Asks f value q.toJson ↔ ∃ v, (f, v) ∈ q.asked ∧ v.json = value := by
  induction q using induction with
  | matchAll =>
    have hnever : ¬ Json.Asks f value (.single "match_all" (.object [])) := by
      rw [Json.asks_iff]
      simp [onField, Json.single]
    simp [toJson, asked, hnever]
  | range g bounds =>
    obtain ⟨entries, hentries, hbounds⟩ := bounds_toJson bounds value
    rw [toJson, Json.asks_onField (by decide), Json.carries_iff, hentries]
    simp [asked, mem_map_field, and_assoc, hbounds]
  | term | terms | matchAny | matchPhrase | wildcard | present =>
    rw [toJson, Json.asks_onField (by decide), Json.carries_iff]
    simp [asked, Json.single_inj, mem_map_field, and_assoc, Literal.json_text, eq_comm]
  | bool must filter should mustNot minimumShould ih =>
    simp only [List.forall_mem_append] at ih
    obtain ⟨⟨⟨hmust, hfilter⟩, hshould⟩, hmustNot⟩ := ih
    have hcount : ∀ clauses, some (.list clauses) ≠
        minimumShould.map fun n => Json.integer (Int.ofNat n) := by
      cases minimumShould <;> simp
    rw [toJson, Json.asks_bool (by simp)]
    simp only [List.mem_cons, Prod.mk.injEq, List.not_mem_nil, or_false, or_and_right, exists_or,
      exists_and_left, exists_eq_left, and_assoc, section_asks hmust, section_asks hfilter,
      section_asks hshould, section_asks hmustNot, hcount, false_and, exists_false,
      or_false, asked, List.mem_append, or_assoc]

end Query

namespace Literal

variable {v : Literal}

theorem json_eq_null_iff : v.json = .null ↔ ∃ x, v = .decimal x ∧ x.isFinite = false := by
  cases v with
  | decimal x => cases hx : x.isFinite <;> simp [json, Json.ofDouble, hx]
  | _ => simp [json]

/-- What JSON can hold of a literal has its kind. -/
theorem kind?_json (h : v.json ≠ .null) : v.json.kind? = some v.kind := by
  cases v with
  | decimal x =>
    cases hx : x.isFinite with
    | true => simp [json, Json.ofDouble, hx, Json.kind?, kind]
    | false => exact (h (json_eq_null_iff.2 ⟨x, rfl, hx⟩)).elim
  | _ => rfl

end Literal

namespace Request

variable {r : Request} {sql : String}

/-- The body asks for a value of a field. -/
def Sends (r : Request) (f : String) (value : Json) : Prop :=
  ∃ query, r.body.get? "query" = some query ∧ Json.Asks f value query

theorem get?_query_body (r : Request) : r.body.get? "query" = some r.query.toJson :=
  Json.get?_ofSet (by simp) List.mem_cons_self

theorem sends_iff {value : Json} :
    r.Sends f value ↔ ∃ v, (f, v) ∈ r.query.asked ∧ v.json = value := by
  simp only [Sends, get?_query_body, Option.some.injEq, exists_eq_left', Query.asks_toJson]

/-- The body has all literals of the condition as values of their kind, and asks for no value that
is missing. -/
structure KeepsLiterals (r : Request) (s : Statement) : Prop where
  sent : ∀ e ∈ s.condition, ∀ f v, (f, v) ∈ e.asked →
    r.Sends f v.json ∧ v.json.kind? = some v.kind
  not_null : ∀ f, ¬ r.Sends f .null

/-- The body of a request has the literals of its text exactly when all decimals are finite. -/
theorem keepsLiterals_iff (h : Request.ofText o resolve sql = .ok r) :
    ∃ s, Statement.ofText sql = .ok s ∧ (r.KeepsLiterals s ↔
      ∀ e ∈ s.condition, ∀ f x, (f, .decimal x) ∈ e.asked → x.isFinite = true) := by
  obtain ⟨s, hs, h⟩ := exists_of_bind_eq_ok h
  have hasked : ∀ a, a ∈ r.query.asked ↔ (∃ e ∈ s.condition, a ∈ e.asked) ∨
      ∃ q ∈ Query.ofTargets? s.targets, a ∈ q.asked := by
    intro a
    obtain ⟨query, notes, h, ⟨hnone, rfl⟩ | ⟨e, l, hsome, hl, rfl⟩⟩ := Statement.compile_eq_ok h
    · rw [(Statement.assemble_eq_ok h).2, Statement.mem_asked_rootQuery, hnone]
      simp
    · rw [(Statement.assemble_eq_ok h).2, Statement.mem_asked_rootQuery, hsome]
      simp [Expression.mem_asked_lower hl]
  have hsent : ∀ e ∈ s.condition, ∀ f v, (f, v) ∈ e.asked → r.Sends f v.json := by
    intro e he f v hv
    exact sends_iff.2 ⟨v, (hasked _).2 (.inl ⟨e, he, hv⟩), rfl⟩
  refine ⟨s, hs, fun hkeeps e he f x hx => ?_, fun hfinite => ?_⟩
  · cases hx' : x.isFinite with
    | true => rfl
    | false =>
      have hnull : (Literal.decimal x).json = .null := Literal.json_eq_null_iff.2 ⟨x, rfl, hx'⟩
      exact (hkeeps.not_null f (hnull ▸ hsent e he f _ hx)).elim
  · have hkept : ∀ f v, (f, v) ∈ r.query.asked → v.json ≠ .null := by
      intro f v hv hnull
      obtain ⟨x, rfl, hx⟩ := Literal.json_eq_null_iff.1 hnull
      obtain ⟨e, he, hv⟩ | ⟨q, hq, hv⟩ := (hasked _).1 hv
      · simp [hfinite e he f x hv] at hx
      · cases Query.kind_of_mem_asked_targets hq hv
    constructor
    · intro e he f v hv
      have hmem : (f, v) ∈ r.query.asked := (hasked _).2 (.inl ⟨e, he, hv⟩)
      exact ⟨hsent e he f v hv, Literal.kind?_json (hkept f v hmem)⟩
    · intro f hnull
      obtain ⟨v, hv, hjson⟩ := sends_iff.1 hnull
      exact hkept f v hv hjson

/-- Decimals under a negation and in a range. -/
theorem keepsLiterals_decimals :
    let sql := "select * from i where not a = 1.5 and b between 2.0 and 3"
    ∃ r s, Request.ofText Options.default Resolver.default sql = .ok r ∧
      Statement.ofText sql = .ok s ∧ r.KeepsLiterals s := by
  intro sql
  let x : Double := { negative := false, rank := 4609434218613702656 }
  let y : Double := { negative := false, rank := 4611686018427387904 }
  let e : Expression := .and [.not (.compareLiteral "a" .eq (.decimal x)),
    .between "b" (.decimal y) (.integer 3) false]
  let s : Statement :=
    { projection := [.star], targets := [⟨"i", none⟩], condition := some e
      order := [], limit := none, offset := none }
  have hs : Statement.ofText sql = .ok s := by cbv
  let r : Request :=
    { targets := [⟨"i", none⟩]
      query := .bool [] [.excluding (.matchPhrase "a" (.decimal x)),
        .range "b" (.closed (.decimal y) (.integer 3))] [] [] none
      fetched := .all, sort := [], size := none, start := none, aggregations := []
      notes := [.analyzedEquality "a", .missingField "a"] }
  have hr : Request.ofText Options.default Resolver.default sql = .ok r := by
    rw [Request.ofText, hs]
    rfl
  obtain ⟨s', hs', hkeeps⟩ := keepsLiterals_iff hr
  obtain rfl := Except.ok.inj (hs.symm.trans hs')
  have hasked : e.asked = [("a", .decimal x), ("b", .decimal y), ("b", .integer 3)] := by rfl
  have hfinite : ∀ f z, (f, .decimal z) ∈ e.asked → z.isFinite = true := by
    intro f z hz
    rw [hasked] at hz
    simp only [List.mem_cons, Prod.mk.injEq, Literal.decimal.injEq, reduceCtorEq, and_false,
      List.not_mem_nil, or_false] at hz
    obtain ⟨_, rfl⟩ | ⟨_, rfl⟩ := hz <;> decide
  refine ⟨r, s, hr, hs, hkeeps.2 ?_⟩
  rintro _ ⟨⟩
  exact hfinite

end Request

/-- A literal in front of which a field and a comparison stand. -/
theorem Statement.ofText_lessThan {literal : String} {value : Literal}
    (h : SpellsToken literal (Grammar.Value · value)) :
    Statement.ofText ("SELECT * FROM bank WHERE age < " ++ literal) = .ok
      { projection := [.star], targets := [⟨"bank", none⟩]
        condition := some (.compareLiteral "age" .lt value)
        order := [], limit := none, offset := none } := by
  have hbank : IsBareName "bank" := by cbv
  have hage : IsBareName "age" := by cbv
  have htext : "SELECT * FROM bank WHERE age < " ++ literal =
      "SELECT " ++ ("*" ++ (" " ++ ("FROM " ++ ("bank" ++ (" " ++ ("WHERE " ++ ("age" ++
        (" " ++ (Comparison.symbol .lt ++ (" " ++ literal)))))))))) := by
    simp only [← String.append_assoc]
    rfl
  have hspells : Spells ("SELECT * FROM bank WHERE age < " ++ literal) (Grammar.Sentence ·
      { projection := [.star], targets := [⟨"bank", none⟩]
        condition := some (.compareLiteral "age" .lt value)
        order := [], limit := none, offset := none }) := by
    rw [htext]
    refine .word .select rfl fun select hselect => ?_
    refine .punctuation (c := '*') rfl rfl fun star hstar => .space ?_
    refine .word .from rfl fun from_ hfrom => ?_
    refine .spaced hbank.spells fun bank hbank => ?_
    refine .word .where rfl fun where_ hwhere => ?_
    refine .spaced hage.spells fun age hage => .operator fun op hop => ?_
    refine .last h fun v hv => ?_
    have hcondition := Expression.condition_of_negation
      (.primary (.predicate (.compare hage.1 hop hv)))
    have hsentence := Grammar.Sentence.mk hselect (.star hstar) hfrom
      (.one (.index hbank.1)) (.present hwhere hcondition) .absent .absent .absent
    rw [hbank.2, hage.2] at hsentence
    exact hsentence
  obtain ⟨ts, hts, hsentence⟩ := hspells.ofText_eq
  rw [Statement.ofText, hts]
  exact Statement.ofTokensUpTo_eq_ok_iff.2 hsentence

/-- A bound past the largest double is sent as null. -/
theorem Request.null_bound_of_overflow :
    let literal := String.ofList (decimalChars false ('1' :: List.replicate 309 '0') ['0'])
    ∃ r, Request.ofText Options.default Resolver.default
        ("SELECT * FROM bank WHERE age < " ++ literal) = .ok r ∧ r.Sends "age" .null := by
  intro literal
  have hwhole : Lexeme.AreDigits ('1' :: List.replicate 309 '0') :=
    ⟨List.cons_ne_nil _ _, List.forall_mem_cons.2 ⟨rfl, Lexeme.forall_mem_zeros 309⟩⟩
  have hfraction : Lexeme.AreDigits ['0'] :=
    ⟨List.cons_ne_nil _ _, List.forall_mem_singleton.2 rfl⟩
  have htext : literal.toList = decimalChars false ('1' :: List.replicate 309 '0') ['0'] :=
    String.toList_ofList
  have hspells := Literal.spells_decimalChars htext hwhole hfraction
  obtain ⟨x, hx, hs⟩ : ∃ x : Double, x.isFinite = false ∧
      SpellsToken literal (Grammar.Value · (.decimal x)) :=
    ⟨_, by decide +kernel, hspells⟩
  let r : Request :=
    { targets := [⟨"bank", none⟩]
      query := .filtering [.range "age" { Bounds.unbounded with lt := some (.decimal x) }]
      fetched := .all, sort := [], size := none
      start := none, aggregations := [], notes := [] }
  have hr : Request.ofText Options.default Resolver.default
        ("SELECT * FROM bank WHERE age < " ++ literal) = .ok r := by
    rw [Request.ofText, Statement.ofText_lessThan hs]
    rfl
  refine ⟨r, hr, Request.sends_iff.2 ⟨.decimal x, ?_, Literal.json_eq_null_iff.2 ⟨x, rfl, hx⟩⟩⟩
  simp [r, Query.asked, Bounds.literals, Bounds.unbounded]

end SearchSql
