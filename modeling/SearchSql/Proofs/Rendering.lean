import SearchSql.Proofs.SentLiterals

/-!
Queries in JSON. Unlike queries have unlike JSON forms, as long as their decimals are finite: the
form tells the kind of each clause, its field, its values and their kinds, and each section of a
`bool` clause in its order.
-/

namespace SearchSql

/-- A function that tells the members of a list from all else tells the list. -/
theorem eq_of_map_eq {α β : Type} {g : α → β} {as bs : List α}
    (hg : ∀ a ∈ as, ∀ b, g a = g b → a = b) (h : as.map g = bs.map g) : as = bs := by
  induction as generalizing bs with
  | nil => exact (List.map_eq_nil_iff.1 h.symm).symm
  | cons a as ih =>
    obtain ⟨ha, has⟩ := List.forall_mem_cons.1 hg
    cases bs with
    | nil => cases h
    | cons b bs =>
      obtain ⟨hab, hrest⟩ := List.cons.inj h
      rw [ha b hab, ih has hrest]

theorem eq_of_option_map_eq {α β : Type} {g : α → β} {x y : Option α}
    (hg : ∀ a ∈ x, ∀ b, g a = g b → a = b) (h : x.map g = y.map g) : x = y := by
  cases x with
  | none => exact (Option.map_eq_none_iff.1 h.symm).symm
  | some a =>
    obtain ⟨b, rfl, hab⟩ := Option.map_eq_some_iff.1 h.symm
    rw [hg a rfl b hab.symm]

theorem Json.ofSet_inj {members members' : List (String × Option Json)}
    (h : ofSet members = ofSet members') (hkeys : (members.map Prod.fst).Nodup)
    (hsame : members.map Prod.fst = members'.map Prod.fst) : members = members' := by
  have hlength : members.length = members'.length := by simpa using congrArg List.length hsame
  refine List.ext_getElem hlength fun i hi hi' => ?_
  have hkey : members[i].1 = members'[i].1 := by
    have hget := congrArg (fun keys => keys[i]?) hsame
    simpa [hi, hi'] using hget
  have hvalue : (ofSet members).get? members[i].1 = members[i].2 :=
    get?_ofSet hkeys (List.getElem_mem hi)
  have hvalue' : (ofSet members').get? members'[i].1 = members'[i].2 :=
    get?_ofSet (hsame ▸ hkeys) (List.getElem_mem hi')
  rw [h, hkey, hvalue'] at hvalue
  exact Prod.ext hkey hvalue.symm

/-- The literal that a value in a body stands for. -/
def Json.literal? : Json → Option Literal
  | .integer n => some (.integer n)
  | .real x => some (.decimal x)
  | .text s => some (.text s)
  | .boolean b => some (.boolean b)
  | .null | .list _ | .object _ => none

namespace Literal

variable {v v' : Literal}

theorem literal?_json (h : v.json ≠ .null) : v.json.literal? = some v := by
  cases v with
  | decimal x =>
    cases hx : x.isFinite with
    | true => simp [json, Json.ofDouble, hx, Json.literal?]
    | false => exact (h (json_eq_null_iff.2 ⟨x, rfl, hx⟩)).elim
  | _ => rfl

theorem json_inj (hv : v.json ≠ .null) (h : v.json = v'.json) : v = v' := by
  have hread := literal?_json hv
  have hread' := literal?_json (h ▸ hv)
  rw [h, hread'] at hread
  exact (Option.some.inj hread).symm

end Literal

namespace Bounds

theorem toJson_inj {b b' : Bounds}
    (hb : ∀ v ∈ b.literals, ∀ v' : Literal, v.json = v'.json → v = v')
    (h : b.toJson = b'.toJson) : b = b' := by
  have hbound {x x' : Option Literal} (hx : ∀ v, x = some v → v ∈ b.literals)
      (heq : x.map Literal.json = x'.map Literal.json) : x = x' :=
    eq_of_option_map_eq (fun v hv => hb v (hx v hv)) heq
  have hset := Json.ofSet_inj h (by simp) rfl
  simp only [List.cons.injEq, Prod.mk.injEq, true_and, and_true] at hset
  obtain ⟨hgt, hgte, hlt, hlte⟩ := hset
  obtain ⟨gt, gte, lt, lte⟩ := b
  obtain ⟨gt', gte', lt', lte'⟩ := b'
  rw [Bounds.mk.injEq]
  refine ⟨hbound ?_ hgt, hbound ?_ hgte, hbound ?_ hlt, hbound ?_ hlte⟩ <;>
  · rintro v rfl
    simp [literals]

end Bounds

namespace Query

variable {q q' : Query}

/-- Whether all decimals that a query asks for are finite. -/
def IsFinite (q : Query) : Prop := ∀ f x, (f, .decimal x) ∈ q.asked → x.isFinite = true

/-- A literal that a query asks for is told by its JSON form. -/
theorem IsFinite.json_inj (hq : q.IsFinite) {f : String} {v v' : Literal} (hv : (f, v) ∈ q.asked)
    (h : v.json = v'.json) : v = v' := by
  refine Literal.json_inj (fun hnull => ?_) h
  obtain ⟨x, rfl, hx⟩ := Literal.json_eq_null_iff.1 hnull
  simp [hq f x hv] at hx

theorem IsFinite.clause {must filter should mustNot : List Query} {minimumShould : Option Nat}
    (h : (bool must filter should mustNot minimumShould).IsFinite)
    (hq : q ∈ must ++ filter ++ should ++ mustNot) : q.IsFinite :=
  fun f x hx => h f x (mem_asked_bool.2 ⟨q, hq, hx⟩)

theorem onField_inj {kind kind' f f' : String} {body body' : Json} :
    onField kind f body = onField kind' f' body' ↔ kind = kind' ∧ f = f' ∧ body = body' := by
  simp [onField, Json.single_inj]

theorem sectionJson_inj {cs cs' : List Json} (h : sectionJson cs = sectionJson cs') : cs = cs' := by
  cases cs <;> cases cs' <;> simp_all [sectionJson]

/-- A section tells its clauses, in their order. -/
theorem eq_of_section_eq {qs qs' : List Query}
    (hqs : ∀ q ∈ qs, ∀ q' : Query, q.toJson = q'.toJson → q = q')
    (h : sectionJson (listToJson qs) = sectionJson (listToJson qs')) : qs = qs' := by
  have hlist := sectionJson_inj h
  rw [listToJson_eq_map, listToJson_eq_map] at hlist
  exact eq_of_map_eq hqs hlist

/-- Unlike queries have unlike JSON forms, if the decimals of one of them are finite. -/
theorem toJson_inj (hq : q.IsFinite) (h : q.toJson = q'.toJson) : q = q' := by
  induction q using induction generalizing q' with
  | matchAll =>
    cases q' with
    | matchAll => rfl
    | _ => simp [toJson, onField, Json.single_inj] at h
  | term f v =>
    cases q' with
    | term f' v' =>
      obtain ⟨-, rfl, hv⟩ := onField_inj.1 h
      rw [hq.json_inj (f := f) (by simp [asked]) hv]
    | _ => simp [toJson, onField, Json.single_inj] at h
  | terms f vs =>
    cases q' with
    | terms f' vs' =>
      obtain ⟨-, rfl, hvs⟩ := onField_inj.1 h
      have hasked : ∀ v ∈ vs, (f, v) ∈ (terms f vs).asked := fun v hv => by simpa [asked] using hv
      rw [eq_of_map_eq (fun v hv _ => hq.json_inj (hasked v hv)) (Json.list.inj hvs)]
    | _ => simp [toJson, onField, Json.single_inj] at h
  | matchAny f v =>
    cases q' with
    | matchAny f' v' =>
      obtain ⟨-, rfl, hbody⟩ := onField_inj.1 h
      rw [hq.json_inj (f := f) (by simp [asked]) (Json.single_inj.1 hbody).2]
    | _ => simp [toJson, onField, Json.single_inj] at h
  | matchPhrase f v =>
    cases q' with
    | matchPhrase f' v' =>
      obtain ⟨-, rfl, hbody⟩ := onField_inj.1 h
      rw [hq.json_inj (f := f) (by simp [asked]) (Json.single_inj.1 hbody).2]
    | _ => simp [toJson, onField, Json.single_inj] at h
  | range f b =>
    cases q' with
    | range f' b' =>
      obtain ⟨-, rfl, hb⟩ := onField_inj.1 h
      have hasked : ∀ v ∈ b.literals, (f, v) ∈ (range f b).asked :=
        fun v hv => by simpa [asked] using hv
      rw [Bounds.toJson_inj (fun v hv _ => hq.json_inj (hasked v hv)) hb]
    | _ => simp [toJson, onField, Json.single_inj] at h
  | wildcard f pattern =>
    cases q' with
    | wildcard f' pattern' =>
      obtain ⟨-, rfl, hbody⟩ := onField_inj.1 h
      rw [Json.text.inj (Json.single_inj.1 hbody).2]
    | _ => simp [toJson, onField, Json.single_inj] at h
  | present f =>
    cases q' with
    | present f' =>
      obtain ⟨-, -, hf⟩ := onField_inj.1 h
      rw [Json.text.inj hf]
    | _ => simp [toJson, onField, Json.single_inj] at h
  | bool must filter should mustNot minimumShould ih =>
    cases q' with
    | bool must' filter' should' mustNot' minimumShould' =>
      simp only [toJson, Json.single_inj, true_and] at h
      have hset := Json.ofSet_inj h (by simp) rfl
      simp only [List.cons.injEq, Prod.mk.injEq, true_and, and_true] at hset
      obtain ⟨hmust, hfilter, hshould, hmustNot, hcount⟩ := hset
      have hclauses : ∀ q ∈ must ++ filter ++ should ++ mustNot, ∀ q' : Query,
          q.toJson = q'.toJson → q = q' := fun q hmem q' => ih q hmem (hq.clause hmem)
      simp only [List.forall_mem_append] at hclauses
      obtain ⟨⟨⟨ihmust, ihfilter⟩, ihshould⟩, ihmustNot⟩ := hclauses
      rw [eq_of_section_eq ihmust hmust, eq_of_section_eq ihfilter hfilter,
        eq_of_section_eq ihshould hshould, eq_of_section_eq ihmustNot hmustNot,
        eq_of_option_map_eq (fun n _ m hn => by simpa using hn) hcount]
    | _ => simp [toJson, onField, Json.single_inj] at h

/-- Queries have the same JSON form only if they are the same, as long as the decimals of one of
them are finite. The two zeros count as two decimals, here and there. So the body of a request tells
its query. -/
theorem toJson_eq_iff_of_finite (hq : q.IsFinite) :
    (q.toJson = q'.toJson ↔ q = q') ∧
      ∀ r r' : Request, r.query = q → r'.query = q' → r.body = r'.body → q = q' := by
  refine ⟨⟨toJson_inj hq, congrArg toJson⟩, ?_⟩
  rintro r r' rfl rfl hbody
  have hquery := r.get?_query_body
  rw [hbody, r'.get?_query_body] at hquery
  exact toJson_inj hq (Option.some.inj hquery).symm

/-- A whole number and a decimal of the same value are told apart. -/
theorem toJson_eq_iff_of_finite_range :
    let one : Double := { negative := false, rank := 4607182418800017408 }
    let query : Literal → Query := fun low =>
      .bool [] [.range "a" (.closed low (.integer 2))] [.matchAll] [.missing "b"] (some 1)
    (query (.decimal one)).toJson ≠ (query (.integer 1)).toJson := by
  intro one query
  have hfinite : (query (.decimal one)).IsFinite := by
    intro f x hx
    have hasked : (query (.decimal one)).asked = [("a", .decimal one), ("a", .integer 2)] := rfl
    simp only [hasked, List.mem_cons, Prod.mk.injEq, Literal.decimal.injEq, reduceCtorEq, and_false,
      List.not_mem_nil, or_false] at hx
    obtain ⟨_, rfl⟩ := hx
    decide
  intro hsame
  have heq := (toJson_eq_iff_of_finite hfinite).1.1 hsame
  simp [query, Bounds.closed] at heq

/-- The infinities have no numbers in JSON, so they are not told apart. -/
example : (Query.term "a" (.decimal (.infinite false))).toJson =
    (Query.term "a" (.decimal (.infinite true))).toJson := rfl

end Query

end SearchSql
