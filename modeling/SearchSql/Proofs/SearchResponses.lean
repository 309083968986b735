import Mathlib.Data.List.Forall2
import SearchSql.Proofs.Members
import SearchSql.Response

/-!
Search responses as they are read. Every hit comes through as it was, whatever other members the
server adds, and one hit that cannot be read takes the whole response with it.
-/

namespace SearchSql

namespace Json

/-- An object that has the members of another one, and besides them only members under other keys
than the known ones. -/
structure Widens (known : List String) (wide narrow : Json) : Prop where
  isObject : ∃ members, wide = .object members
  get? : ∀ key ∈ known, wide.get? key = narrow.get? key

variable {α : Type} {key : String} {known : List String} {members others : List (String × Json)}

theorem get?_ofMembers (hkeys : (members.map Prod.fst).Nodup) {value : Json}
    (h : (key, value) ∈ members) : (ofMembers members).get? key = some value :=
  Keyed.find?_ofPairs hkeys h

theorem get?_ofMembers_eq_none (h : key ∉ members.map Prod.fst) :
    (ofMembers members).get? key = none := Keyed.find?_ofPairs_eq_none h

/-- Members under unknown keys may be added. -/
theorem widens_ofMembers (h : ∀ key ∈ known, key ∉ others.map Prod.fst) :
    (ofMembers (members ++ others)).Widens known (ofMembers members) where
  isObject := ⟨_, rfl⟩
  get? key hkey := by
    change Keyed.find? key (Keyed.insertAll [] (members ++ others)) = _
    rw [Keyed.insertAll, List.foldl_append]
    exact Keyed.find?_insertAll_of_not_mem (h key hkey)

theorem mapM_eq_none {f : Json → Option α} {items : List Json} {item : Json} (hmem : item ∈ items)
    (h : f item = none) : items.mapM f = none := by
  induction items with
  | nil => cases hmem
  | cons first items ih =>
    rw [List.mapM_cons]
    rcases List.mem_cons.1 hmem with rfl | hmem
    · rw [h]
      rfl
    · rw [ih hmem]
      cases f first <;> rfl

end Json

namespace Hit

/-- The keys that are known in a hit. -/
def keys : List String := ["_index", "_type", "_id", "_score", "_source"]

/-- A member of a hit, which stands under its key in an object and at its place in a list. -/
def member? (key : String) (place : Nat) : Json → Option Json
  | .object members => Keyed.find? key members
  | .list items => items[place]?
  | _ => none

/-- The values that are no hit: without an index or an identifier that is a text, or with a source
that is no object. -/
inductive Malformed (item : Json) : Prop
  | index : (member? "_index" 0 item).bind Json.text? = none → Malformed item
  | id : (member? "_id" 2 item).bind Json.text? = none → Malformed item
  | source (source : Json) : member? "_source" 4 item = some source → source.members? = none →
      Malformed item

variable {h : Hit} {hits : List Hit} {item : Json} {items : List Json}

theorem nodup_keys (h : Hit) : (h.members.map Prod.fst).Nodup := by
  unfold members
  cases h.docType <;> simp

theorem get?_toJson_type (h : Hit) : h.toJson.get? "_type" = h.docType.map .text := by
  cases hdoc : h.docType with
  | none => exact Json.get?_ofMembers_eq_none (by simp [members, hdoc])
  | some t => exact Json.get?_ofMembers h.nodup_keys (by simp [members, hdoc])

theorem optional?_type (docType : Option String) :
    Json.optional? Json.text? (docType.map .text) = some docType := by
  cases docType <;> rfl

theorem optional?_score {score : Option Double} (h : ∀ x ∈ score, x.isFinite = true) :
    Json.optional? Json.double? (some (.ofOption .ofDouble score)) = some score := by
  cases score with
  | none => rfl
  | some x => simp [Json.ofOption, Json.ofDouble, h x rfl, Json.optional?, Json.double?]

/-- A hit is read as it was, whatever else stands beside it. -/
theorem ofJson?_of_widens (hscore : ∀ x ∈ h.score, x.isFinite = true)
    (hwidens : item.Widens keys h.toJson) : ofJson? item = some h := by
  obtain ⟨⟨all, rfl⟩, hkeys⟩ := hwidens
  have hget {key : String} {value : Json} (hknown : key ∈ keys) (hmem : (key, value) ∈ h.members) :
      Keyed.find? key all = some value :=
    (hkeys key hknown).trans (Json.get?_ofMembers h.nodup_keys hmem)
  have hindex : Keyed.find? "_index" all = some (.text h.index) :=
    hget (by simp [keys]) (by simp [members])
  have htype : Keyed.find? "_type" all = h.docType.map .text :=
    (hkeys "_type" (by simp [keys])).trans h.get?_toJson_type
  have hid : Keyed.find? "_id" all = some (.text h.id) := hget (by simp [keys]) (by simp [members])
  have hscored : Keyed.find? "_score" all = some (.ofOption .ofDouble h.score) :=
    hget (by simp [keys]) (by simp [members])
  have hsource : Keyed.find? "_source" all = some (.object h.source) :=
    hget (by simp [keys]) (by simp [members])
  rw [ofJson?, hindex, htype, hid, hscored, hsource, ofMembers?, optional?_type,
    optional?_score hscore]
  rfl

theorem mapM_ofJson? (h : List.Forall₂ (fun item h => item.Widens keys h.toJson) items hits)
    (hscores : ∀ h ∈ hits, ∀ x ∈ h.score, x.isFinite = true) : items.mapM ofJson? = some hits := by
  induction h with
  | nil => rfl
  | cons hwidens _ ih =>
    obtain ⟨hscore, hscores⟩ := List.forall_mem_cons.1 hscores
    rw [List.mapM_cons, ofJson?_of_widens hscore hwidens, ih hscores]
    rfl

theorem ofJson?_eq_none_or (item : Json) : ofJson? item = none ∨
    ofJson? item = ofMembers? (member? "_index" 0 item) (member? "_type" 1 item)
      (member? "_id" 2 item) (member? "_score" 3 item) (member? "_source" 4 item) := by
  cases item with
  | object members => exact .inr rfl
  | list items =>
    by_cases hlength : items.length ≤ 5
    · exact .inr (if_pos hlength)
    · exact .inl (if_neg hlength)
  | _ => exact .inl rfl

theorem ofJson?_eq_none_of_malformed (h : Malformed item) : ofJson? item = none := by
  rcases ofJson?_eq_none_or item with hnone | heq
  · exact hnone
  rw [heq, ofMembers?]
  rcases h with hindex | hid | ⟨source, hsource, hmembers⟩
  · simp [hindex]
  · simp [hid]
  · simp [hsource, source?, hmembers]

end Hit

namespace Response

variable {hits : List Hit} {items : List Json} {total : Option Json} {n : Nat} {body found : Json}

/-- How a response counts the documents that matched: by a number, by an object that has the number
as its value, or not at all. -/
inductive Counts (hits : List Hit) : Option Json → Nat → Prop
  | number {n : Nat} : fitsUint64 n = true → Counts hits (some (.integer n)) n
  | object {members : List (String × Json)} {n : Nat} : fitsUint64 n = true →
      Keyed.find? "value" members = some (.integer n) → Counts hits (some (.object members)) n
  | missing : Counts hits none hits.length

theorem uint64?_of_fits (h : fitsUint64 n = true) : Json.uint64? (.integer n) = some n := by
  change (if fitsUint64 n then some n else none) = some n
  rw [if_pos h]

theorem Counts.optional? (h : Counts hits total n) :
    ∃ counted, Json.optional? total? total = some counted ∧ counted.getD hits.length = n := by
  cases h with
  | number hn =>
    refine ⟨some n, ?_, rfl⟩
    change (Json.uint64? (.integer n)).map some = _
    rw [uint64?_of_fits hn]
    rfl
  | object hn hvalue =>
    refine ⟨some n, ?_, rfl⟩
    rw [Json.optional?, total?, hvalue, Option.bind_some, uint64?_of_fits hn]
    · rfl
    · exact nofun
  | missing => exact ⟨none, rfl, rfl⟩

theorem eq_object_of_get? {key : String} {j value : Json} (h : j.get? key = some value) :
    ∃ members, j = .object members := by
  cases j with
  | object members => exact ⟨members, rfl⟩
  | _ => cases h

/-- A response is read from its hits and its aggregations. -/
theorem ofBody_eq (hfound : body.get? "hits" = some found)
    (hitems : found.get? "hits" = some (.list items)) :
    ofBody body = match found? (found.get? "total") (some (.list items)) with
      | some (total, hits) => .ok
        { total, hits, aggregations := (body.get? "aggregations").filter fun a => !a.isNull }
      | none => .error .json := by
  obtain ⟨members, rfl⟩ := eq_object_of_get? hfound
  obtain ⟨inner, rfl⟩ := eq_object_of_get? hitems
  have hread : (some (Json.object inner)).bind foundOfJson? =
      found? (Keyed.find? "total" inner) (some (.list items)) := by
    rw [← hitems]
    rfl
  rw [ofBody, ofJson?, show Keyed.find? "hits" members = some (.object inner) from hfound,
    ofMembers?, hread]
  change _ = match found? (Keyed.find? "total" inner) (some (.list items)) with
    | some (total, hits) => _
    | none => _
  cases found? (Keyed.find? "total" inner) (some (.list items)) <;> rfl

theorem filter_of_ne_null {value : Option Json} (h : value ≠ some .null) :
    (value.filter fun a => !a.isNull) = value := by
  cases value with
  | none => rfl
  | some a =>
    cases a with
    | null => exact (h rfl).elim
    | _ => rfl

/-- A response is read with every hit that the server sent, in order, and one malformed hit makes it
unreadable. -/
theorem ofBody_keeps_every_hit :
    (∀ (body found : Json) (items : List Json) (hits : List Hit) (n : Nat),
      body.get? "hits" = some found → found.get? "hits" = some (.list items) →
      List.Forall₂ (fun item h => item.Widens Hit.keys h.toJson) items hits →
      (∀ h ∈ hits, ∀ x ∈ h.score, x.isFinite = true) →
      Counts hits (found.get? "total") n → body.get? "aggregations" ≠ some .null →
      ofBody body = .ok { total := n, hits, aggregations := body.get? "aggregations" }) ∧
    ∀ (body found : Json) (items : List Json) (item : Json),
      body.get? "hits" = some found → found.get? "hits" = some (.list items) →
      item ∈ items → Hit.Malformed item → ofBody body = .error .json := by
  constructor
  · intro body found items hits n hfound hitems hhits hscores hcounts haggregations
    obtain ⟨counted, htotal, rfl⟩ := hcounts.optional?
    rw [ofBody_eq hfound hitems, found?, htotal, hits?, Json.listOf?,
      Hit.mapM_ofJson? hhits hscores, filter_of_ne_null haggregations]
    rfl
  · intro body found items item hfound hitems hmem hmalformed
    have hnone := Json.mapM_eq_none hmem (Hit.ofJson?_eq_none_of_malformed hmalformed)
    rw [ofBody_eq hfound hitems, found?, hits?, Json.listOf?, hnone]
    cases Json.optional? total? (found.get? "total") <;> rfl

/-- The server adds members everywhere and counts more matches than it sends. With a third hit that
has no identifier, nothing is read. -/
theorem ofBody_keeps_every_hit_among_others :
    let scored : Hit :=
      { index := "bank", docType := some "account", id := "44"
        score := some { negative := false, rank := 1023 * leadingBit }
        source := [("age", .integer 32)] }
    let sorted : Hit := { index := "bank", docType := none, id := "1", score := none, source := [] }
    let item (h : Hit) : Json := .ofMembers (h.members ++ [("sort", .list [.integer 3])])
    let counted := Json.object [("relation", .text "eq"), ("value", .integer 1000)]
    let found (items : List Json) : Json :=
      .ofMembers [("total", counted), ("max_score", .null), ("hits", .list items)]
    let body (items : List Json) : Json :=
      .ofMembers [("hits", found items), ("aggregations", .object []), ("took", .integer 3)]
    ofBody (body [item scored, item sorted]) =
        .ok { total := 1000, hits := [scored, sorted], aggregations := some (.object []) } ∧
      ofBody (body [item scored, item sorted, .single "_index" (.text "bank")]) =
        .error .json := by
  intro scored sorted item counted found body
  obtain ⟨hkeeps, hfails⟩ := ofBody_keeps_every_hit
  have hfound (items : List Json) : (body items).get? "hits" = some (found items) :=
    Json.get?_ofMembers (by simp) (by simp)
  have hitems (items : List Json) : (found items).get? "hits" = some (.list items) :=
    Json.get?_ofMembers (by simp) (by simp)
  have htotal (items : List Json) : (found items).get? "total" = some counted :=
    Json.get?_ofMembers (by simp) (by simp)
  have haggregations (items : List Json) :
      (body items).get? "aggregations" = some (.object []) :=
    Json.get?_ofMembers (by simp) (by simp)
  have hitem (h : Hit) : (item h).Widens Hit.keys h.toJson :=
    Json.widens_ofMembers (by simp [Hit.keys])
  have hscores : ∀ h ∈ [scored, sorted], ∀ x ∈ h.score, x.isFinite = true := by
    intro h hmem x hx
    rcases List.mem_pair.1 hmem with rfl | rfl
    · cases hx
      decide
    · cases hx
  have hcounts : Counts [scored, sorted] (some counted) 1000 := .object (by decide) (by rfl)
  have hread := hkeeps _ _ _ [scored, sorted] 1000 (hfound _) (hitems _)
    (.cons (hitem scored) (.cons (hitem sorted) .nil)) hscores (htotal _ ▸ hcounts)
    (by simp [haggregations])
  rw [haggregations] at hread
  refine ⟨hread, hfails _ _ _ (.single "_index" (.text "bank")) (hfound _) (hitems _) ?_ (.id rfl)⟩
  simp

/-- A list has no members, yet it is read as a hit whose index is its first item. -/
theorem hit_in_a_list_has_no_index :
    ¬ ∀ (body found : Json) (items : List Json) (item : Json),
      body.get? "hits" = some found → found.get? "hits" = some (.list items) → item ∈ items →
      (item.get? "_index").bind Json.text? = none → ofBody body = .error .json := by
  intro hdecodes
  let item := Json.list [.text "bank", .text "account", .text "1", .null, .object []]
  let found := Json.single "hits" (.list [item])
  have hread : ofBody (.single "hits" found) = .ok
      { total := 1, aggregations := none
        hits := [{ index := "bank", docType := some "account", id := "1", score := none
                   source := [] }] } := rfl
  have hrefused := hdecodes (.single "hits" found) found [item] item rfl rfl List.mem_cons_self rfl
  rw [hread] at hrefused
  cases hrefused

end Response

end SearchSql
