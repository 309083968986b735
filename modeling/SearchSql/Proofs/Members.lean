import Mathlib.Data.List.Nodup
import Mathlib.Tactic.Tauto
import SearchSql.Json.Basic

/-!
The members of objects that are built from keys and values. With no key twice, every key has the
value that was given for it.
-/

namespace SearchSql

namespace Keyed

variable {α : Type} {key other : String} {value : α} {entries pairs : List (String × α)}
  {pair : String × α}

theorem mem_keys_insert :
    other ∈ (insert key value entries).map Prod.fst ↔
      other = key ∨ other ∈ entries.map Prod.fst := by
  induction entries with
  | nil => simp [insert]
  | cons pair rest ih =>
    obtain ⟨k, v⟩ := pair
    rw [insert]
    split
    · simp
    · split
      · next hkey => simp [hkey]
      · simp only [List.map_cons, List.mem_cons, ih]
        tauto

theorem mem_keys_insertAll : other ∈ (insertAll entries pairs).map Prod.fst ↔
    other ∈ pairs.map Prod.fst ∨ other ∈ entries.map Prod.fst := by
  unfold insertAll
  induction pairs generalizing entries with
  | nil => simp
  | cons pair pairs ih =>
    rw [List.foldl_cons, ih, mem_keys_insert, List.map_cons, List.mem_cons]
    tauto

theorem mem_of_mem_insertAll (h : pair ∈ insertAll entries pairs) :
    pair ∈ pairs ∨ pair ∈ entries := by
  unfold insertAll at h
  induction pairs generalizing entries with
  | nil => exact .inr h
  | cons first rest ih =>
    obtain h | h := ih h
    · exact .inl (List.mem_cons_of_mem _ h)
    · obtain rfl | h := mem_insert h
      · exact .inl List.mem_cons_self
      · exact .inr h

theorem mem_of_mem_ofPairs (h : pair ∈ ofPairs pairs) : pair ∈ pairs :=
  (mem_of_mem_insertAll h).resolve_right List.not_mem_nil

theorem find?_insertAll_of_not_mem (h : key ∉ pairs.map Prod.fst) :
    find? key (insertAll entries pairs) = find? key entries := by
  unfold insertAll
  induction pairs generalizing entries with
  | nil => rfl
  | cons first rest ih =>
    simp only [List.map_cons, List.mem_cons, not_or] at h
    rw [List.foldl_cons, ih h.2, find?_insert, if_neg (Ne.symm h.1)]

theorem find?_insertAll_of_mem (hkeys : (pairs.map Prod.fst).Nodup) (h : (key, value) ∈ pairs) :
    find? key (insertAll entries pairs) = some value := by
  induction pairs generalizing entries with
  | nil => cases h
  | cons first rest ih =>
    obtain ⟨hfirst, hrest⟩ := List.nodup_cons.1 hkeys
    obtain rfl | h := List.mem_cons.1 h
    · exact (find?_insertAll_of_not_mem hfirst).trans (by rw [find?_insert, if_pos rfl])
    · exact ih hrest h

/-- With no key twice, a key reads back what was given for it. -/
theorem find?_ofPairs (hkeys : (pairs.map Prod.fst).Nodup) (h : (key, value) ∈ pairs) :
    find? key (ofPairs pairs) = some value := find?_insertAll_of_mem hkeys h

theorem find?_ofPairs_eq_none (h : key ∉ pairs.map Prod.fst) :
    find? key (ofPairs pairs) = none := find?_insertAll_of_not_mem h

theorem mem_of_find? (h : find? key entries = some value) : (key, value) ∈ entries := by
  induction entries with
  | nil => cases h
  | cons first rest ih =>
    rw [find?_cons] at h
    split at h
    · next hkey =>
      cases h
      exact hkey ▸ List.mem_cons_self
    · exact List.mem_cons_of_mem _ (ih h)

theorem mem_ofPairs (hkeys : (pairs.map Prod.fst).Nodup) : pair ∈ ofPairs pairs ↔ pair ∈ pairs :=
  ⟨mem_of_mem_ofPairs, fun h => mem_of_find? (find?_ofPairs hkeys h)⟩

theorem length_insert (h : key ∉ entries.map Prod.fst) :
    (insert key value entries).length = entries.length + 1 := by
  induction entries with
  | nil => rfl
  | cons first rest ih =>
    obtain ⟨k, v⟩ := first
    simp only [List.map_cons, List.mem_cons, not_or] at h
    rw [insert]
    split
    · rfl
    · rw [if_neg h.1, List.length_cons, ih h.2, List.length_cons]

theorem length_insertAll (hkeys : (pairs.map Prod.fst).Nodup)
    (hfresh : ∀ key ∈ pairs.map Prod.fst, key ∉ entries.map Prod.fst) :
    (insertAll entries pairs).length = entries.length + pairs.length := by
  induction pairs generalizing entries with
  | nil => rfl
  | cons first rest ih =>
    obtain ⟨hfirst, hrest⟩ := List.nodup_cons.1 hkeys
    obtain ⟨hnew, hfresh⟩ := List.forall_mem_cons.1 hfresh
    have hinserted : ∀ key ∈ rest.map Prod.fst,
        key ∉ (insert first.1 first.2 entries).map Prod.fst := by
      intro key hkey hmem
      obtain rfl | hmem := mem_keys_insert.1 hmem
      · exact hfirst hkey
      · exact hfresh key hkey hmem
    have hlength := ih hrest hinserted
    rw [length_insert hnew] at hlength
    exact hlength.trans (by rw [List.length_cons]; omega)

/-- With no key twice, there is an entry for each pair. -/
theorem length_ofPairs (hkeys : (pairs.map Prod.fst).Nodup) :
    (ofPairs pairs).length = pairs.length :=
  (length_insertAll hkeys (by simp)).trans (Nat.zero_add _)

end Keyed

namespace Json

variable {key : String} {value : Option Json} {members : List (String × Option Json)}

theorem mem_keys_set {pair : String × Json} :
    pair ∈ members.filterMap (fun member => member.2.map fun value => (member.1, value)) ↔
      (pair.1, some pair.2) ∈ members := by
  simp only [List.mem_filterMap, Option.map_eq_some_iff]
  constructor
  · rintro ⟨⟨k, _⟩, hmem, v, rfl, rfl⟩
    exact hmem
  · intro hmem
    exact ⟨_, hmem, _, rfl, rfl⟩

theorem nodup_keys_set (hkeys : (members.map Prod.fst).Nodup) :
    ((members.filterMap fun member => member.2.map fun value => (member.1, value)).map
      Prod.fst).Nodup := by
  induction members with
  | nil => exact List.nodup_nil
  | cons first rest ih =>
    obtain ⟨k, value⟩ := first
    obtain ⟨hfirst, hrest⟩ := List.nodup_cons.1 hkeys
    cases value with
    | none => exact ih hrest
    | some v =>
      refine List.nodup_cons.2 ⟨fun hmem => hfirst ?_, ih hrest⟩
      obtain ⟨pair, hpair, rfl⟩ := List.mem_map.1 hmem
      exact List.mem_map.2 ⟨_, mem_keys_set.1 hpair, rfl⟩

/-- The members of an object are those that were set. -/
theorem exists_ofSet (hkeys : (members.map Prod.fst).Nodup) : ∃ entries,
    ofSet members = .object entries ∧
      ∀ pair : String × Json, pair ∈ entries ↔ (pair.1, some pair.2) ∈ members :=
  ⟨_, rfl, fun _ => (Keyed.mem_ofPairs (nodup_keys_set hkeys)).trans mem_keys_set⟩

/-- A member is what was given for it, or missing if nothing was. -/
theorem get?_ofSet (hkeys : (members.map Prod.fst).Nodup) (h : (key, value) ∈ members) :
    (ofSet members).get? key = value := by
  cases value with
  | some v => exact Keyed.find?_ofPairs (nodup_keys_set hkeys) (mem_keys_set.2 h)
  | none =>
    refine Keyed.find?_ofPairs_eq_none fun hmem => ?_
    obtain ⟨pair, hpair, rfl⟩ := List.mem_map.1 hmem
    have heq := List.inj_on_of_nodup_map hkeys (mem_keys_set.1 hpair) h rfl
    cases heq

end Json

end SearchSql
