import Mathlib.Data.List.Nodup
import Mathlib.Data.List.Perm.Basic
import SearchSql.Proofs.Members
import SearchSql.Schema.Basic

/-!
What writes leave behind. A key reads back the last value that was written under it, and what all
keys read back tells the entries.
-/

namespace SearchSql

/-- The value that was last written under a key. -/
def lastWrite {κ α : Type} [DecidableEq κ] (key : κ) : List (κ × α) → Option α
  | [] => none
  | (k, v) :: rest => (lastWrite key rest).or (if k = key then some v else none)

section lastWrite

variable {κ κ' α : Type} [DecidableEq κ] [DecidableEq κ'] {key : κ} {value : α}
  {writes : List (κ × α)}

@[simp] theorem lastWrite_nil : lastWrite key ([] : List (κ × α)) = none := rfl

theorem lastWrite_cons (write : κ × α) (writes : List (κ × α)) : lastWrite key (write :: writes) =
    (lastWrite key writes).or (if write.1 = key then some write.2 else none) := rfl

theorem lastWrite_append (earlier later : List (κ × α)) :
    lastWrite key (earlier ++ later) = (lastWrite key later).or (lastWrite key earlier) := by
  induction earlier with
  | nil => rw [List.nil_append, lastWrite_nil, Option.or_none]
  | cons write earlier ih =>
    rw [List.cons_append, lastWrite_cons, ih, lastWrite_cons, Option.or_assoc]

theorem lastWrite_eq_none_iff : lastWrite key writes = none ↔ ∀ write ∈ writes, write.1 ≠ key := by
  induction writes with
  | nil => simp
  | cons write writes ih => simp [lastWrite_cons, ih, and_comm]

theorem mem_of_lastWrite (h : lastWrite key writes = some value) : (key, value) ∈ writes := by
  induction writes with
  | nil => cases h
  | cons write writes ih =>
    rw [lastWrite_cons, Option.or_eq_some_iff] at h
    rcases h with h | ⟨_, h⟩
    · exact List.mem_cons_of_mem _ (ih h)
    · split at h
      · next hkey =>
        cases h
        exact hkey ▸ List.mem_cons_self
      · cases h

/-- Keys may be renamed as long as no other key takes the new name. -/
theorem lastWrite_map (f : κ → κ') (h : ∀ write ∈ writes, f write.1 = f key → write.1 = key) :
    lastWrite (f key) (writes.map fun write => (f write.1, write.2)) = lastWrite key writes := by
  induction writes with
  | nil => rfl
  | cons write writes ih =>
    obtain ⟨hfirst, hrest⟩ := List.forall_mem_cons.1 h
    have hkey : f write.1 = f key ↔ write.1 = key := ⟨hfirst, congrArg f⟩
    rw [List.map_cons, lastWrite_cons, ih hrest, lastWrite_cons]
    simp only [hkey]

end lastWrite

namespace Keyed

variable {α : Type} {key : String} {entries entries' : List (String × α)}

theorem find?_insertAll (key : String) (entries pairs : List (String × α)) :
    find? key (insertAll entries pairs) = (lastWrite key pairs).or (find? key entries) := by
  unfold insertAll
  induction pairs generalizing entries with
  | nil => rfl
  | cons pair pairs ih =>
    rw [List.foldl_cons, ih, find?_insert, lastWrite_cons, Option.or_assoc]
    congr 1
    split <;> rfl

/-- No key occurs twice in ascending entries. -/
theorem Ascending.nodup_keys (h : Ascending entries) : (entries.map Prod.fst).Nodup := by
  refine List.pairwise_map.2 (h.imp fun {a b} hlt heq => ?_)
  rw [heq] at hlt
  exact String.lt_irrefl _ hlt

theorem find?_eq_some_iff (h : Ascending entries) {value : α} :
    find? key entries = some value ↔ (key, value) ∈ entries := by
  refine ⟨mem_of_find?, fun hmem => ?_⟩
  induction entries with
  | nil => cases hmem
  | cons first rest ih =>
    obtain ⟨hfirst, hrest⟩ := List.pairwise_cons.1 h
    rw [find?_cons]
    rcases List.mem_cons.1 hmem with rfl | hmem
    · exact if_pos rfl
    · rw [if_neg fun heq => String.lt_irrefl _ (heq ▸ hfirst _ hmem)]
      exact ih hrest hmem

theorem find?_eq_none_of_lt (h : ∀ pair ∈ entries, key < pair.1) : find? key entries = none := by
  rw [Option.eq_none_iff_forall_ne_some]
  intro value hfind
  exact String.lt_irrefl _ (h _ (mem_of_find? hfind))

theorem lastWrite_eq_find? (h : Ascending entries) : lastWrite key entries = find? key entries := by
  induction entries with
  | nil => rfl
  | cons first rest ih =>
    obtain ⟨hfirst, hrest⟩ := List.pairwise_cons.1 h
    rw [lastWrite_cons, find?_cons]
    split
    · next hkey =>
      subst hkey
      have hnone : lastWrite first.1 rest = none :=
        lastWrite_eq_none_iff.2 fun pair hpair heq => String.lt_irrefl _ (heq ▸ hfirst pair hpair)
      rw [hnone, Option.none_or]
    · rw [Option.or_none, ih hrest]

/-- Ascending entries are told by what their keys read back. -/
theorem Ascending.ext (h : Ascending entries) (h' : Ascending entries')
    (hfind : ∀ key, find? key entries = find? key entries') : entries = entries' := by
  have hmem (pair : String × α) : pair ∈ entries ↔ pair ∈ entries' := by
    rw [← find?_eq_some_iff h, ← find?_eq_some_iff h', hfind]
  have hperm : entries.Perm entries' :=
    (List.perm_ext_iff_of_nodup (.of_map _ h.nodup_keys) (.of_map _ h'.nodup_keys)).2 hmem
  refine hperm.eq_of_pairwise (fun a b _ _ hab hba => ?_) h h'
  exact (String.lt_irrefl _ (String.lt_trans hab hba)).elim

/-- Ascending pairs are kept as they are. -/
theorem ofPairs_eq_self (h : Ascending entries) : ofPairs entries = entries := by
  apply Ascending.ext (ascending_ofPairs entries) h
  intro key
  rw [ofPairs, find?_insertAll, lastWrite_eq_find? h]
  exact Option.or_none

end Keyed

namespace Schema

variable {s t : Schema}

theorem get?_insertAll (s : Schema) (pairs : List (String × FieldType)) (field : String) :
    (s.insertAll pairs).get? field = (lastWrite field pairs).or (s.get? field) :=
  Keyed.find?_insertAll field s.entries pairs

theorem get?_ofPairs (pairs : List (String × FieldType)) (field : String) :
    (ofPairs pairs).get? field = lastWrite field pairs := by
  rw [ofPairs, get?_insertAll, get?_empty, Option.or_none]

theorem get?_merge (s t : Schema) (field : String) :
    (s.merge t).get? field = (t.get? field).or (s.get? field) := by
  rw [merge, get?_insertAll, Keyed.lastWrite_eq_find? t.ascending]
  rfl

/-- A schema is told by the types that it gives. -/
theorem ext_get? (h : ∀ field, s.get? field = t.get? field) : s = t :=
  Schema.ext (s.ascending.ext t.ascending h)

/-- Writes may be gathered in a schema of their own first. -/
theorem insertAll_eq_merge (s : Schema) (pairs : List (String × FieldType)) :
    s.insertAll pairs = s.merge (ofPairs pairs) := by
  apply ext_get?
  intro field
  rw [get?_insertAll, get?_merge, get?_ofPairs]

theorem insertAll_append (s : Schema) (earlier later : List (String × FieldType)) :
    s.insertAll (earlier ++ later) = (s.insertAll earlier).insertAll later := by
  apply ext_get?
  intro field
  rw [get?_insertAll, get?_insertAll, get?_insertAll, lastWrite_append, Option.or_assoc]

end Schema

end SearchSql
