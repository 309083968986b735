/-!
Keyed values in strictly ascending order of their keys. Text is ordered by code points, which is
also the order of its bytes.
-/

namespace SearchSql.Keyed

variable {α : Type} {key other : String} {value : α} {entries : List (String × α)}

/-- Puts a value under a key, replacing what the key had. -/
def insert (key : String) (value : α) : List (String × α) → List (String × α)
  | [] => [(key, value)]
  | (k, v) :: rest =>
    if key < k then (key, value) :: (k, v) :: rest
    else if key = k then (key, value) :: rest
    else (k, v) :: insert key value rest

/-- The value under a key. -/
def find? (key : String) : List (String × α) → Option α
  | [] => none
  | (k, v) :: rest => if k = key then some v else find? key rest

/-- Puts pairs one after the other; the last pair of a key wins. -/
def insertAll (entries pairs : List (String × α)) : List (String × α) :=
  pairs.foldl (fun acc pair => insert pair.1 pair.2 acc) entries

/-- The entries of a list of pairs. -/
def ofPairs (pairs : List (String × α)) : List (String × α) := insertAll [] pairs

/-- Every key is below all keys that follow it. -/
def Ascending (entries : List (String × α)) : Prop := entries.Pairwise fun a b => a.1 < b.1

@[simp] theorem find?_nil : find? key ([] : List (String × α)) = none := rfl

theorem find?_cons (pair : String × α) :
    find? key (pair :: entries) = if pair.1 = key then some pair.2 else find? key entries := rfl

theorem find?_eq_lookup : find? key entries = entries.lookup key := by
  induction entries with
  | nil => rfl
  | cons pair rest ih =>
    rw [find?_cons, List.lookup_cons, ih]
    by_cases h : key = pair.1
    · simp [h]
    · have hne : (key == pair.1) = false := beq_eq_false_iff_ne.2 h
      rw [if_neg (Ne.symm h), hne]

/-- A key reads back what was put under it, and other keys are untouched. -/
theorem find?_insert :
    find? other (insert key value entries) =
      if key = other then some value else find? other entries := by
  induction entries with
  | nil => rfl
  | cons pair rest ih =>
    obtain ⟨k, v⟩ := pair
    rw [insert]
    split
    · rfl
    · split
      · next h => subst h; simp only [find?_cons]; split <;> rfl
      · next h =>
        simp only [find?_cons, ih]
        split
        · next hk => subst hk; simp [h]
        · rfl

theorem mem_insert {pair : String × α} (h : pair ∈ insert key value entries) :
    pair = (key, value) ∨ pair ∈ entries := by
  induction entries with
  | nil => simpa [insert] using h
  | cons first rest ih =>
    rw [insert] at h
    split at h
    · simpa using h
    · split at h
      · simp only [List.mem_cons] at h ⊢
        exact h.imp_right .inr
      · simp only [List.mem_cons] at h ⊢
        obtain h | h := h
        · exact .inr (.inl h)
        · exact (ih h).imp_right .inr

theorem ascending_insert (h : Ascending entries) : Ascending (insert key value entries) := by
  induction entries with
  | nil => simp [insert, Ascending]
  | cons first rest ih =>
    obtain ⟨k, v⟩ := first
    have hrest : Ascending rest := (List.pairwise_cons.1 h).2
    have hfirst := (List.pairwise_cons.1 h).1
    rw [insert]
    split
    · next hlt =>
      refine List.pairwise_cons.2 ⟨fun pair hp => ?_, h⟩
      obtain hp | hp := List.mem_cons.1 hp
      · simpa [hp] using hlt
      · exact String.lt_trans hlt (hfirst pair hp)
    · split
      · next heq => subst heq; exact List.pairwise_cons.2 ⟨hfirst, hrest⟩
      · next hnlt hne =>
        refine List.pairwise_cons.2 ⟨fun pair hp => ?_, ih hrest⟩
        obtain hp | hp := mem_insert hp
        · subst hp
          exact Decidable.by_contra fun hc =>
            hne (String.le_antisymm (String.not_lt.1 hc) (String.not_lt.1 hnlt))
        · exact hfirst pair hp

theorem ascending_insertAll {pairs : List (String × α)} (h : Ascending entries) :
    Ascending (insertAll entries pairs) := by
  unfold insertAll
  induction pairs generalizing entries with
  | nil => exact h
  | cons pair rest ih => exact ih (ascending_insert h)

theorem ascending_ofPairs (pairs : List (String × α)) : Ascending (ofPairs pairs) :=
  ascending_insertAll (by simp [Ascending])

end SearchSql.Keyed
