import Mathlib

/-!
Texts of names with a character between them. The names are told apart again as long as none of them
has the character in it.
-/

namespace SearchSql

/-- The pieces of a text between the occurrences of a character. -/
def pieces (sep : Char) (text : String) : List String :=
  (text.toList.splitOn sep).map String.ofList

section pieces

variable {c : Char} {sep text : String} {names : List String}

theorem not_mem_of_mem_splitOn {cs piece : List Char} (h : piece ∈ cs.splitOn c) : c ∉ piece := by
  induction cs generalizing piece with
  | nil =>
    rw [List.splitOn_nil, List.mem_singleton] at h
    simp [h]
  | cons d cs ih =>
    obtain ⟨first, others, hsplit⟩ := List.exists_cons_of_ne_nil (List.splitOn_ne_nil c cs)
    rw [hsplit] at ih
    obtain ⟨hfirst, hothers⟩ := List.forall_mem_cons.1 fun _ hpiece => ih hpiece
    rw [List.splitOn_cons_eq_if_modifyHead, hsplit] at h
    split at h
    · obtain rfl | h := List.mem_cons.1 h
      · simp
      · exact ih h
    · next hd =>
      rw [List.modifyHead_cons] at h
      obtain rfl | h := List.mem_cons.1 h
      · simp only [List.mem_cons, not_or]
        exact ⟨fun heq => hd (by simp [heq]), hfirst⟩
      · exact hothers _ h

theorem not_mem_of_mem_pieces {piece : String} (h : piece ∈ pieces c text) :
    c ∉ piece.toList := by
  obtain ⟨cs, hcs, rfl⟩ := List.mem_map.1 h
  rw [String.toList_ofList]
  exact not_mem_of_mem_splitOn hcs

/-- The pieces with the character between them make up the text. -/
theorem intercalate_pieces (hsep : sep.toList = [c]) (text : String) :
    sep.intercalate (pieces c text) = text := by
  rw [← String.toList_inj, String.toList_intercalate, hsep, pieces, List.map_map]
  simp only [Function.comp_def, String.toList_ofList, List.map_id', List.intercalate_splitOn]

/-- Names are told apart again exactly when the character between them is in none of them. -/
theorem pieces_intercalate_iff (hsep : sep.toList = [c]) (hne : names ≠ []) :
    pieces c (sep.intercalate names) = names ↔ ∀ name ∈ names, c ∉ name.toList := by
  constructor
  · intro h name hname
    exact not_mem_of_mem_pieces (h ▸ hname)
  · intro h
    have hchars : ∀ cs ∈ names.map String.toList, c ∉ cs := by simpa using h
    rw [pieces, String.toList_intercalate, hsep,
      List.splitOn_intercalate c hchars (by simpa using hne), List.map_map]
    simp only [Function.comp_def, String.ofList_toList, List.map_id']

theorem not_mem_intercalate_iff (hsep : c ∉ sep.toList) :
    c ∉ (sep.intercalate names).toList ↔ ∀ name ∈ names, c ∉ name.toList := by
  induction names with
  | nil => simp
  | cons name names ih =>
    cases names with
    | nil => simp
    | cons name' names =>
      rw [String.intercalate_cons_cons, List.forall_mem_cons, ← ih]
      simp [hsep]

end pieces

end SearchSql
