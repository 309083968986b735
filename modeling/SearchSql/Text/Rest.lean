/-!
What is left of a text when a reader has taken its part.
-/

namespace SearchSql.Text

/-- A character in front of what a reader gives. -/
def push (c : Char) (r : List Char × List Char) : List Char × List Char := (c :: r.1, r.2)

/-- A character in front does not change what is left. -/
theorem of_map_push {c : Char} {read : Option (List Char × List Char)} {text rest : List Char}
    (h : read.map (push c) = some (text, rest)) : ∃ text', read = some (text', rest) := by
  obtain ⟨⟨text', rest'⟩, hread, hpush⟩ := Option.map_eq_some_iff.1 h
  cases hpush
  exact ⟨text', hread⟩

theorem length_dropWhile_le (p : Char → Bool) (cs : List Char) :
    (cs.dropWhile p).length ≤ cs.length := (List.dropWhile_sublist p).length_le

theorem length_dropWhile_lt {p : Char → Bool} {cs : List Char} (h : cs.takeWhile p ≠ []) :
    (cs.dropWhile p).length < cs.length := by
  cases cs with
  | nil => simp at h
  | cons c cs =>
    cases hc : p c with
    | false => simp [hc] at h
    | true =>
      rw [List.dropWhile_cons_of_pos hc]
      exact Nat.lt_succ_of_le (length_dropWhile_le p cs)

theorem length_lt_of_eq_cons {c : Char} {cs rest : List Char} {n : Nat} (h : cs = c :: rest)
    (hn : cs.length ≤ n) : rest.length < n := by
  subst h
  exact hn

theorem length_lt_of_eq_cons_cons {c d : Char} {cs rest : List Char} {n : Nat}
    (h : cs = c :: d :: rest) (hn : cs.length ≤ n) : rest.length < n := by
  subst h
  exact Nat.lt_of_succ_lt hn

end SearchSql.Text
