/-!
Lists from which repetitions are taken, so that each member stands where it first occurs.
-/

namespace SearchSql

variable {α : Type} [BEq α]

/-- Induction over a list from which the later occurrences of each member are taken. -/
theorem eraseDups_induction {motive : List α → Prop} (nil : motive [])
    (cons : ∀ a as, motive (as.filter fun b => !b == a) → motive (a :: as)) (as : List α) :
    motive as := by
  match as with
  | [] => exact nil
  | a :: as => exact cons a as (eraseDups_induction nil cons _)
termination_by as.length
decreasing_by
  have := List.length_filter_le (fun b => !b == a) as
  simp only [List.length_cons]
  omega

variable [LawfulBEq α]

theorem nodup_eraseDups (as : List α) : as.eraseDups.Nodup := by
  induction as using eraseDups_induction with
  | nil => exact List.nodup_nil
  | cons a as ih =>
    rw [List.eraseDups_cons]
    exact List.nodup_cons.2 ⟨by simp [List.mem_eraseDups], ih⟩

/-- Repetitions may be taken before some members are chosen or after it. -/
theorem filter_eraseDups (p : α → Bool) (as : List α) :
    as.eraseDups.filter p = (as.filter p).eraseDups := by
  induction as using eraseDups_induction with
  | nil => rfl
  | cons a as ih =>
    rw [List.eraseDups_cons]
    cases ha : p a with
    | true =>
      rw [List.filter_cons_of_pos ha, List.filter_cons_of_pos ha, List.eraseDups_cons, ih,
        List.filter_filter, List.filter_filter]
      simp only [Bool.and_comm]
    | false =>
      have hkept : ∀ b, (p b && !b == a) = p b := by
        intro b
        cases hb : b == a with
        | true => simp [eq_of_beq hb, ha]
        | false => simp
      rw [List.filter_cons_of_neg (by simp [ha]), List.filter_cons_of_neg (by simp [ha]), ih,
        List.filter_filter]
      simp only [hkept]

end SearchSql
