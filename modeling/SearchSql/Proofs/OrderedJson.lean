import Mathlib
import SearchSql.Json.Reader
import SearchSql.Proofs.Members

/-!
Values whose objects list their members in ascending order of the keys, at every level. What is read
from a text is such a value.
-/

namespace SearchSql.Json

/-- Every object lists its members in ascending order of the keys, so that no key occurs twice. -/
inductive Ordered : Json → Prop
  | null : Ordered .null
  | boolean (b) : Ordered (.boolean b)
  | integer (n) : Ordered (.integer n)
  | real (x) : Ordered (.real x)
  | text (s) : Ordered (.text s)
  | list {items} : (∀ item ∈ items, Ordered item) → Ordered (.list items)
  | object {members : List (String × Json)} : Keyed.Ascending members →
      (∀ member ∈ members, Ordered member.2) → Ordered (.object members)

variable {j value : Json} {key : String} {members : List (String × Json)}

theorem Ordered.get? (h : j.Ordered) (hget : j.get? key = some value) : value.Ordered := by
  cases h with
  | object _ hmembers => exact hmembers _ (Keyed.mem_of_find? hget)
  | _ => cases hget

theorem ordered_single (key : String) (h : value.Ordered) : (single key value).Ordered :=
  .object (List.pairwise_singleton _ _) (by simpa)

theorem ordered_ofMembers (h : ∀ member ∈ members, member.2.Ordered) :
    (ofMembers members).Ordered :=
  .object (Keyed.ascending_ofPairs members) fun _ hmem => h _ (Keyed.mem_of_mem_ofPairs hmem)

theorem ordered_of_value? {t : NumberText} (h : t.value? = some value) : value.Ordered := by
  have hdouble {x : Option Double} (h : x.map Json.real = some value) : value.Ordered := by
    obtain ⟨x, _, rfl⟩ := Option.map_eq_some_iff.1 h
    exact .real x
  unfold NumberText.value? at h
  dsimp only at h
  split at h
  · exact hdouble h
  · split at h
    · split at h
      · cases h
        exact .integer _
      · exact hdouble h
    · split at h
      · cases h
        exact .integer _
      · exact hdouble h

theorem ordered_of_takeBare {cs rest : List Char} (h : takeBare cs = some (value, rest)) :
    value.Ordered := by
  unfold takeBare at h
  split at h
  · next hword =>
    cases h
    unfold takeWord at hword
    split at hword
    all_goals cases hword
    · exact .null
    · exact .boolean true
    · exact .boolean false
  · split at h
    · next number _ _ =>
      obtain ⟨x, hx, heq⟩ := Option.map_eq_some_iff.1 h
      cases heq
      exact ordered_of_value? hx
    · cases h

mutual

theorem ordered_of_takeValue {depth : Nat} {cs : List Char} {value rest}
    (h : takeValue depth cs = some (value, rest)) : value.Ordered := by
  rw [takeValue] at h
  split at h
  · split at h
    · cases h
      exact .text _
    · cases h
  · next hopen =>
    have hlt := length_lt_of_skipSpace hopen
    split at h
    · cases h
    · split at h
      · cases h
        exact .list nofun
      · split at h
        · next hitems =>
          cases h
          exact .list (ordered_of_takeItems hitems)
        · cases h
  · next hopen =>
    have hlt := length_lt_of_skipSpace hopen
    split at h
    · cases h
    · split at h
      · cases h
        exact .object .nil nofun
      · split at h
        · next hmembers =>
          cases h
          exact ordered_ofMembers (ordered_of_takeMembers hmembers)
        · cases h
  · split at h
    · next hbare =>
      cases h
      exact ordered_of_takeBare hbare
    · cases h
termination_by (cs.length, 0)

theorem ordered_of_takeItems {depth : Nat} {cs : List Char} {items rest}
    (h : takeItems depth cs = some (items, rest)) : ∀ item ∈ items, item.Ordered := by
  rw [takeItems] at h
  split at h
  · cases h
  · next ha hitem =>
    have hfirst := ordered_of_takeValue hitem
    split at h
    · cases h
      exact List.forall_mem_singleton.2 hfirst
    · next hcomma =>
      have hlt := Nat.lt_trans (length_lt_of_skipSpace hcomma) ha
      split at h
      · next hitems =>
        cases h
        exact List.forall_mem_cons.2 ⟨hfirst, ordered_of_takeItems hitems⟩
      · cases h
    · cases h
termination_by (cs.length, 1)

theorem ordered_of_takeMembers {depth : Nat} {cs : List Char} {members rest}
    (h : takeMembers depth cs = some (members, rest)) :
    ∀ member ∈ members, member.2.Ordered := by
  rw [takeMembers] at h
  split at h
  · next hquote =>
    split at h
    · cases h
    · next hkey =>
      have hk := Nat.lt_trans (length_takeText hkey) (length_lt_of_skipSpace hquote)
      split at h
      · next hcolon =>
        have hc := Nat.lt_trans (length_lt_of_skipSpace hcolon) hk
        split at h
        · cases h
        · next ha hvalue =>
          have hfirst := ordered_of_takeValue hvalue
          split at h
          · cases h
            exact List.forall_mem_singleton.2 hfirst
          · next hcomma =>
            have hlt := Nat.lt_trans (length_lt_of_skipSpace hcomma) (Nat.lt_trans ha hc)
            split at h
            · next hmembers =>
              cases h
              exact List.forall_mem_cons.2 ⟨hfirst, ordered_of_takeMembers hmembers⟩
            · cases h
          · cases h
      · cases h
  · cases h
termination_by (cs.length, 1)

end

/-- What is read from a text is ordered. -/
theorem ordered_of_parse? {s : String} (h : parse? s = some value) : value.Ordered := by
  unfold parse? at h
  split at h
  · next hvalue =>
    split at h
    · cases h
      exact ordered_of_takeValue hvalue
    · cases h
  · cases h

end SearchSql.Json
