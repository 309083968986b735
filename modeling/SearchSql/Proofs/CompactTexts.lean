import SearchSql.Json.Printer
import SearchSql.Json.Reader
import SearchSql.Proofs.LastWrites

/-!
Compact text that is read back. Quoted text always is, whatever it holds, and so is an object whose
members are.
-/

namespace SearchSql.Json

variable {depth : Nat} {value : Json} {members : List (String × Json)}

theorem hexNumber?_hexDigit {n : Nat} (h : n < 32) :
    Text.hexNumber? ['0', '0', hexDigit (n / 16), hexDigit (n % 16)] = some n := by
  revert n
  decide

/-- An escape stands for its character. -/
theorem takeText_escape (c : Char) (rest : List Char) :
    takeText (escape c ++ rest) = (takeText rest).map (Text.push c) := by
  unfold escape
  split
  case h_8 _ hquote hslash _ _ _ _ _ =>
    split
    · next hcontrol =>
      have hunit : unitChar? c.toNat = some c := by
        have hsurrogate : ¬ (0xD800 ≤ c.toNat ∧ c.toNat ≤ 0xDFFF) := by omega
        rw [unitChar?, if_neg hsurrogate, Char.ofNat_toNat]
      have hread : (Text.hexNumber? ['0', '0', hexDigit (c.toNat / 16),
          hexDigit (c.toNat % 16)]).bind unitChar? = some c := by
        rw [hexNumber?_hexDigit hcontrol, Option.bind_some, hunit]
      simp only [List.cons_append, List.nil_append]
      rw [takeText.eq_def]
      simp only [hread]
    · next hcontrol =>
      simp only [List.cons_append, List.nil_append]
      rw [takeText, if_neg hcontrol]
      · exact hquote
      · rintro _ _ _ _ _ rfl
        exact (hslash rfl).elim
      · rintro _ _ rfl
        exact (hslash rfl).elim
  all_goals simp [takeText, unescape?]

theorem takeText_escaped (cs rest : List Char) :
    takeText (cs.flatMap escape ++ '"' :: rest) = some (cs, rest) := by
  induction cs with
  | nil => simp [takeText]
  | cons c cs ih =>
    rw [List.flatMap_cons, List.append_assoc, takeText_escape, ih]
    rfl

/-- The compact text of a value is read back, whatever follows it. -/
def ReadsBack (depth : Nat) (value : Json) : Prop :=
  ∀ rest, ∃ h, takeValue depth (value.compact.toList ++ rest) = some (value, ⟨rest, h⟩)

theorem toList_quoted (s : String) (rest : List Char) : (quoted s).toList ++ rest =
    '"' :: (s.toList.flatMap escape ++ '"' :: rest) := by
  simp [quoted]

theorem readsBack_text (depth : Nat) (s : String) : ReadsBack depth (.text s) := by
  intro rest
  rw [compact, toList_quoted, takeValue]
  split
  · next heq =>
    cases heq
    split
    · next h =>
      cases (takeText_escaped s.toList rest).symm.trans h
      rw [String.ofList_toList]
      exact ⟨by simp; omega, rfl⟩
    · next h => cases (takeText_escaped s.toList rest).symm.trans h
  · next heq => cases heq
  · next heq => cases heq
  · next hquote _ _ => exact (hquote _ rfl).elim

theorem toList_member (key : String) (value : Json) (rest : List Char) :
    (quoted key ++ ":" ++ value.compact).toList ++ rest =
      '"' :: (key.toList.flatMap escape ++ '"' :: ':' :: (value.compact.toList ++ rest)) := by
  rw [String.toList_append, String.toList_append, List.append_assoc, List.append_assoc,
    toList_quoted]
  rfl

/-- A member is read back and leaves what follows its value. -/
theorem takeMembers_member (h : ReadsBack depth value) (key : String) {rest after : List Char}
    (hrest : rest = '\x7d' :: after ∧ members = [] ∨
      ∃ inside ha, rest = ',' :: inside ∧
        takeMembers depth inside = some (members, ⟨after, ha⟩)) :
    ∃ ha, takeMembers depth ((quoted key ++ ":" ++ value.compact).toList ++ rest) =
      some ((key, value) :: members, ⟨after, ha⟩) := by
  have hkey := takeText_escaped key.toList (':' :: (value.compact.toList ++ rest))
  obtain ⟨_, hvalue⟩ := h rest
  rw [toList_member, takeMembers]
  split
  · next hquote =>
    cases hquote
    split
    · next hnone => cases hkey.symm.trans hnone
    · next htake =>
      cases hkey.symm.trans htake
      split
      · next hcolon =>
        cases hcolon
        split
        · next hnone => cases hvalue.symm.trans hnone
        · next hsome =>
          cases hvalue.symm.trans hsome
          rw [String.ofList_toList]
          obtain ⟨rfl, rfl⟩ | ⟨inside, ha, rfl, hinside⟩ := hrest
          · split
            · next hclose =>
              cases hclose
              exact ⟨by simp; omega, rfl⟩
            · next hcomma => cases hcomma
            · next hother _ => exact (hother _ rfl).elim
          · split
            · next hclose => cases hclose
            · next hcomma =>
              cases hcomma
              rw [hinside]
              exact ⟨by simp; omega, rfl⟩
            · next hother => exact (hother _ rfl).elim
      · next hother => exact (hother _ rfl).elim
  · next hother => exact (hother _ rfl).elim

theorem compactMembers_cons (key : String) (value : Json) (members : List (String × Json))
    (rest : List Char) :
    (String.intercalate "," (compactMembers ((key, value) :: members))).toList ++ rest =
      (quoted key ++ ":" ++ value.compact).toList ++ (if members = [] then rest else
        ',' :: ((String.intercalate "," (compactMembers members)).toList ++ rest)) := by
  cases members with
  | nil =>
    rw [if_pos rfl]
    simp only [compactMembers, String.intercalate_singleton]
  | cons next members =>
    rw [if_neg (List.cons_ne_nil _ _), compactMembers, compactMembers,
      String.intercalate_cons_cons, String.toList_append, String.toList_append,
      List.append_assoc, List.append_assoc]
    rfl

theorem takeMembers_compactMembers (hne : members ≠ [])
    (h : ∀ member ∈ members, ReadsBack depth member.2) (rest : List Char) :
    ∃ ha, takeMembers depth
      ((String.intercalate "," (compactMembers members)).toList ++ '\x7d' :: rest) =
        some (members, ⟨rest, ha⟩) := by
  induction members with
  | nil => exact (hne rfl).elim
  | cons member members ih =>
    obtain ⟨hmember, hmembers⟩ := List.forall_mem_cons.1 h
    rw [compactMembers_cons]
    apply takeMembers_member hmember
    by_cases hlast : members = []
    · rw [if_pos hlast]
      exact .inl ⟨rfl, hlast⟩
    · rw [if_neg hlast]
      obtain ⟨ha, htake⟩ := ih hlast hmembers
      exact .inr ⟨_, ha, rfl, htake⟩

/-- An object nests one level deeper than its members. -/
theorem readsBack_object (hascending : Keyed.Ascending members)
    (h : ∀ member ∈ members, ReadsBack depth member.2) :
    ReadsBack (depth + 1) (.object members) := by
  intro rest
  have hopen : (object members).compact.toList ++ rest = '\x7b' ::
      ((String.intercalate "," (compactMembers members)).toList ++ '\x7d' :: rest) := by
    simp [compact]
  rw [hopen, takeValue]
  split
  · next hquote => cases hquote
  · next hlist => cases hlist
  · next hobject =>
    cases hobject
    rw [if_neg depth.succ_ne_zero]
    cases members with
    | nil =>
      split
      · next hclose =>
        cases hclose
        exact ⟨by simp; omega, rfl⟩
      · next hother => exact (hother _ rfl).elim
    | cons member members =>
      obtain ⟨ha, hmembers⟩ := takeMembers_compactMembers (List.cons_ne_nil _ _) h rest
      split
      · next hclose =>
        rw [compactMembers_cons, toList_member] at hclose
        cases hclose
      · split
        · next hsome =>
          cases hmembers.symm.trans hsome
          rw [ofMembers, Keyed.ofPairs_eq_self hascending]
          exact ⟨by simp; omega, rfl⟩
        · next hnone => cases hmembers.symm.trans hnone
  · next hother => exact (hother _ rfl).elim

theorem readsBack_single (key : String) (h : ReadsBack depth value) :
    ReadsBack (depth + 1) (.single key value) :=
  readsBack_object (List.pairwise_singleton _ _) (List.forall_mem_singleton.2 h)

theorem parse?_compact (h : ReadsBack maxDepth value) :
    parse? value.compact = some value := by
  have hall := h []
  rw [List.append_nil] at hall
  obtain ⟨hlt, hvalue⟩ := hall
  rw [parse?, hvalue]
  rfl

end SearchSql.Json
