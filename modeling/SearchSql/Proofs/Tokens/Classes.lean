import Mathlib.Data.List.TakeWhile
import SearchSql.Proofs.Printing.Lexing

/-!
The classes of lexemes. The lexer takes the longest number, word or operator that stands first, and
a quoted text by its escapes.
-/

namespace SearchSql.Lexeme

def AreDigits (cs : List Char) : Prop := cs ≠ [] ∧ ∀ c ∈ cs, c.isDigit = true

/-- Digits, or digits with a point and more digits behind. -/
inductive IsDecimal : List Char → Prop
  | whole {ds} : AreDigits ds → IsDecimal ds
  | fraction {ds fs} : AreDigits ds → AreDigits fs → IsDecimal (ds ++ '.' :: fs)

/-- A number may have a minus sign in front. -/
inductive IsNumber : List Char → Prop
  | unsigned {cs} : IsDecimal cs → IsNumber cs
  | negative {cs} : IsDecimal cs → IsNumber ('-' :: cs)

/-- Keywords and identifiers are words. -/
inductive IsWord : List Char → Prop
  | mk {c w} : startsWord c = true → (∀ d ∈ w, continuesWord d = true) → IsWord (c :: w)

/-- The spellings of a comparison. Inequality has two. -/
inductive IsOperator : Comparison → List Char → Prop
  | symbol {op} : IsOperator op op.symbol.toList
  | unequal : IsOperator .ne ['<', '>']

/-- A lexeme of a class in front of the rest of a text, of which nothing longer in front is one. -/
def Longest (P : List Char → Prop) (span rest : List Char) : Prop :=
  P span ∧ ∀ other, other <+: span ++ rest → P other → other.length ≤ span.length

variable {c : Char} {cs ds fs other rest span w : List Char} {p : Char → Bool}

/-- A text has one longest lexeme of a class in front. -/
theorem Longest.eq_of_append {P : List Char → Prop} {span' rest' : List Char}
    (h : Longest P span rest) (h' : Longest P span' rest') (heq : span ++ rest = span' ++ rest') :
    span = span' := by
  have hfront : span <+: span' ++ rest' := heq ▸ List.prefix_append span rest
  have hfront' : span' <+: span ++ rest := heq ▸ List.prefix_append span' rest'
  have hlength := Nat.le_antisymm (h'.2 span hfront h.1) (h.2 span' hfront' h'.1)
  exact List.append_inj_left heq hlength

theorem prefix_takeWhile (h : other <+: cs) (hp : ∀ d ∈ other, p d = true) :
    other <+: cs.takeWhile p := by
  obtain ⟨t, rfl⟩ := h
  rw [List.takeWhile_append_of_pos hp]
  exact List.prefix_append _ _

theorem areDigits_takeWhile (h : cs.takeWhile Char.isDigit ≠ []) :
    AreDigits (cs.takeWhile Char.isDigit) :=
  ⟨h, fun _ => List.mem_takeWhile_imp⟩

/-- Digits end in front of a point. -/
theorem takeWhile_point (hds : AreDigits ds) (rest : List Char) :
    (ds ++ '.' :: rest).takeWhile Char.isDigit = ds ∧
      (ds ++ '.' :: rest).dropWhile Char.isDigit = '.' :: rest := by
  refine takeWhile_append_of_head hds.2 fun d hd => ?_
  cases hd
  decide

theorem isDecimal_decimalSpan (h : cs.takeWhile Char.isDigit ≠ []) :
    IsDecimal (decimalSpan cs) := by
  have hwhole := areDigits_takeWhile h
  unfold decimalSpan
  dsimp only
  split
  · exact .whole hwhole
  · next hne =>
    refine .fraction hwhole ?_
    unfold places at hne ⊢
    split at hne
    · exact areDigits_takeWhile hne
    · exact (hne rfl).elim

theorem length_takeWhile_le_decimalSpan :
    (cs.takeWhile Char.isDigit).length ≤ (decimalSpan cs).length := by
  unfold decimalSpan
  dsimp only
  split
  · exact Nat.le_refl _
  · simp

theorem length_le_decimalSpan (h : IsDecimal other) (hfront : other <+: cs) :
    other.length ≤ (decimalSpan cs).length := by
  cases h with
  | whole hds =>
    have hdigits := (prefix_takeWhile hfront hds.2).length_le
    exact Nat.le_trans hdigits length_takeWhile_le_decimalSpan
  | @fraction ds fs hds hfs =>
    obtain ⟨t, rfl⟩ := hfront
    have hcs : ds ++ '.' :: fs ++ t = ds ++ '.' :: (fs ++ t) := by simp
    obtain ⟨htake, hdrop⟩ := takeWhile_point hds (fs ++ t)
    have hplaces : fs <+: places ('.' :: (fs ++ t)) :=
      prefix_takeWhile (List.prefix_append fs t) hfs.2
    have hne : places ('.' :: (fs ++ t)) ≠ [] := by
      intro hnil
      rw [hnil] at hplaces
      exact hfs.1 (List.prefix_nil.1 hplaces)
    rw [hcs, decimalSpan]
    simp only [htake, hdrop, if_neg hne, List.length_append, List.length_cons]
    have hlength := hplaces.length_le
    omega

theorem IsDecimal.eq_cons (h : IsDecimal other) : ∃ d w, other = d :: w ∧ d.isDigit = true := by
  have hdigits {ds : List Char} (hds : AreDigits ds) :
      ∃ d w, ds = d :: w ∧ d.isDigit = true := by
    obtain ⟨d, w, rfl⟩ := List.exists_cons_of_ne_nil hds.1
    exact ⟨d, w, rfl, hds.2 d List.mem_cons_self⟩
  cases h with
  | whole hds => exact hdigits hds
  | fraction hds _ =>
    obtain ⟨d, w, rfl, hd⟩ := hdigits hds
    exact ⟨d, _, rfl, hd⟩

theorem isNumber_numberSpan (h : numberSpan cs ≠ []) : IsNumber (numberSpan cs) := by
  unfold numberSpan at h ⊢
  split at h
  · split at h
    · exact (h rfl).elim
    · next hdigits =>
      rw [if_neg hdigits]
      exact .negative (isDecimal_decimalSpan hdigits)
  · split at h
    · exact (h rfl).elim
    · next hdigits =>
      rw [if_neg hdigits]
      exact .unsigned (isDecimal_decimalSpan hdigits)

theorem length_le_numberSpan (h : IsNumber other) (hfront : other <+: cs) :
    other.length ≤ (numberSpan cs).length := by
  cases h with
  | unsigned hother =>
    obtain ⟨d, w, rfl, hd⟩ := hother.eq_cons
    have hlength := length_le_decimalSpan hother hfront
    obtain ⟨t, rfl⟩ := hfront
    have hnumber : numberSpan (d :: w ++ t) = decimalSpan (d :: w ++ t) := by
      unfold numberSpan
      split
      · next heq =>
        cases heq
        exact absurd hd (by decide)
      · simp [hd]
    rw [hnumber]
    exact hlength
  | negative hother =>
    obtain ⟨d, w, rfl, hd⟩ := hother.eq_cons
    obtain ⟨t, rfl⟩ := hfront
    have hlength := length_le_decimalSpan hother (List.prefix_append (d :: w) t)
    have hnumber : numberSpan ('-' :: (d :: w) ++ t) = '-' :: decimalSpan (d :: w ++ t) := by
      simp [numberSpan, hd]
    rw [hnumber]
    exact Nat.succ_le_succ hlength

/-- The number that stands first is the longest. -/
theorem longest_numberSpan (h : numberSpan cs ≠ []) (hspan : numberSpan cs ++ rest = cs) :
    Longest IsNumber (numberSpan cs) rest := by
  refine ⟨isNumber_numberSpan h, fun other hfront hother => ?_⟩
  rw [hspan] at hfront
  exact length_le_numberSpan hother hfront

theorem IsNumber.eq_cons (h : IsNumber other) :
    ∃ d w, other = d :: w ∧ (d.isDigit = true ∨ d = '-') := by
  cases h with
  | unsigned h =>
    obtain ⟨d, w, rfl, hd⟩ := h.eq_cons
    exact ⟨d, w, rfl, .inl hd⟩
  | negative => exact ⟨_, _, rfl, .inr rfl⟩

theorem numberSpan_of_longest (h : Longest IsNumber span rest) :
    numberSpan (span ++ rest) = span := by
  have hlength := length_le_numberSpan h.1 (List.prefix_append span rest)
  have hne : numberSpan (span ++ rest) ≠ [] := by
    obtain ⟨d, w, rfl, _⟩ := h.1.eq_cons
    exact List.ne_nil_of_length_pos (Nat.lt_of_lt_of_le (Nat.succ_pos _) hlength)
  have hspan := numberSpan_append (span ++ rest)
  exact (longest_numberSpan hne hspan).eq_of_append h hspan

/-- The word that starts with a character is the longest. -/
theorem longest_word (hstart : startsWord c = true)
    (hspan : cs.takeWhile continuesWord ++ rest = cs) :
    Longest IsWord (c :: cs.takeWhile continuesWord) rest := by
  refine ⟨.mk hstart fun _ => List.mem_takeWhile_imp, fun other hfront hother => ?_⟩
  rw [List.cons_append, hspan] at hfront
  cases hother with
  | mk _ hw =>
    obtain ⟨rfl, htail⟩ := List.cons_prefix_cons.1 hfront
    exact Nat.succ_le_succ (prefix_takeWhile htail hw).length_le

theorem endsWord_of_longest (h : Longest IsWord span rest) : EndsWord rest := by
  cases rest with
  | nil => exact endsWord_nil
  | cons d rest =>
    rw [endsWord_cons, ← Bool.not_eq_true]
    intro hd
    obtain ⟨hword, hlongest⟩ := h
    obtain ⟨hstart, hw⟩ := hword
    have hlonger := IsWord.mk hstart (List.forall_mem_append.2 ⟨hw, List.forall_mem_singleton.2 hd⟩)
    have hlength := hlongest _ ⟨rest, by simp⟩ hlonger
    simp only [List.length_cons, List.length_append, List.length_nil] at hlength
    omega

theorem isOperator_of_operator? {op : Comparison} (h : operator? cs = some (op, span)) :
    IsOperator op span := by
  unfold operator? at h
  split at h
  case h_8 => cases h
  all_goals
    cases h
    first
      | exact .unequal
      | exact .symbol

/-- No operator in front is longer. The short ones are no longer than what is not empty. -/
theorem length_le_of_operator? {op op' : Comparison} (hother : IsOperator op' other)
    (hfront : other <+: cs) (h : operator? cs = some (op, span)) :
    other.length ≤ span.length := by
  have hpos : 0 < span.length := List.length_pos_iff.2 (operator?_append h).2
  obtain ⟨t, rfl⟩ := hfront
  cases hother with
  | unequal =>
    cases h
    exact Nat.le_refl _
  | symbol =>
    cases op' with
    | eq | gt | lt => exact hpos
    | ne | ge | le =>
      cases h
      exact Nat.le_refl _

theorem longest_operator {op : Comparison} (h : operator? cs = some (op, span))
    (hspan : span ++ rest = cs) :
    Longest (fun other => ∃ op, IsOperator op other) span rest := by
  refine ⟨⟨op, isOperator_of_operator? h⟩, fun other hfront hother => ?_⟩
  obtain ⟨op', hother⟩ := hother
  rw [hspan] at hfront
  exact length_le_of_operator? hother hfront h

theorem IsOperator.operator?_eq {op : Comparison} (h : IsOperator op span) :
    operator? span = some (op, span) := by
  cases h with
  | unequal => rfl
  | symbol => cases op <;> rfl

/-- Some operator is read where one stands in front, although it may be a longer one. -/
theorem exists_operator? {op : Comparison} (h : IsOperator op span) (rest : List Char) :
    ∃ op' span', operator? (span ++ rest) = some (op', span') := by
  cases h with
  | unequal => exact ⟨_, _, rfl⟩
  | symbol =>
    cases op with
    | eq | ne | ge | le => exact ⟨_, _, rfl⟩
    | gt | lt =>
      cases heq : operator? (_ ++ rest) with
      | none =>
        unfold operator? at heq
        split at heq <;> simp_all [Comparison.symbol]
      | some r => exact ⟨_, _, rfl⟩

theorem operator?_of_longest {op : Comparison} (hop : IsOperator op span)
    (h : Longest (fun other => ∃ op, IsOperator op other) span rest) :
    operator? (span ++ rest) = some (op, span) := by
  obtain ⟨op', span', hoperator⟩ := exists_operator? hop rest
  have hspan := (operator?_append hoperator).1
  obtain rfl := (longest_operator hoperator hspan).eq_of_append h hspan
  have hsame := (isOperator_of_operator? hoperator).operator?_eq
  rw [hop.operator?_eq] at hsame
  cases hsame
  exact hoperator

theorem escapes_of_quoted? {r} (h : quoted? cs = some r) :
    ∃ body, r.2.1.1 = body ++ ['\''] ∧ Escapes body r.1 := by
  fun_induction quoted? cs with
  | case1 => cases h
  | case2 =>
    cases h
    exact ⟨[], rfl, .nil⟩
  | case3 c rest ih =>
    obtain ⟨r', hr', rfl⟩ := Option.map_eq_some_iff.1 h
    obtain ⟨body, hbody, hescapes⟩ := ih hr'
    exact ⟨'\\' :: c :: body, by simp [hbody], .escaped hescapes⟩
  | case4 c rest hquote hescape ih =>
    obtain ⟨r', hr', rfl⟩ := Option.map_eq_some_iff.1 h
    obtain ⟨body, hbody, hescapes⟩ := ih hr'
    have hplain : c ≠ '\\' := by
      rintro rfl
      cases rest with
      | nil => cases hr'
      | cons d rest => exact hescape d rest rfl rfl
    exact ⟨c :: body, by simp [hbody], .plain hquote hplain hescapes⟩

section blanks

variable {more : List Char}

theorem IsDecimal.isBlank_eq_false (h : IsDecimal cs) : ∀ d ∈ cs, Text.isBlank d = false := by
  have hdigits {ds : List Char} (hds : AreDigits ds) : ∀ d ∈ ds, Text.isBlank d = false :=
    fun d hd => isBlank_of_isDigit (hds.2 d hd)
  cases h with
  | whole hds => exact hdigits hds
  | fraction hds hfs =>
    exact List.forall_mem_append.2 ⟨hdigits hds, List.forall_mem_cons.2 ⟨by decide, hdigits hfs⟩⟩

theorem IsNumber.isBlank_eq_false (h : IsNumber cs) : ∀ d ∈ cs, Text.isBlank d = false := by
  cases h with
  | unsigned hcs => exact hcs.isBlank_eq_false
  | negative hcs => exact List.forall_mem_cons.2 ⟨by decide, hcs.isBlank_eq_false⟩

theorem IsWord.isBlank_eq_false (h : IsWord cs) : ∀ d ∈ cs, Text.isBlank d = false := by
  obtain ⟨hstart, hw⟩ := h
  exact List.forall_mem_cons.2
    ⟨isBlank_of_startsWord hstart, fun d hd => isBlank_of_continuesWord (hw d hd)⟩

theorem IsOperator.isBlank_eq_false {op : Comparison} (h : IsOperator op cs) :
    ∀ d ∈ cs, Text.isBlank d = false := by
  cases h with
  | unequal => simp [isBlank_of_ascii]
  | symbol => cases op <;> simp [Comparison.symbol, isBlank_of_ascii]

/-- What is the longest lexeme of a class without blanks stays so when a blank follows the text. -/
theorem Longest.append {P : List Char → Prop} (hP : ∀ cs, P cs → ∀ d ∈ cs, Text.isBlank d = false)
    (h : Longest P span rest) (hmore : ∀ d ∈ more.head?, Text.isBlank d = true) :
    Longest P span (rest ++ more) := by
  refine ⟨h.1, fun other hfront hother => ?_⟩
  rw [← List.append_assoc] at hfront
  obtain ⟨t, ht⟩ := hfront
  obtain ⟨s, hs, _⟩ | ⟨s, rfl, hs⟩ := List.append_eq_append_iff.1 ht
  · exact h.2 other ⟨s, hs.symm⟩ hother
  · cases s with
    | nil => exact h.2 _ (by simp) hother
    | cons d s =>
      have hblank : Text.isBlank d = true := hmore d (by simp [hs])
      simp [hP _ hother d (by simp)] at hblank

end blanks

end SearchSql.Lexeme
