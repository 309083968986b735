import Mathlib.Data.List.Forall2
import Mathlib.Data.List.TakeWhile
import SearchSql.Decimal.Read
import SearchSql.Statement.Basic

/-!
What the grammar says of single tokens beyond their kinds: how functions and numbers are spelled,
and what a comparison becomes with its operands in the other order. The parser's own tables and
readers agree with it.
-/

namespace SearchSql.Grammar

/-- What a comparison becomes when its operands change places. -/
inductive Turned : Comparison → Comparison → Prop
  | equal : Turned .eq .eq
  | unequal : Turned .ne .ne
  | greater : Turned .gt .lt
  | atLeast : Turned .ge .le
  | less : Turned .lt .gt
  | atMost : Turned .le .ge

theorem turned_iff {op turned : Comparison} : Turned op turned ↔ op.flip = turned := by
  constructor
  · intro h
    cases h <;> rfl
  · rintro rfl
    cases op <;> constructor

/-- A word of capital letters, with each letter large or small. -/
def InAnyCase (word name : String) : Prop :=
  List.Forall₂ (fun letter c => c = letter ∨ c = letter.toLower) word.toList name.toList

/-- `FUNC`: the name of a function. -/
inductive FunctionName : String → Metric → Prop
  | count {name} : InAnyCase "COUNT" name → FunctionName name .count
  | sum {name} : InAnyCase "SUM" name → FunctionName name .sum
  | avg {name} : InAnyCase "AVG" name → FunctionName name .avg
  | min {name} : InAnyCase "MIN" name → FunctionName name .min
  | max {name} : InAnyCase "MAX" name → FunctionName name .max

theorem toUpper_eq_iff {letter c : Char} (h : 'A' ≤ letter ∧ letter ≤ 'Z') :
    c.toUpper = letter ↔ c = letter ∨ c = letter.toLower := by
  have hletter : 65 ≤ letter.val.toNat ∧ letter.val.toNat ≤ 90 := by
    simpa [Char.le_def, UInt32.le_iff_toNat_le] using h
  have hc := c.val.toNat_lt
  unfold Char.toUpper Char.toLower
  simp only [apply_dite, Char.ext_iff, ge_iff_le, UInt32.le_iff_toNat_le, ← UInt32.toNat_inj,
    UInt32.toNat_add, UInt32.reduceSub, UInt32.reduceToNat, Char.reduceVal]
  split <;> split <;> omega

theorem inAnyCase_iff {word name : String}
    (h : ∀ letter ∈ word.toList, 'A' ≤ letter ∧ letter ≤ 'Z') :
    InAnyCase word name ↔ name.map Char.toUpper = word := by
  rw [InAnyCase, ← String.toList_inj, String.toList_map]
  generalize word.toList = letters at h
  generalize name.toList = cs
  induction letters generalizing cs with
  | nil => cases cs <;> simp
  | cons letter letters ih =>
    obtain ⟨hletter, hletters⟩ := List.forall_mem_cons.1 h
    cases cs with
    | nil => simp
    | cons c cs => simp [toUpper_eq_iff hletter, ih hletters]

theorem functionName_iff_toUpper {name : String} {metric : Metric} :
    FunctionName name metric ↔ name.map Char.toUpper = metric.name := by
  have hcapital : ∀ letter ∈ metric.name.toList, 'A' ≤ letter ∧ letter ≤ 'Z' := by
    cases metric <;> simp [Metric.name]
  rw [← inAnyCase_iff hcapital]
  constructor
  · intro h
    cases h <;> assumption
  · intro h
    cases metric <;> constructor <;> exact h

/-- The parser looks functions up by their names in capital letters. -/
theorem functionName_iff {name : String} {metric : Metric} :
    FunctionName name metric ↔ Metric.ofName? name = some metric := by
  rw [functionName_iff_toUpper, Metric.ofName?]
  constructor
  · intro h
    rw [h]
    cases metric <;> rfl
  · intro h
    have hfound := List.find?_some h
    exact (eq_of_beq hfound).symm

theorem FunctionName.unique {name : String} {metric other : Metric}
    (h : FunctionName name metric) (h' : FunctionName name other) : metric = other :=
  Option.some.inj ((functionName_iff.1 h).symm.trans (functionName_iff.1 h'))

/-- A run of digits, and the number it stands for. -/
inductive Digits : List Char → Nat → Prop
  | mk {cs} : cs ≠ [] → (∀ c ∈ cs, c.isDigit = true) → Digits cs (Nat.ofDigitChars 10 cs 0)

/-- What may stand in front of a number, and whether it is a minus sign. -/
inductive Sign : List Char → Bool → Prop
  | none : Sign [] false
  | plus : Sign ['+'] false
  | minus : Sign ['-'] true

/-- A whole number. -/
inductive Integer : List Char → Int → Prop
  | mk {sign negative ds n} : Sign sign negative → Digits ds n →
      Integer (sign ++ ds) (if negative then -(n : Int) else n)

/-- A count, which is a whole number without a minus sign. -/
inductive Natural : List Char → Nat → Prop
  | mk {sign ds n} : Sign sign false → Digits ds n → Natural (sign ++ ds) n

/-- What may stand behind the digits of a decimal, and the exponent it gives. -/
inductive Exponent : List Char → Int → Prop
  | none : Exponent [] 0
  | some {c cs e} : c = 'e' ∨ c = 'E' → Integer cs e → Exponent (c :: cs) e

/-- A decimal: digits with a point in front, behind or among them. It stands for the double nearest
to its value. -/
inductive Fractional : List Char → Double → Prop
  | mk {sign negative whole places tail n e} : Sign sign negative → Digits (whole ++ places) n →
      Exponent tail e → Fractional (sign ++ (whole ++ '.' :: (places ++ tail)))
        (.ofDecimal negative n (e - places.length))

section numbers

variable {cs ds sign rest : List Char} {c : Char} {n : Nat} {negative : Bool}

theorem digits_iff : Digits cs n ↔ Decimal.natural? cs = some n := by
  rw [Decimal.natural?]
  constructor
  · rintro ⟨hne, hdigits⟩
    rw [if_pos ⟨hne, List.all_eq_true.2 hdigits⟩]
  · intro h
    split at h
    · next hdigits =>
      cases h
      exact ⟨hdigits.1, List.all_eq_true.1 hdigits.2⟩
    · cases h

theorem Digits.isDigit (h : Digits cs n) : ∀ c ∈ cs, c.isDigit = true := by
  obtain ⟨_, hdigits⟩ := h
  exact hdigits

theorem Digits.eq_cons (h : Digits cs n) : ∃ c ds, cs = c :: ds ∧ c.isDigit = true := by
  obtain ⟨hne, hdigits⟩ := h
  obtain ⟨c, ds, rfl⟩ := List.exists_cons_of_ne_nil hne
  exact ⟨c, ds, rfl, hdigits c List.mem_cons_self⟩

/-- A sign is taken off what starts with no other one. -/
theorem Sign.splitSign_append (h : Sign sign negative)
    (hcs : ∀ c ∈ cs.head?, c.isDigit = true ∨ c = '.') :
    Decimal.splitSign (sign ++ cs) = (negative, cs) := by
  cases h with
  | none =>
    rw [List.nil_append, Decimal.splitSign]
    · rintro cs rfl
      simpa using hcs '-' rfl
    · rintro cs rfl
      simpa using hcs '+' rfl
  | plus | minus => rfl

theorem Sign.point_not_mem (h : Sign sign negative) : '.' ∉ sign := by
  cases h <;> simp

theorem exists_sign (cs : List Char) : ∃ sign, Sign sign (Decimal.splitSign cs).1 ∧
    cs = sign ++ (Decimal.splitSign cs).2 := by
  unfold Decimal.splitSign
  split
  · exact ⟨_, .minus, rfl⟩
  · exact ⟨_, .plus, rfl⟩
  · exact ⟨_, .none, rfl⟩

theorem integer_iff {n : Int} : Integer cs n ↔ Decimal.integer? cs = some n := by
  constructor
  · rintro ⟨hsign, hdigits⟩
    rw [Decimal.integer?, hsign.splitSign_append fun c hc =>
      .inl (hdigits.isDigit c (List.mem_of_mem_head? hc))]
    simp only [digits_iff.1 hdigits, Option.map_some]
    rfl
  · intro h
    rw [Decimal.integer?] at h
    obtain ⟨sign, hsign, hcs⟩ := exists_sign cs
    generalize Decimal.splitSign cs = split at h hsign hcs
    obtain ⟨m, hm, rfl⟩ := Option.map_eq_some_iff.1 h
    subst hcs
    exact .mk hsign (digits_iff.2 hm)

theorem natural_iff {s : String} :
    Natural s.toList n ∧ n < 0x10000000000000000 ↔ Decimal.uint64? s = some n := by
  simp only [Decimal.uint64?, Option.filter_eq_some_iff, fitsUint64_iff, ← digits_iff,
    and_congr_left_iff]
  intro _
  generalize s.toList = cs
  constructor
  · rintro ⟨hsign, hdigits⟩
    cases hsign with
    | none =>
      obtain ⟨c, ds, rfl, hc⟩ := hdigits.eq_cons
      split
      · next heq =>
        cases heq
        simp at hc
      · exact hdigits
    | plus => exact hdigits
  · intro h
    split at h
    · exact .mk .plus h
    · exact .mk .none h

theorem exponent_iff {e : Int} : Exponent cs e ↔ Decimal.exponent? cs = some e := by
  constructor
  · intro h
    cases h with
    | none => rfl
    | some hc he => rw [Decimal.exponent?, if_pos hc, integer_iff.1 he]
  · intro h
    cases cs with
    | nil =>
      cases h
      exact .none
    | cons c cs =>
      rw [Decimal.exponent?] at h
      split at h
      · next hc => exact .some hc (integer_iff.2 h)
      · cases h

theorem Digits.point_not_mem (h : Digits cs n) : '.' ∉ cs := by
  intro hmem
  have hpoint := h.isDigit '.' hmem
  simp at hpoint

theorem Integer.point_not_mem {n : Int} (h : Integer cs n) : '.' ∉ cs := by
  obtain ⟨hsign, hdigits⟩ := h
  rw [List.mem_append]
  rintro (hmem | hmem)
  · exact hsign.point_not_mem hmem
  · exact hdigits.point_not_mem hmem

theorem Exponent.point_not_mem {e : Int} (h : Exponent cs e) : '.' ∉ cs := by
  cases h with
  | none => exact List.not_mem_nil
  | some hc he =>
    have hinteger := he.point_not_mem
    rcases hc with rfl | rfl <;> simpa using hinteger

/-- The digits in front of an exponent end there. -/
theorem Exponent.takeWhile_append {e : Int} (h : Exponent rest e)
    (hds : ∀ c ∈ ds, c.isDigit = true) :
    (ds ++ rest).takeWhile Char.isDigit = ds ∧ (ds ++ rest).dropWhile Char.isDigit = rest := by
  rw [List.takeWhile_append_of_pos hds, List.dropWhile_append_of_pos hds]
  cases h with
  | none => simp
  | some hc _ => rcases hc with rfl | rfl <;> simp

theorem Fractional.point_mem {x : Double} (h : Fractional cs x) : '.' ∈ cs := by
  cases h
  simp

theorem unsigned?_eq {whole places : List Char} {e : Int} (hdigits : Digits (whole ++ places) n)
    (he : Exponent rest e) : Decimal.unsigned? negative (whole ++ '.' :: (places ++ rest)) =
      some (.ofDecimal negative n (e - places.length)) := by
  have hne : ¬ (whole = [] ∧ places = []) := by
    rintro ⟨rfl, rfl⟩
    obtain ⟨c, ds, hnil, _⟩ := hdigits.eq_cons
    cases hnil
  obtain ⟨hwhole, hplaces⟩ := List.forall_mem_append.1 hdigits.isDigit
  obtain ⟨htake, hdrop⟩ := he.takeWhile_append hplaces
  have hn : Nat.ofDigitChars 10 (whole ++ places) 0 = n := by
    cases hdigits
    rfl
  simp only [Decimal.unsigned?, List.takeWhile_append_of_pos hwhole,
    List.dropWhile_append_of_pos hwhole]
  simp [htake, hdrop, hne, exponent_iff.1 he, hn]

theorem exists_of_unsigned? {x : Double} (h : Decimal.unsigned? negative cs = some x)
    (hpoint : '.' ∈ cs) : ∃ whole places tail n e, cs = whole ++ '.' :: (places ++ tail) ∧
      Digits (whole ++ places) n ∧ Exponent tail e ∧
      x = .ofDecimal negative n (e - places.length) := by
  have hcs := List.takeWhile_append_dropWhile (p := Char.isDigit) (l := cs)
  have hwhole : ∀ c ∈ cs.takeWhile Char.isDigit, c.isDigit = true :=
    fun _ => List.mem_takeWhile_imp
  unfold Decimal.unsigned? at h
  generalize cs.takeWhile Char.isDigit = whole at h hcs hwhole
  generalize cs.dropWhile Char.isDigit = behind at h hcs
  subst hcs
  dsimp only at h
  split at h <;> dsimp only at h <;> split at h
  · cases h
  · next rest hne =>
    obtain ⟨e, he, rfl⟩ := Option.map_eq_some_iff.1 h
    refine ⟨whole, rest.takeWhile Char.isDigit, rest.dropWhile Char.isDigit, _, e, ?_, .mk ?_ ?_,
      exponent_iff.2 he, rfl⟩
    · rw [List.takeWhile_append_dropWhile]
    · simpa using hne
    · exact List.forall_mem_append.2 ⟨hwhole, fun _ => List.mem_takeWhile_imp⟩
  · cases h
  · obtain ⟨e, he, _⟩ := Option.map_eq_some_iff.1 h
    rcases List.mem_append.1 hpoint with hmem | hmem
    · simpa using hwhole '.' hmem
    · exact ((exponent_iff.2 he).point_not_mem hmem).elim

theorem fractional_iff {s : String} {x : Double} :
    Fractional s.toList x ↔ '.' ∈ s.toList ∧ Decimal.double? s = some x := by
  rw [Decimal.double?]
  generalize s.toList = cs
  constructor
  · intro h
    refine ⟨h.point_mem, ?_⟩
    cases h with
    | @mk sign negative whole places tail n e hsign hdigits he =>
      have hfront : ∀ c ∈ (whole ++ '.' :: (places ++ tail)).head?, c.isDigit = true ∨ c = '.' := by
        cases whole with
        | nil => simp
        | cons c whole => simpa using .inl (hdigits.isDigit c List.mem_cons_self)
      rw [hsign.splitSign_append hfront]
      exact unsigned?_eq hdigits he
  · rintro ⟨hpoint, h⟩
    obtain ⟨sign, hsign, hcs⟩ := exists_sign cs
    generalize Decimal.splitSign cs = split at h hsign hcs
    subst hcs
    have hbehind : '.' ∈ split.2 := by
      rcases List.mem_append.1 hpoint with hmem | hmem
      · exact (hsign.point_not_mem hmem).elim
      · exact hmem
    obtain ⟨whole, places, tail, n, e, hcs, hdigits, he, rfl⟩ := exists_of_unsigned? h hbehind
    rw [hcs]
    exact .mk hsign hdigits he

end numbers

end SearchSql.Grammar
