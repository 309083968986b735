import Mathlib
import SearchSql.Decimal.Shortest
import SearchSql.Proofs.Decimals.Rounding

/-!
The fewest digits of a double. They exist for every finite double but zero, they are read as the
double again, and they have places behind the point exactly when the double is not whole.
-/

namespace SearchSql

namespace Decimal

variable {i : Interval} {tie : Tie} {s : Int} {p : Point} {q : ℚ}

def Point.value (p : Point) : ℚ := p.digits * 10 ^ p.scale

namespace Interval

/-- A fraction lies in the interval. -/
def Holds (i : Interval) (q : ℚ) : Prop :=
  if i.closed then i.low * 2 ^ i.exponent ≤ q ∧ q ≤ i.high * 2 ^ i.exponent
  else i.low * 2 ^ i.exponent < q ∧ q < i.high * 2 ^ i.exponent

theorem Holds.lt (h : i.Holds q) (hopen : i.closed = false) :
    i.low * 2 ^ i.exponent < q ∧ q < i.high * 2 ^ i.exponent := by
  simpa [Holds, hopen] using h

theorem Holds.le (h : i.Holds q) :
    i.low * 2 ^ i.exponent ≤ q ∧ q ≤ i.high * 2 ^ i.exponent := by
  cases hclosed : i.closed with
  | true => simpa [Holds, hclosed] using h
  | false => exact ⟨(h.lt hclosed).1.le, (h.lt hclosed).2.le⟩

theorem Holds.convex {a b : ℚ} (ha : i.Holds a) (hb : i.Holds b) (haq : a ≤ q) (hqb : q ≤ b) :
    i.Holds q := by
  unfold Holds at ha hb ⊢
  split
  · next h =>
    rw [if_pos h] at ha hb
    exact ⟨ha.1.trans haq, hqb.trans hb.2⟩
  · next h =>
    rw [if_neg h] at ha hb
    exact ⟨ha.1.trans_le haq, hqb.trans_lt hb.2⟩

theorem holds_of_lt (hlow : i.low * 2 ^ i.exponent < q) (hhigh : q < i.high * 2 ^ i.exponent) :
    i.Holds q := by
  unfold Holds
  split
  · exact ⟨hlow.le, hhigh.le⟩
  · exact ⟨hlow, hhigh⟩

theorem factors_pos (i : Interval) (s : Int) : 0 < (i.factors s).1 := by
  simp [factors, Nat.shiftLeft_eq]

theorem two_zpow_eq (e : Int) : (2 : ℚ) ^ e * 2 ^ (-e).toNat = 2 ^ e.toNat := by
  rw [← zpow_natCast, ← zpow_natCast, ← zpow_add₀ two_ne_zero]
  congr 1
  omega

theorem ten_zpow_eq (e : Int) : (10 : ℚ) ^ e * 10 ^ (-e).toNat = 10 ^ e.toNat := by
  rw [← zpow_natCast, ← zpow_natCast, ← zpow_add₀ (by norm_num)]
  congr 1
  omega

/-- The factors bring points of the grid and quarters of the unit to one denominator. -/
theorem exists_factor (i : Interval) (s : Int) : ∃ k : ℚ, 0 < k ∧
    ((i.factors s).1 : ℚ) = 10 ^ s * k ∧ ((i.factors s).2 : ℚ) = 2 ^ i.exponent * k := by
  refine ⟨10 ^ (-s).toNat * 2 ^ (-i.exponent).toNat, by positivity, ?_, ?_⟩
  · simp only [factors, Nat.shiftLeft_eq, Nat.pow_eq]
    push_cast
    rw [← mul_assoc, ten_zpow_eq]
  · simp only [factors, Nat.shiftLeft_eq, Nat.pow_eq]
    push_cast
    rw [mul_left_comm, two_zpow_eq]

/-- Points are compared with quarters of the unit after both are scaled. -/
theorem le_factors (i : Interval) (s : Int) (a c : Nat) :
    (a * (i.factors s).2 ≤ c * (i.factors s).1 ↔ (a : ℚ) * 2 ^ i.exponent ≤ c * 10 ^ s) ∧
    (c * (i.factors s).1 ≤ a * (i.factors s).2 ↔ (c : ℚ) * 10 ^ s ≤ a * 2 ^ i.exponent) := by
  obtain ⟨k, hk, hgrid, hunit⟩ := exists_factor i s
  rw [← @Nat.cast_le ℚ, ← @Nat.cast_le ℚ]
  push_cast
  rw [hgrid, hunit, ← mul_assoc, ← mul_assoc]
  exact ⟨mul_le_mul_iff_left₀ hk, mul_le_mul_iff_left₀ hk⟩

/-- The test of a point, as the search makes it. -/
def inside (i : Interval) (s : Int) (c : Nat) : Bool :=
  if i.closed then decide (i.low * (i.factors s).2 ≤ c * (i.factors s).1) &&
    decide (c * (i.factors s).1 ≤ i.high * (i.factors s).2)
  else decide (i.low * (i.factors s).2 < c * (i.factors s).1) &&
    decide (c * (i.factors s).1 < i.high * (i.factors s).2)

theorem inside_iff {c : Nat} : i.inside s c = true ↔ i.Holds (c * 10 ^ s) := by
  obtain ⟨hlow, hlow'⟩ := le_factors i s i.low c
  obtain ⟨hhigh, hhigh'⟩ := le_factors i s i.high c
  unfold inside Holds
  split
  · simp only [Bool.and_eq_true, decide_eq_true_eq, hlow, hhigh']
  · simp only [Bool.and_eq_true, decide_eq_true_eq, ← not_le, hlow', hhigh]

/-- The point below the middle, or on it. -/
def below (i : Interval) (s : Int) : Nat := i.middle * (i.factors s).2 / (i.factors s).1

theorem exists_point? (i : Interval) (tie : Tie) (s : Int) : ∃ upper : Bool, i.point? tie s =
    if i.inside s (i.below s) then
      if i.inside s (i.below s + 1) && upper then some ⟨i.below s + 1, s⟩ else some ⟨i.below s, s⟩
    else if i.inside s (i.below s + 1) then some ⟨i.below s + 1, s⟩ else none :=
  ⟨_, rfl⟩

/-- What is found lies in the interval. -/
theorem point?_eq_some (h : i.point? tie s = some p) : p.scale = s ∧ i.Holds p.value := by
  obtain ⟨upper, hpoint⟩ := exists_point? i tie s
  rw [hpoint] at h
  split at h
  · next hbelow =>
    split at h
    · next habove =>
      cases h
      exact ⟨rfl, inside_iff.1 (Bool.and_eq_true_iff.1 habove).1⟩
    · cases h
      exact ⟨rfl, inside_iff.1 hbelow⟩
  · split at h
    · next habove =>
      cases h
      exact ⟨rfl, inside_iff.1 habove⟩
    · cases h

theorem below_le (i : Interval) (s : Int) :
    (i.below s : ℚ) * 10 ^ s ≤ i.middle * 2 ^ i.exponent := by
  refine ((le_factors i s i.middle (i.below s)).2).1 ?_
  exact Nat.div_mul_le_self _ _

theorem lt_below_add_one (i : Interval) (s : Int) :
    (i.middle : ℚ) * 2 ^ i.exponent < (i.below s + 1 : ℕ) * 10 ^ s := by
  rw [← not_le, ← (le_factors i s i.middle (i.below s + 1)).2, not_le]
  exact Nat.lt_mul_of_div_lt (Nat.lt_succ_self _) (factors_pos i s)

/-- If any point of the grid lies in the interval, one is found: there is none nearer to the middle
than its two neighbours. -/
theorem exists_point?_of_holds {c : Nat} (hmiddle : i.Holds (i.middle * 2 ^ i.exponent))
    (h : i.Holds (c * 10 ^ s)) : ∃ p, i.point? tie s = some p := by
  have hneighbour : i.inside s (i.below s) = true ∨ i.inside s (i.below s + 1) = true := by
    have hten : (0 : ℚ) ≤ 10 ^ s := by positivity
    obtain hc | hc := Nat.lt_or_ge (i.below s) c
    · have hle : ((i.below s + 1 : ℕ) : ℚ) ≤ c := by exact_mod_cast hc
      refine .inr (inside_iff.2 (hmiddle.convex h (lt_below_add_one i s).le ?_))
      exact mul_le_mul_of_nonneg_right hle hten
    · have hle : (c : ℚ) ≤ i.below s := by exact_mod_cast hc
      refine .inl (inside_iff.2 (h.convex hmiddle ?_ (below_le i s)))
      exact mul_le_mul_of_nonneg_right hle hten
  obtain ⟨upper, hpoint⟩ := exists_point? i tie s
  rw [hpoint]
  split
  · split <;> exact ⟨_, rfl⟩
  · next hbelow =>
    rw [if_pos (hneighbour.resolve_left hbelow)]
    exact ⟨_, rfl⟩

end Interval

/-! The interval of a double. -/

section around

variable {x : Double}

theorem exponent_around (x : Double) : (Interval.around x).exponent = x.exponent - 2 := rfl

/-- A quarter of the unit. -/
theorem quarter_eq (x : Double) : (2 : ℚ) ^ (x.exponent - 2) = 2 ^ x.exponent / 4 := by
  rw [zpow_sub₀ two_ne_zero]
  norm_num

/-- How far the interval reaches below the double. -/
theorem low_around (hzero : x.rank ≠ 0) :
    4 * x.significand ≤ (Interval.around x).low + 2 ∧
      (Interval.around x).low < 4 * x.significand ∧
      (x.significand = leadingBit → x.exponent ≠ -1074 →
        4 * x.significand ≤ (Interval.around x).low + 1) := by
  have hpos := Double.significand_pos hzero
  have hge := x.exponent_ge
  have hrank := x.rank_eq
  simp only [Interval.around, Double.leadingBit_eq] at hrank ⊢
  split
  · omega
  · next hwide =>
    simp only [Bool.and_eq_true, beq_iff_eq, decide_eq_true_eq, not_and] at hwide
    refine ⟨by omega, by omega, fun hpower hnormal => ?_⟩
    exact (hwide hpower (by omega)).elim

theorem holds_middle (hzero : x.rank ≠ 0) : (Interval.around x).Holds
    ((Interval.around x).middle * 2 ^ (Interval.around x).exponent) := by
  have hlow : (((Interval.around x).low : ℕ) : ℚ) < (Interval.around x).middle := by
    exact_mod_cast (low_around hzero).2.1
  have hhigh : (((Interval.around x).middle : ℕ) : ℚ) < (Interval.around x).high := by
    exact_mod_cast (show 4 * x.significand < 4 * x.significand + 2 by omega)
  apply Interval.holds_of_lt <;> gcongr

/-- What lies in the interval of a double is near enough to round to it. -/
theorem near_of_holds (hzero : x.rank ≠ 0) (h : (Interval.around x).Holds q) :
    x.Near (q / 2 ^ x.exponent) := by
  obtain ⟨hlow, _, hnarrow⟩ := low_around hzero
  have hlow : 4 * (x.significand : ℚ) ≤ (Interval.around x).low + 2 := by exact_mod_cast hlow
  have hhigh : ((Interval.around x).high : ℚ) = 4 * x.significand + 2 := by
    exact_mod_cast (rfl : (Interval.around x).high = 4 * x.significand + 2)
  have hquarter : (0 : ℚ) < 2 ^ (x.exponent - 2) := by positivity
  have hq : q = 4 * (q / 2 ^ x.exponent) * 2 ^ (x.exponent - 2) := by
    rw [quarter_eq]
    field_simp
  obtain ⟨hle, hge⟩ := h.le
  have hlt := h.lt
  rw [exponent_around, hq, mul_le_mul_iff_left₀ hquarter] at hle hge
  rw [exponent_around, hq, mul_lt_mul_iff_left₀ hquarter, mul_lt_mul_iff_left₀ hquarter] at hlt
  generalize q / 2 ^ x.exponent = y at hle hge hlt ⊢
  refine ⟨by linarith, by linarith, fun htie => ?_, fun hpower hnormal => ?_⟩
  · by_contra hodd
    obtain ⟨hlt, hgt⟩ := hlt (by simpa [Interval.around] using hodd)
    obtain htie | htie := htie <;> linarith
  · have hnarrow : 4 * (x.significand : ℚ) ≤ (Interval.around x).low + 1 := by
      exact_mod_cast hnarrow hpower hnormal
    linarith

/-- The finest grid is finer than the interval of any double. -/
theorem exists_point?_finest (hzero : x.rank ≠ 0) :
    ∃ p, (Interval.around x).point? tie (-324) = some p := by
  have hpowers : 2 ^ 1075 < 10 ^ 324 := by decide +kernel
  have hfine : (10 : ℚ) ^ (-324 : ℤ) < 2 * 2 ^ (Interval.around x).exponent := by
    calc (10 : ℚ) ^ (-324 : ℤ) = (10 ^ 324)⁻¹ := by rw [zpow_neg, zpow_ofNat]
      _ < (2 ^ 1075)⁻¹ := inv_strictAnti₀ (by positivity) (by exact_mod_cast hpowers)
      _ = 2 ^ (-1075 : ℤ) := by rw [zpow_neg, zpow_ofNat]
      _ ≤ 2 ^ (1 + (Interval.around x).exponent) := by
        have hge := x.exponent_ge
        exact zpow_le_zpow_right₀ one_le_two (by rw [exponent_around]; omega)
      _ = 2 * 2 ^ (Interval.around x).exponent := zpow_one_add₀ two_ne_zero _
  have hlow : ((Interval.around x).low : ℚ) < (Interval.around x).middle := by
    exact_mod_cast (low_around hzero).2.1
  have hhigh : ((Interval.around x).high : ℚ) = (Interval.around x).middle + 2 := by
    exact_mod_cast (rfl : (Interval.around x).high = (Interval.around x).middle + 2)
  have hunit : (0 : ℚ) < 2 ^ (Interval.around x).exponent := by positivity
  have hbelow := Interval.below_le (Interval.around x) (-324)
  have habove := Interval.lt_below_add_one (Interval.around x) (-324)
  have hholds : (Interval.around x).Holds
      (((Interval.around x).below (-324) + 1 : ℕ) * 10 ^ (-324 : ℤ)) := by
    refine Interval.holds_of_lt ((mul_lt_mul_of_pos_right hlow hunit).trans habove) ?_
    rw [hhigh, Nat.cast_add, Nat.cast_one, add_mul, add_mul, one_mul]
    exact add_lt_add_of_le_of_lt hbelow hfine
  exact Interval.exists_point?_of_holds (holds_middle hzero) hholds

end around

theorem mem_scales : s ∈ scales ↔ -324 ≤ s ∧ s ≤ 309 := by
  simp only [scales, List.mem_map, List.mem_range, Int.ofNat_eq_natCast]
  constructor
  · rintro ⟨n, hn, rfl⟩
    omega
  · rintro ⟨hlow, hhigh⟩
    exact ⟨(309 - s).toNat, by omega, by omega⟩

theorem scales_descending : scales.Pairwise (· > ·) := by
  refine List.pairwise_map.2 (List.pairwise_lt_range.imp fun hlt => ?_)
  simp only [Int.ofNat_eq_natCast, gt_iff_lt]
  omega

variable {x : Double}

/-- What is found is in the interval of the double, and no coarser grid has a point there. -/
theorem shortest?_eq_some (h : shortest? tie x = some p) :
    x.rank ≠ 0 ∧ x.isFinite = true ∧ p.scale ∈ scales ∧ (Interval.around x).Holds p.value ∧
      ∀ s, p.scale < s → s ≤ 309 → (Interval.around x).point? tie s = none := by
  unfold shortest? at h
  split at h
  · cases h
  · next hregular =>
    simp only [Bool.or_eq_true, decide_eq_true_eq, Bool.not_eq_true', not_or,
      Bool.not_eq_false] at hregular
    obtain ⟨coarser, a, finer, hscales, hpoint, hnone⟩ := List.findSome?_eq_some_iff.1 h
    obtain ⟨rfl, hholds⟩ := Interval.point?_eq_some hpoint
    have hmem : p.scale ∈ scales := hscales ▸ List.mem_append_right _ List.mem_cons_self
    refine ⟨hregular.1, hregular.2, hmem, hholds, fun s hlt hle => hnone s ?_⟩
    have hs : s ∈ coarser ++ p.scale :: finer := by
      rw [← hscales, mem_scales]
      have hleast := (mem_scales.1 hmem).1
      omega
    have hdescending := scales_descending
    rw [hscales, List.pairwise_append] at hdescending
    obtain hs | hs := List.mem_append.1 hs
    · exact hs
    · obtain rfl | hs := List.mem_cons.1 hs
      · omega
      · have hgt := (List.pairwise_cons.1 hdescending.2.1).1 s hs
        omega

/-- Every finite double but zero has fewest digits. -/
theorem exists_shortest? (hzero : x.rank ≠ 0) (hx : x.isFinite = true) :
    ∃ p, shortest? tie x = some p := by
  have hregular : (decide (x.rank = 0) || !x.isFinite) = false := by simp [hzero, hx]
  obtain ⟨p, hp⟩ : ∃ p, (Interval.around x).point? tie (-324) = some p :=
    exists_point?_finest hzero
  unfold shortest?
  rw [hregular, if_neg Bool.false_ne_true, ← Option.isSome_iff_exists, List.findSome?_isSome_iff]
  exact ⟨-324, mem_scales.2 (by decide), Option.isSome_iff_exists.2 ⟨p, hp⟩⟩

end Decimal

namespace Double

variable {x : Double}

/-- The double has no fraction. -/
def IsWhole (x : Double) : Prop := x.fraction.2 ∣ x.fraction.1

instance (x : Double) : Decidable x.IsWhole := inferInstanceAs (Decidable (_ ∣ _))

theorem isWhole_iff : x.IsWhole ↔ ∃ n : ℕ, (x.significand : ℚ) * 2 ^ x.exponent = n := by
  unfold IsWhole fraction
  split
  · next he =>
    refine iff_of_true (one_dvd _) ⟨x.significand * 2 ^ x.exponent.toNat, ?_⟩
    push_cast
    rw [← zpow_natCast, Int.toNat_of_nonneg he]
  · next he =>
    obtain ⟨k, hk⟩ : ∃ k : ℕ, x.exponent = -k := ⟨(-x.exponent).toNat, by omega⟩
    have hunit : (2 : ℚ) ^ k ≠ 0 := by positivity
    rw [hk, neg_neg, Int.toNat_natCast, Nat.one_shiftLeft, zpow_neg, zpow_natCast]
    constructor
    · rintro ⟨n, hn⟩
      have hm : (x.significand : ℚ) = 2 ^ k * n := by exact_mod_cast hn
      exact ⟨n, by rw [hm, mul_comm, inv_mul_cancel_left₀ hunit]⟩
    · rintro ⟨n, hn⟩
      rw [← div_eq_mul_inv, div_eq_iff hunit, mul_comm] at hn
      exact ⟨n, by exact_mod_cast hn⟩

theorem isWhole_of_rank_eq_zero (h : x.rank = 0) : x.IsWhole := by
  have hsignificand : x.significand = 0 := by
    rw [significand, h]
    rfl
  refine isWhole_iff.2 ⟨0, ?_⟩
  rw [hsignificand, Nat.cast_zero, zero_mul]

/-- In units of a double whole numbers are whole, so that no other one is near enough. -/
theorem isWhole_of_near {n : ℕ} (h : x.Near (n / 2 ^ x.exponent)) : x.IsWhole := by
  rw [isWhole_iff]
  obtain he | he := le_or_gt 0 x.exponent
  · refine ⟨x.significand * 2 ^ x.exponent.toNat, ?_⟩
    push_cast
    rw [← zpow_natCast, Int.toNat_of_nonneg he]
  · obtain ⟨k, hk⟩ : ∃ k : ℕ, x.exponent = -k := ⟨(-x.exponent).toNat, by omega⟩
    have hunits : (n : ℚ) / 2 ^ x.exponent = (n * 2 ^ k : ℕ) := by
      rw [hk, zpow_neg, zpow_natCast, div_inv_eq_mul]
      push_cast
      rfl
    have hlow := h.low
    have hhigh := h.high
    rw [hunits] at hlow hhigh
    have hlow' : (x.significand : ℚ) < (n * 2 ^ k + 1 : ℕ) := by
      push_cast at hlow ⊢
      linarith
    have hhigh' : ((n * 2 ^ k : ℕ) : ℚ) < (x.significand + 1 : ℕ) := by
      push_cast at hhigh ⊢
      linarith
    have hm : x.significand = n * 2 ^ k :=
      Nat.le_antisymm (Nat.lt_succ_iff.1 (by exact_mod_cast hlow'))
        (Nat.lt_succ_iff.1 (by exact_mod_cast hhigh'))
    refine ⟨n, ?_⟩
    rw [hm, ← hunits, div_mul_cancel₀ _ (by positivity)]

end Double

namespace Decimal

variable {tie : Tie} {p : Point} {x : Double}

theorem near_of_shortest? (h : shortest? tie x = some p) :
    x.Near (p.value / 2 ^ x.exponent) := by
  obtain ⟨hzero, _, _, hholds, _⟩ := shortest?_eq_some h
  exact near_of_holds hzero hholds

theorem Point.exists_value_eq (h : 0 ≤ p.scale) : ∃ n : ℕ, p.value = n := by
  refine ⟨p.digits * 10 ^ p.scale.toNat, ?_⟩
  push_cast
  rw [value, ← zpow_natCast, Int.toNat_of_nonneg h]

/-- The middle of the interval of a whole double is a point of the grid of whole numbers. -/
theorem exists_point?_of_isWhole (hzero : x.rank ≠ 0) (h : x.IsWhole) :
    ∃ p, (Interval.around x).point? tie 0 = some p := by
  obtain ⟨n, hn⟩ := Double.isWhole_iff.1 h
  have hmiddle := holds_middle hzero
  have hfour : ((Interval.around x).middle : ℚ) = 4 * x.significand := by
    exact_mod_cast (rfl : (Interval.around x).middle = 4 * x.significand)
  have hpoint : (n : ℚ) * 10 ^ (0 : ℤ) =
      (Interval.around x).middle * 2 ^ (Interval.around x).exponent := by
    rw [exponent_around, quarter_eq, hfour, zpow_zero, mul_one, ← hn]
    ring
  exact Interval.exists_point?_of_holds hmiddle (hpoint ▸ hmiddle)

/-- The fewest digits have places behind the point exactly when the double has a fraction. -/
theorem scale_nonneg_iff (h : shortest? tie x = some p) : 0 ≤ p.scale ↔ x.IsWhole := by
  obtain ⟨hzero, _, _, _, hnone⟩ := shortest?_eq_some h
  constructor
  · intro hnonneg
    obtain ⟨n, hn⟩ := Point.exists_value_eq hnonneg
    exact Double.isWhole_of_near (hn ▸ near_of_shortest? h)
  · intro hwhole
    by_contra hneg
    obtain ⟨p', hp'⟩ : ∃ p', (Interval.around x).point? tie 0 = some p' :=
      exists_point?_of_isWhole hzero hwhole
    rw [hnone 0 (by omega) (by decide)] at hp'
    cases hp'

theorem value_lt (hx : x.isFinite = true) (h : x.Near (p.value / 2 ^ x.exponent)) :
    p.value < 10 ^ (400 : ℤ) := by
  have hunit : (0 : ℚ) < 2 ^ x.exponent := by positivity
  have hpowers : 2 ^ 1024 < 10 ^ 400 := by decide +kernel
  have hbits := x.significand_lt
  rw [Double.leadingBit_eq] at hbits
  have hm : (x.significand : ℚ) ≤ 9007199254740991 := by
    exact_mod_cast Nat.le_of_lt_succ hbits
  have hunits : p.value / 2 ^ x.exponent < 2 ^ (53 : ℤ) := by
    norm_num
    linarith [h.high]
  calc p.value < 2 ^ (53 : ℤ) * 2 ^ x.exponent := (div_lt_iff₀ hunit).1 hunits
    _ = 2 ^ (53 + x.exponent) := (zpow_add₀ two_ne_zero _ _).symm
    _ ≤ 2 ^ (1024 : ℤ) := by
      have hle := Double.exponent_le hx
      exact zpow_le_zpow_right₀ one_le_two (by omega)
    _ < 10 ^ (400 : ℤ) := by
      rw [zpow_ofNat, zpow_ofNat]
      exact_mod_cast hpowers

/-- A number below a power of ten has no more digits than that has zeros. -/
theorem length_toDigits_le {n : Nat} {e : Int} (he : 0 < e) (h : (n : ℚ) < 10 ^ e) :
    (Nat.toDigits 10 n).length ≤ e.toNat := by
  rw [Nat.length_toDigits_le_iff (by decide) (by omega)]
  rw [← Int.toNat_of_nonneg he.le, zpow_natCast] at h
  exact_mod_cast h

/-- The fewest digits of a double are read as the double. -/
theorem ofDecimal_shortest (h : shortest? tie x = some p) :
    Double.ofDecimal x.negative p.digits p.scale = x := by
  obtain ⟨hzero, hx, hscale, _, _⟩ := shortest?_eq_some h
  have hnear := near_of_shortest? h
  obtain ⟨hleast, hmost⟩ := mem_scales.1 hscale
  have hunit : (0 : ℚ) < 2 ^ x.exponent := by positivity
  have hten : (0 : ℚ) < 10 ^ p.scale := by positivity
  have hpos : 0 < p.value := (div_pos_iff_of_pos_right hunit).1 (hnear.pos hzero)
  have hdigits : 0 < p.digits := by
    refine Nat.pos_of_ne_zero fun hdigits => hpos.ne' ?_
    rw [Point.value, hdigits, Nat.cast_zero, zero_mul]
  have hlength : 0 < (Nat.toDigits 10 p.digits).length := Nat.length_toDigits_pos
  have hplaces : (Nat.toDigits 10 p.digits).length ≤ (400 - p.scale).toNat := by
    refine length_toDigits_le (by omega) ?_
    rw [zpow_sub₀ (by norm_num), lt_div_iff₀ hten]
    exact value_lt hx hnear
  unfold Double.ofDecimal
  simp only [Int.ofNat_eq_natCast]
  rw [if_neg (by omega), if_neg (by omega)]
  split
  · next hnonneg =>
    have hvalue : ((p.digits * Nat.pow 10 p.scale.toNat : ℕ) : ℚ) / (1 : ℕ) = p.value := by
      rw [Nat.pow_eq, Nat.cast_one, div_one, Nat.cast_mul, Nat.cast_pow, Nat.cast_ofNat,
        Point.value, ← zpow_natCast, Int.toNat_of_nonneg hnonneg]
    refine Double.ofFraction_of_near hx ?_ Nat.one_pos (hvalue ▸ hnear)
    exact Nat.mul_pos hdigits (Nat.pow_pos (by decide))
  · next hnegative =>
    have hvalue : (p.digits : ℚ) / (Nat.pow 10 (-p.scale).toNat : ℕ) = p.value := by
      rw [Nat.pow_eq, Nat.cast_pow, Nat.cast_ofNat, Point.value, ← zpow_natCast,
        Int.toNat_of_nonneg (by omega), zpow_neg, div_inv_eq_mul]
    exact Double.ofFraction_of_near hx hdigits (Nat.pow_pos (by decide)) (hvalue ▸ hnear)

end Decimal

end SearchSql
