import Mathlib
import SearchSql.Double

/-!
Rounding to doubles. A fraction in the interval of a double has this double as the nearest one, also
below a power of two, where the fraction is measured in the finer unit.
-/

namespace SearchSql

/-- A quotient is rounded to a number that is at most a half away, and even in a tie. -/
theorem roundDiv_eq {num den n : Nat} (hden : 0 < den) (hlow : 2 * (n * den) ≤ 2 * num + den)
    (hhigh : 2 * num ≤ 2 * (n * den) + den)
    (htie : 2 * (n * den) = 2 * num + den ∨ 2 * num = 2 * (n * den) + den → n % 2 = 0) :
    roundDiv num den = n := by
  have hdiv := Nat.div_add_mod' num den
  have hmod := Nat.mod_lt num hden
  have hupper : n ≤ num / den + 1 := by
    by_contra hgt
    have hmul := Nat.mul_le_mul_right den (Nat.lt_of_not_le hgt)
    rw [Nat.succ_mul, Nat.succ_mul] at hmul
    omega
  have hlower : num / den ≤ n := by
    by_contra hgt
    have hmul := Nat.mul_le_mul_right den (Nat.lt_of_not_le hgt)
    rw [Nat.succ_mul] at hmul
    omega
  unfold roundDiv
  dsimp only
  generalize num / den = floor at hdiv hupper hlower ⊢
  generalize num % den = rest at hdiv hmod ⊢
  obtain rfl | rfl : n = floor ∨ n = floor + 1 := by omega
  · generalize n * den = product at hdiv hlow hhigh htie
    split
    · rfl
    · split <;> omega
  · rw [Nat.add_one_mul floor den] at hlow hhigh htie
    generalize floor * den = product at hdiv hlow hhigh htie
    split
    · omega
    · split <;> omega

theorem roundDiv_eq_of_near {num den n : Nat} (hden : 0 < den)
    (hlow : (n : ℚ) - 1 / 2 ≤ num / den) (hhigh : (num : ℚ) / den ≤ n + 1 / 2)
    (htie : (n : ℚ) - 1 / 2 = num / den ∨ (num : ℚ) / den = n + 1 / 2 → n % 2 = 0) :
    roundDiv num den = n := by
  have hdenq : (0 : ℚ) < den := by exact_mod_cast hden
  rw [le_div_iff₀ hdenq] at hlow
  rw [div_le_iff₀ hdenq] at hhigh
  rw [eq_div_iff hdenq.ne', div_eq_iff hdenq.ne'] at htie
  have hlow' : 2 * ((n : ℚ) * den) ≤ 2 * num + den := by linarith
  have hhigh' : 2 * (num : ℚ) ≤ 2 * (n * den) + den := by linarith
  refine roundDiv_eq hden (by exact_mod_cast hlow') (by exact_mod_cast hhigh') ?_
  rintro (h | h)
  · have hq : 2 * ((n : ℚ) * den) = 2 * num + den := by exact_mod_cast h
    exact htie (.inl (by linarith))
  · have hq : 2 * (num : ℚ) = 2 * (n * den) + den := by exact_mod_cast h
    exact htie (.inr (by linarith))

namespace Double

variable {num den : Nat}

/-- A fraction in units of a power of two. -/
def scaled (num den : Nat) (e : Int) : Nat × Nat :=
  if 0 ≤ e then (num, den <<< e.toNat) else (num <<< (-e).toNat, den)

/-- The exponent of the unit in which a fraction is rounded. -/
def nearestExponent (num den : Nat) : Int :=
  let estimate : Int := Int.ofNat num.log2 - Int.ofNat den.log2 - 53
  let fraction := scaled num den estimate
  max (-1074)
    (if fraction.1 / fraction.2 < 2 * leadingBit then estimate else estimate + 1)

theorem nearestRank_eq (hnum : num ≠ 0) : nearestRank num den =
    min infiniteRank ((nearestExponent num den + 1074).toNat * leadingBit +
      roundDiv (scaled num den (nearestExponent num den)).1
        (scaled num den (nearestExponent num den)).2) := by
  unfold nearestRank
  exact if_neg hnum

theorem scaled_pos (hden : 0 < den) (e : Int) : 0 < (scaled num den e).2 := by
  unfold scaled
  split
  · exact by simpa [Nat.shiftLeft_eq] using hden
  · exact hden

theorem scaled_eq (e : Int) :
    ((scaled num den e).1 : ℚ) / (scaled num den e).2 = num / den / 2 ^ e := by
  unfold scaled
  split
  · next he =>
    lift e to ℕ using he
    simp only [Int.toNat_natCast, Nat.shiftLeft_eq, zpow_natCast]
    push_cast
    rw [div_div]
  · next he =>
    obtain ⟨k, rfl⟩ : ∃ k : ℕ, e = -k := ⟨(-e).toNat, by omega⟩
    simp only [neg_neg, Int.toNat_natCast, Nat.shiftLeft_eq, zpow_neg, zpow_natCast]
    push_cast
    rw [div_inv_eq_mul, div_mul_eq_mul_div]

theorem log2_bounds {n : Nat} (hn : 0 < n) :
    (2 : ℚ) ^ (n.log2 : ℤ) ≤ n ∧ (n : ℚ) < 2 ^ ((n.log2 : ℤ) + 1) := by
  have hlow : 2 ^ n.log2 ≤ n := Nat.log2_self_le hn.ne'
  have hhigh : n < 2 ^ (n.log2 + 1) := Nat.lt_log2_self
  exact ⟨by exact_mod_cast hlow, by exact_mod_cast hhigh⟩

/-- The logarithms of the two parts of a fraction tell its size up to a factor of two. -/
theorem log2_div_bounds (hnum : 0 < num) (hden : 0 < den) :
    (2 : ℚ) ^ ((num.log2 : ℤ) - den.log2 - 1) ≤ num / den ∧
      (num : ℚ) / den < 2 ^ ((num.log2 : ℤ) - den.log2 + 1) := by
  obtain ⟨hnumlow, hnumhigh⟩ := log2_bounds hnum
  obtain ⟨hdenlow, hdenhigh⟩ := log2_bounds hden
  have hdenq : (0 : ℚ) < den := by exact_mod_cast hden
  constructor
  · rw [le_div_iff₀ hdenq]
    calc (2 : ℚ) ^ ((num.log2 : ℤ) - den.log2 - 1) * den
        ≤ 2 ^ ((num.log2 : ℤ) - den.log2 - 1) * 2 ^ ((den.log2 : ℤ) + 1) := by gcongr
      _ = 2 ^ (num.log2 : ℤ) := by
        rw [← zpow_add₀ two_ne_zero]
        congr 1
        ring
      _ ≤ num := hnumlow
  · rw [div_lt_iff₀ hdenq]
    calc (num : ℚ) < 2 ^ ((num.log2 : ℤ) + 1) := hnumhigh
      _ = 2 ^ ((num.log2 : ℤ) - den.log2 + 1) * 2 ^ (den.log2 : ℤ) := by
        rw [← zpow_add₀ two_ne_zero]
        congr 1
        ring
      _ ≤ 2 ^ ((num.log2 : ℤ) - den.log2 + 1) * den := by gcongr

theorem scaled_lt_iff (hden : 0 < den) (e : Int) (bits : Nat) :
    (scaled num den e).1 / (scaled num den e).2 < 2 ^ bits ↔
      (num : ℚ) / den < 2 ^ (e + bits) := by
  have hpos : (0 : ℚ) < (scaled num den e).2 := by exact_mod_cast scaled_pos hden e
  have hunit : (0 : ℚ) < 2 ^ e := by positivity
  rw [zpow_add₀ two_ne_zero, zpow_natCast, mul_comm, ← div_lt_iff₀ hunit, ← scaled_eq,
    div_lt_iff₀ hpos, Nat.div_lt_iff_lt_mul (scaled_pos hden e)]
  exact_mod_cast Iff.rfl

/-- The unit leaves 53 bits, the first of them set unless the unit is the least one. -/
theorem nearestExponent_spec (hnum : 0 < num) (hden : 0 < den) :
    -1074 ≤ nearestExponent num den ∧
    (num : ℚ) / den < 2 ^ (nearestExponent num den + 53) ∧
    (nearestExponent num den = -1074 ∨ (2 : ℚ) ^ (nearestExponent num den + 52) ≤ num / den) := by
  obtain ⟨hlow, hhigh⟩ := log2_div_bounds hnum hden
  have hbits : 2 * leadingBit = 2 ^ 53 := by decide
  obtain ⟨e, hmax, hfits, hfull⟩ : ∃ e : Int, nearestExponent num den = max (-1074) e ∧
      (num : ℚ) / den < 2 ^ (e + 53) ∧ (2 : ℚ) ^ (e + 52) ≤ num / den := by
    refine ⟨_, rfl, ?_⟩
    simp only [hbits, scaled_lt_iff hden]
    have hestimate : Int.ofNat num.log2 - Int.ofNat den.log2 - 53 + 52 =
        (num.log2 : ℤ) - den.log2 - 1 := by
      simp only [Int.ofNat_eq_natCast]
      ring
    split
    · next hsmall => exact ⟨hsmall, hestimate ▸ hlow⟩
    · next hlarge =>
      refine ⟨hhigh.trans_le ?_, ?_⟩
      · exact zpow_le_zpow_right₀ one_le_two (by simp only [Int.ofNat_eq_natCast]; omega)
      · rw [add_right_comm, add_assoc]
        exact not_lt.1 hlarge
  refine ⟨hmax ▸ le_max_left _ _, hfits.trans_le ?_, ?_⟩
  · exact zpow_le_zpow_right₀ one_le_two (by omega)
  · obtain heq | heq := max_choice (-1074) e
    · exact .inl (hmax.trans heq)
    · exact .inr (hmax.trans heq ▸ hfull)

variable {x : Double}

theorem leadingBit_eq : leadingBit = 4503599627370496 := by decide

theorem infiniteRank_eq : infiniteRank = 9218868437227405312 := by decide

/-- The rank counts the doubles below, so many for each unit. -/
theorem rank_eq (x : Double) :
    x.rank = (x.exponent + 1074).toNat * leadingBit + x.significand := by
  unfold exponent significand
  rw [leadingBit_eq, Int.ofNat_eq_natCast]
  split <;> omega

theorem exponent_ge (x : Double) : -1074 ≤ x.exponent := by
  unfold exponent
  rw [leadingBit_eq, Int.ofNat_eq_natCast]
  split <;> omega

theorem exponent_le (h : x.isFinite = true) : x.exponent ≤ 971 := by
  have hrank : x.rank < infiniteRank := of_decide_eq_true h
  rw [infiniteRank_eq] at hrank
  unfold exponent
  rw [leadingBit_eq, Int.ofNat_eq_natCast]
  split <;> omega

theorem significand_lt (x : Double) : x.significand < 2 * leadingBit := by
  unfold significand
  rw [leadingBit_eq]
  split <;> omega

theorem leadingBit_le_significand (h : x.exponent ≠ -1074) : leadingBit ≤ x.significand := by
  unfold exponent at h
  unfold significand
  split
  · next hsmall => exact (h (if_pos hsmall)).elim
  · exact Nat.le_add_right _ _

theorem significand_pos (h : x.rank ≠ 0) : 0 < x.significand := by
  unfold significand
  split
  · omega
  · rw [leadingBit_eq]
    omega

/-- A number of units of a double is near enough to round to it. Below a power of two only half as
much is. -/
structure Near (x : Double) (y : ℚ) : Prop where
  low : (x.significand : ℚ) - 1 / 2 ≤ y
  high : y ≤ x.significand + 1 / 2
  ends : (x.significand : ℚ) - 1 / 2 = y ∨ y = x.significand + 1 / 2 → x.significand % 2 = 0
  narrow : x.significand = leadingBit → x.exponent ≠ -1074 → (x.significand : ℚ) - 1 / 4 ≤ y

theorem Near.pos {y : ℚ} (hzero : x.rank ≠ 0) (h : x.Near y) : 0 < y := by
  have hone : (1 : ℚ) ≤ x.significand := by exact_mod_cast significand_pos hzero
  linarith [h.low]

theorem lt_two_pow {y : ℚ} {e f : ℤ} {k : ℕ} (h : y * 2 ^ e < 2 ^ f) (hk : f ≤ e + k) :
    y < 2 ^ k := by
  have hpow : (2 : ℚ) ^ f ≤ 2 ^ k * 2 ^ e := by
    rw [← zpow_natCast, ← zpow_add₀ two_ne_zero]
    exact zpow_le_zpow_right₀ one_le_two (by omega)
  exact lt_of_mul_lt_mul_right (h.trans_le hpow) (by positivity)

theorem two_pow_le {y : ℚ} {e f : ℤ} {k : ℕ} (h : (2 : ℚ) ^ f ≤ y * 2 ^ e) (hk : e + k ≤ f) :
    2 ^ k ≤ y := by
  have hpow : (2 : ℚ) ^ k * 2 ^ e ≤ 2 ^ f := by
    rw [← zpow_natCast, ← zpow_add₀ two_ne_zero]
    exact zpow_le_zpow_right₀ one_le_two (by omega)
  exact le_of_mul_le_mul_right (hpow.trans h) (by positivity)

/-- A fraction near to a double is rounded in its unit, or in the next finer one when it is below
the double and that is a power of two. -/
theorem nearestExponent_of_near (hnum : 0 < num) (hden : 0 < den)
    (h : x.Near (num / den / 2 ^ x.exponent)) :
    nearestExponent num den = x.exponent ∨
      nearestExponent num den = x.exponent - 1 ∧ x.significand = leadingBit ∧
        x.exponent ≠ -1074 ∧ (num : ℚ) / den / 2 ^ x.exponent < leadingBit := by
  obtain ⟨hge, hfits, hfull⟩ := nearestExponent_spec hnum hden
  have hunit : (2 : ℚ) ^ x.exponent ≠ 0 := by positivity
  rw [← div_mul_cancel₀ ((num : ℚ) / den) hunit] at hfits hfull
  generalize nearestExponent num den = e at hge hfits hfull ⊢
  generalize (num : ℚ) / den / 2 ^ x.exponent = y at h hfits hfull
  have hlt := significand_lt x
  rw [leadingBit_eq] at hlt ⊢
  obtain hcoarser | rfl | hfiner := lt_trichotomy x.exponent e
  · have hlarge := hfull.resolve_left (by have := exponent_ge x; omega)
    have hy : (2 : ℚ) ^ 53 ≤ y := two_pow_le hlarge (by omega)
    have hm : (x.significand : ℚ) ≤ 9007199254740991 := by exact_mod_cast Nat.le_of_lt_succ hlt
    linarith [h.high]
  · exact .inl rfl
  · have hnormal : x.exponent ≠ -1074 := by omega
    have hy : y < 2 ^ 52 := lt_two_pow hfits (by omega)
    have hbit : 4503599627370496 ≤ x.significand :=
      leadingBit_eq ▸ leadingBit_le_significand hnormal
    have hpower : x.significand = 4503599627370496 := by
      have hm : (x.significand : ℚ) < 4503599627370497 := by linarith [h.low]
      have hm' : x.significand < 4503599627370497 := by exact_mod_cast hm
      omega
    refine .inr ⟨?_, hpower, hnormal, by norm_num at hy ⊢; exact hy⟩
    by_contra hne
    have hsmall : y < 2 ^ 51 := lt_two_pow hfits (by omega)
    have hlow := h.low
    rw [hpower] at hlow
    norm_num at hlow hsmall
    linarith

/-- A fraction near to a double has its rank. -/
theorem nearestRank_of_near (hx : x.isFinite = true) (hnum : 0 < num) (hden : 0 < den)
    (h : x.Near (num / den / 2 ^ x.exponent)) : nearestRank num den = x.rank := by
  have hrank : x.rank < infiniteRank := of_decide_eq_true hx
  rw [nearestRank_eq hnum.ne']
  obtain he | ⟨he, hpower, hnormal, hbelow⟩ := nearestExponent_of_near hnum hden h
  · rw [he, roundDiv_eq_of_near (scaled_pos hden _) (scaled_eq _ ▸ h.low) (scaled_eq _ ▸ h.high)
      (scaled_eq _ ▸ h.ends), ← rank_eq, min_eq_right hrank.le]
  · have hge := exponent_ge x
    have hpos : 0 < (scaled num den (x.exponent - 1)).2 := scaled_pos hden _
    have hdouble : ((scaled num den (x.exponent - 1)).1 : ℚ) / (scaled num den (x.exponent - 1)).2 =
        2 * (num / den / 2 ^ x.exponent) := by
      rw [scaled_eq, zpow_sub_one₀ two_ne_zero, ← div_div]
      ring
    generalize (num : ℚ) / den / 2 ^ x.exponent = y at h hdouble hbelow
    have hround : roundDiv (scaled num den (x.exponent - 1)).1
        (scaled num den (x.exponent - 1)).2 = 2 * leadingBit := by
      have hlow := h.narrow hpower hnormal
      rw [hpower] at hlow
      refine roundDiv_eq_of_near hpos ?_ ?_ fun _ => Nat.mul_mod_right _ _
      · rw [hdouble]
        push_cast
        linarith
      · rw [hdouble]
        push_cast
        linarith
    have hrank_eq : (x.exponent - 1 + 1074).toNat * leadingBit + 2 * leadingBit = x.rank := by
      rw [rank_eq x, hpower, leadingBit_eq]
      omega
    rw [he, hround, hrank_eq, min_eq_right hrank.le]

theorem ofFraction_of_near (hx : x.isFinite = true) (hnum : 0 < num) (hden : 0 < den)
    (h : x.Near (num / den / 2 ^ x.exponent)) : ofFraction x.negative num den = x := by
  have hrank := nearestRank_of_near hx hnum hden h
  obtain ⟨negative, rank, hle⟩ := x
  simp only [ofFraction, hrank]

end Double

end SearchSql
