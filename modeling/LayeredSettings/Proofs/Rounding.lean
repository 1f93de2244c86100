/-
What the shortest decimal of a double rounds to.

The numbers that round to a double form an interval, and two doubles have no number in common:
where their intervals meet, the one with the even significand takes the end. So a decimal that
lies in the interval of a double belongs to no other one. The search for the shortest decimal
always finds such a decimal, since seventeen digits are finer than the interval.

* `Double.Rounds`: the numbers that round to a significand and an exponent;
* `Double.Rounds.unique`: no number rounds to two doubles;
* `Double.contains_iff`: the test for the interval is exact;
* `Double.exists_nearest`: seventeen digits suffice;
* `Double.rounds_shortest`: the shortest decimal of a double rounds to it.
-/
import Mathlib
import LayeredSettings.Double.Shortest

namespace LayeredSettings.Double

/-! ### Powers -/

@[simp] lemma cast_pow2 (n : ℕ) : (pow2 n : ℚ) = 2 ^ n := by simp [pow2]

@[simp] lemma cast_pow10 (n : ℕ) : (pow10 n : ℚ) = 10 ^ n := by simp [pow10]

/-- A power is the quotient of two with natural exponents. -/
lemma zpow_mul_pow_toNat {b : ℚ} (hb : b ≠ 0) (e : ℤ) : b ^ e * b ^ (-e).toNat = b ^ e.toNat := by
  rw [← zpow_natCast, ← zpow_natCast, ← zpow_add₀ hb]
  congr 1
  omega

/-- Ends of intervals are counted in quarters of the last place. -/
lemma quarter_mul (q : ℤ) : (2 : ℚ) ^ (q - 2) * 4 = 2 ^ q := by
  rw [show (4 : ℚ) = 2 ^ (2 : ℤ) by norm_num, ← zpow_add₀ two_ne_zero, sub_add_cancel]

/-! ### Intervals -/

/-- The lower end of the interval of a double, in quarters of its last place. -/
def lower (m : ℕ) (q : ℤ) : ℕ := if m = pow2 52 ∧ -1074 < q then 4 * m - 1 else 4 * m - 2

/-- The numbers that round to `m · 2 ^ q`: they lie between the ends of the interval, and at an
end only if the significand is even. -/
structure Rounds (m : ℕ) (q : ℤ) (x : ℚ) : Prop where
  low_le : lower m q * 2 ^ (q - 2) ≤ x
  le_high : x ≤ (4 * m + 2 : ℕ) * 2 ^ (q - 2)
  inside : m % 2 ≠ 0 → lower m q * 2 ^ (q - 2) < x ∧ x < (4 * m + 2 : ℕ) * 2 ^ (q - 2)

/-- The significands and exponents of doubles: a significand has 53 bits, unless the exponent is
the least one. -/
structure Legal (m : ℕ) (q : ℤ) : Prop where
  lt : m < 2 ^ 53
  least : -1074 ≤ q
  le : -1074 < q → 2 ^ 52 ≤ m

variable {m m' : ℕ} {q q' : ℤ} {x : ℚ}

lemma lower_le (m : ℕ) (q : ℤ) : lower m q ≤ 4 * m - 1 := by
  rw [lower]
  split_ifs <;> omega

lemma le_lower (m : ℕ) (q : ℤ) : 4 * m - 2 ≤ lower m q := by
  rw [lower]
  split_ifs <;> omega

lemma Rounds.pos (h : Rounds m q x) (hm : 0 < m) : 0 < x := by
  have hle := le_lower m q
  have hlower : 0 < lower m q := by omega
  exact lt_of_lt_of_le (by positivity) h.low_le

/-- Intervals with the same last place meet in an end at most, and not both take it. -/
lemma Rounds.not_lt (h : Rounds m q x) (h' : Rounds m' q x) : ¬ m < m' := by
  intro hlt
  have hunit : (0 : ℚ) < 2 ^ (q - 2) := by positivity
  have hends : lower m' q ≤ 4 * m + 2 := by
    have hle := h'.low_le.trans h.le_high
    rw [mul_le_mul_iff_of_pos_right hunit] at hle
    exact_mod_cast hle
  have hlower := le_lower m' q
  obtain rfl : m' = m + 1 := by omega
  obtain heq : lower (m + 1) q = 4 * m + 2 := by omega
  -- one of two neighbours is odd
  rcases Nat.mod_two_eq_zero_or_one m with heven | hodd
  · have habove := (h'.inside (by omega)).1
    rw [heq] at habove
    exact absurd habove (not_lt.mpr h.le_high)
  · have hbelow := (h.inside (by omega)).2
    rw [← heq] at hbelow
    exact absurd hbelow (not_lt.mpr h'.low_le)

/-- Where the last place is greater, the whole interval lies above. -/
lemma Rounds.le_of_legal (h : Rounds m q x) (h' : Rounds m' q' x) (hm : Legal m q)
    (hm' : Legal m' q') : q' ≤ q := by
  by_contra hlt
  rw [not_le] at hlt
  have hsignificand := hm.lt
  have hunit : (0 : ℚ) < 2 ^ (q - 2) := by positivity
  have hlower : 2 ^ 54 - 1 ≤ lower m' q' := by
    have hleast := lt_of_le_of_lt hm.least hlt
    have hle := hm'.le hleast
    have hpow : pow2 52 = 2 ^ 52 := rfl
    rw [lower]
    split_ifs <;> omega
  have hdouble : (2 : ℚ) * 2 ^ (q - 2) ≤ 2 ^ (q' - 2) := by
    rw [← zpow_one_add₀ two_ne_zero]
    exact zpow_le_zpow_right₀ one_le_two (by omega)
  have hbelow : ((4 * m + 2 : ℕ) : ℚ) * 2 ^ (q - 2) ≤ (2 ^ 55 - 2 : ℕ) * 2 ^ (q - 2) := by
    gcongr
    omega
  have habove : ((2 ^ 55 - 2 : ℕ) : ℚ) * 2 ^ (q - 2) ≤ lower m' q' * 2 ^ (q' - 2) := by
    calc ((2 ^ 55 - 2 : ℕ) : ℚ) * 2 ^ (q - 2) = (2 ^ 54 - 1 : ℕ) * (2 * 2 ^ (q - 2)) := by
          norm_num
          ring
      _ ≤ lower m' q' * 2 ^ (q' - 2) := by gcongr
  -- the number is the upper end, which an odd significand does not take
  rcases Nat.mod_two_eq_zero_or_one m with heven | hodd
  · have hlt' : ((4 * m + 2 : ℕ) : ℚ) * 2 ^ (q - 2) < (2 ^ 55 - 2 : ℕ) * 2 ^ (q - 2) := by
      rw [mul_lt_mul_iff_of_pos_right hunit]
      exact_mod_cast (by omega : 4 * m + 2 < 2 ^ 55 - 2)
    exact absurd (h.le_high.trans_lt (hlt'.trans_le (habove.trans h'.low_le))) (lt_irrefl _)
  · exact absurd ((h.inside (by omega)).2.trans_le (hbelow.trans (habove.trans h'.low_le)))
      (lt_irrefl _)

/-- **No number rounds to two doubles.** -/
theorem Rounds.unique (h : Rounds m q x) (h' : Rounds m' q' x) (hm : Legal m q)
    (hm' : Legal m' q') : m = m' ∧ q = q' := by
  obtain rfl : q = q' := le_antisymm (h'.le_of_legal h hm' hm) (h.le_of_legal h' hm hm')
  exact ⟨Nat.le_antisymm (Nat.not_lt.mp (h'.not_lt h)) (Nat.not_lt.mp (h.not_lt h')), rfl⟩

/-! ### The test -/

variable {num den : ℕ}

/-- The ends of an interval and a quotient are compared in natural numbers. -/
lemma exists_common_multiple (q : ℤ) (num : ℕ) (hden : 0 < den) :
    ∃ k : ℚ, 0 < k ∧
      (∀ a : ℕ, ((a * pow2 q.toNat * den : ℕ) : ℚ) = a * 2 ^ (q - 2) * k) ∧
      ((num * (4 * pow2 (-q).toNat) : ℕ) : ℚ) = (num : ℚ) / den * k := by
  have hpos : (0 : ℚ) < den := by exact_mod_cast hden
  refine ⟨4 * 2 ^ (-q).toNat * den, by positivity, fun a => ?_, ?_⟩
  · push_cast
    rw [cast_pow2, ← zpow_mul_pow_toNat two_ne_zero q, ← quarter_mul]
    ring
  · push_cast
    rw [cast_pow2]
    field_simp

/-- The test whether a quotient lies in the interval is exact. -/
lemma contains_iff (hden : 0 < den) :
    (interval m q).contains num den = true ↔ Rounds m q ((num : ℚ) / den) := by
  obtain ⟨k, hk, hends, hquotient⟩ := exists_common_multiple q num hden
  have hle : ∀ a : ℕ, a * pow2 q.toNat * den ≤ num * (4 * pow2 (-q).toNat) ↔
      (a : ℚ) * 2 ^ (q - 2) ≤ (num : ℚ) / den := by
    intro a
    rw [← Nat.cast_le (α := ℚ), hends, hquotient, mul_le_mul_iff_of_pos_right hk]
  have hge : ∀ a : ℕ, num * (4 * pow2 (-q).toNat) ≤ a * pow2 q.toNat * den ↔
      (num : ℚ) / den ≤ (a : ℚ) * 2 ^ (q - 2) := by
    intro a
    rw [← Nat.cast_le (α := ℚ), hends, hquotient, mul_le_mul_iff_of_pos_right hk]
  have hlower : (interval m q).low = lower m q * pow2 q.toNat := rfl
  have hhigh : (interval m q).high = (4 * m + 2) * pow2 q.toNat := rfl
  have hcommon : (interval m q).denominator = 4 * pow2 (-q).toNat := rfl
  have hclosed : (interval m q).closed = decide (m % 2 = 0) := rfl
  rw [Interval.contains, hlower, hhigh, hcommon, hclosed]
  by_cases heven : m % 2 = 0
  · rw [if_pos (by simpa using heven), decide_eq_true_eq, hle, hge]
    exact ⟨fun h => ⟨h.1, h.2, fun hodd => absurd heven hodd⟩, fun h => ⟨h.low_le, h.le_high⟩⟩
  · rw [if_neg (by simpa using heven), decide_eq_true_eq, ← not_le, ← not_le, hle, hge, not_le,
      not_le]
    exact ⟨fun h => ⟨h.1.le, h.2.le, fun _ => h⟩, fun h => h.inside heven⟩

/-! ### The nearest decimals -/

/-- The decimal of `k · 10 ^ e`. -/
def Decimal.ofNat (k : ℕ) (e : ℤ) : Decimal :=
  ⟨dropTrailingZeros (natDigits k), e + (natDigits k).length⟩

/-- The quotient of two powers of ten. -/
lemma mul_pow10_div (k : ℕ) (e : ℤ) :
    ((k * pow10 e.toNat : ℕ) : ℚ) / (pow10 (-e).toNat : ℕ) = k * 10 ^ e := by
  push_cast
  rw [cast_pow10, cast_pow10, ← zpow_mul_pow_toNat (by norm_num : (10 : ℚ) ≠ 0) e]
  field_simp

lemma contains_grid_iff (k : ℕ) (e : ℤ) :
    (interval m q).contains (k * pow10 e.toNat) (pow10 (-e).toNat) = true ↔
      Rounds m q (k * 10 ^ e) := by
  have hpos : 0 < pow10 (-e).toNat := Nat.pow_pos (by decide)
  rw [contains_iff hpos, mul_pow10_div]

variable {tie : Tie} {n : ℕ} {point : ℤ} {s : Decimal}

/-- What the search takes for the nearest decimal rounds to the double. -/
lemma rounds_of_nearest (h : (interval m q).nearest tie n point = some s) :
    ∃ k : ℕ, s = Decimal.ofNat k (point - n) ∧ Rounds m q (k * 10 ^ (point - n)) := by
  simp only [Interval.nearest] at h
  split at h
  · rename_i hdown hup
    refine ⟨_, (Option.some.inj h).symm, ?_⟩
    split_ifs
    · exact (contains_grid_iff _ _).mp hdown
    · exact (contains_grid_iff _ _).mp hup
  · rename_i hdown _
    exact ⟨_, (Option.some.inj h).symm, (contains_grid_iff _ _).mp hdown⟩
  · rename_i _ hup
    exact ⟨_, (Option.some.inj h).symm, (contains_grid_iff _ _).mp hup⟩
  · cases h

/-- The value of a double, times the common denominator. -/
lemma cast_value (m : ℕ) (q : ℤ) :
    ((interval m q).value : ℚ) = m * 2 ^ q * (interval m q).denominator := by
  have hvalue : (interval m q).value = 4 * m * pow2 q.toNat := rfl
  have hcommon : (interval m q).denominator = 4 * pow2 (-q).toNat := rfl
  rw [hvalue, hcommon]
  push_cast
  rw [cast_pow2, cast_pow2, ← zpow_mul_pow_toNat two_ne_zero q]
  ring

lemma denominator_pos (m : ℕ) (q : ℤ) : 0 < (interval m q).denominator :=
  Nat.mul_pos (by decide) (Nat.pow_pos (by decide))

/-- The neighbour below a double on the grid of a power of ten. -/
lemma floor_grid (m : ℕ) (q e : ℤ) :
    let down := (interval m q).value * pow10 (-e).toNat /
      ((interval m q).denominator * pow10 e.toNat)
    (down : ℚ) * 10 ^ e ≤ m * 2 ^ q ∧ (m : ℚ) * 2 ^ q < (down + 1 : ℕ) * 10 ^ e := by
  intro down
  have hcommon := denominator_pos m q
  have hgrid : 0 < (interval m q).denominator * pow10 e.toNat :=
    Nat.mul_pos hcommon (Nat.pow_pos (by decide))
  -- both sides are multiplied by the denominators
  have hscale : (0 : ℚ) < (interval m q).denominator * 10 ^ (-e).toNat := by positivity
  have hleft : (m : ℚ) * 2 ^ q * ((interval m q).denominator * 10 ^ (-e).toNat) =
      ((interval m q).value * pow10 (-e).toNat : ℕ) := by
    push_cast
    rw [cast_value, cast_pow10]
    ring
  have hright : ∀ k : ℕ, (k : ℚ) * 10 ^ e * ((interval m q).denominator * 10 ^ (-e).toNat) =
      (k * ((interval m q).denominator * pow10 e.toNat) : ℕ) := by
    intro k
    push_cast
    rw [cast_pow10, ← zpow_mul_pow_toNat (by norm_num : (10 : ℚ) ≠ 0) e]
    ring
  constructor
  · rw [← mul_le_mul_iff_of_pos_right hscale, hleft, hright, Nat.cast_le]
    exact Nat.div_mul_le_self _ _
  · rw [← mul_lt_mul_iff_of_pos_right hscale, hleft, hright, Nat.cast_lt]
    exact (Nat.div_lt_iff_lt_mul hgrid).mp (Nat.lt_succ_self _)

/-- Where the search finds nothing, both neighbours of the double lie outside. -/
lemma not_rounds_of_nearest (h : (interval m q).nearest tie n point = none) :
    ∃ k : ℕ, ((k : ℚ) * 10 ^ (point - n) ≤ m * 2 ^ q ∧
        (m : ℚ) * 2 ^ q < (k + 1 : ℕ) * 10 ^ (point - n)) ∧
      ¬ Rounds m q (k * 10 ^ (point - n)) ∧ ¬ Rounds m q ((k + 1 : ℕ) * 10 ^ (point - n)) := by
  refine ⟨_, floor_grid m q (point - n), ?_⟩
  rw [← contains_grid_iff, ← contains_grid_iff, Bool.not_eq_true, Bool.not_eq_true]
  simp only [Interval.nearest] at h
  split at h
  case h_4 hdown hup => exact ⟨hdown, hup⟩
  all_goals cases h

/-- What lies strictly between the ends rounds to the double. -/
lemma Rounds.of_between (hlow : lower m q * 2 ^ (q - 2) < x)
    (hhigh : x < (4 * m + 2 : ℕ) * 2 ^ (q - 2)) : Rounds m q x :=
  ⟨hlow.le, hhigh.le, fun _ => ⟨hlow, hhigh⟩⟩

/-- **Seventeen digits suffice**: their grid is finer than the interval. -/
theorem exists_nearest (tie : Tie) (hm : 0 < m) (hlt : m < 2 ^ 53)
    (hpoint : (10 : ℚ) ^ (point - 1) ≤ m * 2 ^ q) :
    ∃ s, (interval m q).nearest tie 17 point = some s := by
  rw [← Option.ne_none_iff_exists']
  intro hnone
  obtain ⟨k, ⟨hle, hup⟩, hnotDown, hnotUp⟩ := not_rounds_of_nearest hnone
  have hunit : (0 : ℚ) < 2 ^ (q - 2) := by positivity
  have hvalue : (m : ℚ) * 2 ^ q = 4 * m * 2 ^ (q - 2) := by
    rw [← quarter_mul]
    ring
  have hgrid : (10 : ℚ) ^ (point - (17 : ℕ)) * 10 ^ 16 ≤ 4 * m * 2 ^ (q - 2) := by
    rw [← hvalue, ← zpow_natCast, ← zpow_add₀ (by norm_num)]
    convert hpoint using 2
    push_cast
    ring
  rw [hvalue] at hle hup
  generalize (10 : ℚ) ^ (point - (17 : ℕ)) = grid at hle hup hnotDown hnotUp hgrid
  -- the neighbours lie on and beyond the ends
  have hbelow : (k : ℚ) * grid ≤ lower m q * 2 ^ (q - 2) := by
    by_contra hlow
    refine hnotDown (.of_between (not_le.mp hlow) (hle.trans_lt ?_))
    push_cast
    gcongr
    linarith
  have habove : ((4 * m + 2 : ℕ) : ℚ) * 2 ^ (q - 2) ≤ (k + 1 : ℕ) * grid := by
    by_contra hhigh
    refine hnotUp (.of_between (lt_of_le_of_lt ?_ hup) (not_le.mp hhigh))
    have hlower : lower m q ≤ 4 * m := (lower_le m q).trans (Nat.sub_le _ _)
    gcongr
    exact_mod_cast hlower
  -- so the grid is as wide as the interval
  have hwide : ((4 * m + 2 - lower m q : ℕ) : ℚ) * 2 ^ (q - 2) * 10 ^ 16 ≤ 4 * m * 2 ^ (q - 2) := by
    rw [Nat.cast_sub ((lower_le m q).trans (by omega))]
    push_cast at habove ⊢
    linarith
  rw [mul_right_comm, mul_le_mul_iff_of_pos_right hunit] at hwide
  have hsmall : (4 * m + 2 - lower m q) * 10 ^ 16 ≤ 4 * m := by exact_mod_cast hwide
  have hpow : pow2 52 = 2 ^ 52 := rfl
  rw [lower] at hsmall
  split_ifs at hsmall <;> omega

/-! ### The search -/

/-- The search for the decimal point does not go beyond the quotient. -/
lemma le_of_decimalPoint (hden : 0 < den) (fuel : ℕ) {k : ℤ}
    (h : (10 : ℚ) ^ (k - 1) ≤ (num : ℚ) / den) :
    (10 : ℚ) ^ (decimalPoint num den fuel k - 1) ≤ (num : ℚ) / den := by
  have hpos : (0 : ℚ) < den := by exact_mod_cast hden
  induction fuel generalizing k with
  | zero => exact h
  | succ fuel ih =>
      simp only [decimalPoint]
      split_ifs with hk hbelow hbelow
      · exact h
      · refine ih ?_
        have hle : den * 10 ^ k.toNat ≤ num := Nat.not_lt.mp hbelow
        have hpow : (10 : ℚ) ^ k = 10 ^ k.toNat := by
          rw [← zpow_natCast, Int.toNat_of_nonneg hk]
        rw [add_sub_cancel_right, le_div_iff₀ hpos, hpow, mul_comm]
        exact_mod_cast hle
      · exact h
      · refine ih ?_
        have hle : den ≤ num * 10 ^ (-k).toNat := Nat.not_lt.mp hbelow
        have hpow : (10 : ℚ) ^ k * 10 ^ (-k).toNat = 1 := by
          rw [zpow_mul_pow_toNat (by norm_num), Int.toNat_of_nonpos (by omega), pow_zero]
        have hscale : (0 : ℚ) < 10 ^ (-k).toNat := by positivity
        rw [add_sub_cancel_right, le_div_iff₀ hpos, ← mul_le_mul_iff_of_pos_right hscale,
          mul_right_comm, hpow, one_mul]
        exact_mod_cast hle

/-- The search for the decimal point begins below the double. -/
lemma ten_zpow_le {b : ℤ} (hleast : -1074 ≤ b) (hgreatest : b ≤ 1024) :
    (10 : ℚ) ^ (b * 30103 / 100000 - 2) ≤ 2 ^ b := by
  have hpos : ∀ n < 1025, 10 ^ (n * 30103 / 100000) ≤ 2 ^ n * 100 := by decide +kernel
  have hneg : ∀ n < 1075, 2 ^ n ≤ 10 ^ ((n * 30103 + 99999) / 100000) * 100 := by decide +kernel
  rw [zpow_sub₀ (by norm_num), div_le_iff₀ (by norm_num)]
  obtain ⟨n, rfl | rfl⟩ := b.eq_nat_or_neg
  · have hstart : (n : ℤ) * 30103 / 100000 = (n * 30103 / 100000 : ℕ) := by omega
    rw [hstart, zpow_natCast, zpow_natCast]
    exact_mod_cast hpos n (by omega)
  · have hstart : -(n : ℤ) * 30103 / 100000 = -((n * 30103 + 99999) / 100000 : ℕ) := by omega
    rw [hstart, zpow_neg, zpow_natCast, zpow_neg, zpow_natCast, ← div_eq_inv_mul,
      inv_eq_one_div, div_le_div_iff₀ (by positivity) (by positivity), one_mul, mul_comm]
    exact_mod_cast hneg n (by omega)

/-- Where the search puts the decimal point of a double. -/
def pointOf (m : ℕ) (q : ℤ) : ℤ :=
  decimalPoint (interval m q).value (interval m q).denominator 400
    (((m.log2 : ℤ) + q) * 30103 / 100000 - 1)

/-- The decimal point does not lie too far to the right. -/
lemma zpow_pointOf_le (hlegal : Legal m q) (hle : q ≤ 972) (hpos : 0 < m) :
    (10 : ℚ) ^ (pointOf m q - 1) ≤ m * 2 ^ q := by
  have hlog : 2 ^ m.log2 ≤ m := Nat.log2_self_le hpos.ne'
  have hbits : m.log2 < 53 := (Nat.log2_lt hpos.ne').mpr hlegal.lt
  have hleast := hlegal.least
  have hcommon : (0 : ℚ) < (interval m q).denominator := by exact_mod_cast denominator_pos m q
  have hquotient : ((interval m q).value : ℚ) / (interval m q).denominator = m * 2 ^ q := by
    rw [cast_value, mul_div_cancel_right₀ _ hcommon.ne']
  rw [← hquotient]
  refine le_of_decimalPoint (denominator_pos m q) 400 ?_
  rw [hquotient, sub_sub, one_add_one_eq_two]
  calc (10 : ℚ) ^ (((m.log2 : ℤ) + q) * 30103 / 100000 - 2)
      ≤ 2 ^ ((m.log2 : ℤ) + q) := ten_zpow_le (by omega) (by omega)
    _ = 2 ^ m.log2 * 2 ^ q := by rw [zpow_add₀ two_ne_zero, zpow_natCast]
    _ ≤ m * 2 ^ q := by
        gcongr
        exact_mod_cast hlog

/-! ### Doubles -/

variable {d d' : Double}

/-- The fields of a pattern: a zero exponent field means that there is no leading bit. -/
lemma parts_cases (d : Double) :
    (d.bits.toNat / 2 ^ 52 % 2 ^ 11 = 0 ∧
      d.parts = ⟨decide (d.bits.toNat / 2 ^ 63 = 1), d.bits.toNat % 2 ^ 52, -1074⟩) ∨
    (0 < d.bits.toNat / 2 ^ 52 % 2 ^ 11 ∧
      d.parts = ⟨decide (d.bits.toNat / 2 ^ 63 = 1), 2 ^ 52 + d.bits.toNat % 2 ^ 52,
        (d.bits.toNat / 2 ^ 52 % 2 ^ 11 : ℕ) - 1075⟩) := by
  by_cases hfield : d.bits.toNat / 2 ^ 52 % 2 ^ 11 = 0
  · exact .inl ⟨hfield, if_pos hfield⟩
  · exact .inr ⟨Nat.pos_of_ne_zero hfield, if_neg hfield⟩

lemma legal_parts (d : Double) : Legal d.parts.significand d.parts.exponent := by
  obtain ⟨hfield, h⟩ | ⟨hfield, h⟩ := parts_cases d <;> rw [h] <;> constructor <;> dsimp only <;>
    omega

lemma exponent_parts_le (d : Double) : d.parts.exponent ≤ 972 := by
  obtain ⟨hfield, h⟩ | ⟨hfield, h⟩ := parts_cases d <;> rw [h] <;> dsimp only <;> omega

/-- Sign, significand and exponent make up the pattern. -/
lemma eq_of_parts (hnegative : d.parts.negative = d'.parts.negative)
    (hsignificand : d.parts.significand = d'.parts.significand)
    (hexponent : d.parts.exponent = d'.parts.exponent) : d = d' := by
  have hlt : d.bits.toNat < 2 ^ 64 := d.bits.toNat_lt
  have hlt' : d'.bits.toNat < 2 ^ 64 := d'.bits.toNat_lt
  have hbits : d.bits.toNat = d'.bits.toNat := by
    obtain ⟨hfield, h⟩ | ⟨hfield, h⟩ := parts_cases d <;>
    obtain ⟨hfield', h'⟩ | ⟨hfield', h'⟩ := parts_cases d' <;>
    · rw [h, h'] at hnegative hsignificand hexponent
      rw [decide_eq_decide] at hnegative
      dsimp only at hsignificand hexponent
      omega
  cases d
  cases d'
  exact congrArg _ (UInt64.toNat_inj.mp hbits)

/-- A double is zero just if its significand is. -/
lemma isZero_eq_true_iff : d.isZero = true ↔ d.parts.significand = 0 := by
  have hlt : d.bits.toNat < 2 ^ 64 := d.bits.toNat_lt
  have hzero : d.isZero = true ↔ d.bits.toNat % 2 ^ 63 = 0 := decide_eq_true_iff
  rw [hzero]
  obtain ⟨hfield, h⟩ | ⟨hfield, h⟩ := parts_cases d <;> rw [h] <;> dsimp only <;> omega

/-- **The shortest decimal of a double rounds to it.** -/
theorem rounds_shortest (tie : Tie) (h : d.isZero = false) :
    ∃ (k : ℕ) (e : ℤ), d.shortest tie = Decimal.ofNat k e ∧
      Rounds d.parts.significand d.parts.exponent (k * 10 ^ e) := by
  have hshortest : d.shortest tie = ((List.range 17).findSome? fun n =>
      (interval d.parts.significand d.parts.exponent).nearest tie (n + 1)
        (pointOf d.parts.significand d.parts.exponent)).getD ⟨[], 0⟩ := rfl
  have hlegal := legal_parts d
  have hpos : 0 < d.parts.significand := by
    rw [Nat.pos_iff_ne_zero, Ne, ← isZero_eq_true_iff, h]
    exact Bool.false_ne_true
  rw [hshortest]
  generalize d.parts.significand = m at *
  obtain ⟨s, hs⟩ : ∃ s, ((List.range 17).findSome? fun n =>
      (interval m d.parts.exponent).nearest tie (n + 1) (pointOf m d.parts.exponent)) = some s := by
    rw [← Option.isSome_iff_exists, List.findSome?_isSome_iff]
    obtain ⟨s, hs⟩ := exists_nearest tie hpos hlegal.lt
      (zpow_pointOf_le hlegal (exponent_parts_le d) hpos)
    exact ⟨16, by decide, by rw [hs]; rfl⟩
  obtain ⟨n, -, hn⟩ := List.exists_of_findSome?_eq_some hs
  obtain ⟨k, rfl, hk⟩ := rounds_of_nearest hn
  exact ⟨k, _, by rw [hs, Option.getD_some], hk⟩

end LayeredSettings.Double
