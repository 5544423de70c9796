import LiveDoc.Proofs.Canonical

/-!
# What binary64 numbers stand for

A finite number stands for a rational one. What a quotient or a product gives is the exact result
rounded once: it is half a step away at most, and it is the exact result where that has few enough
bits. The integer part of a number and its fraction add up to it.
-/

namespace LiveDoc.Binary64

variable {x y : Binary64} {v : ℚ} {s t : Bool} {n d m k : Nat} {e f b : Int}

/-- The rational number that a finite number stands for. -/
def value : Binary64 → ℚ
  | .finite s m e => signed s m * 2 ^ e
  | _ => 0

/-- The factor of a sign. -/
def sign (negative : Bool) : ℚ := if negative then -1 else 1

theorem signed_eq (s : Bool) (m : Nat) : (signed s m : ℚ) = sign s * m := by
  cases s <;> simp [signed, sign]

theorem abs_sign_mul (s : Bool) (v : ℚ) : |sign s * v| = |v| := by
  cases s <;> simp [sign]

theorem abs_sign_mul_div (s : Bool) (n d : Nat) : |sign s * ((n : ℚ) / d)| = n / d := by
  rw [abs_sign_mul, abs_of_nonneg (by positivity)]

theorem value_finite (s : Bool) (m : Nat) (e : Int) :
    value (.finite s m e) = sign s * (m * 2 ^ e) := by
  rw [value, signed_eq, mul_assoc]

theorem value_zero (s : Bool) : value (zero s) = 0 := by
  rw [zero, value_finite, Nat.cast_zero, zero_mul, mul_zero]

/-- A number is the quotient of its fraction. -/
theorem value_of_ratio {r : Int × Nat} (ratio : x.ratio? = some r) :
    0 < r.2 ∧ x.value = r.1 / r.2 := by
  cases x with
  | nan => contradiction
  | infinite s => contradiction
  | finite s m e =>
    obtain rfl := Option.some.inj ratio
    obtain ⟨k, rfl | rfl⟩ := e.eq_nat_or_neg
    · simp [value]
    · cases k with
      | zero => simp [value]
      | succ k =>
        have negative : ¬ (0 : Int) ≤ -((k + 1 : Nat) : Int) := by omega
        simp only [negative, if_false, neg_neg, Int.toNat_natCast, Nat.pow_eq, value]
        refine ⟨by positivity, ?_⟩
        rw [zpow_neg, zpow_natCast, div_eq_mul_inv]
        push_cast
        rfl

/-! ## Rounding -/

/-- Whether a number is what a rational number is rounded to. -/
def IsRounded (v : ℚ) (x : Binary64) : Prop :=
  ∃ (s : Bool) (n d : Nat), 0 < d ∧ sign s * (n / d) = v ∧ ofRatio s n d = x

theorem ofRatio_zero (s : Bool) (d : Nat) : ofRatio s 0 d = zero s := if_pos rfl

/-- What a fraction is rounded to counts the nearest integer in steps of its exponent. -/
theorem exists_significand (s : Bool) (large : 0 < n) (positive : 0 < d)
    (most : b ≤ 970) (small : (n : ℚ) / d < 2 ^ (b + 53)) :
    ∃ m e, ofRatio s n d = .finite s m e ∧ exponentOf n d ≤ e ∧ (m : ℚ) * 2 ^ e =
      nearest (scale n d (exponentOf n d)).1 (scale n d (exponentOf n d)).2 * 2 ^ exponentOf n d := by
  obtain ⟨-, -, full⟩ := exponentOf_spec large positive
  have finite : exponentOf n d < 971 := by
    rcases full with least | full
    · rw [least]
      decide
    · have := (zpow_lt_zpow_iff_right₀ (by norm_num : (1 : ℚ) < 2)).mp (full.trans_lt small)
      omega
  unfold ofRatio
  rw [if_neg large.ne']
  generalize exponentOf n d = e at *
  simp only
  generalize nearest (scale n d e).1 (scale n d e).2 = k
  split
  · rename_i top
    rw [if_neg (not_lt.mpr (by simp only [maxExponent]; omega))]
    refine ⟨_, _, rfl, by omega, ?_⟩
    rw [top, zpow_add₀ (by norm_num)]
    norm_num [precision]
    ring
  · rw [if_neg (not_lt.mpr (by simp only [maxExponent]; omega))]
    exact ⟨_, _, rfl, le_refl _, rfl⟩

/-- A fraction below a power of two has an exponent accordingly. -/
theorem exponentOf_le (large : 0 < n) (positive : 0 < d) (least : minExponent ≤ b)
    (small : (n : ℚ) / d < 2 ^ (b + 53)) : exponentOf n d ≤ b := by
  rcases (exponentOf_spec large positive).2.2 with same | full
  · omega
  · have := (zpow_lt_zpow_iff_right₀ (by norm_num : (1 : ℚ) < 2)).mp (full.trans_lt small)
    omega

theorem le_exponentOf (large : 0 < n) (positive : 0 < d) (big : 2 ^ (b + 52) ≤ (n : ℚ) / d) :
    b ≤ exponentOf n d := by
  have := (zpow_lt_zpow_iff_right₀ (by norm_num : (1 : ℚ) < 2)).mp
    (big.trans_lt (exponentOf_spec large positive).2.1)
  omega

namespace IsRounded

theorem canonical (rounded : IsRounded v x) : x.Canonical := by
  obtain ⟨s, n, d, positive, -, rfl⟩ := rounded
  exact canonical_ofRatio s n positive

/-- What is not too large is rounded to a finite number, whose step is at least the one of its size. -/
theorem finite (rounded : IsRounded v x) (most : b ≤ 970) (small : |v| < 2 ^ (b + 53)) :
    ∃ s m e, x = .finite s m e ∧ ∀ b : Int, 2 ^ (b + 52) ≤ |v| → b ≤ e := by
  obtain ⟨s, n, d, positive, rfl, rfl⟩ := rounded
  rw [abs_sign_mul_div] at small ⊢
  rcases Nat.eq_zero_or_pos n with rfl | large
  · refine ⟨s, 0, minExponent, ofRatio_zero s d, fun b big => ?_⟩
    have power : (0 : ℚ) < 2 ^ (b + 52) := by positivity
    rw [Nat.cast_zero, zero_div] at big
    exact absurd big (not_le.mpr power)
  · obtain ⟨m, e, found, least, -⟩ := exists_significand s large positive most small
    exact ⟨s, m, e, found, fun b big => (le_exponentOf large positive big).trans least⟩

/-- Below a power of two a number is rounded by half of its step there at most. -/
theorem close (rounded : IsRounded v x) (least : minExponent ≤ b) (most : b ≤ 970)
    (small : |v| < 2 ^ (b + 53)) :
    |x.value - v| ≤ 2 ^ b / 2 := by
  obtain ⟨s, n, d, positive, rfl, rfl⟩ := rounded
  rw [abs_sign_mul_div] at small
  rcases Nat.eq_zero_or_pos n with rfl | large
  · rw [ofRatio_zero, value_zero]
    simp
    positivity
  · obtain ⟨m, e, found, -, same⟩ := exists_significand s large positive most small
    obtain ⟨known, scaled⟩ := scale_spec (n := n) positive (exponentOf n d)
    have step : (0 : ℚ) < 2 ^ exponentOf n d := by positivity
    have near := Decimal.nearest_close (n := (scale n d (exponentOf n d)).1) known
    rw [scaled] at near
    have size : (2 : ℚ) ^ exponentOf n d ≤ 2 ^ b :=
      zpow_le_zpow_right₀ (by norm_num) (exponentOf_le large positive least small)
    rw [found, value_finite, same, ← mul_sub, abs_sign_mul, abs_sub_comm]
    generalize nearest (scale n d (exponentOf n d)).1 (scale n d (exponentOf n d)).2 = k at *
    calc |(n : ℚ) / d - k * 2 ^ exponentOf n d|
        = |(n : ℚ) / d / 2 ^ exponentOf n d - k| * 2 ^ exponentOf n d := by
          rw [← abs_of_pos step, ← abs_mul, abs_of_pos step, sub_mul, div_mul_cancel₀ _ step.ne']
      _ ≤ 1 / 2 * 2 ^ exponentOf n d := mul_le_mul_of_nonneg_right near step.le
      _ ≤ 2 ^ b / 2 := by linarith

/-- A number with few enough bits is rounded to itself. -/
theorem exact (rounded : IsRounded v x) {a : Int} (least : minExponent ≤ b) (most : b ≤ 970) (bits : |a| < 2 ^ 53)
    (same : v = a * 2 ^ b) : x.value = v := by
  obtain ⟨s, n, d, positive, rfl, rfl⟩ := rounded
  have step : (0 : ℚ) < 2 ^ b := by positivity
  have size : (n : ℚ) / d = a.natAbs * 2 ^ b := by
    have := congrArg abs same
    rwa [abs_sign_mul_div, abs_mul, abs_of_pos step, ← Int.cast_abs, Int.abs_eq_natAbs,
      Int.cast_natCast] at this
  have small : (n : ℚ) / d < 2 ^ (b + 53) := by
    have count : (a.natAbs : ℚ) < 2 ^ 53 := by
      rw [Int.abs_eq_natAbs] at bits
      exact_mod_cast bits
    have power : (2 : ℚ) ^ (b + 53) = 2 ^ b * 2 ^ 53 := two_zpow_add b 53
    rw [size, power, mul_comm]
    exact mul_lt_mul_of_pos_left count step
  rcases Nat.eq_zero_or_pos n with rfl | large
  · rw [ofRatio_zero, value_zero]
    simp
  · obtain ⟨m, e, found, -, same⟩ := exists_significand s large positive most small
    obtain ⟨known, scaled⟩ := scale_spec (n := n) positive (exponentOf n d)
    obtain ⟨j, steps⟩ := Int.le.dest (exponentOf_le large positive least small)
    have fine : (0 : ℚ) < 2 ^ exponentOf n d := by positivity
    -- in steps of the exponent the fraction is an integer already
    have whole : (n : ℚ) / d / 2 ^ exponentOf n d = (a.natAbs * 2 ^ j : Nat) := by
      rw [size, ← steps, two_zpow_add]
      push_cast
      field_simp
    have near := nearest_of_abs (m := a.natAbs * 2 ^ j) known (by rw [scaled, whole]; simp)
      fun _ => by rw [scaled, whole]; simp
    rw [found, value_finite, same, near, ← whole, div_mul_cancel₀ _ fine.ne']

end IsRounded

/-! ## Operations -/

theorem sign_mul_natAbs (a : Int) : sign (a < 0) * a.natAbs = a := by
  rw [Nat.cast_natAbs]
  by_cases negative : a < 0
  · simp [sign, negative, abs_of_neg negative]
  · simp [sign, negative, abs_of_nonneg (not_lt.mp negative)]

/-- The quotient of integers is rounded from the rational one. -/
theorem exists_quotient {a c : Int} (positive : 0 < c) (most : b ≤ 970)
    (small : |(a : ℚ) / c| < 2 ^ (b + 53)) :
    ∃ x, ofQuotient? a c = some x ∧ IsRounded (a / c) x := by
  have divisor : (c.natAbs : ℚ) = c := by rw [Nat.cast_natAbs, abs_of_pos positive]
  have rounded : IsRounded (a / c) (ofRatio (decide (a < 0)) a.natAbs c.natAbs) :=
    ⟨decide (a < 0), a.natAbs, c.natAbs, by omega, by rw [divisor, ← mul_div_assoc, sign_mul_natAbs], rfl⟩
  obtain ⟨s, m, e, found, -⟩ := rounded.finite most small
  refine ⟨_, ?_, rounded⟩
  have signs : (decide (a < 0) != decide (c < 0)) = decide (a < 0) := by
    simp [not_lt.mpr positive.le]
  rw [ofQuotient?, signs, found]

/-- The product is rounded from the rational one. -/
theorem isRounded_mul (s : Bool) (m : Nat) (e : Int) (t : Bool) (n : Nat) (f : Int) :
    IsRounded (value (.finite s m e) * value (.finite t n f))
      (mul (.finite s m e) (.finite t n f)) := by
  have signs : sign (s != t) = sign s * sign t := by
    cases s <;> cases t <;> simp [sign]
  have product : value (.finite s m e) * value (.finite t n f) =
      sign (s != t) * (m * n * 2 ^ (e + f)) := by
    rw [value_finite, value_finite, signs, zpow_add₀ (by norm_num)]
    ring
  rw [product]
  unfold mul
  simp only
  split
  · rename_i up
    obtain ⟨k, same⟩ := Int.eq_ofNat_of_zero_le up
    refine ⟨_, _, _, Nat.one_pos, ?_, rfl⟩
    rw [same]
    simp
  · rename_i down
    obtain ⟨k, same⟩ := Int.eq_ofNat_of_zero_le (show 0 ≤ -(e + f) by omega)
    refine ⟨_, _, _, Nat.pow_pos (by decide), ?_, rfl⟩
    rw [show e + f = -(k : Int) by omega, neg_neg, Int.toNat_natCast, zpow_neg, zpow_natCast,
      ← div_eq_mul_inv]
    simp

theorem tdiv_signed (s : Bool) (m k : Nat) : (signed s m).tdiv k = signed s (m / k) := by
  cases s <;> simp [signed]

/-- What a significand leaves of a power of two has no more bits than the significand, so that its
quotient by that power is exact. -/
theorem exists_rest (s : Bool) (small : m < 2 ^ 53) (least : minExponent ≤ -(k : Int)) :
    ∃ t n f, ofRatio s (m % 2 ^ k) (2 ^ k) = .finite t n f ∧
      value (.finite t n f) = sign s * ((m % 2 ^ k : Nat) / (2 ^ k : Nat)) ∧
      |value (.finite t n f)| < 1 := by
  have rounded : IsRounded (sign s * ((m % 2 ^ k : Nat) / (2 ^ k : Nat)))
      (ofRatio s (m % 2 ^ k) (2 ^ k)) := ⟨s, _, _, by positivity, rfl, rfl⟩
  have size : |sign s * (((m % 2 ^ k : Nat) : ℚ) / (2 ^ k : Nat))| < 1 := by
    rw [abs_sign_mul_div, div_lt_one (by positivity)]
    exact_mod_cast Nat.mod_lt m (Nat.two_pow_pos k)
  have bits : |signed s (m % 2 ^ k)| < 2 ^ 53 := by
    have fits : m % 2 ^ k < 2 ^ 53 := (Nat.mod_le _ _).trans_lt small
    cases s <;> simp [signed] <;> exact_mod_cast fits
  have exact := rounded.exact (a := signed s (m % 2 ^ k)) least (by omega) bits (by
    rw [zpow_neg, zpow_natCast, signed_eq]
    push_cast
    ring)
  obtain ⟨t, n, f, found, -⟩ := rounded.finite (b := 0) (by decide) (size.trans (by norm_num))
  rw [found] at exact
  exact ⟨t, n, f, found, exact, by rwa [exact]⟩

/-- The integer part of a number and its fraction, which is less than one, add up to the number. -/
theorem exists_integerPart (canonical : (Binary64.finite s m e).Canonical) :
    ∃ (w : Int) (t : Bool) (n : Nat) (f : Int), truncate? (.finite s m e) = some w ∧
      fraction (.finite s m e) = .finite t n f ∧
      value (.finite s m e) = w + value (.finite t n f) ∧ |value (.finite t n f)| < 1 := by
  obtain ⟨small, least, -⟩ := canonical
  by_cases up : 0 ≤ e
  · obtain ⟨k, rfl⟩ := Int.eq_ofNat_of_zero_le up
    have none : value (.finite s 0 minExponent) = 0 := value_zero s
    refine ⟨signed s m * 2 ^ k, s, 0, minExponent, ?_, ?_, ?_, ?_⟩
    · simp [truncate?, ratio?]
    · rw [fraction, if_pos up, zero]
    · rw [none]
      simp [value]
    · simp [none]
  · obtain ⟨k, same⟩ := Int.eq_ofNat_of_zero_le (show 0 ≤ -e by omega)
    obtain rfl : e = -(k : Int) := by omega
    obtain ⟨t, n, f, found, rest, short⟩ := exists_rest s small least
    have parts : (m : ℚ) = 2 ^ k * (m / 2 ^ k : Nat) + (m % 2 ^ k : Nat) := by
      exact_mod_cast (Nat.div_add_mod m (2 ^ k)).symm
    refine ⟨signed s (m / 2 ^ k), t, n, f, ?_, ?_, ?_, short⟩
    · rw [← tdiv_signed]
      simp only [truncate?, ratio?, if_neg up, neg_neg, Int.toNat_natCast]
      rfl
    · rw [← found]
      simp only [fraction, if_neg up, neg_neg, Int.toNat_natCast]
      rfl
    · rw [rest, signed_eq, value_finite, zpow_neg, zpow_natCast, parts]
      push_cast
      field_simp

/-- What a number exceeds an integer by counts steps of any power of two that divides its own, and
fewer of them than one has if it is less than one. -/
theorem exists_steps {w : Int} (sum : value (.finite s m e) = w + v) (short : |v| < 1)
    (coarse : -(k : Int) ≤ e) : ∃ a : Int, |a| < 2 ^ k ∧ v = a * 2 ^ (-(k : Int)) := by
  obtain ⟨j, rfl⟩ : ∃ j : Nat, e = -k + j := ⟨(e + k).toNat, by omega⟩
  have power : (0 : ℚ) < 2 ^ k := by positivity
  have steps : v = (signed s m * 2 ^ j - w * 2 ^ k : Int) * 2 ^ (-(k : Int)) := by
    rw [eq_sub_of_add_eq' sum.symm, value, two_zpow_add, zpow_neg, zpow_natCast]
    push_cast
    field_simp
  refine ⟨_, ?_, steps⟩
  generalize signed s m * 2 ^ j - w * 2 ^ k = a at *
  rw [steps, zpow_neg, zpow_natCast, ← div_eq_mul_inv, abs_div, abs_of_pos power,
    div_lt_one power] at short
  exact_mod_cast short

end LiveDoc.Binary64
