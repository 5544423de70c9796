import LiveDoc.Number.Binary64
import Mathlib.Algebra.Order.Field.Power
import Mathlib.Data.Rat.Cast.Order
import Mathlib.Tactic.FieldSimp
import Mathlib.Tactic.Linarith
import Mathlib.Tactic.NormNum
import Mathlib.Tactic.Positivity
import Mathlib.Tactic.Ring

/-!
# Rounding to binary64

A rational number rounds to a number in canonical form exactly when it lies within half a step of it;
below a power of two the step is half as long, and an end of the interval belongs to it only if the
significand is even. Everything is read as rational arithmetic.
-/

namespace LiveDoc.Binary64

/-- The integer within half of a fraction, even if it is half away, is the nearest. -/
theorem nearest_eq {n d m : Nat} (low : 2 * (m * d) ≤ 2 * n + d) (high : 2 * n ≤ 2 * (m * d) + d)
    (tie : m % 2 = 1 → 2 * (m * d) < 2 * n + d ∧ 2 * n < 2 * (m * d) + d) (positive : 0 < d) :
    nearest n d = m := by
  have whole : d * (n / d) + n % d = n := Nat.div_add_mod n d
  have short : n % d < d := Nat.mod_lt n positive
  unfold nearest
  generalize n / d = q at *
  generalize n % d = r at *
  have below : q ≤ m := by
    by_contra beyond
    have : (m + 1) * d ≤ q * d := Nat.mul_le_mul_right d (by omega)
    rw [Nat.add_mul, Nat.mul_comm q] at this
    omega
  have above : m ≤ q + 1 := by
    by_contra under
    have : (q + 2) * d ≤ m * d := Nat.mul_le_mul_right d (by omega)
    rw [Nat.add_mul, Nat.mul_comm q] at this
    omega
  rcases Nat.lt_or_ge q m with up | same
  · obtain rfl : m = q + 1 := by omega
    rw [Nat.add_mul, Nat.mul_comm q] at low high tie
    simp only
    split <;> [omega; split <;> [rfl; split <;> omega]]
  · obtain rfl : m = q := by omega
    rw [Nat.mul_comm m] at low high tie
    simp only
    split <;> [rfl; split <;> [omega; split <;> omega]]

/-- The same for a fraction that is read as a rational number. -/
theorem nearest_of_abs {n d m : Nat} (positive : 0 < d) (close : |(n : ℚ) / d - m| ≤ 1 / 2)
    (tie : m % 2 = 1 → |(n : ℚ) / d - m| < 1 / 2) : nearest n d = m := by
  have unit : (0 : ℚ) < d := by exact_mod_cast positive
  have scaled : ((n : ℚ) / d - m) * d = n - m * d := by field_simp
  have low : -(1 / 2) * (d : ℚ) ≤ n - m * d := by
    rw [← scaled]
    exact mul_le_mul_of_nonneg_right (abs_le.mp close).1 unit.le
  have high : n - m * d ≤ 1 / 2 * (d : ℚ) := by
    rw [← scaled]
    exact mul_le_mul_of_nonneg_right (abs_le.mp close).2 unit.le
  refine nearest_eq ?_ ?_ (fun odd => ?_) positive
  · rw [← Nat.cast_le (α := ℚ)]
    push_cast
    linarith
  · rw [← Nat.cast_le (α := ℚ)]
    push_cast
    linarith
  · have inside := abs_lt.mp (tie odd)
    have low := mul_lt_mul_of_pos_right inside.1 unit
    have high := mul_lt_mul_of_pos_right inside.2 unit
    rw [scaled] at low high
    rw [← Nat.cast_lt (α := ℚ), ← Nat.cast_lt (α := ℚ)]
    push_cast
    constructor <;> linarith

/-- Shifting a fraction by a power of a base, up or down, divides it by that power. -/
theorem shifted_fraction {base n d : Nat} (large : 0 < base) (positive : 0 < d) (e : Int) :
    let s := if 0 ≤ e then (n, d * Nat.pow base e.toNat) else (n * Nat.pow base (-e).toNat, d)
    0 < s.2 ∧ (s.1 : ℚ) / s.2 = (n : ℚ) / d / (base : ℚ) ^ e := by
  have unit : (base : ℚ) ≠ 0 := by exact_mod_cast large.ne'
  obtain ⟨k, rfl | rfl⟩ := e.eq_nat_or_neg
  · simp [large, positive, div_div]
  · cases k with
    | zero => simp [positive]
    | succ k =>
      have negative : ¬ (0 : Int) ≤ -((k + 1 : Nat) : Int) := by omega
      simp only [negative, if_false, positive, true_and, neg_neg, Int.toNat_natCast, Nat.pow_eq]
      rw [zpow_neg, zpow_natCast]
      push_cast
      field_simp

theorem scale_spec {n d : Nat} (positive : 0 < d) (e : Int) :
    0 < (scale n d e).2 ∧ ((scale n d e).1 : ℚ) / (scale n d e).2 = (n : ℚ) / d / 2 ^ e := by
  have shifted := shifted_fraction (n := n) (by decide : 0 < 2) positive e
  rwa [Nat.cast_ofNat] at shifted

/-- A natural number lies between the powers of two around its binary logarithm. -/
theorem log2_bounds {n : Nat} (positive : 0 < n) :
    (2 : ℚ) ^ (n.log2 : Int) ≤ n ∧ (n : ℚ) < 2 ^ ((n.log2 : Int) + 1) := by
  constructor
  · rw [zpow_natCast]
    exact_mod_cast Nat.log2_self_le positive.ne'
  · rw [show (n.log2 : Int) + 1 = ((n.log2 + 1 : Nat) : Int) from rfl, zpow_natCast]
    exact_mod_cast Nat.lt_log2_self

/-- The binary logarithms of its parts tell the size of a fraction up to a factor of two. -/
theorem quotient_bounds {n d : Nat} (large : 0 < n) (positive : 0 < d) :
    (2 : ℚ) ^ ((n.log2 : Int) - d.log2 - 1) ≤ (n : ℚ) / d ∧
      (n : ℚ) / d < 2 ^ ((n.log2 : Int) - d.log2 + 1) := by
  obtain ⟨nlow, nhigh⟩ := log2_bounds large
  obtain ⟨dlow, dhigh⟩ := log2_bounds positive
  have unit : (0 : ℚ) < d := by exact_mod_cast positive
  constructor
  · rw [le_div_iff₀ unit]
    calc (2 : ℚ) ^ ((n.log2 : Int) - d.log2 - 1) * d
        ≤ 2 ^ ((n.log2 : Int) - d.log2 - 1) * 2 ^ ((d.log2 : Int) + 1) :=
          mul_le_mul_of_nonneg_left dhigh.le (by positivity)
      _ = 2 ^ (n.log2 : Int) := by rw [← zpow_add₀ (by norm_num)]; congr 1; omega
      _ ≤ n := nlow
  · rw [div_lt_iff₀ unit]
    calc (n : ℚ) < 2 ^ ((n.log2 : Int) + 1) := nhigh
      _ = 2 ^ ((n.log2 : Int) - d.log2 + 1) * 2 ^ (d.log2 : Int) := by
          rw [← zpow_add₀ (by norm_num)]; congr 1; omega
      _ ≤ 2 ^ ((n.log2 : Int) - d.log2 + 1) * d := mul_le_mul_of_nonneg_left dlow (by positivity)

/-- At the exponent of a fraction its significand is below `2 ^ 53`, and full unless that exponent is
the least one. -/
theorem exponentOf_spec {n d : Nat} (large : 0 < n) (positive : 0 < d) :
    minExponent ≤ exponentOf n d ∧ (n : ℚ) / d < 2 ^ (exponentOf n d + 53) ∧
      (exponentOf n d = minExponent ∨ (2 : ℚ) ^ (exponentOf n d + 52) ≤ (n : ℚ) / d) := by
  obtain ⟨low, high⟩ := quotient_bounds large positive
  set e : Int := (n.log2 : Int) - (d.log2 : Int) - 52 with chosen
  rw [show (n.log2 : Int) - d.log2 - 1 = e + 51 by omega] at low
  rw [show (n.log2 : Int) - d.log2 + 1 = e + 53 by omega] at high
  obtain ⟨known, scaled⟩ := scale_spec (n := n) positive e
  have full : (scale n d e).1 / (scale n d e).2 < Nat.pow 2 (precision - 1) ↔
      (n : ℚ) / d < 2 ^ (e + 52) := by
    have count : (0 : ℚ) < (scale n d e).2 := by exact_mod_cast known
    rw [Nat.div_lt_iff_lt_mul known, ← Nat.cast_lt (α := ℚ), Nat.cast_mul, ← div_lt_iff₀ count,
      scaled, div_lt_iff₀ (by positivity), add_comm, zpow_add₀ (by norm_num)]
    norm_num [precision]
  -- below a full significand the exponent is one less, above it stays
  obtain ⟨f, same, lower, upper⟩ : ∃ f, exponentOf n d = max minExponent f ∧
      (2 : ℚ) ^ (f + 52) ≤ (n : ℚ) / d ∧ (n : ℚ) / d < 2 ^ (f + 53) := by
    by_cases small : (n : ℚ) / d < 2 ^ (e + 52)
    · refine ⟨e - 1, ?_, ?_, ?_⟩
      · simp only [exponentOf, ← chosen, if_pos (full.mpr small)]
      · rwa [show e - 1 + 52 = e + 51 by omega]
      · rwa [show e - 1 + 53 = e + 52 by omega]
    · refine ⟨e, ?_, not_lt.mp small, high⟩
      simp only [exponentOf, ← chosen, if_neg (full.not.mpr small)]
  rw [same]
  refine ⟨le_max_left _ _, upper.trans_le (zpow_le_zpow_right₀ (by norm_num) ?_), ?_⟩
  · omega
  · rcases le_total f minExponent with least | more
    · exact .inl (max_eq_left least)
    · exact .inr (by rwa [max_eq_right more])

/-- Whether a rational number lies within half a step of `m · 2 ^ e`. -/
structure Rounds (m : Nat) (e : Int) (x : ℚ) : Prop where
  low : (4 * m - if m = 2 ^ 52 ∧ minExponent < e then 1 else 2) * (2 : ℚ) ^ e ≤ 4 * x
  high : 4 * x ≤ (4 * m + 2) * (2 : ℚ) ^ e
  tie : m % 2 = 1 → (4 * m - 2) * (2 : ℚ) ^ e < 4 * x ∧ 4 * x < (4 * m + 2) * (2 : ℚ) ^ e

variable {n d m : Nat} {e : Int} {x : ℚ}

/-- What rounds to a positive number is at least half a step. -/
theorem Rounds.half_le (rounds : Rounds m e x) (large : 0 < m) : (2 : ℚ) ^ e ≤ 2 * x := by
  have step : (0 : ℚ) < 2 ^ e := by positivity
  have one : (1 : ℚ) ≤ m := by exact_mod_cast large
  have low : (4 * 1 - 2) * (2 : ℚ) ^ e ≤ 4 * x := by
    refine le_trans (mul_le_mul_of_nonneg_right ?_ step.le) rounds.low
    split <;> linarith
  linarith

/-- Only a positive number rounds to a positive one. -/
theorem Rounds.pos (rounds : Rounds m e x) (large : 0 < m) : 0 < x := by
  have step : (0 : ℚ) < 2 ^ e := by positivity
  linarith [rounds.half_le large]

/-- In units of the step a number lies within a half of what it rounds to. -/
theorem Rounds.close (rounds : Rounds m e x) : |x / 2 ^ e - m| ≤ 1 / 2 := by
  have step : (0 : ℚ) < 2 ^ e := by positivity
  have low : (4 * m - 2) * (2 : ℚ) ^ e ≤ 4 * x := by
    refine le_trans (mul_le_mul_of_nonneg_right ?_ step.le) rounds.low
    split <;> linarith
  have scaled : x / 2 ^ e * 2 ^ e = x := div_mul_cancel₀ x step.ne'
  refine abs_le.mpr ⟨?_, ?_⟩ <;> refine le_of_mul_le_mul_right ?_ step
  · linarith
  · linarith [rounds.high]

/-- Nothing of an odd significand lies a half away. -/
theorem Rounds.strictly_close (rounds : Rounds m e x) (odd : m % 2 = 1) : |x / 2 ^ e - m| < 1 / 2 := by
  have step : (0 : ℚ) < 2 ^ e := by positivity
  have scaled : x / 2 ^ e * 2 ^ e = x := div_mul_cancel₀ x step.ne'
  refine abs_lt.mpr ⟨?_, ?_⟩ <;> refine lt_of_mul_lt_mul_right ?_ step.le
  · linarith [(rounds.tie odd).1]
  · linarith [(rounds.tie odd).2]

/-- A power of two above another one, in units of it. -/
theorem two_zpow_add (e : Int) (k : Nat) : (2 : ℚ) ^ (e + k) = 2 ^ e * 2 ^ k := by
  rw [zpow_add₀ (by norm_num), zpow_natCast]

/-- What rounds to a significand below `2 ^ 53` lies below that many steps itself. -/
theorem Rounds.lt_pow (rounds : Rounds m e x) (small : m < 2 ^ 53) : x < 2 ^ (e + 53) := by
  have step : (0 : ℚ) < 2 ^ e := by positivity
  have top : (m : ℚ) + 1 ≤ 2 ^ 53 := by exact_mod_cast small
  have most := mul_le_mul_of_nonneg_left top step.le
  have power : (2 : ℚ) ^ (e + 53) = 2 ^ e * 2 ^ 53 := two_zpow_add e 53
  rw [power]
  linarith [rounds.high]

/-- What rounds to a full significand from below rounds up to a power of two, and is at least half of
it. -/
theorem Rounds.power_of_lt (rounds : Rounds m e x) (full : 2 ^ 52 ≤ m) (more : minExponent < e)
    (under : x < 2 ^ (e + 52)) : m = 2 ^ 52 ∧ (2 : ℚ) ^ (e + 51) ≤ x := by
  have step : (0 : ℚ) < 2 ^ e := by positivity
  have power : (2 : ℚ) ^ (e + 52) = 2 ^ e * 2 ^ 52 := two_zpow_add e 52
  have half : (2 : ℚ) ^ (e + 51) = 2 ^ e * 2 ^ 51 := two_zpow_add e 51
  have low := rounds.low
  rw [power] at under
  have same : m = 2 ^ 52 := by
    by_contra other
    have next : (2 : ℚ) ^ 52 + 1 ≤ m := by
      exact_mod_cast Nat.lt_of_le_of_ne full (Ne.symm other)
    have := mul_le_mul_of_nonneg_left next step.le
    rw [if_neg fun both => other both.1] at low
    linarith
  refine ⟨same, ?_⟩
  rw [if_pos ⟨same, more⟩, same] at low
  rw [half]
  push_cast at low
  linarith

/-- A fraction has the exponent of the number that it rounds to, or the one below if it lies below a
power of two and rounds up to it. -/
theorem exponentOf_of_rounds (small : m < 2 ^ 53) (least : minExponent ≤ e)
    (full : e = minExponent ∨ 2 ^ 52 ≤ m) (large : 0 < n) (positive : 0 < d)
    (rounds : Rounds m e ((n : ℚ) / d)) :
    exponentOf n d = e ∨ exponentOf n d = e - 1 ∧ m = 2 ^ 52 ∧ minExponent < e ∧
      (n : ℚ) / d < 2 ^ (e + 52) := by
  obtain ⟨lowest, below, above⟩ := exponentOf_spec large positive
  generalize exponentOf n d = f at *
  generalize (n : ℚ) / d = x at *
  have ordered {i j : Int} (order : (2 : ℚ) ^ i < 2 ^ j) : i < j :=
    (zpow_lt_zpow_iff_right₀ (by norm_num)).mp order
  by_cases under : x < 2 ^ (e + 52) ∧ minExponent < e
  · obtain ⟨under, more⟩ := under
    obtain ⟨power, half⟩ := rounds.power_of_lt (full.resolve_left more.ne') more under
    have lower : e + 51 < f + 53 := ordered (half.trans_lt below)
    have upper : f < e := by
      rcases above with rfl | above
      · exact more
      · have := ordered (above.trans_lt under)
        omega
    exact .inr ⟨by omega, power, more, under⟩
  · refine .inl ?_
    have upper : f ≤ e := by
      rcases above with rfl | above
      · exact least
      · have := ordered (above.trans_lt (rounds.lt_pow small))
        omega
    rcases least.eq_or_lt with rfl | more
    · omega
    · have normal : (2 : ℚ) ^ (e + 52) ≤ x := not_lt.mp fun less => under ⟨less, more⟩
      have := ordered (normal.trans_lt below)
      omega

/-- A positive fraction that rounds to a number in canonical form is read as that number. -/
theorem ofRatio_of_rounds {negative : Bool} (canonical : Canonical (.finite negative m e))
    (large : 0 < m) (positive : 0 < d) (rounds : Rounds m e ((n : ℚ) / d)) :
    ofRatio negative n d = .finite negative m e := by
  obtain ⟨small, least, most, full⟩ := canonical
  have step : (0 : ℚ) < 2 ^ e := by positivity
  have some : 0 < n := by
    rw [Nat.pos_iff_ne_zero]
    rintro rfl
    simpa using rounds.pos large
  obtain ⟨known, scaled⟩ := scale_spec (n := n) positive (exponentOf n d)
  unfold ofRatio
  rw [if_neg some.ne']
  rcases exponentOf_of_rounds small least full some positive rounds with
    same | ⟨less, power, more, under⟩
  · rw [same] at known scaled ⊢
    have close := nearest_of_abs (m := m) known (by rw [scaled]; exact rounds.close)
      fun odd => by rw [scaled]; exact rounds.strictly_close odd
    have not_over : m ≠ Nat.pow 2 precision := Nat.ne_of_lt small
    simp only [close, if_neg not_over, if_neg (not_lt.mpr most)]
  · rw [less] at known scaled ⊢
    have close : nearest (scale n d (e - 1)).1 (scale n d (e - 1)).2 = 2 ^ 53 := by
      refine nearest_of_abs known ?_ fun odd => absurd odd (by decide)
      have low := rounds.low
      rw [if_pos ⟨power, more⟩, power] at low
      rw [scaled, zpow_sub₀ (by norm_num), zpow_one]
      have top : (2 : ℚ) ^ (e + 52) = 2 ^ e * 2 ^ 52 := two_zpow_add e 52
      rw [top] at under
      generalize (n : ℚ) / d = x at *
      have half : x / (2 ^ e / 2) * 2 ^ e = 2 * x := by field_simp
      push_cast at low ⊢
      refine abs_le.mpr ⟨?_, ?_⟩ <;> refine le_of_mul_le_mul_right ?_ step
      · linarith
      · linarith
    have beyond : nearest (scale n d (e - 1)).1 (scale n d (e - 1)).2 = Nat.pow 2 precision := close
    simp only [if_pos beyond]
    rw [if_neg (by omega), show e - 1 + 1 = e by omega, power]
    rfl

end LiveDoc.Binary64
