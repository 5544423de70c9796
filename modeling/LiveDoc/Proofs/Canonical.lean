import LiveDoc.Proofs.Shortest

/-!
# Canonical forms of what is read

What a fraction rounds to is in canonical form, and so is every number that is read from digits.
Numbers that were read can therefore be written and read back.
-/

namespace LiveDoc.Binary64

/-- Rounding a fraction never leaves the interval between the integers around it. -/
theorem nearest_bounds {n d low high : Nat} (least : low ≤ n / d) (most : n / d < high) :
    low ≤ nearest n d ∧ nearest n d ≤ high := by
  rcases Decimal.nearest_cases n d with same | next
  · omega
  · omega

/-- The significand at the exponent of a fraction is at most `2 ^ 53`, and full unless that exponent
is the least one. -/
theorem significand_bounds {n d : Nat} (large : 0 < n) (positive : 0 < d) :
    let s := scale n d (exponentOf n d)
    s.1 / s.2 < 2 ^ 53 ∧ (exponentOf n d = minExponent ∨ 2 ^ 52 ≤ s.1 / s.2) := by
  intro s
  obtain ⟨-, upper, full⟩ := exponentOf_spec large positive
  obtain ⟨divisor, scaled⟩ := scale_spec (n := n) positive (exponentOf n d)
  have unit : (0 : ℚ) < s.2 := by exact_mod_cast divisor
  have power : (0 : ℚ) < 2 ^ exponentOf n d := by positivity
  constructor
  · rw [Nat.div_lt_iff_lt_mul divisor, ← Nat.cast_lt (α := ℚ), Nat.cast_mul, ← div_lt_iff₀ unit,
      scaled, div_lt_iff₀ power]
    rw [add_comm, zpow_add₀ (by norm_num)] at upper
    exact_mod_cast upper
  · refine full.imp id fun full => ?_
    rw [Nat.le_div_iff_mul_le divisor, ← Nat.cast_le (α := ℚ), Nat.cast_mul, ← le_div_iff₀ unit,
      scaled, le_div_iff₀ power]
    rw [add_comm, zpow_add₀ (by norm_num)] at full
    exact_mod_cast full

/-- A zero is in canonical form. -/
theorem canonical_zero (negative : Bool) : (zero negative).Canonical :=
  ⟨by decide, le_refl _, by decide, .inl rfl⟩

/-- What a fraction rounds to is in canonical form. -/
theorem canonical_ofRatio (negative : Bool) (n : Nat) {d : Nat} (positive : 0 < d) :
    (ofRatio negative n d).Canonical := by
  unfold ofRatio
  rcases Nat.eq_zero_or_pos n with rfl | large
  · rw [if_pos rfl]
    exact canonical_zero negative
  · rw [if_neg large.ne']
    obtain ⟨least, -⟩ := exponentOf_spec large positive
    obtain ⟨below, full⟩ := significand_bounds large positive
    simp only
    set e := exponentOf n d
    set s := scale n d e
    have most := (nearest_bounds (Nat.zero_le _) below).2
    split
    · split
      · trivial
      · exact ⟨by decide, by omega, by omega, .inr (le_refl _)⟩
    · rename_i short
      split
      · trivial
      · refine ⟨?_, least, by omega, full.imp id fun full => ?_⟩
        · exact lt_of_le_of_ne most short
        · exact (nearest_bounds full below).1

/-- What a decimal rounds to is in canonical form. -/
theorem canonical_ofDecimal (negative : Bool) (k : Nat) (e : Int) :
    (ofDecimal negative k e).Canonical := by
  unfold ofDecimal
  split
  · exact canonical_zero negative
  · simp only
    split
    · trivial
    · split
      · exact canonical_zero negative
      · split
        · exact canonical_ofRatio negative _ (by decide)
        · exact canonical_ofRatio negative _ (Nat.pow_pos (by decide))

end LiveDoc.Binary64
