import LiveDoc.Number.Decimal
import LiveDoc.Text.Digit
import LiveDoc.Proofs.Rounding
import Mathlib.Tactic.IntervalCases

/-!
# Shortest decimals

The digits with which a number is written lie in the interval that rounds to it: the search goes
through finer and finer grids and takes a point only from within the interval, and the finest grid is
fine enough for its nearest point to be there in any case.
-/

namespace LiveDoc.Decimal

open Binary64 (Rounds nearest)

/-- A power of a base as a quotient of two natural numbers, one of which is one. -/
theorem power_parts {base : Nat} (large : 0 < base) (e : Int) :
    0 < (if 0 ≤ e then 1 else Nat.pow base (-e).toNat) ∧
      ((if 0 ≤ e then Nat.pow base e.toNat else 1 : Nat) : ℚ) =
        (base : ℚ) ^ e * (if 0 ≤ e then 1 else Nat.pow base (-e).toNat : Nat) := by
  have unit : (base : ℚ) ≠ 0 := by exact_mod_cast large.ne'
  obtain ⟨k, rfl | rfl⟩ := e.eq_nat_or_neg
  · simp
  · cases k with
    | zero => simp
    | succ k =>
      have negative : ¬ (0 : Int) ≤ -((k + 1 : Nat) : Int) := by omega
      simp only [negative, if_false, neg_neg, Int.toNat_natCast, Nat.pow_eq]
      rw [zpow_neg, zpow_natCast]
      push_cast
      exact ⟨Nat.pow_pos large, by field_simp⟩

/-- The number at which an interval is asked is compared with its ends in its own unit. -/
theorem Interval.holds_spec {i : Interval} {k : Nat} {t : Int} (holds : i.holds k t = true) :
    (i.low : ℚ) ≤ k * 10 ^ t * i.unit ∧ k * 10 ^ t * i.unit ≤ (i.high : ℚ) ∧
      (i.closed = false → (i.low : ℚ) < k * 10 ^ t * i.unit ∧ k * 10 ^ t * i.unit < (i.high : ℚ)) := by
  obtain ⟨divisor, power⟩ := power_parts (by decide : 0 < 10) t
  have point : ((if 0 ≤ t then k * Nat.pow 10 t.toNat * i.unit else k * i.unit : Nat) : ℚ) =
      k * 10 ^ t * i.unit * (if 0 ≤ t then 1 else Nat.pow 10 (-t).toNat : Nat) := by
    rw [show (if 0 ≤ t then k * Nat.pow 10 t.toNat * i.unit else k * i.unit) =
      k * (if 0 ≤ t then Nat.pow 10 t.toNat else 1) * i.unit by split <;> ring]
    rw [Nat.cast_mul, Nat.cast_mul, power]
    push_cast
    ring
  have scale : (0 : ℚ) < (if 0 ≤ t then 1 else Nat.pow 10 (-t).toNat : Nat) := by
    exact_mod_cast divisor
  have weak {a b : ℚ} := mul_le_mul_iff_left₀ (b := a) (c := b) scale
  have strict {a b : ℚ} := mul_lt_mul_iff_left₀ (b := a) (c := b) scale
  unfold Interval.holds at holds
  simp only at holds
  cases closed : i.closed with
  | true =>
    simp only [closed, if_true, Bool.and_eq_true, decide_eq_true_eq] at holds
    rw [← Nat.cast_le (α := ℚ), ← Nat.cast_le (α := ℚ), point, Nat.cast_mul, Nat.cast_mul,
      weak, weak] at holds
    exact ⟨holds.1, holds.2, fun not => nomatch not⟩
  | false =>
    simp only [closed, Bool.false_eq_true, if_false, Bool.and_eq_true,
      decide_eq_true_eq] at holds
    rw [← Nat.cast_lt (α := ℚ), ← Nat.cast_lt (α := ℚ), point, Nat.cast_mul, Nat.cast_mul,
      strict, strict] at holds
    exact ⟨holds.1.le, holds.2.le, fun _ => holds⟩

variable {m : Nat} {e : Int}

/-- What lies in the interval of a number rounds to it. -/
theorem rounds_of_holds (large : 0 < m) {k : Nat} {t : Int}
    (holds : (rounding m e).holds k t = true) : Rounds m e (k * 10 ^ t) := by
  obtain ⟨low, high, strict⟩ := Interval.holds_spec holds
  obtain ⟨divisor, power⟩ := power_parts (by decide : 0 < 2) e
  have scale : (0 : ℚ) < (if 0 ≤ e then 1 else Nat.pow 2 (-e).toNat : Nat) := by
    exact_mod_cast divisor
  generalize (k : ℚ) * 10 ^ t = x at *
  have unit : ((rounding m e).unit : ℚ) =
      4 * (if 0 ≤ e then 1 else Nat.pow 2 (-e).toNat : Nat) := by
    simp only [rounding, Nat.cast_mul, Nat.cast_ofNat]
  have upper : ((rounding m e).high : ℚ) =
      (4 * m + 2) * 2 ^ e * (if 0 ≤ e then 1 else Nat.pow 2 (-e).toNat : Nat) := by
    simp only [rounding]
    rw [Nat.cast_mul, power]
    push_cast
    ring
  have lower : ((rounding m e).low : ℚ) =
      (4 * m - if m = 2 ^ 52 ∧ Binary64.minExponent < e then 1 else 2) * 2 ^ e *
        (if 0 ≤ e then 1 else Nat.pow 2 (-e).toNat : Nat) := by
    have narrow : (m == Nat.pow 2 (Binary64.precision - 1) && decide (Binary64.minExponent < e)) =
        decide (m = 2 ^ 52 ∧ Binary64.minExponent < e) := by
      simp [Binary64.precision, Bool.decide_and, beq_eq_decide]
    simp only [rounding, narrow, decide_eq_true_eq]
    rw [Nat.cast_mul, power, Nat.cast_sub (by split <;> omega)]
    push_cast
    ring
  rw [unit, lower] at low
  rw [unit, upper] at high
  rw [unit, lower, upper] at strict
  generalize ((if 0 ≤ e then 1 else Nat.pow 2 (-e).toNat : Nat) : ℚ) = down at *
  refine ⟨?_, ?_, fun odd => ?_⟩
  · refine le_of_mul_le_mul_right ?_ scale
    linarith
  · refine le_of_mul_le_mul_right ?_ scale
    linarith
  · have wide : ¬ (m = 2 ^ 52 ∧ Binary64.minExponent < e) := by
      rintro ⟨rfl, -⟩
      exact absurd odd (by decide)
    have opened : (rounding m e).closed = false := by
      simp [rounding, odd]
    obtain ⟨below, above⟩ := strict opened
    rw [if_neg wide] at below
    refine ⟨lt_of_mul_lt_mul_right ?_ scale.le, lt_of_mul_lt_mul_right ?_ scale.le⟩ <;> linarith

/-- The nearest integer is the one below or the one above. -/
theorem nearest_cases (n d : Nat) : nearest n d = n / d ∨ nearest n d = n / d + 1 := by
  unfold nearest
  simp only
  split
  · exact .inl rfl
  · split
    · exact .inr rfl
    · split <;> [exact .inl rfl; exact .inr rfl]

/-- The nearest integer is at most a half away. -/
theorem nearest_close {n d : Nat} (positive : 0 < d) : |(n : ℚ) / d - nearest n d| ≤ 1 / 2 := by
  have unit : (0 : ℚ) < d := by exact_mod_cast positive
  have whole : d * (n / d) + n % d = n := Nat.div_add_mod n d
  have short : n % d < d := Nat.mod_lt n positive
  have bounds : 2 * (nearest n d * d) ≤ 2 * n + d ∧ 2 * n ≤ 2 * (nearest n d * d) + d := by
    unfold nearest
    rw [Nat.mul_comm] at whole
    simp only
    split
    · omega
    · have next : (n / d + 1) * d = n / d * d + d := Nat.succ_mul _ _
      split
      · omega
      · split <;> omega
  have low : 2 * (nearest n d * (d : ℚ)) ≤ 2 * n + d := by exact_mod_cast bounds.1
  have high : 2 * (n : ℚ) ≤ 2 * (nearest n d * d) + d := by exact_mod_cast bounds.2
  have scaled : (n : ℚ) / d * d = n := div_mul_cancel₀ _ unit.ne'
  refine abs_le.mpr ⟨?_, ?_⟩ <;> refine le_of_mul_le_mul_right ?_ unit <;> linarith

/-- A point that is taken from a grid lies in the interval. -/
theorem holds_of_onGrid {i : Interval} {n d k : Nat} {t : Int} (taken : onGrid i n d t = some k) :
    i.holds k t = true := by
  unfold onGrid at taken
  simp only at taken
  generalize (scale n d t).1 = a at *
  generalize (scale n d t).2 = b at *
  cases below : i.holds (a / b) t <;> cases above : i.holds (a / b + 1) t <;>
    simp only [below, above, Bool.and_true, Bool.and_false, Bool.false_eq_true, if_false, if_true,
      Option.some.injEq, reduceCtorEq] at taken <;> subst taken
  · exact above
  · exact below
  · rcases nearest_cases a b with same | same <;> rw [same]
    · exact below
    · exact above

/-- The search ends with a point of a grid that lies in the interval, or with the nearest one of the
finest grid. -/
theorem search_induction {motive : Nat → Int → Prop} {i : Interval} {n d : Nat} {top : Int}
    (grid : ∀ k t, i.holds k t = true → motive k t) (fuel count : Nat)
    (finest : motive (nearest (scale n d (top - (count + fuel : Nat))).1
      (scale n d (top - (count + fuel : Nat))).2) (top - (count + fuel : Nat))) :
    let r := search i n d top fuel count
    motive r.1 r.2 := by
  induction fuel generalizing count with
  | zero => exact finest
  | succ fuel ih =>
    simp only [search]
    cases taken : onGrid i n d (top - count) with
    | some k => exact grid k _ (holds_of_onGrid taken)
    | none =>
      -- the next grid is finer by one digit, and the finest stays where it is
      refine ih (count + 1) ?_
      rwa [show count + 1 + fuel = count + (fuel + 1) by omega]

/-- The digits of a number are those of its usual representation. -/
theorem digits_eq (n : Nat) : digits n = Nat.toDigits 10 n := by
  simp [digits]

/-- A number with `k` digits is at least the power of ten that has as many. -/
theorem pow_length_le {n : Nat} (large : 0 < n) : 10 ^ (length n - 1) ≤ n := by
  rw [length, digits_eq]
  by_contra less
  have positive : 0 < (Nat.toDigits 10 n).length := Nat.length_toDigits_pos
  rcases Nat.eq_zero_or_pos ((Nat.toDigits 10 n).length - 1) with one | more
  · rw [one] at less
    omega
  · have := (Nat.length_toDigits_le_iff (by decide) more).mpr (not_le.mp less)
    omega

/-- And below the next one. -/
theorem lt_pow_length (n : Nat) : n < 10 ^ length n := by
  rw [length, digits_eq]
  exact (Nat.length_toDigits_le_iff (by decide) Nat.length_toDigits_pos).mp le_rfl

/-- The decimal exponent of a positive fraction gives a power of ten that is at most the fraction. -/
theorem pow_exponent_le {n d : Nat} (large : 0 < n) (positive : 0 < d) :
    (10 : ℚ) ^ exponent n d ≤ (n : ℚ) / d := by
  have unit : (0 : ℚ) < d := by exact_mod_cast positive
  have some : (0 : ℚ) < n := by exact_mod_cast large
  rw [le_div_iff₀ unit]
  unfold exponent
  split
  · rename_i beyond
    have quotient := pow_length_le (Nat.div_pos beyond positive)
    have least : 0 < length (n / d) := by
      rw [length, digits_eq]
      exact Nat.length_toDigits_pos
    rw [show (length (n / d) : Int) - 1 = (length (n / d) - 1 : Nat) by omega, zpow_natCast]
    exact_mod_cast (Nat.mul_le_mul_right d quotient).trans (Nat.div_mul_le_self n d)
  · have least : 0 < length (d / n) := by
      rw [length, digits_eq]
      exact Nat.length_toDigits_pos
    simp only
    split
    · rename_i enough
      rw [show -((length (d / n) : Int) - 1) = -((length (d / n) - 1 : Nat) : Int) by omega,
        zpow_neg, zpow_natCast, inv_mul_le_iff₀ (by positivity), mul_comm]
      exact_mod_cast enough
    · rw [zpow_neg, zpow_natCast, inv_mul_le_iff₀ (by positivity), mul_comm]
      have := (Nat.div_lt_iff_lt_mul large).mp (lt_pow_length (d / n))
      rw [Nat.mul_comm] at this
      exact_mod_cast this.le

theorem scale_spec {n d : Nat} (positive : 0 < d) (t : Int) :
    0 < (scale n d t).2 ∧ ((scale n d t).1 : ℚ) / (scale n d t).2 = (n : ℚ) / d / 10 ^ t := by
  have shifted := Binary64.shifted_fraction (n := n) (by decide : 0 < 10) positive t
  rwa [Nat.cast_ofNat] at shifted

/-- With eighteen digits the nearest point of a grid rounds to the number. -/
theorem rounds_of_finest (small : m < 2 ^ 53) {n d : Nat} (positive : 0 < d)
    {top : Int} (value : (n : ℚ) / d = m * 2 ^ e) (below : (10 : ℚ) ^ top ≤ (n : ℚ) / d) :
    Rounds m e (nearest (scale n d (top - 17)).1 (scale n d (top - 17)).2 * 10 ^ (top - 17)) := by
  obtain ⟨known, scaled⟩ := scale_spec (n := n) positive (top - 17)
  have close := nearest_close (n := (scale n d (top - 17)).1) known
  rw [scaled] at close
  generalize nearest (scale n d (top - 17)).1 (scale n d (top - 17)).2 = k at *
  rw [value] at below close
  have grid : (0 : ℚ) < 10 ^ (top - 17) := by positivity
  have step : (0 : ℚ) < 2 ^ e := by positivity
  have short : (m : ℚ) ≤ 2 ^ 53 := by exact_mod_cast small.le
  have fine : (10 : ℚ) ^ (top - 17) * 10 ^ 17 ≤ m * 2 ^ e := by
    rwa [← zpow_natCast, ← zpow_add₀ (by norm_num), show top - 17 + (17 : Nat) = top by omega]
  have most := mul_le_mul_of_nonneg_right short step.le
  have exact : (m : ℚ) * 2 ^ e / 10 ^ (top - 17) * 10 ^ (top - 17) = m * 2 ^ e :=
    div_mul_cancel₀ _ grid.ne'
  have low := mul_le_mul_of_nonneg_right (abs_le.mp close).1 grid.le
  have high := mul_le_mul_of_nonneg_right (abs_le.mp close).2 grid.le
  have narrow : (4 * m - if m = 2 ^ 52 ∧ Binary64.minExponent < e then 1 else 2) * (2 : ℚ) ^ e ≤
      (4 * m - 1) * 2 ^ e := by
    refine mul_le_mul_of_nonneg_right ?_ step.le
    split <;> linarith
  refine ⟨?_, ?_, fun _ => ⟨?_, ?_⟩⟩ <;> linarith

/-- With eighteen digits that point is not zero. -/
theorem pos_of_finest {n d : Nat} (positive : 0 < d) {top : Int}
    (below : (10 : ℚ) ^ top ≤ (n : ℚ) / d) :
    0 < nearest (scale n d (top - 17)).1 (scale n d (top - 17)).2 := by
  obtain ⟨known, scaled⟩ := scale_spec (n := n) positive (top - 17)
  have close := nearest_close (n := (scale n d (top - 17)).1) known
  rw [scaled] at close
  generalize nearest (scale n d (top - 17)).1 (scale n d (top - 17)).2 = k at *
  have grid : (0 : ℚ) < 10 ^ (top - 17) := by positivity
  have coarse : (10 : ℚ) ^ (top - 17) ≤ 10 ^ top := by
    gcongr
    · norm_num
    · omega
  have large : 1 ≤ (n : ℚ) / d / 10 ^ (top - 17) := (one_le_div₀ grid).mpr (coarse.trans below)
  have some : (0 : ℚ) < k := by linarith [(abs_le.mp close).2]
  exact_mod_cast some

/-! ## Digit lists -/

/-- The digits of a positive number: there is one, and the first is no zero. -/
structure Digits (ds : List Char) : Prop where
  present : ds ≠ []
  digit : ∀ c ∈ ds, Text.isAsciiDigit c = true
  leading : ds.head? ≠ some '0'

/-- The usual representation of a positive number starts with no zero. -/
theorem toDigits_head {n : Nat} (large : 0 < n) : (Nat.toDigits 10 n).head? ≠ some '0' := by
  induction n using Nat.strongRecOn with
  | ind n ih =>
    rcases Nat.lt_or_ge n 10 with single | more
    · rw [Nat.toDigits_of_lt_base single]
      interval_cases n <;> decide
    · rw [Nat.toDigits_of_base_le (by decide) more, List.head?_append_of_ne_nil _ Nat.toDigits_ne_nil]
      exact ih (n / 10) (by omega) (by omega)

/-- The usual representation consists of digits. -/
theorem isAsciiDigit_of_mem {n : Nat} {c : Char} (inside : c ∈ Nat.toDigits 10 n) :
    Text.isAsciiDigit c = true := by
  have ascii := Nat.isDigit_of_mem_toDigits (by decide) (by decide) inside
  simpa [Text.isAsciiDigit, Char.isDigit, Char.le_def, UInt32.le_iff_toNat_le] using ascii

theorem digits_toDigits {n : Nat} (large : 0 < n) : Digits (Nat.toDigits 10 n) :=
  ⟨Nat.toDigits_ne_nil, fun _ => isAsciiDigit_of_mem, toDigits_head large⟩

/-- Trimming takes zeros off the end and counts them. -/
theorem trim_spec (ds : List Char) (t : Int) :
    ∃ zeros, ds = (trim ds t).1 ++ List.replicate zeros '0' ∧ (trim ds t).2 = t + zeros := by
  refine ⟨(ds.reverse.takeWhile (· == '0')).length, ?_, rfl⟩
  have parts : ds = (ds.reverse.dropWhile (· == '0')).reverse ++
      (ds.reverse.takeWhile (· == '0')).reverse := by
    rw [← List.reverse_append, List.takeWhile_append_dropWhile, List.reverse_reverse]
  have zeros : (ds.reverse.takeWhile (· == '0')).reverse =
      List.replicate (ds.reverse.takeWhile (· == '0')).length '0' := by
    rw [List.eq_replicate_iff]
    refine ⟨List.length_reverse, fun c inside => ?_⟩
    simpa using List.all_eq_true.mp List.all_takeWhile c (List.mem_reverse.mp inside)
  have length : (ds.reverse.dropWhile (· == '0')).reverse.length =
      ds.length - (ds.reverse.takeWhile (· == '0')).length := by
    have := congrArg List.length parts
    rw [List.length_append, @List.length_reverse _ (List.takeWhile _ _)] at this
    omega
  have kept : (trim ds t).1 = (ds.reverse.dropWhile (· == '0')).reverse := by
    simp only [trim, ← length]
    nth_rewrite 2 [parts]
    exact List.take_left
  rw [kept, ← zeros]
  exact parts

/-- Trimming changes neither the number nor what makes digits those of a positive number. -/
theorem trim_digits {ds : List Char} (proper : Digits ds) (t : Int) :
    Digits (trim ds t).1 ∧ (Nat.ofDigitChars 10 (trim ds t).1 0 * 10 ^ (trim ds t).2 : ℚ) =
      Nat.ofDigitChars 10 ds 0 * 10 ^ t := by
  obtain ⟨zeros, parts, last⟩ := trim_spec ds t
  generalize (trim ds t).1 = kept at *
  rw [last]
  subst parts
  have some : kept ≠ [] := by
    rintro rfl
    cases zeros with
    | zero => exact proper.present rfl
    | succ zeros => exact proper.leading rfl
  refine ⟨⟨some, fun c inside => proper.digit c (List.mem_append_left _ inside), ?_⟩, ?_⟩
  · rw [← List.head?_append_of_ne_nil kept some]
    exact proper.leading
  · rw [Nat.ofDigitChars_append, Nat.ofDigitChars_replicate_zero, zpow_add₀ (by norm_num),
      zpow_natCast]
    push_cast
    ring

/-- The shortest digits of a positive number are proper digits, and what they write rounds to it if
it is small enough to be a significand. -/
theorem shortest_spec (large : 0 < m) :
    Digits (shortest m e).1 ∧ (m < 2 ^ 53 →
      Rounds m e (Nat.ofDigitChars 10 (shortest m e).1 0 * 10 ^ (shortest m e).2)) := by
  obtain ⟨down, power⟩ := power_parts (by decide : 0 < 2) e
  let n := if 0 ≤ e then m * Nat.pow 2 e.toNat else m
  let d := if 0 ≤ e then 1 else Nat.pow 2 (-e).toNat
  have unit : (0 : ℚ) < d := by exact_mod_cast down
  have value : (n : ℚ) / d = m * 2 ^ e := by
    rw [div_eq_iff unit.ne', show n = m * (if 0 ≤ e then Nat.pow 2 e.toNat else 1) by
      simp only [n]; split <;> simp, Nat.cast_mul, power, Nat.cast_ofNat]
    exact (mul_assoc _ _ _).symm
  have some : 0 < n := by
    simp only [n]
    split
    · exact Nat.mul_pos large (Nat.pow_pos (by decide))
    · exact large
  have below := pow_exponent_le some down
  have found : let r := search (rounding m e) n d (exponent n d) 17 0
      0 < r.1 ∧ (m < 2 ^ 53 → Rounds m e (r.1 * 10 ^ r.2)) := by
    refine search_induction (motive := fun k t => 0 < k ∧ (m < 2 ^ 53 → Rounds m e (k * 10 ^ t)))
      (fun k t holds => ?_) 17 0 ⟨pos_of_finest down below, fun small =>
        rounds_of_finest small down value below⟩
    have rounds := rounds_of_holds large holds
    refine ⟨Nat.pos_of_ne_zero fun zero => ?_, fun _ => rounds⟩
    simpa [zero] using rounds.pos large
  obtain ⟨proper, same⟩ := trim_digits (digits_toDigits found.1)
    (search (rounding m e) n d (exponent n d) 17 0).2
  rw [← digits_eq] at proper same
  refine ⟨proper, fun small => ?_⟩
  change Rounds m e (Nat.ofDigitChars 10 (trim _ _).1 0 * 10 ^ (trim _ _).2)
  rw [same, digits_eq, Nat.ofDigitChars_ten_toDigits]
  exact found.2 small

/-! ## Reading decimals -/

/-- A decimal lies between the powers of ten around it. -/
theorem decimal_bounds {k : Nat} (large : 0 < k) (t : Int) :
    (10 : ℚ) ^ (t + length k - 1) ≤ k * 10 ^ t ∧ (k : ℚ) * 10 ^ t < 10 ^ (t + length k) := by
  have count : 0 < length k := by
    rw [length, digits_eq]
    exact Nat.length_toDigits_pos
  have low : (10 : ℚ) ^ (length k - 1) ≤ k := by exact_mod_cast pow_length_le large
  have high : (k : ℚ) < 10 ^ length k := by exact_mod_cast lt_pow_length k
  constructor
  · rw [show t + length k - 1 = (length k - 1 : Nat) + t by omega, zpow_add₀ (by norm_num),
      zpow_natCast]
    exact mul_le_mul_of_nonneg_right low (by positivity)
  · rw [add_comm, zpow_add₀ (by norm_num), zpow_natCast]
    exact mul_lt_mul_of_pos_right high (by positivity)

/-- A decimal that rounds to a number is far from where decimals are taken for infinite or zero. -/
theorem rounds_range {k : Nat} {t : Int} {negative : Bool}
    (canonical : Binary64.Canonical (.finite negative m e)) (large : 0 < m)
    (rounds : Rounds m e (k * 10 ^ t)) :
    t + length k ≤ 400 ∧ -400 ≤ t + length k := by
  obtain ⟨small, least, most, -⟩ := canonical
  have some : 0 < k := by
    rw [Nat.pos_iff_ne_zero]
    rintro rfl
    simpa using rounds.pos large
  obtain ⟨low, high⟩ := decimal_bounds some t
  have largest : e ≤ 971 := most
  have ordered {i j : Int} (order : (10 : ℚ) ^ i < 10 ^ j) : i < j :=
    (zpow_lt_zpow_iff_right₀ (by norm_num)).mp order
  constructor
  · have top : (k : ℚ) * 10 ^ t < 10 ^ (400 : Int) := by
      calc (k : ℚ) * 10 ^ t < 2 ^ (e + 53) := rounds.lt_pow small
        _ ≤ 2 ^ (1024 : Int) := zpow_le_zpow_right₀ (by norm_num) (by omega)
        _ < 10 ^ (400 : Int) := by
          rw [zpow_ofNat, zpow_ofNat]
          exact_mod_cast (by decide +kernel : 2 ^ 1024 < 10 ^ 400)
    have := ordered (low.trans_lt top)
    omega
  · have bottom : (10 : ℚ) ^ (-400 : Int) < k * 10 ^ t := by
      have power : (2 : ℚ) ^ (-1074 : Int) ≤ 2 ^ e := zpow_le_zpow_right₀ (by norm_num) least
      calc (10 : ℚ) ^ (-400 : Int) < 2 ^ (-1074 : Int) / 2 := by
            rw [zpow_neg, zpow_neg, zpow_ofNat, zpow_ofNat, ← one_div, ← one_div, div_div,
              div_lt_div_iff_of_pos_left one_pos (by positivity) (by positivity)]
            exact_mod_cast (by decide +kernel : 2 ^ 1074 * 2 < 10 ^ 400)
        _ ≤ k * 10 ^ t := by linarith [rounds.half_le large]
    have := ordered (bottom.trans high)
    omega

/-- A decimal that rounds to a number in canonical form is read as that number. -/
theorem ofDecimal_of_rounds {k : Nat} {t : Int} {negative : Bool}
    (canonical : Binary64.Canonical (.finite negative m e)) (large : 0 < m)
    (rounds : Rounds m e (k * 10 ^ t)) :
    Binary64.ofDecimal negative k t = .finite negative m e := by
  obtain ⟨top, bottom⟩ := rounds_range canonical large rounds
  have some : k ≠ 0 := by
    rintro rfl
    simpa using rounds.pos large
  unfold Binary64.ofDecimal
  simp only
  rw [if_neg some, if_neg (by omega), if_neg (by omega)]
  split
  · rename_i up
    refine Binary64.ofRatio_of_rounds canonical large (by decide) ?_
    rw [← Int.toNat_of_nonneg up, zpow_natCast] at rounds
    simpa using rounds
  · rename_i down
    refine Binary64.ofRatio_of_rounds canonical large (Nat.pow_pos (by decide)) ?_
    rw [show t = -((-t).toNat : Int) by omega, zpow_neg, zpow_natCast] at rounds
    simpa [div_eq_mul_inv] using rounds

end LiveDoc.Decimal
