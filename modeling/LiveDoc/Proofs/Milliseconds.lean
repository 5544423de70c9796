import LiveDoc.Proofs.BinaryValue
import LiveDoc.Proofs.CalendarFields
import LiveDoc.Proofs.LibraryDates

/-!
# Milliseconds since 1970

A number of milliseconds is divided by a thousand in binary64 and the quotient read to the nearest
microsecond. The quotient is less than half a microsecond off while it counts fewer than `2 ^ 33`
seconds, which is until 2242. Farther away the date can miss the exact one, by fifteen microseconds at
most, and it does so exactly if the quotient is off by more than half a microsecond.
-/

namespace LiveDoc

/-! ## The nearest microsecond -/

namespace Span

variable {n t : Int} {d : Nat}

/-- What the nearest integer leaves of a fraction is a half at most, and a half only beside an even
integer. -/
theorem exists_remainder (positive : 0 < d) :
    ∃ r : Int, n = nearest n d * d + r ∧ -d ≤ 2 * r ∧ 2 * r ≤ d ∧
      (2 * r = d ∨ 2 * r = -d → nearest n d % 2 = 0) := by
  have whole : (d : Int) * (n.fdiv d) + n.fmod d = n := Int.mul_fdiv_add_fmod n d
  have least : 0 ≤ n.fmod d := Int.fmod_nonneg_of_pos n (by omega)
  have short : n.fmod d < d := Int.fmod_lt_of_pos n (by omega)
  have next : (n.fdiv d + 1) * (d : Int) = d * n.fdiv d + d := by rw [Int.add_mul, Int.mul_comm]; omega
  unfold nearest
  simp only [not_lt.mpr (Int.natCast_nonneg d), if_false, Int.natAbs_natCast]
  generalize n.fmod d = r at *
  generalize n.fdiv d = q at *
  obtain ⟨k, rfl⟩ := Int.eq_ofNat_of_zero_le least
  rw [Int.toNat_natCast]
  split
  · exact ⟨k, by rw [Int.mul_comm q]; omega, by omega, by omega, by omega⟩
  · split
    · exact ⟨k - d, by omega, by omega, by omega, by omega⟩
    · split
      · exact ⟨k, by rw [Int.mul_comm q]; omega, by omega, by omega, fun _ => by assumption⟩
      · exact ⟨k - d, by omega, by omega, by omega, by omega⟩

/-- The nearest integer is half away at most. -/
theorem nearest_close (positive : 0 < d) : |(n : ℚ) / d - nearest n d| ≤ 1 / 2 := by
  obtain ⟨r, same, low, high, -⟩ := exists_remainder (n := n) positive
  have unit : (0 : ℚ) < d := by exact_mod_cast positive
  have rest : (n : ℚ) / d - nearest n d = r / d := by
    rw [div_sub' unit.ne']
    congr 1
    rw [sub_eq_iff_eq_add', mul_comm]
    exact_mod_cast same
  have low : -(d : ℚ) ≤ 2 * r := by exact_mod_cast low
  have high : 2 * (r : ℚ) ≤ d := by exact_mod_cast high
  rw [rest, abs_le, le_div_iff₀ unit, div_le_iff₀ unit]
  constructor <;> linarith

/-- An even integer that is half away at most is the nearest. -/
theorem nearest_of_even (positive : 0 < d) (even : t % 2 = 0)
    (close : |(n : ℚ) / d - t| ≤ 1 / 2) : nearest n d = t := by
  obtain ⟨r, same, low, high, tie⟩ := exists_remainder (n := n) positive
  have unit : (0 : ℚ) < d := by exact_mod_cast positive
  rw [div_sub' unit.ne', abs_le, le_div_iff₀ unit, div_le_iff₀ unit] at close
  have below : -(d : Int) ≤ 2 * (n - d * t) := by
    have : -(d : ℚ) ≤ 2 * (n - d * t) := by linarith [close.1]
    exact_mod_cast this
  have above : 2 * (n - d * t) ≤ (d : Int) := by
    have : 2 * ((n : ℚ) - d * t) ≤ d := by linarith [close.2]
    exact_mod_cast this
  generalize nearest n d = k at *
  obtain ⟨j, rfl⟩ : ∃ j, t = k + j := ⟨t - k, by omega⟩
  have step : (d : Int) * (k + j) = k * d + d * j := by ring
  have few : -1 ≤ j ∧ j ≤ 1 := by
    constructor <;> by_contra far
    · nlinarith
    · nlinarith
  obtain rfl | rfl | rfl : j = -1 ∨ j = 0 ∨ j = 1 := by omega
  · have := tie (.inr (by omega))
    omega
  · omega
  · have := tie (.inl (by omega))
    omega

end Span

namespace Moment

open Binary64

variable {s : Bool} {m : Nat} {e : Int} {c : ℚ}

/-- Whether an integer is the nearest to a rational number, a half going to the even neighbour. -/
structure IsNearest (c : ℚ) (k : Int) : Prop where
  close : |c - k| ≤ 1 / 2
  even : ∀ t : Int, t % 2 = 0 → |c - t| ≤ 1 / 2 → k = t

theorem isNearest_nearest {n : Int} {d : Nat} (positive : 0 < d) :
    IsNearest ((n : ℚ) / d) (Span.nearest n d) :=
  ⟨Span.nearest_close positive, fun _ even close => Span.nearest_of_even positive even close⟩

/-- Counting from an even integer on keeps what is nearest. -/
theorem IsNearest.add {k w : Int} (nearest : IsNearest c k) (even : w % 2 = 0) :
    IsNearest (w + c) (w + k) := by
  refine ⟨?_, fun t also close => ?_⟩
  · push_cast
    rw [add_sub_add_left_eq_sub]
    exact nearest.close
  · have same := nearest.even (t - w) (by omega) (by push_cast; rwa [sub_sub_eq_add_sub, add_comm c])
    omega

theorem million_eq : (ofInt? 1000000).getD .nan = .finite false 8589934592000000 (-33) := by
  decide +kernel

theorem value_million : value (.finite false 8589934592000000 (-33)) = 1000000 := by
  norm_num [value, signed]

/-- Behind the integer part a number of seconds has almost a million times its fraction in
microseconds, and just as many where its step is `2 ^ -19` seconds at least. -/
theorem exists_product (canonical : (Binary64.finite s m e).Canonical) :
    ∃ (w p : Int) (q : Nat), truncate? (.finite s m e) = some w ∧
      (mul (fraction (.finite s m e)) ((ofInt? 1000000).getD .nan)).ratio? = some (p, q) ∧ 0 < q ∧
      |(p : ℚ) / q| ≤ 1000000 + 2 ^ (-33 : Int) / 2 ∧
      |(w * 1000000 + p / q : ℚ) - 1000000 * value (.finite s m e)| ≤ 2 ^ (-33 : Int) / 2 ∧
      (-19 ≤ e → (w * 1000000 + p / q : ℚ) = 1000000 * value (.finite s m e)) := by
  obtain ⟨w, t, n, f, whole, rest, sum, short⟩ := exists_integerPart canonical
  have rounded := isRounded_mul t n f false 8589934592000000 (-33)
  rw [value_million] at rounded
  have size : |value (.finite t n f) * 1000000| < 2 ^ ((-33 : Int) + 53) := by
    rw [abs_mul]
    norm_num
    linarith
  have close := rounded.close (by decide) (by decide) size
  obtain ⟨sign, l, g, product, -⟩ := rounded.finite (by decide) size
  obtain ⟨⟨p, q⟩, ratio⟩ : ∃ r, (Binary64.finite sign l g).ratio? = some r := ⟨_, rfl⟩
  obtain ⟨positive, quotient⟩ := value_of_ratio ratio
  have exact (coarse : -19 ≤ e) : (p : ℚ) / q = value (.finite t n f) * 1000000 := by
    -- the fraction counts steps of `2 ^ -19`, so that its multiple still has few enough bits
    obtain ⟨a, bits, steps⟩ := exists_steps (k := 19) sum short coarse
    have exact := rounded.exact (a := a * 1000000) (b := -19) (by decide) (by decide)
      (by rw [abs_mul]; norm_num; omega) (by rw [steps]; push_cast; ring)
    rwa [product, quotient] at exact
  rw [product, quotient] at close
  refine ⟨w, p, q, whole, ?_, positive, ?_, ?_, fun coarse => ?_⟩
  · rw [rest, million_eq, product, ratio]
  · have := abs_sub_abs_le_abs_sub ((p : ℚ) / q) (value (.finite t n f) * 1000000)
    rw [abs_mul, abs_of_pos (by norm_num : (0 : ℚ) < 1000000)] at this
    linarith
  · rw [sum]
    convert close using 2
    ring
  · rw [sum, exact coarse]
    ring

/-- A number of seconds is split into whole ones and the microseconds beyond them, which count up to
the nearest integer to almost a million times the number. -/
theorem splitSeconds_spec (canonical : (Binary64.finite s m e).Canonical) :
    ∃ seconds micros c, splitSeconds (.finite s m e) = some (seconds, micros) ∧
      (0 ≤ micros ∧ micros < 1000000) ∧ IsNearest c (seconds * 1000000 + micros) ∧
      |c - 1000000 * value (.finite s m e)| ≤ 2 ^ (-33 : Int) / 2 ∧
      (-19 ≤ e → c = 1000000 * value (.finite s m e)) := by
  obtain ⟨w, p, q, whole, part, positive, size, close, exact⟩ := exists_product canonical
  have nearest := isNearest_nearest (n := p) positive
  have total : IsNearest (w * 1000000 + p / q) (w * 1000000 + Span.nearest p q) := by
    have := nearest.add (w := w * 1000000) (by omega)
    rwa [Int.cast_mul, Int.cast_ofNat] at this
  simp only [splitSeconds, whole, part, bind, Option.bind]
  generalize Span.nearest p q = k at *
  -- a fraction of almost one comes to a whole second, and never to more
  have bounds : -1000000 ≤ k ∧ k ≤ 1000000 := by
    have tiny : (2 : ℚ) ^ (-33 : Int) / 2 < 1 / 4 := by norm_num
    have low : (-1000001 : ℚ) < k := by linarith [(abs_le.mp size).1, (abs_le.mp nearest.close).2]
    have high : (k : ℚ) < 1000001 := by linarith [(abs_le.mp size).2, (abs_le.mp nearest.close).1]
    have low : -1000001 < k := by exact_mod_cast low
    have high : k < 1000001 := by exact_mod_cast high
    omega
  split
  · exact ⟨_, _, _, rfl, by omega, by convert total using 1; omega, close, exact⟩
  · split
    · exact ⟨_, _, _, rfl, by omega, by convert total using 1; omega, close, exact⟩
    · exact ⟨_, _, _, rfl, by omega, total, close, exact⟩

/-! ## The calendar -/

/-- A year near the calendar can be held in a broken-down time. -/
theorem yearOfDay_bounds {day : Int} (low : -1 ≤ day) (high : day ≤ Calendar.lastDay) :
    -maxYear ≤ yearOfDay day ∧ yearOfDay day ≤ maxYear := by
  have whole : cycleDays * day.fdiv cycleDays + day.fmod cycleDays = day :=
    Int.mul_fdiv_add_fmod day cycleDays
  have least : 0 ≤ day.fmod cycleDays := Int.fmod_nonneg_of_pos day (by decide)
  have short : day.fmod cycleDays < cycleDays := Int.fmod_lt_of_pos day (by decide)
  have limit : maxYear = 2147485547 := by decide
  unfold yearOfDay
  rw [limit]
  simp only [cycleDays, Calendar.lastDay] at *
  generalize day.fmod 146097 = rest at *
  generalize day.fdiv 146097 = cycles at *
  have year : Calendar.yearOf (rest.toNat + 1) ≤ 9999 :=
    Calendar.yearOf_le (by omega) (by simp only [Calendar.lastDay]; omega)
  omega

/-- Seconds and microseconds that count up to a clock of the calendar make the moment. -/
theorem ofSeconds_eq_ok {seconds micros : Int} {r : Moment}
    (split : splitSeconds (.finite s m e) = some (seconds, micros))
    (part : 0 ≤ micros ∧ micros < 1000000) (naive : r.zone = none)
    (clock : (epochDay * 86400 + seconds) * 1000000 + micros = r.clock) :
    ofSeconds (.finite s m e) = .ok r := by
  have reached := r.inRange
  have found : ofClock? ((epochDay * 86400 + seconds) * 1000000 + micros) none = some r :=
    ofClock?_eq_some.mpr ⟨clock, naive.symm⟩
  simp only [Calendar.lastMicro, Calendar.lastDay, Calendar.microsPerDay] at reached
  simp only [epochDay] at clock found
  have held : ¬ (seconds < -maxSeconds - 1 ∨ maxSeconds < seconds) := by
    have limit : maxSeconds = 9223372036854775807 := by decide
    rw [limit]
    omega
  have whole : 86400 * seconds.fdiv 86400 + seconds.fmod 86400 = seconds :=
    Int.mul_fdiv_add_fmod seconds 86400
  have least : 0 ≤ seconds.fmod 86400 := Int.fmod_nonneg_of_pos seconds (by decide)
  have short : seconds.fmod 86400 < 86400 := Int.fmod_lt_of_pos seconds (by decide)
  have represented : ¬ (yearOfDay (719162 + seconds.fdiv 86400) < -maxYear ∨
      maxYear < yearOfDay (719162 + seconds.fdiv 86400)) := by
    rw [not_or, not_lt, not_lt]
    exact yearOfDay_bounds (by omega) (by simp only [Calendar.lastDay]; omega)
  simp only [ofSeconds, split, epochDay, if_neg held, if_neg represented, found]

/-! ## Milliseconds -/

variable {n : Int}

/-- The moment a number of milliseconds after the start of 1970, if the calendar reaches it. -/
def ofMillis? (n : Int) : Option Moment := ofClock? ((epochDay * 86400000 + n) * 1000) none

/-- Whether the binary64 quotient of a number of milliseconds by a thousand is half a microsecond off
at most. -/
def IsClose (n : Int) : Prop :=
  ∃ x, ofQuotient? n 1000 = some x ∧ |1000000 * x.value - 1000 * n| ≤ 1 / 2

/-- In microseconds the quotient is off by a million times half its step at most, which is little for
fewer seconds, and not at all for whole seconds. -/
theorem exists_quotient {n : Int} (reached : |n| < 2 ^ 38 * 1000) :
    ∃ s m e, ofQuotient? n 1000 = some (.finite s m e) ∧ (Binary64.finite s m e).Canonical ∧
      |1000000 * value (.finite s m e) - 1000 * n| ≤ 1000000 * (2 ^ (-15 : Int) / 2) ∧
      (|n| < 2 ^ 33 * 1000 →
        |1000000 * value (.finite s m e) - 1000 * n| ≤ 1000000 * (2 ^ (-20 : Int) / 2)) ∧
      (2 ^ 33 * 1000 ≤ |n| → -19 ≤ e) ∧
      (1000 ∣ n → 1000000 * value (.finite s m e) = 1000 * n) := by
  have size : |(n : ℚ) / 1000| = (|n| : Int) / 1000 := by
    rw [abs_div, Int.cast_abs]
    norm_num
  have below {k : Nat} (small : |n| < 2 ^ k * 1000) : |(n : ℚ) / 1000| < 2 ^ (k : Int) := by
    rw [size, div_lt_iff₀ (by norm_num), zpow_natCast]
    exact_mod_cast small
  have inMicros {v step : ℚ} (close : |v - n / 1000| ≤ step) :
      |1000000 * v - 1000 * n| ≤ 1000000 * step := by
    rw [abs_le] at close ⊢
    constructor <;> linarith [close.1, close.2]
  have limit : |(n : ℚ) / 1000| < 2 ^ ((-15 : Int) + 53) := below reached
  obtain ⟨x, found, rounded⟩ := Binary64.exists_quotient (a := n) (c := 1000) (b := -15) (by decide)
    (by decide) limit
  rw [Int.cast_ofNat] at rounded
  obtain ⟨s, m, e, rfl, step⟩ := rounded.finite (by decide) limit
  refine ⟨s, m, e, found, rounded.canonical,
    inMicros (rounded.close (by decide) (by decide) limit),
    fun small => inMicros (rounded.close (by decide) (by decide) (below small)),
    fun large => step (-19) ?_, fun whole => ?_⟩
  · rw [size, le_div_iff₀ (by norm_num)]
    norm_num
    exact_mod_cast large
  · obtain ⟨a, rfl⟩ := whole
    have bits : |a| < 2 ^ 53 := by
      rw [abs_mul] at reached
      norm_num at reached ⊢
      omega
    have exact := rounded.exact (a := a) (b := 0) (by decide) (by decide) bits
      (by push_cast; field_simp)
    rw [exact]
    ring

/-- A number of milliseconds is counted in microseconds of its quotient. The count is fifteen off at
most, and exact exactly if the quotient is close, which it is for not too many seconds and for whole
ones. -/
theorem exists_count {n : Int} (reached : |n| < 2 ^ 38 * 1000) :
    ∃ s m e seconds micros, ofQuotient? n 1000 = some (.finite s m e) ∧
      splitSeconds (.finite s m e) = some (seconds, micros) ∧ (0 ≤ micros ∧ micros < 1000000) ∧
      |seconds * 1000000 + micros - 1000 * n| ≤ 15 ∧
      (seconds * 1000000 + micros = 1000 * n ↔ IsClose n) ∧
      (|n| < 2 ^ 33 * 1000 → IsClose n) ∧ (1000 ∣ n → IsClose n) := by
  obtain ⟨s, m, e, found, canonical, off, early, late, whole⟩ := exists_quotient reached
  obtain ⟨seconds, micros, c, split, part, nearest, almost, exact⟩ := splitSeconds_spec canonical
  have close : IsClose n ↔ |1000000 * value (.finite s m e) - 1000 * n| ≤ 1 / 2 := by
    simp [IsClose, found]
  generalize value (.finite s m e) = v at *
  generalize count : seconds * 1000000 + micros = k at *
  have beside := nearest.close
  norm_num at off early almost
  have close_of_early (small : |n| < 2 ^ 33 * 1000) : IsClose n := by
    rw [close]
    linarith [early small]
  have distance : |c - 1000 * n| ≤ |c - 1000000 * v| + |1000000 * v - 1000 * n| := abs_sub_le _ _ _
  refine ⟨s, m, e, seconds, micros, found, split, part, ?_, ⟨fun same => ?_, fun known => ?_⟩,
    close_of_early, fun round => ?_⟩
  · have near : |((k - 1000 * n : Int) : ℚ)| < 16 := by
      push_cast
      have := abs_sub_le (k : ℚ) c (1000 * n)
      rw [abs_sub_comm (k : ℚ) c] at this
      linarith
    have : |k - 1000 * n| < 16 := by exact_mod_cast near
    rw [count]
    omega
  · rw [count] at same
    by_cases small : |n| < 2 ^ 33 * 1000
    · exact close_of_early small
    · rw [exact (late (not_lt.mp small)), same] at beside
      rw [close]
      exact_mod_cast beside
  · rw [count]
    refine nearest.even (1000 * n) (by omega) ?_
    push_cast
    by_cases small : |n| < 2 ^ 33 * 1000
    · linarith [early small]
    · rw [exact (late (not_lt.mp small))]
      exact close.mp known
  · rw [close, whole round]
    norm_num

theorem ofMillis?_eq_some {r : Moment} :
    ofMillis? n = some r ↔ (epochDay * 86400000 + n) * 1000 = r.clock ∧ none = r.zone :=
  ofClock?_eq_some

theorem ofValue_int {now : Moment} {x : Binary64} (found : ofQuotient? n 1000 = some x) :
    ofValue now (.int n) = ofSeconds x := by
  have quotient : (Value.int n).div (.int 1000) = .ok (.float x) := by
    simp [Value.div, Value.integer?, Value.quotient, found]
  rw [ofValue, quotient]
  rfl

/-- Every number of milliseconds that the calendar reaches stands for a moment without offset, fifteen
microseconds off at most. -/
theorem exists_ofValue (now : Moment) {e : Moment} (reached : ofMillis? n = some e) :
    ∃ m, ofValue now (.int n) = .ok m ∧ m.zone = none ∧ |(m.clock : Int) - e.clock| ≤ 15 ∧
      (m = e ↔ IsClose n) := by
  obtain ⟨clock, naive⟩ := ofMillis?_eq_some.mp reached
  have inside := e.inRange
  simp only [epochDay] at clock
  simp only [Calendar.lastMicro, Calendar.lastDay, Calendar.microsPerDay] at inside
  have few : |n| < 2 ^ 38 * 1000 := by
    rw [abs_lt]
    omega
  obtain ⟨s, m, f, seconds, micros, found, split, part, off, count, -, round⟩ := exists_count few
  rw [abs_le] at off
  -- the calendar begins and ends with a whole second, where the count is exact
  have within : 0 ≤ (719162 * 86400 + seconds) * 1000000 + micros ∧
      (719162 * 86400 + seconds) * 1000000 + micros < 3652059 * 86400000000 := by
    by_cases whole : 1000 ∣ n
    · have := count.mpr (round whole)
      omega
    · omega
  obtain ⟨k, shown⟩ := Int.eq_ofNat_of_zero_le within.1
  let r : Moment := ⟨k, none, by
    simp only [Calendar.lastMicro, Calendar.lastDay, Calendar.microsPerDay]
    omega⟩
  have far : (r.clock : Int) - e.clock = seconds * 1000000 + micros - 1000 * n := by
    have : (r.clock : Int) = k := rfl
    omega
  refine ⟨r, (ofValue_int found).trans (ofSeconds_eq_ok split part rfl shown), rfl, ?_, ?_⟩
  · rw [far, abs_le]
    exact off
  · rw [← count]
    constructor
    · rintro same
      rw [same] at far
      omega
    · intro same
      exact eq_of_clock (by omega) naive

end Moment

namespace StandardName

variable {now a b e f : Moment} {n k : Int}

/-- The date of a number of milliseconds is that of the exact moment, as far as the quotient is close. -/
theorem exists_date (now : Moment) (reached : Moment.ofMillis? n = some e) : ∃ m : Moment,
    apply now .date [.int n] = .ok (.moment m) ∧ m.zone = none ∧
      |(m.clock : Int) - e.clock| ≤ 15 ∧ (m = e ↔ Moment.IsClose n) := by
  obtain ⟨m, read, rest⟩ := Moment.exists_ofValue now reached
  refine ⟨m, ?_, rest⟩
  rw [apply_date, read]
  rfl

/-- A moment close to whole milliseconds shows whole ones only there. -/
theorem dvd_microsecond_iff (reached : Moment.ofMillis? n = some e)
    (near : |(a.clock : Int) - e.clock| ≤ 15) (naive : a.zone = none) :
    1000 ∣ a.time.microsecond ↔ a = e := by
  obtain ⟨clock, zone⟩ := Moment.ofMillis?_eq_some.mp reached
  have micros : a.time.microsecond = a.clock % 86400000000 % 1000000 := rfl
  rw [abs_le] at near
  constructor
  · intro whole
    exact Moment.eq_of_clock (by omega) (naive.trans zone)
  · rintro rfl
    omega

/-- Later numbers make later dates: a millisecond is more than what the dates are off. -/
theorem date_strictMono (left : Moment.ofMillis? n = some e) (right : Moment.ofMillis? k = some f)
    (order : n < k) (first : apply now .date [.int n] = .ok (.moment a))
    (second : apply now .date [.int k] = .ok (.moment b)) : a.clock < b.clock := by
  obtain ⟨_, read, -, below, -⟩ := exists_date now left
  obtain ⟨_, later, -, above, -⟩ := exists_date now right
  obtain rfl := Value.moment.inj (Except.ok.inj (read.symm.trans first))
  obtain rfl := Value.moment.inj (Except.ok.inj (later.symm.trans second))
  obtain ⟨start, -⟩ := Moment.ofMillis?_eq_some.mp left
  obtain ⟨stop, -⟩ := Moment.ofMillis?_eq_some.mp right
  rw [abs_le] at below above
  omega

/-- A number of milliseconds makes a moment without offset that is fifteen microseconds off at most,
so that later numbers make later moments. It is the exact moment, and shows whole milliseconds,
exactly if the quotient by a thousand is half a microsecond off at most, as it is for fewer than
`2 ^ 33` seconds either way. -/
theorem date_millis (now : Moment) :
    (∀ n e, Moment.ofMillis? n = some e → ∃ m : Moment,
      apply now .date [.int n] = .ok (.moment m) ∧ m.zone = none ∧
        |(m.clock : Int) - e.clock| ≤ 15 ∧ (m = e ↔ Moment.IsClose n) ∧
        (1000 ∣ m.time.microsecond ↔ Moment.IsClose n)) ∧
      (∀ n : Int, |n| < 2 ^ 33 * 1000 → Moment.IsClose n) ∧
      ∀ (n k : Int) (e f a b : Moment), Moment.ofMillis? n = some e → Moment.ofMillis? k = some f →
        n < k → apply now .date [.int n] = .ok (.moment a) →
        apply now .date [.int k] = .ok (.moment b) → a.clock < b.clock := by
  refine ⟨fun n e reached => ?_, fun n few => ?_, fun n k e f a b => date_strictMono⟩
  · obtain ⟨m, read, naive, near, exact⟩ := exists_date now reached
    exact ⟨m, read, naive, near, exact, (dvd_microsecond_iff reached near naive).trans exact⟩
  · obtain ⟨_, _, _, _, _, -, -, -, -, -, early, -⟩ := Moment.exists_count (n := n) (by
      norm_num at few ⊢
      omega)
    exact early few

/-- The first millisecond of 1970 comes after its start, and both are exact. -/
theorem firstMillisecond_isExact :
    let start : Moment := ⟨719162 * 86400000000, none, by decide⟩
    let next : Moment := ⟨719162 * 86400000000 + 1000, none, by decide⟩
    Moment.ofMillis? 0 = some start ∧ Moment.ofMillis? 1 = some next ∧
      (|0| < (2 ^ 33 * 1000 : Int) ∧ |1| < (2 ^ 33 * 1000 : Int)) ∧
      apply default .date [.int 0] = .ok (.moment start) ∧
      apply default .date [.int 1] = .ok (.moment next) ∧ start.clock < next.clock := by
  intro start next
  have first : Moment.ofMillis? 0 = some start := Moment.ofMillis?_eq_some.mpr ⟨by decide, rfl⟩
  have second : Moment.ofMillis? 1 = some next := Moment.ofMillis?_eq_some.mpr ⟨by decide, rfl⟩
  have few : |0| < (2 ^ 33 * 1000 : Int) ∧ |1| < (2 ^ 33 * 1000 : Int) := by norm_num
  obtain ⟨dates, close, order⟩ := date_millis default
  obtain ⟨_, zero, -, -, same, -⟩ := dates 0 start first
  obtain ⟨_, one, -, -, also, -⟩ := dates 1 next second
  rw [same.mpr (close 0 few.1)] at zero
  rw [also.mpr (close 1 few.2)] at one
  exact ⟨first, second, few, zero, one, order 0 1 start next start next first second (by decide)
    zero one⟩

/-- Beyond `2 ^ 33` seconds a millisecond can be missed by a microsecond. -/
theorem millisecond_isMissed :
    let exact : Moment := ⟨719162 * 86400000000 + 8589934592001000, none, by decide⟩
    let early : Moment := ⟨719162 * 86400000000 + 8589934592000999, none, by decide⟩
    Moment.ofMillis? 8589934592001 = some exact ∧
      apply default .date [.int 8589934592001] = .ok (.moment early) ∧
      early.text = "2242-03-16T12:56:32.000999" ∧ exact.text = "2242-03-16T12:56:32.001000" := by
  intro exact early
  have reached : Moment.ofMillis? 8589934592001 = some exact :=
    Moment.ofMillis?_eq_some.mpr ⟨by decide, rfl⟩
  have read : Moment.ofValue default (.int 8589934592001) = .ok early := by decide +kernel
  refine ⟨reached, ?_, by decide +kernel, by decide +kernel⟩
  rw [apply_date, read]
  rfl

end StandardName

end LiveDoc
