import LiveDoc.Library.Standard
import LiveDoc.Proofs.JsonText

/-!
# Dates of the library

A date of the library is a moment without offset. Reading a date gives one from whatever it accepts;
adding days keeps the offset of a moment that is given with one, and of these results alone no
difference with the others is taken. Days are added on the wall clock: the integers act on the moments
as far as the calendar reaches, and where it does not, every way to get there overflows.
-/

namespace LiveDoc

namespace Moment

variable {m r now : Moment} {z : Option Zone} {c n : Int}

/-- The clock reads a number within the calendar, and nothing else. -/
theorem ofClock?_eq_some : ofClock? c z = some m ↔ c = m.clock ∧ z = m.zone := by
  obtain ⟨clock, zone, inRange⟩ := m
  unfold ofClock?
  split
  · rename_i reached
    simp only [Option.some.injEq, Moment.mk.injEq]
    refine and_congr_left fun _ => ?_
    omega
  · rename_i beyond
    simp only [reduceCtorEq, false_iff]
    rintro ⟨rfl, -⟩
    exact beyond ⟨Int.natCast_nonneg _, inRange⟩

/-- Moments with the same clock and the same offset are the same. -/
theorem eq_of_clock (clock : (m.clock : Int) = r.clock) (zone : m.zone = r.zone) : m = r := by
  obtain ⟨_, _, _⟩ := m
  obtain ⟨_, _, _⟩ := r
  simp_all

/-! ## What the values stand for -/

theorem zone_naive (result : m.naive = .ok r) : r.zone = none := by
  unfold naive naiveUtc? at result
  cases zone : m.zone with
  | none =>
    rw [zone] at result
    obtain rfl := Except.ok.inj result
    exact zone
  | some z =>
    rw [zone] at result
    dsimp only at result
    split at result
    · rename_i found
      obtain rfl := Except.ok.inj result
      exact (ofClock?_eq_some.mp found).2.symm
    · contradiction

theorem naive_of_zone (zone : m.zone = none) : m.naive = .ok m := by
  simp only [naive, naiveUtc?, zone]

theorem zone_ofSeconds {x : Binary64} (result : ofSeconds x = .ok m) : m.zone = none := by
  unfold ofSeconds at result
  split at result
  · contradiction
  · contradiction
  · split at result
    · contradiction
    · dsimp only at result
      split at result
      · contradiction
      · split at result
        · rename_i found
          obtain rfl := Except.ok.inj result
          exact (ofClock?_eq_some.mp found).2.symm
        · contradiction

theorem zone_ofText {s : String} (result : ofText s = .ok m) : m.zone = none := by
  unfold ofText at result
  split at result
  · exact zone_naive result
  · split at result
    · rename_i found
      obtain rfl := Except.ok.inj result
      obtain ⟨d, -, rfl⟩ := Option.map_eq_some_iff.mp found
      rfl
    · contradiction

/-- Only nothing can stand for a moment with an offset, which then is the present one. -/
theorem zone_ofValue {x : Value} (given : x ≠ .null) (result : ofValue now x = .ok m) :
    m.zone = none := by
  unfold ofValue at result
  split at result
  case h_1 => contradiction
  case h_2 | h_3 =>
    obtain ⟨q, -, read⟩ := Json.bind_ok result
    split at read
    · exact zone_ofSeconds read
    · contradiction
  case h_4 => exact zone_naive result
  case h_5 =>
    obtain rfl := Except.ok.inj result
    rfl
  case h_6 => exact zone_ofText result
  case h_7 => contradiction

/-! ## Days later -/

/-- The moment a number of days later by the wall clock. -/
def daysLater (m : Moment) (n : Int) : Except Fault Moment :=
  match Span.ofDays n with
  | .error f => .error (.span f)
  | .ok s => match m.add? s with
    | some r => .ok r
    | none => .error .dateOutOfRange

/-- A number of days is a span of that many days, unless it is counted beyond nine digits. -/
theorem ofDays_cases (n : Int) :
    Span.ofDays n = .ok ⟨n * Calendar.microsPerDay⟩ ∨
      ∃ f, Span.ofDays n = .error f ∧ (Fault.span f).cls = .overflowError ∧
        (n < -Calendar.maxSpanDays ∨ Calendar.maxSpanDays < n) := by
  have counted : Calendar.maxSpanDays < Calendar.maxDayCount := by decide
  have whole : (n * (Calendar.microsPerDay : Int)).fdiv Calendar.microsPerDay = n :=
    Int.mul_fdiv_cancel n (by decide)
  unfold Span.ofDays Span.ofMicros
  simp only [whole]
  split
  · rename_i large
    exact .inr ⟨_, rfl, rfl, by omega⟩
  · split
    · rename_i large
      exact .inr ⟨_, rfl, rfl, large⟩
    · exact .inl rfl

/-- Days later the wall clock shows the same time, and the offset is the same. -/
theorem daysLater_eq_ok :
    m.daysLater n = .ok r ↔
      (r.clock : Int) = m.clock + n * Calendar.microsPerDay ∧ r.zone = m.zone := by
  rcases ofDays_cases n with span | ⟨f, fault, -, large⟩
  · have added : m.daysLater n = .ok r ↔
        ofClock? (m.clock + n * Calendar.microsPerDay) m.zone = some r := by
      simp only [daysLater, span, add?]
      cases ofClock? (m.clock + n * Calendar.microsPerDay) m.zone <;> simp
    rw [added, ofClock?_eq_some, eq_comm, eq_comm (a := m.zone)]
  · -- so many days lead out of the calendar from anywhere
    have failed : m.daysLater n = .error (.span f) := by simp only [daysLater, fault]
    rw [failed]
    simp only [reduceCtorEq, false_iff, not_and]
    have low := m.inRange
    have high := r.inRange
    simp only [Calendar.lastMicro, Calendar.lastDay, Calendar.microsPerDay,
      Calendar.maxSpanDays] at *
    intro same
    omega

/-- Whatever keeps a moment from being moved by days is an overflow. -/
theorem cls_of_daysLater {f : Fault} (failed : m.daysLater n = .error f) :
    f.cls = .overflowError := by
  unfold daysLater at failed
  rcases ofDays_cases n with span | ⟨g, fault, overflow, -⟩
  · rw [span] at failed
    dsimp only at failed
    split at failed
    · contradiction
    · obtain rfl := Except.error.inj failed
      rfl
  · rw [fault] at failed
    obtain rfl := Except.error.inj failed
    exact overflow

theorem daysLater_zero (m : Moment) : m.daysLater 0 = .ok m :=
  daysLater_eq_ok.mpr ⟨by simp, rfl⟩

/-- The days of two steps add up: the second step leads to where one step over both leads. -/
theorem daysLater_add {k : Int} (first : m.daysLater k = .ok r) {q : Moment} :
    r.daysLater n = .ok q ↔ m.daysLater (k + n) = .ok q := by
  obtain ⟨clock, zone⟩ := daysLater_eq_ok.mp first
  rw [daysLater_eq_ok, daysLater_eq_ok, clock, zone, Int.add_mul, Int.add_assoc]

end Moment

namespace StandardName

variable {now : Moment} {x y v w : Value} {m : Moment} {n k : Int}

/-- The moment from which days are counted: a moment as it is, and what any other value stands for. -/
def startOf (now : Moment) (x : Value) : Except Fault Moment :=
  match x with
  | .moment m => .ok m
  | x => Moment.ofValue now x

theorem apply_date (now : Moment) (x : Value) :
    apply now .date [x] = (Moment.ofValue now x).map .moment := by
  rw [apply]
  cases Moment.ofValue now x <;> rfl

/-- A span of days, made from their number, leads days later. -/
theorem plus_days (m : Moment) (n : Int) :
    (Span.ofDaysValue (.int n) >>= fun s => Value.ofMoment (m.add? s)) =
      (m.daysLater n).map .moment := by
  simp only [Span.ofDaysValue, Value.integer?, Moment.daysLater]
  cases Span.ofDays n with
  | error f => rfl
  | ok s =>
    change Value.ofMoment (m.add? s) = Except.map Value.moment
      (match m.add? s with
        | some r => .ok r
        | none => .error .dateOutOfRange)
    cases m.add? s <;> rfl

/-- Adding days is one step from the start. -/
theorem apply_addDays (now : Moment) (x : Value) (n : Int) :
    apply now .addDays [x, .int n] =
      (startOf now x).bind fun m => (m.daysLater n).map .moment := by
  have counted : apply now .addDays [x, .int n] = startOf now x >>= fun m =>
      Span.ofDaysValue (.int n) >>= fun s => Value.ofMoment (m.add? s) := by
    cases x <;> rfl
  rw [counted]
  exact congrArg (startOf now x).bind (funext fun m => plus_days m n)

/-- Adding days comes to a moment that is so many days later than the start. -/
theorem apply_addDays_eq_ok :
    apply now .addDays [x, .int n] = .ok v ↔
      ∃ m r, startOf now x = .ok m ∧ m.daysLater n = .ok r ∧ v = .moment r := by
  rw [apply_addDays]
  cases startOf now x with
  | error f => simp [Except.bind]
  | ok m =>
    simp only [Except.bind, Except.ok.injEq, exists_and_left, exists_eq_left']
    cases m.daysLater n <;> simp [Except.map, eq_comm]

/-- No days change no moment. -/
theorem apply_addDays_zero (now m : Moment) :
    apply now .addDays [.moment m, .int 0] = .ok (.moment m) :=
  apply_addDays_eq_ok.mpr ⟨m, m, rfl, m.daysLater_zero, rfl⟩

/-! ## Adding days as an action -/

/-- Two ways to a date end at the same one, or both by an overflow. -/
inductive SameOrOverflow : Except Fault Value → Except Fault Value → Prop where
  | same (v : Value) : SameOrOverflow (.ok v) (.ok v)
  | overflow {f g : Fault} : f.cls = .overflowError → g.cls = .overflowError →
      SameOrOverflow (.error f) (.error g)

/-- From wherever days can be added at all, adding them in two steps and in one step ends alike, and
adding none changes no moment. -/
theorem addDays_acts (now : Moment) :
    (∀ (x y : Value) (k n : Int), apply now .addDays [x, .int k] = .ok y →
      SameOrOverflow (apply now .addDays [y, .int n]) (apply now .addDays [x, .int (k + n)])) ∧
      ∀ m : Moment, apply now .addDays [.moment m, .int 0] = .ok (.moment m) := by
  refine ⟨fun x y k n first => ?_, apply_addDays_zero now⟩
  obtain ⟨m, r, start, later, rfl⟩ := apply_addDays_eq_ok.mp first
  have twice : apply now .addDays [.moment r, .int n] = (r.daysLater n).map .moment :=
    apply_addDays now (.moment r) n
  have once : apply now .addDays [x, .int (k + n)] = (m.daysLater (k + n)).map .moment := by
    rw [apply_addDays, start]
    rfl
  rw [twice, once]
  cases second : r.daysLater n with
  | ok q =>
    rw [(Moment.daysLater_add later).mp second]
    exact .same _
  | error f =>
    cases whole : m.daysLater (k + n) with
    | ok q =>
      rw [(Moment.daysLater_add later).mpr whole] at second
      contradiction
    | error g => exact .overflow (Moment.cls_of_daysLater second) (Moment.cls_of_daysLater whole)

/-- The leap day of 2020 is passed in two steps as in one. -/
theorem leapDay_isPassed :
    let february : Moment := Moment.midnight ⟨737483, by decide⟩
    let march : Moment := Moment.midnight ⟨737485, by decide⟩
    apply default .addDays [.moment march, .int (-2)] = .ok (.moment february) ∧
      SameOrOverflow (apply default .addDays [.moment february, .int 2])
        (apply default .addDays [.moment march, .int (-2 + 2)]) := by
  intro february march
  have back : apply default .addDays [.moment march, .int (-2)] = .ok (.moment february) :=
    apply_addDays_eq_ok.mpr
      ⟨march, february, rfl, Moment.daysLater_eq_ok.mpr ⟨by decide, rfl⟩, rfl⟩
  exact ⟨back, (addDays_acts default).1 _ _ _ 2 back⟩

/-! ## Offsets -/

/-- Whether a value is a moment without offset. -/
def IsNaive (v : Value) : Prop := ∃ m : Moment, v = .moment m ∧ m.zone = none

/-- Whether a value is a moment with an offset. -/
def HasOffset (v : Value) : Prop := ∃ m : Moment, v = .moment m ∧ m.zone ≠ none

/-- The results of the functions that make a date of a value. -/
inductive MakesDate (now : Moment) (x : Value) : Value → Prop where
  | date {v : Value} : apply now .date [x] = .ok v → MakesDate now x v
  | addDays (n : Int) {v : Value} : apply now .addDays [x, .int n] = .ok v → MakesDate now x v

/-- The date that a value stands for plus a number of days, added by the library's own sum. -/
def dateAndDays (now : Moment) (x : Value) (n : Int) : Except Fault Value := do
  let d ← apply now .date [x]
  let s ← Span.ofDaysValue (.int n)
  d.add (.span s)

theorem isNaive_date (given : x ≠ .null) (result : apply now .date [x] = .ok v) : IsNaive v := by
  rw [apply_date] at result
  obtain ⟨m, read, rfl⟩ := Json.map_ok result
  exact ⟨m, rfl, Moment.zone_ofValue given read⟩

/-- The start has an offset exactly if the value is a moment with one. -/
theorem zone_startOf (given : x ≠ .null) (start : startOf now x = .ok m) :
    m.zone = none ↔ ¬ HasOffset x := by
  unfold startOf at start
  split at start
  · obtain rfl := Except.ok.inj start
    simp [HasOffset]
  · rename_i other
    refine iff_of_true (Moment.zone_ofValue given start) ?_
    rintro ⟨r, same, -⟩
    exact other r same

/-- Without an offset the start is the date that the value stands for. -/
theorem startOf_of_not_hasOffset (plain : ¬ HasOffset x) : startOf now x = Moment.ofValue now x := by
  unfold startOf
  split
  · rename_i m
    have zone : m.zone = none := by
      by_contra some
      exact plain ⟨m, rfl, some⟩
    exact (Moment.naive_of_zone zone).symm
  · rfl

/-- What is made of a value has an offset exactly if days are added to a moment with one. -/
theorem isNaive_addDays (given : x ≠ .null) (result : apply now .addDays [x, .int n] = .ok v) :
    IsNaive v ↔ ¬ HasOffset x := by
  obtain ⟨m, r, start, later, rfl⟩ := apply_addDays_eq_ok.mp result
  rw [← zone_startOf given start, ← (Moment.daysLater_eq_ok.mp later).2]
  simp [IsNaive]

/-- Without an offset there is none in what is made of a value either. -/
theorem isNaive_of_makesDate (given : x ≠ .null) (plain : ¬ HasOffset x)
    (made : MakesDate now x v) : IsNaive v := by
  cases made with
  | date result => exact isNaive_date given result
  | addDays n result => exact (isNaive_addDays given result).mpr plain

theorem dateAndDays_eq (now : Moment) (x : Value) (n : Int) :
    dateAndDays now x n = (Moment.ofValue now x).bind fun m => (m.daysLater n).map .moment := by
  unfold dateAndDays
  rw [apply_date]
  cases Moment.ofValue now x with
  | error f => rfl
  | ok m => exact plus_days m n

/-- Two dates have a difference exactly if both have an offset or neither has. -/
theorem sub_defined_iff (m r : Moment) :
    (∃ s, (Value.moment m).sub (.moment r) = .ok (.span s)) ↔ (m.zone = none ↔ r.zone = none) := by
  have difference : (Value.moment m).sub (.moment r) =
      if m.zone.isSome = r.zone.isSome then .ok (.span ⟨m.instant - r.instant⟩)
      else .error .mixedOffsets := rfl
  rw [difference]
  cases m.zone <;> cases r.zone <;> simp

/-- Everything that is made a date of has no offset, except that days added to a moment with one leave
it there: exactly then adding days is not the date plus the days, and the result has no difference
with the dates that are made of the values without offset. -/
theorem makesDate_naive (now : Moment) {x : Value} (given : x ≠ .null) :
    (∀ v, apply now .date [x] = .ok v → IsNaive v) ∧
      (∀ n v, apply now .addDays [x, .int n] = .ok v → (IsNaive v ↔ ¬ HasOffset x)) ∧
      ((∀ n, apply now .addDays [x, .int n] = dateAndDays now x n) ↔ ¬ HasOffset x) ∧
      ((∀ y v w, y ≠ .null → ¬ HasOffset y → MakesDate now x v → MakesDate now y w →
        ∃ s, v.sub w = .ok (.span s)) ↔ ¬ HasOffset x) := by
  refine ⟨fun v => isNaive_date given, fun n v => isNaive_addDays given,
    ⟨fun same => ?_, fun plain n => ?_⟩, ⟨fun defined => ?_, fun plain y v w some offsetless => ?_⟩⟩
  · rintro ⟨m, rfl, offset⟩
    have sum := (same 0).symm.trans (apply_addDays_zero now m)
    rw [dateAndDays_eq] at sum
    obtain ⟨d, read, moved⟩ := Json.bind_ok sum
    obtain ⟨r, later, kept⟩ := Json.map_ok moved
    obtain rfl := Value.moment.inj kept
    rw [(Moment.daysLater_eq_ok.mp later).2] at offset
    exact offset (Moment.zone_ofValue given read)
  · rw [apply_addDays, dateAndDays_eq, startOf_of_not_hasOffset plain]
  · rintro ⟨m, rfl, offset⟩
    -- a date without offset to take the difference with
    have plain : ¬ HasOffset (.moment default) := by
      rintro ⟨r, same, some⟩
      obtain rfl := Value.moment.inj same
      exact some rfl
    have difference := defined (.moment default) (.moment m) (.moment default) nofun plain
      (.addDays 0 (apply_addDays_zero now m)) (.addDays 0 (apply_addDays_zero now default))
    exact offset (((sub_defined_iff m default).mp difference).mpr rfl)
  · intro left right
    obtain ⟨m, rfl, first⟩ := isNaive_of_makesDate given plain left
    obtain ⟨r, rfl, second⟩ := isNaive_of_makesDate some offsetless right
    exact (sub_defined_iff m r).mpr (iff_of_true first second)

/-- A day after a text with an offset is counted from the moment in UTC. -/
theorem offsetText_isNaive :
    (Value.text "2020-03-01T02:00:00+02:00" ≠ .null) ∧
      ¬ HasOffset (.text "2020-03-01T02:00:00+02:00") ∧
      apply default .addDays [.text "2020-03-01T02:00:00+02:00", .int 1] =
        dateAndDays default (.text "2020-03-01T02:00:00+02:00") 1 := by
  have given : Value.text "2020-03-01T02:00:00+02:00" ≠ .null := nofun
  have plain : ¬ HasOffset (.text "2020-03-01T02:00:00+02:00") := by
    rintro ⟨_, ⟨⟩, -⟩
  exact ⟨given, plain, ((makesDate_naive default given).2.2.1.mpr plain) 1⟩

/-- The start of 2024 two hours ahead of UTC keeps its offset when days are added, so that it has no
difference with its own date. -/
theorem offset_isKept :
    let ahead : Moment := ⟨738885 * 86400000000, some ⟨7200000000⟩, by decide⟩
    let later : Moment := ⟨738886 * 86400000000, some ⟨7200000000⟩, by decide⟩
    let utc : Moment := ⟨738884 * 86400000000 + 79200000000, none, by decide⟩
    apply default .addDays [.moment ahead, .int 1] = .ok (.moment later) ∧
      apply default .date [.moment ahead] = .ok (.moment utc) ∧
      (Value.moment later).sub (.moment utc) = .error .mixedOffsets := by
  intro ahead later utc
  have moved : ahead.daysLater 1 = .ok later := Moment.daysLater_eq_ok.mpr ⟨by decide, rfl⟩
  have read : ahead.naiveUtc? = some utc := Moment.ofClock?_eq_some.mpr ⟨by decide, rfl⟩
  refine ⟨apply_addDays_eq_ok.mpr ⟨ahead, later, rfl, moved, rfl⟩, ?_, rfl⟩
  simp only [apply_date, Moment.ofValue, Moment.naive, read]
  rfl

end StandardName

end LiveDoc
