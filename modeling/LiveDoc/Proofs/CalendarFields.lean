import LiveDoc.Calendar.Moment
import Mathlib.Tactic.Linarith

/-!
# Calendar fields

Year, month and day of a date lead back to the date, and hour, minute, second and microsecond of a
time of day to that time. The day numbers of a year lie behind those of the years before it, and the
estimate of the year by its mean length misses by one at most.
-/

namespace LiveDoc

namespace Calendar

variable {year month fuel rest day : Nat}

/-- The number of days in a year. -/
def daysInYear (year : Nat) : Nat := if isLeap year then 366 else 365

/-- A year begins where the one before it ends. -/
theorem daysBeforeYear_succ (some : 1 ≤ year) :
    daysBeforeYear (year + 1) = daysBeforeYear year + daysInYear year := by
  obtain ⟨k, rfl⟩ := Nat.exists_eq_add_of_le' some
  have leap : isLeap (k + 1) = true ↔ 4 ∣ k + 1 ∧ (¬ 100 ∣ k + 1 ∨ 400 ∣ k + 1) := by
    simp [isLeap, Nat.dvd_iff_mod_eq_zero]
  have century : 100 ∣ k + 1 → 4 ∣ k + 1 := Nat.dvd_trans (by decide)
  have cycle : 400 ∣ k + 1 → 100 ∣ k + 1 := Nat.dvd_trans (by decide)
  have fewer : k / 100 ≤ k / 4 := Nat.div_le_div_left (by decide) (by decide)
  simp only [daysBeforeYear, daysInYear, leap, Nat.add_sub_cancel, Nat.succ_div]
  by_cases fourth : 4 ∣ k + 1 <;> by_cases hundredth : 100 ∣ k + 1 <;>
    by_cases whole : 400 ∣ k + 1 <;> simp_all <;> omega

/-- Twelve months make a year. -/
theorem daysBeforeMonth_december (year : Nat) :
    daysBeforeMonth year 12 + daysInMonth year 12 = daysInYear year := by
  cases long : isLeap year <;> simp [daysInYear, daysBeforeMonth, daysInMonth, long]

/-- The days before a year are those of as many mean years, up to less than two days. -/
theorem daysBeforeYear_mean (year : Nat) :
    146097 * year ≤ 400 * daysBeforeYear (year + 1) + 699 ∧
      400 * daysBeforeYear (year + 1) ≤ 146097 * year + 396 := by
  have count : daysBeforeYear (year + 1) =
    year * 365 + year / 4 - year / 100 + year / 400 := rfl
  omega

/-- A later year begins later. -/
theorem daysBeforeYear_mono {earlier later : Nat} (some : 1 ≤ earlier) (order : earlier ≤ later) :
    daysBeforeYear earlier ≤ daysBeforeYear later := by
  induction order with
  | refl => exact le_refl _
  | step between ih =>
    rw [Nat.succ_eq_add_one, daysBeforeYear_succ (some.trans between)]
    exact ih.trans (Nat.le_add_right _ _)

theorem daysBeforeYear_one : daysBeforeYear 1 = 0 := rfl

theorem daysBeforeYear_last : daysBeforeYear 10000 = lastDay := rfl

/-- The year that is looked for is the one in which the day lies. -/
theorem yearOf_spec (some : 1 ≤ day) :
    1 ≤ yearOf day ∧ daysBeforeYear (yearOf day) < day ∧ day ≤ daysBeforeYear (yearOf day + 1) := by
  unfold yearOf
  dsimp only
  obtain ⟨k, guess⟩ := Nat.exists_eq_add_of_le'
    (show 1 ≤ (day * 400 + 146096) / 146097 by omega)
  rw [guess]
  split
  · rename_i late
    have := daysBeforeYear_mean (k + 1 + 1)
    exact ⟨by omega, late, by omega⟩
  · rename_i within
    split
    · rename_i early
      cases k with
      | zero =>
        rw [daysBeforeYear_one] at early
        omega
      | succ k =>
        have := daysBeforeYear_mean k
        exact ⟨by omega, by simp only [Nat.add_sub_cancel]; omega, early⟩
    · exact ⟨by omega, by omega, by omega⟩

/-- The last year of the calendar ends with its last day. -/
theorem yearOf_le (some : 1 ≤ day) (reached : day ≤ lastDay) : yearOf day ≤ 9999 := by
  by_contra beyond
  have begun := daysBeforeYear_mono (by decide : 1 ≤ 10000) (not_le.mp beyond)
  have after := (yearOf_spec some).2.1
  rw [daysBeforeYear_last] at begun
  omega

/-- The month that is looked for is the one in which the day lies. -/
theorem monthFrom_spec (months : month + fuel = 12) (some : 1 ≤ month)
    (inside : daysBeforeMonth year month + rest < daysInYear year) :
    let r := monthFrom year fuel month rest
    1 ≤ r.1 ∧ r.1 ≤ 12 ∧ r.2 < daysInMonth year r.1 ∧
      daysBeforeMonth year r.1 + r.2 = daysBeforeMonth year month + rest := by
  induction fuel generalizing month rest with
  | zero =>
    obtain rfl : month = 12 := months
    have := daysBeforeMonth_december year
    exact ⟨some, le_refl _, by simp only [monthFrom]; omega, rfl⟩
  | succ fuel ih =>
    rw [monthFrom]
    simp only
    split
    · rename_i short
      exact ⟨some, by omega, short, rfl⟩
    · rename_i long
      obtain ⟨k, rfl⟩ := Nat.exists_eq_add_of_le' some
      have next : daysBeforeMonth year (k + 2) =
          daysBeforeMonth year (k + 1) + daysInMonth year (k + 1) := rfl
      have later := @ih (k + 2) (rest - daysInMonth year (k + 1)) (by omega) (by omega) (by omega)
      refine ⟨later.1, later.2.1, later.2.2.1, ?_⟩
      rw [later.2.2.2]
      omega

theorem daysInMonth_le (year month : Nat) : daysInMonth year month ≤ 31 := by
  unfold daysInMonth
  split
  · split <;> omega
  · split <;> omega

end Calendar

namespace Date

open Calendar

theorem year_bounds (d : Date) : 1 ≤ d.year ∧ d.year ≤ 9999 :=
  ⟨(yearOf_spec d.inRange.1).1, yearOf_le d.inRange.1 d.inRange.2⟩

-- The search is a variable in what follows: comparing its parts by evaluation would run it.
theorem monthDay_of_search {d : Date} {found : Nat × Nat}
    (search : monthFrom d.year 11 1 (d.number - 1 - daysBeforeYear d.year) = found) :
    d.month = found.1 ∧ d.day = found.2 + 1 := by
  have both : d.monthDay = (found.1, found.2 + 1) := by
    rw [← search]
    rfl
  have functions : Date.month = fun d => d.monthDay.1 := rfl
  have month : d.month = d.monthDay.1 := congrFun functions d
  have day : d.day = d.monthDay.2 := rfl
  rw [month, day, both]
  exact ⟨rfl, rfl⟩

/-- Month and day are those of the calendar, and count up to the day within the year. -/
theorem monthDay_spec (d : Date) :
    (1 ≤ d.month ∧ d.month ≤ 12) ∧ (1 ≤ d.day ∧ d.day ≤ daysInMonth d.year d.month) ∧
      daysBeforeYear d.year + daysBeforeMonth d.year d.month + d.day = d.number := by
  obtain ⟨some, after, before⟩ := yearOf_spec d.inRange.1
  rw [daysBeforeYear_succ some] at before
  have year : yearOf d.number = d.year := rfl
  rw [year] at after before
  have within := @monthFrom_spec d.year 1 11 (d.number - 1 - daysBeforeYear d.year) rfl (le_refl 1)
    (by simp only [daysBeforeMonth]; omega)
  generalize search : monthFrom d.year 11 1 (d.number - 1 - daysBeforeYear d.year) = found at within
  obtain ⟨month, day⟩ := monthDay_of_search search
  rw [month, day]
  simp only [daysBeforeMonth, Nat.zero_add] at within
  omega

theorem day_bounds (d : Date) : 1 ≤ d.day ∧ d.day ≤ 31 :=
  ⟨d.monthDay_spec.2.1.1, d.monthDay_spec.2.1.2.trans (daysInMonth_le _ _)⟩

theorem ofNumber?_number (d : Date) : ofNumber? d.number = some d := by
  unfold ofNumber?
  exact dif_pos d.inRange

/-- Fields within their bounds make the date that they count up to. -/
theorem ofFields_of_total {d : Date} {y m k : Nat} (years : 1 ≤ y ∧ y ≤ 9999)
    (months : 1 ≤ m ∧ m ≤ 12) (days : 1 ≤ k ∧ k ≤ daysInMonth y m)
    (total : daysBeforeYear y + daysBeforeMonth y m + k = d.number) : ofFields y m k = .ok d := by
  unfold ofFields
  simp only [Int.toNat_natCast]
  rw [if_neg (by omega), if_neg (by omega), if_neg (by omega), total, ofNumber?_number]

/-- The fields of a date make the date. -/
theorem ofFields_fields (d : Date) : ofFields d.year d.month d.day = .ok d := by
  obtain ⟨months, days, total⟩ := d.monthDay_spec
  exact ofFields_of_total d.year_bounds months days total

end Date

namespace ClockTime

/-- The fields of a time of day make the time. -/
theorem ofFields_fields (t : ClockTime) :
    ofFields t.hour t.minute t.second t.microsecond t.zone = .ok t := by
  have short := t.inRange
  have total : ((t.hour * 60 + t.minute) * 60 + t.second) * 1000000 + t.microsecond = t.micros := by
    unfold hour minute second microsecond
    omega
  have hours : t.hour ≤ 23 := by
    unfold hour
    simp only [Calendar.microsPerDay] at short
    omega
  have minutes : t.minute ≤ 59 := by unfold minute; omega
  have seconds : t.second ≤ 59 := by unfold second; omega
  unfold ofFields
  rw [if_neg (by omega), if_neg (by omega), if_neg (by omega)]
  simp only [total]
  exact dif_pos short

end ClockTime

namespace Moment

/-- A moment is its day and its time of day. -/
theorem ofDateTime_date_time (m : Moment) : ofDateTime m.date m.time = m := by
  obtain ⟨clock, zone, inRange⟩ := m
  simp only [ofDateTime, date, time, Moment.mk.injEq, and_true]
  rw [Nat.add_sub_cancel]
  exact Nat.div_add_mod' clock Calendar.microsPerDay

end Moment

end LiveDoc
