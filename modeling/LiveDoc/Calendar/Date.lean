/-!
# The proleptic Gregorian calendar

A date is a day number, 1 standing for the first of January of year 1; year, month and day are read
off it. Day numbers reach the last day of year 9999.
-/

namespace LiveDoc

/-- Why calendar fields do not make a date or a time. -/
inductive CalendarFault where
  | yearOutOfRange (year : Int)
  | monthOutOfRange
  | dayOutOfRange
  | hourOutOfRange
  | minuteOutOfRange
  | secondOutOfRange
  | offsetOutOfRange (offset : Int)
deriving DecidableEq, Repr

namespace Calendar

/-- Whether a year has a 29 February. -/
def isLeap (year : Nat) : Bool := year % 4 == 0 && (year % 100 != 0 || year % 400 == 0)

/-- The number of days in a month, the months counted from 1. -/
def daysInMonth (year month : Nat) : Nat :=
  if month = 2 then if isLeap year then 29 else 28
  else if month = 4 ∨ month = 6 ∨ month = 9 ∨ month = 11 then 30
  else 31

/-- The number of days before the first of January of a year. -/
def daysBeforeYear (year : Nat) : Nat :=
  let y := year - 1
  y * 365 + y / 4 - y / 100 + y / 400

/-- The number of days in a year before a month. -/
def daysBeforeMonth (year : Nat) : Nat → Nat
  | 0 => 0
  | 1 => 0
  | month + 2 => daysBeforeMonth year (month + 1) + daysInMonth year (month + 1)

/-- The day number of the last day of year 9999. -/
def lastDay : Nat := 3652059

/-- The year that holds a day number: the estimate by mean years is at most one too high. -/
def yearOf (day : Nat) : Nat :=
  let guess := (day * 400 + 146096) / 146097
  if daysBeforeYear (guess + 1) < day then guess + 1
  else if day ≤ daysBeforeYear guess then guess - 1
  else guess

/-- The month that holds the day `rest` days into a year, looked for from `month` on. -/
def monthFrom (year : Nat) : Nat → Nat → Nat → Nat × Nat
  | 0, month, rest => (month, rest)
  | fuel + 1, month, rest =>
    let size := daysInMonth year month
    if rest < size then (month, rest) else monthFrom year fuel (month + 1) (rest - size)

end Calendar

/-- A calendar day, by its number. -/
structure Date where
  number : Nat
  inRange : 1 ≤ number ∧ number ≤ Calendar.lastDay
deriving DecidableEq, Repr

namespace Date

instance : Inhabited Date := ⟨⟨1, by decide⟩⟩

/-- The day with a number, if the calendar reaches it. -/
def ofNumber? (n : Int) : Option Date :=
  if h : 1 ≤ n.toNat ∧ n.toNat ≤ Calendar.lastDay then some ⟨n.toNat, h⟩ else none

/-- The year, from 1 to 9999. -/
def year (d : Date) : Nat := Calendar.yearOf d.number

/-- Month and day of the month, both from 1. -/
def monthDay (d : Date) : Nat × Nat :=
  let r := Calendar.monthFrom d.year 11 1 (d.number - 1 - Calendar.daysBeforeYear d.year)
  (r.1, r.2 + 1)

/-- The month, from 1 to 12. -/
def month (d : Date) : Nat := d.monthDay.1

/-- The day of the month, from 1. -/
def day (d : Date) : Nat := d.monthDay.2

/-- The date with the given fields; the year is looked at first, then the month, then the day. -/
def ofFields (year month day : Int) : Except CalendarFault Date :=
  if year < 1 ∨ 9999 < year then .error (.yearOutOfRange year)
  else if month < 1 ∨ 12 < month then .error .monthOutOfRange
  else if day < 1 ∨ Calendar.daysInMonth year.toNat month.toNat < day then .error .dayOutOfRange
  else
    let n := Calendar.daysBeforeYear year.toNat + Calendar.daysBeforeMonth year.toNat month.toNat +
      day.toNat
    match ofNumber? n with
    | some d => .ok d
    | none => .error (.yearOutOfRange year)

/-- The day of the week, 0 standing for Monday. -/
def weekday (d : Date) : Nat := (d.number + 6) % 7

end Date

namespace Calendar

/-- A number written with at least `width` digits. -/
def padded (width n : Nat) : String :=
  let s := toString n
  String.ofList (List.replicate (width - s.length) '0') ++ s

end Calendar

/-- The date as `YYYY-MM-DD`. -/
def Date.text (d : Date) : String :=
  Calendar.padded 4 d.year ++ "-" ++ Calendar.padded 2 d.month ++ "-" ++ Calendar.padded 2 d.day

end LiveDoc
