import LiveDoc.Calendar.Date
import LiveDoc.Calendar.Span

/-!
# Times of day and moments

A moment counts the microseconds of its wall clock since the start of year 1; an offset from UTC may
be attached. Adding a span moves the wall clock and keeps the offset.
-/

namespace LiveDoc

/-- A fixed offset from UTC, in microseconds, less than a day either way. -/
structure Zone where
  offset : Int
deriving DecidableEq, Repr, Inhabited

namespace Zone

/-- UTC itself. -/
def utc : Zone := ⟨0⟩

/-- The zone with an offset, if that is less than a day. -/
def ofOffset (micros : Int) : Except CalendarFault Zone :=
  if micros ≤ -(Calendar.microsPerDay : Int) ∨ (Calendar.microsPerDay : Int) ≤ micros then
    .error (.offsetOutOfRange micros)
  else .ok ⟨micros⟩

/-- The offset as `±HH:MM[:SS[.ffffff]]`. -/
def text (z : Zone) : String :=
  let n := z.offset.natAbs
  let sec := n / Calendar.microsPerSecond
  let us := n % Calendar.microsPerSecond
  (if z.offset < 0 then "-" else "+") ++ Calendar.padded 2 (sec / 3600) ++ ":" ++
    Calendar.padded 2 (sec / 60 % 60) ++
    (if sec % 60 = 0 ∧ us = 0 then "" else ":" ++ Calendar.padded 2 (sec % 60)) ++
    (if us = 0 then "" else "." ++ Calendar.padded 6 us)

/-- The zone's name: `UTC`, followed by the offset unless that is zero. -/
def name (z : Zone) : String := if z.offset = 0 then "UTC" else "UTC" ++ z.text

end Zone

/-- A time of day, perhaps with an offset from UTC. -/
structure ClockTime where
  micros : Nat
  zone : Option Zone
  inRange : micros < Calendar.microsPerDay
deriving DecidableEq, Repr

namespace ClockTime

instance : Inhabited ClockTime := ⟨⟨0, none, by decide⟩⟩

/-- The hour, from 0 to 23. -/
def hour (t : ClockTime) : Nat := t.micros / 3600000000

/-- The minute, from 0 to 59. -/
def minute (t : ClockTime) : Nat := t.micros / 60000000 % 60

/-- The second, from 0 to 59. -/
def second (t : ClockTime) : Nat := t.micros / 1000000 % 60

/-- The microsecond within the second. -/
def microsecond (t : ClockTime) : Nat := t.micros % 1000000

/-- The time with the given fields; the hour is looked at first, then the minute, then the second.
The microsecond must be less than a million. -/
def ofFields (hour minute second micro : Nat) (zone : Option Zone) :
    Except CalendarFault ClockTime :=
  if 23 < hour then .error .hourOutOfRange
  else if 59 < minute then .error .minuteOutOfRange
  else if 59 < second then .error .secondOutOfRange
  else
    let n := ((hour * 60 + minute) * 60 + second) * 1000000 + micro
    if h : n < Calendar.microsPerDay then .ok ⟨n, zone, h⟩ else .error .secondOutOfRange

/-- The time as `HH:MM:SS[.ffffff][±HH:MM]`. -/
def text (t : ClockTime) : String :=
  Calendar.padded 2 t.hour ++ ":" ++ Calendar.padded 2 t.minute ++ ":" ++
    Calendar.padded 2 t.second ++
    (if t.microsecond = 0 then "" else "." ++ Calendar.padded 6 t.microsecond) ++
    (match t.zone with | none => "" | some z => z.text)

end ClockTime

namespace Calendar

/-- Microseconds from the start of year 1 to the end of year 9999. -/
def lastMicro : Nat := lastDay * microsPerDay

end Calendar

/-- A date and a time of day, perhaps with an offset from UTC. `clock` is what the wall clock
shows. -/
structure Moment where
  clock : Nat
  zone : Option Zone
  inRange : clock < Calendar.lastMicro
deriving DecidableEq, Repr

namespace Moment

instance : Inhabited Moment := ⟨⟨0, none, by decide⟩⟩

/-- The moment at which the wall clock shows `n`, if the calendar reaches it. -/
def ofClock? (n : Int) (zone : Option Zone) : Option Moment :=
  if h : 0 ≤ n ∧ n.toNat < Calendar.lastMicro then some ⟨n.toNat, zone, h.2⟩ else none

/-- The moment of a day at a time. -/
def ofDateTime (d : Date) (t : ClockTime) : Moment :=
  { clock := (d.number - 1) * Calendar.microsPerDay + t.micros
    zone := t.zone
    inRange := by
      have hd := d.inRange
      have ht := t.inRange
      have : d.number - 1 + 1 ≤ Calendar.lastDay := by omega
      have := Nat.mul_le_mul_right Calendar.microsPerDay this
      simp only [Calendar.lastMicro]
      rw [Nat.add_mul] at this
      omega }

/-- The start of a day. -/
def midnight (d : Date) : Moment := ofDateTime d default

/-- The day the wall clock shows. -/
def date (m : Moment) : Date :=
  { number := m.clock / Calendar.microsPerDay + 1
    inRange := by
      have h := m.inRange
      simp only [Calendar.lastMicro] at h
      have : m.clock / Calendar.microsPerDay < Calendar.lastDay :=
        Nat.div_lt_of_lt_mul (by rw [Nat.mul_comm]; exact h)
      exact ⟨Nat.succ_le_succ (Nat.zero_le _), this⟩ }

/-- The time of day the wall clock shows. -/
def time (m : Moment) : ClockTime :=
  { micros := m.clock % Calendar.microsPerDay
    zone := m.zone
    inRange := Nat.mod_lt _ (by decide) }

/-- Microseconds since the start of year 1 in UTC, a moment without offset counting as UTC. -/
def instant (m : Moment) : Int :=
  (m.clock : Int) - (match m.zone with | none => 0 | some z => z.offset)

/-- The moment a span later, if the calendar reaches it. -/
def add? (m : Moment) (s : Span) : Option Moment := ofClock? ((m.clock : Int) + s.micros) m.zone

/-- The moment a span earlier, if the calendar reaches it. -/
def sub? (m : Moment) (s : Span) : Option Moment := ofClock? ((m.clock : Int) - s.micros) m.zone

/-- What the wall clock shows in UTC, without offset; a moment without offset is left as it is. -/
def naiveUtc? (m : Moment) : Option Moment :=
  match m.zone with
  | none => some m
  | some _ => ofClock? m.instant none

/-- Whether two moments are the same: both without offset and the wall clock agrees, or both with
one and the instant agrees. -/
def same (a b : Moment) : Bool :=
  a.zone.isSome == b.zone.isSome && a.instant == b.instant

/-- The moment as `YYYY-MM-DD`, a separator, and the time. -/
def textWith (m : Moment) (sep : String) : String := m.date.text ++ sep ++ m.time.text

/-- The moment with the separator `T`. -/
def text (m : Moment) : String := m.textWith "T"

end Moment

end LiveDoc
