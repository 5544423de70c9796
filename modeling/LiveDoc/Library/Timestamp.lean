import LiveDoc.Value.Arithmetic
import LiveDoc.Calendar.Iso
import LiveDoc.Calendar.Layout

/-!
# Dates from values

A number counts milliseconds since the start of 1970 in UTC, a text is read in one of several
layouts, and a moment with an offset is moved to UTC. The result has no offset.
-/

namespace LiveDoc

namespace Moment

/-- The number of days from the start of year 1 to the start of 1970. -/
def epochDay : Int := 719162

/-- The days in 400 years. -/
def cycleDays : Int := 146097

/-- The year of a day, counted from the start of year 1, in a calendar that has no bounds. -/
def yearOfDay (day : Int) : Int :=
  400 * day.fdiv cycleDays + Calendar.yearOf ((day.fmod cycleDays).toNat + 1)

/-- The years that a broken-down time can hold. -/
def maxYear : Int := Nat.pow 2 31 - 1 + 1900

/-- The number of years that 32 bits tell apart. -/
def yearCycle : Nat := Nat.pow 2 32

/-- The largest count of seconds. -/
def maxSeconds : Int := Nat.pow 2 63 - 1

/-- Whole seconds and microseconds of a binary64 number of seconds, the latter rounded to the
nearest, a half going to the even neighbour. -/
def splitSeconds (x : Binary64) : Option (Int × Int) := do
  let whole ← x.truncate?
  let part := Binary64.mul x.fraction ((Binary64.ofInt? 1000000).getD .nan)
  let micros ← match part.ratio? with
    | some (n, d) => some (Span.nearest n d)
    | none => none
  some (if 1000000 ≤ micros then (whole + 1, micros - 1000000)
    else if micros < 0 then (whole - 1, micros + 1000000)
    else (whole, micros))

/-- The moment in UTC of a binary64 number of seconds since the start of 1970. -/
def ofSeconds (x : Binary64) : Except Fault Moment :=
  match x, splitSeconds x with
  | .nan, _ => .error .timestampNan
  | _, none => .error .timestampOutOfRange
  | _, some (seconds, micros) =>
    if seconds < -maxSeconds - 1 ∨ maxSeconds < seconds then .error .timestampOutOfRange
    else
      let day := epochDay + seconds.fdiv 86400
      let year := yearOfDay day
      if year < -maxYear ∨ maxYear < year then .error .timestampUnrepresentable
      else match ofClock? ((epochDay * 86400 + seconds) * 1000000 + micros) none with
        | some m => .ok m
        | none => .error (.calendar (.yearOutOfRange (year.bmod yearCycle)))

/-- A moment without offset: what the clock shows in UTC. -/
def naive (m : Moment) : Except Fault Moment :=
  match m.naiveUtc? with
  | some m => .ok m
  | none => .error .dateOutOfRange

/-- The moment that a text writes in one of the layouts. -/
def ofText (s : String) : Except Fault Moment :=
  match Moment.ofIso? s with
  | some m => m.naive
  | none => match Moment.ofLayouts? s with
    | some m => .ok m
    | none => .error (.unrecognizedDate s)

/-- The moment that a value stands for; nothing stands for the present one. -/
def ofValue (now : Moment) (v : Value) : Except Fault Moment :=
  match v with
  | .null => .ok now
  | .int _ => do
    match ← v.div (.int 1000) with
    | .float x => ofSeconds x
    | _ => .error .dateExpected
  | .float _ => do
    match ← v.div (.int 1000) with
    | .float x => ofSeconds x
    | _ => .error .dateExpected
  | .moment m => m.naive
  | .date d => .ok (midnight d)
  | .text s => ofText s
  | _ => .error .dateExpected

end Moment

/-- The span of a number of days. -/
def Span.ofDaysValue (days : Value) : Except Fault Span :=
  let wrap := fun (r : Except SpanFault Span) => match r with
    | .ok s => .ok s
    | .error f => .error (Fault.span f)
  match days with
  | .float x => wrap (Span.ofDaysFloat x)
  | v => match v.integer? with
    | some n => wrap (Span.ofDays n)
    | none => .error (.spanDaysType v.qualifiedTypeName)

/-- The moment a number of days after the one that a value stands for. A moment given as such keeps
its offset. -/
def Value.addDays (now : Moment) (v days : Value) : Except Fault Value := do
  let m ← match v with
    | .moment m => .ok m
    | _ => Moment.ofValue now v
  let s ← Span.ofDaysValue days
  Value.ofMoment (m.add? s)

end LiveDoc
