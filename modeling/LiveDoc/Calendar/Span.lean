import LiveDoc.Number.Binary64

/-!
# Spans of time

A span is a whole number of microseconds whose day count has at most nine digits. Factors and
quotients are exact and then rounded once, a half going to the even microsecond.
-/

namespace LiveDoc

namespace Calendar

/-- Microseconds in a second. -/
def microsPerSecond : Nat := 1000000

/-- Microseconds in a day. -/
def microsPerDay : Nat := 86400000000

/-- The largest number of days that is counted at all. -/
def maxDayCount : Int := Nat.pow 2 31 - 1

/-- The largest number of days in a span, of either sign. -/
def maxSpanDays : Int := 999999999

end Calendar

/-- A duration in microseconds. -/
structure Span where
  micros : Int
deriving DecidableEq, Repr, Inhabited

/-- Why an operation on spans has no result. -/
inductive SpanFault where
  | tooManyDays (days : Int)
  | dayCountTooLarge
  | infiniteDays
  | nanDays
  | nanRatio
  | infiniteRatio
  | divisionByZero
deriving DecidableEq, Repr

namespace Span

/-- Whole days, rounded down. -/
def days (s : Span) : Int := s.micros.fdiv Calendar.microsPerDay

/-- Seconds beyond the whole days. -/
def seconds (s : Span) : Nat :=
  ((s.micros.fmod Calendar.microsPerDay).fdiv Calendar.microsPerSecond).toNat

/-- Microseconds beyond the whole seconds. -/
def microseconds (s : Span) : Nat := (s.micros.fmod Calendar.microsPerSecond).toNat

/-- The span of a number of microseconds, if its day count is in range. -/
def ofMicros (n : Int) : Except SpanFault Span :=
  let d := n.fdiv Calendar.microsPerDay
  if d < -Calendar.maxDayCount - 1 ∨ Calendar.maxDayCount < d then .error .dayCountTooLarge
  else if d < -Calendar.maxSpanDays ∨ Calendar.maxSpanDays < d then .error (.tooManyDays d)
  else .ok ⟨n⟩

/-- The sum of two spans. -/
def add (a b : Span) : Except SpanFault Span := ofMicros (a.micros + b.micros)

/-- The difference of two spans. -/
def sub (a b : Span) : Except SpanFault Span := ofMicros (a.micros - b.micros)

/-- The integer nearest to `n / d`, a half going to the even neighbour. -/
def nearest (n d : Int) : Int :=
  let p := if d < 0 then -n else n
  let q := p.fdiv d.natAbs
  let r := (p.fmod d.natAbs).toNat
  if 2 * r < d.natAbs then q
  else if d.natAbs < 2 * r then q + 1
  else if q % 2 = 0 then q else q + 1

/-- An integer multiple of a span. -/
def mulInt (s : Span) (k : Int) : Except SpanFault Span := ofMicros (s.micros * k)

/-- A fraction of a span by an integer divisor. -/
def divInt (s : Span) (k : Int) : Except SpanFault Span :=
  if k = 0 then .error .divisionByZero else ofMicros (nearest s.micros k)

/-- The exact fraction that a binary64 factor stands for. -/
def ratio (x : Binary64) : Except SpanFault (Int × Nat) :=
  match x with
  | .nan => .error .nanRatio
  | .infinite _ => .error .infiniteRatio
  | _ => match x.ratio? with
    | some r => .ok r
    | none => .error .nanRatio

/-- A multiple of a span by a binary64 factor. -/
def mulFloat (s : Span) (x : Binary64) : Except SpanFault Span := do
  let r ← ratio x
  ofMicros (nearest (s.micros * r.1) r.2)

/-- A span divided by a binary64 number. -/
def divFloat (s : Span) (x : Binary64) : Except SpanFault Span := do
  let r ← ratio x
  if r.1 = 0 then .error .divisionByZero else ofMicros (nearest (s.micros * r.2) r.1)

/-- A whole number of days. -/
def ofDays (n : Int) : Except SpanFault Span := ofMicros (n * Calendar.microsPerDay)

/-- A binary64 number of days: whole days exactly, and the fraction as the rounded product with the
length of a day, to the nearest microsecond with ties to even. -/
def ofDaysFloat (x : Binary64) : Except SpanFault Span :=
  match x, x.truncate? with
  | .nan, _ => .error .nanDays
  | _, none => .error .infiniteDays
  | _, some whole =>
    let rest := Binary64.mul (Binary64.ofRatio false Calendar.microsPerDay 1) x.fraction
    match rest.ratio? with
    | none => ofMicros (whole * Calendar.microsPerDay)
    | some (p, q) => ofMicros (nearest (whole * Calendar.microsPerDay * q + p) q)

/-- Minutes and seconds with two digits. -/
def two (n : Nat) : String := if n < 10 then "0" ++ toString n else toString n

/-- The span as `[D day[s], ]H:MM:SS[.ffffff]`. -/
def text (s : Span) : String :=
  let d := s.days
  let sec := s.seconds
  let us := s.microseconds
  let head :=
    if d = 0 then ""
    else toString d ++ (if d.natAbs = 1 then " day, " else " days, ")
  let tail :=
    if us = 0 then ""
    else "." ++ String.ofList (List.replicate (6 - (toString us).length) '0') ++ toString us
  head ++ toString (sec / 3600) ++ ":" ++ two (sec / 60 % 60) ++ ":" ++ two (sec % 60) ++ tail

end Span

end LiveDoc
