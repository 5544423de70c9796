import LiveDoc.Value.Basic
import LiveDoc.Failure

/-!
# Attributes

Numbers and calendar values have named parts. Calendar values also answer questions that take no
arguments.
-/

namespace LiveDoc

namespace Value

/-- An offset from UTC as a value. -/
def ofZone (z : Option Zone) : Value :=
  match z with
  | none => .null
  | some z => .zone z

/-- A time of day without its offset. -/
def clockOnly (t : ClockTime) : ClockTime := { t with zone := none }

/-- The parts that an integer has as a number. -/
def integerPart? (n : Int) (name : String) : Option Value :=
  if name = "real" ∨ name = "numerator" then some (.int n)
  else if name = "imag" then some (.int 0)
  else if name = "denominator" then some (.int 1)
  else none

/-- The parts of a date. -/
def datePart? (d : Date) (name : String) : Option Value :=
  if name = "year" then some (.int d.year)
  else if name = "month" then some (.int d.month)
  else if name = "day" then some (.int d.day)
  else none

/-- The parts of a time of day. -/
def clockPart? (t : ClockTime) (name : String) : Option Value :=
  if name = "hour" then some (.int t.hour)
  else if name = "minute" then some (.int t.minute)
  else if name = "second" then some (.int t.second)
  else if name = "microsecond" then some (.int t.microsecond)
  else if name = "tzinfo" then some (ofZone t.zone)
  else if name = "fold" then some (.int 0)
  else none

/-- The parts of a span. -/
def spanPart? (s : Span) (name : String) : Option Value :=
  if name = "days" then some (.int s.days)
  else if name = "seconds" then some (.int s.seconds)
  else if name = "microseconds" then some (.int s.microseconds)
  else none

/-- The part of a value that a name stands for. -/
def part? (v : Value) (name : String) : Option Value :=
  match v with
  | .bool b => integerPart? (if b then 1 else 0) name
  | .int n => integerPart? n name
  | .float x =>
    if name = "real" then some (.float x)
    else if name = "imag" then some (.float (.zero false))
    else none
  | .date d => datePart? d name
  | .moment m => (datePart? m.date name).or (clockPart? m.time name)
  | .clock t => clockPart? t name
  | .span s => spanPart? s name
  | .deferred fn label =>
    if name = "fn" then some fn
    else if name = "name" then some label
    else if name = "__class__" then some (.routine (.service .deferral) [])
    else none
  | _ => none

/-- The names of the days of the week, in short. -/
def dayNames : List String := ["Mon", "Tue", "Wed", "Thu", "Fri", "Sat", "Sun"]

/-- The names of the months, in short. -/
def monthNames : List String :=
  ["Jan", "Feb", "Mar", "Apr", "May", "Jun", "Jul", "Aug", "Sep", "Oct", "Nov", "Dec"]

/-- A date and a time of day in words. -/
def inWords (d : Date) (t : ClockTime) : String :=
  let day := toString d.day
  dayNames.getD d.weekday "" ++ " " ++ monthNames.getD (d.month - 1) "" ++
    (if day.length < 2 then "  " else " ") ++ day ++ " " ++ Calendar.padded 2 t.hour ++ ":" ++
    Calendar.padded 2 t.minute ++ ":" ++ Calendar.padded 2 t.second ++ " " ++
    Calendar.padded 4 d.year

/-- What a date answers to a question. -/
def dateAnswer? (d : Date) (name : String) : Option Value :=
  if name = "isoformat" then some (.text d.text)
  else if name = "ctime" then some (.text (inWords d default))
  else if name = "weekday" then some (.int d.weekday)
  else if name = "isoweekday" then some (.int (d.weekday + 1))
  else if name = "toordinal" then some (.int d.number)
  else if name = "replace" then some (.date d)
  else none

/-- What an offset from UTC answers to a question. -/
def zoneAnswer? (z : Option Zone) (name : String) : Option Value :=
  if name = "utcoffset" then some ((z.map fun z => Value.span ⟨z.offset⟩).getD .null)
  else if name = "tzname" then some ((z.map fun z => Value.text z.name).getD .null)
  else if name = "dst" then some .null
  else none

/-- Microseconds from the start of year 1 to the start of 1970. -/
def epochMicros : Int := 719162 * Calendar.microsPerDay

/-- Seconds since the start of 1970. A moment without offset counts as UTC, as it does where that is the
local time. -/
def timestamp (m : Moment) : Binary64 :=
  let n := m.instant - epochMicros
  match m.zone with
  | some _ => (Binary64.ofQuotient? n 1000000).getD .nan
  | none =>
    ((Binary64.ofInt? (n.fdiv 1000000)).getD .nan).add
      ((Binary64.ofQuotient? (n.fmod 1000000) 1000000).getD .nan)

/-- What a moment answers to a question. -/
def momentAnswer? (m : Moment) (name : String) : Option Value :=
  if name = "isoformat" then some (.text m.text)
  else if name = "ctime" then some (.text (inWords m.date m.time))
  else if name = "date" then some (.date m.date)
  else if name = "time" then some (.clock (clockOnly m.time))
  else if name = "timetz" then some (.clock m.time)
  else if name = "timestamp" then some (.float (timestamp m))
  else if name = "replace" then some (.moment m)
  else (zoneAnswer? m.zone name).or (dateAnswer? m.date name)

/-- What a time of day answers to a question. -/
def clockAnswer? (t : ClockTime) (name : String) : Option Value :=
  if name = "isoformat" then some (.text t.text)
  else if name = "replace" then some (.clock t)
  else zoneAnswer? t.zone name

/-- What a span answers to a question. -/
def spanAnswer? (s : Span) (name : String) : Option Value :=
  if name = "total_seconds" then
    some (.float ((Binary64.ofQuotient? s.micros 1000000).getD .nan))
  else none

/-- What a calendar value answers to a question without arguments. -/
def answer? (v : Value) (name : String) : Option Value :=
  match v with
  | .date d => dateAnswer? d name
  | .moment m => momentAnswer? m name
  | .clock t => clockAnswer? t name
  | .span s => spanAnswer? s name
  | _ => none

end Value

end LiveDoc
