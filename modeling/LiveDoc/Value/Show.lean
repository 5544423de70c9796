import LiveDoc.Value.Basic
import LiveDoc.Text.Literal

/-!
# Values as text

`source` is the form a value has inside a container or a message; `display` is the form it has on
its own. They differ for texts and calendar values.
-/

namespace LiveDoc

namespace Value

/-- The most decimal digits of an integer that is converted to or from text. -/
def maxDigits : Nat := 4300

/-- Whether an integer has more digits than are converted to text. -/
def isOversized (n : Int) : Bool := Nat.pow 10 maxDigits ≤ n.natAbs

/-- Pieces of text between commas. -/
def commaSeparated (pieces : List String) : String := ", ".intercalate pieces

/-- The arguments by which a span is written: the fields that are not zero. -/
def spanArguments (s : Span) : String :=
  let parts :=
    (if s.days = 0 then [] else ["days=" ++ toString s.days]) ++
    (if s.seconds = 0 then [] else ["seconds=" ++ toString s.seconds]) ++
    (if s.microseconds = 0 then [] else ["microseconds=" ++ toString s.microseconds])
  if parts.isEmpty then "0" else commaSeparated parts

/-- A span as a call that builds it. -/
def spanSource (s : Span) : String := "datetime.timedelta(" ++ spanArguments s ++ ")"

/-- A zone as an expression that builds it. -/
def zoneSource (z : Zone) : String :=
  if z.offset = 0 then "datetime.timezone.utc"
  else "datetime.timezone(" ++ spanSource ⟨z.offset⟩ ++ ")"

/-- Seconds and microseconds, left out from the end while they are zero. -/
def secondsSource (second micro : Nat) : List String :=
  if micro ≠ 0 then [toString second, toString micro]
  else if second ≠ 0 then [toString second] else []

/-- The zone argument, if there is one. -/
def zoneArgument : Option Zone → List String
  | none => []
  | some z => ["tzinfo=" ++ zoneSource z]

/-- A date as a call that builds it. -/
def dateSource (d : Date) : String :=
  "datetime.date(" ++ commaSeparated [toString d.year, toString d.month, toString d.day] ++ ")"

/-- A moment as a call that builds it. -/
def momentSource (m : Moment) : String :=
  let d := m.date
  let t := m.time
  "datetime.datetime(" ++ commaSeparated ([toString d.year, toString d.month, toString d.day,
    toString t.hour, toString t.minute] ++ secondsSource t.second t.microsecond ++
    zoneArgument m.zone) ++ ")"

/-- A time of day as a call that builds it. -/
def clockSource (t : ClockTime) : String :=
  "datetime.time(" ++ commaSeparated ([toString t.hour, toString t.minute] ++
    secondsSource t.second t.microsecond ++ zoneArgument t.zone) ++ ")"

/-- The opening brace. -/
def openBrace : String := "\x7b"

/-- The closing brace. -/
def closeBrace : String := "\x7d"

/-- The form of a value on its own, given the form it has inside a container. -/
def displayGiven (inside : String) : Value → String
  | .text s => s
  | .date d => d.text
  | .moment m => m.textWith " "
  | .clock t => t.text
  | .span s => s.text
  | .zone z => z.name
  | _ => inside

/-- A routine by its kind and name. -/
def routineSource : Routine → String
  | .service .deferral => "<class 'revive.revive_datatypes.Deferred'>"
  | r => "<function " ++ r.profile.qualified ++ ">"

mutual

/-- The form of a value inside a container or a message. -/
def source : Value → String
  | .null => "None"
  | .bool b => if b then "True" else "False"
  | .int n => toString n
  | .float x => x.text
  | .text s => Text.literal s
  | .bytes d => Text.bytesLiteral d
  | .buffer d => "bytearray(" ++ Text.bytesLiteral d ++ ")"
  | .list xs => "[" ++ commaSeparated (sources xs) ++ "]"
  | .tuple [x] => "(" ++ source x ++ ",)"
  | .tuple xs => "(" ++ commaSeparated (sources xs) ++ ")"
  | .mapping es => openBrace ++ commaSeparated (entrySources es) ++ closeBrace
  | .set [] => "set()"
  | .set xs => openBrace ++ commaSeparated (sources xs) ++ closeBrace
  | .date d => dateSource d
  | .moment m => momentSource m
  | .clock t => clockSource t
  | .span s => spanSource s
  | .zone z => zoneSource z
  | .routine r _ => routineSource r
  | .deferred _ label =>
    "<Deferred " ++ (if label.truthy then displayGiven (source label) label else "?") ++ ">"
  | .record .config fs => "ReviverConfig(" ++ commaSeparated (sources fs) ++ ")"
  | .record .reviver _ => "<Reviver>"

/-- The forms of the items of a list. -/
def sources : List Value → List String
  | [] => []
  | x :: xs => source x :: sources xs

/-- The forms of the entries of a mapping. -/
def entrySources : List (Value × Value) → List String
  | [] => []
  | (k, v) :: es => (source k ++ ": " ++ source v) :: entrySources es

end

/-- The form of a value on its own. -/
def display (v : Value) : String := displayGiven (source v) v

mutual

/-- Whether the text of a value would show an integer of too many digits. -/
def showsOversized : Value → Bool
  | .int n => isOversized n
  | .list xs => anyOversized xs
  | .tuple xs => anyOversized xs
  | .set xs => anyOversized xs
  | .mapping es => entriesOversized es
  | .deferred _ label => label.truthy && showsOversized label
  | _ => false

/-- Whether this holds of an item of a list. -/
def anyOversized : List Value → Bool
  | [] => false
  | x :: xs => showsOversized x || anyOversized xs

/-- Whether this holds of a key or value of a mapping. -/
def entriesOversized : List (Value × Value) → Bool
  | [] => false
  | (k, v) :: es => showsOversized k || showsOversized v || entriesOversized es

end

end Value

end LiveDoc
