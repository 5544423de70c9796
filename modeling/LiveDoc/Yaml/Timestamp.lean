import LiveDoc.Calendar.Moment
import LiveDoc.Text.Digit
import LiveDoc.Value.Basic

/-!
# Timestamps in YAML

A date, or a date and a time of day with an optional fraction and offset. The reader only looks at
the form; whether the fields are in range shows when the value is made.
-/

namespace LiveDoc.Yaml

/-- The time of day in a timestamp. The fraction is in microseconds, and the offset in minutes. -/
structure StampTime where
  hour : Nat
  minute : Nat
  second : Nat
  micro : Nat
  offset : Option Int
deriving DecidableEq, Repr

/-- The fields of a timestamp. `padded` tells whether month and day have two digits each. -/
structure Timestamp where
  year : Nat
  month : Nat
  day : Nat
  padded : Bool
  time : Option StampTime
deriving DecidableEq, Repr

namespace Timestamp

/-- The number that decimal digits write. -/
def number (ds : List Char) : Nat := ds.foldl (fun n d => n * 10 + (d.toNat - 48)) 0

/-- At least `least` and at most `most` digits at the head of a text, as many as there are. -/
def take? (least most : Nat) (cs : List Char) : Option (List Char × List Char) :=
  let ds := (cs.take most).takeWhile Text.isAsciiDigit
  if ds.length < least then none else some (ds, cs.drop ds.length)

/-- A text behind a character that it starts with. -/
def after? (c : Char) : List Char → Option (List Char)
  | [] => none
  | x :: xs => if x = c then some xs else none

/-- Whether a character is a space or a tabulator. -/
def isSpace (c : Char) : Bool := c == ' ' || c == '\t'

/-- The offset at the head of a text that is not empty, in minutes. -/
def offset? (cs : List Char) : Option (Int × List Char) :=
  match cs with
  | 'Z' :: rest => some (0, rest)
  | s :: rest =>
    if s = '+' ∨ s = '-' then do
      let (h, rest) ← take? 1 2 rest
      let (m, rest) ← match rest with
        | ':' :: tail => take? 2 2 tail
        | _ => some ([], rest)
      let n : Int := number h * 60 + number m
      some (if s = '-' then -n else n, rest)
    else none
  | [] => none

/-- The fraction at the head of a text, if it has a point: its first six digits count. -/
def fraction (cs : List Char) : Nat × List Char :=
  match cs with
  | '.' :: rest =>
    let ds := rest.takeWhile Text.isAsciiDigit
    (number ((ds ++ List.replicate 6 '0').take 6), rest.drop ds.length)
  | _ => (0, cs)

/-- The time of day that a whole text writes. -/
def time? (cs : List Char) : Option StampTime := do
  let (h, rest) ← take? 1 2 cs
  let (m, rest) ← take? 2 2 (← after? ':' rest)
  let (s, rest) ← take? 2 2 (← after? ':' rest)
  let (micro, rest) := fraction rest
  let stamp := fun offset => (⟨number h, number m, number s, micro, offset⟩ : StampTime)
  if rest.isEmpty then some (stamp none)
  else
    let (n, rest) ← offset? (rest.dropWhile isSpace)
    if rest.isEmpty then some (stamp (some n)) else none

/-- A text behind what separates a date from a time of day. -/
def afterSeparator? (cs : List Char) : Option (List Char) :=
  match cs with
  | [] => none
  | c :: rest =>
    if c = 'T' ∨ c = 't' then some rest
    else if isSpace c then some (cs.dropWhile isSpace)
    else none

/-- The timestamp that a whole text writes. -/
def ofChars? (cs : List Char) : Option Timestamp := do
  let (y, rest) ← take? 4 4 cs
  let (m, rest) ← take? 1 2 (← after? '-' rest)
  let (d, rest) ← take? 1 2 (← after? '-' rest)
  let stamp := fun time =>
    (⟨number y, number m, number d, m.length == 2 && d.length == 2, time⟩ : Timestamp)
  if rest.isEmpty then some (stamp none)
  else some (stamp (some (← time? (← afterSeparator? rest))))

/-- The value of a timestamp, unless a field is out of range. -/
def value (t : Timestamp) : Except CalendarFault Value :=
  match t.time with
  | none => do .ok (.date (← Date.ofFields t.year t.month t.day))
  | some s => do
    let zone ← match s.offset with
      | none => .ok none
      | some n => do .ok (some (← Zone.ofOffset (n * 60000000)))
    let d ← Date.ofFields t.year t.month t.day
    let c ← ClockTime.ofFields s.hour s.minute s.second s.micro zone
    .ok (.moment (Moment.ofDateTime d c))

end Timestamp

end LiveDoc.Yaml
