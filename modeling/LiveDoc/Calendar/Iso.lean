import LiveDoc.Calendar.Moment
import LiveDoc.Text.Digit

/-!
# Reading ISO 8601 moments

Calendar dates and week dates, with or without hyphens; any one character; then a time with or
without colons, a fraction after a point or comma, and an offset. A fraction is cut to microseconds.
-/

namespace LiveDoc

namespace Iso

open LiveDoc.Text

/-- The number that a list of decimal digits writes, if it holds digits only. -/
def number? (ds : List Char) : Option Nat :=
  if ds.all isAsciiDigit then some (ds.foldl (fun n c => n * 10 + (c.toNat - 48)) 0) else none

/-- A number of exactly `count` digits, and what follows it. -/
def take? (count : Nat) (cs : List Char) : Option (Nat × List Char) :=
  if (cs.take count).length = count then (number? (cs.take count)).map (·, cs.drop count) else none

/-- How many characters the date takes: the hyphens and a week mark tell the forms apart. Where a
week date without hyphens may have a weekday, an odd count of digits before the time decides. -/
def dateLength (cs : List Char) : Nat :=
  if cs.length = 7 then 7
  else if cs[4]? = some '-' then
    if cs[5]? = some 'W' then
      if cs[8]? = some '-' then
        if 10 < cs.length && (cs[10]?.map isAsciiDigit).getD false then 8 else 10
      else 8
    else 10
  else if cs[4]? = some 'W' then
    let stop := 7 + ((cs.drop 7).takeWhile isAsciiDigit).length
    if stop < 9 then stop else if stop % 2 = 0 then 7 else 8
  else 8

/-- The day number of the Monday of the first ISO week of a year. -/
def firstMonday (year : Nat) : Int :=
  let first : Int := Calendar.daysBeforeYear year + 1
  let weekday := (first + 6) % 7
  if weekday > 3 then first - weekday + 7 else first - weekday

/-- Whether a year has a 53rd ISO week. -/
def hasLongYear (year : Nat) : Bool :=
  let weekday := (Calendar.daysBeforeYear year + 7) % 7
  weekday == 3 || (weekday == 2 && Calendar.isLeap year)

/-- The date of a weekday (1 to 7) of an ISO week. -/
def ofWeek? (year week weekday : Nat) : Option Date :=
  if 1 ≤ year && 1 ≤ week && (week ≤ 52 || (week == 53 && hasLongYear year)) && 1 ≤ weekday &&
      weekday ≤ 7 then
    Date.ofNumber? (firstMonday year + ((week - 1) * 7 + weekday - 1 : Nat))
  else none

/-- The date that a list of characters writes. -/
def date? (cs : List Char) : Option Date := do
  let (year, rest) ← take? 4 cs
  let hyphens := rest.head? == some '-'
  let rest := if hyphens then rest.drop 1 else rest
  match rest with
  | 'W' :: rest =>
    let (week, rest) ← take? 2 rest
    if rest.isEmpty then ofWeek? year week 1
    else if hyphens && rest.head? != some '-' then none
    else
      let (weekday, _) ← take? 1 (if hyphens then rest.drop 1 else rest)
      ofWeek? year week weekday
  | _ =>
    let (month, rest) ← take? 2 rest
    if hyphens && rest.head? != some '-' then none
    else
      let (day, _) ← take? 2 (if hyphens then rest.drop 1 else rest)
      (Date.ofFields year month day).toOption

/-- Hours, minutes, seconds and microseconds as they are read. -/
structure Clock where
  hour : Nat := 0
  minute : Nat := 0
  second : Nat := 0
  micro : Nat := 0

/-- Stores the `i`-th two-digit field. -/
def Clock.set (c : Clock) (i n : Nat) : Clock :=
  match i with
  | 0 => { c with hour := n }
  | 1 => { c with minute := n }
  | _ => { c with second := n }

/-- The fraction of a second: at most six digits count and further ones are skipped. The flag tells
whether something follows, in this part or, by `more`, after it. -/
def fraction? (c : Clock) (more : Bool) (cs : List Char) : Option (Clock × Bool) := do
  let ds := cs.take 6
  let n ← number? ds
  let rest := (cs.drop 6).dropWhile isAsciiDigit
  pure ({ c with micro := n * Nat.pow 10 (6 - ds.length) }, more || !rest.isEmpty)

/-- Two-digit fields from the `i`-th on, then a fraction. `colons` tells whether the fields are
separated by colons, as the first separator decides; `more`, whether an offset follows. One ASCII
character may stand behind a field. -/
def fields? (more : Bool) : Nat → Nat → Bool → Clock → List Char → Option (Clock × Bool)
  | 0, _, _, c, cs => fraction? c more cs
  | left + 1, i, colons, c, cs =>
    match take? 2 cs with
    | none => none
    | some (n, rest) =>
      let c := c.set i n
      match rest with
      | [] => some (c, more)
      | [mark] => if mark.toNat < 128 then some (c, true) else none
      | mark :: after =>
        let colons := if i = 0 then mark == ':' else colons
        if colons && mark == ':' then fields? more left (i + 1) colons c after
        else if mark == '.' || mark == ',' then fraction? c more after
        else if colons then none
        else fields? more left (i + 1) colons c (mark :: after)

/-- A clock reading of a time or an offset; the flag tells whether characters are left over. -/
def clock? (more : Bool) (cs : List Char) : Option (Clock × Bool) := fields? more 3 0 true {} cs

/-- Whether a character starts an offset. -/
def startsOffset (c : Char) : Bool := c == '+' || c == '-' || c == 'Z'

/-- The zone of an offset as it is read. One of less than a second stands for UTC. -/
def zone? (negative : Bool) (o : Clock) : Option Zone :=
  let seconds := (o.hour * 60 + o.minute) * 60 + o.second
  if seconds = 0 then some Zone.utc
  else
    let micros : Int := seconds * 1000000 + o.micro
    (Zone.ofOffset (if negative then -micros else micros)).toOption

/-- A time with an optional offset. -/
def time? (cs : List Char) : Option (Clock × Option Zone) := do
  let local_ := cs.takeWhile (!startsOffset ·)
  match cs.dropWhile (!startsOffset ·) with
  | [] =>
    let (c, surplus) ← clock? false local_
    if surplus then none else pure (c, none)
  | mark :: offset =>
    let (c, _) ← clock? true local_
    if mark = 'Z' then
      if offset.isEmpty then pure (c, some Zone.utc) else none
    else
      let (o, surplus) ← clock? false offset
      if surplus then none
      else
        let zone ← zone? (mark == '-') o
        pure (c, some zone)

end Iso

/-- The moment that an ISO 8601 text writes; without a time it is midnight. -/
def Moment.ofIso? (s : String) : Option Moment := do
  let cs := s.toList
  if cs.length < 7 then none
  else
    let size := Iso.dateLength cs
    let date ← Iso.date? (cs.take size)
    match cs.drop size with
    | [] => pure (Moment.midnight date)
    | _ :: rest =>
      let (c, zone) ← Iso.time? rest
      let time ← (ClockTime.ofFields c.hour c.minute c.second c.micro zone).toOption
      pure (Moment.ofDateTime date time)

end LiveDoc
