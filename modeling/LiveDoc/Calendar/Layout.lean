import LiveDoc.Calendar.Moment
import LiveDoc.Text.Digit

/-!
# Numeric date layouts

Beside ISO dates, three layouts are read: `MM-DD-YYYY`, `MM/DD/YYYY` and `YYYY/MM/DD`. Month and day
may have one digit, a one-digit day may follow a space, and the year has four digits of any script.
-/

namespace LiveDoc

namespace DateLayout

open LiveDoc.Text

/-- A piece of a layout. -/
inductive Piece where
  | month
  | day
  | year
  | mark (c : Char)
deriving DecidableEq, Repr

/-- The layouts, in the order in which they are tried. -/
def layouts : List (List Piece) :=
  [ [.month, .mark '-', .day, .mark '-', .year],
    [.month, .mark '/', .day, .mark '/', .year],
    [.year, .mark '/', .month, .mark '/', .day] ]

/-- The fields read so far. -/
structure Fields where
  year : Nat := 0
  month : Nat := 0
  day : Nat := 0

/-- The readings of a month at the head of a text, in order of preference. -/
def months : List Char → List (Nat × List Char)
  | '1' :: c :: rest =>
    (if '0' ≤ c ∧ c ≤ '2' then [(10 + (c.toNat - 48), rest)] else []) ++ [(1, c :: rest)]
  | '0' :: c :: rest => if '1' ≤ c ∧ c ≤ '9' then [(c.toNat - 48, rest)] else []
  | c :: rest => if '1' ≤ c ∧ c ≤ '9' then [(c.toNat - 48, rest)] else []
  | [] => []

/-- The readings of a day of the month at the head of a text, in order of preference. -/
def days : List Char → List (Nat × List Char)
  | '3' :: c :: rest =>
    (if c = '0' ∨ c = '1' then [(30 + (c.toNat - 48), rest)] else []) ++ [(3, c :: rest)]
  | '0' :: c :: rest => if '1' ≤ c ∧ c ≤ '9' then [(c.toNat - 48, rest)] else []
  | ' ' :: c :: rest => if '1' ≤ c ∧ c ≤ '9' then [(c.toNat - 48, rest)] else []
  | t :: c :: rest =>
    let two := if t = '1' ∨ t = '2' then
        match digitValue? c with
        | some u => [((t.toNat - 48) * 10 + u, rest)]
        | none => []
      else []
    two ++ (if '1' ≤ t ∧ t ≤ '9' then [(t.toNat - 48, c :: rest)] else [])
  | [c] => if '1' ≤ c ∧ c ≤ '9' then [(c.toNat - 48, [])] else []
  | [] => []

/-- The reading of a year at the head of a text. -/
def years (cs : List Char) : List (Nat × List Char) :=
  match (cs.take 4).mapM digitValue? with
  | some [a, b, c, d] => [(((a * 10 + b) * 10 + c) * 10 + d, cs.drop 4)]
  | _ => []

/-- The first reading of a text by a layout, with what is left of the text. -/
def read? : List Piece → Fields → List Char → Option (Fields × List Char)
  | [], f, cs => some (f, cs)
  | .mark c :: ps, f, cs =>
    match cs with
    | d :: rest => if c = d then read? ps f rest else none
    | [] => none
  | .month :: ps, f, cs => (months cs).findSome? fun r => read? ps { f with month := r.1 } r.2
  | .day :: ps, f, cs => (days cs).findSome? fun r => read? ps { f with day := r.1 } r.2
  | .year :: ps, f, cs => (years cs).findSome? fun r => read? ps { f with year := r.1 } r.2

/-- The date that a whole text writes by a layout. -/
def date? (layout : List Piece) (cs : List Char) : Option Date :=
  match read? layout {} cs with
  | some (f, []) => (Date.ofFields f.year f.month f.day).toOption
  | _ => none

end DateLayout

/-- The midnight that a text writes by the first layout that fits it. -/
def Moment.ofLayouts? (s : String) : Option Moment :=
  (DateLayout.layouts.findSome? fun l => DateLayout.date? l s.toList).map Moment.midnight

end LiveDoc
