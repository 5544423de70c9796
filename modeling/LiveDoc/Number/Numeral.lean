import LiveDoc.Number.Decimal
import LiveDoc.Text.Blank
import LiveDoc.Text.Digit
import LiveDoc.Failure

/-!
# Numbers written as text

An integer or a decimal may stand between blanks, have a sign, use the digits of any script and have
single underscores between digits. An integer in base ten has at most 4300 digits.
-/

namespace LiveDoc

namespace Numeral

open LiveDoc.Text

/-- The value of a digit in any base up to 36. -/
def digit? (c : Char) : Option Nat :=
  match digitValue? c with
  | some n => some n
  | none =>
    if 'a' ≤ c ∧ c ≤ 'z' then some (c.toNat - 87)
    else if 'A' ≤ c ∧ c ≤ 'Z' then some (c.toNat - 55)
    else none

/-- The value of a digit in a base. -/
def digitIn? (base : Nat) (c : Char) : Option Nat :=
  (digit? c).filter (· < base)

/-- Digits with single underscores between them, up to the first other character: the digits' values
and the rest. `after` tells whether the last character was a digit. -/
def run? (base : Nat) : Bool → List Char → Option (List Nat × List Char)
  | after, [] => if after then some ([], []) else none
  | after, c :: cs =>
    if c = '_' then if after then run? base false cs else none
    else match digitIn? base c with
      | some d => (run? base true cs).map fun r => (d :: r.1, r.2)
      | none => if after then some ([], c :: cs) else none

/-- The number that a list of digits writes. -/
def value (base : Nat) (ds : List Nat) : Nat := ds.foldl (fun n d => n * base + d) 0

/-- The mark that may stand before the digits in a base. -/
def baseMark : Nat → List Char
  | 2 => ['b', 'B']
  | 8 => ['o', 'O']
  | 16 => ['x', 'X']
  | _ => []

/-- The characters after a base mark, an underscore included, if there is one. -/
def dropMark (base : Nat) (cs : List Char) : List Char :=
  match cs with
  | '0' :: m :: rest =>
    if (baseMark base).contains m then
      match rest with
      | '_' :: more => more
      | _ => rest
    else cs
  | _ => cs

/-- A leading sign, and what follows it. -/
def sign (cs : List Char) : Bool × List Char :=
  match cs with
  | '-' :: rest => (true, rest)
  | '+' :: rest => (false, rest)
  | _ => (false, cs)

/-- The integer that a text writes in a base. -/
def integer (base : Nat) (s : String) : Except Fault Int :=
  let (negative, cs) := sign (strip isGap s.toList)
  match run? base false (dropMark base cs) with
  | some (ds, rest) =>
    if base = 10 ∧ Value.maxDigits < ds.length then .error (.oversizedNumeral ds.length)
    else if rest.isEmpty then .ok (Binary64.signed negative (value base ds))
    else .error (.invalidInteger base s)
  | none => .error (.invalidInteger base s)

/-- The digits at the head of a text, perhaps none. -/
def digits (cs : List Char) : List Nat × List Char :=
  match run? 10 false cs with
  | some r => r
  | none => ([], cs)

/-- The exponent at the head of a text: a mark, a sign and digits; without digits there is none. -/
def exponent (cs : List Char) : Int × List Char :=
  match cs with
  | c :: rest =>
    if c = 'e' ∨ c = 'E' then
      let (negative, after) := sign rest
      match digits after with
      | ([], _) => (0, cs)
      | (ds, more) => (Binary64.signed negative (value 10 ds), more)
    else (0, cs)
  | [] => (0, [])

/-- The words for numbers that are not finite. -/
def special? (negative : Bool) (cs : List Char) : Option Binary64 :=
  let word := String.ofList (cs.map Char.toLower)
  if word = "inf" ∨ word = "infinity" then some (.infinite negative)
  else if word = "nan" then some .nan
  else none

/-- The binary64 number that a text writes. -/
def float (s : String) : Except Fault Binary64 :=
  let (negative, cs) := sign (strip isGap s.toList)
  match special? negative cs with
  | some x => .ok x
  | none =>
    let (whole, rest) := digits cs
    let (part, rest) := match rest with
      | '.' :: more => digits more
      | _ => ([], rest)
    let (e, rest) := if whole.isEmpty && part.isEmpty then (0, rest) else exponent rest
    if rest.isEmpty && !(whole.isEmpty && part.isEmpty) then
      .ok (Binary64.ofDecimal negative (value 10 (whole ++ part)) (e - part.length))
    else .error (.invalidFloat s)

end Numeral

end LiveDoc
