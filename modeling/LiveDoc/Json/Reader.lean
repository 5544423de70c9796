import LiveDoc.Json.Tree
import LiveDoc.Number.Numeral

/-!
# Reading JSON

A reader takes a tree off the head of a text. Where it stops, it tells the reason, how many
characters were left, and which trees were complete by then, so that a hook sees every object that
closed before the fault.
-/

namespace LiveDoc.Json

/-- What an escape in a string stands for: a character, or the half of a surrogate pair that has no other
half beside it. -/
inductive CodePoint where
  | char (c : Char)
  | half (unit : Nat)
deriving DecidableEq, Repr

/-- The character for a code point. The replacement character stands for half a pair. -/
def CodePoint.shown : CodePoint → Char
  | .char c => c
  | .half _ => '\uFFFD'

/-- How the text of a string is made of what is read of it. -/
abbrev Spelling := List CodePoint → String

namespace Spelling

/-- The spelling by the characters for the code points. -/
def plain : Spelling := fun ps => String.ofList (ps.map CodePoint.shown)

@[simp]
theorem plain_char (cs : List Char) : plain (cs.map .char) = String.ofList cs := by
  simp [plain, CodePoint.shown, Function.comp_def]

/-- Whether a spelling agrees with that one on all that has no such halves. -/
def IsUsual (spell : Spelling) : Prop := ∀ cs : List Char, spell (cs.map .char) = String.ofList cs

end Spelling

/-- Where and why a reading stopped: the reason, or the digit count of an integer that is too long,
with the number of characters left, and the complete trees that belong to no other complete tree. -/
structure Stop where
  closed : List Tree
  reason : Except Nat Reason
  left : Nat

namespace Reader

/-- Whether a character may stand between tokens. -/
def isSpace (c : Char) : Bool := c == ' ' || c == '\t' || c == '\n' || c == '\r'

/-- A text without the space at its head. -/
def skip (cs : List Char) : List Char := cs.dropWhile isSpace

/-- A stop before any tree is complete. -/
def stop {α : Type} (reason : Reason) (cs : List Char) : Except Stop α :=
  .error ⟨[], .ok reason, cs.length⟩

/-- The value of a hexadecimal digit. -/
def hexDigit? (c : Char) : Option Nat :=
  if '0' ≤ c ∧ c ≤ '9' then some (c.toNat - 48)
  else if 'a' ≤ c ∧ c ≤ 'f' then some (c.toNat - 87)
  else if 'A' ≤ c ∧ c ≤ 'F' then some (c.toNat - 55)
  else none

/-- The number of four hexadecimal digits at the head of a text. -/
def hex4? (cs : List Char) : Option Nat :=
  match cs with
  | a :: b :: c :: d :: _ => do
    pure ((((← hexDigit? a) * 16 + (← hexDigit? b)) * 16 + (← hexDigit? c)) * 16 + (← hexDigit? d))
  | _ => none

/-- The character that a one-letter escape stands for. -/
def shortEscape? (c : Char) : Option Char :=
  if c = '"' ∨ c = '\\' ∨ c = '/' then some c
  else if c = 'b' then some '\x08'
  else if c = 'f' then some '\x0c'
  else if c = 'n' then some '\n'
  else if c = 'r' then some '\r'
  else if c = 't' then some '\t'
  else none

/-- The character that a pair of surrogates stands for. -/
def joinSurrogates (high low : Nat) : Char :=
  Char.ofNat (0x10000 + (high - 0xD800) * 1024 + (low - 0xDC00))

/-- What a code unit stands for on its own. -/
def ofUnit (n : Nat) : CodePoint :=
  if 0xD800 ≤ n ∧ n < 0xE000 then .half n else .char (Char.ofNat n)

/-- The second half of a surrogate pair at the head of a text: its number, if the head is an escape
that is no last thing in the text. A malformed one is a fault. -/
def lowHalf (cs : List Char) : Except Unit (Option Nat) :=
  match cs with
  | '\\' :: 'u' :: rest =>
    if rest.length ≤ 4 then .ok none
    else match hex4? rest with
      | some n => .ok (some n)
      | none => .error ()
  | _ => .ok none

/-- What stands in a string whose opening quote has been read, and what follows its closing quote.
`opening` is the number of characters from the opening quote on. -/
def string (opening : Nat) : Nat → List Char → Except Stop (List CodePoint × List Char)
  | 0, _ => .error ⟨[], .ok .unterminated, opening⟩
  | _, [] => .error ⟨[], .ok .unterminated, opening⟩
  | fuel + 1, c :: cs =>
    if c = '"' then .ok ([], cs)
    else if c = '\\' then
      match cs with
      | [] => .error ⟨[], .ok .unterminated, opening⟩
      | 'u' :: rest =>
        if rest.length ≤ 4 then stop .unicodeEscape cs
        else match hex4? rest with
          | none => stop .unicodeEscape cs
          | some n =>
            let after := rest.drop 4
            if 0xD800 ≤ n ∧ n < 0xDC00 then
              match lowHalf after with
              | .error _ => stop .unicodeEscape (after.drop 1)
              | .ok (some m) =>
                if 0xDC00 ≤ m ∧ m < 0xE000 then
                  (string opening fuel (after.drop 6)).map fun r =>
                    (.char (joinSurrogates n m) :: r.1, r.2)
                else (string opening fuel after).map fun r => (ofUnit n :: r.1, r.2)
              | .ok none => (string opening fuel after).map fun r => (ofUnit n :: r.1, r.2)
            else (string opening fuel after).map fun r => (ofUnit n :: r.1, r.2)
      | e :: rest =>
        match shortEscape? e with
        | some d => (string opening fuel rest).map fun r => (.char d :: r.1, r.2)
        | none => stop .escape (c :: cs)
    else if c.toNat < 32 then stop .control (c :: cs)
    else (string opening fuel cs).map fun r => (.char c :: r.1, r.2)

/-- Whether a text starts with a decimal digit. -/
def startsWithDigit : List Char → Bool
  | c :: _ => Text.isAsciiDigit c
  | [] => false

/-- The digits of the integer part at the head of a text: one zero, or digits that start with none.
-/
def integerPart? (cs : List Char) : Option (List Char × List Char) :=
  match cs with
  | '0' :: rest => some (['0'], rest)
  | c :: _ =>
    if Text.isAsciiDigit c then
      some (cs.takeWhile Text.isAsciiDigit, cs.dropWhile Text.isAsciiDigit)
    else none
  | [] => none

/-- The digits of a fraction at the head of a text: a point with a digit after it. -/
def fractionPart (cs : List Char) : List Char × List Char :=
  match cs with
  | '.' :: rest =>
    if startsWithDigit rest then
      (rest.takeWhile Text.isAsciiDigit, rest.dropWhile Text.isAsciiDigit)
    else ([], cs)
  | _ => ([], cs)

/-- The sign and digits of an exponent at the head of a text; without digits there is none. -/
def exponentPart (cs : List Char) : Option Int × List Char :=
  match cs with
  | c :: rest =>
    if c = 'e' ∨ c = 'E' then
      let (negative, after) := Numeral.sign rest
      if startsWithDigit after then
        let ds := after.takeWhile Text.isAsciiDigit
        (some (Binary64.signed negative (Numeral.value 10 (ds.map fun d => d.toNat - 48))),
          after.dropWhile Text.isAsciiDigit)
      else (none, cs)
    else (none, cs)
  | [] => (none, [])

/-- The number that the digits of a list write. -/
def natural (ds : List Char) : Nat := Numeral.value 10 (ds.map fun d => d.toNat - 48)

/-- The number at the head of a text. It is an integer unless it has a fraction or an exponent. -/
def number (cs : List Char) : Except Stop (Tree × List Char) :=
  let (negative, body) := match cs with
    | '-' :: rest => (true, rest)
    | _ => (false, cs)
  match integerPart? body with
  | none => stop .value cs
  | some (whole, rest) =>
    let (part, rest) := fractionPart rest
    let (e, rest) := exponentPart rest
    if part.isEmpty && e.isNone then
      if Value.maxDigits < whole.length then .error ⟨[], .error whole.length, cs.length⟩
      else .ok (.int (Binary64.signed negative (natural whole)), rest)
    else
      .ok (.float (Binary64.ofDecimal negative (natural (whole ++ part)) (e.getD 0 - part.length)),
        rest)

/-- The words that stand for values, with those values. -/
def constants : List (List Char × Tree) :=
  [ ("null".toList, .null), ("true".toList, .bool true), ("false".toList, .bool false),
    ("NaN".toList, .float .nan), ("Infinity".toList, .float (.infinite false)),
    ("-Infinity".toList, .float (.infinite true)) ]

/-- The constant at the head of a text. -/
def constant? (cs : List Char) : Option (Tree × List Char) :=
  constants.findSome? fun k => (Text.stripLeading? k.1 cs).map (k.2, ·)

variable (spell : Spelling)

mutual

/-- The value at the head of a text. -/
def value : Nat → List Char → Except Stop (Tree × List Char)
  | 0, cs => stop .value cs
  | fuel + 1, cs =>
    match cs with
    | '"' :: rest => do
      let (s, rest) ← string cs.length rest.length rest
      .ok (.text (spell s), rest)
    | '[' :: rest =>
      match skip rest with
      | ']' :: rest => .ok (.array [], rest)
      | rest => do
        let (ts, rest) ← items fuel rest
        .ok (.array ts, rest)
    | '\x7b' :: rest =>
      match skip rest with
      | '\x7d' :: rest => .ok (.object [], rest)
      | rest => do
        let (ms, rest) ← members fuel rest
        .ok (.object ms, rest)
    | _ =>
      match constant? cs with
      | some r => .ok r
      | none => number cs

/-- The items of an array from one on, and what follows its end. -/
def items : Nat → List Char → Except Stop (List Tree × List Char)
  | 0, cs => stop .value cs
  | fuel + 1, cs => do
    let (t, rest) ← value fuel cs
    match skip rest with
    | ']' :: rest => .ok ([t], rest)
    | ',' :: rest =>
      match items fuel (skip rest) with
      | .ok (ts, rest) => .ok (t :: ts, rest)
      | .error s => .error { s with closed := t :: s.closed }
    | rest => .error ⟨[t], .ok .comma, rest.length⟩

/-- The members of an object from one on, and what follows its end. -/
def members : Nat → List Char → Except Stop (List (String × Tree) × List Char)
  | 0, cs => stop .propertyName cs
  | fuel + 1, cs =>
    match cs with
    | '"' :: rest => do
      let (k, rest) ← string cs.length rest.length rest
      match skip rest with
      | ':' :: rest =>
        let (t, rest) ← value fuel (skip rest)
        match skip rest with
        | '\x7d' :: rest => .ok ([(spell k, t)], rest)
        | ',' :: rest =>
          match members fuel (skip rest) with
          | .ok (ms, rest) => .ok ((spell k, t) :: ms, rest)
          | .error s => .error { s with closed := t :: s.closed }
        | rest => .error ⟨[t], .ok .comma, rest.length⟩
      | rest => stop .colon rest
    | _ => stop .propertyName cs

end

/-- Enough steps to read any text of a length. -/
def steps (cs : List Char) : Nat := 2 * cs.length + 2

end Reader

/-- The tree that a whole text writes. -/
def read (cs : List Char) (spell : Spelling := .plain) : Except Stop Tree :=
  match cs with
  | '\uFEFF' :: _ => Reader.stop .byteOrderMark cs
  | _ => do
    let (t, rest) ← Reader.value spell (Reader.steps cs) (Reader.skip cs)
    match Reader.skip rest with
    | [] => .ok t
    | rest => .error ⟨[t], .ok .extraData, rest.length⟩

/-- Why a reading stopped, as a failure: an integer that is too long is a fault of its own. -/
def Stop.failure (cs : List Char) (s : Stop) : Failure :=
  match s.reason with
  | .ok reason =>
    let p := lineColumn cs (cs.length - s.left)
    .parse (.json reason p.1 p.2)
  | .error digits => .fault (.oversizedNumeral digits)

/-- The value that a text writes. -/
def decode (s : String) (spell : Spelling := .plain) : Except Failure Value :=
  match read s.toList spell with
  | .ok t => .ok t.toValue
  | .error e => .error (e.failure s.toList)

/-- What becomes of a failure of a hook on its way through the reader, which ends its own iteration over
a text in the same way when a value is missing: the end of an iteration counts as a missing value at the
position that it carries. -/
def hookFailure (cs : List Char) : Failure → Failure
  | .fault (.iterationEnd position type _) =>
    match position with
    | some n =>
      let (line, column) := place cs n
      if Value.isOversized n || Value.isOversized column then .fault .oversizedInteger
      else .parse (.stated ("invalid JSON: " ++ Reason.value.text) (.int line) (.int column))
    | none =>
      if type = Value.null.typeName then .fault (.operands "-" type "int")
      else .fault (.chosen .typeError
        "slice indices must be integers or None or have an __index__ method")
  | failure => failure

/-- A run of hooks as the reader of a text passes it on. -/
def throughReader {α : Type} (cs : List Char) (r : Run α) : Run α :=
  r.handle fun failure => .fail (hookFailure cs failure)

/-- The value that a text writes, a hook replacing every object as soon as it is complete. Objects
that close before a fault of the text still reach the hook. -/
def decodeWith (hook : Value → Run Value) (s : String) (spell : Spelling := .plain) : Run Value :=
  match read s.toList spell with
  | .ok t => throughReader s.toList (t.resolve hook)
  | .error e =>
    (throughReader s.toList (Tree.resolveList hook e.closed)).andThen fun _ =>
      .fail (e.failure s.toList)

end LiveDoc.Json
