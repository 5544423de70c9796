import LiveDoc.Yaml.Timestamp
import LiveDoc.Number.Numeral

/-!
# The types of plain text

Text without quotes is read as the type whose form it has: a constant, a number, a timestamp, one of
the two keys with a meaning of their own, or a string. Types are named by their tags. One line break
at the end does not count.
-/

namespace LiveDoc.Yaml.Schema

/-- The tag of a standard type. -/
def tag (name : String) : String := "tag:yaml.org,2002:" ++ name

/-- Whether a character is a digit of a base up to ten, or an underscore. -/
def isDigitOrMark (base : Nat) (c : Char) : Bool :=
  c == '_' || (Text.isAsciiDigit c && c.toNat - 48 < base)

/-- Whether a character is a hexadecimal digit or an underscore. -/
def isHexOrMark (c : Char) : Bool :=
  isDigitOrMark 10 c || ('a' ≤ c && c ≤ 'f') || ('A' ≤ c && c ≤ 'F')

/-- A text without its sign. -/
def unsigned (cs : List Char) : List Char := (Numeral.sign cs).2

/-- A text behind digits and underscores that start with a digit. -/
def afterDigits? (cs : List Char) : Option (List Char) :=
  match cs with
  | c :: _ => if Text.isAsciiDigit c then some (cs.dropWhile (isDigitOrMark 10)) else none
  | [] => none

/-- A text behind its groups of a base sixty numeral, each a colon and a number below 60. -/
def afterSixtieths : Nat → List Char → List Char
  | 0, cs => cs
  | fuel + 1, cs =>
    match cs with
    | ':' :: rest =>
      let ds := rest.takeWhile Text.isAsciiDigit
      if ds.length = 1 ∨ (ds.length = 2 ∧ ds.headD '9' ≤ '5') then
        afterSixtieths fuel (rest.drop ds.length)
      else cs
    | _ => cs

/-- A text behind at least one such group. -/
def afterSixtieths? (cs : List Char) : Option (List Char) :=
  let rest := afterSixtieths cs.length cs
  if rest.length < cs.length then some rest else none

/-- Whether a text is empty or an exponent with its sign. -/
def isExponent (cs : List Char) : Bool :=
  match cs with
  | [] => true
  | e :: s :: d :: rest =>
    (e == 'e' || e == 'E') && (s == '+' || s == '-') && Text.isAsciiDigit d &&
      rest.all Text.isAsciiDigit
  | _ => false

/-- Whether a text has the form of a float. -/
def isFloat (cs : List Char) : Bool :=
  let body := unsigned cs
  match body with
  | '.' :: rest =>
    ["inf", "Inf", "INF"].contains (String.ofList rest) ||
      (body.length == cs.length &&
        (["nan", "NaN", "NAN"].contains (String.ofList rest) ||
          match afterDigits? rest with
          | some rest => isExponent rest
          | none => false))
  | _ =>
    match afterDigits? body with
    | none => false
    | some ('.' :: rest) => isExponent (rest.dropWhile (isDigitOrMark 10))
    | some rest =>
      match afterSixtieths? rest with
      | some ('.' :: rest) => rest.all (isDigitOrMark 10)
      | _ => false

/-- Whether a text has the form of an integer: binary, octal, hexadecimal, decimal or base sixty. -/
def isInteger (cs : List Char) : Bool :=
  match unsigned cs with
  | '0' :: rest =>
    match rest with
    | [] => true
    | 'b' :: digits => !digits.isEmpty && digits.all (isDigitOrMark 2)
    | 'x' :: digits => !digits.isEmpty && digits.all isHexOrMark
    | digits => digits.all (isDigitOrMark 8)
  | body =>
    match afterDigits? body with
    | none => false
    | some rest => rest.isEmpty || afterSixtieths? rest == some []

/-- Whether a text has the form of a timestamp. A date on its own needs two digits for month and
day. -/
def isTimestamp (cs : List Char) : Bool :=
  match Timestamp.ofChars? cs with
  | some t => t.padded || t.time.isSome
  | none => false

/-- The words that are constants, with the names of their types. -/
def words : List (String × String) :=
  (["yes", "Yes", "YES", "no", "No", "NO", "true", "True", "TRUE", "false", "False", "FALSE",
    "on", "On", "ON", "off", "Off", "OFF"].map (·, "bool")) ++
  (["~", "null", "Null", "NULL"].map (·, "null")) ++
  [("<<", "merge"), ("=", "value"), ("!", "yaml"), ("&", "yaml"), ("*", "yaml")]

/-- A text without one line break at its end. -/
def withoutFinalBreak (cs : List Char) : List Char :=
  if cs.getLast? = some '\n' then cs.dropLast else cs

/-- The name of the type of a plain text. -/
def typeName (s : String) : String :=
  let cs := withoutFinalBreak s.toList
  match words.lookup (String.ofList cs) with
  | some name => name
  | none =>
    if s.isEmpty then "null"
    else if isFloat cs then "float"
    else if isInteger cs then "int"
    else if isTimestamp cs then "timestamp"
    else "str"

/-- The tag of a plain text. -/
def tagOf (s : String) : String := tag (typeName s)

end LiveDoc.Yaml.Schema
