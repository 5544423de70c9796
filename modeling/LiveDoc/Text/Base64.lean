/-!
# Base 64

Three bytes are written as four characters, and what is left over is padded. The reader skips
characters that are not in the alphabet and stops at complete padding.
-/

namespace LiveDoc.Text.Base64

/-- The characters of the digits from 0 to 63. -/
def alphabet : List Char :=
  "ABCDEFGHIJKLMNOPQRSTUVWXYZabcdefghijklmnopqrstuvwxyz0123456789+/".toList

/-- The padding character. -/
def padding : Char := '='

/-- The character of a digit. -/
def digit (n : Nat) : Char := alphabet.getD n padding

/-- The characters that bytes are written as. -/
def encode : List UInt8 → List Char
  | a :: b :: c :: rest =>
    let n := a.toNat * 65536 + b.toNat * 256 + c.toNat
    digit (n / 262144) :: digit (n / 4096 % 64) :: digit (n / 64 % 64) :: digit (n % 64) ::
      encode rest
  | [a, b] =>
    let n := a.toNat * 1024 + b.toNat * 4
    [digit (n / 4096), digit (n / 64 % 64), digit (n % 64), padding]
  | [a] => [digit (a.toNat / 4), digit (a.toNat % 4 * 16), padding, padding]
  | [] => []

/-- The most bytes that a line holds. -/
def lineBytes : Nat := 57

/-- The lines that bytes are written as, each with a line break. -/
def encodeLines : Nat → List UInt8 → List Char
  | 0, _ => []
  | fuel + 1, bs =>
    if bs.isEmpty then []
    else encode (bs.take lineBytes) ++ '\n' :: encodeLines fuel (bs.drop lineBytes)

/-- Why characters do not write bytes. -/
inductive Fault where
  | lonelyDigit (digits : Nat)
  | missingPadding
deriving DecidableEq, Repr

/-- The fault in words. -/
def Fault.text : Fault → String
  | .lonelyDigit n =>
    "Invalid base64-encoded string: number of data characters (" ++ toString n ++
      ") cannot be 1 more than a multiple of 4"
  | .missingPadding => "Incorrect padding"

/-- Reads digits in groups of four: `place` is the place in the group, `carry` what the digits
before it have left over, `pads` the length of the padding and `count` the number of bytes so far.
-/
def read : Nat → Nat → Nat → Nat → List Char → Except Fault (List UInt8)
  | place, _, _, count, [] =>
    if place = 0 then .ok []
    else if place = 1 then .error (.lonelyDigit (count / 3 * 4 + 1))
    else .error .missingPadding
  | place, carry, pads, count, c :: cs =>
    if c = padding then
      if 2 ≤ place then
        if 4 ≤ place + (pads + 1) then .ok [] else read place carry (pads + 1) count cs
      else read place carry pads count cs
    else match alphabet.idxOf? c with
      | none => read place carry pads count cs
      | some d =>
        if place = 0 then read 1 d 0 count cs
        else
          let (byte, carry) :=
            if place = 1 then (carry * 4 + d / 16, d % 16)
            else if place = 2 then (carry * 16 + d / 4, d % 4)
            else (carry * 64 + d, 0)
          (read ((place + 1) % 4) carry 0 (count + 1) cs).map (UInt8.ofNat byte :: ·)

/-- The bytes that characters write. -/
def decode (cs : List Char) : Except Fault (List UInt8) := read 0 0 0 0 cs

end LiveDoc.Text.Base64
