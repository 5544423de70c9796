import LiveDoc.Number.Binary64

/-!
# Decimal text of binary64 numbers

Writing takes the fewest digits that read back as the same number, and of those the nearest;
reading rounds the exact decimal once. Positional notation serves decimal exponents from -4 to 15.
-/

namespace LiveDoc

namespace Decimal

/-- The decimal digits of a natural number. -/
def digits (n : Nat) : List Char := (toString n).toList

/-- The count of decimal digits, one for zero. -/
def length (n : Nat) : Nat := (digits n).length

/-- The power of ten at or below `n / d`, for a positive `n`. -/
def exponent (n d : Nat) : Int :=
  if d ≤ n then (length (n / d) : Int) - 1
  else
    let k := length (d / n)
    if d ≤ n * Nat.pow 10 (k - 1) then -((k : Int) - 1) else -(k : Int)

/-- The fraction `(n / d) / 10 ^ e` as a numerator and a denominator. -/
def scale (n d : Nat) (e : Int) : Nat × Nat :=
  if 0 ≤ e then (n, d * Nat.pow 10 e.toNat) else (n * Nat.pow 10 (-e).toNat, d)

/-- The numbers between `low / unit` and `high / unit`, the ends included when `closed`. -/
structure Interval where
  low : Nat
  high : Nat
  unit : Nat
  closed : Bool

/-- Whether `k · 10 ^ e` lies in the interval. -/
def Interval.holds (i : Interval) (k : Nat) (e : Int) : Bool :=
  let p := if 0 ≤ e then k * Nat.pow 10 e.toNat * i.unit else k * i.unit
  let q := if 0 ≤ e then 1 else Nat.pow 10 (-e).toNat
  if i.closed then i.low * q ≤ p && p ≤ i.high * q else i.low * q < p && p < i.high * q

/-- What rounds to the number `m · 2 ^ e`: half a step down and half a step up, where the step below
a power of two is half as long. The ends round to it when `m` is even. -/
def rounding (m : Nat) (e : Int) : Interval :=
  let narrow := m == Nat.pow 2 (Binary64.precision - 1) && Binary64.minExponent < e
  let up := if 0 ≤ e then Nat.pow 2 e.toNat else 1
  let unit := 4 * (if 0 ≤ e then 1 else Nat.pow 2 (-e).toNat)
  { low := (4 * m - (if narrow then 1 else 2)) * up
    high := (4 * m + 2) * up
    unit := unit
    closed := m % 2 == 0 }

/-- The point of the grid of step `10 ^ e` nearest to `n / d` that lies in the interval, if one of
the two neighbours does; a tie goes to the even one. -/
def onGrid (i : Interval) (n d : Nat) (e : Int) : Option Nat :=
  let s := scale n d e
  let k := s.1 / s.2
  let below := i.holds k e
  let above := i.holds (k + 1) e
  if below && above then some (Binary64.nearest s.1 s.2)
  else if below then some k
  else if above then some (k + 1)
  else none

/-- The first grid, from `count` digits on, with a point in the interval. -/
def search (i : Interval) (n d : Nat) (top : Int) : Nat → Nat → Nat × Int
  | 0, count =>
    let s := scale n d (top - count)
    (Binary64.nearest s.1 s.2, top - count)
  | fuel + 1, count =>
    match onGrid i n d (top - count) with
    | some k => (k, top - count)
    | none => search i n d top fuel (count + 1)

/-- Drops the zeros at the end of a digit list, raising the exponent. -/
def trim (ds : List Char) (e : Int) : List Char × Int :=
  let zeros := (ds.reverse.takeWhile (· == '0')).length
  (ds.take (ds.length - zeros), e + zeros)

/-- The shortest digits of the positive number `m · 2 ^ e`, with the power of ten of the last. -/
def shortest (m : Nat) (e : Int) : List Char × Int :=
  let n := if 0 ≤ e then m * Nat.pow 2 e.toNat else m
  let d := if 0 ≤ e then 1 else Nat.pow 2 (-e).toNat
  let r := search (rounding m e) n d (exponent n d) 17 0
  trim (digits r.1) r.2

/-- An exponent with its sign and at least two digits. -/
def exponentText (e : Int) : String :=
  let ds := toString e.natAbs
  (if e < 0 then "-" else "+") ++ (if ds.length < 2 then "0" ++ ds else ds)

/-- Digits laid out around the decimal point, or with an exponent outside the positional range. -/
def layout (ds : List Char) (last : Int) : String :=
  let count := ds.length
  let point : Int := last + count
  if -4 < point ∧ point ≤ 16 then
    if point ≤ 0 then
      "0." ++ String.ofList (List.replicate (-point).toNat '0' ++ ds)
    else if point < count then
      String.ofList (ds.take point.toNat ++ ['.'] ++ ds.drop point.toNat)
    else
      String.ofList (ds ++ List.replicate (point - count).toNat '0') ++ ".0"
  else
    let first := ds.take 1
    let rest := ds.drop 1
    String.ofList (first ++ (if rest.isEmpty then [] else '.' :: rest)) ++ "e" ++
      exponentText (point - 1)

end Decimal

namespace Binary64

/-- The shortest text that reads back as the number. -/
def text : Binary64 → String
  | .nan => "nan"
  | .infinite s => if s then "-inf" else "inf"
  | .finite s m e =>
    (if s then "-" else "") ++
      (if m = 0 then "0.0" else
        let r := Decimal.shortest m e
        Decimal.layout r.1 r.2)

/-- The number nearest to `± k · 10 ^ e`. Beyond 400 powers of ten from the first digit the result
is an infinity or a zero, whatever the digits. -/
def ofDecimal (negative : Bool) (k : Nat) (e : Int) : Binary64 :=
  if k = 0 then zero negative
  else
    let top : Int := e + Decimal.length k
    if top > 400 then .infinite negative
    else if top < -400 then zero negative
    else if 0 ≤ e then ofRatio negative (k * Nat.pow 10 e.toNat) 1
    else ofRatio negative k (Nat.pow 10 (-e).toNat)

end Binary64

end LiveDoc
