/-!
# Binary64 numbers

A finite number is a sign, a significand and a power of two; every operation computes the exact
rational result and rounds it once, to nearest with ties to the even significand. Nothing here
rests on machine floating point, so a statement about a result is a statement about natural numbers.
-/

namespace LiveDoc

/-- A binary64 number. `finite s m e` stands for `± m · 2 ^ e`; the two zeros differ in sign only,
and one value stands for every NaN. -/
inductive Binary64 where
  | nan
  | infinite (negative : Bool)
  | finite (negative : Bool) (significand : Nat) (exponent : Int)
deriving DecidableEq, Repr, Inhabited

namespace Binary64

/-- The number of significand bits of a normal number. -/
def precision : Nat := 53

/-- The exponent of the smallest positive number, shared by all subnormal numbers. -/
def minExponent : Int := -1074

/-- The exponent of the largest finite numbers. -/
def maxExponent : Int := 971

/-- Zero of either sign. -/
def zero (negative : Bool) : Binary64 := .finite negative 0 minExponent

/-- The forms that stand for a number: a significand below `2 ^ 53`, full unless the exponent is the
least one. -/
def Canonical : Binary64 → Prop
  | .finite _ m e =>
    m < Nat.pow 2 precision ∧ minExponent ≤ e ∧ e ≤ maxExponent ∧
      (e = minExponent ∨ Nat.pow 2 (precision - 1) ≤ m)
  | _ => True

/-- The integer nearest to `n / d`, a half going to the even neighbour. -/
def nearest (n d : Nat) : Nat :=
  let q := n / d
  let r := n % d
  if 2 * r < d then q else if d < 2 * r then q + 1 else if q % 2 = 0 then q else q + 1

/-- The fraction `(n / d) / 2 ^ e` as a numerator and a denominator. -/
def scale (n d : Nat) (e : Int) : Nat × Nat :=
  if 0 ≤ e then (n, d * Nat.pow 2 e.toNat) else (n * Nat.pow 2 (-e).toNat, d)

/-- The exponent at which `n / d` has a full significand, or the least exponent if it has none. -/
def exponentOf (n d : Nat) : Int :=
  let e : Int := (n.log2 : Int) - (d.log2 : Int) - 52
  let s := scale n d e
  max minExponent (if s.1 / s.2 < Nat.pow 2 (precision - 1) then e - 1 else e)

/-- The number nearest to `± n / d`. -/
def ofRatio (negative : Bool) (n d : Nat) : Binary64 :=
  if n = 0 then zero negative
  else
    let e := exponentOf n d
    let s := scale n d e
    let m := nearest s.1 s.2
    if m = Nat.pow 2 precision then
      if e + 1 > maxExponent then .infinite negative
      else .finite negative (Nat.pow 2 (precision - 1)) (e + 1)
    else if e > maxExponent then .infinite negative
    else .finite negative m e

/-- The number nearest to `n · 2 ^ e`, a zero being positive. -/
def ofScaled (n : Int) (e : Int) : Binary64 :=
  if 0 ≤ e then ofRatio (n < 0) (n.natAbs * Nat.pow 2 e.toNat) 1
  else ofRatio (n < 0) n.natAbs (Nat.pow 2 (-e).toNat)

/-- The number nearest to an integer, if it is finite. -/
def ofInt? (n : Int) : Option Binary64 :=
  match ofRatio (n < 0) n.natAbs 1 with
  | .infinite _ => none
  | x => some x

/-- The number nearest to the quotient of two integers, if it is finite. The sign of a zero quotient
is the product of the signs. -/
def ofQuotient? (a b : Int) : Option Binary64 :=
  match ofRatio ((a < 0) != (b < 0)) a.natAbs b.natAbs with
  | .infinite _ => none
  | x => some x

/-- The significand with its sign. -/
def signed (negative : Bool) (m : Nat) : Int := if negative then -(m : Int) else m

/-- A finite number as a fraction. -/
def ratio? : Binary64 → Option (Int × Nat)
  | .finite s m e =>
    some (if 0 ≤ e then (signed s m * Nat.pow 2 e.toNat, 1) else (signed s m, Nat.pow 2 (-e).toNat))
  | _ => none

/-- Whether the number is a zero. -/
def isZero : Binary64 → Bool
  | .finite _ m _ => m == 0
  | _ => false

/-- The number with its sign flipped. -/
def neg : Binary64 → Binary64
  | .nan => .nan
  | .infinite s => .infinite !s
  | .finite s m e => .finite (!s) m e

/-- The exact sum, rounded. A zero sum is negative only if both terms are. -/
def add : Binary64 → Binary64 → Binary64
  | .nan, _ => .nan
  | _, .nan => .nan
  | .infinite s, .infinite t => if s = t then .infinite s else .nan
  | .infinite s, .finite .. => .infinite s
  | .finite .., .infinite t => .infinite t
  | .finite s m e, .finite t n f =>
    let low := min e f
    let total := signed s m * Nat.pow 2 (e - low).toNat + signed t n * Nat.pow 2 (f - low).toNat
    if total = 0 then zero (s && t) else ofScaled total low

/-- The exact difference, rounded. -/
def sub (x y : Binary64) : Binary64 := add x (neg y)

/-- The exact product, rounded. -/
def mul : Binary64 → Binary64 → Binary64
  | .nan, _ => .nan
  | _, .nan => .nan
  | .infinite s, .infinite t => .infinite (s != t)
  | .infinite s, .finite t n _ => if n = 0 then .nan else .infinite (s != t)
  | .finite s m _, .infinite t => if m = 0 then .nan else .infinite (s != t)
  | .finite s m e, .finite t n f =>
    let low := e + f
    if 0 ≤ low then ofRatio (s != t) (m * n * Nat.pow 2 low.toNat) 1
    else ofRatio (s != t) (m * n) (Nat.pow 2 (-low).toNat)

/-- The exact quotient, rounded; a zero divisor gives an infinity, or a NaN for zero by zero. -/
def div : Binary64 → Binary64 → Binary64
  | .nan, _ => .nan
  | _, .nan => .nan
  | .infinite _, .infinite _ => .nan
  | .infinite s, .finite t _ _ => .infinite (s != t)
  | .finite s _ _, .infinite t => zero (s != t)
  | .finite s m e, .finite t n f =>
    if n = 0 then if m = 0 then .nan else .infinite (s != t)
    else
      let low := e - f
      if 0 ≤ low then ofRatio (s != t) (m * Nat.pow 2 low.toNat) n
      else ofRatio (s != t) m (n * Nat.pow 2 (-low).toNat)

/-- Equality of numbers: the zeros are equal and a NaN equals nothing. -/
def eqv : Binary64 → Binary64 → Bool
  | .nan, _ => false
  | _, .nan => false
  | .infinite s, .infinite t => s == t
  | .finite s m e, .finite t n f => (m == 0 && n == 0) || (s == t && m == n && e == f)
  | _, _ => false

/-- Equality with an integer, both taken exactly. -/
def eqvInt (x : Binary64) (n : Int) : Bool :=
  match ratio? x with
  | some (p, q) => p == n * q
  | none => false

/-- The integer part, toward zero. -/
def truncate? (x : Binary64) : Option Int :=
  (ratio? x).map fun r => r.1.tdiv r.2

/-- What a finite number exceeds its integer part by, with the number's sign. It is exact: the
fraction has no more significand bits than the number. -/
def fraction : Binary64 → Binary64
  | .finite s m e =>
    if 0 ≤ e then zero s
    else ofRatio s (m % Nat.pow 2 (-e).toNat) (Nat.pow 2 (-e).toNat)
  | x => x

end Binary64

end LiveDoc
