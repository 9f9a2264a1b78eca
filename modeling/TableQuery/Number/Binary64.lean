/-
Binary floating-point numbers of 64 bits, as exact data.

A finite number is a sign, a whole mantissa below 2^53 and a power of two, so it
can be compared with whole numbers and rounded without any loss.  Nothing is
computed with these numbers: they are read, printed, compared and truncated.
Reading takes the nearest representable number of an exact ratio, and a ratio
half way between two goes to the one with the even mantissa.
-/
namespace TableQuery

/-- A binary64 number: `finite s m e` stands for `m * 2^e`, negated when `s` is set. -/
inductive Binary64 where
  | finite (negative : Bool) (mantissa : Nat) (exponent : Int)
  | infinite (negative : Bool)
  | nan
  deriving DecidableEq, Repr, Inhabited

namespace Binary64

/-- A power of two. -/
def twoPow (n : Nat) : Nat := Nat.pow 2 n

/-- A power of ten. -/
def tenPow (n : Nat) : Nat := Nat.pow 10 n

/-- The least exponent, shared by zero and the subnormal numbers. -/
def minExponent : Int := -1074

/-- The greatest exponent of a finite number. -/
def maxExponent : Int := 971

/-- The ratio `n / d` rounded to a whole number, a half going to the even neighbour. -/
def roundHalfEven (n d : Nat) : Nat :=
  let q := n / d
  let r := n % d
  if d < 2 * r || (2 * r == d && q % 2 == 1) then q + 1 else q

/-- The ratio `n / (d * 2^e)` as a numerator and a denominator. -/
def scaled (n d : Nat) (e : Int) : Nat × Nat :=
  if 0 ≤ e then (n, d * twoPow e.toNat) else (n * twoPow (-e).toNat, d)

/-- The number nearest to `n / d`, negated when `negative` is set. -/
def ofRatio (negative : Bool) (n d : Nat) : Binary64 :=
  if n = 0 then .finite negative 0 minExponent else
  let guess : Int := (n.log2 : Int) - (d.log2 : Int) - 52
  let (gn, gd) := scaled n d guess
  let normal := if gn / gd < twoPow 52 then guess - 1 else guess
  let e := max normal minExponent
  let (sn, sd) := scaled n d e
  let m := roundHalfEven sn sd
  let (m, e) := if m = twoPow 53 then (twoPow 52, e + 1) else (m, e)
  if maxExponent < e then .infinite negative else .finite negative m e

/-- How many decimal digits a whole number has; zero has one. -/
def digitCount (n : Nat) : Nat := (Nat.toDigits 10 n).length

/-- The number nearest to `digits * 10^power`.  Magnitudes far outside the range
are decided by their digit count, so no huge power is ever formed. -/
def ofDecimal (negative : Bool) (digits : Nat) (power : Int) : Binary64 :=
  let top := (digitCount digits : Int) + power
  if digits = 0 ∨ top < -400 then .finite negative 0 minExponent
  else if 400 < top then .infinite negative
  else if 0 ≤ power then ofRatio negative (digits * tenPow power.toNat) 1
  else ofRatio negative digits (tenPow (-power).toNat)

/-- The magnitude of `m * 2^e` as a ratio. -/
def magnitude (m : Nat) (e : Int) : Nat × Nat :=
  if 0 ≤ e then (m * twoPow e.toNat, 1) else (m, twoPow (-e).toNat)

/-- The whole part, toward zero; none for an infinity and for what is no number. -/
def truncate? : Binary64 → Option Int
  | .finite s m e =>
    let (n, d) := magnitude m e
    let whole : Int := ((n / d : Nat) : Int)
    some (if s then -whole else whole)
  | _ => none

/-- The whole number that this number is, if it is one. -/
def whole? : Binary64 → Option Int
  | .finite s m e =>
    let (n, d) := magnitude m e
    if n % d = 0 then
      let whole : Int := ((n / d : Nat) : Int)
      some (if s then -whole else whole)
    else none
  | _ => none

/-- Numeric equality: the two zeros are equal, and what is no number differs from itself. -/
def eq : Binary64 → Binary64 → Bool
  | .finite s m e, .finite t n f => (m == n && e == f && s == t) || (m == 0 && n == 0)
  | .infinite s, .infinite t => s == t
  | _, _ => false

/-- Whether this number is zero. -/
def isZero : Binary64 → Bool
  | .finite _ m _ => m == 0
  | _ => false

end Binary64

end TableQuery
