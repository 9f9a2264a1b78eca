import TableQuery.Number.Binary64
/-
The decimal text of a binary64 number.

The digits are the fewest that read back as the same number: on each decimal grid,
from one digit to seventeen, the two neighbours of the exact value are tested
against the interval of reals that round to it, and the first grid with a hit wins.
Of two hits the nearer is taken, and of two equally near ones the even digit.

How the digits are laid out is one record, `RealFormat`: the range written
positionally, and the least number of exponent digits.
-/
namespace TableQuery

/-- How a real number is laid out in text. -/
structure RealFormat where
  /-- Positional when the decimal point stands after more than this many places. -/
  above : Int
  /-- Positional when the decimal point stands after at most this many places. -/
  upTo : Int
  /-- The least number of digits of an exponent. -/
  exponentDigits : Nat

/-- Reals are positional from 0.0001 up to 10^16 and have at least two exponent digits. -/
def RealFormat.standard : RealFormat := ⟨-4, 16, 2⟩

namespace Binary64

/-- Trailing zeros moved from the digits into the power of ten, at most `fuel` of them. -/
def dropZeros : Nat → Nat → Int → Nat × Int
  | 0, d, k => (d, k)
  | fuel + 1, d, k => if d ≠ 0 ∧ d % 10 = 0 then dropZeros fuel (d / 10) (k + 1) else (d, k)

/-- Where the decimal point of `n / d` stands: the `p` with `10^(p-1) ≤ n/d < 10^p`. -/
def decade (n d : Nat) : Int :=
  if d ≤ n then digitCount (n / d)
  else
    let p := digitCount (d / n)
    if n * tenPow (p - 1) = d then 2 - (p : Int) else 1 - (p : Int)

/-- The digits and power of ten of the shortest decimal that rounds to `m * 2^e`. -/
def shortest (m : Nat) (e : Int) : Nat × Int :=
  let up := twoPow e.toNat
  let den := 4 * twoPow (-e).toNat
  let num := 4 * m * up
  let low := num - (if m = twoPow 52 ∧ minExponent < e then 1 else 2) * up
  let high := num + 2 * up
  let p := decade num den
  let grid (n : Nat) : Option (Nat × Int) :=
    let k : Int := p - (n : Int)
    -- the grid point `c` stands for `c * 10^k`; compare everything times `den`
    let (scale, unit) := if 0 ≤ k then (1, den * tenPow k.toNat) else (tenPow (-k).toNat, den)
    let inside (c : Nat) : Bool :=
      if m % 2 = 0 then decide (low * scale ≤ c * unit ∧ c * unit ≤ high * scale)
      else decide (low * scale < c * unit ∧ c * unit < high * scale)
    let q := num * scale / unit
    let below := num * scale - q * unit
    let above := (q + 1) * unit - num * scale
    match inside q, inside (q + 1) with
    | true, true =>
      if below < above ∨ (below = above ∧ q % 2 = 0) then some (q, k) else some (q + 1, k)
    | true, false => some (q, k)
    | false, true => some (q + 1, k)
    | false, false => none
  match (List.range 17).findSome? (fun i => grid (i + 1)) with
  | some (d, k) => dropZeros 17 d k
  | none => (num / den, 0)

/-- A whole number in decimal with at least `width` digits. -/
def padded (width n : Nat) : String :=
  let s := toString n
  String.ofList (List.replicate (width - s.length) '0') ++ s

/-- The layout of the nonzero number `d * 10^k`, given its digits. -/
def layout (f : RealFormat) (d : Nat) (k : Int) : String :=
  let digits := Nat.toDigits 10 d
  let point : Int := digits.length + k
  if f.above < point ∧ point ≤ f.upTo then
    if point ≤ 0 then
      "0." ++ String.ofList (List.replicate (-point).toNat '0') ++ String.ofList digits
    else if k < 0 then
      String.ofList (digits.take point.toNat) ++ "." ++ String.ofList (digits.drop point.toNat)
    else String.ofList digits ++ String.ofList (List.replicate k.toNat '0') ++ ".0"
  else
    let exponent := point - 1
    let body := match digits with
      | [] => ""
      | [c] => String.ofList [c]
      | c :: rest => String.ofList [c] ++ "." ++ String.ofList rest
    let sign := if exponent < 0 then "-" else "+"
    body ++ "e" ++ sign ++ padded f.exponentDigits exponent.natAbs

/-- The text of a number: the shortest digits that read back, laid out by the format. -/
def render (f : RealFormat) : Binary64 → String
  | .nan => "nan"
  | .infinite s => if s then "-inf" else "inf"
  | .finite s m e =>
    let sign := if s then "-" else ""
    if m = 0 then sign ++ "0.0"
    else
      let (d, k) := shortest m e
      sign ++ layout f d k

end Binary64

end TableQuery
