/-
Real numbers in text: optional white space, a sign, and a decimal with or without an
exponent, or the name of an infinity or of what is no number.

The digits may be of any script, and an underscore may stand between two of them.  A
decimal stands for the nearest binary64 number, one that is too large for an infinity.
-/
import TableQuery.Number.Binary64
import TableQuery.Text.Integer

namespace TableQuery

/-- A digit of any script as an ASCII digit. -/
def asciiDigit (c : Char) : Char :=
  match digitValue? c with
  | some d => Char.ofNat ('0'.toNat + d)
  | none => c

/-- A text without its underscores; none when one of them does not stand between two
digits.  `afterDigit` says that a digit stands just before. -/
def joinDigits? (afterDigit : Bool) : List Char → Option (List Char)
  | [] => some []
  | ['_'] => none
  | '_' :: c :: cs =>
    if afterDigit && c.isDigit then (joinDigits? true cs).map (c :: ·) else none
  | c :: cs => (joinDigits? c.isDigit cs).map (c :: ·)

/-- The number of ASCII digits. -/
def digitsValue (cs : List Char) : Nat := cs.foldl (fun n c => 10 * n + (c.toNat - '0'.toNat)) 0

/-- The number of ASCII digits of which there are some, and of nothing else. -/
def onlyDigits? (cs : List Char) : Option Nat :=
  if cs.isEmpty || !cs.all Char.isDigit then none else some (digitsValue cs)

/-- The power of ten that ends a decimal; none is given by nothing. -/
def exponent? : List Char → Option Int
  | [] => some 0
  | e :: cs =>
    if e = 'e' || e = 'E' then
      match cs with
      | '-' :: cs => (onlyDigits? cs).map (fun n => -(n : Int))
      | '+' :: cs => (onlyDigits? cs).map (fun n => (n : Int))
      | cs => (onlyDigits? cs).map (fun n => (n : Int))
    else none

/-- The number of a decimal without a sign, negated when `negative` is set. -/
def decimal? (negative : Bool) (cs : List Char) : Option Binary64 :=
  let whole := cs.takeWhile Char.isDigit
  let rest := cs.dropWhile Char.isDigit
  let (fraction, rest) := match rest with
    | '.' :: r => (r.takeWhile Char.isDigit, r.dropWhile Char.isDigit)
    | r => ([], r)
  if whole.isEmpty && fraction.isEmpty then none
  else
    (exponent? rest).map (fun k =>
      Binary64.ofDecimal negative (digitsValue (whole ++ fraction)) (k - (fraction.length : Int)))

/-- The number of a text without a sign, negated when `negative` is set. -/
def unsignedReal? (negative : Bool) (cs : List Char) : Option Binary64 :=
  let word := String.ofList (cs.map Char.toLower)
  if word = "inf" || word = "infinity" then some (.infinite negative)
  else if word = "nan" then some .nan
  else decimal? negative cs

/-- The real number that a text stands for, white space around it left out. -/
def realOfText? (s : String) : Option Binary64 :=
  match joinDigits? false ((trimBy isWhite s.toList).map asciiDigit) with
  | none => none
  | some ('-' :: cs) => unsignedReal? true cs
  | some ('+' :: cs) => unsignedReal? false cs
  | some cs => unsignedReal? false cs

end TableQuery
