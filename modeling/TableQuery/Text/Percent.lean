/-
Percent encoding, as the parts of a URL use it.

A byte that is not safe is written as a percent sign and two hexadecimal digits.  The
user part keeps blanks and plus signs; in a query a blank is written as a plus sign.
-/
import TableQuery.Text.Quoted
import TableQuery.Text.Utf8

namespace TableQuery

namespace Percent

/-- The characters that are safe everywhere. -/
def isSafe (c : Char) : Bool :=
  c.isAlphanum || c == '_' || c == '.' || c == '-' || c == '~'

/-- A byte behind a percent sign. -/
def escape (b : UInt8) : String :=
  "%" ++ String.ofList ((hexadecimal 2 b.toNat).toList.map Char.toUpper)

/-- A byte, escaped unless its character is kept. -/
def encodeByte (keep : Char → Bool) (b : UInt8) : String :=
  let c := Char.ofNat b.toNat
  if b < 0x80 && keep c then String.ofList [c] else escape b

/-- A text with everything escaped that is not kept. -/
def encode (keep : Char → Bool) (s : String) : String :=
  String.join ((Utf8.encode s).map (encodeByte keep))

/-- The name of a user or a password. -/
def encodeUser (s : String) : String := encode (fun c => isSafe c || c == ' ' || c == '+') s

/-- A key or a value of a query. -/
def encodeQuery (s : String) : String :=
  String.ofList ((encode (fun c => isSafe c || c == ' ') s).toList.map
    (fun c => if c == ' ' then '+' else c))

/-- The value of a hexadecimal digit. -/
def hexValue? (c : Char) : Option Nat :=
  if c.isDigit then some (c.toNat - 0x30)
  else if 'a' ≤ c && c ≤ 'f' then some (c.toNat - 0x57)
  else if 'A' ≤ c && c ≤ 'F' then some (c.toNat - 0x37)
  else none

/-- The byte of two hexadecimal digits. -/
def hexByte? (a b : Char) : Option UInt8 :=
  match hexValue? a, hexValue? b with
  | some m, some n => some (UInt8.ofNat (16 * m + n))
  | _, _ => none

/-- The characters of an escaped text after a pending one; a percent sign without two
digits stands for itself. -/
def decodeFrom (p : Option Utf8.Pending) : List Char → List Char
  | [] => Utf8.finish p
  | '%' :: a :: b :: cs =>
    match hexByte? a b with
    | some byte =>
      let (out, next) := Utf8.step p byte
      out ++ decodeFrom next cs
    | none =>
      let (out, next) := Utf8.step p 0x25
      out ++ decodeFrom next (a :: b :: cs)
  | c :: cs =>
    if c.toNat < 0x80 then
      let (out, next) := Utf8.step p (UInt8.ofNat c.toNat)
      out ++ decodeFrom next cs
    else Utf8.finish p ++ c :: decodeFrom none cs

/-- The text that an escaped text stands for. -/
def decode (cs : List Char) : String := String.ofList (decodeFrom none cs)

/-- The key or value that a part of a query stands for. -/
def decodeQuery (cs : List Char) : String :=
  decode (cs.map (fun c => if c == '+' then ' ' else c))

end Percent

end TableQuery
