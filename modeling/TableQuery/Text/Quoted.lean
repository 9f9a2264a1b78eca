/-
Quoted text: how a text or a string of bytes is shown inside messages.

The quotes are single unless the content holds a single quote and no double one.
The quote in use and the backslash are written after a backslash, tab, newline and
carriage return have letters of their own, and what cannot be printed is written by
its code in hexadecimal.
-/
import TableQuery.Text.Printable

namespace TableQuery

/-- The quote that content is put between: double when it holds a single quote only. -/
def quoteFor (holdsSingle holdsDouble : Bool) : Char :=
  if holdsSingle && !holdsDouble then '"' else '\x27'

/-- A number in hexadecimal with at least `width` digits. -/
def hexadecimal (width n : Nat) : String :=
  let ds := Nat.toDigits 16 n
  String.ofList (List.replicate (width - ds.length) '0' ++ ds)

/-- The escape of a character that has one whatever its kind, given the quote in use. -/
def commonEscape? (quote c : Char) : Option String :=
  if c == quote || c == '\\' then some (String.ofList ['\\', c])
  else if c == '\t' then some "\\t"
  else if c == '\n' then some "\\n"
  else if c == '\r' then some "\\r"
  else none

/-- A character of a quoted text. -/
def escapeChar (quote c : Char) : String :=
  match commonEscape? quote c with
  | some e => e
  | none =>
    if isPrintable c then String.ofList [c]
    else if c.toNat < 0x100 then "\\x" ++ hexadecimal 2 c.toNat
    else if c.toNat < 0x10000 then "\\u" ++ hexadecimal 4 c.toNat
    else "\\U" ++ hexadecimal 8 c.toNat

/-- A text between quotes. -/
def quoteText (s : String) : String :=
  let cs := s.toList
  let q := quoteFor (cs.contains '\x27') (cs.contains '"')
  let mark := String.ofList [q]
  mark ++ String.join (cs.map (escapeChar q)) ++ mark

/-- A byte of a quoted string of bytes. -/
def escapeByte (quote : Char) (b : UInt8) : String :=
  let c := Char.ofNat b.toNat
  match commonEscape? quote c with
  | some e => e
  | none =>
    if 0x20 ≤ b.toNat && b.toNat < 0x7f then String.ofList [c]
    else "\\x" ++ hexadecimal 2 b.toNat

/-- A string of bytes between quotes, marked by the letter `b`. -/
def quoteBytes (bs : List UInt8) : String :=
  let q := quoteFor (bs.contains 0x27) (bs.contains 0x22)
  let mark := String.ofList [q]
  "b" ++ mark ++ String.join (bs.map (escapeByte q)) ++ mark

end TableQuery
