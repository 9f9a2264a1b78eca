/-
The segments of a raw statement: what lies inside literals, quoted names and comments,
and what does not.

Scanning goes from left to right and takes what starts first.  A literal or a name in
double quotes ends at its quote, and a doubled quote stands for one inside it; when
nothing closes the text after a doubled quote, the first of the two closes it.
Backslash escapes are honoured on demand.  An opener that nothing closes is an
ordinary character.
-/
namespace TableQuery

namespace RawSql

/-- A segment of a raw statement. -/
inductive Segment where
  /-- A character outside everything. -/
  | ordinary (c : Char)
  /-- A literal, a quoted name or a comment. -/
  | shielded (cs : List Char)
  /-- A placeholder: `%s` when `percent` is set, else `?`. -/
  | placeholder (percent : Bool)
  | colon
  deriving DecidableEq, Repr

/-- The characters of a segment. -/
def Segment.chars : Segment → List Char
  | ordinary c => [c]
  | shielded cs => cs
  | placeholder true => ['%', 's']
  | placeholder false => ['?']
  | colon => [':']

/-- What follows an opening quote up to the quote that closes it. -/
def closeQuote (escapes : Bool) (q : Char) : List Char → Option (List Char)
  | [] => none
  | [c] => if c = q then some [c] else none
  | c :: d :: cs =>
    if c = q then
      if d = q then
        match closeQuote escapes q cs with
        | some body => some (c :: d :: body)
        | none => some [c]
      else some [c]
    else if escapes && c = '\\' then (closeQuote escapes q cs).map (fun body => c :: d :: body)
    else (closeQuote escapes q (d :: cs)).map (c :: ·)

/-- What follows an opening character up to the next one like it. -/
def closeAt (q : Char) : List Char → Option (List Char)
  | [] => none
  | c :: cs => if c = q then some [c] else (closeAt q cs).map (c :: ·)

/-- What follows the start of a block comment up to its end. -/
def closeComment : List Char → Option (List Char)
  | [] => none
  | '*' :: '/' :: _ => some ['*', '/']
  | c :: cs => (closeComment cs).map (c :: ·)

/-- The segment that starts with `c` before `cs`, if one other than an ordinary
character does. -/
def opened? (escapes : Bool) (c : Char) (cs : List Char) : Option Segment :=
  if c = '\x27' || c = '"' then (closeQuote escapes c cs).map (fun body => .shielded (c :: body))
  else if c = '\x60' then (closeAt c cs).map (fun body => .shielded (c :: body))
  else if c = '?' then some (.placeholder false)
  else if c = ':' then some .colon
  else
    match c, cs with
    | '-', '-' :: _ => some (.shielded (c :: cs.takeWhile (fun c => c ≠ '\n')))
    | '/', '*' :: rest => (closeComment rest).map (fun body => .shielded ('/' :: '*' :: body))
    | '%', 's' :: _ => some (.placeholder true)
    | _, _ => none

/-- The segments of a text of which the first `skip` characters belong to the segment
before. -/
def segmentsFrom (escapes : Bool) : Nat → List Char → List Segment
  | _, [] => []
  | skip + 1, _ :: cs => segmentsFrom escapes skip cs
  | 0, c :: cs =>
    match opened? escapes c cs with
    | some s => s :: segmentsFrom escapes (s.chars.length - 1) cs
    | none => .ordinary c :: segmentsFrom escapes 0 cs

/-- The segments of a raw statement. -/
def segments (escapes : Bool) (cs : List Char) : List Segment := segmentsFrom escapes 0 cs

end RawSql

end TableQuery
