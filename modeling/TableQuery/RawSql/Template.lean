/-
Templates: the text of a statement with named binds in it.

A bind is a colon and a name, the longest run of name characters after it.  The colon
must not follow a colon, a name character or a backslash, and the name must not be
followed by a colon.  A backslash before a colon that is not followed by a second one
after its name only says that the colon starts no bind, and is left out.

A template is read twice.  The names that it defines are runs of word characters, and of a
run that a colon follows all but the last character is a name still.  When the template is
written out such a run is no name, and a dollar sign counts as a name character as well.  So
a bind may be defined that has no place in the text.
-/
import TableQuery.Names
import TableQuery.Text.Word

namespace TableQuery

namespace RawSql

/-- A part of a template. -/
inductive Part where
  | char (c : Char)
  | bind (name : List Char)
  deriving DecidableEq, Repr

/-- Whether a character is part of a name when a template is written out. -/
def isNameChar (c : Char) : Bool := isWord c || c == '$'

section Reading

variable (inName : Char → Bool) (retreats : Bool)

/-- Whether a colon after this character starts no bind. -/
def blocksBind (c : Char) : Bool := c == ':' || c == '\\' || inName c

/-- The name that follows a colon.  A name must not be followed by another colon; one that is
may retreat by a character, if one is left. -/
def nameAfter? (cs : List Char) : Option (List Char) :=
  let run := cs.takeWhile inName
  if (cs.dropWhile inName).head? == some ':' then
    if retreats && 1 < run.length then some run.dropLast else none
  else some run

/-- The parts of a text after the character `previous`; its first `skip` characters
belong to the part before. -/
def partsFrom (previous : Option Char) : Nat → List Char → List Part
  | _, [] => []
  | skip + 1, c :: cs => partsFrom (some c) skip cs
  | 0, c :: cs =>
    if c = ':' && !previous.any (blocksBind inName) then
      match nameAfter? inName retreats cs with
      | some (n :: ns) => .bind (n :: ns) :: partsFrom (some c) (ns.length + 1) cs
      | _ => .char c :: partsFrom (some c) 0 cs
    else if c = '\\' then
      match cs with
      | ':' :: rest =>
        if (nameAfter? inName retreats rest).isSome then partsFrom (some c) 0 cs
        else .char c :: partsFrom (some c) 0 cs
      | _ => .char c :: partsFrom (some c) 0 cs
    else .char c :: partsFrom (some c) 0 cs

end Reading

/-- The parts of a template, read for the names that it defines. -/
def parts (cs : List Char) : List Part := partsFrom isWord true none 0 cs

/-- The parts of a template, read to be written out. -/
def writtenParts (cs : List Char) : List Part := partsFrom isNameChar false none 0 cs

/-- The name of a part, if it is a bind. -/
def Part.name? : Part → Option String
  | .char _ => none
  | .bind name => some (String.ofList name)

/-- The names of binds, each at its first place. -/
def bindNames (ps : List Part) : List String := distinct (ps.filterMap Part.name?)

end RawSql

end TableQuery
