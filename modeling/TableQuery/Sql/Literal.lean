/-
Statements with their values written inline.

A value is written as a literal of the type it is bound as, and a value that is none of
that type is refused.  Null is the same for every type.
-/
import TableQuery.Number.Shortest
import TableQuery.Sql.Piece
import TableQuery.Text.Utf8
import TableQuery.Value.Equality
import TableQuery.Value.Integer

namespace TableQuery

/-- Whether the backslash escapes inside a literal. -/
def Dialect.escapesBackslash : Dialect → Bool
  | .postgresql | .mysql | .mariadb => true
  | _ => false

namespace Sql

/-- The characters of a text inside a literal: the quote is doubled, and the backslash
too where it would escape. -/
def literalChars (d : Dialect) (c : Char) : List Char :=
  if c == '\x27' || (c == '\\' && d.escapesBackslash) then [c, c] else [c]

/-- A text as a literal. -/
def literalText (d : Dialect) (s : String) : String :=
  String.ofList ('\x27' :: s.toList.flatMap (literalChars d) ++ ['\x27'])

/-- The truth value that equals a value. -/
def truthOf? (v : Value) : Option Bool :=
  if Value.eq v (.bool true) then some true
  else if Value.eq v (.bool false) then some false
  else none

/-- The literal of a value that is not null, if it has one of its type. -/
def literal? (d : Dialect) (type : SqlType) (v : Value) : Option String :=
  match type, v with
  | .integer, v => v.toInteger.toOption.map toString
  | .real, .bool _ | .real, .int _ | .real, .float _ => some v.render
  | .string _, .text s => some (literalText d s)
  | .binary, .bytes bs => (Utf8.decode? bs).map (literalText d)
  | .boolean, v => (truthOf? v).map d.boolWord
  | _, _ => none

/-- A value as a literal of its type. -/
def literal (d : Dialect) (type : SqlType) (v : Value) : Except Error String :=
  if v.isNull then .ok "NULL"
  else
    match literal? d type v with
    | some s => .ok s
    | none => .error (.noLiteral v type)

/-- The members of a list as literals. -/
def literalList (d : Dialect) (type : SqlType) (vs : List Value) : Except Error String :=
  if isGrouped type vs then .error .noGroupLiteral
  else (collect (literal d type) vs).map (", ".intercalate ·)

/-- The text of a piece with its value inline. -/
def Piece.literal (d : Dialect) : Piece → Except Error String
  | .text s => .ok s
  | .name s => writeName d s
  | .value slot v => Sql.literal d slot.type v
  | .members _ use [] => (emptyList d use).mapError .parameter
  | .members slot _ vs => literalList d slot.type vs
  | .missing slot => .error (.parameter (.missingValue slot.name))

/-- A statement with its values written inline. -/
def renderLiteral (d : Dialect) (ps : List Piece) : Except Error String :=
  (collect (Piece.literal d) ps).map String.join

end Sql

end TableQuery
