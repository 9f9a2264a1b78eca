/-
The text of expressions, as pieces.

A disjunction inside a conjunction is parenthesised and a conjunction inside a
disjunction is not.  After NOT a junction and another NOT are parenthesised.  A test
that a value is not among several always is.
-/
import TableQuery.Sql.Expr
import TableQuery.Sql.Piece

namespace TableQuery

namespace Sql

/-- A column with the table that qualifies it. -/
def ColumnRef.pieces (c : ColumnRef) : List Piece :=
  match c.table with
  | some t => [.name t, .text ".", .name c.name]
  | none => [.name c.name]

/-- The sign of a relation. -/
def Relation.sign : Relation → String
  | .eq => " = "
  | .ne => " != "
  | .gt => " > "
  | .ge => " >= "
  | .lt => " < "
  | .le => " <= "
  | .like => " LIKE "
  | .notLike => " NOT LIKE "

/-- The word of a junction. -/
def Junction.word : Junction → String
  | .conjunction => " AND "
  | .disjunction => " OR "

/-- The place of the values that a column is compared with. -/
def ColumnRef.slot (c : ColumnRef) (vs : List Value) : Slot :=
  ⟨c.name, true, SqlType.ofParameter c.type vs⟩

/-- A constant where a condition is needed. -/
def constTestText (d : Dialect) (b : Bool) : String :=
  if d.hasBooleans then d.boolWord b else d.boolWord b ++ " = 1"

/-- A Boolean column as a condition. -/
def flagPieces (d : Dialect) (c : ColumnRef) (set : Bool) : List Piece :=
  if d.hasBooleans then (if set then c.pieces else .text "NOT " :: c.pieces)
  else c.pieces ++ [.text (if set then " = 1" else " = 0")]

/-- Pieces between parentheses. -/
def parenthesised (ps : List Piece) : List Piece := .text "(" :: ps ++ [.text ")"]

/-- Whether an expression is parenthesised after NOT. -/
def Expr.isGroupedByNot : Expr → Bool
  | .junction _ _ | .not _ => true
  | _ => false

/-- Whether an expression is parenthesised inside a junction. -/
def Expr.isGroupedIn (j : Junction) : Expr → Bool
  | .junction k _ => j = .conjunction && k = .disjunction
  | _ => false

mutual

/-- The pieces of an expression. -/
def Expr.pieces (d : Dialect) : Expr → List Piece
  | .compare r c v => c.pieces ++ [.text r.sign, .value (c.slot [v]) v]
  | .truth negated c b =>
    c.pieces ++ [.text ((if negated then " != " else " = ") ++ d.boolWord b)]
  | .null negated c => c.pieces ++ [.text (if negated then " IS NOT NULL" else " IS NULL")]
  | .member false c vs =>
    c.pieces ++ [.text " IN (", .members (c.slot vs) .member vs, .text ")"]
  | .member true c vs =>
    .text "(" :: c.pieces ++ [.text " NOT IN (", .members (c.slot vs) .notMember vs, .text "))"]
  | .column c => c.pieces
  | .flag c set => flagPieces d c set
  | .native s => [.text s]
  | .nullValue => [.text "NULL"]
  | .const b => [.text (d.boolWord b)]
  | .constTest b => [.text (constTestText d b)]
  | .not e =>
    .text "NOT " :: (if e.isGroupedByNot then parenthesised (e.pieces d) else e.pieces d)
  | .junction j es => junctionPieces d j es

/-- The pieces of the members of a junction. -/
def junctionPieces (d : Dialect) (j : Junction) : List Expr → List Piece
  | [] => []
  | [e] => if e.isGroupedIn j then parenthesised (e.pieces d) else e.pieces d
  | e :: es =>
    (if e.isGroupedIn j then parenthesised (e.pieces d) else e.pieces d)
      ++ .text j.word :: junctionPieces d j es

end

end Sql

end TableQuery
