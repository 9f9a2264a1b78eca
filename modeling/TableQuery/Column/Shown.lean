/-
How a column of a table is shown on its own.

A column of a model's table is shown by plain names, with nothing quoted; any other is
shown as it stands in generic SQL.
-/
import TableQuery.Column
import TableQuery.Sql.Printer

namespace TableQuery

/-- A column resolved for a table, as text. -/
structure ShownColumn where
  /-- The column as an expression. -/
  expression : String
  /-- The column as a key of an order. -/
  orderKey : String
  type : SqlType
  deriving DecidableEq, Repr

namespace Column

/-- The text of a resolved column of a table. -/
def textIn (t : Option Table) (r : Sql.ColumnRef) : Except Error String :=
  let generic := (Sql.render (.generic true) r.pieces).map (·.sql)
  match r.table with
  | some own => if t.any (fun t => t.name == own) then .ok (own ++ "." ++ r.name) else generic
  | none => generic

/-- How a column is shown for a table. -/
def shown (c : Column) (t : Option Table) : Except Error ShownColumn := do
  let expression ← textIn t (c.resolve t)
  let orderKey ← match c.orderKey t with
    | .column r => textIn t r
    | .verbatim name => .ok name
  return ⟨expression, orderKey, (c.resolve t).type⟩

end Column

end TableQuery
