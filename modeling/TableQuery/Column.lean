/-
Columns as a caller names them.

A column is a name, possibly bound to a table.  Two columns are equal when their
names are, whatever table they are bound to.  Whether a column is a field only says that
it builds conditions; it matters where the column is shown.

Resolving a column looks its name up in the table of a statement.  A column bound to
another table is qualified by that table, one that the table has takes its type from it,
and any other is a bare name.
-/
import TableQuery.Sql.Expr
import TableQuery.Table
import TableQuery.Error

namespace TableQuery

/-- Whether a column builds conditions. -/
inductive ColumnKind where
  | plain
  | field
  deriving DecidableEq, Repr

/-- The name of a kind of column. -/
def ColumnKind.name : ColumnKind → String
  | .plain => "Column"
  | .field => "Field"

/-- A named column. -/
structure Column where
  kind : ColumnKind
  name : String
  /-- The table that the column is bound to, if any. -/
  table : Option String
  /-- A column has a name. -/
  name_ne_empty : name ≠ ""

namespace Column

/-- A column of a name that may be empty. -/
def ofName (kind : ColumnKind) (name : String) : Except Error Column :=
  if h : name = "" then .error .emptyColumnName else .ok ⟨kind, name, none, h⟩

/-- The same column bound to a table, or to none. -/
def withTable (c : Column) (table : Option String) : Column := { c with table }

/-- The parts of a column by name. -/
def partNames : List String := ["name", "table"]

/-- Setting an attribute of a column: its parts are never set again.  A plain column has
no other attribute, and a field takes any. -/
def setAttribute (c : Column) (name : String) : Except Error Unit :=
  if c.kind = .plain || partNames.contains name then .error (.frozen name) else .ok ()

/-- Columns are equal when their names are. -/
instance : BEq Column := ⟨fun a b => a.name == b.name⟩

/-- The text of a column, as messages show it. -/
def render (c : Column) : String :=
  let table := match c.table with
    | some t => quoteText t
    | none => "None"
  c.kind.name ++ "(name=" ++ quoteText c.name ++ ", table=" ++ table ++ ")"

/-- The column when it is bound to another table than that of the statement. -/
def elsewhere? (c : Column) (t : Option Table) : Option Sql.ColumnRef :=
  match c.table with
  | none => none
  | some own =>
    if t.any (fun t => t.name == own) then none else some ⟨c.name, some own, .unknown⟩

/-- The column when the table of the statement has it. -/
def within? (c : Column) (t : Option Table) : Option Sql.ColumnRef :=
  match t with
  | none => none
  | some t => (t.column? c.name).map (fun col => ⟨c.name, some t.name, col.type⟩)

/-- The column as an expression over the table of a statement names it. -/
def resolve (c : Column) (t : Option Table) : Sql.ColumnRef :=
  match c.elsewhere? t, c.within? t with
  | some r, _ => r
  | none, some r => r
  | none, none => ⟨c.name, none, .unknown⟩

end Column

namespace Sql

/-- What rows are ordered by: a column, or a name passed on as it is. -/
inductive OrderKey where
  | column (c : ColumnRef)
  | verbatim (name : String)
  deriving DecidableEq, Repr

end Sql

/-- The column as a key of an order: a bare name is passed on as it is. -/
def Column.orderKey (c : Column) (t : Option Table) : Sql.OrderKey :=
  match c.elsewhere? t, c.within? t with
  | some r, _ => .column r
  | none, some r => .column r
  | none, none => .verbatim c.name

end TableQuery
