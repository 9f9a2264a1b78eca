/-
Statements as data.

A statement says what it reads or writes; its text depends on the dialect and is
written by a printer of its own.  An update and a delete always have a condition.
-/
import TableQuery.Column
import TableQuery.RawSql.Binding
import TableQuery.Row

namespace TableQuery

namespace Sql

/-- What a query of a table yields. -/
inductive Output where
  /-- The columns of the table, in its order. -/
  | columns
  /-- Whatever columns there are. -/
  | everything
  | count
  deriving DecidableEq, Repr

/-- A query of a table. -/
structure Select where
  table : Table
  output : Output
  condition : Option Expr
  /-- The keys of the order, each with whether it descends. -/
  orders : List (OrderKey × Bool)
  limit : Option Int
  offset : Option Int

/-- What an insert does with a row whose key exists already. -/
inductive Conflict where
  | fail
  /-- Every named column takes the value of the new row. -/
  | overwrite (keys columns : List String)
  /-- The old row stays. -/
  | keep (keys : List String)
  deriving DecidableEq, Repr

/-- What an insert asks to be told about the row it made. -/
inductive Returned where
  /-- A key that the database numbered. -/
  | key
  /-- Every value that the database filled in. -/
  | generated
  deriving DecidableEq, Repr

/-- An insert.  The names of the first row are the columns that all rows give. -/
structure Insert where
  table : Table
  first : Row
  rest : List Row
  conflict : Conflict
  returned : Returned
  /-- Whether names that the table does not have are left out; else they are refused. -/
  lenient : Bool

/-- An update of the rows that meet a condition. -/
structure Update where
  table : Table
  assignments : Row
  condition : Expr

/-- A delete of the rows that meet a condition. -/
structure Delete where
  table : Table
  condition : Expr

/-- A statement. -/
inductive Statement where
  | select (s : Select)
  | insert (i : Insert)
  | update (u : Update)
  | delete (d : Delete)
  | raw (b : RawSql.Bound)

namespace Insert

/-- The rows of an insert. -/
def rows (i : Insert) : List Row := i.first :: i.rest

/-- Where the value of a written column comes from. -/
inductive Source where
  | row
  | default (v : Value)

/-- The source of a column's value, if the insert writes the column: a row that leaves
a column out gets the default of the model. -/
def source? (i : Insert) (c : TableColumn) : Option Source :=
  if i.first.contains c.name then some .row else c.default.map .default

/-- The columns that an insert writes, in the order of the table. -/
def written (i : Insert) : List (TableColumn × Source) :=
  i.table.columns.filterMap (fun c => (i.source? c).map (fun s => (c, s)))

/-- The values of a row for the written columns; `number` counts the rows from zero. -/
def rowParameters (number : Nat) (r : Row) :
    List (TableColumn × Source) → Except ParameterError (List Parameter)
  | [] => .ok []
  | (c, s) :: rest =>
    let value? := match s with
      | .row => r.get? c.name
      | .default v => some v
    match value? with
    | some v => (rowParameters number r rest).map (⟨c.name, c.type, v⟩ :: ·)
    | none => .error (.missingInRow c.name number)

/-- Whether the database fills a column in and an insert asks for it: of a key it asks for
what the database numbers or has a default for. -/
def isReturned (i : Insert) (c : TableColumn) : Bool :=
  (i.source? c).isNone &&
    if c.isKey then c.autoincrement || c.serverDefault else i.returned = .generated

/-- Whether a dialect can tell what an insert asks for.  A driver that gives the number of a
new row is not asked for the key of a table with a numbered key. -/
def canReturn (d : Dialect) (i : Insert) : Bool :=
  i.rest.isEmpty &&
    match i.returned, d with
    | .key, .postgresql | .generated, .postgresql | .generated, .sqlite => true
    | .key, .sqlite => !i.table.columns.any (·.autoincrement)
    | _, _ => false

/-- The columns that an insert returns, in the order of the table. -/
def returnedColumns (d : Dialect) (i : Insert) : List TableColumn :=
  if i.canReturn d then i.table.columns.filter i.isReturned else []

end Insert

namespace Statement

/-- The names that a statement must not write, because its table does not have them. -/
def unknownColumns : Statement → List String
  | insert i =>
    if i.lenient then [] else i.first.names.filter (fun n => (i.table.column? n).isNone)
  | update u => u.assignments.names.filter (fun n => (u.table.column? n).isNone)
  | _ => []

end Statement

end Sql

end TableQuery
