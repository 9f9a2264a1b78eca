/-
Tables: a name, and the columns that are known of it.

A table that is known by its name alone has no columns, or only those that a write
names; such columns have no type, no default and are no part of a key.
-/
import TableQuery.Sql.Type

namespace TableQuery

/-- A column of a table. -/
structure TableColumn where
  name : String
  type : SqlType
  /-- Whether the column is part of the primary key. -/
  isKey : Bool
  /-- Whether the database numbers the rows by this column. -/
  autoincrement : Bool
  /-- What a row that leaves the column out is given before it is sent. -/
  default : Option Value
  /-- Whether the database itself has a default for the column. -/
  serverDefault : Bool
  /-- What an update that leaves the column out gives it. -/
  onUpdate : Option Value

namespace TableColumn

/-- A column of which only the name is known. -/
def untyped (name : String) : TableColumn := ⟨name, .unknown, false, false, none, false, none⟩

/-- Whether an absent value can be filled in without the row giving it. -/
def hasDefault (c : TableColumn) : Bool := c.isKey || c.default.isSome || c.serverDefault

end TableColumn

/-- A table with the columns known of it. -/
structure Table where
  name : String
  columns : List TableColumn

namespace Table

/-- A table of which only the name is known, and the columns that a write names. -/
def named (name : String) (columns : List String) : Table := ⟨name, columns.map .untyped⟩

/-- The same columns under another name. -/
def rename (t : Table) (name : String) : Table := { t with name }

/-- The column of a name. -/
def column? (t : Table) (name : String) : Option TableColumn :=
  t.columns.find? (fun c => c.name == name)

/-- The names of the columns in order. -/
def columnNames (t : Table) : List String := t.columns.map (·.name)

/-- The columns of the primary key in order. -/
def keyColumns (t : Table) : List TableColumn := t.columns.filter (·.isKey)

/-- The names of the primary key in order. -/
def keyNames (t : Table) : List String := t.keyColumns.map (·.name)

/-- Whether a table has a column that fills an absent value in. -/
def hasDefault (t : Table) (name : String) : Bool :=
  (t.column? name).any TableColumn.hasDefault

end Table

end TableQuery
