/-
Models: the classes of records, and the tables they are mapped to.

A mapped model has a column for each attribute, and the two may be named differently.
No column and no attribute stands twice, so columns and attributes determine each
other.  A class that is not mapped may still declare the name of a table.
-/
import TableQuery.Table

namespace TableQuery

/-- A column of a model's table with the attribute that holds its values. -/
structure MappedColumn extends TableColumn where
  attr : String

/-- The columns of a model, each with its attribute. -/
structure Mapping where
  tableName : String
  /-- Which table it is: classes whose mappings agree here are mapped to one table. -/
  object : String := tableName
  columns : List MappedColumn
  /-- No two columns share a name. -/
  names_nodup : (columns.map (fun c => c.name)).Nodup := by decide
  /-- No two attributes share a name. -/
  attrs_nodup : (columns.map (fun c => c.attr)).Nodup := by decide

namespace Mapping

/-- The table of a mapping. -/
def table (m : Mapping) : Table := ⟨m.tableName, m.columns.map (·.toTableColumn)⟩

/-- The attribute that holds the values of a column. -/
def attr? (m : Mapping) (column : String) : Option String :=
  (m.columns.find? (fun c => c.name == column)).map (·.attr)

/-- The attributes in the order of the columns. -/
def attrs (m : Mapping) : List String := m.columns.map (·.attr)

end Mapping

/-- A class of records. -/
structure Model where
  /-- The name of the class, by which it is known: no other class has it. -/
  name : String
  /-- The name of the table that the class declares itself; it may be empty. -/
  declaredTable : Option String
  /-- The column by which records are found, when the class names one; it may be empty. -/
  declaredId : Option String
  /-- The arguments of the class's own constructor, when it has one. -/
  constructor? : Option (List String)
  mapping : Option Mapping

namespace Model

/-- The name of a model's table: the declared one unless it is empty, else that of the
mapping; empty when there is neither. -/
def tableName (m : Model) : String :=
  match m.declaredTable with
  | some name => if name = "" then mapped else name
  | none => mapped
where
  /-- The name of the mapped table, empty when there is none. -/
  mapped : String := (m.mapping.map (·.tableName)).getD ""

/-- The column by which records are found: the declared one unless it is empty, else `id`. -/
def idField (m : Model) : String :=
  match m.declaredId with
  | some name => if name = "" then "id" else name
  | none => "id"

/-- The identifying column always has a name. -/
theorem idField_ne_empty (m : Model) : m.idField ≠ "" := by
  unfold idField
  split
  · split
    · decide
    · assumption
  · decide

end Model

end TableQuery
