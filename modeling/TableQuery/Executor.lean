/-
Executors: the operations on one model, bound to its table.
-/
import TableQuery.Handle
import TableQuery.Query.Basic

namespace TableQuery

/-- A model with the table it is used on; the table has a name. -/
structure Executor where
  model : Model
  tableName : String
  tableName_ne_empty : tableName ≠ ""

namespace Executor

/-- The executor of a model, on its own table or on another. -/
def create (model : Option Model) (tableName : Option String) : Except Error Executor :=
  match model with
  | none => .error .noModel
  | some model =>
    let name := tableName.getD model.tableName
    if h : name = "" then .error (.noTableName model.name) else .ok ⟨model, name, h⟩

/-- The handle that an executor works through. -/
def handle (e : Executor) : Handle := ⟨some e.model, some e.tableName⟩

/-- The column that identifies a record. -/
def idColumn (e : Executor) : Column := ⟨.field, e.model.idField, none, e.model.idField_ne_empty⟩

/-- The query for the record of an identifier. -/
def byId (e : Executor) (id : Value) : Query :=
  .all [Query.ofOption (e.idColumn.compare .eq id)]

/-- The text of an executor. -/
def render (e : Executor) : String :=
  "Executor(" ++ e.model.name ++ ", table=" ++ quoteText e.tableName ++ ")"

end Executor

end TableQuery
