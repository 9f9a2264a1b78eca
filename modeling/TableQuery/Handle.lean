/-
Handles: what a statement runs against.

A handle binds a model, the name of a table, or both; a handle is never changed, only
replaced by another.  With a model its table is the mapped one, or a copy of it under
the handle's own name; with a name alone it is a table without known columns.
-/
import TableQuery.Entity

namespace TableQuery

/-- A binding of a model and the name of a table. -/
structure Handle where
  model : Option Model
  tableName : Option String

namespace Handle

/-- A handle bound to nothing. -/
def unbound : Handle := ⟨none, none⟩

/-- The same handle with another model, or none. -/
def withModel (h : Handle) (model : Option Model) : Handle := { h with model }

/-- The same handle with another table name, or none. -/
def withTableName (h : Handle) (name : Option String) : Handle := { h with tableName := name }

/-- The name of the handle's own table, unless it is empty. -/
def ownName? (h : Handle) : Option String := h.tableName.filter (fun n => n != "")

/-- The table that statements run against. -/
def table (h : Handle) : Except Error Table :=
  match h.model with
  | some model =>
    match model.mapping with
    | some m =>
      match h.ownName? with
      | some name => .ok (m.table.rename name)
      | none => .ok m.table
    | none => .error .notMapped
  | none =>
    match h.ownName? with
    | some name => .ok (.named name [])
    | none => .error .unbound

/-- The table that a write of some columns runs against: a name alone knows no columns,
so the ones written are declared. -/
def writable (h : Handle) (columns : List String) : Except Error Table :=
  match h.model, h.ownName? with
  | none, some name => .ok (.named name columns)
  | _, _ => h.table

/-- The handle for an item: without a model it takes that of an entity. -/
def forItem (h : Handle) (i : Item) : Handle :=
  match h.model, i with
  | none, some (.entity e) => h.withModel (some e.model)
  | _, _ => h

/-- Fails unless a model is bound. -/
def requireModel (h : Handle) : Except Error Unit :=
  match h.model with
  | some _ => .ok ()
  | none => .error (.needsModel h.tableName)

/-- Whether two handles bind the same model and the same table name. -/
def same (a b : Handle) : Bool :=
  a.model.map (·.name) == b.model.map (·.name) && a.tableName == b.tableName

end Handle

end TableQuery
