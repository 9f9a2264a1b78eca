/-
Entities: records of a model, with a value under each attribute.

A record is written as a row by the names of its columns and read back from one.  An
attribute that was never set counts as null.  What a write takes is an item: a record,
which is an entity or a row that stands for itself, or nothing.
-/
import TableQuery.Error
import TableQuery.Model
import TableQuery.Row

namespace TableQuery

/-- A record of a model: the values of the attributes that have been set. -/
structure Entity where
  model : Model
  values : Row

namespace Entity

/-- The value of an attribute, null when it was never set. -/
def get (e : Entity) (attr : String) : Value := e.values.get attr

/-- The record with an attribute set. -/
def set (e : Entity) (attr : String) (v : Value) : Entity :=
  { e with values := e.values.insert attr v }

/-- The values of all attributes in the order of the columns. -/
def attributes (e : Entity) : List (String × Value) :=
  match e.model.mapping with
  | some m => m.attrs.map (fun a => (a, e.get a))
  | none => e.values.entries

/-- The record as a row of a mapping's columns. -/
def rowOf (m : Mapping) (e : Entity) : Row :=
  ⟨m.columns.map (fun c => (c.name, e.get c.attr)), by
    rw [List.map_map]
    exact m.names_nodup⟩

/-- The record as a row by column names; the model has to be mapped. -/
def toRow (e : Entity) : Except Error Row :=
  match e.model.mapping with
  | some m => .ok (rowOf m e)
  | none => .error .notMapped

/-- The attributes that a row gives values to: names that are no column are ignored. -/
def assigned (m : Mapping) (r : Row) : List (String × Value) :=
  r.entries.filterMap (fun e => (m.attr? e.1).map (fun a => (a, e.2)))

/-- The record of a row; its constructor is not run. -/
def ofRow (model : Model) (r : Row) : Except Error Entity :=
  match model.mapping with
  | some m => .ok ⟨model, Row.ofList (assigned m r)⟩
  | none => .error .notMapped

/-- The record with the attribute of a column set; a name that is no column changes
nothing. -/
def setColumn (e : Entity) (name : String) (v : Value) : Entity :=
  match e.model.mapping.bind (·.attr? name) with
  | some a => e.set a v
  | none => e

/-- The first argument that the constructor of a mapped model does not know. -/
def unknownArgument? (model : Model) (arguments : List (String × Value)) : Option String :=
  (arguments.find? (fun a => !(model.mapping.any (fun m => m.attrs.contains a.1)))).map Prod.fst

/-- What the constructor of a class of its own says about its arguments, if it refuses
them. -/
def refusal? (model : Model) (parameters : List String) (arguments : List (String × Value)) :
    Option String :=
  let call := model.name ++ ".__init__()"
  match arguments.find? (fun a => !parameters.contains a.1) with
  | some a => some (call ++ " got an unexpected keyword argument " ++ quoteText a.1)
  | none =>
    match parameters.find? (fun p => !arguments.any (fun a => a.1 == p)) with
    | some p => some (call ++ " missing 1 required positional argument: " ++ quoteText p)
    | none => none

/-- The record that a model's constructor makes of named arguments. -/
def construct (model : Model) (arguments : List (String × Value)) : Except Error Entity :=
  let made : Entity := ⟨model, Row.ofList arguments⟩
  match model.constructor?, model.mapping with
  | some parameters, _ =>
    match refusal? model parameters arguments with
    | some wording => .error (.constructorArguments wording)
    | none => .ok made
  | none, some _ =>
    match unknownArgument? model arguments with
    | some a => .error (.unknownAttribute a model.name)
    | none => .ok made
  | none, none =>
    if arguments.isEmpty then .ok made
    else .error (.constructorArguments (model.name ++ "() takes no arguments"))

end Entity

/-- A record as it is read and written: an entity of a model, or a row that stands for
itself. -/
inductive Record where
  | entity (e : Entity)
  | row (r : Row)

namespace Record

/-- The row of a record. -/
def toRow : Record → Except Error Row
  | entity e => e.toRow
  | row r => .ok r

/-- The record with a column set; a row is never changed. -/
def setColumn (name : String) (v : Value) : Record → Record
  | entity e => entity (e.setColumn name v)
  | row r => row r

end Record

/-- What a write takes: a record, or nothing where one should stand. -/
abbrev Item := Option Record

namespace Item

/-- The row of an item. -/
def toRow : Item → Except Error Row
  | some r => r.toRow
  | none => .error .notMapped

/-- The item with a column set. -/
def setColumn (name : String) (v : Value) (i : Item) : Item := i.map (Record.setColumn name v)

end Item

end TableQuery
