/-
Reading: records and their number.
-/
import TableQuery.Executor
import TableQuery.Handle
import TableQuery.Names
import TableQuery.Pagination
import TableQuery.Query.Filter
import TableQuery.Session
import TableQuery.Value.Integer

namespace TableQuery

/-! ### Records of a reply -/

/-- A value read from a column: a Boolean one yields truth values, unless the dialect
already does. -/
def readValue (d : Dialect) (type : SqlType) (v : Value) : Value :=
  if type = .boolean && !d.hasBooleans && !v.isNull then .bool v.truthy else v

/-- The row of the values that were read from some columns in order. -/
def readColumns (d : Dialect) (columns : List TableColumn) (values : List Value) : Row :=
  Row.ofList ((columns.zip values).map (fun e => (e.1.name, readValue d e.1.type e.2)))

/-- The row of the values that stand under names. -/
def readNames (names : List String) (values : List Value) : Row := Row.ofList (names.zip values)

/-- A row of a table: by position when the reply has as many columns, else by name. -/
def readTable (d : Dialect) (t : Table) (names : List String) (values : List Value) : Row :=
  if names.length = t.columns.length then readColumns d t.columns values
  else
    Row.ofList ((names.zip values).map (fun e =>
      (e.1, readValue d (((t.column? e.1).map (·.type)).getD .unknown) e.2)))

namespace Handle

/-- A record of a row: an entity when a model is bound. -/
def recordOf (h : Handle) (r : Row) : Except Error Record :=
  match h.model with
  | some m => (Entity.ofRow m r).map .entity
  | none => .ok (.row r)

/-- The first name that stands again later. -/
def repeated? : List String → Option String
  | [] => none
  | n :: ns => if ns.contains n then some n else repeated? ns

/-- A repeated name among columns that are told apart by their names: when a query asks
for `asked` columns, and there are as many different names, none counts as repeated. -/
def ambiguous? (asked : Nat) (names : List String) : Option String :=
  if names.length = asked || (distinct names).length = asked then none else repeated? names

/-- Fails when a row of a query for `asked` columns cannot be read by name. -/
def checkNames (asked : Nat) (s : ResultSet) : Except Error Unit :=
  match ambiguous? asked s.columns, s.rows with
  | some name, _ :: _ => .error (.ambiguousColumn name)
  | _, _ => .ok ()

/-- The records of a reply whose rows are read one by one; `asked` is the number of
columns that were asked for, if it is known. -/
def records (h : Handle) (reply : Reply) (asked : Option Nat)
    (read : List String → List Value → Row) : Except Error (List Record) :=
  match reply.resultSet with
  | .error e => .error e
  | .ok s =>
    match asked.elim (.ok ()) (fun n => checkNames n s) with
    | .error e => .error e
    | .ok () => collect h.recordOf (s.rows.map (read s.columns))

/-! ### Queries -/

/-- A limit or an offset as a whole number; null imposes nothing. -/
def bound (v : Value) : Except Error (Option Int) :=
  if v.isNull then .ok none else v.toInteger.map some

/-- A query with a pagination. -/
def paginate (t : Table) (s : Sql.Select) (p : Pagination) : Except Error Sql.Select :=
  match bound p.limit with
  | .error e => .error e
  | .ok limit =>
    match bound p.offset with
    | .error e => .error e
    | .ok offset =>
      .ok { s with limit, offset, orders := p.orders.map (fun o =>
        (o.column.orderKey (some t), o.descending)) }

/-- The query of the records that meet a condition. -/
def selection (h : Handle) (t : Table) (condition : Option Sql.Expr) : Sql.Select :=
  ⟨t, if h.model.isSome then .columns else .everything, condition, [], none, none⟩

/-- The records that meet a query. -/
def find (h : Handle) (s : Session) (q : Query) (p : Pagination) : Run (List Record) := do
  let t ← Run.lift h.table
  let condition ← Run.ofLogged (q.toExpr (some t))
  let select ← Run.lift (paginate t (h.selection t condition) p)
  let reply ← s.execute (.select select)
  if h.model.isSome then
    Run.lift (h.records reply (some t.columns.length) (readTable s.dialect t))
  else Run.lift (h.records reply (some 1) readNames)

/-- The number of records that meet a query. -/
def count (h : Handle) (s : Session) (q : Query) : Run Int := do
  let t ← Run.lift h.table
  let condition ← Run.ofLogged (q.toExpr (some t))
  let reply ← s.execute (.select ⟨t, .count, condition, [], none, none⟩)
  let value ← Run.lift reply.scalar
  Run.lift value.toInteger

end Handle

namespace Executor

/-- The first record that meets a query, if any. -/
def first? (e : Executor) (s : Session) (q : Query) (p : Pagination) : Run (Option Record) := do
  let found ← e.handle.find s q p
  return found.head?

/-- A record that meets a query, if there is one; no more than one is read. -/
def findOne (e : Executor) (s : Session) (q : Query) : Run (Option Record) :=
  e.first? s q .single

/-- The record of an identifier, if there is one; null identifies none. -/
def findById (e : Executor) (s : Session) (id : Value) : Run (Option Record) :=
  if id.isNull then return none else e.first? s (e.byId id) .empty

end Executor

end TableQuery
