/-
Writing: one record by its identity, or all that meet a query.

The identity of a record is the values of its primary key.  A record is only updated or
deleted when all of them are there, and an update or delete by a query only when
something is left of the query.
-/
import TableQuery.Batch
import TableQuery.Handle.Read
import TableQuery.Updater

namespace TableQuery

namespace Handle

/-! ### Identity -/

/-- The values of a row for the key of a table; none when one of them is null or the
table has no key. -/
def identityOf (t : Table) (r : Row) : Option Row :=
  let names := t.keyNames
  if names.isEmpty || names.any (fun n => (r.get n).isNull) then none
  else some (Row.ofList (names.map (fun n => (n, r.get n))))

/-- The identity of an item in a table. -/
def identity (t : Table) (i : Item) : Except Error (Option Row) :=
  if t.keyNames.isEmpty then .ok none else i.toRow.map (identityOf t)

/-- A column of a table that equals a value. -/
def keyTest (t : Table) (name : String) (v : Value) : Sql.Expr :=
  let c : Sql.ColumnRef := ⟨name, some t.name, ((t.column? name).map (·.type)).getD .unknown⟩
  match v with
  | .null => .null false c
  | .bool b => .truth false c b
  | v => .compare .eq c v

/-- The condition that a record has an identity. -/
def identityTest (t : Table) (identity : Row) : Sql.Expr :=
  Sql.Expr.join .conjunction (identity.entries.map (fun e => keyTest t e.1 e.2))

/-- The row of a record without its identity. -/
def withoutIdentity (identity r : Row) : Row := r.filter (fun n _ => !identity.contains n)

/-! ### Creating -/

/-- An insert of rows that have been made uniform; a lenient one leaves out names that
the table does not have. -/
def insertion (t : Table) (rows : List Row) (returned : Sql.Returned) (lenient : Bool) :
    Sql.Insert :=
  match Batch.uniform t rows with
  | [] => ⟨t, .empty, [], .fail, returned, lenient⟩
  | r :: rs => ⟨t, r, rs, .fail, returned, lenient⟩

/-- The values that an insert of one row sends, defaults included. -/
def sentValues (i : Sql.Insert) : Row :=
  Row.ofList (i.firstParameters.map (fun p => (p.name, p.value)))

/-- The values that a reply gives for the columns that an insert returns. -/
def returnedValues (d : Dialect) (i : Sql.Insert) (reply : Reply) : Except Error Row :=
  match i.returnedColumns d with
  | [] => .ok .empty
  | columns =>
    match reply.resultSet with
    | .error e => .error e
    | .ok s =>
      match s.rows with
      | [] => .ok .empty
      | values :: _ => .ok (readColumns d columns values)

/-- The key of the row that an insert made: what was returned, else what was sent, else
the number that the driver gave. -/
def insertedKey (d : Dialect) (i : Sql.Insert) (sent returned : Row) (reply : Reply) :
    List (String × Value) :=
  i.table.keyColumns.map (fun c =>
    let numbered := if c.autoincrement && !i.canReturn d then reply.lastRowId else .null
    let value := (returned.get? c.name).getD
      (if (sent.get c.name).isNull then numbered else sent.get c.name)
    (c.name, value))

/-- The values that are known of a created row: those sent, then those returned, then
its key. -/
def generatedValues (d : Dialect) (i : Sql.Insert) (returned : Row) (reply : Reply) : Row :=
  let sent := sentValues i
  (sent.insertAll returned.entries).insertAll (insertedKey d i sent returned reply)

/-- An item with generated values where its own row is null. -/
def fillGaps (current generated : Row) (i : Item) : Item :=
  generated.entries.foldl (fun i e =>
    if !e.2.isNull && (current.get e.1).isNull then i.setColumn e.1 e.2 else i) i

/-- Inserts one item, and fills in what the database generated. -/
def create (h : Handle) (s : Session) (i : Item) : Run Item := do
  let h := h.forItem i
  let row ← Run.lift i.toRow
  let t ← Run.lift (h.writable row.names)
  match h.model with
  | none => do
    let _ ← s.execute (.insert (insertion t [row] .key false))
    return i
  | some _ => do
    let insert := insertion t [row] .generated false
    let reply ← s.execute (.insert insert)
    let returned ← Run.lift (returnedValues s.dialect insert reply)
    return fillGaps row (generatedValues s.dialect insert returned reply) i

/-! ### By identity -/

/-- Whether a row of an identity is there already, found out by overwriting it: with
nothing to overwrite it is counted. -/
def overwrite (s : Session) (t : Table) (identity values : Row) : Run Bool := do
  let condition := identityTest t identity
  if values.isEmpty then do
    let reply ← s.execute (.select ⟨t, .count, some condition, [], none, none⟩)
    let n ← Run.lift reply.scalar
    return n.truthy
  else do
    let reply ← s.execute (.update ⟨t, values, condition⟩)
    return reply.rowCount != 0

/-- Fails when an insert that returns something got no rows in reply. -/
def checkReturned (d : Dialect) (i : Sql.Insert) (reply : Reply) : Except Error Unit :=
  (returnedValues d i reply).map (fun _ => ())

/-- Inserts a record, or overwrites every column of the row with its identity. -/
def save (h : Handle) (s : Session) (i : Item) : Run Item := do
  let h := h.forItem i
  Run.lift h.requireModel
  let t ← Run.lift h.table
  match ← Run.lift (identity t i) with
  | none => h.create s i
  | some key => do
    let row ← Run.lift i.toRow
    let matched ← overwrite s t key (withoutIdentity key row)
    if matched then return i
    else do
      let insert := insertion t [row] .key false
      let reply ← s.execute (.insert insert)
      Run.lift (checkReturned s.dialect insert reply)
      return i

/-- Writes the values of a record that are not null to its row. -/
def update (h : Handle) (s : Session) (i : Item) : Run Int := do
  let h := h.forItem i
  Run.lift h.requireModel
  let t ← Run.lift h.table
  match ← Run.lift (identity t i) with
  | none => Run.fail (.noIdentity t.name)
  | some key => do
    let row ← Run.lift i.toRow
    let values := (withoutIdentity key row).filter (fun _ v => !v.isNull)
    if values.isEmpty then do
      Run.log (.nothingToUpdate t.name key)
      return 0
    else do
      let reply ← s.execute (.update ⟨t, values, identityTest t key⟩)
      return reply.rowCount

/-- Deletes the row of a record. -/
def delete (h : Handle) (s : Session) (i : Item) : Run Int := do
  let h := h.forItem i
  Run.lift h.requireModel
  let t ← Run.lift h.table
  match ← Run.lift (identity t i) with
  | none => Run.fail (.noIdentity t.name)
  | some key => do
    let reply ← s.execute (.delete ⟨t, identityTest t key⟩)
    return reply.rowCount

/-! ### By query -/

/-- The condition of a write; a query of which nothing is left would touch every row. -/
def writeCondition (t : Table) (q : Query) (action : String) : Run Sql.Expr := do
  match ← Run.ofLogged (q.toExpr (some t)) with
  | some e => return e
  | none => Run.fail (.everyRow action t.name)

/-- Assigns the pending values to every row that meets a query. -/
def updateByQuery (h : Handle) (s : Session) (q : Query) (u : Updater) : Run Int := do
  let t ← Run.lift (h.writable u.pending.names)
  if u.pending.isEmpty then do
    Run.log (.emptyUpdate t.name)
    return 0
  else do
    let condition ← writeCondition t q "update"
    let reply ← s.execute (.update ⟨t, u.pending, condition⟩)
    return reply.rowCount

/-- Deletes every row that meets a query. -/
def deleteByQuery (h : Handle) (s : Session) (q : Query) : Run Int := do
  let t ← Run.lift h.table
  let condition ← writeCondition t q "delete"
  let reply ← s.execute (.delete ⟨t, condition⟩)
  return reply.rowCount

end Handle

end TableQuery
