/-
Writing many records, chunk by chunk.
-/
import TableQuery.Handle.Write

namespace TableQuery

namespace Handle

/-- Inserts chunks of rows; `start` rows have been inserted before. -/
def insertChunks (s : Session) (t : Table) (total : Nat) : Nat → List (List Row) → Run Unit
  | _, [] => return ()
  | start, chunk :: rest => do
    Run.log (.inserting start (start + chunk.length) total t.name)
    let insert := insertion t chunk .key true
    let reply ← s.execute (.insert insert)
    Run.lift (checkReturned s.dialect insert reply)
    insertChunks s t total (start + chunk.length) rest

/-- Inserts items in chunks; what the database generates is not copied back. -/
def batchCreate (h : Handle) (s : Session) (items : List Item) (size : Int) : Run Int :=
  match items with
  | [] => do
    Run.log .nothingToInsert
    return 0
  | first :: _ => do
    let h := h.forItem first
    let rows ← Run.lift (collect Item.toRow items)
    let t ← Run.lift (h.writable (Batch.names rows))
    insertChunks s t items.length 0 (Batch.chunks (Batch.effectiveSize size) rows)
    return items.length

/-- The columns of the first row that are no part of the key. -/
def otherColumns (t : Table) (r : Row) : List String :=
  r.names.filter (fun n => !t.keyNames.contains n)

/-- The insert of rows that overwrites those whose key exists. -/
def upsertion (t : Table) (first : Row) (rest : List Row) : Except Error Sql.Insert :=
  match otherColumns t first with
  | [] => .ok ⟨t, first, rest, .keep t.keyNames, .key, true⟩
  | others =>
    match others.find? (fun n => (t.column? n).isNone) with
    | some n => .error (.unknownKey n)
    | none => .ok ⟨t, first, rest, .overwrite t.keyNames others, .key, true⟩

/-- Saves items one by one. -/
def saveEach (h : Handle) (s : Session) : List Item → Run Unit
  | [] => return ()
  | i :: is => do
    let _ ← h.save s i
    saveEach h s is

/-- Whether operations can overwrite on insert. -/
def hasUpsert : Option Dialect → Bool
  | some (.generic _) | none => false
  | some _ => true

/-- Writes one chunk of records that have an identity. -/
def saveChunk (h : Handle) (s : Session) (t : Table) (chunk : List Item) : Run Unit := do
  match ← Run.lift (collect Item.toRow chunk) with
  | [] => return ()
  | first :: rest =>
    if hasUpsert s.visibleDialect then do
      let insert ← Run.lift (upsertion t first rest)
      let reply ← s.execute (.insert insert)
      Run.lift (checkReturned s.dialect insert reply)
    else do
      Run.log (.noUpsert ((s.visibleDialect.map Dialect.name).getD "") chunk.length)
      h.saveEach s chunk

/-- Writes chunks of records that have an identity. -/
def saveChunks (h : Handle) (s : Session) (t : Table) : List (List Item) → Run Unit
  | [] => return ()
  | chunk :: rest => do
    h.saveChunk s t chunk
    saveChunks h s t rest

/-- Items with whether each has an identity. -/
def withIdentity (t : Table) (items : List Item) : Except Error (List (Item × Bool)) :=
  collect (fun i => (identity t i).map (fun key => (i, key.isSome))) items

/-- Inserts the records without an identity, and inserts or overwrites the others. -/
def batchSave (h : Handle) (s : Session) (items : List Item) (size : Int) : Run Int :=
  match items with
  | [] => do
    Run.log .nothingToSave
    return 0
  | first :: _ => do
    let h := h.forItem first
    Run.lift h.requireModel
    let t ← Run.lift h.table
    let marked ← Run.lift (withIdentity t items)
    let fresh := (marked.filter (fun m => !m.2)).map Prod.fst
    let known := (marked.filter (fun m => m.2)).map Prod.fst
    if !fresh.isEmpty then
      let _ ← h.batchCreate s fresh size
    h.saveChunks s t (Batch.chunks (Batch.effectiveSize size) known)
    return items.length

end Handle

end TableQuery
