/-
The reads of an executor agree.

Each read asks the driver one thing: `Session.ask` hands one statement over and reads the
reply to it.  Finding, counting and checking for existence translate the same query for the
same table, so they ask for the same source (`sharesSource`).  Behind the columns it is prepared
in one way, however many of the rows are asked for.  The label of a count is counted like the name
of a place, so behind it the places of a column named like the label have the next numbers: a
dialect that names its placeholders shows that, and to a driver that knows positions the source is
the same.  What is made of the rows is `allRecords` for a search and `firstRecord` where one is
enough, and the second is the first of what the first gives.

A search by an identifier is the search by the query for it.  Null identifies nothing,
and its query would find everything; so there the driver is not asked at all.
-/
import TableQuery.Proofs.Handle.Guarded
import TableQuery.Proofs.Sql.Numbering
import TableQuery.Proofs.Sql.Selecting

namespace TableQuery

open Sql

/-! ### Questions -/

/-- A question to the driver: reports are made, one statement is handed over, and the reply to
it is read. -/
def Session.ask {α : Type} (s : Session) (x : Statement) (reports : List Event)
    (read : Reply → Except Error α) : Run α := fun c =>
  (s.execute x >>= fun reply => Run.lift (read reply)) { c with events := c.events ++ reports }

namespace Run

variable {α β : Type}

theorem ofLogged_bind_of_ok {x : Logged β} {b : β} (h : x.result = .ok b) (f : β → Run α)
    (c : Channel) : (ofLogged x >>= f) c = f b { c with events := c.events ++ x.events } := by
  show Run.bind (ofLogged x) f c = _
  rw [Run.bind, ofLogged, h]

theorem ofLogged_bind_of_error {x : Logged β} {e : Error} (h : x.result = .error e)
    (f : β → Run α) (c : Channel) :
    (ofLogged x >>= f) c = (.error e, { c with events := c.events ++ x.events }) := by
  show Run.bind (ofLogged x) f c = _
  rw [Run.bind, ofLogged, h]

end Run

/-- What is done with the answer to a question is done with what is read. -/
theorem Session.ask_bind {α β : Type} (s : Session) (x : Statement) (reports : List Event)
    (read : Reply → Except Error α) (f : α → β) :
    (s.ask x reports read >>= fun a => Pure.pure (f a)) =
      s.ask x reports (fun reply => (read reply).map f) := by
  funext c
  show Run.bind (s.ask x reports read) _ c = Run.bind (s.execute x) _ _
  unfold Session.ask
  show Run.bind (Run.bind (s.execute x) _) _ _ = _
  unfold Run.bind
  rcases s.execute x { c with events := c.events ++ reports } with ⟨_ | reply, c'⟩
  · rfl
  · dsimp only [Run.lift]
    cases read reply <;> rfl

/-! ### One source -/

namespace Sql.Select

/-- All rows of a table that meet a condition. -/
def ofAll (t : Table) (o : Option Expr) : Select := ⟨t, .columns, o, [], none, none⟩

/-- The first of them. -/
def ofFirst (t : Table) (o : Option Expr) : Select := ⟨t, .columns, o, [], some 1, none⟩

/-- Their number. -/
def ofCount (t : Table) (o : Option Expr) : Select := ⟨t, .count, o, [], none, none⟩

/-- What stands in front of the source when the columns of a table are asked for. -/
def columnsText (d : Dialect) (t : Table) : String :=
  "SELECT " ++ ", ".intercalate
    (t.columnNames.map (fun n => d.quoteName t.name ++ ("." ++ d.quoteName n)))

/-- Whether all rows, the first one and their number are prepared from one source: it stands
behind the columns for the rows and behind the count for the number, for the first row the limit
stands behind both, and when it cannot be prepared none of the three can.  Behind the count its
placeholders may have other names, where a dialect names them, and nothing else differs. -/
def SharesSource (d : Dialect) (t : Table) (o : Option Expr) : Prop :=
  ∃ (source counted : Except Error Prepared) (limit : String),
    (Statement.select (ofAll t o)).prepare d = source.map (.after (columnsText d t)) ∧
    (Statement.select (ofCount t o)).prepare d =
      counted.map (.after "SELECT count(*) AS count_1") ∧
    Together (Prepared.Alike d) source counted ∧
    (d.isPositional → counted = source) ∧
    (Statement.select (ofFirst t o)).prepare d =
      ((Statement.select (ofAll t o)).prepare d).map
        (.before limit (if d = .sqlite then [.int 1, .int 0] else [.int 1])) ∧
    Writes d (limitPieces d (some 1) none) limit ∧
    ∀ p, source = .ok p → (ofAll t o).ReadsFrom d p

/-- How far the label of a count sets a counted name ahead. -/
def labelAhead (name : String) : Nat := if name = "count" then 1 else 0

theorem writtenAlone_labelAhead : WrittenAlone labelAhead := by
  intro a b hab hahead
  obtain rfl : a = "count" := by
    by_contra ha
    exact hahead (if_neg ha)
  have hplain : placeholderName "count" = "count" := by decide
  have hb : placeholderName b = "count" := hab.symm.trans hplain
  exact hb.symm.trans (placeholderName_of_plain (by rw [hb]; decide))

theorem ahead_naming_ofCount (t : Table) (o : Option Expr) :
    Naming.Ahead labelAhead .empty (ofCount t o).naming where
  count base := by
    show (Naming.empty.next "count").2.count base = _
    by_cases hbase : base = "count"
    · rw [hbase, Naming.count_next]
      rfl
    · rw [Naming.count_next_of_ne hbase, labelAhead, if_neg hbase]
      rfl
  free := rfl
  free' := own_naming _

theorem wording_head_ofAll (d : Dialect) (t : Table) (o : Option Expr) :
    wording d (ofAll t o).head = columnsText d t := by
  have hqualified : (t.columnNames.map (qualified t.name)).map (wording d) =
      t.columnNames.map (fun n => d.quoteName t.name ++ ("." ++ d.quoteName n)) := by
    rw [List.map_map]
    refine List.map_congr_left fun n _ => ?_
    simp [qualified, wording, Piece.word]
  show wording d (.text "SELECT " :: separated ", " (t.columnNames.map (qualified t.name))) = _
  rw [wording_cons, wording_separated, hqualified]
  rfl

theorem sharesSource {t : Table} (htable : t.name ≠ "") (hcolumns : ∀ n ∈ t.columnNames, n ≠ "")
    (d : Dialect) (o : Option Expr) : SharesSource d t o := by
  have hnamed : (ofAll t o).NamesOutput := fun _ => ⟨htable, hcolumns⟩
  have hcount : (ofCount t o).NamesOutput := fun h => by cases h
  obtain ⟨limit, hlimit, hfirst⟩ := prepare_first (d := d) hnamed rfl 1
  have hall := prepare_plain (d := d) hnamed ⟨rfl, rfl, rfl⟩
  rw [wording_head_ofAll] at hfirst hall
  have halike : Together (Prepared.Alike d) (prepareAfter d .empty ((ofAll t o).source d))
      (prepareAfter d (ofCount t o).naming ((ofAll t o).source d)) :=
    prepareAfter_renumbered writtenAlone_labelAhead (ofAll t o).isCounted_source
      (ahead_naming_ofCount t o)
  refine ⟨_, _, limit, hall, prepare_plain hcount ⟨rfl, rfl, rfl⟩, halike, fun hd => ?_, ?_, hlimit,
    fun p hp => readsFrom_of_prepareAfter hp⟩
  · exact (halike.eq fun _ _ h => h.eq_of_isPositional hd).symm
  · rw [hall, map_map]
    exact hfirst

end Sql.Select

/-! ### Searches -/

namespace Handle

/-- The records that are read of a reply. -/
def recordsOf (h : Handle) (d : Dialect) (t : Table) (reply : Reply) : Except Error (List Record) :=
  if h.model.isSome then h.records reply (some t.columns.length) (readTable d t)
  else h.records reply (some 1) readNames

/-- **A search asks for one statement**, the query that it is paginated to. -/
theorem find_eq_ask {h : Handle} {t : Table} {q : Query} {o : Option Expr} (s : Session)
    (ht : h.table = .ok t) (hq : (q.toExpr (some t)).result = .ok o)
    {p : Pagination} {x : Select} (hx : paginate t (h.selection t o) p = .ok x) :
    h.find s q p = s.ask (.select x) (q.toExpr (some t)).events (h.recordsOf s.dialect t) := by
  funext c
  unfold find
  rw [Run.lift_bind_of_ok ht, Run.ofLogged_bind_of_ok hq, Run.lift_bind_of_ok hx]
  unfold recordsOf
  split <;> rfl

end Handle

/-! ### Records -/

namespace Executor

/-- The record of a row, as it is read from a table. -/
def recordIn (e : Executor) (m : Mapping) (d : Dialect) (t : Table) (names : List String)
    (values : List Value) : Record :=
  .entity ⟨e.model, Row.ofList (Entity.assigned m (readTable d t names values))⟩

/-- The records of a reply: one for each row.  A reply that is not one of rows cannot be
read, nor can a row whose columns are not told apart by their number or their names. -/
def allRecords (e : Executor) (m : Mapping) (d : Dialect) (t : Table) (reply : Reply) :
    Except Error (List Record) :=
  match reply.result with
  | none => .error .noResultRows
  | some rs =>
    match Handle.ambiguous? t.columns.length rs.columns, rs.rows with
    | some name, _ :: _ => .error (.ambiguousColumn name)
    | _, rows => .ok (rows.map (e.recordIn m d t rs.columns))

/-- The record of the first row of a reply; none when there is no row. -/
def firstRecord (e : Executor) (m : Mapping) (d : Dialect) (t : Table) (reply : Reply) :
    Except Error (Option Record) :=
  match reply.result with
  | none => .error .noResultRows
  | some rs =>
    match rs.rows, Handle.ambiguous? t.columns.length rs.columns with
    | [], _ => .ok none
    | _ :: _, some name => .error (.ambiguousColumn name)
    | values :: _, none => .ok (some (e.recordIn m d t rs.columns values))

variable {e : Executor} {m : Mapping} {d : Dialect} {t : Table}

/-- **The first record is the first of all.** -/
theorem map_head?_allRecords (reply : Reply) :
    (e.allRecords m d t reply).map List.head? = e.firstRecord m d t reply := by
  unfold allRecords firstRecord
  cases reply.result with
  | none => rfl
  | some rs =>
      dsimp only
      cases Handle.ambiguous? t.columns.length rs.columns with
      | none => cases rs.rows <;> rfl
      | some name => cases rs.rows <;> rfl

theorem records_eq (hm : e.model.mapping = some m) (reply : Reply) :
    e.handle.records reply (some t.columns.length) (readTable d t) = e.allRecords m d t reply := by
  unfold Handle.records allRecords Reply.resultSet
  cases reply.result with
  | none => rfl
  | some rs =>
      have hcollect : collect e.handle.recordOf (rs.rows.map (readTable d t rs.columns)) =
          .ok (rs.rows.map (e.recordIn m d t rs.columns)) := by
        rw [collect_map]
        refine collect_of_ok fun values _ => ?_
        show (Entity.ofRow e.model _).map _ = _
        rw [Entity.ofRow, hm]
        rfl
      dsimp only [Option.elim]
      rw [hcollect, Handle.checkNames]
      cases Handle.ambiguous? t.columns.length rs.columns with
      | none => rfl
      | some name => cases rs.rows <;> rfl

/-! ### Reads -/

theorem table_handle (hm : e.model.mapping = some m) :
    e.handle.table = .ok (m.table.rename e.tableName) := by
  have hname : e.handle.ownName? = some e.tableName := by
    simp [Handle.ownName?, handle, Option.filter, e.tableName_ne_empty]
  have hmodel : e.handle.model = some e.model := rfl
  rw [Handle.table, hmodel]
  dsimp only
  rw [hm, hname]

variable {q : Query} {o : Option Expr} (s : Session)

/-- A search asks for the query that it is paginated to. -/
theorem find_eq (hm : e.model.mapping = some m) (ht : t = m.table.rename e.tableName)
    (hq : (q.toExpr (some t)).result = .ok o) {p : Pagination} {x : Select}
    (hx : Handle.paginate t (.ofAll t o) p = .ok x) :
    e.handle.find s q p =
      s.ask (.select x) (q.toExpr (some t)).events (e.allRecords m s.dialect t) := by
  have hread : e.handle.recordsOf s.dialect t = e.allRecords m s.dialect t :=
    funext fun reply => records_eq hm reply
  have htable : e.handle.table = .ok t := ht ▸ table_handle hm
  rw [← hread]
  exact Handle.find_eq_ask s htable hq hx

theorem count_eq (hm : e.model.mapping = some m) (ht : t = m.table.rename e.tableName)
    (hq : (q.toExpr (some t)).result = .ok o) :
    e.handle.count s q = s.ask (.select (.ofCount t o)) (q.toExpr (some t)).events
      (fun reply => reply.scalar.bind Value.toInteger) := by
  funext c
  unfold Handle.count
  have hread : (fun reply : Reply => Run.lift reply.scalar >>= fun v => Run.lift v.toInteger) =
      fun reply => Run.lift (reply.scalar.bind Value.toInteger) := by
    funext reply c
    show Run.bind (Run.lift reply.scalar) _ c = _
    unfold Run.bind Run.lift
    cases reply.scalar <;> rfl
  rw [Run.lift_bind_of_ok (ht ▸ table_handle hm), Run.ofLogged_bind_of_ok hq]
  show (s.execute (.select (.ofCount t o)) >>= fun reply : Reply =>
    Run.lift reply.scalar >>= fun v => Run.lift v.toInteger) _ = _
  rw [hread]
  rfl

/-- A check for existence asks for the first record. -/
theorem findOne_eq (hm : e.model.mapping = some m) (ht : t = m.table.rename e.tableName)
    (hq : (q.toExpr (some t)).result = .ok o) :
    e.findOne s q = s.ask (.select (.ofFirst t o)) (q.toExpr (some t)).events
      (e.firstRecord m s.dialect t) := by
  have hfind := find_eq (p := .single) (x := .ofFirst t o) s hm ht hq rfl
  show (e.handle.find s q .single >>= fun found => Pure.pure found.head?) = _
  rw [hfind, Session.ask_bind]
  simp only [map_head?_allRecords]

/-- The query for an identifier that is not null is a condition, whatever table it is
for. -/
theorem toExpr_byId {id : Value} (hid : id.isNull = false) (t : Option Table) :
    ∃ test, ((e.byId id).toExpr t) = ⟨[], .ok (some test)⟩ := by
  have hcompare : e.idColumn.compare .eq id = some ⟨e.idColumn, .eq, [id]⟩ := by
    rw [Column.compare, hid]
    rfl
  obtain ⟨test, htest⟩ : ∃ test, (⟨e.idColumn, .eq, [id]⟩ : Condition).toExpr t = .ok test := by
    cases id with
    | null => cases hid
    | _ => exact ⟨_, rfl⟩
  refine ⟨test, ?_⟩
  rw [byId, hcompare, Query.ofOption, Query.all, Query.toExpr, Query.toExprs, Query.toExpr, htest]
  rfl

/-- A search by an identifier asks what the search by its query asks, and takes the first
record. -/
theorem findById_eq (hm : e.model.mapping = some m) (ht : t = m.table.rename e.tableName)
    {id : Value} (hid : id.isNull = false)
    (hq : ((e.byId id).toExpr (some t)).result = .ok o) :
    e.findById s id = s.ask (.select (.ofAll t o)) ((e.byId id).toExpr (some t)).events
      (e.firstRecord m s.dialect t) := by
  have hfind := find_eq (p := .empty) (x := .ofAll t o) s hm ht hq rfl
  rw [findById, hid]
  show (e.handle.find s (e.byId id) .empty >>= fun found => Pure.pure found.head?) = _
  rw [hfind, Session.ask_bind]
  simp only [map_head?_allRecords]

/-- **A query that cannot be translated is not sent**, and each read fails with what is
wrong with it. -/
theorem endsQuietly_of_error (hm : e.model.mapping = some m)
    (ht : t = m.table.rename e.tableName) {err : Error}
    (hq : (q.toExpr (some t)).result = .error err) :
    (∀ p, (e.handle.find s q p).EndsQuietly (.error err)) ∧
      (e.handle.count s q).EndsQuietly (.error err) ∧ (e.findOne s q).EndsQuietly (.error err) := by
  have hfind : ∀ p c, e.handle.find s q p c =
      (.error err, { c with events := c.events ++ (q.toExpr (some t)).events }) := by
    intro p c
    unfold Handle.find
    rw [Run.lift_bind_of_ok (ht ▸ table_handle hm), Run.ofLogged_bind_of_error hq]
  refine ⟨fun p c => ?_, fun c => ?_, fun c => ?_⟩
  · rw [hfind]
    exact ⟨rfl, rfl, rfl⟩
  · unfold Handle.count
    rw [Run.lift_bind_of_ok (ht ▸ table_handle hm), Run.ofLogged_bind_of_error hq]
    exact ⟨rfl, rfl, rfl⟩
  · unfold findOne first?
    rw [Run.bind_of_error (hfind .single c)]
    exact ⟨rfl, rfl, rfl⟩

/--
**The reads of an executor agree.**  For a query that translates, finding, counting and checking
for existence ask the driver one thing each, and the three statements have one source: the
same tables, the same condition with the same values, or none when the query is no
filter, where of a count at most the generated names of placeholders differ, in a dialect that
has such names; checking differs from finding by the limit behind it, and its answer is the first
of what finding would make of the reply.  A query that does not translate fails alike and is
not sent.  A search by an identifier asks the one thing that finding asks with the query for it, and
takes the first record; null identifies none, and nothing is asked.
-/
theorem reads_agree (hm : e.model.mapping = some m)
    (hcolumns : ∀ n ∈ m.table.columnNames, n ≠ "") (s : Session) :
    let t := m.table.rename e.tableName
    (∀ q o, (q.toExpr (some t)).result = .ok o →
      let reports := (q.toExpr (some t)).events
      e.handle.find s q .empty =
        s.ask (.select (.ofAll t o)) reports (e.allRecords m s.dialect t) ∧
      e.handle.count s q =
        s.ask (.select (.ofCount t o)) reports (fun reply => reply.scalar.bind Value.toInteger) ∧
      e.findOne s q = s.ask (.select (.ofFirst t o)) reports (e.firstRecord m s.dialect t) ∧
      Select.SharesSource s.dialect t o) ∧
    (∀ q err, (q.toExpr (some t)).result = .error err →
      (e.handle.find s q .empty).EndsQuietly (.error err) ∧
        (e.handle.count s q).EndsQuietly (.error err) ∧
        (e.findOne s q).EndsQuietly (.error err)) ∧
    (∀ id : Value, id.isNull = false →
      ∃ test, (e.byId id).toExpr (some t) = ⟨[], .ok (some test)⟩ ∧
        e.handle.find s (e.byId id) .empty =
          s.ask (.select (.ofAll t (some test))) [] (e.allRecords m s.dialect t) ∧
        e.findById s id =
          s.ask (.select (.ofAll t (some test))) [] (e.firstRecord m s.dialect t)) ∧
    (∀ id : Value, id.isNull = true → (e.findById s id).EndsQuietly (.ok none)) ∧
    ∀ reply, e.firstRecord m s.dialect t reply = (e.allRecords m s.dialect t reply).map List.head? := by
  intro t
  refine ⟨fun q o hq => ⟨?_, ?_, ?_, ?_⟩, fun q err hq => ?_, fun id hid => ?_, fun id hid c => ?_,
    fun reply => (map_head?_allRecords reply).symm⟩
  · exact find_eq s hm rfl hq rfl
  · exact count_eq s hm rfl hq
  · exact findOne_eq s hm rfl hq
  · exact Select.sharesSource (t := t) e.tableName_ne_empty hcolumns s.dialect o
  · obtain ⟨hfind, hcount, hfirst⟩ := endsQuietly_of_error s hm rfl hq
    exact ⟨hfind .empty, hcount, hfirst⟩
  · obtain ⟨test, htest⟩ := e.toExpr_byId hid t
    have hresult : ((e.byId id).toExpr (some t)).result = .ok (some test) := by rw [htest]
    have hfind := find_eq (p := .empty) (x := .ofAll t (some test)) s hm rfl hresult rfl
    have hfirst := findById_eq s hm rfl hid hresult
    rw [htest] at hfind hfirst
    exact ⟨test, htest, hfind, hfirst⟩
  · rw [findById, if_pos hid]
    exact ⟨rfl, rfl, rfl⟩

/-- Users kept in a table of another name: the filter of an optional condition that is absent and
one that is given is the same for all three reads. -/
theorem reads_agree_renamed :
    let e : Executor := ⟨Catalog.user, "users_7", by decide⟩
    let s : Session := ⟨.sqlite, true⟩
    let age : Column := ⟨.field, "age", none, by decide⟩
    let q : Query := .all [.absent, .condition ⟨age, .gt, [.int 17]⟩]
    let texts (c : Channel) : List String := c.sent.map (·.prepared.sql)
    let columns := "users_7.id, users_7.email, users_7.name, users_7.age, users_7.status, "
      ++ "users_7.deleted"
    let source := " \nFROM users_7 \nWHERE users_7.age > ?"
    (∃ t o, (q.toExpr (some t)).result = .ok o ∧ Select.SharesSource .sqlite t o) ∧
      texts (e.handle.find s q .empty ⟨[], [], []⟩).2 = ["SELECT " ++ columns ++ source] ∧
      texts (e.handle.count s q ⟨[], [], []⟩).2 = ["SELECT count(*) AS count_1" ++ source] ∧
      texts (e.findOne s q ⟨[], [], []⟩).2 =
        ["SELECT " ++ columns ++ source ++ "\n LIMIT ? OFFSET ?"] := by
  intro e s age q texts columns source
  obtain ⟨m, hm⟩ : ∃ m, Catalog.user.mapping = some m := ⟨_, rfl⟩
  have hcolumns : ∀ n ∈ m.table.columnNames, n ≠ "" := by
    cases hm
    decide
  obtain ⟨hreads, -⟩ := reads_agree (e := e) hm hcolumns s
  have hq : ∃ o, (q.toExpr (some (m.table.rename e.tableName))).result = .ok o := by
    cases hm
    exact ⟨_, rfl⟩
  obtain ⟨o, ho⟩ := hq
  obtain ⟨-, -, -, hshares⟩ := hreads q o ho
  exact ⟨⟨_, o, ho, hshares⟩, by decide +kernel, by decide +kernel, by decide +kernel⟩

end Executor

end TableQuery
