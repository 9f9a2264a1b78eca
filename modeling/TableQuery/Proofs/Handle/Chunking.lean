/-
A batch of inserts, item by item.

The plan of `batchCreate` is one insert for each chunk of its rows (`carriesOut_batchCreate`), and
the `k`-th chunk is the items from `k * size` on, at most `size` of them (`getElem?_chunks`).  An
insert gives all its rows the same columns, so a row that lacked one of them would shift its
values; `InsertsItems` says that none does, and that no value is lost on the way from an
item to the driver.

That last part is about items a handle can write (`CanWrite`): a batch leaves out a name that
its table does not have, which a single insert refuses.  And it has a condition: the places of
columns that are written alike are read as one, so the value of one of them is lost
(`batchCreate_inserts_each_once_alike`).
-/
import Mathlib.Algebra.Order.Floor.Div
import TableQuery.Proofs.Handle.Batches
import TableQuery.Proofs.Handle.Plans

namespace TableQuery

namespace Batch

variable {α : Type} {size : Nat}

theorem getElem?_chunksUpTo (hsize : 0 < size) {fuel : Nat} {xs : List α}
    (h : xs.length ≤ fuel) (k : Nat) : (chunksUpTo size fuel xs)[k]? =
      if k * size < xs.length then some ((xs.drop (k * size)).take size) else none := by
  induction fuel generalizing xs k with
  | zero =>
      have hnil : xs = [] := List.length_eq_zero_iff.mp (Nat.le_zero.mp h)
      simp [hnil, chunksUpTo]
  | succ fuel ih =>
      cases xs with
      | nil => simp [chunksUpTo]
      | cons x xs =>
          rw [chunksUpTo]
          cases k with
          | zero => simp
          | succ k =>
              have hdrop : ((x :: xs).drop size).length ≤ fuel := by
                simp only [List.length_drop, List.length_cons] at h ⊢
                omega
              have hlt : k * size < (x :: xs).length - size ↔
                  (k + 1) * size < (x :: xs).length := by
                rw [Nat.add_mul, Nat.one_mul]
                omega
              rw [List.getElem?_cons_succ, ih hdrop, List.length_drop, List.drop_drop]
              simp only [hlt, Nat.add_mul, Nat.one_mul, Nat.add_comm size]

/-- **The `k`-th chunk** has the members from `k * size` on, and there is one for as long as
there are any. -/
theorem getElem?_chunks (hsize : 0 < size) (xs : List α) (k : Nat) : (chunks size xs)[k]? =
    if k * size < xs.length then some ((xs.drop (k * size)).take size) else none :=
  getElem?_chunksUpTo hsize (Nat.le_refl _) k

theorem length_chunks (hsize : 0 < size) (xs : List α) :
    (chunks size xs).length = xs.length ⌈/⌉ size := by
  refine eq_of_forall_ge_iff fun k => ?_
  rw [ceilDiv_le_iff_le_mul hsize, ← List.getElem?_eq_none_iff, getElem?_chunks hsize,
    Nat.mul_comm]
  simp

end Batch

namespace Sql

/-- What a statement assigns to new rows, one list of parameters for each of them. -/
def Statement.newRows : Statement → List (List Parameter)
  | .insert x => x.rows.map x.assignments
  | _ => []

theorem Insert.mem_assignments {x : Insert} {r : Row} {n : String} {v : Value}
    (h : x.assignedTo r n = some v) : ∃ p ∈ x.assignments r, p.name = n ∧ p.value = v := by
  obtain ⟨c, hc, hv⟩ := Option.bind_eq_some_iff.mp h
  refine ⟨⟨c.name, c.type, v⟩, ?_, Table.name_of_column? hc, rfl⟩
  exact List.mem_filterMap.mpr ⟨c, List.mem_of_find?_eq_some hc, by rw [hv]; rfl⟩

end Sql

/-- Whether the parameters of a new row of a table carry an item. -/
structure Item.CarriedBy (t : Table) (i : Item) (ps : List Sql.Parameter) : Prop where
  /-- No value of the item is lost, or moved to another column. -/
  kept : ∀ r, i.toRow = .ok r → ∀ n, (r.get n).isNull = false →
    ∃ p ∈ ps, p.name = n ∧ p.value = r.get n
  /-- Nothing else is written but the defaults of columns that the item leaves null. -/
  own : ∀ r, i.toRow = .ok r → ∀ p ∈ ps, p.value = r.get p.name ∨
    (r.get p.name).isNull = true ∧ ∃ c ∈ t.columns, c.name = p.name ∧ c.default = some p.value

namespace Handle

open Run Session Batch Sql

/-! ### The plan -/

/-- The plan of a batch of inserts. -/
def insertPlan (s : Session) (t : Table) (size : Int) (rows : List Row) : List PlanStep :=
  (chunks (effectiveSize size) rows).map (fun rs => insertStep s (insertion t rs .key true))

variable {s : Session} {h : Handle} {t : Table}

/-- **A batch of inserts carries out its plan.** -/
theorem carriesOut_batchCreate {items : List Item} {rows : List Row}
    (hrows : collect Item.toRow items = .ok rows)
    (ht : (h.forBatch items).writable (names rows) = .ok t) (size : Int) (c : Channel) :
    (h.batchCreate s items size).CarriesOut c s (insertPlan s t size rows) items.length := by
  unfold batchCreate
  split
  · cases hrows
    exact carriesOut_log_bind fun _ _ => carriesOut_pure _
  · rename_i first rest
    refine carriesOut_lift_bind hrows (carriesOut_lift_bind ht ?_)
    have hplan : insertPlan s t size rows = insertPlan s t size rows ++ [] :=
      (List.append_nil _).symm
    rw [hplan]
    exact carriesOut_insertChunks.bind fun _ _ => carriesOut_pure _

/-! ### What is sent for an item -/

/-- Whether a handle can write items in a batch: each has a row, and the table that the batch
goes to has every column that a row names. -/
def CanWrite (h : Handle) (items : List Item) : Prop :=
  ∃ rows t, collect Item.toRow items = .ok rows ∧
    (h.forBatch items).writable (names rows) = .ok t ∧
    ∀ r ∈ rows, ∀ n ∈ r.names, (t.column? n).isSome = true

/-- Rows can be written to a table of which only the name is known. -/
theorem canWrite_named {name : String} (hname : name ≠ "") (rows : List Row) :
    CanWrite ⟨none, some name⟩ (rows.map fun r => some (.row r)) := by
  refine ⟨rows, .named name (names rows), ?_, ?_, fun r hr n hn => ?_⟩
  · rw [collect_map, collect_of_ok (fun r _ => show Item.toRow (some (.row r)) = .ok r from rfl),
      List.map_id']
  · have hown : ownName? ⟨none, some name⟩ = some name := by
      simp [ownName?, hname]
    have hbatch : forBatch ⟨none, some name⟩ (rows.map fun r => some (.row r)) =
        ⟨none, some name⟩ := by cases rows <;> rfl
    rw [hbatch, writable, hown]
  · have hmem : n ∈ names rows := mem_distinct.mpr (List.mem_flatMap.mpr ⟨r, hr, hn⟩)
    rw [column?_named, if_pos hmem]
    rfl

/-- How the insert `x` that was sent treats some items. -/
structure InsertsItems (s : Session) (t : Table) (items : List Item) (x : Insert) (y : Sent) :
    Prop where
  statement : y.statement = .insert x
  table : x.table = t
  /-- There is one row for each item, in order. -/
  rows : List.Forall₂ (Item.CarriedBy t) items y.statement.newRows
  /-- All rows have the same columns in the same order. -/
  uniform : ∀ ps ∈ y.statement.newRows, ps.map (·.name) = x.columns
  /-- The text names the columns in that order. -/
  text : x.columns ≠ [] → ∃ lead tail, y.prepared.sql = lead ++ " (" ++
    ", ".intercalate (x.columns.map s.dialect.quoteName) ++ ") VALUES (" ++ tail
  /-- The driver gets for each row the values that are read at their places, in that order too, -/
  served : List.Forall₂ (fun ps vs => storedAll s.dialect (servedRow s.dialect ps) = .ok vs)
    y.statement.newRows y.prepared.rows
  /-- which are the row's own where the columns are written apart. -/
  values : x.PlacesApart → List.Forall₂ (fun ps vs => storedAll s.dialect ps = .ok vs)
    y.statement.newRows y.prepared.rows

/-- The rows of an insert are assigned what the rows it was made of are. -/
theorem newRows_insertion {rows : List Row} {returned : Returned} {lenient : Bool}
    (hne : rows ≠ []) : (Statement.insert (insertion t rows returned lenient)).newRows =
      rows.map (insertion t rows returned lenient).assignments := by
  rw [Statement.newRows, rows_insertion hne, List.map_map]
  refine List.map_congr_left fun r _ => ?_
  exact assignments_pick hne r

/-- A column that the rows do not list is null in each of them. -/
theorem isNull_of_not_listsName {rows : List Row} {r : Row} {n : String} (hr : r ∈ rows)
    (h : ¬ ListsName t rows n) : (r.get n).isNull = true := by
  by_contra hgiven
  rw [Bool.not_eq_true] at hgiven
  exact h ⟨r, hr, contains_of_given hgiven, fun _ => hgiven⟩

/-- **A row of an insert carries its item**, when the table has the columns of the row. -/
theorem carriedBy_assignments {rows : List Row} {returned : Returned} {lenient : Bool} {i : Item}
    {r : Row} (hi : i.toRow = .ok r) (hr : r ∈ rows)
    (hcolumns : ∀ n ∈ r.names, (t.column? n).isSome = true) :
    i.CarriedBy t ((insertion t rows returned lenient).assignments r) := by
  have hne : rows ≠ [] := List.ne_nil_of_mem hr
  constructor
  · intro r' hr' n hgiven
    cases hi.symm.trans hr'
    have hname : n ∈ r.names := List.contains_iff_mem.mp (contains_of_given hgiven)
    obtain ⟨c, hc⟩ := Option.isSome_iff_exists.mp (hcolumns n hname)
    refine Insert.mem_assignments ?_
    rw [assignedTo_of_given hr hgiven, hc]
    rfl
  · intro r' hr' p hp
    cases hi.symm.trans hr'
    obtain ⟨c, hc, hassigned⟩ := List.mem_filterMap.mp hp
    obtain ⟨v, hv, rfl⟩ := Option.map_eq_some_iff.mp hassigned
    rw [table_insertion] at hc
    unfold Insert.assigned Insert.source? at hv
    rw [contains_first_insertion hne] at hv
    split at hv
    · cases hv
      exact .inl rfl
    · rename_i hlisted
      have hnull := isNull_of_not_listsName (t := t) hr
        (fun h => hlisted (List.contains_iff_mem.mpr (mem_keptNames.mpr h)))
      rw [Option.map_map] at hv
      obtain ⟨d, hd, rfl⟩ := Option.map_eq_some_iff.mp hv
      exact .inr ⟨hnull, c, hc, rfl, hd⟩

/-- **The insert of the rows of items carries every item**, when its table has their
columns. -/
theorem insertsItems_of_sends {items : List Item} {rows : List Row} {y : Sent}
    (hrows : List.Forall₂ (fun i r => i.toRow = .ok r) items rows) (hne : rows ≠ [])
    (hcolumns : ∀ r ∈ rows, ∀ n ∈ r.names, (t.column? n).isSome = true)
    (hy : s.SendsAs (.insert (insertion t rows .key true)) y) :
    InsertsItems s t items (insertion t rows .key true) y := by
  have hhands := handsOver_insertion hne hy.prepared
  have hnew : y.statement.newRows = rows.map (insertion t rows .key true).assignments := by
    rw [hy.statement, newRows_insertion hne]
  refine ⟨hy.statement, table_insertion, ?_, fun ps hps => ?_, hhands.names, ?_, fun hplaces => ?_⟩
  · rw [hnew, List.forall₂_map_right_iff]
    have hmem := (List.forall₂_and_left _ _).mpr ⟨fun r (hr : r ∈ rows) => hr, hrows.flip⟩
    exact hmem.flip.imp fun i r hir => carriedBy_assignments hir.2 hir.1 (hcolumns r hir.1)
  · rw [hnew] at hps
    obtain ⟨r, -, rfl⟩ := List.mem_map.mp hps
    exact Insert.names_assignments _ r
  · rw [hnew, List.forall₂_map_left_iff]
    exact hhands.served
  · rw [hnew, List.forall₂_map_left_iff]
    exact hhands.values hplaces

/-- What holds of the rows of each chunk holds of all rows together. -/
theorem forall₂_newRows {α : Type} {R : α → List Parameter → Prop} {size : Nat} (hsize : 0 < size)
    {xs : List α} {added : List Sent}
    (h : List.Forall₂ (fun chunk y => List.Forall₂ R chunk y.statement.newRows) (chunks size xs)
      added) : List.Forall₂ R xs (added.flatMap (·.statement.newRows)) := by
  have hflat := List.rel_flatten (List.forall₂_map_right_iff.mpr h)
  rwa [flatten_chunks hsize, ← List.flatMap_def] at hflat

/-- **The plan of a batch sends its items chunk by chunk.** -/
theorem progress_insertPlan {items : List Item} {rows : List Row} {size : Int}
    {r : Except Error Unit} {added : List Sent} (hrows : collect Item.toRow items = .ok rows)
    (hcolumns : ∀ r ∈ rows, ∀ n ∈ r.names, (t.column? n).isSome = true)
    (h : Progress (insertPlan s t size rows) (fun q y => s.SendsAs q.statement y) r added) :
    Progress (chunks (effectiveSize size) items) (fun chunk y => ∃ x, InsertsItems s t chunk x y)
      r added := by
  have hplan : List.Forall₂ (fun chunk q => ∃ rs ∈ chunks (effectiveSize size) rows,
      List.Forall₂ (fun i r => i.toRow = .ok r) chunk rs ∧
        q = insertStep s (insertion t rs .key true))
      (chunks (effectiveSize size) items) (insertPlan s t size rows) := by
    rw [insertPlan, List.forall₂_map_right_iff]
    have hchunks := (forall₂_chunks (effectiveSize size) (Insert.forall₂_of_collect hrows)).flip
    have hmem := (List.forall₂_and_left _ _).mpr
      ⟨fun rs (hrs : rs ∈ chunks (effectiveSize size) rows) => hrs, hchunks⟩
    exact hmem.flip.imp fun chunk rs hrs => ⟨rs, hrs.1, hrs.2, rfl⟩
  refine (h.of_forall₂ hplan).imp fun chunk y hy => ?_
  obtain ⟨q, ⟨rs, hrs, hchunk, rfl⟩, hsends⟩ := hy
  exact ⟨_, insertsItems_of_sends hchunk (ne_nil_of_mem_chunks (effectiveSize_pos size) hrs)
    (fun r hr => hcolumns r (mem_of_mem_chunks hrs hr)) hsends⟩

/--
**A batch of inserts inserts every item exactly once, in order, and stops at the first
failure.**

The `k`-th statement that is sent has one row for each item from `k * size` on, at most `size`
of them, in order and with the same columns, and the driver is handed their values where these
columns are written apart.  When nothing fails there are as many statements
as it takes, their rows together are those of the items, and the number of items is the
result.  When the driver fails on a statement, its failure is the result and nothing more is
sent.
-/
theorem batchCreate_inserts_each_once (s : Session) (h : Handle) (items : List Item) (size : Int)
    (c : Channel) (hwrite : h.CanWrite items) :
    ∃ rows t added, collect Item.toRow items = .ok rows ∧
      (h.forBatch items).writable (names rows) = .ok t ∧
      (h.batchCreate s items size c).2.sent = c.sent ++ added ∧
      (∀ k y, added[k]? = some y → ∃ x, InsertsItems s t
        ((items.drop (k * effectiveSize size)).take (effectiveSize size)) x y) ∧
      (∀ n, (h.batchCreate s items size c).1 = .ok n → n = items.length ∧
        added.length = items.length ⌈/⌉ effectiveSize size ∧
        List.Forall₂ (Item.CarriedBy t) items (added.flatMap (·.statement.newRows))) ∧
      (∀ k kind message, k < added.length → c.outcomes[k]? = some (.failure kind message) →
        (h.batchCreate s items size c).1 = .error (.driver kind message) ∧
          added.length = k + 1) ∧
      ((∀ k q, (insertPlan s t size rows)[k]? = some q →
          (s.perform q (c.outcomes.drop k)).result = .ok ()) →
        (h.batchCreate s items size c).1 = .ok items.length) := by
  obtain ⟨rows, t, hrows, ht, hcolumns⟩ := hwrite
  obtain ⟨hresult, hsent, -⟩ := carriesOut_batchCreate (s := s) hrows ht size c
  have hprogress := progress_insertPlan hrows hcolumns
    (s.exchange_progress (insertPlan s t size rows) c.outcomes)
  have hsize := effectiveSize_pos size
  refine ⟨rows, t, _, hrows, ht, hsent, fun k y hy => ?_, fun n hn => ?_,
    fun k kind message hk hfailure => ?_, fun hsteps => ?_⟩
  · obtain ⟨chunk, hchunk, hinserts⟩ := hprogress.getElem? hy
    rw [getElem?_chunks hsize] at hchunk
    split at hchunk
    · cases hchunk
      exact hinserts
    · cases hchunk
  · rw [hresult] at hn
    obtain ⟨_, hok, rfl⟩ := map_eq_ok.mp hn
    have hall := hprogress.complete (by rw [hok]; rfl)
    refine ⟨rfl, by rw [← hall.length_eq, length_chunks hsize], ?_⟩
    exact forall₂_newRows hsize (hall.imp fun chunk y hy => hy.choose_spec.rows)
  · obtain ⟨hdriver, hlength⟩ := Session.exchange_of_failure hk hfailure
    exact ⟨by rw [hresult, hdriver]; rfl, hlength⟩
  · rw [hresult, Session.exchange_eq_ok_iff.mpr hsteps]
    rfl

/-- Three rows that do not name the same columns. -/
def measurements : List Row :=
  [.ofList [("at", .int 1)], .ofList [("value", .int 7), ("at", .int 2)], .ofList [("at", .int 3)]]

/-- Two at a time they take two statements, of which the driver may refuse the first. -/
theorem batchCreate_inserts_each_once_measurements :
    let s : Session := ⟨.sqlite, true⟩
    let h : Handle := ⟨none, some "measurements"⟩
    let items : List Item := measurements.map fun r => some (.row r)
    let run (os : List Outcome) := h.batchCreate s items 2 ⟨os, [], []⟩
    h.CanWrite items ∧
    (∃ t added, (run []).2.sent = added ∧ added.length = 2 ∧
      List.Forall₂ (Item.CarriedBy t) items (added.flatMap (·.statement.newRows))) ∧
    (run [.failure "IntegrityError" "CHECK", .reply .silent]).1 =
        .error (.driver "IntegrityError" "CHECK") ∧
    (run [.failure "IntegrityError" "CHECK", .reply .silent]).2.sent.length = 1 := by
  intro s h items run
  have hwrite : h.CanWrite items := canWrite_named (by decide) measurements
  refine ⟨hwrite, ?_, ?_⟩
  · obtain ⟨rows, t, added, -, -, hsent, -, hok, -⟩ :=
      batchCreate_inserts_each_once s h items 2 ⟨[], [], []⟩ hwrite
    obtain ⟨-, hlength, hcarried⟩ := hok 3 rfl
    rw [Nat.ceilDiv_eq_add_pred_div] at hlength
    exact ⟨t, added, hsent, hlength.trans (by decide), hcarried⟩
  · obtain ⟨rows, t, added, -, -, hsent, -, -, hfailure, -⟩ := batchCreate_inserts_each_once s h
      items 2 ⟨[.failure "IntegrityError" "CHECK", .reply .silent], [], []⟩ hwrite
    have hone : (run [.failure "IntegrityError" "CHECK", .reply .silent]).2.sent.length = 1 := by
      decide +kernel
    rw [List.nil_append] at hsent
    have hlength : added.length = 1 := hsent ▸ hone
    exact ⟨(hfailure 0 "IntegrityError" "CHECK" (by omega) rfl).1, hone⟩

/-- A value is lost where two columns are written alike: of one and two the driver is handed one
twice. -/
theorem batchCreate_inserts_each_once_alike :
    let s : Session := ⟨.sqlite, true⟩
    let h : Handle := ⟨none, some "t"⟩
    let items : List Item := [some (.row (.ofList [("a.b", .int 1), ("a_b", .int 2)]))]
    h.CanWrite items ∧ (h.batchCreate s items 0 ⟨[], [], []⟩).1.toOption = some 1 ∧
      (h.batchCreate s items 0 ⟨[], [], []⟩).2.sent.map
        (fun y => (y.prepared.sql, y.prepared.rows.map (List.map Value.render))) =
          [("INSERT INTO t (\"a.b\", a_b) VALUES (?, ?)", [["1", "1"]])] := by
  intro s h items
  exact ⟨canWrite_named (by decide) [.ofList [("a.b", .int 1), ("a_b", .int 2)]],
    by decide +kernel, by decide +kernel⟩

end Handle

end TableQuery
