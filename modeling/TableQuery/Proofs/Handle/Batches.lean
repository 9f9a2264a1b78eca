/-
A batch of inserts against inserts one by one.

`batchCreate` cuts its items into chunks and sends one insert for each chunk, in order, for
as long as nothing fails; `does_batchCreate` is that.  What a chunk's insert assigns for one
of its items is then compared with what `create` sends for that item alone.  The two agree
on every column that `create` lists and on every column that the chunk leaves to its
default.  They differ where only other items of the chunk list a column: it is null in the
batch and left to its default by `create`.  So the size of the chunks matters there, and
nowhere else.
-/
import TableQuery.Catalog
import TableQuery.Proofs.Handle.Inserting
import TableQuery.Proofs.Handle.Plans

namespace TableQuery

/-! ### Chunks -/

namespace Batch

variable {α β : Type}

theorem effectiveSize_pos (asked : Int) : 0 < effectiveSize asked := by
  unfold effectiveSize
  split
  · decide
  · omega

theorem flatten_chunksUpTo {size : Nat} (hsize : 0 < size) {fuel : Nat} {xs : List α}
    (h : xs.length ≤ fuel) : (chunksUpTo size fuel xs).flatten = xs := by
  induction fuel generalizing xs with
  | zero =>
      have hnil : xs = [] := List.length_eq_zero_iff.mp (Nat.le_zero.mp h)
      rw [hnil]
      rfl
  | succ fuel ih =>
      cases xs with
      | nil => rfl
      | cons x xs =>
          have hdrop : ((x :: xs).drop size).length ≤ fuel := by
            rw [List.length_drop]
            have hlength : (x :: xs).length = xs.length + 1 := rfl
            omega
          rw [chunksUpTo, List.flatten_cons, ih hdrop, List.take_append_drop]

/-- The chunks of a list are the list. -/
theorem flatten_chunks {size : Nat} (hsize : 0 < size) (xs : List α) :
    (chunks size xs).flatten = xs := flatten_chunksUpTo hsize (Nat.le_refl _)

/-- No chunk is empty. -/
theorem ne_nil_of_mem_chunks {size : Nat} (hsize : 0 < size) {xs chunk : List α}
    (h : chunk ∈ chunks size xs) : chunk ≠ [] := by
  unfold chunks at h
  generalize xs.length = fuel at h
  induction fuel generalizing xs with
  | zero => simp [chunksUpTo] at h
  | succ fuel ih =>
      cases xs with
      | nil => simp [chunksUpTo] at h
      | cons x xs =>
          rw [chunksUpTo] at h
          rcases List.mem_cons.mp h with rfl | h
          · obtain ⟨n, rfl⟩ := Nat.exists_eq_succ_of_ne_zero (Nat.pos_iff_ne_zero.mp hsize)
            simp
          · exact ih h

theorem chunks_one (xs : List α) : chunks 1 xs = xs.map (fun x => [x]) := by
  unfold chunks
  induction xs with
  | nil => rfl
  | cons x xs ih => simpa [chunksUpTo] using ih

theorem chunks_map (f : α → β) (size : Nat) (xs : List α) :
    chunks size (xs.map f) = (chunks size xs).map (List.map f) := by
  unfold chunks
  rw [List.length_map]
  generalize xs.length = fuel
  induction fuel generalizing xs with
  | zero => rfl
  | succ fuel ih =>
      cases xs with
      | nil => rfl
      | cons x xs => rw [List.map_cons, chunksUpTo, chunksUpTo, List.map_cons, ← ih, List.map_take,
          List.map_drop, List.map_cons]

/-- Related lists have related chunks. -/
theorem forall₂_chunks {R : α → β → Prop} (size : Nat) {xs : List α} {ys : List β}
    (h : List.Forall₂ R xs ys) :
    List.Forall₂ (List.Forall₂ R) (chunks size xs) (chunks size ys) := by
  unfold chunks
  rw [h.length_eq]
  generalize ys.length = fuel
  induction fuel generalizing xs ys with
  | zero => exact .nil
  | succ fuel ih =>
      cases h with
      | nil => exact .nil
      | cons hxy hrest =>
          have hwhole := List.Forall₂.cons hxy hrest
          exact .cons (List.forall₂_take size hwhole) (ih (List.forall₂_drop size hwhole))

end Batch

namespace Handle

open Run Session Batch Sql

/-! ### Inserting chunks -/

variable {s : Session} {h : Handle}

/-- The step of an insert: what it returns has to be readable. -/
def insertStep (s : Session) (x : Insert) : PlanStep := ⟨.insert x, checkReturned s.dialect x⟩

theorem carriesOut_insert {x : Insert} {c : Channel} :
    (s.execute (.insert x) >>= fun reply => lift (checkReturned s.dialect x reply)).CarriesOut
      c s [insertStep s x] () :=
  carriesOut_execute_bind (q := insertStep s x) (fun _ he c => congrArg (fun r => (r, c)) he)
    (fun hread _ _ => carriesOut_lift hread)

/-- **An insert is the first step of a plan** when the rest of it follows. -/
theorem carriesOut_insert_bind {α : Type} {x : Insert} {f : Unit → Run α} {a : α} {c : Channel}
    {more : List PlanStep}
    (hf : ∀ c', c'.outcomes = c.outcomes.tail → (f ()).CarriesOut c' s more a) :
    (s.execute (.insert x) >>= fun reply => lift (checkReturned s.dialect x reply) >>= f).CarriesOut
      c s (insertStep s x :: more) a := by
  refine carriesOut_execute_bind (q := insertStep s x) (fun e he c => ?_) (fun hread c hc => ?_)
  · exact congrArg (fun r => Run.bind (lift r) f c) he
  · exact carriesOut_lift_bind hread (hf c hc)

theorem carriesOut_insertChunks {t : Table} {total start : Nat} {chunks : List (List Row)}
    {c : Channel} :
    (insertChunks s t total start chunks).CarriesOut c s
      (chunks.map fun rows => insertStep s (insertion t rows .key true)) () := by
  induction chunks generalizing start c with
  | nil => exact carriesOut_pure ()
  | cons rows rest ih =>
      rw [insertChunks]
      exact carriesOut_log_bind fun _ _ => carriesOut_insert_bind fun _ _ => ih

/-! ### What is sent -/

/-- Whether a statement that was sent is the insert of some rows, as it is prepared. -/
structure SendsInsertion (s : Session) (t : Table) (returned : Returned) (lenient : Bool)
    (rows : List Row) (y : Sent) : Prop where
  statement : y.statement = .insert (insertion t rows returned lenient)
  prepared : y.statement.prepare s.dialect = .ok y.prepared

/-- **Chunks are inserted in order**, and all of them when nothing fails. -/
theorem does_insertChunks {t : Table} {total start : Nat} {chunks : List (List Row)} :
    (insertChunks s t total start chunks).Does
      (Progress chunks (SendsInsertion s t .key true)) := by
  intro c
  obtain ⟨added, hsent, -, hprogress⟩ :=
    (carriesOut_insertChunks (s := s) (t := t) (c := c)).doesOn
  refine ⟨added, hsent, hprogress.of_map.imp fun chunk y hy => ⟨hy.statement, ?_⟩⟩
  rw [hy.statement]
  exact hy.prepared

/-- The handle that a batch goes through: without a model it takes that of the first
item. -/
def forBatch (h : Handle) : List Item → Handle
  | [] => h
  | first :: _ => h.forItem first

/-- Whether a statement that was sent inserts a chunk of the items of a batch. -/
structure SendsChunk (s : Session) (h : Handle) (items chunk : List Item) (y : Sent) : Prop where
  sends : ∃ all rows t, collect Item.toRow items = .ok all ∧
    List.Forall₂ (fun i r => i.toRow = .ok r) chunk rows ∧ (∀ r ∈ rows, r ∈ all) ∧ rows ≠ [] ∧
    (h.forBatch items).writable (names all) = .ok t ∧ SendsInsertion s t .key true rows y

/-- **A batch inserts the chunks of its items in order**, and all of them when nothing
fails. -/
theorem does_batchCreate {items : List Item} {size : Int} :
    (h.batchCreate s items size).Does (fun r added =>
      (∀ n, r = .ok n → n = items.length) ∧
      Progress (chunks (effectiveSize size) items) (h.SendsChunk s items) r added) := by
  unfold batchCreate
  split
  · exact does_log_bind (does_pure ⟨fun n hn => (Except.ok.inj hn).symm, .done⟩)
  · rename_i first rest
    have hfailed : ∀ (e : Error) (n : Int), (Except.error e : Except Error Int) = .ok n →
        n = (first :: rest).length := fun e n hn => by cases hn
    refine does_lift_bind (fun e _ => ⟨hfailed e, .nothing⟩) (fun all hall => ?_)
    refine does_lift_bind (fun e _ => ⟨hfailed e, .nothing⟩) (fun t ht => ?_)
    have hrows := forall₂_chunks (effectiveSize size) (Insert.forall₂_of_collect hall)
    have hchunks : ∀ {r : Except Error Unit} {added : List Sent},
        Progress (chunks (effectiveSize size) all) (SendsInsertion s t .key true) r added →
        Progress (chunks (effectiveSize size) (first :: rest))
          (h.SendsChunk s (first :: rest)) r added := by
      intro r added hprogress
      refine (hprogress.mem.of_forall₂ hrows).imp (fun chunk y hy => ?_)
      obtain ⟨rows, hchunk, hmem, hsends⟩ := hy
      exact ⟨all, rows, t, hall, hchunk, fun r hr => mem_of_mem_chunks hmem hr,
        ne_nil_of_mem_chunks (effectiveSize_pos size) hmem, ht, hsends⟩
    refine does_insertChunks.bind (fun e added hprogress => ?_) (fun _ sent hprogress => ?_)
    · exact ⟨hfailed e, (hchunks hprogress).of_isOk (fun h => h)⟩
    · refine does_pure ⟨fun n hn => (Except.ok.inj hn).symm, ?_⟩
      rw [List.append_nil]
      exact (hchunks hprogress).of_isOk (fun _ => rfl)

/-- **Creating an item inserts its row alone**, once when nothing fails, into the table that
the item's own handle resolves to. -/
theorem does_create {i : Item} {r : Row} (hr : i.toRow = .ok r) :
    (h.create s i).Does (Progress [i] (fun _ y => ∃ t returned,
      (h.forItem i).writable r.names = .ok t ∧ SendsInsertion s t returned false [r] y)) := by
  unfold create
  rw [hr]
  refine does_lift_bind (fun e _ => .nothing) (fun row hrow => ?_)
  cases hrow
  refine does_lift_bind (fun e _ => .nothing) (fun t ht => ?_)
  have hsent : ∀ {returned p}, (Statement.insert (insertion t [r] returned false)).prepare
      s.dialect = .ok p → ∃ t' returned', (h.forItem i).writable r.names = .ok t' ∧
        SendsInsertion s t' returned' false [r] ⟨.insert (insertion t [r] returned false), p⟩ :=
    fun hp => ⟨t, _, ht, rfl, hp⟩
  split
  · refine does_execute_bind (fun e => .nothing) (fun p hp => ?_)
    exact ⟨fun e => .cons (hsent hp) .nothing, fun reply => does_pure (.cons (hsent hp) .done)⟩
  · refine does_execute_bind (fun e => .nothing) (fun p hp => ?_)
    refine ⟨fun e => .cons (hsent hp) .nothing, fun reply => ?_⟩
    exact does_lift_bind (fun e _ => .cons (hsent hp) .nothing)
      (fun returned _ => does_pure (.cons (hsent hp) .done))

/-! ### The comparison -/

/-- A handle writes rows together and one of them alone to tables of the same columns. -/
theorem sameColumns_of_writable {t t' : Table} {r : Row} {all : List Row} (hr : r ∈ all)
    (ht : h.writable (names all) = .ok t) (ht' : h.writable r.names = .ok t') :
    SameColumns r t t' := by
  have hcases : h.table = .ok t ∧ h.table = .ok t' ∨
      ∃ name, t = .named name (names all) ∧ t' = .named name r.names := by
    unfold writable at ht ht'
    cases hmodel : h.model with
    | some m =>
        simp only [hmodel] at ht ht'
        exact .inl ⟨ht, ht'⟩
    | none =>
        cases hname : h.ownName? with
        | none =>
            simp only [hmodel, hname] at ht ht'
            exact .inl ⟨ht, ht'⟩
        | some name =>
            simp only [hmodel, hname, Except.ok.injEq] at ht ht'
            exact .inr ⟨name, ht.symm, ht'.symm⟩
  rcases hcases with ⟨ht, ht'⟩ | ⟨name, rfl, rfl⟩
  · rw [Except.ok.inj (ht.symm.trans ht')]
    exact .refl t'
  · exact .named name (fun n hn => mem_distinct.mpr (List.mem_flatMap.mpr ⟨r, hr, hn⟩))

/-- How the insert `x` of a chunk treats the items of it, `rows` being theirs. -/
structure AssignsAsAlone (s : Session) (h : Handle) (items chunk : List Item) (x : Insert)
    (rows : List Row) (y : Sent) : Prop where
  statement : y.statement = .insert x
  /-- There is one row for each item. -/
  ofItems : List.Forall₂ (fun i r => i.toRow = .ok r) chunk rows
  /-- The driver gets what is assigned. -/
  handsOver : x.HandsOver s.dialect rows y.prepared
  /-- A column that the chunk lists is assigned the item's own value. -/
  assigns : ∀ r n, x.assignedTo r n = (x.table.column? n).bind (fun c =>
    if ListsName x.table rows n then some (r.get n) else c.default)
  /-- A value that an item gives to a column of the table is assigned as it is alone. -/
  given : ∀ i ∈ chunk, ∀ r, i.toRow = .ok r →
    (h.create s i).Does (Progress [i] (fun _ z => ∃ alone, z.statement = .insert alone ∧
      ∀ n, (r.get n).isNull = false → (x.table.column? n).isSome = true →
        x.assignedTo r n = alone.assignedTo r n))
  /-- An item that is created through the same handle is assigned what it is assigned alone,
  except for the columns that only other items list. -/
  asAlone : ∀ i ∈ chunk, ∀ r, i.toRow = .ok r → h.forItem i = h.forBatch items →
    (h.create s i).Does (Progress [i] (fun _ z => ∃ alone, z.statement = .insert alone ∧
      alone.HandsOver s.dialect [r] z.prepared ∧ AgreesExcept x rows alone r ∧
      (chunk = [i] → ∀ n, x.assignedTo r n = alone.assignedTo r n)))

theorem assignsAsAlone_of_sendsChunk {items chunk : List Item} {y : Sent}
    (hy : h.SendsChunk s items chunk y) : ∃ x rows, h.AssignsAsAlone s items chunk x rows y := by
  obtain ⟨all, rows, t, -, hrows, hall, hne, ht, hsends⟩ := hy
  have hprepared := hsends.prepared
  rw [hsends.statement] at hprepared
  -- The row of an item of the chunk is among the rows of its insert.
  have hmem : ∀ i ∈ chunk, ∀ r, i.toRow = .ok r → r ∈ rows := by
    intro i hi r hr
    obtain ⟨r', hr', htoRow⟩ := exists_of_forall₂ hrows hi
    rwa [Except.ok.inj (htoRow.symm.trans hr)] at hr'
  refine ⟨_, rows, hsends.statement, hrows, handsOver_insertion hne hprepared,
    fun r n => ?_, fun i hi r hr => ?_, fun i hi r hr hsame => ?_⟩
  · rw [assignedTo_insertion hne, table_insertion]
  · refine (does_create hr).mono (fun _ _ hprogress => hprogress.imp (fun _ z hz => ?_))
    obtain ⟨t', returned, -, hstatement, hprepare⟩ := hz
    rw [hstatement] at hprepare
    refine ⟨_, hstatement, fun n hgiven hcolumn => ?_⟩
    rw [table_insertion] at hcolumn
    rw [assignedTo_of_given (hmem i hi r hr) hgiven,
      assignedTo_of_given (List.mem_singleton_self r) hgiven]
    obtain ⟨c, hc⟩ := Option.isSome_iff_exists.mp hcolumn
    obtain ⟨c', hc'⟩ := Option.isSome_iff_exists.mp
      (column?_of_prepare (List.mem_singleton_self r) hprepare hgiven)
    rw [hc, hc']
    rfl
  · refine (does_create hr).mono (fun _ _ hprogress => hprogress.imp (fun _ z hz => ?_))
    obtain ⟨t', returned, ht', hstatement, hprepare⟩ := hz
    rw [hsame] at ht'
    have hcolumns := sameColumns_of_writable (hall r (hmem i hi r hr)) ht ht'
    have hagrees : AgreesExcept (insertion t rows .key true) rows
        (insertion t' [r] returned false) r := agreesExcept hcolumns (hmem i hi r hr)
    rw [hstatement] at hprepare
    refine ⟨_, hstatement, handsOver_insertion (List.cons_ne_nil _ _) hprepare, hagrees,
      fun hchunk n => ?_⟩
    -- The rows of a chunk of one item are the row of the item.
    have hone : rows = [r] := by
      rw [hchunk] at hrows
      cases hrows with
      | cons hfirst hrest =>
          cases hrest
          rw [Except.ok.inj (hfirst.symm.trans hr)]
    subst hone
    refine hagrees.of_singleton (fun n => ?_) n
    rw [table_insertion, table_insertion]
    exact hcolumns.lists_iff n

/--
**A batch of inserts against inserts one by one.**

The chunks of the items are inserted in order, one insert for each with one row for each item,
and all of them when nothing fails.  Every row is assigned its own values in the columns
that its chunk lists, and the defaults in the others.  An item that is created through the
same handle is assigned what it is assigned alone, except that a column which only
other items of its chunk list is null and not left to its default; alone in its chunk it is
assigned exactly the same.  Of any other item the values are assigned as they are alone, where
the table has their columns.
-/
theorem batchCreate_assigns (s : Session) (h : Handle) (items : List Item) (size : Int) :
    (chunks (effectiveSize size) items).flatten = items ∧
    (h.batchCreate s items size).Does (fun r added =>
      (∀ n, r = .ok n → n = items.length) ∧
      Progress (chunks (effectiveSize size) items)
        (fun chunk y => ∃ x rows, h.AssignsAsAlone s items chunk x rows y) r added) := by
  refine ⟨flatten_chunks (effectiveSize_pos size) items, ?_⟩
  refine does_batchCreate.mono (fun r added hdone => ⟨hdone.1, ?_⟩)
  exact hdone.2.imp (fun chunk y hy => assignsAsAlone_of_sendsChunk hy)

/-- Two users, of whom only the first says whether it is deleted. -/
def deletedAndNew : List Item :=
  [some (.entity ⟨Catalog.user, .ofList [("email", .text "a"), ("deleted", .bool true)]⟩),
    some (.entity ⟨Catalog.user, .ofList [("email", .text "b")]⟩)]

/-- One by one, each of them is assigned what it is assigned alone. -/
theorem batchCreate_assigns_singly :
    let s : Session := ⟨.sqlite, true⟩
    let h : Handle := ⟨some Catalog.user, none⟩
    ∃ added, (h.batchCreate s deletedAndNew 1 ⟨[], [], []⟩).2.sent = added ∧
      List.Forall₂ (fun i y => ∃ x r, y.statement = .insert x ∧ i.toRow = .ok r ∧
        (h.create s i).Does (Progress [i] (fun _ z => ∃ alone, z.statement = .insert alone ∧
          ∀ n, x.assignedTo r n = alone.assignedTo r n))) deletedAndNew added := by
  intro s h
  obtain ⟨-, hdoes⟩ := batchCreate_assigns s h deletedAndNew 1
  obtain ⟨added, hsent, -, done, -, hall, hchunks⟩ := hdoes ⟨[], [], []⟩
  have hok : (h.batchCreate s deletedAndNew 1 ⟨[], [], []⟩).1.isOk = true := by decide +kernel
  have hdone : done = deletedAndNew.map (fun i => [i]) := (hall hok).trans (chunks_one _)
  rw [hdone, List.forall₂_map_left_iff] at hchunks
  refine ⟨added, by simpa using hsent, hchunks.imp (fun i y hy => ?_)⟩
  obtain ⟨x, rows, hassigns⟩ := hy
  obtain ⟨r, -, hr⟩ := exists_of_forall₂ hassigns.ofItems (List.mem_singleton_self i)
  refine ⟨x, r, hassigns.statement, hr, ?_⟩
  refine (hassigns.asAlone i (List.mem_singleton_self i) r hr rfl).mono
    (fun res sent hprogress => ?_)
  exact hprogress.imp (fun _ z hz => by
    obtain ⟨alone, hstatement, -, -, hsame⟩ := hz
    exact ⟨alone, hstatement, hsame rfl⟩)

/-- In one chunk they are not: the second user's `deleted` is null there, and the default
of the model when it is created alone.  The same happens to a user in a batch whose first
item is a row, because such a batch goes through a table without columns of its own.  And where
two columns are written alike, the driver is handed the null of one for the value of the other. -/
theorem batchCreate_assigns_together :
    let s : Session := ⟨.sqlite, true⟩
    let nulls (c : Channel) : List (String × List (List Bool)) := c.sent.map (fun y =>
      (y.prepared.sql, y.prepared.rows.map (fun vs => vs.map Value.isNull)))
    let users : Handle := ⟨some Catalog.user, none⟩
    let named : Handle := ⟨none, some "users"⟩
    let rowAndNew : List Item :=
      [some (.row (.ofList [("email", .text "a")])),
        some (.entity ⟨Catalog.user, .ofList [("email", .text "b")]⟩)]
    let limit : Item := some (.row (.ofList [("temp_max", .int 2)]))
    let both : Item := some (.row (.ofList [("temp.max", .int 1), ("temp_max", .int 3)]))
    nulls (users.batchCreate s deletedAndNew 0 ⟨[], [], []⟩).2 =
      [("INSERT INTO users (email, name, age, deleted) VALUES (?, ?, ?, ?)",
        [[false, true, true, false], [false, true, true, true]])] ∧
    nulls (named.batchCreate s rowAndNew 0 ⟨[], [], []⟩).2 =
      [("INSERT INTO users (email, id, name, age, status, deleted) VALUES (?, ?, ?, ?, ?, ?)",
        [[false, true, true, true, true, true], [false, true, true, true, true, true]])] ∧
    nulls (named.batchCreate s [limit, both] 0 ⟨[], [], []⟩).2 =
      [("INSERT INTO users (temp_max, \"temp.max\") VALUES (?, ?)",
        [[true, true], [false, false]])] ∧
    nulls (named.create s limit ⟨[], [], []⟩).2 =
      [("INSERT INTO users (temp_max) VALUES (?)", [[false]])] ∧
    ∀ h ∈ [users, named], deletedAndNew.map (fun i => nulls (h.create s i ⟨[], [], []⟩).2) =
      [[("INSERT INTO users (email, name, age, deleted) VALUES (?, ?, ?, ?) RETURNING id, status",
        [[false, true, true, false]])],
      [("INSERT INTO users (email, name, age, deleted) VALUES (?, ?, ?, ?) RETURNING id, status",
        [[false, true, true, false]])]] := by
  intro s nulls users named rowAndNew limit both
  refine ⟨by decide +kernel, by decide +kernel, by decide +kernel, by decide +kernel,
    fun h hh => ?_⟩
  simp only [List.mem_cons, List.not_mem_nil, or_false] at hh
  rcases hh with rfl | rfl
  · decide +kernel
  · decide +kernel

end Handle

end TableQuery
