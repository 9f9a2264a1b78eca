/-
Saving a batch: which entities are inserted, and what is overwritten for the others.

`batchSave` splits its entities by whether each has a key that is given as a whole.  Those
that have not are inserted, those that have are upserted after them, and neither half is put
into another order (`fresh` and `known`).  So with an upsert the whole batch carries out one
plan, the inserts of the first half and then the upserts of the second
(`carriesOut_batchSave`).  What an upsert writes and overwrites does not depend on the chunk
that it is for: all columns of the model, and all of them but the key
(`upsertsEntities_of_sends`).
-/
import TableQuery.Proofs.Handle.Chunking
import TableQuery.Proofs.Handle.Upserting
import TableQuery.Proofs.Records

namespace TableQuery

namespace Mapping

/-- The columns of a model that are no part of its key. -/
def others (m : Mapping) : List String :=
  m.table.columnNames.filter (fun n => !m.table.keyNames.contains n)

theorem name_mem_columnNames {m : Mapping} {c : MappedColumn} (hc : c ∈ m.columns) :
    c.name ∈ m.table.columnNames :=
  List.mem_map.mpr ⟨c.toTableColumn, List.mem_map.mpr ⟨c, hc, rfl⟩, rfl⟩

theorem mem_keyNames {m : Mapping} {c : MappedColumn} (hc : c ∈ m.columns) :
    c.name ∈ m.table.keyNames ↔ c.isKey = true := by
  constructor
  · intro h
    obtain ⟨k, hk, hname⟩ := List.mem_map.mp h
    obtain ⟨hcolumn, hkey⟩ := List.mem_filter.mp hk
    obtain ⟨c', hc', rfl⟩ := List.mem_map.mp hcolumn
    rwa [eq_of_name_eq hc' hc hname] at hkey
  · intro hkey
    exact List.mem_map.mpr
      ⟨c.toTableColumn, List.mem_filter.mpr ⟨List.mem_map.mpr ⟨c, hc, rfl⟩, hkey⟩, rfl⟩

end Mapping

namespace Entity

variable {m : Mapping} {e : Entity}

/-- Whether an entity can be found by its key: there is one, and all of it is given. -/
def Identified (m : Mapping) (e : Entity) : Prop := m.table.keyNames ≠ [] ∧ e.HasKey m

instance (m : Mapping) (e : Entity) : Decidable (Identified m e) :=
  inferInstanceAs (Decidable (m.table.keyNames ≠ [] ∧ e.HasKey m))

/-- The entities of a batch that cannot be found by their key, in order. -/
def fresh (m : Mapping) (es : List Entity) : List Entity := es.filter (fun e => ¬ e.Identified m)

/-- The entities of a batch that can, in order. -/
def known (m : Mapping) (es : List Entity) : List Entity := es.filter (fun e => e.Identified m)

theorem fresh_append_known_perm (m : Mapping) (es : List Entity) :
    (fresh m es ++ known m es).Perm es := by
  have hperm := List.filter_append_perm (fun e : Entity => decide (¬ e.Identified m)) es
  simpa only [fresh, known, decide_not, Bool.not_not] using hperm

theorem hasKey_iff : e.HasKey m ↔ ∀ n ∈ m.table.keyNames, ((rowOf m e).get n).isNull = false := by
  refine ⟨fun h n hn => h.given hn, fun h c hc hkey => ?_⟩
  rw [← get_rowOf e hc]
  exact h c.name ((Mapping.mem_keyNames hc).mpr hkey)

end Entity

namespace Handle

open Run Session Batch Sql Entity

variable {s : Session} {h : Handle} {M : Model} {m : Mapping} {t : Table} {e : Entity}

/-- **An item has an identity in the table of a model exactly when the entity can be found by
its key.** -/
theorem isSome_identity (ht : h.table = .ok t) (hcolumns : t.columns = m.table.columns)
    (hmapped : e.model.mapping = some m) :
    (identity t (.ofEntity e)).map Option.isSome = .ok (decide (e.Identified m)) := by
  have hkeys : t.keyNames = m.table.keyNames := keyNames_eq hcolumns
  by_cases hkeyed : t.keyNames = []
  · have hnot : ¬ e.Identified m := fun h => h.1 (hkeys ▸ hkeyed)
    rw [identity, hkeyed, decide_eq_false hnot]
    rfl
  · by_cases hkey : e.HasKey m
    · obtain ⟨key, hidentity, -⟩ := identity_of_hasKey ht hcolumns hmapped hkeyed hkey
      rw [hidentity, decide_eq_true ⟨hkeys ▸ hkeyed, hkey⟩]
      rfl
    · have hnull : t.keyNames.any (fun n => ((rowOf m e).get n).isNull) = true := by
        rw [hasKey_iff, ← hkeys] at hkey
        push Not at hkey
        obtain ⟨n, hn, hnull⟩ := hkey
        exact List.any_eq_true.mpr ⟨n, hn, by simpa using hnull⟩
      rw [identity, if_neg (by simpa using hkeyed), toRow_ofEntity hmapped,
        decide_eq_false (fun h => hkey h.2), Except.map, identityOf]
      simp [hnull, Except.map]

/-! ### The plan -/

/-- The step that upserts rows of a batch. -/
def upsertStep (s : Session) (t : Table) (rows : List Row) : PlanStep :=
  insertStep s (upsertOf t (rows.headD .empty) rows.tail)

/-- The plan of a batch of upserts. -/
def upsertPlan (s : Session) (t : Table) (size : Int) (rows : List Row) : List PlanStep :=
  (chunks (effectiveSize size) rows).map (upsertStep s t)

theorem collect_rowOf (hmapping : M.mapping = some m) {es : List Entity}
    (hes : ∀ e ∈ es, e.model = M) :
    collect Item.toRow (es.map .ofEntity) = .ok (es.map (rowOf m)) := by
  rw [collect_map]
  exact collect_of_ok fun e he => toRow_ofEntity (by rw [hes e he, hmapping])

theorem carriesOut_saveChunk (hupsert : hasUpsert s.visibleDialect = true)
    (hmapping : M.mapping = some m) (hcolumns : t.columns = m.table.columns) {chunk : List Entity}
    (hne : chunk ≠ []) (hchunk : ∀ e ∈ chunk, e.model = M) {c : Channel} :
    (h.saveChunk s t (chunk.map .ofEntity)).CarriesOut c s [upsertStep s t (chunk.map (rowOf m))]
      () := by
  obtain ⟨e, es, rfl⟩ := List.exists_cons_of_ne_nil hne
  unfold saveChunk
  refine carriesOut_lift_bind (collect_rowOf hmapping hchunk) ?_
  rw [List.map_cons]
  simp only [hupsert, if_true]
  have hupsertion : upsertion t (rowOf m e) (es.map (rowOf m)) =
      .ok (upsertOf t (rowOf m e) (es.map (rowOf m))) :=
    upsertion_eq_ok (fun n hn => (mem_names_rowOf hcolumns).mp hn) _
  exact carriesOut_lift_bind hupsertion carriesOut_insert

theorem carriesOut_saveChunks (hupsert : hasUpsert s.visibleDialect = true)
    (hmapping : M.mapping = some m) (hcolumns : t.columns = m.table.columns)
    {chunks : List (List Entity)}
    (hchunks : ∀ chunk ∈ chunks, chunk ≠ [] ∧ ∀ e ∈ chunk, e.model = M) {c : Channel} :
    (h.saveChunks s t (chunks.map (List.map .ofEntity))).CarriesOut c s
      (chunks.map fun chunk => upsertStep s t (chunk.map (rowOf m))) () := by
  induction chunks generalizing c with
  | nil => exact carriesOut_pure ()
  | cons chunk rest ih =>
      obtain ⟨⟨hne, hchunk⟩, hrest⟩ := List.forall_mem_cons.mp hchunks
      exact (carriesOut_saveChunk hupsert hmapping hcolumns hne hchunk).bind fun _ _ => ih hrest

/-- The entities with an identity are upserted. -/
theorem carriesOut_upserts (hupsert : hasUpsert s.visibleDialect = true)
    (hmapping : M.mapping = some m) (hcolumns : t.columns = m.table.columns) {es : List Entity}
    (hes : ∀ e ∈ es, e.model = M) (size : Int) {c : Channel} :
    (h.saveChunks s t (chunks (effectiveSize size) (es.map .ofEntity))).CarriesOut c s
      (upsertPlan s t size (es.map (rowOf m))) () := by
  have hplan : upsertPlan s t size (es.map (rowOf m)) = (chunks (effectiveSize size) es).map
      (fun chunk => upsertStep s t (chunk.map (rowOf m))) := by
    rw [upsertPlan, chunks_map, List.map_map]
    rfl
  rw [hplan, chunks_map]
  exact carriesOut_saveChunks hupsert hmapping hcolumns fun chunk hchunk =>
    ⟨ne_nil_of_mem_chunks (effectiveSize_pos size) hchunk,
      fun e he => hes e (mem_of_mem_chunks hchunk he)⟩

theorem withIdentity_ofEntity (ht : h.table = .ok t) (hcolumns : t.columns = m.table.columns)
    (hmapping : M.mapping = some m) {es : List Entity} (hes : ∀ e ∈ es, e.model = M) :
    ∃ marked, withIdentity t (es.map .ofEntity) = .ok marked ∧
      (marked.filter (fun x => !x.2)).map Prod.fst = (fresh m es).map .ofEntity ∧
      (marked.filter (fun x => x.2)).map Prod.fst = (known m es).map .ofEntity := by
  refine ⟨es.map fun e => (Item.ofEntity e, decide (e.Identified m)), ?_, ?_, ?_⟩
  · rw [withIdentity, collect_map]
    refine collect_of_ok fun e he => ?_
    obtain ⟨key, hkey, hsome⟩ :=
      map_eq_ok.mp (isSome_identity ht hcolumns (by rw [hes e he, hmapping]))
    rw [hkey, ← hsome]
    rfl
  · simp [fresh, List.filter_map, Function.comp_def]
  · simp [known, List.filter_map, Function.comp_def]

/-- The entities without an identity are inserted. -/
theorem carriesOut_batchCreate_ofEntity (ht : (h.withModel (some M)).table = .ok t)
    (hmapping : M.mapping = some m) {es : List Entity} (hes : ∀ e ∈ es, e.model = M) (size : Int)
    (c : Channel) : ((h.withModel (some M)).batchCreate s (es.map .ofEntity) size).CarriesOut c s
      (insertPlan s t size (es.map (rowOf m))) es.length := by
  have hwritable : ((h.withModel (some M)).forBatch (es.map .ofEntity)).writable
      (names (es.map (rowOf m))) = .ok t := by
    cases es <;> exact ht
  have hcarries := carriesOut_batchCreate (s := s) (collect_rowOf hmapping hes) hwritable size c
  rwa [List.length_map] at hcarries

/-- **A batch that is saved carries out the plan of its inserts, and then that of its
upserts.** -/
theorem carriesOut_batchSave (hupsert : hasUpsert s.visibleDialect = true)
    (hmodel : h.model = none ∨ h.model = some M) (hmapping : M.mapping = some m)
    (ht : (h.withModel (some M)).table = .ok t) (hcolumns : t.columns = m.table.columns)
    {es : List Entity} (hes : ∀ e ∈ es, e.model = M) (size : Int) (c : Channel) :
    (h.batchSave s (es.map .ofEntity) size).CarriesOut c s
      (insertPlan s t size ((fresh m es).map (rowOf m)) ++
        upsertPlan s t size ((known m es).map (rowOf m))) es.length := by
  have hfresh : ∀ e ∈ fresh m es, e.model = M := fun e he => hes e (List.mem_of_mem_filter he)
  have hknown : ∀ e ∈ known m es, e.model = M := fun e he => hes e (List.mem_of_mem_filter he)
  have hupserts : ∀ c', ((h.withModel (some M)).saveChunks s t (chunks (effectiveSize size)
      ((known m es).map .ofEntity)) >>= fun _ => Pure.pure (es.length : Int)).CarriesOut c' s
      (upsertPlan s t size ((known m es).map (rowOf m))) es.length := by
    intro c'
    rw [← List.append_nil (upsertPlan _ _ _ _)]
    exact (carriesOut_upserts hupsert hmapping hcolumns hknown size).bind
      fun _ _ => carriesOut_pure _
  obtain ⟨marked, hmarked, hmarkedFresh, hmarkedKnown⟩ :=
    withIdentity_ofEntity ht hcolumns hmapping hes
  cases es with
  | nil => exact carriesOut_log_bind fun _ _ => carriesOut_pure _
  | cons e rest =>
      rw [List.map_cons] at hmarked ⊢
      unfold batchSave
      simp only [forItem_ofEntity hmodel (hes e List.mem_cons_self)]
      refine carriesOut_lift_bind (b := ()) rfl (carriesOut_lift_bind ht
        (carriesOut_lift_bind hmarked ?_))
      rw [hmarkedFresh, hmarkedKnown, List.length_cons, List.length_map, ← List.length_cons]
      split
      · exact (carriesOut_batchCreate_ofEntity ht hmapping hfresh size c).bind
          fun c' _ => hupserts c'
      · rename_i hempty
        have hnil : fresh m (e :: rest) = [] := by simpa using hempty
        rw [hnil]
        exact hupserts c

/-! ### What is sent for an entity -/

/-- How the upsert `x` that was sent treats some entities. -/
structure UpsertsEntities (s : Session) (t : Table) (m : Mapping) (chunk : List Entity) (x : Insert)
    (y : Sent) : Prop where
  statement : y.statement = .insert x
  table : x.table = t
  /-- There is one row for each entity, in order, and it lists all columns of the model. -/
  rows : y.statement.newRows =
    chunk.map (fun e => m.columns.map (fun c => ⟨c.name, c.type, e.get c.attr⟩))
  /-- The driver gets for each row the values that are read at the places of its columns, -/
  served : List.Forall₂ (fun ps vs => storedAll s.dialect (servedRow s.dialect ps) = .ok vs)
    y.statement.newRows y.prepared.rows
  /-- which are the row's own where the columns are written apart. -/
  values : x.PlacesApart → List.Forall₂ (fun ps vs => storedAll s.dialect ps = .ok vs)
    y.statement.newRows y.prepared.rows
  /-- Rows that are there are known by their key; where there is nothing but a key they stay. -/
  conflict : x.conflict = if m.others = [] then .keep m.table.keyNames
    else .overwrite m.table.keyNames m.others
  /-- Every other column is overwritten, and the key is not. -/
  overwritten : x.overwritten = m.others
  /-- A row that is there takes the values of the row that was to be inserted. -/
  own : ∀ e ∈ chunk, ∀ c ∈ m.columns,
    x.overwrittenTo (rowOf m e) c.name = if c.isKey then none else some (e.get c.attr)
  /-- The text says so. -/
  text : ∃ places tail, y.prepared.sql = x.leadText s.dialect ++ s.dialect.quoteName t.name ++
    " (" ++ ", ".intercalate (m.table.columnNames.map s.dialect.quoteName) ++ ") VALUES (" ++
    places ++ ")" ++ x.conflictText s.dialect ++ tail

section

variable (hcolumns : t.columns = m.table.columns)

include hcolumns

theorem otherColumns_rowOf : otherColumns t (rowOf m e) = m.others := by
  rw [otherColumns, names_rowOf, keyNames_eq hcolumns, Mapping.others]

variable {e₀ : Entity} {rest : List Row}

theorem assignments_upsertOf (e : Entity) : (upsertOf t (rowOf m e₀) rest).assignments (rowOf m e) =
    m.columns.map (fun c => ⟨c.name, c.type, e.get c.attr⟩) := by
  have hassigned : ∀ c ∈ m.columns, (upsertOf t (rowOf m e₀) rest).assigned (rowOf m e)
      c.toTableColumn = some (e.get c.attr) := by
    intro c hc
    have hsource : (rowOf m e₀).contains c.name = true := by
      rw [Row.contains, names_rowOf, List.contains_iff_mem]
      exact Mapping.name_mem_columnNames hc
    rw [Insert.assigned, Insert.source?, upsertOf, if_pos hsource, ← get_rowOf e hc]
    rfl
  unfold Insert.assignments
  show t.columns.filterMap _ = _
  rw [hcolumns, Mapping.table, List.filterMap_map, ← List.filterMap_eq_map]
  refine List.filterMap_congr fun c hc => ?_
  rw [Function.comp_apply, hassigned c hc]
  rfl

theorem overwritten_upsertOf : (upsertOf t (rowOf m e₀) rest).overwritten = m.others := by
  unfold Insert.overwritten upsertOf
  rw [otherColumns_rowOf hcolumns]
  by_cases hnil : m.others = []
  · simp [hnil]
  · rw [if_neg hnil]
    show t.columnNames.filter m.others.contains = _
    rw [columnNames_eq hcolumns, Mapping.others]
    refine List.filter_congr fun n hn => ?_
    simp [hn]

/-- **The upsert of a chunk of entities writes all their columns, and overwrites all but the
key.** -/
theorem upsertsEntities_of_sends {chunk : List Entity} (hne : chunk ≠ [])
    (hkeyed : m.table.keyNames ≠ []) {y : Sent}
    (hy : s.SendsAs (upsertStep s t (chunk.map (rowOf m))).statement y) :
    ∃ x, UpsertsEntities s t m chunk x y := by
  obtain ⟨e₁, es, rfl⟩ := List.exists_cons_of_ne_nil hne
  obtain ⟨hstatement, hprepared⟩ := hy
  have hinsert := Statement.prepare_insert hprepared
  simp only [List.map_cons, upsertStep, insertStep, List.headD_cons, List.tail_cons]
    at hstatement hinsert
  have hrows : (upsertOf t (rowOf m e₁) (es.map (rowOf m))).rows =
      (e₁ :: es).map (rowOf m) := rfl
  have hnew : y.statement.newRows =
      (e₁ :: es).map (fun e => m.columns.map (fun c => ⟨c.name, c.type, e.get c.attr⟩)) := by
    rw [hstatement, Statement.newRows, hrows, List.map_map]
    exact List.map_congr_left fun e _ => assignments_upsertOf hcolumns e
  have hcolumnNames :
      (upsertOf t (rowOf m e₁) (es.map (rowOf m))).columns = m.table.columnNames := by
    rw [← Insert.names_assignments _ (rowOf m e₁), assignments_upsertOf hcolumns, List.map_map,
      Table.columnNames, Mapping.table, List.map_map]
    rfl
  have hserved := Insert.rows_of_prepare hinsert fun r hr n hn => by
    rw [hrows] at hr
    obtain ⟨e, -, rfl⟩ := List.mem_map.mp hr
    rwa [contains_rowOf_eq hcolumns, ← contains_rowOf_eq hcolumns (e := e₁)]
  have hnewRows : y.statement.newRows = (upsertOf t (rowOf m e₁) (es.map (rowOf m))).rows.map
      (upsertOf t (rowOf m e₁) (es.map (rowOf m))).assignments := by rw [hstatement]; rfl
  refine ⟨_, hstatement, rfl, hnew, ?_, fun hplaces => ?_, ?_, overwritten_upsertOf hcolumns,
    fun e _ c hc => ?_, ?_⟩
  · rw [hnewRows, List.forall₂_map_left_iff]
    exact hserved
  · rw [hnewRows, List.forall₂_map_left_iff]
    exact Insert.forall₂_of_served hplaces hserved
  · show (if otherColumns t (rowOf m e₁) = [] then Conflict.keep t.keyNames
      else .overwrite t.keyNames (otherColumns t (rowOf m e₁))) = _
    rw [otherColumns_rowOf hcolumns, keyNames_eq hcolumns]
  · have hsome : (t.column? c.name).isSome = true := by
      rw [Table.column?_isSome, columnNames_eq hcolumns, List.contains_iff_mem]
      exact Mapping.name_mem_columnNames hc
    obtain ⟨column, hcolumn⟩ := Option.isSome_iff_exists.mp hsome
    rw [overwrittenTo_upsertOf hcolumns, keyNames_eq hcolumns, hcolumn, get_rowOf e hc]
    simp only [Mapping.mem_keyNames hc, Option.map_some]
  · have hnames : m.table.columnNames ≠ [] := by
      intro hnil
      refine hkeyed ?_
      rw [Table.columnNames, List.map_eq_nil_iff] at hnil
      rw [Table.keyNames, Table.keyColumns, hnil]
      rfl
    obtain ⟨places, tail, hsql⟩ := Insert.text_of_prepare hinsert (by rwa [hcolumnNames])
    rw [hcolumnNames] at hsql
    exact ⟨places, tail, hsql⟩

end

/-- A row with all columns of an entity carries it. -/
theorem carriedBy_columns (hmapped : e.model.mapping = some m) : (Item.ofEntity e).CarriedBy t
    (m.columns.map (fun c => ⟨c.name, c.type, e.get c.attr⟩)) := by
  constructor
  · intro r hr n hgiven
    cases hr.symm.trans (toRow_ofEntity hmapped)
    have hname : n ∈ (rowOf m e).names := List.contains_iff_mem.mp (contains_of_given hgiven)
    obtain ⟨entry, hentry, rfl⟩ := List.mem_map.mp hname
    obtain ⟨c, hc, rfl⟩ := List.mem_map.mp hentry
    exact ⟨_, List.mem_map.mpr ⟨c, hc, rfl⟩, rfl, (get_rowOf e hc).symm⟩
  · intro r hr p hp
    cases hr.symm.trans (toRow_ofEntity hmapped)
    obtain ⟨c, hc, rfl⟩ := List.mem_map.mp hp
    exact .inl (get_rowOf e hc).symm

/-- **The plan of the upserts sends the entities chunk by chunk.** -/
theorem progress_upsertPlan (hcolumns : t.columns = m.table.columns) {es : List Entity}
    (hes : ∀ e ∈ es, e.Identified m) {size : Int} {r : Except Error Unit} {added : List Sent}
    (h : Progress (upsertPlan s t size (es.map (rowOf m)))
      (fun q y => s.SendsAs q.statement y) r added) :
    Progress (chunks (effectiveSize size) es) (fun chunk y => ∃ x, UpsertsEntities s t m chunk x y)
      r added := by
  have hplan : List.Forall₂ (fun chunk q => chunk ∈ chunks (effectiveSize size) es ∧
      q = upsertStep s t (chunk.map (rowOf m))) (chunks (effectiveSize size) es)
      (upsertPlan s t size (es.map (rowOf m))) := by
    rw [upsertPlan, chunks_map, List.map_map, List.forall₂_map_right_iff, List.forall₂_same]
    exact fun chunk hchunk => ⟨hchunk, rfl⟩
  refine (h.of_forall₂ hplan).imp fun chunk y hy => ?_
  obtain ⟨q, ⟨hchunk, rfl⟩, hsends⟩ := hy
  have hne := ne_nil_of_mem_chunks (effectiveSize_pos size) hchunk
  obtain ⟨e, he⟩ := List.exists_mem_of_ne_nil chunk hne
  have hkeyed : m.table.keyNames ≠ [] := (hes e (mem_of_mem_chunks hchunk he)).1
  exact upsertsEntities_of_sends hcolumns hne hkeyed hsends

/-- The inserts of entities carry them chunk by chunk. -/
theorem progress_insertPlan_ofEntity (hmapping : M.mapping = some m)
    (hcolumns : t.columns = m.table.columns) {es : List Entity} (hes : ∀ e ∈ es, e.model = M)
    {size : Int} {r : Except Error Unit} {added : List Sent}
    (h : Progress (insertPlan s t size (es.map (rowOf m)))
      (fun q y => s.SendsAs q.statement y) r added) :
    Progress (chunks (effectiveSize size) es)
      (fun chunk y => ∃ x, InsertsItems s t (chunk.map .ofEntity) x y) r added := by
  have hprogress := progress_insertPlan (collect_rowOf hmapping hes) (fun r hr n hn => by
    obtain ⟨e, -, rfl⟩ := List.mem_map.mp hr
    exact (mem_names_rowOf hcolumns).mp hn) h
  refine (hprogress.of_forall₂ (chunks_ofEntity _ es)).imp fun chunk y hy => ?_
  obtain ⟨items, rfl, hinserts⟩ := hy
  exact hinserts

/--
**A batch that is saved writes every entity exactly once, and never a key.**

Let the entities be of one mapped model and the dialect have an upsert.  The entities that
cannot be found by their key are inserted as `batchCreate` inserts them, in their order, and
after them the others are upserted in theirs, both in chunks of the same size.  When nothing
fails all of them have been sent, there is one row for each entity, and the number of entities
is the result.  An upsert lists all columns of the model; it overwrites all of them but the
key, each with the value of its own row, and nothing at all where there is nothing but the key.
The driver gets the values of each row where the columns of the model are written apart.
-/
theorem batchSave_writes_each_once (s : Session) (h : Handle) (size : Int) (es : List Entity)
    (c : Channel) (hupsert : hasUpsert s.visibleDialect = true)
    (hmodel : h.model = none ∨ h.model = some M) (hmapping : M.mapping = some m)
    (hes : ∀ e ∈ es, e.model = M) :
    ∃ t, (h.withModel (some M)).table = .ok t ∧ t.columns = m.table.columns ∧
      (fresh m es ++ known m es).Perm es ∧
      (∀ n, (h.batchSave s (es.map .ofEntity) size c).1 = .ok n →
        n = es.length ∧ ∃ inserts upserts,
          (h.batchSave s (es.map .ofEntity) size c).2.sent = c.sent ++ (inserts ++ upserts) ∧
          ((h.withModel (some M)).batchCreate s ((fresh m es).map .ofEntity) size c).2.sent =
            c.sent ++ inserts ∧
          List.Forall₂ (fun chunk y => ∃ x, InsertsItems s t (chunk.map .ofEntity) x y)
            (chunks (effectiveSize size) (fresh m es)) inserts ∧
          List.Forall₂ (fun chunk y => ∃ x, UpsertsEntities s t m chunk x y)
            (chunks (effectiveSize size) (known m es)) upserts ∧
          List.Forall₂ (fun e ps => (Item.ofEntity e).CarriedBy t ps) (fresh m es ++ known m es)
            ((inserts ++ upserts).flatMap (·.statement.newRows))) ∧
      ((∀ k q, (insertPlan s t size ((fresh m es).map (rowOf m)) ++
            upsertPlan s t size ((known m es).map (rowOf m)))[k]? = some q →
          (s.perform q (c.outcomes.drop k)).result = .ok ()) →
        (h.batchSave s (es.map .ofEntity) size c).1 = .ok es.length) := by
  obtain ⟨t, ht, hcolumns⟩ := exists_table (h := h.withModel (some M)) rfl hmapping
  have hfresh : ∀ e ∈ fresh m es, e.model = M := fun e he => hes e (List.mem_of_mem_filter he)
  have hknown : ∀ e ∈ known m es, e.model = M := fun e he => hes e (List.mem_of_mem_filter he)
  have hidentified : ∀ e ∈ known m es, e.Identified m := fun e he => by
    simpa using List.of_mem_filter he
  have hsize := effectiveSize_pos size
  obtain ⟨hresult, hsent, -⟩ := carriesOut_batchSave hupsert hmodel hmapping ht hcolumns hes size c
  have hcreated := carriesOut_batchCreate_ofEntity (s := s) ht hmapping hfresh size c
  refine ⟨t, ht, hcolumns, fresh_append_known_perm m es, fun n hn => ?_, fun hsteps => ?_⟩
  · rw [hresult] at hn
    obtain ⟨_, hok, rfl⟩ := map_eq_ok.mp hn
    obtain ⟨hfirst, hsecond, hboth⟩ := exchange_append_of_ok hok
    rw [hboth] at hsent
    have hinserts := (progress_insertPlan_ofEntity hmapping hcolumns hfresh
      (s.exchange_progress _ c.outcomes)).complete (by rw [hfirst]; rfl)
    have hupserts := (progress_upsertPlan hcolumns hidentified
      (s.exchange_progress _ _)).complete (by rw [hsecond]; rfl)
    refine ⟨rfl, _, _, hsent, hcreated.sent, hinserts, hupserts, ?_⟩
    rw [List.flatMap_append]
    refine List.rel_append (forall₂_newRows hsize (hinserts.imp fun chunk y hy => ?_))
      (forall₂_newRows hsize ?_)
    · exact List.forall₂_map_left_iff.mp hy.choose_spec.rows
    · refine ((List.forall₂_and_left _ _).mpr
        ⟨fun chunk hchunk => hchunk, hupserts⟩).imp fun chunk y hy => ?_
      obtain ⟨hchunk, x, hx⟩ := hy
      rw [hx.rows, List.forall₂_map_right_iff, List.forall₂_same]
      intro e he
      exact carriedBy_columns (by rw [hknown e (mem_of_mem_chunks hchunk he), hmapping])
  · rw [hresult, exchange_eq_ok_iff.mpr hsteps]
    rfl

/-- Four memberships, of which the second has only a part of its key. -/
def memberships : List Entity :=
  [⟨Catalog.membership, .ofList [("group_id", .int 1), ("user_id", .int 2), ("role", .text "a")]⟩,
    ⟨Catalog.membership, .ofList [("group_id", .int 1), ("role", .text "b")]⟩,
    ⟨Catalog.membership, .ofList [("group_id", .int 3), ("user_id", .int 4)]⟩,
    ⟨Catalog.membership, .ofList [("group_id", .int 5), ("user_id", .int 6), ("role", .text "c")]⟩]

/-- Two at a time that one is inserted by itself, and the others take two upserts. -/
theorem batchSave_writes_each_once_memberships :
    let s : Session := ⟨.sqlite, true⟩
    let m : Mapping := Catalog.membership.mapping.get rfl
    (fresh m memberships).length = 1 ∧ (known m memberships).length = 3 ∧
    ∃ t inserts upserts,
      (unbound.batchSave s (memberships.map .ofEntity) 2 ⟨[], [], []⟩).2.sent =
        inserts ++ upserts ∧ inserts.length = 1 ∧ upserts.length = 2 ∧
      List.Forall₂ (fun chunk y => ∃ x, UpsertsEntities s t m chunk x y)
        (chunks 2 (known m memberships)) upserts ∧
      List.Forall₂ (fun e ps => (Item.ofEntity e).CarriedBy t ps)
        (fresh m memberships ++ known m memberships)
        ((inserts ++ upserts).flatMap (·.statement.newRows)) := by
  intro s m
  have hmodels : ∀ e ∈ memberships, e.model = Catalog.membership := by
    simp [memberships]
  have hfresh : (fresh m memberships).length = 1 := by decide +kernel
  have hknown : (known m memberships).length = 3 := by decide +kernel
  obtain ⟨t, -, -, -, hok, -⟩ := batchSave_writes_each_once (m := m) s unbound 2 memberships
    ⟨[], [], []⟩ rfl (.inl rfl) rfl hmodels
  obtain ⟨-, inserts, upserts, hsent, -, hinserts, hupserts, hcarried⟩ := hok 4 rfl
  have hsize : 0 < effectiveSize 2 := effectiveSize_pos 2
  refine ⟨hfresh, hknown, t, inserts, upserts, hsent, ?_, ?_, hupserts, hcarried⟩
  · rw [← hinserts.length_eq, length_chunks hsize, hfresh]
    decide
  · rw [← hupserts.length_eq, length_chunks hsize, hknown]
    decide

end Handle

end TableQuery
