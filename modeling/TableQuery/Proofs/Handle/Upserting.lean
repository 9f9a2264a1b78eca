/-
Native upserts against saving one by one.

Where the dialect has one, `batchSave` sends a single upsert for each chunk of records that
have their whole key.  `save` overwrites the row of a record first and inserts the record
when there was none to overwrite.  For a row that is there the two assign the same columns
the same values, apart from the key: an update gives a column of the key what it has for
updates, and an upsert does not.  For a new row they differ: an upsert gives a row with all its
columns, so a column that the entity leaves null is null, while an insert of that row alone
leaves such a column to its default when it has one.

The driver is handed what is assigned where the columns are written apart.
-/
import TableQuery.Proofs.Handle.Batches
import TableQuery.Proofs.Records
import TableQuery.Proofs.Sql.Mentions

namespace TableQuery

/-! ### Rows of entities -/

theorem Table.exists_of_hasDefault {t : Table} {n : String} (h : t.hasDefault n = true) :
    ∃ c, t.column? n = some c ∧ c.hasDefault = true := by
  unfold hasDefault at h
  cases hn : t.column? n with
  | none => simp [hn] at h
  | some c => exact ⟨c, rfl, by simpa [hn] using h⟩

/-- A filtered row has the value that it had under a name, if that passes. -/
theorem Row.get?_filter_value (r : Row) (p : String → Value → Bool) (n : String) :
    (r.filter p).get? n = (r.get? n).filter (p n) := by
  have hnodup := r.names_nodup
  unfold get? filter
  dsimp only
  generalize r.entries = es at hnodup ⊢
  induction es with
  | nil => rfl
  | cons e es ih =>
      obtain ⟨hmem, hrest⟩ := List.nodup_cons.mp hnodup
      rw [List.filter_cons, List.find?_cons]
      by_cases hname : e.1 = n
      · subst hname
        have hnone : (es.filter (fun x => p x.1 x.2)).find? (fun x => x.1 == e.1) = none := by
          rw [List.find?_eq_none]
          intro x hx heq
          exact hmem (List.mem_map.mpr ⟨x, (List.mem_filter.mp hx).1, by simpa using heq⟩)
        by_cases hp : p e.1 e.2 = true
        · simp [hp, Option.filter]
        · simp [hp, hnone, Option.filter]
      · have hne : (e.1 == n) = false := by simpa using hname
        rw [hne, ← ih hrest]
        by_cases hp : p e.1 e.2 = true
        · simp [hp, hne]
        · simp [hp]

theorem Row.get?_filter (r : Row) (p : String → Bool) (n : String) :
    (r.filter (fun n _ => p n)).get? n = if p n = true then r.get? n else none := by
  rw [get?_filter_value]
  cases p n <;> cases r.get? n <;> simp [Option.filter]

/-- An entity as what a write takes. -/
def Item.ofEntity (e : Entity) : Item := some (.entity e)

namespace Entity

variable {m : Mapping} {e : Entity}

/-- Whether each attribute of the key has a value. -/
def HasKey (m : Mapping) (e : Entity) : Prop :=
  ∀ c ∈ m.columns, c.isKey = true → (e.get c.attr).isNull = false

instance (m : Mapping) (e : Entity) : Decidable (HasKey m e) :=
  inferInstanceAs (Decidable (∀ c ∈ m.columns, c.isKey = true → (e.get c.attr).isNull = false))

/-- A row of an entity has the columns of the model. -/
theorem contains_rowOf (n : String) : (rowOf m e).contains n = (m.table.column? n).isSome := by
  rw [Row.contains, names_rowOf, Table.column?_isSome]

/-- A part of the key of an entity that has its key. -/
theorem HasKey.given (h : e.HasKey m) {n : String} (hn : n ∈ m.table.keyNames) :
    ((rowOf m e).get n).isNull = false := by
  obtain ⟨k, hk, rfl⟩ := List.mem_map.mp hn
  obtain ⟨hcolumn, hkey⟩ := List.mem_filter.mp hk
  obtain ⟨c, hc, rfl⟩ := List.mem_map.mp hcolumn
  rw [get_rowOf e hc]
  exact h c hc hkey

end Entity

namespace Sql

/-- Whether a reply to a statement says that the rows it is about are there. -/
def Statement.finds : Statement → Reply → Bool
  | .update _, reply => reply.rowCount != 0
  | .select _, reply =>
    match reply.scalar with
    | .ok v => v.truthy
    | .error _ => false
  | _, _ => false

/-- What a statement assigns to the column of a name in rows that are there; only an update
assigns anything. -/
def Statement.assignedTo : Statement → String → Option Value
  | .update u, name => u.assignedTo name
  | _, _ => none

/-- What a statement assigns to the column of a name in rows that are there when it is not
given a value for it. -/
def Statement.onUpdate? : Statement → String → Option Value
  | .update u, name => u.table.onUpdate? name
  | _, _ => none

end Sql

namespace Handle

open Run Session Batch Sql Entity

/-! ### The table of a mapped model -/

variable {h : Handle} {M : Model} {m : Mapping}

theorem exists_table (hmodel : h.model = some M) (hmapping : M.mapping = some m) :
    ∃ t, h.table = .ok t ∧ t.columns = m.table.columns := by
  unfold table
  simp only [hmodel, hmapping]
  split
  · exact ⟨_, rfl, rfl⟩
  · exact ⟨_, rfl, rfl⟩

variable {t : Table} {e : Entity}

theorem keyNames_eq (hcolumns : t.columns = m.table.columns) : t.keyNames = m.table.keyNames := by
  rw [Table.keyNames, Table.keyColumns, hcolumns]
  rfl

theorem columnNames_eq (hcolumns : t.columns = m.table.columns) :
    t.columnNames = m.table.columnNames := by
  rw [Table.columnNames, hcolumns]
  rfl

theorem toRow_ofEntity (hmapping : e.model.mapping = some m) :
    (Item.ofEntity e).toRow = .ok (rowOf m e) := by
  show e.toRow = _
  rw [toRow, hmapping]

/-- An item has an identity when its row gives every column of the key a value. -/
theorem identity_of_given {i : Item} {r : Row} (hnodup : t.keyNames.Nodup)
    (hkeyed : t.keyNames ≠ []) (hr : i.toRow = .ok r)
    (hgiven : ∀ n ∈ t.keyNames, (r.get n).isNull = false) :
    ∃ key, identity t i = .ok (some key) ∧ key.names = t.keyNames := by
  have hnone : (t.keyNames.isEmpty || t.keyNames.any (fun n => (r.get n).isNull)) = false := by
    simp only [Bool.or_eq_false_iff, List.isEmpty_eq_false_iff, List.any_eq_false]
    exact ⟨hkeyed, fun n hn => by simp [hgiven n hn]⟩
  refine ⟨Row.ofList (t.keyNames.map (fun n => (n, r.get n))), ?_, ?_⟩
  · rw [identity, if_neg (by simpa using hkeyed), hr, Except.map, identityOf]
    simp only [hnone, Bool.false_eq_true, if_false]
  · rw [Row.names, Row.entries_ofList]
    · simp [Function.comp_def]
    · simpa [Function.comp_def] using hnodup

theorem identity_of_hasKey (ht : h.table = .ok t) (hcolumns : t.columns = m.table.columns)
    (hmapping : e.model.mapping = some m) (hkeyed : t.keyNames ≠ []) (hkey : e.HasKey m) :
    ∃ key, identity t (.ofEntity e) = .ok (some key) ∧ key.names = t.keyNames := by
  exact identity_of_given (keyNames_nodup ht) hkeyed (toRow_ofEntity hmapping)
    fun n hn => hkey.given (keyNames_eq hcolumns ▸ hn)

/-! ### Saving -/

variable {s : Session}

/-- The statement that `overwrite` sends. -/
def overwriting (t : Table) (key values : Row) : Statement :=
  if values.isEmpty then .select ⟨t, .count, some (identityTest t key), [], none, none⟩
  else .update ⟨t, values, identityTest t key⟩

/-- Without its identity a row has its values outside the key. -/
theorem get?_withoutIdentity {key r : Row} (hkey : key.names = t.keyNames) (n : String) :
    (withoutIdentity key r).get? n = if n ∈ t.keyNames then none else r.get? n := by
  have hcontains : key.contains n = true ↔ n ∈ t.keyNames := by
    rw [Row.contains, hkey, List.contains_iff_mem]
  simp only [withoutIdentity, Row.get?_filter, ← hcontains, Bool.not_eq_true', ite_not,
    ← Bool.not_eq_true]

/-- Overwriting a row gives a column no value for updates that it does not have. -/
theorem onUpdate?_overwriting {key values : Row} {n : String} (h : t.onUpdate? n = none) :
    (overwriting t key values).onUpdate? n = none := by
  unfold overwriting
  split
  · rfl
  · exact h

/-- **What overwriting a row assigns**: the values of the row, apart from the key; a column that
is given no value gets the one that it has for updates. -/
theorem assignedTo_overwriting {key r : Row} (hkey : key.names = t.keyNames) (n : String) :
    (overwriting t key (withoutIdentity key r)).assignedTo n =
      if n ∈ t.keyNames ∨ r.contains n = false then
        (overwriting t key (withoutIdentity key r)).onUpdate? n
      else (t.column? n).map (fun _ => r.get n) := by
  have hget : (withoutIdentity key r).get? n =
      if n ∈ t.keyNames ∨ r.contains n = false then none else some (r.get n) := by
    rw [get?_withoutIdentity hkey]
    by_cases hn : n ∈ t.keyNames
    · rw [if_pos hn, if_pos (.inl hn)]
    · cases hcontains : r.contains n with
      | false => rw [if_neg hn, if_pos (.inr rfl), Row.get?_of_not_contains hcontains]
      | true => simp [hn, Row.get?_of_contains hcontains]
  unfold overwriting
  by_cases hempty : (withoutIdentity key r).isEmpty = true
  · rw [Row.get?, List.isEmpty_iff.mp hempty] at hget
    rw [if_pos hempty]
    split
    · rfl
    · rename_i hgiven
      rw [if_neg hgiven] at hget
      cases hget
  · rw [if_neg hempty, Statement.assignedTo, Statement.onUpdate?]
    split at hget
    · rename_i hown
      rw [Update.assignedTo_of_none hget, if_pos hown]
    · rename_i hgiven
      rw [Update.assignedTo_of_some hget, if_neg hgiven]

/-- The driver is handed what overwriting a row assigns. -/
theorem handsOver_overwriting {key values : Row} {d : Dialect} {u : Update} {p : Prepared}
    (hu : overwriting t key values = .update u)
    (hp : (overwriting t key values).prepare d = .ok p) : u.HandsOver d p := by
  rw [hu] at hp
  unfold overwriting at hu
  split at hu
  · cases hu
  · cases hu
    exact Update.handsOver_of_prepare (foreignTables_identityTest t key) hp

/-- The step that overwrites the row of a key; where there is nothing to overwrite the rows are
counted, and the reply has to be a number. -/
def overwriteStep (t : Table) (key values : Row) : PlanStep :=
  ⟨overwriting t key values,
    fun reply => if values.isEmpty then reply.scalar.map (fun _ => ()) else .ok ()⟩

theorem carriesOut_overwrite {key values : Row} {c : Channel} :
    (overwrite s t key values).CarriesOut c s [overwriteStep t key values]
      ((overwriting t key values).finds (nextReply c.outcomes)) := by
  unfold overwrite overwriteStep overwriting
  by_cases hempty : values.isEmpty = true
  · simp only [hempty, if_true]
    refine carriesOut_execute_bind
      (q := ⟨.select ⟨t, .count, some (identityTest t key), [], none, none⟩,
        fun reply => reply.scalar.map (fun _ => ())⟩) (fun e he c => ?_) (fun hread c' _ => ?_)
    · rw [map_eq_error.mp he]
      rfl
    · obtain ⟨v, hv, -⟩ := map_eq_ok.mp hread
      rw [Statement.finds, hv]
      exact carriesOut_lift_bind rfl (carriesOut_pure _)
  · simp only [hempty, Bool.false_eq_true, if_false]
    exact carriesOut_execute_bind
      (q := ⟨.update ⟨t, values, identityTest t key⟩, fun _ => .ok ()⟩) (fun _ he => by cases he)
      (fun _ _ _ => carriesOut_pure _)

/-- **Saving a record that has an identity** overwrites its row, and inserts it when there was
none. -/
theorem carriesOut_save {i : Item} {key r : Row} (hmodel : (h.forItem i).requireModel = .ok ())
    (ht : (h.forItem i).table = .ok t) (hkey : identity t i = .ok (some key))
    (hr : i.toRow = .ok r) (c : Channel) :
    (h.save s i).CarriesOut c s (overwriteStep t key (withoutIdentity key r) ::
      if (overwriting t key (withoutIdentity key r)).finds (nextReply c.outcomes) then []
      else [insertStep s (insertion t [r] .key false)]) i := by
  unfold save
  refine carriesOut_lift_bind hmodel (carriesOut_lift_bind ht (carriesOut_lift_bind hkey
    (carriesOut_lift_bind hr ?_)))
  rw [← List.singleton_append]
  refine carriesOut_overwrite.bind fun c' _ => ?_
  cases (overwriting t key (withoutIdentity key r)).finds (nextReply c.outcomes) with
  | true => exact carriesOut_pure i
  | false => exact carriesOut_insert_bind fun _ _ => carriesOut_pure i

/-- Saving such a record where a reply is waiting: the reply says whether its row was there. -/
theorem doesOn_save {i : Item} {key row : Row} (hmodel : (h.forItem i).requireModel = .ok ())
    (ht : (h.forItem i).table = .ok t) (hkey : identity t i = .ok (some key))
    (hrow : i.toRow = .ok row) {c : Channel} {reply : Reply} {rest : List Outcome}
    (hc : c.outcomes = .reply reply :: rest) :
    (h.save s i).DoesOn c (Progress (overwriting t key (withoutIdentity key row) ::
      if (overwriting t key (withoutIdentity key row)).finds reply then []
      else [.insert (insertion t [row] .key false)]) s.SendsAs) := by
  obtain ⟨added, hsent, -, hprogress⟩ := (carriesOut_save (s := s) hmodel ht hkey hrow c).doesOn
  rw [hc, nextReply] at hprogress
  have hstatements := hprogress.map (P := s.SendsAs) (f := PlanStep.statement)
  rw [List.map_cons, apply_ite (List.map _)] at hstatements
  exact ⟨added, hsent, hstatements⟩

/-- Saving several records saves each in turn. -/
theorem does_saveEach {items : List Item} {P : Item → Except Error Item → List Sent → Prop}
    (hsave : ∀ i ∈ items, (h.save s i).Does (P i)) :
    (h.saveEach s items).Does (InTurn P items) := by
  induction items with
  | nil => exact does_pure (.done ())
  | cons i is ih =>
      rw [saveEach]
      refine (hsave i List.mem_cons_self).bind (fun e added hP => .failed is hP)
        (fun j first hP => ?_)
      exact (ih (fun j hj => hsave j (List.mem_cons_of_mem i hj))).mono
        (fun r added hrest => .cons hP hrest)

/-! ### Upserting -/

/-- The upsert of rows that have all columns of the table. -/
def upsertOf (t : Table) (first : Row) (rest : List Row) : Insert :=
  ⟨t, first, rest,
    if otherColumns t first = [] then .keep t.keyNames
    else .overwrite t.keyNames (otherColumns t first), .key, true⟩

theorem upsertion_eq_ok {first : Row} (hfirst : ∀ n ∈ first.names, (t.column? n).isSome = true)
    (rest : List Row) : upsertion t first rest = .ok (upsertOf t first rest) := by
  have hknown : (otherColumns t first).find? (fun n => (t.column? n).isNone) = none := by
    rw [List.find?_eq_none]
    intro n hn
    have hsome := hfirst n (List.mem_filter.mp hn).1
    simpa [← Option.isSome_iff_ne_none] using hsome
  unfold upsertion upsertOf
  cases hothers : otherColumns t first with
  | nil => rfl
  | cons n ns =>
      rw [hothers] at hknown
      simp only [hknown]
      rfl

section

variable (hcolumns : t.columns = m.table.columns) {e₀ : Entity} {rest : List Row}

include hcolumns

theorem contains_rowOf_eq (n : String) : (rowOf m e).contains n = (t.column? n).isSome := by
  rw [contains_rowOf, Table.column?, Table.column?, hcolumns]

theorem mem_names_rowOf {n : String} : n ∈ (rowOf m e).names ↔ (t.column? n).isSome = true := by
  rw [← contains_rowOf_eq hcolumns (e := e), Row.contains, List.contains_iff_mem]

/-- An upsert gives every column of a new row. -/
theorem assignedTo_upsertOf (r : Row) (n : String) :
    (upsertOf t (rowOf m e₀) rest).assignedTo r n = (t.column? n).map (fun _ => r.get n) := by
  unfold Insert.assignedTo Insert.assigned Insert.source? upsertOf
  cases hn : t.column? n with
  | none => rfl
  | some c =>
      have hname := Table.name_of_column? hn
      simp [hname, contains_rowOf_eq hcolumns, hn]

/-- An upsert overwrites every column of a row that is there, except for the key. -/
theorem overwrittenTo_upsertOf (r : Row) (n : String) :
    (upsertOf t (rowOf m e₀) rest).overwrittenTo r n =
      if n ∈ t.keyNames then none else (t.column? n).map (fun _ => r.get n) := by
  have hothers : ∀ n, n ∈ otherColumns t (rowOf m e₀) ↔
      (t.column? n).isSome = true ∧ n ∉ t.keyNames := by
    intro n
    simp [otherColumns, mem_names_rowOf hcolumns]
  have hoverwritten : n ∈ (upsertOf t (rowOf m e₀) rest).overwritten ↔
      (t.column? n).isSome = true ∧ n ∉ t.keyNames := by
    rw [← hothers]
    unfold Insert.overwritten upsertOf
    by_cases hnil : otherColumns t (rowOf m e₀) = []
    · simp [hnil]
    · have hcolumn := (hothers n).mp
      rw [if_neg hnil]
      simp only [List.mem_filter, List.contains_iff_mem, and_iff_right_iff_imp]
      intro hn
      simpa [Table.column?_isSome] using (hcolumn hn).1
  rw [Insert.overwrittenTo, assignedTo_upsertOf hcolumns]
  by_cases hkey : n ∈ t.keyNames
  · simp [hoverwritten, hkey]
  · cases hn : t.column? n with
    | none => simp
    | some c => simp [hoverwritten, hn, hkey]

/-- **Overwriting a row assigns what an upsert overwrites**, apart from the key. -/
theorem assignedTo_overwriting_rowOf {key : Row} (hkey : key.names = t.keyNames) {n : String}
    (hn : n ∉ t.keyNames) :
    (overwriting t key (withoutIdentity key (rowOf m e))).assignedTo n =
      (t.column? n).map (fun _ => (rowOf m e).get n) := by
  rw [assignedTo_overwriting hkey]
  cases hc : t.column? n with
  | none =>
      have hnone : t.onUpdate? n = none := by rw [Table.onUpdate?, hc]; rfl
      rw [if_pos (.inr ((contains_rowOf_eq hcolumns n).trans (by rw [hc]; rfl))),
        onUpdate?_overwriting hnone]
      rfl
  | some c =>
      have hrow : (rowOf m e).contains n = true := by
        rw [contains_rowOf_eq hcolumns, hc]
        rfl
      rw [if_neg (by simp [hn, hrow])]

end

/-- **Inserting a row alone assigns what an upsert gives it**, except for a column that the row
leaves null and that has a default. -/
theorem assignedTo_alone (r : Row) (hr : ∀ n, r.contains n = (t.column? n).isSome) (n : String) :
    (insertion t [r] .key false).assignedTo r n =
      if t.hasDefault n = true ∧ (r.get n).isNull = true then (t.column? n).bind (·.default)
      else (t.column? n).map (fun _ => r.get n) := by
  rw [assignedTo_insertion (List.cons_ne_nil _ _)]
  cases hn : t.column? n with
  | none => simp
  | some c =>
      have hcontains : r.contains n = true := by rw [hr, hn]; rfl
      by_cases hnull : t.hasDefault n = true ∧ (r.get n).isNull = true
      · simp [ListsName, hnull]
      · simp [ListsName, hcontains, hnull]

/-! ### What is sent -/

/-- Whether a statement that was sent is the upsert of the rows of a chunk. -/
def SendsUpsert (s : Session) (t : Table) (chunk : List Item) (y : Sent) : Prop :=
  ∃ first rest x, collect Item.toRow chunk = .ok (first :: rest) ∧ upsertion t first rest = .ok x ∧
    s.SendsAs (.insert x) y

theorem does_saveChunk {chunk : List Item} (hupsert : hasUpsert s.visibleDialect = true)
    (hne : chunk ≠ []) : (h.saveChunk s t chunk).Does (Progress [chunk] (SendsUpsert s t)) := by
  unfold saveChunk
  refine does_lift_bind (fun e _ => .nothing) (fun rows hrows => ?_)
  cases rows with
  | nil =>
      obtain ⟨i, is, rfl⟩ := List.exists_cons_of_ne_nil hne
      obtain ⟨r, rest, -, -, hnil⟩ := collect_cons_eq_ok.mp hrows
      cases hnil
  | cons first rest =>
      simp only [hupsert, if_true]
      refine does_lift_bind (fun e _ => .nothing) (fun x hx => ?_)
      refine does_execute_bind (fun e => .nothing) (fun p hp => ?_)
      have hsent : SendsUpsert s t chunk ⟨.insert x, p⟩ := ⟨first, rest, x, hrows, hx, rfl, hp⟩
      refine ⟨fun e => .cons hsent .nothing, fun reply => ?_⟩
      cases hreturned : checkReturned s.dialect x reply with
      | error e => exact does_fail (.cons hsent .nothing)
      | ok u => exact does_lift (.cons hsent .done)

/-- **Chunks are upserted in order**, and all of them when nothing fails. -/
theorem does_saveChunks {chunks : List (List Item)} (hupsert : hasUpsert s.visibleDialect = true)
    (hne : ∀ chunk ∈ chunks, chunk ≠ []) :
    (h.saveChunks s t chunks).Does (Progress chunks (SendsUpsert s t)) := by
  induction chunks with
  | nil => exact does_pure .done
  | cons chunk rest ih =>
      rw [saveChunks]
      refine (does_saveChunk hupsert (hne chunk List.mem_cons_self)).bind
        (fun e added hprogress => hprogress.begins rest) (fun _ first hprogress => ?_)
      refine (ih (fun c hc => hne c (List.mem_cons_of_mem chunk hc))).mono
        (fun r second hrest => ?_)
      exact hprogress.append hrest

/-- Without an upsert the records of the chunks are saved one after another. -/
theorem does_saveChunks_singly {chunks : List (List Item)}
    {P : Item → Except Error Item → List Sent → Prop} (hupsert : hasUpsert s.visibleDialect = false)
    (hrows : ∀ chunk ∈ chunks, ∃ rows, collect Item.toRow chunk = .ok rows)
    (hsave : ∀ chunk ∈ chunks, ∀ i ∈ chunk, (h.save s i).Does (P i)) :
    (h.saveChunks s t chunks).Does (InTurn P chunks.flatten) := by
  induction chunks with
  | nil => exact does_pure (.done ())
  | cons chunk rest ih =>
      have hchunk : (h.saveChunk s t chunk).Does (InTurn P chunk) := by
        obtain ⟨rows, hcollect⟩ := hrows chunk List.mem_cons_self
        unfold saveChunk
        rw [hcollect]
        refine does_lift_bind (fun e he => nomatch he) (fun rows' hrows' => ?_)
        cases hrows'
        cases rows with
        | nil =>
            cases chunk with
            | nil => exact does_pure (.done ())
            | cons i is =>
                obtain ⟨r, rest, -, -, hnil⟩ := collect_cons_eq_ok.mp hcollect
                cases hnil
        | cons first rest =>
            simp only [hupsert, Bool.false_eq_true, if_false]
            exact does_log_bind (does_saveEach (hsave chunk List.mem_cons_self))
      rw [saveChunks, List.flatten_cons]
      refine hchunk.bind (fun e added hturn => hturn.begins _) (fun _ first hturn => ?_)
      refine (ih (fun c hc => hrows c (List.mem_cons_of_mem chunk hc))
        (fun c hc => hsave c (List.mem_cons_of_mem chunk hc))).mono (fun r second hrest => ?_)
      exact hturn.append hrest

/-! ### The comparison -/

/-- How saving an entity goes, `r` being its row: `first` overwrites the row that is there, and
`alone` inserts it where there is none. -/
structure SavesBy (s : Session) (h : Handle) (e : Entity) (r : Row) (first : Statement)
    (alone : Insert) : Prop where
  does : ∀ c reply rest, c.outcomes = .reply reply :: rest →
    (h.save s (.ofEntity e)).DoesOn c
      (Progress (first :: if first.finds reply then [] else [.insert alone]) s.SendsAs)
  /-- The driver gets what is assigned. -/
  overwrites : ∀ u p, first = .update u → first.prepare s.dialect = .ok p → u.HandsOver s.dialect p
  inserts : ∀ p, (Statement.insert alone).prepare s.dialect = .ok p →
    alone.HandsOver s.dialect [r] p

/-- How an upsert of a row agrees with saving it. -/
structure AgreesOnSave (x : Insert) (r : Row) (first : Statement) (alone : Insert) : Prop where
  /-- A row that is there is assigned the same, but for columns of the key that have a value for
  updates: -/
  existing : ∀ n, (n ∈ x.table.keyNames → x.table.onUpdate? n = none) →
    x.overwrittenTo r n = first.assignedTo n
  /-- saving gives them that one when it has something to overwrite. -/
  key : ∀ n ∈ x.table.keyNames, x.overwrittenTo r n = none ∧
    first.assignedTo n = first.onUpdate? n
  /-- So is a new row, wherever it gives a value and where there is no default for it. -/
  new : ∀ n, (x.table.hasDefault n = true → (r.get n).isNull = false) →
    x.assignedTo r n = alone.assignedTo r n
  /-- Elsewhere the upsert makes null what is left to its default by saving. -/
  null : ∀ n, x.table.hasDefault n = true → (r.get n).isNull = true →
    x.assignedTo r n = some .null ∧ alone.assignedTo r n = (x.table.column? n).bind (·.default)

/-- How the upsert `x` of a chunk of entities treats each of them. -/
structure UpsertsAsSaved (s : Session) (h : Handle) (m : Mapping) (chunk : List Entity)
    (x : Insert) (y : Sent) : Prop where
  statement : y.statement = .insert x
  /-- It goes to the table that saving goes to. -/
  table : ∀ e ∈ chunk, (h.forItem (.ofEntity e)).table = .ok x.table
  /-- The driver gets what is assigned to new rows. -/
  handsOver : x.HandsOver s.dialect (chunk.map (rowOf m)) y.prepared
  /-- It is told which columns of a row that is there are overwritten. -/
  text : ∃ values tail, y.prepared.sql = x.leadText s.dialect ++ s.dialect.quoteName x.table.name
    ++ values ++ x.conflictText s.dialect ++ tail
  asSaved : ∀ e ∈ chunk, ∀ s' : Session, ∃ first alone,
    SavesBy s' h e (rowOf m e) first alone ∧ AgreesOnSave x (rowOf m e) first alone

/-- An entity with its key is saved by overwriting the row of that key, or else by inserting
its own row. -/
theorem savesBy_overwriting (hmodel : h.forItem (.ofEntity e) = h.withModel (some M))
    (ht : (h.withModel (some M)).table = .ok t) (hcolumns : t.columns = m.table.columns)
    (hkeyed : t.keyNames ≠ []) (hmapped : e.model.mapping = some m) (hkey : e.HasKey m) :
    ∃ key, key.names = t.keyNames ∧ ∀ s : Session, SavesBy s h e (rowOf m e)
      (overwriting t key (withoutIdentity key (rowOf m e)))
      (insertion t [rowOf m e] .key false) := by
  obtain ⟨key, hidentity, hnames⟩ := identity_of_hasKey ht hcolumns hmapped hkeyed hkey
  refine ⟨key, hnames, fun s => ⟨fun c reply rest hc => ?_, fun u p hu hp => ?_, fun p hp => ?_⟩⟩
  · exact doesOn_save (by rw [hmodel]; rfl) (by rw [hmodel, ht]) hidentity
      (toRow_ofEntity hmapped) hc
  · exact handsOver_overwriting hu hp
  · exact handsOver_insertion (List.cons_ne_nil _ _) hp

/-- **What an upsert assigns for a row is what saving the row assigns**, but for the columns
that are left to their defaults. -/
theorem agreesOnSave_upsertOf (hcolumns : t.columns = m.table.columns) {e₀ : Entity}
    {rest : List Row} {key : Row} (hnames : key.names = t.keyNames) :
    AgreesOnSave (upsertOf t (rowOf m e₀) rest) (rowOf m e)
      (overwriting t key (withoutIdentity key (rowOf m e)))
      (insertion t [rowOf m e] .key false) := by
  have hr : ∀ n, (rowOf m e).contains n = (t.column? n).isSome := contains_rowOf_eq hcolumns
  have hkey : ∀ n ∈ t.keyNames,
      (upsertOf t (rowOf m e₀) rest).overwrittenTo (rowOf m e) n = none ∧
        (overwriting t key (withoutIdentity key (rowOf m e))).assignedTo n =
          (overwriting t key (withoutIdentity key (rowOf m e))).onUpdate? n := by
    intro n hn
    rw [overwrittenTo_upsertOf hcolumns, if_pos hn, assignedTo_overwriting hnames, if_pos (.inl hn)]
    exact ⟨rfl, rfl⟩
  refine ⟨fun n hnone => ?_, hkey, fun n hgiven => ?_, fun n hdefault hnull => ?_⟩
  · by_cases hn : n ∈ t.keyNames
    · obtain ⟨hupsert, hsave⟩ := hkey n hn
      have hkept : t.onUpdate? n = none := hnone hn
      rw [hupsert, hsave, onUpdate?_overwriting hkept]
    · rw [overwrittenTo_upsertOf hcolumns, if_neg hn,
        assignedTo_overwriting_rowOf hcolumns hnames hn]
  · rw [assignedTo_upsertOf hcolumns, assignedTo_alone _ hr, if_neg]
    rintro ⟨hdefault, hnull⟩
    rw [hgiven hdefault] at hnull
    cases hnull
  · obtain ⟨c, hc, -⟩ := Table.exists_of_hasDefault hdefault
    rw [assignedTo_upsertOf hcolumns, assignedTo_alone _ hr, if_pos ⟨hdefault, hnull⟩,
      Value.eq_null_of_isNull hnull]
    have hcolumn : t.column? n = some c := hc
    exact ⟨by rw [hcolumn]; rfl, rfl⟩

/-- **An upsert of the rows of entities agrees with saving them.** -/
theorem upsertsAsSaved_of_sendsUpsert (hmodel : ∀ e, e.model = M → h.forItem (.ofEntity e) =
      h.withModel (some M)) (hmapping : M.mapping = some m)
    (ht : (h.withModel (some M)).table = .ok t) (hcolumns : t.columns = m.table.columns)
    (hkeyed : t.keyNames ≠ []) {chunk : List Entity}
    (hchunk : ∀ e ∈ chunk, e.model = M ∧ e.HasKey m) {y : Sent}
    (hy : SendsUpsert s t (chunk.map .ofEntity) y) : ∃ x, UpsertsAsSaved s h m chunk x y := by
  obtain ⟨first, rest, x, hrows, hx, hstatement, hprepared⟩ := hy
  have hmapped : ∀ e ∈ chunk, e.model.mapping = some m := fun e he => by
    rw [(hchunk e he).1, hmapping]
  rw [collect_map, collect_of_ok (fun e he => toRow_ofEntity (hmapped e he)),
    Except.ok.injEq] at hrows
  have hhave : ∀ r ∈ first :: rest, ∀ n, r.contains n = (t.column? n).isSome := by
    intro r hr n
    rw [← hrows] at hr
    obtain ⟨e, -, rfl⟩ := List.mem_map.mp hr
    exact contains_rowOf_eq hcolumns n
  obtain ⟨e₀, es, rfl⟩ : ∃ e₀ es, chunk = e₀ :: es := by
    cases chunk with
    | nil => cases hrows
    | cons e₀ es => exact ⟨e₀, es, rfl⟩
  cases hrows
  rw [upsertion_eq_ok (fun n hn => (mem_names_rowOf hcolumns).mp hn), Except.ok.injEq] at hx
  subst hx
  have hinsert := Statement.prepare_insert hprepared
  have hserved := Insert.rows_of_prepare hinsert (fun r hr n hn => by
    rw [hhave r hr, ← hn]
    exact (hhave _ List.mem_cons_self n).symm)
  refine ⟨_, hstatement, fun e he => by rw [hmodel e (hchunk e he).1, ht]; rfl,
    ⟨Insert.names_in_text hinsert, hserved,
      fun hplaces => Insert.forall₂_of_served hplaces hserved⟩,
    ?_, fun e he s' => ?_⟩
  · obtain ⟨values, -, hsql⟩ := Insert.sql_of_prepare hinsert
    rw [Insert.wording_conflictPieces] at hsql
    exact ⟨_, _, hsql⟩
  · obtain ⟨key, hnames, hsaves⟩ := savesBy_overwriting (hmodel e (hchunk e he).1) ht hcolumns
      hkeyed (hmapped e he) (hchunk e he).2
    exact ⟨_, _, hsaves s', agreesOnSave_upsertOf hcolumns hnames⟩

/-! ### Whole batches -/

theorem forItem_ofEntity (hmodel : h.model = none ∨ h.model = some M) (he : e.model = M) :
    h.forItem (.ofEntity e) = h.withModel (some M) := by
  obtain ⟨model, name⟩ := h
  rcases hmodel with rfl | rfl
  · show Handle.withModel _ (some e.model) = _
    rw [he]
  · rfl

/-- A batch of entities that have their key is saved chunk by chunk. -/
theorem batchSave_of_hasKey (hmodel : h.model = none ∨ h.model = some M)
    (hmapping : M.mapping = some m) (ht : (h.withModel (some M)).table = .ok t)
    (hcolumns : t.columns = m.table.columns) (hkeyed : t.keyNames ≠ []) {es : List Entity}
    (hne : es ≠ []) (hes : ∀ e ∈ es, e.model = M ∧ e.HasKey m) (size : Int) :
    h.batchSave s (es.map .ofEntity) size =
      ((h.withModel (some M)).saveChunks s t (chunks (effectiveSize size) (es.map .ofEntity)) >>=
        fun _ => Pure.pure (es.length : Int)) := by
  have hmarked : withIdentity t (es.map .ofEntity) =
      .ok ((es.map .ofEntity).map (fun i => (i, true))) := by
    rw [withIdentity, collect_map, List.map_map]
    refine collect_of_ok (fun e he => ?_)
    obtain ⟨key, hkey, -⟩ := identity_of_hasKey ht hcolumns
      (by rw [(hes e he).1, hmapping]) hkeyed (hes e he).2
    rw [hkey]
    rfl
  have hknown : ∀ items : List Item,
      ((items.map (fun i => (i, true))).filter (fun m => m.2)).map Prod.fst = items := by
    intro items
    rw [List.filter_eq_self.mpr (by simp), List.map_map]
    exact List.map_id items
  have hfresh : ∀ items : List Item,
      ((items.map (fun i => (i, true))).filter (fun m => !m.2)).map Prod.fst = [] := by
    intro items
    simp
  have hrequired : (h.withModel (some M)).requireModel = .ok () := rfl
  obtain ⟨e, rest, rfl⟩ := List.exists_cons_of_ne_nil hne
  rw [List.map_cons] at hmarked ⊢
  unfold batchSave
  simp only [forItem_ofEntity hmodel (hes e List.mem_cons_self).1, hrequired, lift_ok_bind, ht,
    hmarked, hknown, hfresh]
  simp

theorem save_withModel (hmodel : h.model = none ∨ h.model = some M) (he : e.model = M) :
    (h.withModel (some M)).save s (.ofEntity e) = h.save s (.ofEntity e) := by
  unfold save create
  have hbound : (h.withModel (some M)).forItem (.ofEntity e) = h.withModel (some M) := rfl
  simp only [forItem_ofEntity hmodel he, hbound]

theorem chunks_ofEntity (size : Nat) (es : List Entity) :
    List.Forall₂ (fun chunk items => items = chunk.map Item.ofEntity) (chunks size es)
      (chunks size (es.map .ofEntity)) := by
  rw [chunks_map, List.forall₂_map_right_iff]
  exact List.forall₂_same.mpr fun _ _ => rfl

section

variable {es : List Entity} (size : Int)

/-- **With an upsert** the chunks are upserted in order. -/
theorem does_batchSave_upsert (hupsert : hasUpsert s.visibleDialect = true)
    (hmodel : h.model = none ∨ h.model = some M) (hmapping : M.mapping = some m)
    (ht : (h.withModel (some M)).table = .ok t) (hcolumns : t.columns = m.table.columns)
    (hkeyed : t.keyNames ≠ []) (hne : es ≠ []) (hes : ∀ e ∈ es, e.model = M ∧ e.HasKey m) :
    (h.batchSave s (es.map .ofEntity) size).Does (fun r added =>
      (∀ n, r = .ok n → n = es.length) ∧
      Progress (chunks (effectiveSize size) es)
        (fun chunk y => ∃ x, UpsertsAsSaved s h m chunk x y) r added) := by
  have hfailed : ∀ (e : Error) (n : Int), (.error e : Except Error Int) = .ok n → n = es.length :=
    fun e n hn => nomatch hn
  have hupserts : ∀ {r : Except Error Unit} {added : List Sent},
      Progress (chunks (effectiveSize size) (es.map .ofEntity)) (SendsUpsert s t) r added →
      Progress (chunks (effectiveSize size) es)
        (fun chunk y => ∃ x, UpsertsAsSaved s h m chunk x y) r added := by
    intro r added hprogress
    refine (hprogress.of_forall₂ (chunks_ofEntity _ es)).mem.imp (fun chunk y hy => ?_)
    obtain ⟨hchunk, items, rfl, hsends⟩ := hy
    exact upsertsAsSaved_of_sendsUpsert (fun e he => forItem_ofEntity hmodel he) hmapping ht
      hcolumns hkeyed (fun e he => hes e (mem_of_mem_chunks hchunk he)) hsends
  rw [batchSave_of_hasKey hmodel hmapping ht hcolumns hkeyed hne hes]
  refine (does_saveChunks hupsert (fun chunk hchunk =>
    ne_nil_of_mem_chunks (effectiveSize_pos size) hchunk)).bind (fun e added hprogress => ?_)
    (fun _ first hprogress => ?_)
  · exact ⟨hfailed e, (hupserts hprogress).of_isOk (fun h => h)⟩
  · refine does_pure ⟨fun n hn => (Except.ok.inj hn).symm, ?_⟩
    rw [List.append_nil]
    exact (hupserts hprogress).of_isOk (fun _ => rfl)

/-- **Without an upsert** the entities are saved in turn. -/
theorem does_batchSave_singly {P : Item → Except Error Item → List Sent → Prop}
    (hupsert : hasUpsert s.visibleDialect = false)
    (hmodel : h.model = none ∨ h.model = some M) (hmapping : M.mapping = some m)
    (ht : (h.withModel (some M)).table = .ok t) (hcolumns : t.columns = m.table.columns)
    (hkeyed : t.keyNames ≠ []) (hne : es ≠ []) (hes : ∀ e ∈ es, e.model = M ∧ e.HasKey m)
    (hsave : ∀ e ∈ es, (h.save s (.ofEntity e)).Does (P (.ofEntity e))) :
    (h.batchSave s (es.map .ofEntity) size).Does (InTurn P (es.map .ofEntity)) := by
  have hrows : ∀ items ∈ chunks (effectiveSize size) (es.map .ofEntity),
      ∃ rows, collect Item.toRow items = .ok rows := by
    intro items hitems
    obtain ⟨chunk, hchunk, rfl⟩ := exists_of_forall₂ (chunks_ofEntity _ es).flip hitems
    rw [collect_map]
    have hrow : ∀ e ∈ chunk, (Item.ofEntity e).toRow = .ok (rowOf m e) := fun e he =>
      toRow_ofEntity (by rw [(hes e (mem_of_mem_chunks hchunk he)).1, hmapping])
    exact ⟨_, collect_of_ok hrow⟩
  have hturn : ((h.withModel (some M)).saveChunks s t
      (chunks (effectiveSize size) (es.map .ofEntity))).Does
      (InTurn P (chunks (effectiveSize size) (es.map .ofEntity)).flatten) := by
    refine does_saveChunks_singly hupsert hrows (fun items hitems i hi => ?_)
    obtain ⟨e, he, rfl⟩ := List.mem_map.mp (mem_of_mem_chunks hitems hi)
    rw [save_withModel hmodel (hes e he).1]
    exact hsave e he
  rw [flatten_chunks (effectiveSize_pos size)] at hturn
  rw [batchSave_of_hasKey hmodel hmapping ht hcolumns hkeyed hne hes]
  refine hturn.bind (fun e added hfailed => ?_) (fun _ first hdone => does_pure ?_)
  · simpa using hfailed.begins []
  · simpa using hdone.append (.done _)

end

/--
**A batch that is saved natively against entities saved one by one.**

Let the entities be of one mapped model that has a key, and each have its whole key.  On a
dialect with an upsert, one is sent for each chunk in order, and all of them when nothing
fails.  What it assigns to a row that is there is what `save` assigns to it, apart from what a
column of the key has for updates.  What it assigns to a new row is what `save` assigns to it,
except that a column which the entity leaves null and which has a default is null and not left
to its default.  The driver gets these values where the columns are written apart.  On any other
dialect the entities are saved by `save`, one after another.
-/
theorem batchSave_agrees_save (s : Session) (size : Int) (es : List Entity)
    (hmodel : h.model = none ∨ h.model = some M) (hmapping : M.mapping = some m)
    (hkeyed : m.table.keyNames ≠ []) (hes : ∀ e ∈ es, e.model = M ∧ e.HasKey m) :
    (chunks (effectiveSize size) es).flatten = es ∧
    (hasUpsert s.visibleDialect = true →
      (h.batchSave s (es.map .ofEntity) size).Does (fun r added =>
        (∀ n, r = .ok n → n = es.length) ∧
        Progress (chunks (effectiveSize size) es)
          (fun chunk y => ∃ x, UpsertsAsSaved s h m chunk x y) r added)) ∧
    (hasUpsert s.visibleDialect = false → ∀ P : Item → Except Error Item → List Sent → Prop,
      (∀ e ∈ es, (h.save s (.ofEntity e)).Does (P (.ofEntity e))) →
      (h.batchSave s (es.map .ofEntity) size).Does (InTurn P (es.map .ofEntity))) := by
  obtain ⟨t, ht, hcolumns⟩ := exists_table (h := h.withModel (some M)) rfl hmapping
  have hkeys : t.keyNames ≠ [] := by
    rwa [Table.keyNames, Table.keyColumns, hcolumns]
  refine ⟨flatten_chunks (effectiveSize_pos size) es, fun hupsert => ?_, fun hupsert P hsave => ?_⟩
  · rcases eq_or_ne es [] with rfl | hne
    · exact does_log_bind (does_pure ⟨fun n hn => (Except.ok.inj hn).symm, .done⟩)
    · exact does_batchSave_upsert size hupsert hmodel hmapping ht hcolumns hkeys hne hes
  · rcases eq_or_ne es [] with rfl | hne
    · exact does_log_bind (does_pure (.done _))
    · exact does_batchSave_singly size hupsert hmodel hmapping ht hcolumns hkeys hne hes hsave

/-- Two users who have a value wherever the model has a default. -/
def knownUsers : List Entity :=
  [⟨Catalog.user, .ofList [("id", .int 1), ("email", .text "a"), ("status", .text "s"),
      ("deleted", .bool true)]⟩,
    ⟨Catalog.user, .ofList [("id", .int 2), ("name", .text "b"), ("status", .text "t"),
      ("deleted", .bool false)]⟩]

/-- Each of them is assigned what saving it assigns, whether its row is there or not. -/
theorem batchSave_agrees_save_given :
    let s : Session := ⟨.sqlite, true⟩
    let h : Handle := ⟨some Catalog.user, none⟩
    ∃ m, Catalog.user.mapping = some m ∧ (∀ e ∈ knownUsers, e.HasKey m) ∧
      List.Forall₂ (fun e y => ∃ x, y.statement = .insert x ∧ ∀ s' : Session, ∃ first alone,
        SavesBy s' h e (rowOf m e) first alone ∧ ∀ n,
          x.overwrittenTo (rowOf m e) n = first.assignedTo n ∧
          x.assignedTo (rowOf m e) n = alone.assignedTo (rowOf m e) n)
        knownUsers (h.batchSave s (knownUsers.map .ofEntity) 1 ⟨[], [], []⟩).2.sent := by
  intro s h
  refine ⟨_, rfl, by decide +kernel, ?_⟩
  have hkeys : ∀ e ∈ knownUsers,
      e.model = Catalog.user ∧ e.HasKey (Catalog.user.mapping.get rfl) := by
    intro e he
    refine ⟨?_,
      (by decide +kernel : ∀ e ∈ knownUsers, e.HasKey (Catalog.user.mapping.get rfl)) e he⟩
    simp only [knownUsers, List.mem_cons, List.not_mem_nil, or_false] at he
    rcases he with rfl | rfl <;> rfl
  obtain ⟨-, hdoes, -⟩ := batchSave_agrees_save s 1 knownUsers (h := h) (.inr rfl) rfl
    (by decide +kernel) hkeys
  obtain ⟨added, hsent, -, done, -, hall, hchunks⟩ := hdoes rfl ⟨[], [], []⟩
  have hok : (h.batchSave s (knownUsers.map .ofEntity) 1 ⟨[], [], []⟩).1.isOk = true := by
    decide +kernel
  have hdone : done = knownUsers.map (fun e => [e]) := (hall hok).trans (chunks_one _)
  rw [hdone, List.forall₂_map_left_iff] at hchunks
  rw [List.nil_append] at hsent
  rw [hsent]
  refine (List.forall₂_and_left _ _).mpr ⟨fun e he => he, hchunks⟩ |>.imp (fun e y hy => ?_)
  obtain ⟨he, x, hx⟩ := hy
  refine ⟨x, hx.statement, fun s' => ?_⟩
  obtain ⟨first, alone, hsaves, hagrees⟩ := hx.asSaved e (List.mem_singleton_self e) s'
  have htable : x.table = (Catalog.user.mapping.get rfl).table :=
    (Except.ok.inj (hx.table e (List.mem_singleton_self e))).symm
  have hnone : ∀ n, x.table.onUpdate? n = none := by
    rw [htable]
    exact Table.onUpdate?_eq_none (by decide +kernel)
  refine ⟨first, alone, hsaves, fun n => ⟨hagrees.existing n (fun _ => hnone n),
    hagrees.new n (fun hdefault => ?_)⟩⟩
  obtain ⟨c, hc, hcdefault⟩ := Table.exists_of_hasDefault hdefault
  rw [htable] at hc
  rw [← Table.name_of_column? hc]
  exact (by decide +kernel : ∀ e ∈ knownUsers, ∀ c ∈ (Catalog.user.mapping.get rfl).table.columns,
    c.hasDefault = true → ((rowOf (Catalog.user.mapping.get rfl) e).get c.name).isNull = false)
    e he c (List.mem_of_find?_eq_some hc) hcdefault

/-- A user that leaves a column with a default null is not: the upsert makes `deleted` null in a
new row, and saving the user by itself leaves it to the default of the model. -/
theorem batchSave_agrees_save_omitted :
    let s : Session := ⟨.sqlite, true⟩
    let h : Handle := ⟨some Catalog.user, none⟩
    let e : Entity :=
      ⟨Catalog.user, .ofList [("id", .int 1), ("email", .text "a"), ("status", .text "s")]⟩
    let nulls (c : Channel) : List (String × List (List Bool)) := c.sent.map (fun y =>
      (y.prepared.sql, y.prepared.rows.map (fun vs => vs.map Value.isNull)))
    nulls (h.batchSave s [.ofEntity e] 0 ⟨[], [], []⟩).2 =
      [("INSERT INTO users (id, email, name, age, status, deleted) VALUES (?, ?, ?, ?, ?, ?) " ++
        "ON CONFLICT (id) DO UPDATE SET email = excluded.email, name = excluded.name, " ++
        "age = excluded.age, status = excluded.status, deleted = excluded.deleted",
        [[false, false, true, true, false, true]])] ∧
    nulls (h.save s (.ofEntity e) ⟨[], [], []⟩).2 =
      [("UPDATE users SET email=?, name=?, age=?, status=?, deleted=? WHERE users.id = ?",
        [[false, true, true, false, true, false]]),
      ("INSERT INTO users (id, email, name, age, status, deleted) VALUES (?, ?, ?, ?, ?, ?)",
        [[false, false, true, true, false, false]])] := by
  intro s h e nulls
  exact ⟨by decide +kernel, by decide +kernel⟩

end Handle

end TableQuery
