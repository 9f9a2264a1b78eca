/-
What creating an item leaves the caller with.

After an insert a value may be known of a column from three sides: the key of the new row, what
the driver returned, and what the insert assigned.  `create` puts them together by the names of
columns, each over the one before, and copies them to the attributes that were null.  Put
together so, they are for each column the first of the three that is not null
(`get_generatedValues`); the order only matters for the key, because nothing is returned that was
assigned.  Copying then is one question for each attribute (`fillsGaps_fillGaps`), since no two
columns have one attribute.

`create_fills_gaps` is about the item that the caller holds after the call, which is the one
handed in when the call fails.
-/
import TableQuery.Proofs.Handle.Chunking
import TableQuery.Proofs.Handle.Upserting
import TableQuery.Proofs.Lookup

namespace TableQuery

/-! ### Entries that are set one after another -/

theorem lookup_map_name {α : Type} (cs : List TableColumn) (f : TableColumn → α) (n : String) :
    (cs.map (fun c => (c.name, f c))).lookup n = (cs.find? (fun c => c.name == n)).map f := by
  induction cs with
  | nil => rfl
  | cons c cs ih =>
      rw [List.map_cons, List.lookup_cons, List.find?_cons, BEq.comm (a := c.name)]
      cases n == c.name with
      | true => rfl
      | false => exact ih

namespace Row

theorem lookup_entries (r : Row) (n : String) : r.entries.lookup n = r.get? n := by
  rw [get?]
  induction r.entries with
  | nil => rfl
  | cons e es ih =>
      rw [List.lookup_cons, List.find?_cons, BEq.comm (a := e.1)]
      cases n == e.1 with
      | true => rfl
      | false => exact ih

theorem get_insertAll {es : List (String × Value)} (hnodup : (es.map Prod.fst).Nodup) (r : Row)
    (n : String) : (r.insertAll es).get n = (es.lookup n).getD (r.get n) := by
  induction es generalizing r with
  | nil => rfl
  | cons e es ih =>
      obtain ⟨hmem, hrest⟩ := List.nodup_cons.mp hnodup
      show ((r.insert e.1 e.2).insertAll es).get n = _
      rw [ih hrest, get_insert, lookup_cons_ite]
      by_cases hn : n = e.1
      · rw [if_pos hn, if_pos hn, hn, lookup_of_not_mem hmem]
        rfl
      · rw [if_neg hn, if_neg hn]

theorem names_insert_subset (r : Row) (n : String) (v : Value) {n' : String}
    (h : n' ∈ (r.insert n v).names) : n' = n ∨ n' ∈ r.names := by
  unfold insert at h
  split at h
  · rw [names, names_replaced] at h
    exact Or.inr h
  · rw [names, List.map_append] at h
    rcases List.mem_append.mp h with h | h
    · exact Or.inr h
    · exact Or.inl (by simpa using h)

theorem names_insertAll_subset {es : List (String × Value)} {r : Row} {n : String}
    (h : n ∈ (r.insertAll es).names) : n ∈ es.map Prod.fst ∨ n ∈ r.names := by
  induction es generalizing r with
  | nil => exact Or.inr h
  | cons e es ih =>
      rcases ih (r := r.insert e.1 e.2) h with h | h
      · exact Or.inl (List.mem_cons_of_mem _ h)
      · rcases names_insert_subset r e.1 e.2 h with rfl | h
        · exact Or.inl List.mem_cons_self
        · exact Or.inr h

end Row

/-! ### Copying to the attributes that are null -/

/-- Whether of an entity only the gaps have been filled: `made` is what is known of a column. -/
structure FillsGaps (m : Mapping) (e e' : Entity) (made : String → Value) : Prop where
  model : e'.model = e.model
  /-- An attribute that has a value keeps it. -/
  kept : ∀ a, (e.get a).isNull = false → e'.get a = e.get a
  /-- An attribute that is null has what is known of its own column. -/
  filled : ∀ c ∈ m.columns, (e.get c.attr).isNull = true → e'.get c.attr = made c.name
  /-- Nothing else changes. -/
  others : ∀ a, a ∉ m.attrs → e'.get a = e.get a

namespace Sql.Insert

theorem columns_sublist (x : Insert) : x.columns.Sublist x.table.columnNames := by
  unfold columns written Table.columnNames
  induction x.table.columns with
  | nil => exact .slnil
  | cons c cs ih =>
      rw [List.filterMap_cons]
      cases x.source? c with
      | none => exact ih.cons c.name
      | some s => exact ih.cons_cons c.name

theorem lookup_assignments {x : Insert} (hnodup : x.table.columnNames.Nodup) (r : Row)
    (n : String) :
    ((x.assignments r).map (fun p => (p.name, p.value))).lookup n = x.assignedTo r n := by
  unfold assignments assignedTo Table.column?
  unfold Table.columnNames at hnodup
  generalize x.table.columns = cs at hnodup ⊢
  induction cs with
  | nil => rfl
  | cons c cs ih =>
      obtain ⟨hmem, hrest⟩ := List.nodup_cons.mp hnodup
      have hnone : cs.find? (fun c' => c'.name == c.name) = none := by
        rw [List.find?_eq_none]
        intro c' hc' heq
        exact hmem (List.mem_map.mpr ⟨c', hc', by simpa using heq⟩)
      rw [List.filterMap_cons, List.find?_cons, BEq.comm (a := c.name)]
      by_cases hn : n = c.name
      · subst hn
        rw [beq_self_eq_true]
        cases hassigned : x.assigned r c with
        | none => simpa [hnone, hassigned] using ih hrest
        | some v => simp [hassigned]
      · have hne : (n == c.name) = false := by simpa using hn
        rw [hne]
        cases x.assigned r c with
        | none => exact ih hrest
        | some v => simpa [lookup_cons_ite, hn] using ih hrest

end Sql.Insert

namespace Entity

variable {m : Mapping} {e : Entity}

theorem get_setColumn_of_not_mem (hm : e.model.mapping = some m) (name : String) (v : Value)
    {a : String} (ha : a ∉ m.attrs) : (e.setColumn name v).get a = e.get a := by
  unfold setColumn
  rw [hm, Option.bind_some]
  cases hattr : m.attr? name with
  | none => rfl
  | some a' =>
      obtain ⟨c, hc, -, rfl⟩ := Mapping.attr?_eq_some_iff.mp hattr
      rw [get_set, if_neg]
      rintro rfl
      exact ha (List.mem_map.mpr ⟨c, hc, rfl⟩)

/-- One entry of a generated row, where `current` is the row as it was. -/
def fillGap (current : Row) (e : Entity) (x : String × Value) : Entity :=
  if !x.2.isNull && (current.get x.1).isNull then e.setColumn x.1 x.2 else e

theorem model_fillGap (current : Row) (e : Entity) (x : String × Value) :
    (e.fillGap current x).model = e.model := by
  unfold fillGap
  split
  · exact model_setColumn e x.1 x.2
  · rfl

theorem model_foldl_fillGap (current : Row) (es : List (String × Value)) (e : Entity) :
    (es.foldl (fillGap current) e).model = e.model := by
  induction es generalizing e with
  | nil => rfl
  | cons x es ih => rw [List.foldl_cons, ih, model_fillGap]

theorem get_foldl_fillGap_of_not_mem (hm : e.model.mapping = some m) (current : Row)
    (es : List (String × Value)) {a : String} (ha : a ∉ m.attrs) :
    (es.foldl (fillGap current) e).get a = e.get a := by
  induction es generalizing e with
  | nil => rfl
  | cons x es ih =>
      rw [List.foldl_cons, ih (by rw [model_fillGap, hm])]
      unfold fillGap
      split
      · exact get_setColumn_of_not_mem hm x.1 x.2 ha
      · rfl

/-- An attribute is set at most once: by the entry of its column, if that has a value and the
column was null. -/
theorem get_foldl_fillGap (hm : e.model.mapping = some m) (current : Row)
    {es : List (String × Value)} (hnodup : (es.map Prod.fst).Nodup) {c : MappedColumn}
    (hc : c ∈ m.columns) :
    (es.foldl (fillGap current) e).get c.attr =
      match es.lookup c.name with
      | some v => if !v.isNull && (current.get c.name).isNull then v else e.get c.attr
      | none => e.get c.attr := by
  induction es generalizing e with
  | nil => rfl
  | cons x es ih =>
      obtain ⟨hmem, hrest⟩ := List.nodup_cons.mp hnodup
      have hfirst : (e.fillGap current x).get c.attr =
          if c.name = x.1 ∧ (!x.2.isNull && (current.get x.1).isNull) = true then x.2
          else e.get c.attr := by
        unfold fillGap
        by_cases hfills : (!x.2.isNull && (current.get x.1).isNull) = true
        · simp only [hfills, if_true, and_true, get_setColumn hm x.1 x.2 hc]
        · simp only [hfills, Bool.false_eq_true, if_false, and_false]
      rw [List.foldl_cons, ih (by rw [model_fillGap, hm]) hrest, hfirst, lookup_cons_ite]
      by_cases hname : c.name = x.1
      · rw [if_pos hname, hname, lookup_of_not_mem hmem]
        simp
      · simp [hname]

end Entity

namespace Handle

open Run Session Batch Sql Entity

variable {m : Mapping} {e : Entity}

theorem fillGaps_ofEntity (current generated : Row) (e : Entity) :
    fillGaps current generated (.ofEntity e) =
      .ofEntity (generated.entries.foldl (fillGap current) e) := by
  unfold fillGaps
  induction generated.entries generalizing e with
  | nil => rfl
  | cons x es ih =>
      rw [List.foldl_cons, List.foldl_cons, ← ih]
      congr 1
      unfold fillGap
      split <;> rfl

/-- **Copying fills gaps and nothing else.** -/
theorem fillsGaps_fillGaps (hm : e.model.mapping = some m) (generated : Row) :
    ∃ e', fillGaps (rowOf m e) generated (.ofEntity e) = .ofEntity e' ∧
      FillsGaps m e e' generated.get := by
  have hget : ∀ c ∈ m.columns,
      (generated.entries.foldl (fillGap (rowOf m e)) e).get c.attr =
        if (e.get c.attr).isNull = true then generated.get c.name else e.get c.attr := by
    intro c hc
    rw [get_foldl_fillGap hm _ generated.names_nodup hc, Row.lookup_entries, get_rowOf e hc,
      Row.get]
    cases hnull : (e.get c.attr).isNull with
    | false => cases generated.get? c.name <;> simp
    | true =>
        have hgap := Value.eq_null_of_isNull hnull
        cases generated.get? c.name with
        | none => simp [hgap]
        | some v =>
            cases hv : v.isNull with
            | false => simp [hv]
            | true => simp [hgap, Value.eq_null_of_isNull hv]
  have hothers : ∀ a, a ∉ m.attrs →
      (generated.entries.foldl (fillGap (rowOf m e)) e).get a = e.get a :=
    fun a ha => get_foldl_fillGap_of_not_mem hm _ _ ha
  refine ⟨_, fillGaps_ofEntity _ _ e, model_foldl_fillGap _ _ e, fun a hgiven => ?_,
    fun c hc hnull => by rw [hget c hc, if_pos hnull], hothers⟩
  by_cases ha : a ∈ m.attrs
  · obtain ⟨c, hc, rfl⟩ := List.mem_map.mp ha
    rw [hget c hc, if_neg (by simp [hgiven])]
  · exact hothers a ha

/-! ### What is known of a column after an insert -/

/-- The first value that is not null. -/
def firstGiven (vs : List Value) : Value := (vs.find? (fun v => !v.isNull)).getD .null

theorem firstGiven_null (vs : List Value) : firstGiven (.null :: vs) = firstGiven vs := rfl

theorem firstGiven_of_given {v : Value} (h : v.isNull = false) (vs : List Value) :
    firstGiven (v :: vs) = v := by
  rw [firstGiven, List.find?_cons, h]
  rfl

theorem firstGiven_of_nulls (v : Value) {vs : List Value} (h : ∀ w ∈ vs, w.isNull = true) :
    firstGiven (v :: vs) = v := by
  cases hv : v.isNull with
  | false => exact firstGiven_of_given hv vs
  | true =>
      have hnone : vs.find? (fun w => !w.isNull) = none :=
        List.find?_eq_none.mpr fun w hw => by simp [h w hw]
      rw [Value.eq_null_of_isNull hv, firstGiven_null, firstGiven, hnone]
      rfl

section FirstGiven

variable {returned? : Option Value} {sent : Value}

/-- A column outside the key has what was returned or what was sent, of which at most one is
given. -/
theorem getD_eq_firstGiven (hunsent : ∀ w, returned? = some w → sent = .null) :
    returned?.getD sent = firstGiven [.null, returned?.getD .null, sent] := by
  rw [firstGiven_null]
  cases hvalue : returned? with
  | none =>
      rw [Option.getD_none, Option.getD_none, firstGiven_null]
      exact (firstGiven_of_nulls sent (by simp)).symm
  | some w =>
      rw [Option.getD_some, Option.getD_some, hunsent w hvalue]
      exact (firstGiven_of_nulls w (by simp [Value.isNull])).symm

/-- A column of the key may also have the number that the driver gave, which stands for it only
where nothing was returned and nothing was sent. -/
theorem getD_ite_eq_firstGiven (hunsent : ∀ w, returned? = some w → sent = .null)
    (numbered : Value) :
    returned?.getD (if sent.isNull then numbered else sent) =
      firstGiven [returned?.getD (if sent.isNull then numbered else sent),
        returned?.getD .null, sent] := by
  have hnull : Value.null.isNull = true := rfl
  cases hvalue : returned? with
  | none =>
      rw [Option.getD_none, Option.getD_none]
      cases hsent : sent.isNull with
      | true => exact (firstGiven_of_nulls _ (by simp [hsent, hnull])).symm
      | false =>
          rw [if_neg (by simp)]
          exact (firstGiven_of_given hsent _).symm
  | some w =>
      rw [Option.getD_some, Option.getD_some, hunsent w hvalue]
      cases hw : w.isNull with
      | true => exact (firstGiven_of_nulls w (by simp [hw, hnull])).symm
      | false => exact (firstGiven_of_given hw _).symm

end FirstGiven

/-- What is reported for a column of the key of the new row; null for any other column. -/
def reportedKey (d : Dialect) (x : Insert) (returned : Row) (reply : Reply) (n : String) : Value :=
  ((insertedKey d x (sentValues x) returned reply).lookup n).getD .null

/-- What is known of a column of a row `r` after its insert: the reported key, else what was
returned, else what was assigned. -/
def valueMade (d : Dialect) (x : Insert) (r returned : Row) (reply : Reply) (n : String) : Value :=
  firstGiven [reportedKey d x returned reply n, returned.get n, (x.assignedTo r n).getD .null]

section Known

variable {t : Table} {r returned : Row} {asked : Returned} {d : Dialect} {reply : Reply}

theorem firstParameters_insertion : (insertion t [r] asked false).firstParameters =
    (insertion t [r] asked false).assignments r := by
  have hfirst : (insertion t [r] asked false).first =
      r.pick (keptNames t [r]) (nodup_keptNames t [r]) := rfl
  rw [← assignments_pick (List.cons_ne_nil _ _), Insert.assignments_eq_map, Insert.firstParameters,
    ← hfirst]
  refine List.map_congr_left fun e _ => ?_
  rw [Insert.valueOf]
  cases e.2 <;> rfl

/-- The values that are sent are those that are assigned. -/
theorem get_sentValues (hnodup : t.columnNames.Nodup) (n : String) :
    (sentValues (insertion t [r] asked false)).get n =
      ((insertion t [r] asked false).assignedTo r n).getD .null := by
  have htable : (insertion t [r] asked false).table = t := table_insertion
  have hnames : (((insertion t [r] asked false).assignments r).map
      (fun p => (p.name, p.value))).map Prod.fst = (insertion t [r] asked false).columns := by
    rw [List.map_map]
    exact Insert.names_assignments _ r
  have hdistinct : (insertion t [r] asked false).columns.Nodup :=
    (Insert.columns_sublist _).nodup (by rwa [htable])
  rw [sentValues, firstParameters_insertion, Row.ofList,
    Row.get_insertAll (by rw [hnames]; exact hdistinct),
    Insert.lookup_assignments (by rwa [htable])]
  rfl

/-- Only columns that were asked for are returned. -/
theorem exists_returnedColumn {x : Insert} (hreturned : returnedValues d x reply = .ok returned)
    {n : String} (hn : n ∈ returned.names) : ∃ c ∈ x.returnedColumns d, c.name = n := by
  unfold returnedValues at hreturned
  split at hreturned
  · rw [← Except.ok.inj hreturned] at hn
    cases hn
  · split at hreturned
    · cases hreturned
    · split at hreturned
      · rw [← Except.ok.inj hreturned] at hn
        cases hn
      · rw [← Except.ok.inj hreturned, readColumns] at hn
        rcases Row.names_insertAll_subset hn with hn | hn
        · rw [List.map_map] at hn
          obtain ⟨e, he, rfl⟩ := List.mem_map.mp hn
          exact ⟨e.1, (List.of_mem_zip he).1, rfl⟩
        · cases hn

/-- Only columns that the insert leaves out are asked for. -/
theorem source?_of_returnedColumn {x : Insert} {c : TableColumn} (hc : c ∈ x.returnedColumns d) :
    c ∈ x.table.columns ∧ x.source? c = none := by
  unfold Insert.returnedColumns at hc
  split at hc
  · obtain ⟨hcolumn, hasked⟩ := List.mem_filter.mp hc
    rw [Insert.isReturned, Bool.and_eq_true, Option.isNone_iff_eq_none] at hasked
    exact ⟨hcolumn, hasked.1⟩
  · cases hc

/-- Only what is not assigned is returned. -/
theorem assignedTo_of_returned (hnodup : t.columnNames.Nodup)
    (hreturned : returnedValues d (insertion t [r] asked false) reply = .ok returned) {n : String}
    (hn : n ∈ returned.names) : (insertion t [r] asked false).assignedTo r n = none := by
  have htable : (insertion t [r] asked false).table = t := table_insertion
  obtain ⟨c, hc, rfl⟩ := exists_returnedColumn hreturned hn
  obtain ⟨hmem, hsource⟩ := source?_of_returnedColumn hc
  rw [htable] at hmem
  rw [Insert.assignedTo, htable, Table.column?_of_mem hnodup hmem, Option.bind_some,
    Insert.assigned, hsource]
  rfl

theorem get_sentValues_of_returned (hnodup : t.columnNames.Nodup)
    (hreturned : returnedValues d (insertion t [r] asked false) reply = .ok returned) {n : String}
    {w : Value} (hw : returned.get? n = some w) :
    (sentValues (insertion t [r] asked false)).get n = .null := by
  have hmem : n ∈ returned.names := by
    by_contra hnot
    rw [Row.get?_of_not_contains (by simpa [Row.contains] using hnot)] at hw
    cases hw
  rw [get_sentValues hnodup, assignedTo_of_returned hnodup hreturned hmem]
  rfl

theorem names_insertedKey (x : Insert) (sent returned : Row) (reply : Reply) :
    (insertedKey d x sent returned reply).map Prod.fst = x.table.keyNames := by
  rw [insertedKey, List.map_map]
  rfl

theorem lookup_insertedKey (x : Insert) (sent returned : Row) (reply : Reply) (n : String) :
    (insertedKey d x sent returned reply).lookup n =
      (x.table.keyColumns.find? (fun c => c.name == n)).map (fun c => (returned.get? c.name).getD
        (if (sent.get c.name).isNull then
          if c.autoincrement && !x.canReturn d then reply.lastRowId else .null
        else sent.get c.name)) :=
  lookup_map_name _ _ n

/-- **What is put together is, for each column, the first that is known of it.** -/
theorem get_generatedValues (hnodup : t.columnNames.Nodup)
    (hreturned : returnedValues d (insertion t [r] asked false) reply = .ok returned) (n : String) :
    (generatedValues d (insertion t [r] asked false) returned reply).get n =
      valueMade d (insertion t [r] asked false) r returned reply n := by
  have hkeys : ((insertedKey d (insertion t [r] asked false)
      (sentValues (insertion t [r] asked false)) returned reply).map Prod.fst).Nodup := by
    rw [names_insertedKey, table_insertion]
    exact (List.filter_sublist.map _).nodup hnodup
  have hunsent : ∀ w, returned.get? n = some w →
      (sentValues (insertion t [r] asked false)).get n = .null :=
    fun w hw => get_sentValues_of_returned hnodup hreturned hw
  rw [generatedValues, Row.get_insertAll hkeys, Row.get_insertAll returned.names_nodup,
    Row.lookup_entries, valueMade, reportedKey, ← get_sentValues hnodup, lookup_insertedKey,
    show returned.get n = (returned.get? n).getD .null from rfl]
  cases hkey : (insertion t [r] asked false).table.keyColumns.find? (fun c => c.name == n) with
  | none => exact getD_eq_firstGiven hunsent
  | some c =>
      have hname : c.name = n := by simpa using List.find?_some hkey
      rw [Option.map_some, Option.getD_some, Option.getD_some, hname]
      exact getD_ite_eq_firstGiven hunsent _

end Known

/-! ### The item after the call -/

variable {h : Handle} {s : Session} {i j : Item} {c : Channel}

/-- The item that a caller holds after a call: the one that the call gives back, and where the call
fails the one that was handed in. -/
def held (i : Item) : Except Error Item → Item
  | .ok j => j
  | .error _ => i

theorem fillGaps_of_not_entity (hi : ∀ e, i ≠ .ofEntity e) (current generated : Row) :
    fillGaps current generated i = i := by
  have hset : ∀ name v, i.setColumn name v = i := by
    intro name v
    match i, hi with
    | none, _ => rfl
    | some (.row r), _ => rfl
    | some (.entity e), hi => exact absurd rfl (hi e)
  unfold fillGaps
  induction generated.entries with
  | nil => rfl
  | cons x es ih =>
      rw [List.foldl_cons, hset, ite_self]
      exact ih

/-- What succeeds after a result was looked up has found it. -/
theorem exists_of_lift_bind {α β : Type} {x : Except Error α} {f : α → Run β} {b : β}
    (hb : ((lift x >>= f) c).1 = .ok b) : ∃ a, x = .ok a ∧ (f a c).1 = .ok b := by
  cases x with
  | error e => cases hb
  | ok a => exact ⟨a, rfl, hb⟩

/-- An item that is created has a row, and a table that takes it. -/
theorem exists_of_create (hj : (h.create s i c).1 = .ok j) :
    ∃ r t, i.toRow = .ok r ∧ (h.forItem i).writable r.names = .ok t := by
  unfold create at hj
  obtain ⟨r, hr, hj⟩ := exists_of_lift_bind hj
  obtain ⟨t, ht, -⟩ := exists_of_lift_bind hj
  exact ⟨r, t, hr, ht⟩

/-- Without a model the item is given back as it is. -/
theorem eq_of_create_unbound (hmodel : (h.forItem i).model = none)
    (hj : (h.create s i c).1 = .ok j) : j = i := by
  unfold create at hj
  obtain ⟨r, -, hj⟩ := exists_of_lift_bind hj
  obtain ⟨t, -, hj⟩ := exists_of_lift_bind hj
  rw [hmodel] at hj
  have hdone : (s.execute (.insert (insertion t [r] .key false)) >>= fun _ =>
      (Pure.pure i : Run Item)).CarriesOut c s [⟨.insert (insertion t [r] .key false),
        fun _ => .ok ()⟩] i :=
    carriesOut_execute_bind (q := ⟨.insert (insertion t [r] .key false), fun _ => .ok ()⟩)
      (fun _ he => nomatch he) fun _ _ _ => carriesOut_pure i
  have hresult := hdone.result
  rw [hj] at hresult
  obtain ⟨_, -, rfl⟩ := map_eq_ok.mp hresult.symm
  rfl

/-- What is made of an item whose row was inserted with `x`, by the reply. -/
def createdItem (d : Dialect) (x : Insert) (r : Row) (reply : Reply) (i : Item) : Item :=
  match returnedValues d x reply with
  | .ok returned => fillGaps r (generatedValues d x returned reply) i
  | .error _ => i

theorem writable_of_model {M : Model} (hmodel : h.model = some M) (ns : List String) :
    h.writable ns = h.table := by
  unfold writable
  rw [hmodel]

/-- **Creating an item with a model** inserts its row, and makes of the item what the reply
says. -/
theorem carriesOut_create {M : Model} {r : Row} (hmodel : (h.forItem i).model = some M)
    (hr : i.toRow = .ok r) (ht : (h.forItem i).table = .ok t) :
    (h.create s i).CarriesOut c s [insertStep s (insertion t [r] .generated false)]
      (createdItem s.dialect (insertion t [r] .generated false) r (nextReply c.outcomes) i) := by
  unfold create
  refine carriesOut_lift_bind hr (carriesOut_lift_bind
    ((writable_of_model hmodel r.names).trans ht) ?_)
  rw [hmodel]
  refine carriesOut_execute_bind (q := insertStep s (insertion t [r] .generated false))
    (fun e he c' => ?_) (fun hread c' _ => ?_)
  · rw [map_eq_error.mp he]
    rfl
  · obtain ⟨returned, hreturned, -⟩ := map_eq_ok.mp hread
    rw [createdItem, hreturned]
    exact carriesOut_lift_bind rfl (carriesOut_pure _)

/-- An item that is no entity is given back as it is. -/
theorem eq_of_create_not_entity (hi : ∀ e, i ≠ .ofEntity e) (hj : (h.create s i c).1 = .ok j) :
    j = i := by
  cases hmodel : (h.forItem i).model with
  | none => exact eq_of_create_unbound hmodel hj
  | some M =>
      obtain ⟨r, t, hr, ht⟩ := exists_of_create hj
      rw [writable_of_model hmodel] at ht
      have hresult := (carriesOut_create (s := s) (c := c) hmodel hr ht).result
      rw [hj] at hresult
      obtain ⟨_, -, rfl⟩ := map_eq_ok.mp hresult.symm
      unfold createdItem
      split
      · exact fillGaps_of_not_entity hi _ _
      · rfl

/-- What is behind an entity that has been created: the insert of its row was sent, and the reply
to it was read. -/
structure CreatedBy (s : Session) (c c' : Channel) (x : Insert) (r : Row) (returned : Row) :
    Prop where
  sent : ∃ p, c'.sent = c.sent ++ [⟨.insert x, p⟩] ∧ x.HandsOver s.dialect [r] p
  returned : returnedValues s.dialect x (nextReply c.outcomes) = .ok returned

/-- **An entity that has been created** has been made from what is known of its row. -/
theorem createdBy_of_create (hm : e.model.mapping = some m)
    (hj : (h.create s (.ofEntity e) c).1 = .ok j) :
    ∃ t returned, (h.forItem (.ofEntity e)).table = .ok t ∧
      CreatedBy s c (h.create s (.ofEntity e) c).2 (insertion t [rowOf m e] .generated false)
        (rowOf m e) returned ∧
      j = fillGaps (rowOf m e) (generatedValues s.dialect
        (insertion t [rowOf m e] .generated false) returned (nextReply c.outcomes))
        (.ofEntity e) := by
  obtain ⟨M, hmodel⟩ : ∃ M, (h.forItem (.ofEntity e)).model = some M := by
    obtain ⟨model, name⟩ := h
    cases model with
    | none => exact ⟨e.model, rfl⟩
    | some M => exact ⟨M, rfl⟩
  have hr := toRow_ofEntity hm
  obtain ⟨r, t, -, ht⟩ := exists_of_create hj
  rw [writable_of_model hmodel] at ht
  obtain ⟨hresult, hsent, -⟩ := carriesOut_create (s := s) (c := c) hmodel hr ht
  rw [exchange_singleton] at hresult hsent
  rw [hj] at hresult
  obtain ⟨_, hok, hitem⟩ := map_eq_ok.mp hresult.symm
  obtain ⟨p, hprepared, hperformed, -⟩ := sent_of_perform_ok hok
  rw [hperformed] at hsent
  obtain ⟨returned, hreturned, -⟩ := map_eq_ok.mp (read_of_perform_ok hok)
  refine ⟨t, returned, ht, ⟨⟨p, hsent, ?_⟩, hreturned⟩, ?_⟩
  · exact handsOver_insertion (List.cons_ne_nil _ _) hprepared
  · rw [← hitem, createdItem, hreturned]

/--
**Creating fills gaps and nothing else.**

An entity that was created has kept every value that it had.  An attribute of a column that was
null has what is known of its own column: the key that is reported for the new row, else what
the database returned, else what the insert assigned, which is what the driver was handed where
the columns are written apart.  Nothing else of it has changed.  An item that is no entity, an item
that is created without a model and an item that could not be created are as they were.
-/
theorem create_fills_gaps (h : Handle) (s : Session) (i : Item) (c : Channel) :
    ((h.create s i c).1.isOk = false ∨ (h.forItem i).model = none ∨ (∀ e, i ≠ .ofEntity e) →
      held i (h.create s i c).1 = i) ∧
    (∀ e, i = .ofEntity e → (h.create s i c).1.isOk = true →
      ∃ m t returned e', e.model.mapping = some m ∧ (h.forItem i).table = .ok t ∧
        CreatedBy s c (h.create s i c).2 (insertion t [rowOf m e] .generated false) (rowOf m e)
          returned ∧
        held i (h.create s i c).1 = .ofEntity e' ∧
        FillsGaps m e e' (valueMade s.dialect (insertion t [rowOf m e] .generated false) (rowOf m e)
          returned (nextReply c.outcomes))) := by
  constructor
  · intro hkept
    cases hresult : (h.create s i c).1 with
    | error _ => rfl
    | ok j =>
        rw [hresult] at hkept
        rcases hkept with hfailed | hmodel | hi
        · cases hfailed
        · exact eq_of_create_unbound hmodel hresult
        · exact eq_of_create_not_entity hi hresult
  · rintro e rfl hok
    cases hresult : (h.create s (.ofEntity e) c).1 with
    | error _ =>
        rw [hresult] at hok
        cases hok
    | ok j =>
        obtain ⟨m, hm⟩ : ∃ m, e.model.mapping = some m := by
          obtain ⟨r, -, hr, -⟩ := exists_of_create hresult
          cases hmapping : e.model.mapping with
          | none =>
              have hnone : e.toRow = .error .notMapped := by rw [toRow, hmapping]
              cases hnone.symm.trans hr
          | some m => exact ⟨m, rfl⟩
        obtain ⟨t, returned, ht, hcreated, rfl⟩ := createdBy_of_create hm hresult
        obtain ⟨e', he', hfills⟩ := fillsGaps_fillGaps hm (generatedValues s.dialect
          (insertion t [rowOf m e] .generated false) returned (nextReply c.outcomes))
        refine ⟨m, t, returned, e', hm, ht, hcreated, he', ?_⟩
        rwa [show (generatedValues _ _ _ _).get = _ from
          funext (get_generatedValues (columnNames_nodup ht) hcreated.returned)] at hfills

/-- A user with an email address alone, and with a value under a name that is no column. -/
def newcomer : Entity := ⟨Catalog.user, .ofList [("email", .text "a"), ("nick", .text "b")]⟩

/-- What a database may say about the row of a new user. -/
def welcome : Reply := ⟨some ⟨["id", "status"], [[.int 7, .text "new"]]⟩, 1, .null⟩

/-- Such a user has the same address afterwards, and has the key and the status that the database
returned and the default of the model; a row is as it was. -/
theorem create_fills_gaps_newcomer :
    let h : Handle := ⟨some Catalog.user, none⟩
    let create (i : Item) := (h.create ⟨.sqlite, true⟩ i ⟨[.reply welcome], [], []⟩).1
    let row : Item := some (.row (.ofList [("email", .text "a")]))
    held row (create row) = row ∧ (create (.ofEntity newcomer)).isOk = true ∧
    ∃ e, held (.ofEntity newcomer) (create (.ofEntity newcomer)) = .ofEntity e ∧
      e.get "email" = .text "a" ∧ e.get "id" = .int 7 ∧ e.get "status" = .text "new" ∧
      e.get "deleted" = .bool false ∧ e.get "age" = .null ∧ e.get "nick" = .text "b" := by
  intro h create row
  have hrow : ∀ e, row ≠ .ofEntity e := fun e he => Record.noConfusion (Option.some.inj he)
  have hsame : held row (create row) = row :=
    (create_fills_gaps h ⟨.sqlite, true⟩ row _).1 (.inr (.inr hrow))
  have hok : (create (.ofEntity newcomer)).isOk = true := by decide +kernel
  obtain ⟨m, t, returned, e, hm, ht, ⟨-, hreturned⟩, he, hfills⟩ :=
    (create_fills_gaps h ⟨.sqlite, true⟩ (.ofEntity newcomer) _).2 newcomer rfl hok
  cases hm
  cases ht
  have hgiven : returnedValues .sqlite (insertion (Catalog.user.mapping.get rfl).table
      [rowOf (Catalog.user.mapping.get rfl) newcomer] .generated false) welcome =
        .ok (.ofList [("id", .int 7), ("status", .text "new")]) := by rfl
  obtain rfl := Except.ok.inj (hreturned.symm.trans hgiven)
  have hfilled : ∀ c ∈ (Catalog.user.mapping.get rfl).columns,
      (newcomer.get c.attr).isNull = true → e.get c.attr = _ :=
    hfills.filled
  simp only [Catalog.user, Option.get_some, List.forall_mem_cons] at hfilled
  obtain ⟨hid, -, -, hage, hstatus, hdeleted, -⟩ := hfilled
  exact ⟨hsame, hok, e, he, hfills.kept "email" rfl, (hid rfl).trans (by rfl),
    (hstatus rfl).trans (by rfl), (hdeleted rfl).trans (by rfl), (hage rfl).trans (by rfl),
    hfills.others "nick" (by decide)⟩

end Handle

end TableQuery
