/-
Inserts of several rows, and what they assign for each of them.

All rows of an insert give the same columns.  Which ones is decided by the rows together: a
column is listed when one of the rows names it and, should the table be able to fill
it in, gives it a value (`Batch.ListsName`).  A listed column is assigned the row's own value, which
is null where the row has none, and a column that is not listed is left to its default.  So
`assignedTo_insertion` says all that there is to say about one row among others, and
`agreesExcept` what becomes of a row when it is inserted with others instead of alone: a
column that only the others list is null instead of left to its default.
-/
import TableQuery.Proofs.Handle.Outcomes
import TableQuery.Proofs.Sql.Assignments

namespace TableQuery

/-! ### Uniform rows -/

theorem Value.eq_null_of_isNull {v : Value} (h : v.isNull = true) : v = .null := by
  cases v <;> first | rfl | cases h

theorem Row.get_pick {r : Row} {names : List String} (nodup : names.Nodup) {name : String}
    (h : name ∈ names) : (r.pick names nodup).get name = r.get name :=
  Row.get_of_mem (List.mem_map.mpr ⟨name, h, rfl⟩)

theorem Row.contains_pick {r : Row} {names : List String} (nodup : names.Nodup) (name : String) :
    (r.pick names nodup).contains name = names.contains name := by
  simp [Row.contains, Row.names, Row.pick, Function.comp_def]

namespace Batch

/-- Whether rows list a name for an insert: one of them has it and, where the table could
fill it in, gives it a value. -/
def ListsName (t : Table) (rows : List Row) (name : String) : Prop :=
  ∃ r ∈ rows, r.contains name = true ∧ (t.hasDefault name = true → (r.get name).isNull = false)

instance (t : Table) (rows : List Row) (name : String) : Decidable (ListsName t rows name) :=
  inferInstanceAs (Decidable (∃ r ∈ rows, r.contains name = true ∧
    (t.hasDefault name = true → (r.get name).isNull = false)))

/-- A row has the names that it gives values. -/
theorem contains_of_given {r : Row} {name : String} (h : (r.get name).isNull = false) :
    r.contains name = true := by
  by_contra hc
  rw [Row.get_of_not_contains (by simpa using hc)] at h
  cases h

theorem mem_keptNames {t : Table} {rows : List Row} {name : String} :
    name ∈ keptNames t rows ↔ ListsName t rows name := by
  have hnames : name ∈ names rows ↔ ∃ r ∈ rows, r.contains name = true := by
    simp [names, mem_distinct, Row.contains]
  unfold keptNames
  rw [List.mem_filter, hnames]
  constructor
  · rintro ⟨⟨r, hr, hcontains⟩, hkept⟩
    by_cases hdefault : t.hasDefault name = true
    · have hsome : ∃ r ∈ rows, (r.get name).isNull = false := by
        simpa [isOmitted, hdefault] using hkept
      obtain ⟨x, hx, hvalue⟩ := hsome
      exact ⟨x, hx, contains_of_given hvalue, fun _ => hvalue⟩
    · exact ⟨r, hr, hcontains, fun h => absurd h hdefault⟩
  · rintro ⟨r, hr, hcontains, hvalue⟩
    refine ⟨⟨r, hr, hcontains⟩, ?_⟩
    by_cases hdefault : t.hasDefault name = true
    · have hsome : ∃ r ∈ rows, (r.get name).isNull = false := ⟨r, hr, hvalue hdefault⟩
      simpa [isOmitted, hdefault] using hsome
    · simp [isOmitted, hdefault]

/-- What a row lists alone, it lists among others. -/
theorem ListsName.of_mem {t : Table} {rows : List Row} {r : Row} {name : String} (hr : r ∈ rows)
    (h : ListsName t [r] name) : ListsName t rows name := by
  obtain ⟨x, hx, hlisted⟩ := h
  rw [List.mem_singleton] at hx
  exact ⟨r, hr, hx ▸ hlisted⟩

end Batch

namespace Handle

open Batch Sql

variable {t : Table} {rows : List Row} {returned : Returned} {lenient : Bool}

theorem table_insertion : (insertion t rows returned lenient).table = t := by
  unfold insertion
  split <;> rfl

/-- The rows of an insert are the rows it was made of, with the listed names. -/
theorem rows_insertion (hne : rows ≠ []) : (insertion t rows returned lenient).rows =
    rows.map (fun r => r.pick (keptNames t rows) (nodup_keptNames t rows)) := by
  unfold insertion
  cases rows with
  | nil => exact absurd rfl hne
  | cons r rs => rfl

theorem contains_of_mem_rows (hne : rows ≠ []) {r : Row}
    (hr : r ∈ (insertion t rows returned lenient).rows) (name : String) :
    r.contains name = (keptNames t rows).contains name := by
  rw [rows_insertion hne] at hr
  obtain ⟨x, -, rfl⟩ := List.mem_map.mp hr
  exact Row.contains_pick _ name

theorem contains_first_insertion (hne : rows ≠ []) (name : String) :
    (insertion t rows returned lenient).first.contains name = (keptNames t rows).contains name :=
  contains_of_mem_rows hne List.mem_cons_self name

/-- **What an insert assigns to a column for a row**: the row's value when the rows list the
column, and else the default. -/
theorem assignedTo_insertion (hne : rows ≠ []) (r : Row) (name : String) :
    (insertion t rows returned lenient).assignedTo r name =
      (t.column? name).bind (fun c =>
        if ListsName t rows name then some (r.get name) else c.default) := by
  unfold Insert.assignedTo Insert.assigned Insert.source?
  rw [table_insertion]
  cases hcolumn : t.column? name with
  | none => rfl
  | some c =>
      have hname := Table.name_of_column? hcolumn
      simp only [Option.bind_some, hname, contains_first_insertion hne]
      by_cases hlists : ListsName t rows name
      · have hmem : (keptNames t rows).contains name = true := by
          simpa using mem_keptNames.mpr hlists
        rw [if_pos hmem, if_pos hlists]
        rfl
      · have hmem : ¬(keptNames t rows).contains name = true := by
          simpa using fun h => hlists (mem_keptNames.mp h)
        rw [if_neg hmem, if_neg hlists]
        cases c.default <;> rfl

/-- A row is assigned the same with all its names and with the listed ones. -/
theorem assignments_pick (hne : rows ≠ []) (r : Row) :
    (insertion t rows returned lenient).assignments
        (r.pick (keptNames t rows) (nodup_keptNames t rows)) =
      (insertion t rows returned lenient).assignments r := by
  unfold Insert.assignments
  congr 1
  funext c
  unfold Insert.assigned Insert.source?
  rw [contains_first_insertion hne]
  by_cases hmem : (keptNames t rows).contains c.name = true
  · rw [if_pos hmem]
    simp only [Option.map_some,
      Row.get_pick (nodup_keptNames t rows) (List.contains_iff_mem.mp hmem)]
  · rw [if_neg hmem]
    cases c.default <;> rfl

end Handle

namespace Sql

/-- What the driver is handed for the rows of an insert: the names of the assigned columns
in the text, and for each row the values that are read at their places in the same order.  Where
the columns are written apart these are the row's own. -/
structure Insert.HandsOver (x : Insert) (d : Dialect) (rows : List Row) (p : Prepared) : Prop where
  names : x.columns ≠ [] → ∃ lead tail, p.sql = lead ++ " (" ++
    ", ".intercalate (x.columns.map d.quoteName) ++ ") VALUES (" ++ tail
  served : List.Forall₂ (fun r vs => storedAll d (servedRow d (x.assignments r)) = .ok vs)
    rows p.rows
  values : x.PlacesApart →
    List.Forall₂ (fun r vs => storedAll d (x.assignments r) = .ok vs) rows p.rows

/-- Rows that are handed over as their places read them are handed over as their own values where
the columns are written apart. -/
theorem Insert.forall₂_of_served {x : Insert} {d : Dialect} (hplaces : x.PlacesApart)
    {rows : List Row} {rs : List (List Value)}
    (h : List.Forall₂ (fun r vs => storedAll d (servedRow d (x.assignments r)) = .ok vs) rows rs) :
    List.Forall₂ (fun r vs => storedAll d (x.assignments r) = .ok vs) rows rs :=
  h.imp fun r vs hr => by rwa [servedRow_assignments hplaces] at hr

theorem Statement.prepare_insert {d : Dialect} {x : Insert} {p : Prepared}
    (h : (Statement.insert x).prepare d = .ok p) : x.prepare d = .ok p := by
  unfold Statement.prepare at h
  split at h
  · exact h
  · cases h

end Sql

namespace Handle

open Batch Sql

variable {t : Table} {rows : List Row} {returned : Returned} {lenient : Bool}

/-- **An insert hands over what it assigns.** -/
theorem handsOver_insertion (hne : rows ≠ []) {d : Dialect} {p : Prepared}
    (h : (Statement.insert (insertion t rows returned lenient)).prepare d = .ok p) :
    (insertion t rows returned lenient).HandsOver d rows p := by
  have hprepare := Statement.prepare_insert h
  have hrows := Insert.rows_of_prepare hprepare (fun r hr n hn => by
    rw [contains_first_insertion hne] at hn
    rw [contains_of_mem_rows hne hr, hn])
  rw [rows_insertion hne, List.forall₂_map_left_iff] at hrows
  have hserved := hrows.imp (fun r vs hr => by rwa [assignments_pick hne] at hr)
  exact ⟨Insert.names_in_text hprepare, hserved,
    fun hplaces => Insert.forall₂_of_served hplaces hserved⟩

/-! ### Alone and among others -/

/-- How the assignments of a row in an insert of several relate to those of `alone`: the
columns that `alone` lists, and those that are listed in neither, are assigned the same, and a
column that only the other rows list is null instead of left to its default. -/
structure AgreesExcept (x : Insert) (rows : List Row) (alone : Insert) (r : Row) : Prop where
  same : ∀ n, ListsName alone.table [r] n ∨ ¬ ListsName x.table rows n →
    x.assignedTo r n = alone.assignedTo r n
  null : ∀ n, ¬ ListsName alone.table [r] n → ListsName x.table rows n →
    x.assignedTo r n = (x.table.column? n).map (fun _ => .null) ∧
      alone.assignedTo r n = (alone.table.column? n).bind (·.default)

/-- Whether a table for several rows and one for a single row of them know the same columns,
apart from columns of which only the name is known. -/
inductive SameColumns (r : Row) : Table → Table → Prop
  | refl (t : Table) : SameColumns r t t
  | named (name : String) {ns : List String} (h : ∀ n ∈ r.names, n ∈ ns) :
      SameColumns r (.named name ns) (.named name r.names)

theorem column?_named {name : String} {ns : List String} {n : String} :
    (Table.named name ns).column? n = if n ∈ ns then some (.untyped n) else none := by
  unfold Table.named Table.column?
  induction ns with
  | nil => rfl
  | cons m ns ih =>
      by_cases hm : m = n
      · simp [TableColumn.untyped, hm]
      · have hfind : ((TableColumn.untyped m).name == n) = false := by
          simpa [TableColumn.untyped] using hm
        simp only [List.map_cons, List.find?_cons, hfind]
        rw [ih]
        simp [Ne.symm hm]

theorem hasDefault_named (name : String) (ns : List String) (n : String) :
    (Table.named name ns).hasDefault n = false := by
  rw [Table.hasDefault, column?_named]
  split <;> simp [TableColumn.untyped, TableColumn.hasDefault]

variable {r : Row} {t' : Table}

theorem SameColumns.lists_iff (h : SameColumns r t t') (n : String) :
    ListsName t rows n ↔ ListsName t' rows n := by
  cases h with
  | refl => exact Iff.rfl
  | named name h => simp [ListsName, hasDefault_named]

/-- A column that a row has is a column of both tables or of neither. -/
theorem SameColumns.column?_of_contains (h : SameColumns r t t') {n : String}
    (hn : r.contains n = true) : t.column? n = t'.column? n := by
  cases h with
  | refl => rfl
  | named name h =>
      have hmem : n ∈ r.names := by simpa [Row.contains] using hn
      rw [column?_named, column?_named, if_pos hmem, if_pos (h n hmem)]

theorem SameColumns.default_eq (h : SameColumns r t t') (n : String) :
    (t.column? n).bind (·.default) = (t'.column? n).bind (·.default) := by
  cases h with
  | refl => rfl
  | named name h =>
      have hnone : ∀ ns : List String,
          ((Table.named name ns).column? n).bind (·.default) = none := by
        intro ns
        rw [column?_named]
        split <;> rfl
      rw [hnone, hnone]

/-- **A row among others agrees with the row alone, except for what only the others list.** -/
theorem agreesExcept (h : SameColumns r t t') (hr : r ∈ rows) {returned' : Returned}
    {lenient' : Bool} :
    AgreesExcept (insertion t rows returned lenient) rows
      (insertion t' [r] returned' lenient') r := by
  classical
  have hne : rows ≠ [] := List.ne_nil_of_mem hr
  have halone : ∀ n, ListsName t' [r] n → ListsName t rows n := fun n hn =>
    ((h.lists_iff n).mpr hn).of_mem hr
  refine ⟨fun n hn => ?_, fun n hnot hn => ?_⟩
  · rw [table_insertion, table_insertion] at hn
    rw [assignedTo_insertion hne, assignedTo_insertion (List.cons_ne_nil _ _)]
    by_cases hlisted : ListsName t' [r] n
    · have hcontains : r.contains n = true := by
        obtain ⟨x, hx, hc, -⟩ := hlisted
        rwa [List.mem_singleton.mp hx] at hc
      simp only [hlisted, halone n hlisted, if_true, h.column?_of_contains hcontains]
    · have hnotListed : ¬ ListsName t rows n := hn.resolve_left hlisted
      simp only [hlisted, hnotListed, if_false]
      exact h.default_eq n
  · rw [table_insertion] at hnot
    rw [table_insertion] at hn
    rw [assignedTo_insertion hne, assignedTo_insertion (List.cons_ne_nil _ _), table_insertion,
      table_insertion]
    simp only [hn, hnot, if_true, if_false, and_true]
    -- A column that the row does not list alone is null in the row.
    have hnull : (t.column? n).isSome = true → r.get n = .null := by
      intro hcolumn
      by_cases hcontains : r.contains n = true
      · have hlost : ¬(t'.hasDefault n = true → (r.get n).isNull = false) := fun hgiven =>
          hnot ⟨r, List.mem_singleton_self r, hcontains, hgiven⟩
        have hisNull : (r.get n).isNull = true := by
          by_contra hc
          exact hlost (fun _ => by simpa using hc)
        exact Value.eq_null_of_isNull hisNull
      · exact Row.get_of_not_contains (by simpa using hcontains)
    cases hcolumn : t.column? n with
    | none => rfl
    | some c => simp [hnull (by simp [hcolumn])]

/-- What a row gives a value is assigned that value by every insert whose table has the
column. -/
theorem assignedTo_of_given (hr : r ∈ rows) {n : String} (hgiven : (r.get n).isNull = false) :
    (insertion t rows returned lenient).assignedTo r n =
      (t.column? n).map (fun _ => r.get n) := by
  have hlists : ListsName t rows n := ⟨r, hr, contains_of_given hgiven, fun _ => hgiven⟩
  rw [assignedTo_insertion (List.ne_nil_of_mem hr)]
  cases t.column? n with
  | none => rfl
  | some c => simp [hlists]

/-- A strict insert is only prepared when its table has every column that is listed. -/
theorem column?_of_prepare {d : Dialect} {p : Prepared} {n : String} (hr : r ∈ rows)
    (h : (Statement.insert (insertion t rows returned false)).prepare d = .ok p)
    (hgiven : (r.get n).isNull = false) : (t.column? n).isSome = true := by
  have hne : rows ≠ [] := List.ne_nil_of_mem hr
  have hlenient : (insertion t rows returned false).lenient = false := by
    unfold insertion
    split <;> rfl
  have hunknown : (insertion t rows returned false).first.names.filter
      (fun n => (t.column? n).isNone) = [] := by
    unfold Statement.prepare at h
    split at h
    · rename_i hnil
      rwa [Statement.unknownColumns, hlenient, if_neg (by simp), table_insertion] at hnil
    · cases h
  have hmem : n ∈ (insertion t rows returned false).first.names := by
    have hfirst : (insertion t rows returned false).first.contains n =
        (keptNames t rows).contains n :=
      contains_first_insertion hne n
    have hkept : n ∈ keptNames t rows := mem_keptNames.mpr
      ⟨r, hr, contains_of_given hgiven, fun _ => hgiven⟩
    rw [List.contains_iff_mem.mpr hkept] at hfirst
    simpa [Row.contains] using hfirst
  have hnone := List.filter_eq_nil_iff.mp hunknown n hmem
  simpa [Option.isSome_iff_ne_none] using hnone

/-- A row inserted alone by either is assigned the same. -/
theorem AgreesExcept.of_singleton {x alone : Insert} (h : AgreesExcept x [r] alone r)
    (hlists : ∀ n, ListsName x.table [r] n ↔ ListsName alone.table [r] n) (n : String) :
    x.assignedTo r n = alone.assignedTo r n := by
  refine h.same n ?_
  rw [hlists n]
  exact Decidable.em _

end Handle

end TableQuery
