/-
The rows of an insert against the records they are made of.

A driver takes the columns of an insert of several rows from the first of them, so rows with
different names would have values dropped or shifted.  That cannot happen: every row gets the
same names in the same order, those of all records as they first appear, and what is left out
of them is null in every record and filled in by the table (`Batch.Uniform`).  A record is an
entity, whose values stand under the attributes of its columns, or a row that stands for
itself, and the two may be mixed.
-/
import TableQuery.Proofs.Handle.Inserting
import TableQuery.Proofs.Records

namespace TableQuery

/-! ### First appearance -/

/-- Names without repetition stand in the order in which they first appear. -/
theorem pairwise_distinct (names : List String) :
    (distinct names).Pairwise (fun a b => names.idxOf a < names.idxOf b) := by
  induction names with
  | nil => exact List.Pairwise.nil
  | cons a as ih =>
      have hne : ∀ b ∈ (distinct as).filter (fun b => b != a), b ≠ a := fun b hb => by
        simpa using (List.mem_filter.mp hb).2
      refine List.Pairwise.cons (fun b hb => ?_) ?_
      · rw [List.idxOf_cons_self, List.idxOf_cons_ne as (hne b hb).symm]
        exact Nat.succ_pos _
      · refine (ih.filter _).imp_of_mem fun {b c} hb hc h => ?_
        rw [List.idxOf_cons_ne as (hne b hb).symm, List.idxOf_cons_ne as (hne c hc).symm]
        exact Nat.succ_lt_succ h

/-! ### Records by column -/

namespace Record

/-- Whether a record can be written: an entity has to be of a mapped model. -/
def IsMapped : Record → Prop
  | entity e => e.model.mapping.isSome = true
  | row _ => True

/-- The columns that a record has. -/
def names : Record → List String
  | entity e => (e.model.mapping.map (·.columns.map (·.name))).getD []
  | row r => r.names

/-- What a record has under a column, null when it has none: an entity has it under the
attribute of the column. -/
def value (x : Record) (column : String) : Value :=
  match x with
  | entity e => ((e.model.mapping.bind (·.attr? column)).map e.get).getD .null
  | row r => (r.get? column).getD .null

variable {x : Record} {r : Row}

/-- A record that can be written is a row. -/
theorem toRow_of_isMapped (h : x.IsMapped) : ∃ r, x.toRow = .ok r := by
  cases x with
  | row r => exact ⟨r, rfl⟩
  | entity e =>
      obtain ⟨m, hm⟩ := Option.isSome_iff_exists.mp h
      exact ⟨Entity.rowOf m e, by rw [toRow, Entity.toRow, hm]⟩

/-- An entity that is a row is one of a mapped model, and has the row of the mapping. -/
theorem eq_rowOf_of_toRow {e : Entity} (h : (entity e).toRow = .ok r) :
    ∃ m, e.model.mapping = some m ∧ r = Entity.rowOf m e := by
  rw [toRow, Entity.toRow] at h
  cases hm : e.model.mapping with
  | none => rw [hm] at h; cases h
  | some m => rw [hm] at h; exact ⟨m, rfl, (Except.ok.inj h).symm⟩

/-- The row of a record has the record's columns in their order. -/
theorem names_of_toRow (h : x.toRow = .ok r) : r.names = x.names := by
  cases x with
  | row r' => rw [Except.ok.inj h, names]
  | entity e =>
      obtain ⟨m, hm, rfl⟩ := eq_rowOf_of_toRow h
      simp [names, hm, Entity.names_rowOf, Mapping.table, Table.columnNames, Function.comp_def]

/-- The row of a record has the record's values. -/
theorem get_of_toRow (h : x.toRow = .ok r) (column : String) : r.get column = x.value column := by
  cases x with
  | row r' => rw [Except.ok.inj h, value, Row.get]
  | entity e =>
      obtain ⟨m, hm, rfl⟩ := eq_rowOf_of_toRow h
      rw [value, hm, Option.bind_some]
      cases hattr : m.attr? column with
      | some a =>
          obtain ⟨c, hc, rfl, rfl⟩ := Mapping.attr?_eq_some_iff.mp hattr
          exact Entity.get_rowOf e hc
      | none =>
          refine Row.get_of_not_contains (Bool.eq_false_iff.mpr fun hcontains => ?_)
          -- A name of the row is the name of a column, which has an attribute.
          have hmem : column ∈ (Entity.rowOf m e).entries.map Prod.fst :=
            List.contains_iff_mem.mp hcontains
          rw [Entity.rowOf, List.map_map] at hmem
          obtain ⟨c, hc, rfl⟩ := List.mem_map.mp hmem
          rw [Function.comp_apply, Mapping.attr?_name hc] at hattr
          cases hattr

end Record

/-! ### The rows of an insert -/

namespace Batch

variable {t : Table} {rows : List Row} {records : List Record}

/-- Whether a table fills a column in that a row leaves out: it is part of the key, or has a
default on either side. -/
def FillsIn (t : Table) (column : String) : Prop :=
  ∃ c, t.column? column = some c ∧
    (c.isKey = true ∨ c.default.isSome = true ∨ c.serverDefault = true)

theorem hasDefault_iff_fillsIn {column : String} :
    t.hasDefault column = true ↔ FillsIn t column := by
  unfold Table.hasDefault FillsIn TableColumn.hasDefault
  cases t.column? column <;> simp [or_assoc]

/-- What a row of an insert is to the record it is made of, when `kept` are its names. -/
structure Keeps (kept : List String) (x : Record) (r : Row) : Prop where
  /-- The row has the kept names in order, each with what the record has under it. -/
  entries : r.entries = kept.map (fun n => (n, x.value n))
  /-- No value of the record is lost. -/
  given : ∀ n, x.value n ≠ .null → r.get? n = some (x.value n)

/-- What the rows of an insert into a table are to the records they are made of, when `kept` are
their names. -/
structure Uniform (t : Table) (records : List Record) (kept : List String) (rows : List Row) :
    Prop where
  /-- There is a row for each record, in order. -/
  keeps : List.Forall₂ (Keeps kept) records rows
  /-- No name stands twice. -/
  nodup : kept.Nodup
  /-- The names stand in the order in which the records first have them. -/
  ordered : kept.Pairwise (fun a b =>
    (records.flatMap Record.names).idxOf a < (records.flatMap Record.names).idxOf b)
  /-- Every name of a record is kept, unless the table fills it in and all records leave it
  null. -/
  kept_iff : ∀ n, n ∈ kept ↔ (∃ x ∈ records, n ∈ x.names) ∧
    ¬(FillsIn t n ∧ ∀ x ∈ records, x.value n = .null)

/-- Rows by the records they are made of. -/
abbrev RowsOf (records : List Record) (rows : List Row) : Prop :=
  List.Forall₂ (fun x r => x.toRow = .ok r) records rows

theorem rowsOf_of_collect (h : ∀ x ∈ records, x.IsMapped) :
    ∃ rows, collect Item.toRow (records.map some) = .ok rows ∧ RowsOf records rows := by
  induction records with
  | nil => exact ⟨[], rfl, .nil⟩
  | cons x xs ih =>
      obtain ⟨r, hr⟩ := Record.toRow_of_isMapped (h x List.mem_cons_self)
      obtain ⟨rs, hcollect, hrs⟩ := ih fun y hy => h y (List.mem_cons_of_mem x hy)
      exact ⟨r :: rs, collect_cons_eq_ok.mpr ⟨r, rs, hr, hcollect, rfl⟩, .cons hr hrs⟩

/-- The rows of records have the records' names, one after another. -/
theorem flatMap_names (h : RowsOf records rows) :
    rows.flatMap Row.names = records.flatMap Record.names := by
  induction h with
  | nil => rfl
  | cons hr _ ih => rw [List.flatMap_cons, List.flatMap_cons, Record.names_of_toRow hr, ih]

/-- All rows leave a name null when all records do. -/
theorem forall_null_iff (h : RowsOf records rows) (n : String) :
    (∀ r ∈ rows, (r.get n).isNull = true) ↔ ∀ x ∈ records, x.value n = .null := by
  induction h with
  | nil => simp
  | @cons x r _ _ hr _ ih =>
      have hnull : (r.get n).isNull = true ↔ x.value n = .null := by
        rw [Record.get_of_toRow hr]
        exact ⟨Value.eq_null_of_isNull, fun h => by rw [h]; rfl⟩
      rw [List.forall_mem_cons, List.forall_mem_cons, hnull, ih]

/-- Which names are kept, by the records. -/
theorem mem_keptNames_iff (h : RowsOf records rows) (n : String) :
    n ∈ keptNames t rows ↔ (∃ x ∈ records, n ∈ x.names) ∧
      ¬(FillsIn t n ∧ ∀ x ∈ records, x.value n = .null) := by
  have homitted : isOmitted t rows n = true ↔ FillsIn t n ∧ ∀ x ∈ records, x.value n = .null := by
    rw [isOmitted, Bool.and_eq_true, hasDefault_iff_fillsIn, List.all_eq_true, forall_null_iff h]
  have hnames : n ∈ names rows ↔ ∃ x ∈ records, n ∈ x.names := by
    rw [names, mem_distinct, flatMap_names h, List.mem_flatMap]
  rw [keptNames, List.mem_filter, hnames, Bool.not_eq_true', ← Bool.not_eq_true, homitted]

theorem ordered_keptNames (h : RowsOf records rows) : (keptNames t rows).Pairwise (fun a b =>
    (records.flatMap Record.names).idxOf a < (records.flatMap Record.names).idxOf b) := by
  rw [← flatMap_names h]
  exact (pairwise_distinct _).filter _

/-- A row that is cut to names keeps them all, and the record's values when those are among
them. -/
theorem keeps_pick {x : Record} {r : Row} (h : x.toRow = .ok r) {kept : List String}
    (nodup : kept.Nodup) (hgiven : ∀ n, x.value n ≠ .null → n ∈ kept) :
    Keeps kept x (r.pick kept nodup) := by
  refine ⟨List.map_congr_left fun n _ => by rw [Record.get_of_toRow h], fun n hn => ?_⟩
  have hcontains : (r.pick kept nodup).contains n = true := by
    rw [Row.contains_pick]
    exact List.contains_iff_mem.mpr (hgiven n hn)
  rw [Row.get?_of_contains hcontains, Row.get_pick nodup (hgiven n hn), Record.get_of_toRow h]

/-- What a record gives a value is kept. -/
theorem mem_keptNames_of_value (h : RowsOf records rows) {x : Record} (hx : x ∈ records)
    {n : String} (hn : x.value n ≠ .null) : n ∈ keptNames t rows := by
  obtain ⟨r, hr, htoRow⟩ := exists_of_forall₂ h hx
  have hgiven : (r.get n).isNull = false := by
    rw [Record.get_of_toRow htoRow]
    cases hv : x.value n <;> first | rfl | exact absurd hv hn
  exact mem_keptNames.mpr ⟨r, hr, contains_of_given hgiven, fun _ => hgiven⟩

/--
**The rows of an insert are uniform, and nothing is lost.**

Records of mapped models and rows, mixed in any way and with any names, make a row each in
order.  All rows have the same names, in the order in which the records first have them; a name
is left out exactly when the table has a column of that name that is part of the key or has a
default, and every record leaves it null or lacks it; and under each kept name a row has what
its record has, null where the record lacks it.
-/
theorem uniform_of_records (t : Table) (records : List Record)
    (h : ∀ x ∈ records, x.IsMapped) :
    ∃ kept rows, (collect Item.toRow (records.map some)).map (uniform t) = .ok rows ∧
      Uniform t records kept rows := by
  obtain ⟨given, hcollect, hgiven⟩ := rowsOf_of_collect h
  have nodup : (keptNames t given).Nodup := nodup_keptNames t given
  refine ⟨keptNames t given, uniform t given, by rw [hcollect]; rfl, ?_⟩
  constructor
  case keeps =>
    have hkept : List.Forall₂ (fun x r => (∀ n, x.value n ≠ .null → n ∈ keptNames t given) ∧
        x.toRow = .ok r) records given :=
      (List.forall₂_and_left _ _).mpr
        ⟨fun x hx n hn => mem_keptNames_of_value hgiven hx hn, hgiven⟩
    exact List.forall₂_map_right_iff.mpr (hkept.imp fun x r hr => keeps_pick hr.2 nodup hr.1)
  case nodup => exact nodup
  case ordered => exact ordered_keptNames hgiven
  case kept_iff => exact mem_keptNames_iff hgiven

/-- A user without an identity beside a row with names of its own: the key and the status, which
the database fills in, are left out, the flag that only the row gives is null for the user. -/
theorem uniform_of_records_mixed :
    let user : Entity := ⟨Catalog.user, .ofList [("age", .int 3), ("email", .text "a")]⟩
    let row : Row := .ofList [("note", .text "b"), ("deleted", .bool true), ("status", .null)]
    let records : List Record := [.entity user, .row row]
    let t : Table := (Catalog.user.mapping.get rfl).table
    ∃ kept rows, Uniform t records kept rows ∧
      rows.map (·.entries) =
        [[("email", .text "a"), ("name", .null), ("age", .int 3), ("deleted", .null),
            ("note", .null)],
          [("email", .null), ("name", .null), ("age", .null), ("deleted", .bool true),
            ("note", .text "b")]] := by
  intro user row records t
  have hmapped : ∀ x ∈ records, x.IsMapped := by
    simp [records, user, Record.IsMapped, Catalog.user]
  obtain ⟨kept, rows, hrows, huniform⟩ := uniform_of_records t records hmapped
  refine ⟨kept, rows, huniform, ?_⟩
  rw [← Except.ok.inj hrows]
  rfl

end Batch

end TableQuery
