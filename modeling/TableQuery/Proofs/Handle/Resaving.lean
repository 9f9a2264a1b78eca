/-
Saving a record whose row is there, or is not.

`save` looks for the row of a record by overwriting it, and inserts the record when no row was
found.  So there are two statements that could each have left the row, and they are
built by different rules: the first assigns every column of the record that is no part of the
key, and to the others what they have for updates, the second leaves a column that the record
leaves null to its default, if it has one.  `AssignsRow` compares the two column by column, for
whatever nulls and defaults there are, and `SavesRow` says when each is sent.  That the second one
is sent at all rests on the first: the same names stand in both, and the first has been written
(`prepare_alone`).
-/
import TableQuery.Proofs.Handle.Chunking
import TableQuery.Proofs.Handle.Upserting
import TableQuery.Proofs.Sql.Writing

namespace TableQuery

namespace Sql

/-- The row that an insert leaves, where `filled` is what the database puts into the columns
that it is not given. -/
def Insert.stores (x : Insert) (r : Row) (filled : String → Value) : String → Value :=
  fun n => (x.assignedTo r n).getD (filled n)

/-- What a statement makes of a row that is there. -/
def Statement.overwrites (x : Statement) (stored : String → Value) : String → Value :=
  fun n => (x.assignedTo n).getD (stored n)

end Sql

namespace Handle

open Run Session Batch Sql

variable {s : Session} {h : Handle} {t : Table} {i : Item} {r key values : Row}

/-! ### The insert can be sent -/

/-- Whether the insert of a row can take it: each column has a place of its own, the values can
be stored, and a column that the row lacks and that has a default has a name. -/
structure Fits (x : Insert) (d : Dialect) (r : Row) : Prop where
  apart : x.PlacesApart
  named : ∀ n ∈ x.columns, r.contains n = false → n ≠ ""
  stored : ∃ vs, storedAll d (x.assignments r) = .ok vs

theorem isConstant_keyTest (t : Table) (n : String) (v : Value) :
    (keyTest t n v).isConstant = false := by
  unfold keyTest
  cases v <;> rfl

theorem mentions_keyTest (t : Table) (n : String) (v : Value) :
    ∃ vs, (keyTest t n v).mentions = [⟨keyColumn t n, false, vs⟩] := by
  unfold keyTest
  cases v <;> exact ⟨_, rfl⟩

/-- The test for an identity mentions every column of it. -/
theorem mentions_identityTest {n : String} (hn : n ∈ key.names) :
    ∃ x ∈ (identityTest t key).mentions, x.column.name = n := by
  obtain ⟨e, he, rfl⟩ := List.mem_map.mp hn
  obtain ⟨vs, hvs⟩ := mentions_keyTest t e.1 e.2
  refine ⟨⟨keyColumn t e.1, false, vs⟩, ?_, rfl⟩
  rw [identityTest, Expr.mentions_join _ (fun x hx => ?_)]
  · exact List.mem_flatMap.mpr ⟨_, List.mem_map.mpr ⟨e, he, rfl⟩, hvs ▸ List.mem_singleton_self _⟩
  · obtain ⟨e', -, rfl⟩ := List.mem_map.mp hx
    exact isConstant_keyTest t e'.1 e'.2

/-- The condition of a statement about the row of a key names the columns of the key. -/
theorem name_mem_identityTest {d : Dialect} {n : String} (hn : n ∈ key.names) :
    .name n ∈ (identityTest t key).asCondition.pieces d := by
  obtain ⟨x, hx, rfl⟩ := mentions_identityTest (t := t) hn
  rw [← Expr.mentions_asCondition] at hx
  exact Expr.name_mem_pieces hx

/-- **What overwriting a row tells of its names**, once it has been prepared. -/
structure NamesRow (t : Table) (key values : Row) : Prop where
  table : t.name ≠ ""
  key : ∀ n ∈ key.names, n ≠ ""
  values : ∀ n ∈ values.names, n ≠ "" ∧ (t.column? n).isSome = true

theorem namesRow_of_prepare {d : Dialect} {p : Prepared}
    (hp : (overwriting t key values).prepare d = .ok p) : NamesRow t key values := by
  have hkeys : Named ((identityTest t key).asCondition.pieces d) → ∀ n ∈ key.names, n ≠ "" := by
    intro hnamed n hn hempty
    exact hnamed _ (name_mem_identityTest hn) (by rw [hempty])
  unfold overwriting at hp
  by_cases hempty : values.isEmpty = true
  · rw [if_pos hempty] at hp
    have hnamed : Named (Select.pieces d ⟨t, .count, some (identityTest t key), [], none, none⟩) :=
      named_of_prepareAfter hp
    simp only [Named, Select.pieces, Select.coreParts, conditionPieces, List.cons_append,
      List.forall_mem_cons, List.forall_mem_append] at hnamed
    obtain ⟨-, ⟨⟨⟨-, -, htables⟩, -, hcondition⟩, -⟩, -⟩ := hnamed
    have htable : .name t.name ∈
        nameList (t.name :: Expr.foreignTables t.name (identityTest t key)) :=
      mem_separated List.mem_cons_self (List.mem_singleton_self _)
    refine ⟨fun hname => htables _ htable (by rw [hname]), hkeys hcondition, ?_⟩
    rw [Row.names, List.isEmpty_iff.mp hempty]
    simp
  · rw [if_neg hempty] at hp
    have hnamed := named_of_prepareAfter
      (Update.prepareOne_of_prepare (foreignTables_identityTest t key) hp)
    simp only [Named, Update.plainLead, List.cons_append, List.append_assoc, List.forall_mem_cons,
      List.forall_mem_append] at hnamed
    obtain ⟨-, htable, -, hassigned, -, -, hcondition⟩ := hnamed
    have hunknown : values.names.filter (fun n => (t.column? n).isNone) = [] := by
      unfold Statement.prepare at hp
      split at hp
      · assumption
      · cases hp
    refine ⟨fun hname => htable (by rw [hname]), hkeys hcondition, fun n hn => ?_⟩
    have hcolumn : (t.column? n).isSome = true := by
      have hnone := List.filter_eq_nil_iff.mp hunknown n hn
      simpa [Option.isSome_iff_ne_none] using hnone
    refine ⟨fun hname => ?_, hcolumn⟩
    obtain ⟨c, hc⟩ := Option.isSome_iff_exists.mp hcolumn
    have hvalue : values.get? c.name = some (values.get n) := by
      rw [Table.name_of_column? hc]
      exact Row.get?_of_contains (List.contains_iff_mem.mpr hn)
    refine hassigned (.name c.name) (mem_separated (List.mem_map.mpr
      ⟨⟨c.name, c.type, values.get n⟩, ?_, rfl⟩) List.mem_cons_self)
      (by rw [Table.name_of_column? hc, hname])
    exact List.mem_filterMap.mpr ⟨c, List.mem_of_find?_eq_some hc, by
      rw [Update.valueFor_eq_some.mpr (.inl hvalue)]
      rfl⟩

variable {d : Dialect}

theorem listsName_singleton {n : String} : ListsName t [r] n ↔
    r.contains n = true ∧ (t.hasDefault n = true → (r.get n).isNull = false) := by
  simp [ListsName]

/-- A column of the key is a column of the table. -/
theorem exists_keyColumn {n : String} (hn : n ∈ t.keyNames) :
    ∃ c ∈ t.columns, c.isKey = true ∧ c.name = n := by
  obtain ⟨c, hc, rfl⟩ := List.mem_map.mp hn
  obtain ⟨hcolumn, hkey⟩ := List.mem_filter.mp hc
  exact ⟨c, hcolumn, hkey, rfl⟩

theorem column?_of_mem_keyNames {n : String} (hn : n ∈ t.keyNames) :
    (t.column? n).isSome = true := by
  obtain ⟨c, hc, -, rfl⟩ := exists_keyColumn hn
  rw [Table.column?_isSome, List.contains_iff_mem]
  exact List.mem_map.mpr ⟨c, hc, rfl⟩

/-- A name of a row is one that overwriting the row tells of. -/
theorem NamesRow.of_contains (h : NamesRow t key (withoutIdentity key r))
    (hnames : key.names = t.keyNames) {n : String} (hn : r.contains n = true) :
    n ≠ "" ∧ (t.column? n).isSome = true := by
  by_cases hkey : n ∈ key.names
  · exact ⟨h.key n hkey, column?_of_mem_keyNames (hnames ▸ hkey)⟩
  · refine h.values n ?_
    obtain ⟨e, he, rfl⟩ := List.mem_map.mp (List.contains_iff_mem.mp hn)
    have hkept : (!key.contains e.1) = true := by
      rw [Row.contains]
      simpa using hkey
    exact List.mem_map.mpr ⟨e, List.mem_filter.mpr ⟨he, hkept⟩, rfl⟩

section

variable (hgiven : ∀ n ∈ t.keyNames, (r.get n).isNull = false)

include hgiven

/-- A row that gives the key is inserted with its own key. -/
theorem source?_of_isKey {c : TableColumn} (hc : c ∈ t.columns) (hkey : c.isKey = true) :
    (insertion t [r] .key false).source? c = some .row := by
  have hn : c.name ∈ t.keyNames := List.mem_map.mpr ⟨c, List.mem_filter.mpr ⟨hc, hkey⟩, rfl⟩
  have hlists : ListsName t [r] c.name :=
    listsName_singleton.mpr ⟨contains_of_given (hgiven _ hn), fun _ => hgiven _ hn⟩
  rw [Insert.source?, contains_first_insertion (List.cons_ne_nil _ _), if_pos]
  exact List.contains_iff_mem.mpr (mem_keptNames.mpr hlists)

/-- So nothing is asked of the database. -/
theorem returnedColumns_of_given : (insertion t [r] .key false).returnedColumns d = [] := by
  rw [Insert.returnedColumns]
  split
  · rw [table_insertion, List.filter_eq_nil_iff]
    intro c hc hreturned
    obtain ⟨hleft, hkey, -⟩ : ((insertion t [r] .key false).source? c).isNone = true ∧
        c.isKey = true ∧ (c.autoincrement = true ∨ c.serverDefault = true) := by
      simpa [Insert.isReturned, insertion, uniform] using hreturned
    rw [source?_of_isKey hgiven hc hkey] at hleft
    cases hleft
  · rfl

theorem columns_ne_nil_of_given (hkeyed : t.keyNames ≠ []) :
    (insertion t [r] .key false).columns ≠ [] := by
  obtain ⟨n, hn⟩ := List.exists_mem_of_ne_nil _ hkeyed
  obtain ⟨c, hc, hkey, -⟩ := exists_keyColumn hn
  refine List.ne_nil_of_mem (a := c.name) (List.mem_map.mpr ⟨(c, .row), ?_, rfl⟩)
  rw [Insert.written, table_insertion]
  exact List.mem_filterMap.mpr ⟨c, hc, by rw [source?_of_isKey hgiven hc hkey]; rfl⟩

/-- **The insert of a row can be prepared when overwriting the row could**, and it can take
the row. -/
theorem prepare_alone {p : Prepared} (hnames : key.names = t.keyNames) (hkeyed : t.keyNames ≠ [])
    (hp : (overwriting t key (withoutIdentity key r)).prepare d = .ok p)
    (hfits : Fits (insertion t [r] .key false) d r) :
    ∃ p', (Statement.insert (insertion t [r] .key false)).prepare d = .ok p' := by
  have hne : [r] ≠ [] := List.cons_ne_nil _ _
  have hnamesRow := namesRow_of_prepare hp
  have hfirst : ∀ n, (insertion t [r] .key false).first.contains n = true →
      r.contains n = true := by
    intro n hn
    rw [contains_first_insertion hne, List.contains_iff_mem, mem_keptNames] at hn
    exact (listsName_singleton.mp hn).1
  have hunknown : (Statement.insert (insertion t [r] .key false)).unknownColumns = [] := by
    show List.filter (fun n => ((insertion t [r] .key false).table.column? n).isNone)
      (insertion t [r] .key false).first.names = []
    rw [List.filter_eq_nil_iff]
    intro n hn
    have hcolumn := (hnamesRow.of_contains hnames (hfirst n (List.contains_iff_mem.mpr hn))).2
    simpa [table_insertion, Option.isSome_iff_ne_none] using hcolumn
  have hcolumns : ∀ n ∈ (insertion t [r] .key false).columns, n ≠ "" := by
    intro n hn
    by_cases hcontains : r.contains n = true
    · exact (hnamesRow.of_contains hnames hcontains).1
    · exact hfits.named n hn (Bool.eq_false_iff.mpr hcontains)
  have hrows : ∀ r' ∈ (insertion t [r] .key false).rows, ∀ n,
      (insertion t [r] .key false).first.contains n = true → r'.contains n = true := by
    intro r' hr' n hn
    rw [contains_of_mem_rows hne hr', ← contains_first_insertion hne, hn]
  obtain ⟨vs, hvs⟩ := hfits.stored
  have hstored : collect (storedAll d) ((insertion t [r] .key false).rows.map
      (insertion t [r] .key false).assignments) = .ok [vs] := by
    rw [rows_insertion hne, List.map_map, List.map_singleton, Function.comp_apply,
      assignments_pick hne]
    simp only [collect, hvs, Except.map]
  obtain ⟨p', hp'⟩ := Insert.prepare_ok rfl (returnedColumns_of_given hgiven)
    (by rw [table_insertion]; exact hnamesRow.table) (columns_ne_nil_of_given hgiven hkeyed)
    hcolumns hfits.apart hrows hstored
  exact ⟨p', by rw [Statement.prepare, hunknown]; exact hp'⟩

end

/-! ### The two statements -/

/-- Whether a record leaves a column null that has a default. -/
def LeavesToDefault (t : Table) (r : Row) (n : String) : Prop :=
  r.contains n = true ∧ t.hasDefault n = true ∧ (r.get n).isNull = true

instance (t : Table) (r : Row) (n : String) : Decidable (LeavesToDefault t r n) :=
  inferInstanceAs (Decidable (_ ∧ _ ∧ _))

/-- How saving a row goes: `first` looks for the row that is there by overwriting it, and `alone`
inserts the row where there is none. -/
structure SavesRow (s : Session) (h : Handle) (i : Item) (t : Table) (r : Row) (first : PlanStep)
    (alone : Insert) : Prop where
  /-- The row is looked for by its whole key. -/
  pins : ∃ e, PinsKey t r e ∧ ((∃ values, first.statement = .update ⟨t, values, e⟩) ∨
    first.statement = .select ⟨t, .count, some e, [], none, none⟩)
  /-- When a row is found, nothing more is sent. -/
  found : ∀ c p reply rest, c.outcomes = .reply reply :: rest →
    first.statement.prepare s.dialect = .ok p → first.read reply = .ok () →
    first.statement.finds reply = true →
    (h.save s i c).1 = .ok i ∧ (h.save s i c).2.sent = c.sent ++ [⟨first.statement, p⟩]
  /-- When no row is found, the insert is sent and nothing more. -/
  missing : ∀ c p reply rest, c.outcomes = .reply reply :: rest →
    first.statement.prepare s.dialect = .ok p → first.read reply = .ok () →
    first.statement.finds reply = false → rest.head? ≠ some .cancel → Fits alone s.dialect r →
    ∃ p', (Statement.insert alone).prepare s.dialect = .ok p' ∧
      (h.save s i c).2.sent = c.sent ++ [⟨first.statement, p⟩, ⟨.insert alone, p'⟩]
  /-- The driver gets what is assigned. -/
  overwrites : ∀ u p, first.statement = .update u → first.statement.prepare s.dialect = .ok p →
    u.HandsOver s.dialect p
  inserts : ∀ p, (Statement.insert alone).prepare s.dialect = .ok p →
    alone.HandsOver s.dialect [r] p

/-- How what `first` assigns to the row that is there relates to what `alone` assigns to a new
one. -/
structure AssignsRow (t : Table) (r : Row) (first : Statement) (alone : Insert) : Prop where
  /-- The key is assigned in a new row only, but for what it has for updates. -/
  key : ∀ n ∈ t.keyNames, first.assignedTo n = first.onUpdate? n ∧
    alone.assignedTo r n = some (r.get n)
  /-- The other columns are assigned the same, null or not. -/
  same : ∀ n ∉ t.keyNames, r.contains n = true → ¬ LeavesToDefault t r n →
    first.assignedTo n = (t.column? n).map (fun _ => r.get n) ∧
      alone.assignedTo r n = first.assignedTo n
  /-- A column with a default that the row leaves null is null in a row that is there, and has
  its default in a new one. -/
  omitted : ∀ n, LeavesToDefault t r n → first.assignedTo n = some .null ∧
    alone.assignedTo r n = (t.column? n).bind (·.default)
  /-- A column that the row lacks stays, unless it has a value for updates, and has its default
  in a new row. -/
  absent : ∀ n, r.contains n = false → first.assignedTo n = first.onUpdate? n ∧
    alone.assignedTo r n = (t.column? n).bind (·.default)

/-- What saving a row again leaves of it, where `first` overwrites what was stored: a column left
to its default is null, a column of the key or one that the row lacks has its value for updates
if there is one, and the others stay. -/
def savedAgain (t : Table) (r : Row) (first : Statement) (stored : String → Value) :
    String → Value :=
  fun n =>
    if LeavesToDefault t r n then .null
    else if n ∈ t.keyNames ∨ r.contains n = false then (first.onUpdate? n).getD (stored n)
    else stored n

/-- **Overwriting a row that was inserted** makes null what was left to its default, and changes
nothing else but the columns that have a value for updates and are not given one. -/
theorem AssignsRow.overwrites_stores {first : Statement} {alone : Insert}
    (h : AssignsRow t r first alone) (filled : String → Value) :
    first.overwrites (alone.stores r filled) = savedAgain t r first (alone.stores r filled) := by
  funext n
  unfold Statement.overwrites savedAgain
  by_cases hleaves : LeavesToDefault t r n
  · rw [if_pos hleaves, (h.omitted n hleaves).1]
    rfl
  · rw [if_neg hleaves]
    by_cases hown : n ∈ t.keyNames ∨ r.contains n = false
    · rw [if_pos hown, hown.elim (fun hn => (h.key n hn).1) (fun hn => (h.absent n hn).1)]
    · rw [if_neg hown]
      obtain ⟨hkey, hcontains⟩ := not_or.mp hown
      obtain ⟨hfirst, halone⟩ := h.same n hkey (Bool.eq_true_of_not_eq_false hcontains) hleaves
      rw [Insert.stores, halone]
      cases first.assignedTo n <;> rfl

/-- Where no such column has a value for updates, only what was left to its default changes. -/
theorem savedAgain_of_none {first : Statement} {stored : String → Value} {n : String}
    (h : first.onUpdate? n = none) :
    savedAgain t r first stored n = if LeavesToDefault t r n then .null else stored n := by
  unfold savedAgain
  rw [h]
  simp

theorem assignsRow_overwriting (hnames : key.names = t.keyNames)
    (hgiven : ∀ n ∈ t.keyNames, (r.get n).isNull = false) :
    AssignsRow t r (overwriting t key (withoutIdentity key r)) (insertion t [r] .key false) := by
  have hfirst := assignedTo_overwriting (t := t) (r := r) hnames
  have halone : ∀ n, (insertion t [r] .key false).assignedTo r n = _ :=
    assignedTo_insertion (List.cons_ne_nil r []) r
  simp only [listsName_singleton] at halone
  refine ⟨fun n hn => ?_, fun n hn hcontains hleaves => ?_, fun n hleaves => ?_,
    fun n hcontains => ?_⟩
  · obtain ⟨c, hc⟩ := Option.isSome_iff_exists.mp (column?_of_mem_keyNames hn)
    rw [hfirst, if_pos (.inl hn), assignedTo_of_given (List.mem_singleton_self r) (hgiven n hn), hc]
    exact ⟨rfl, rfl⟩
  · have hlists : t.hasDefault n = true → (r.get n).isNull = false := fun hdefault =>
      Bool.eq_false_iff.mpr fun hnull => hleaves ⟨hcontains, hdefault, hnull⟩
    rw [hfirst, if_neg (by simp [hn, hcontains]), halone]
    cases t.column? n with
    | none => exact ⟨rfl, rfl⟩
    | some c =>
        rw [Option.bind_some, if_pos ⟨hcontains, hlists⟩]
        exact ⟨rfl, rfl⟩
  · obtain ⟨hcontains, hdefault, hnull⟩ := hleaves
    have hn : n ∉ t.keyNames := fun hn => by simp [hgiven n hn] at hnull
    obtain ⟨c, hc, -⟩ := Table.exists_of_hasDefault hdefault
    have hcolumn : t.column? n = some c := hc
    rw [hfirst, if_neg (by simp [hn, hcontains]), halone, hcolumn, Value.eq_null_of_isNull hnull]
    simp [hdefault, Value.isNull]
  · rw [hfirst, if_pos (.inr hcontains), halone]
    cases t.column? n with
    | none => exact ⟨rfl, rfl⟩
    | some c => simp [hcontains]

/-- Where the table has no value of its own for updates, neither has the statement that looks for
the row. -/
theorem SavesRow.onUpdate?_of_none {first : PlanStep} {alone : Insert}
    (h : SavesRow s h i t r first alone) {n : String} (hn : t.onUpdate? n = none) :
    first.statement.onUpdate? n = none := by
  obtain ⟨e, -, ⟨values, hfirst⟩ | hfirst⟩ := h.pins
  · rw [hfirst]
    exact hn
  · rw [hfirst]
    rfl

theorem savesRow_overwriting (hmodel : (h.forItem i).requireModel = .ok ())
    (ht : (h.forItem i).table = .ok t) (hr : i.toRow = .ok r) (hkeyed : t.keyNames ≠ [])
    (hgiven : ∀ n ∈ t.keyNames, (r.get n).isNull = false) :
    ∃ key, key.names = t.keyNames ∧ SavesRow s h i t r
      (overwriteStep t key (withoutIdentity key r)) (insertion t [r] .key false) := by
  obtain ⟨key, hkey, hnames⟩ := identity_of_given (keyNames_nodup ht) hkeyed hr hgiven
  have hcarries := fun c => carriesOut_save (s := s) hmodel ht hkey hr c
  refine ⟨key, hnames, ⟨?_, fun c p reply rest hc hp hread hfinds => ?_,
    fun c p reply rest hc hp hread hfinds hcancel hfits => ?_, fun u p hu hp => ?_, fun p hp => ?_⟩⟩
  · obtain ⟨r', hr', hpins⟩ := pinsKey_of_identity (keyNames_nodup ht) hkey
    cases hr'.symm.trans hr
    refine ⟨_, hpins, ?_⟩
    unfold overwriteStep overwriting
    split
    · exact .inr rfl
    · exact .inl ⟨_, rfl⟩
  · have hfinds' : (overwriting t key (withoutIdentity key r)).finds reply = true := hfinds
    obtain ⟨hresult, hsent, -⟩ := hcarries c
    rw [hc, nextReply, if_pos hfinds', exchange_singleton, perform_of_reply hp hread]
      at hresult hsent
    exact ⟨hresult, hsent⟩
  · have hfinds' : ¬(overwriting t key (withoutIdentity key r)).finds reply = true :=
      Bool.eq_false_iff.mp hfinds
    obtain ⟨p', hp'⟩ := prepare_alone hgiven hnames hkeyed hp hfits
    refine ⟨p', hp', ?_⟩
    have hperform : s.perform _ (.reply reply :: rest) = _ := perform_of_reply hp hread
    obtain ⟨-, hsent, -⟩ := hcarries c
    rw [hc, nextReply, if_neg hfinds', exchange_cons_of_ok (by rw [hperform]) (by rw [hperform])
      (by rw [hperform]; rfl), exchange_singleton, List.tail_cons,
      sent_perform (q := insertStep s (insertion t [r] .key false)) hp' hcancel] at hsent
    exact hsent
  · exact handsOver_overwriting hu hp
  · exact handsOver_insertion (List.cons_ne_nil _ _) hp

/--
**Saving a record whose row is there against saving it where there is none.**

Let the record give every column of the key a value.  When a row is found it has been
overwritten, and nothing more is sent; when none is found, one insert is sent.  The two assign the
same to every column of the record that is no part of the key, null or not, except for a
column that the record leaves null and that has a default: it is made null in a row that is there
and left to its default in a new one.  So saving a record again, after it was inserted, makes
those columns null, gives a column of the key or one that the record lacks the value that it has
for updates, if any, and changes nothing else.  The driver gets what is assigned where the
columns are written apart.
-/
theorem save_again {M : Model} (s : Session) (hmodel : h.model = some M) (ht : h.table = .ok t)
    (hr : i.toRow = .ok r) (hgiven : ∀ n ∈ t.keyNames, (r.get n).isNull = false) :
    (t.keyNames = [] → h.save s i = h.create s i) ∧
    (t.keyNames ≠ [] → ∃ first alone, SavesRow s h i t r first alone ∧
      AssignsRow t r first.statement alone ∧
      ∀ filled : String → Value, first.statement.overwrites (alone.stores r filled) =
        savedAgain t r first.statement (alone.stores r filled)) := by
  have hitem : h.forItem i = h := by
    unfold forItem
    rw [hmodel]
  have hrequired : h.requireModel = .ok () := by rw [requireModel, hmodel]
  refine ⟨fun hnil => ?_, fun hkeyed => ?_⟩
  · have hidentity : identity t i = .ok none := by
      rw [identity, hnil]
      rfl
    unfold save
    simp only [hitem, hrequired, ht, hidentity, lift_ok_bind]
  · obtain ⟨key, hnames, hsaves⟩ := savesRow_overwriting (s := s) (by rw [hitem, hrequired])
      (by rw [hitem, ht]) hr hkeyed hgiven
    have hassigns := assignsRow_overwriting hnames hgiven
    exact ⟨_, _, hsaves, hassigns, hassigns.overwrites_stores⟩

/-- A membership without a role, which has no default. -/
def plainMembership : Entity :=
  ⟨Catalog.membership, .ofList [("group_id", .int 1), ("user_id", .int 2)]⟩

/-- Saving it again changes nothing in the row that was inserted. -/
theorem save_again_membership :
    let s : Session := ⟨.sqlite, true⟩
    let h : Handle := ⟨some Catalog.membership, none⟩
    ∃ t r first alone, plainMembership.toRow = .ok r ∧
      SavesRow s h (.ofEntity plainMembership) t r first alone ∧
      ∀ filled n,
        first.statement.overwrites (alone.stores r filled) n = alone.stores r filled n := by
  intro s h
  let m : Mapping := Catalog.membership.mapping.get rfl
  have ht : h.table = .ok m.table := rfl
  have hr : (Item.ofEntity plainMembership).toRow = .ok (Entity.rowOf m plainMembership) := rfl
  obtain ⟨first, alone, hsaves, -, hagain⟩ :=
    (save_again s rfl ht hr (by decide +kernel)).2 (by decide +kernel)
  refine ⟨m.table, Entity.rowOf m plainMembership, first, alone, rfl, hsaves, fun filled n => ?_⟩
  rw [hagain, savedAgain_of_none (hsaves.onUpdate?_of_none
    (Table.onUpdate?_eq_none (by decide +kernel) n)), if_neg]
  rintro ⟨-, hdefault, hnull⟩
  obtain ⟨c, hc, hcdefault⟩ := Table.exists_of_hasDefault hdefault
  have hgiven : ∀ c ∈ m.table.columns, c.hasDefault = true →
      ((Entity.rowOf m plainMembership).get c.name).isNull = false := by decide +kernel
  have hvalue := hgiven c (List.mem_of_find?_eq_some hc) hcdefault
  rw [Table.name_of_column? hc] at hvalue
  simp [hvalue] at hnull

/-- A user who does not say whether it is deleted. -/
def unsaidUser : Entity :=
  ⟨Catalog.user, .ofList [("id", .int 1), ("email", .text "a"), ("status", .text "s")]⟩

/-- Its row has `deleted` at the default after the insert, and at null once it is saved again.  A
draft is inserted as it is, and its update sets a part of the key and marks the draft; and a
sample that is inserted with a limit is updated with the null of the column that is written
alike. -/
theorem save_again_omitted :
    let s : Session := ⟨.sqlite, true⟩
    let h : Handle := ⟨some Catalog.user, none⟩
    let c : Channel := ⟨[.reply ⟨none, 0, .null⟩], [], []⟩
    let saved (M : Model) (r : Row) :=
      ((Handle.mk (some M) none).save s (some (.row r)) c).2.sent.map
        (fun y => (y.prepared.sql, y.prepared.rows.map (List.map Value.render)))
    saved Catalog.draft (.ofList [("id", .int 1), ("revision", .int 1), ("title", .text "a")]) =
        [("UPDATE drafts SET revision=?, title=?, edited=? " ++
            "WHERE drafts.id = ? AND drafts.revision = ?", [["2", "'a'", "1", "1", "1"]]),
          ("INSERT INTO drafts (id, revision, title) VALUES (?, ?, ?)", [["1", "1", "'a'"]])] ∧
      saved Catalog.sample
          (.ofList [("id", .int 1), ("temp.max", .null), ("temp_max", .int 2)]) =
        [("UPDATE samples SET \"temp.max\"=?, temp_max=? WHERE samples.id = ?",
            [["None", "None", "1"]]),
          ("INSERT INTO samples (id, temp_max) VALUES (?, ?)", [["1", "2"]])] ∧
      ∃ r u x, unsaidUser.toRow = .ok r ∧
        (h.save s (.ofEntity unsaidUser) c).2.sent.map (·.statement) = [.update u, .insert x] ∧
        u.assignedTo "deleted" = some .null ∧ x.assignedTo r "deleted" = some (.bool false) ∧
        ∀ filled, x.stores r filled "deleted" = .bool false ∧
          (Statement.update u).overwrites (x.stores r filled) "deleted" = .null := by
  intro s h c saved
  let m : Mapping := Catalog.user.mapping.get rfl
  let key : Row := .ofList [("id", .int 1)]
  let r : Row := Entity.rowOf m unsaidUser
  have ht : (h.forItem (.ofEntity unsaidUser)).table = .ok m.table := rfl
  have hkey : identity m.table (.ofEntity unsaidUser) = .ok (some key) := rfl
  have hrow : (Item.ofEntity unsaidUser).toRow = .ok r := rfl
  obtain ⟨u, hu⟩ : ∃ u, overwriting m.table key (withoutIdentity key r) = .update u := ⟨_, rfl⟩
  obtain ⟨added, hsent, hprogress⟩ := doesOn_save (s := s) rfl ht hkey hrow (c := c) rfl
  have hsends := hprogress.complete (by decide +kernel)
  have hstatements : added.map (·.statement) =
      [.update u, .insert (insertion m.table [r] .key false)] := by
    have hmissing : (Statement.update u).finds ⟨none, 0, .null⟩ = false := rfl
    rw [hu, hmissing] at hsends
    cases hsends with
    | cons hfirst hrest =>
        cases hrest with
        | cons halone hnil =>
            cases hnil
            rw [List.map_cons, List.map_cons, hfirst.statement, halone.statement, List.map_nil]
  have hassigns : AssignsRow m.table r (.update u) (insertion m.table [r] .key false) :=
    hu ▸ assignsRow_overwriting rfl (by decide +kernel)
  have hleaves : LeavesToDefault m.table r "deleted" := by decide +kernel
  obtain ⟨hnull, hdefault⟩ := hassigns.omitted "deleted" hleaves
  refine ⟨by decide +kernel, by decide +kernel, r, u, _, rfl, ?_, hnull, hdefault,
    fun filled => ⟨?_, ?_⟩⟩
  · rw [hsent]
    exact hstatements
  · rw [Insert.stores, hdefault]
    rfl
  · rw [hassigns.overwrites_stores, savedAgain, if_pos hleaves]

end Handle

end TableQuery
