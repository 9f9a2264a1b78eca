/-
What an insert and an update assign to columns, and how a driver is told.

An insert gives a row a value for some columns of its table and leaves the others to the
database; `Insert.assigned` says which, and with what.  The driver sees no columns beside
the values: it gets the names once, in the text, and the values of each row in the same
order.  `rows_of_prepare` and `names_in_text` are these two halves for an insert.  For an
update they are the two halves of `Update.HandsOver`, where the values of the condition come
after the assigned ones.
-/
import Mathlib.Data.List.Forall2
import Mathlib.Data.List.Nodup
import TableQuery.Proofs.Sql.Wording

namespace TableQuery

namespace Row

theorem get?_of_contains {r : Row} {name : String} (h : r.contains name = true) :
    r.get? name = some (r.get name) := by
  have hmem : name ∈ r.entries.map Prod.fst := by simpa [contains, names] using h
  obtain ⟨e, he, hname⟩ := List.mem_map.mp hmem
  have hfound : (r.entries.find? (fun e => e.1 == name)).isSome = true :=
    List.find?_isSome.mpr ⟨e, he, by simp [hname]⟩
  rw [get, get?]
  cases hfind : r.entries.find? (fun e => e.1 == name) with
  | none => simp [hfind] at hfound
  | some x => rfl

theorem get_of_mem {r : Row} {name : String} {v : Value} (h : (name, v) ∈ r.entries) :
    r.get name = v := by
  have hfind : r.entries.find? (fun e => e.1 == name) = some (name, v) := by
    have hnodup := r.names_nodup
    revert h hnodup
    generalize r.entries = es
    intro h hnodup
    induction es with
    | nil => cases h
    | cons e es ih =>
        obtain ⟨hhead, htail⟩ := List.nodup_cons.mp hnodup
        rcases List.mem_cons.mp h with rfl | h
        · simp
        · have hne : ¬(e.1 == name) = true := by
            intro hname
            exact hhead (List.mem_map.mpr ⟨(name, v), h, (eq_of_beq hname).symm⟩)
          rw [List.find?_cons_of_neg (by exact hne)]
          exact ih h htail
  rw [get, get?, hfind]
  rfl

theorem get?_of_not_contains {r : Row} {name : String} (h : r.contains name = false) :
    r.get? name = none := by
  have hnone : r.entries.find? (fun e => e.1 == name) = none := by
    rw [List.find?_eq_none]
    intro e he hname
    have hmem : name ∈ r.names := List.mem_map.mpr ⟨e, he, by simpa using hname⟩
    simp [contains, hmem] at h
  rw [get?, hnone]
  rfl

theorem get_of_not_contains {r : Row} {name : String} (h : r.contains name = false) :
    r.get name = .null := by
  rw [get, get?_of_not_contains h]
  rfl

end Row

namespace Table

theorem name_of_column? {t : Table} {name : String} {c : TableColumn}
    (h : t.column? name = some c) : c.name = name := by
  simpa using List.find?_some h

theorem column?_isSome (t : Table) (n : String) :
    (t.column? n).isSome = t.columnNames.contains n := by
  rw [Bool.eq_iff_iff]
  simp [column?, columnNames]

/-- What an update gives a column that it is not given a value for. -/
def onUpdate? (t : Table) (name : String) : Option Value := (t.column? name).bind (·.onUpdate)

theorem onUpdate?_eq_none {t : Table} (h : ∀ c ∈ t.columns, c.onUpdate.isNone = true)
    (name : String) : t.onUpdate? name = none :=
  Option.bind_eq_none_iff.mpr fun c hc =>
    Option.isNone_iff_eq_none.mp (h c (List.mem_of_find?_eq_some hc))

theorem column?_of_mem {t : Table} (hnodup : t.columnNames.Nodup) {c : TableColumn}
    (hc : c ∈ t.columns) : t.column? c.name = some c := by
  have hsome : (t.column? c.name).isSome = true := by
    rw [column?_isSome, List.contains_iff_mem]
    exact List.mem_map.mpr ⟨c, hc, rfl⟩
  obtain ⟨c', hc'⟩ := Option.isSome_iff_exists.mp hsome
  rw [hc', List.inj_on_of_nodup_map hnodup (List.mem_of_find?_eq_some hc') hc (name_of_column? hc')]

theorem onUpdate?_of_mem {t : Table} (hnodup : t.columnNames.Nodup) {c : TableColumn}
    (hc : c ∈ t.columns) : t.onUpdate? c.name = c.onUpdate := by
  rw [onUpdate?, column?_of_mem hnodup hc, Option.bind_some]

end Table

namespace Sql

variable {d : Dialect}

namespace Insert

/-- What an insert assigns to a column for a row; nothing when it leaves the column to the
database. -/
def assigned (i : Insert) (r : Row) (c : TableColumn) : Option Value :=
  (i.source? c).map (fun
    | .row => r.get c.name
    | .default v => v)

/-- The assignments of a row as parameters, in the order of the table. -/
def assignments (i : Insert) (r : Row) : List Parameter :=
  i.table.columns.filterMap (fun c => (i.assigned r c).map (fun v => ⟨c.name, c.type, v⟩))

/-- What an insert assigns to the column of a name. -/
def assignedTo (i : Insert) (r : Row) (name : String) : Option Value :=
  (i.table.column? name).bind (i.assigned r)

/-- The names of the columns that an insert assigns, in the order of the table. -/
def columns (i : Insert) : List String := i.written.map (fun e => e.1.name)

/-- The value of a written column for a row. -/
def valueOf (r : Row) (e : TableColumn × Source) : Value :=
  match e.2 with
  | .row => r.get e.1.name
  | .default v => v

theorem assignments_eq_map (i : Insert) (r : Row) :
    i.assignments r = i.written.map (fun e => ⟨e.1.name, e.1.type, valueOf r e⟩) := by
  unfold assignments written
  rw [List.map_filterMap]
  congr 1
  funext c
  unfold assigned
  cases i.source? c with
  | none => rfl
  | some s => cases s <;> rfl

theorem names_firstParameters (i : Insert) : i.firstParameters.map (·.name) = i.columns := by
  unfold firstParameters columns
  rw [List.map_map]
  congr 1
  funext e
  simp only [Function.comp_apply]
  cases e.2 <;> rfl

/-! ### The values of the rows -/

/-- A row that has every name of the first one gets its own assignments. -/
theorem rowParameters_ok {i : Insert} {r : Row}
    (h : ∀ n, i.first.contains n = true → r.contains n = true) (number : Nat) :
    rowParameters number r i.written = .ok (i.assignments r) := by
  have hsource : ∀ e ∈ i.written, e.2 = .row → r.contains e.1.name = true := by
    intro e he hrow
    obtain ⟨c, -, hc⟩ := List.mem_filterMap.mp he
    obtain ⟨src, hsrc, rfl⟩ := Option.map_eq_some_iff.mp hc
    unfold source? at hsrc
    split at hsrc
    · rename_i hfirst
      exact h _ hfirst
    · obtain ⟨v, -, rfl⟩ := Option.map_eq_some_iff.mp hsrc
      cases hrow
  rw [assignments_eq_map]
  generalize i.written = es at hsource
  induction es with
  | nil => rfl
  | cons e es ih =>
      obtain ⟨c, src⟩ := e
      have hrest := ih (fun e he => hsource e (List.mem_cons_of_mem _ he))
      cases src with
      | row =>
          have hget := Row.get?_of_contains (hsource (c, .row) List.mem_cons_self rfl)
          simp only [rowParameters, hget, hrest, Except.map, List.map_cons, valueOf]
      | default v => simp only [rowParameters, hrest, Except.map, List.map_cons, valueOf]

theorem parametersFrom_ok {i : Insert} {rs : List Row}
    (h : ∀ r ∈ rs, ∀ n, i.first.contains n = true → r.contains n = true) (number : Nat) :
    i.parametersFrom number rs = .ok (rs.map i.assignments) := by
  induction rs generalizing number with
  | nil => rfl
  | cons r rs ih =>
      rw [parametersFrom, rowParameters_ok (h r List.mem_cons_self),
        ih (fun r hr => h r (List.mem_cons_of_mem _ hr))]
      rfl

theorem forall₂_of_collect {α β ε : Type} {f : α → Except ε β} {as : List α} {bs : List β}
    (h : collect f as = .ok bs) : List.Forall₂ (fun a b => f a = .ok b) as bs := by
  induction as generalizing bs with
  | nil =>
      rw [collect] at h
      cases h
      exact .nil
  | cons a as ih =>
      obtain ⟨b, rest, hb, hrest, rfl⟩ := collect_cons_eq_ok.mp h
      exact .cons hb (ih hrest)

theorem names_assignments (i : Insert) (r : Row) : (i.assignments r).map (·.name) = i.columns := by
  rw [assignments_eq_map, List.map_map]
  rfl

/-- Whether each column of an insert has its own value at its place: the places of columns that are
written alike are read as one. -/
def PlacesApart (i : Insert) : Prop := WrittenApart i.columns

/-- **Where its columns are written apart, a row is handed over as it is assigned.** -/
theorem servedRow_assignments {i : Insert} (h : i.PlacesApart) (d : Dialect) (r : Row) :
    servedRow d (i.assignments r) = i.assignments r := by
  have hnames : (i.assignments r).filterMap (fun p => some p.name) = i.columns := by
    rw [← i.names_assignments r]
    exact congrFun List.filterMap_eq_map _
  unfold servedRow
  split
  · rw [List.map_congr_left fun p hp => readFor_of_apart (hnames ▸ h) hp, List.map_id']
  · rw [List.map_congr_left fun p hp => readLast_of_apart (hnames ▸ h) hp, List.map_id']

/-- **The driver gets for each row the values that are assigned to it**, each at the places that
read it. -/
theorem rows_of_prepare {i : Insert} {p : Prepared} (h : i.prepare d = .ok p)
    (hrows : ∀ r ∈ i.rows, ∀ n, i.first.contains n = true → r.contains n = true) :
    List.Forall₂ (fun r vs => storedAll d (servedRow d (i.assignments r)) = .ok vs)
      i.rows p.rows := by
  unfold prepare at h
  split at h
  · cases h
  · split at h
    · cases h
    · rw [storedRows, parametersFrom_ok hrows] at h
      dsimp only at h
      rw [collect_map] at h
      cases hstored : collect (fun r => storedAll d (servedRow d (i.assignments r))) i.rows with
      | error e => simp [hstored, Except.map, asStatementError] at h
      | ok vs =>
          simp only [hstored, Except.map, asStatementError, Except.ok.injEq] at h
          subst h
          exact forall₂_of_collect hstored

/-! ### The text -/

theorem isFixed_valuePieces {i : Insert} {ps : List Piece} (h : i.valuePieces d = .ok ps) :
    ∀ p ∈ ps, p.IsFixed := by
  unfold valuePieces at h
  split at h
  · unfold noValues at h
    dsimp only at h
    split at h <;> (try split at h) <;> cases h <;> simp
  · cases h
    have hplaces := isFixed_separated_map ", "
      (f := fun p => [valuePiece p]) (fun p => by simp [valuePiece])
    simp only [List.cons_append, List.forall_mem_cons, List.forall_mem_append, Piece.isFixed_text,
      true_and]
    exact ⟨⟨isFixed_nameList _, hplaces _⟩, by simp⟩

theorem isFixed_conflictPieces (i : Insert) : ∀ p ∈ i.conflictPieces d, p.IsFixed := by
  unfold conflictPieces
  dsimp only
  split
  · simp
  · split
    · have hcolumns := isFixed_separated_map ", "
        (f := fun n => [.name n, .text " = VALUES(", .name n, .text ")"])
        (fun n => by simp)
      exact List.forall_mem_cons.mpr ⟨trivial, hcolumns _⟩
    · have hcolumns := isFixed_separated_map ", "
        (f := fun n => [.name n, .text " = excluded.", .name n]) (fun n => by simp)
      simp only [List.cons_append, List.forall_mem_cons, List.forall_mem_append, Piece.isFixed_text,
        true_and]
      exact ⟨isFixed_nameList _, hcolumns _⟩
  · split
    · simp
    · simp only [List.cons_append, List.forall_mem_cons, List.forall_mem_append, Piece.isFixed_text,
        true_and]
      exact ⟨isFixed_nameList _, by simp⟩

theorem isFixed_returningPieces (i : Insert) : ∀ p ∈ i.returningPieces d, p.IsFixed := by
  unfold returningPieces
  split
  · simp
  · dsimp only
    have hnames := isFixed_separated_map ", "
      (f := fun c : TableColumn => if d = .postgresql then qualified i.table.name c.name
        else [.name c.name]) (fun c => by split <;> simp [qualified])
    exact List.forall_mem_cons.mpr ⟨trivial, hnames _⟩

/-- **The text of an insert**, part by part. -/
theorem sql_of_prepare {i : Insert} {p : Prepared} (h : i.prepare d = .ok p) :
    ∃ values, i.valuePieces d = .ok values ∧
      p.sql = i.leadText d ++ d.quoteName i.table.name ++ wording d values
        ++ wording d (i.conflictPieces d) ++ wording d (i.returningPieces d) := by
  unfold prepare at h
  split at h
  · cases h
  · rename_i ps hps
    split at h
    · cases h
    · rename_i r hr
      have hsql : p.sql = r.sql := by
        cases hstored : i.storedRows d with
        | error e => simp [hstored, Except.map, asStatementError] at h
        | ok rows =>
            simp only [hstored, Except.map, asStatementError, Except.ok.injEq] at h
            rw [← h]
      unfold pieces at hps
      obtain ⟨values, hvalues, rfl⟩ := map_eq_ok.mp hps
      have hfixed : ∀ p ∈ .text (i.leadText d) :: .name i.table.name :: values
          ++ i.conflictPieces d ++ i.returningPieces d, p.IsFixed := by
        simp only [List.cons_append, List.forall_mem_cons, List.forall_mem_append,
          Piece.isFixed_text, Piece.isFixed_name, true_and]
        exact ⟨⟨isFixed_valuePieces hvalues, isFixed_conflictPieces i⟩, isFixed_returningPieces i⟩
      refine ⟨values, hvalues, ?_⟩
      rw [hsql, sql_of_writes hfixed (writes_of_render hr)]
      simp only [wording_append, wording_cons, Piece.word, String.append_assoc]

/-! ### Rows that exist already -/

/-- The columns that an insert overwrites in a row that exists already, in the order of the
table. -/
def overwritten (i : Insert) : List String :=
  match i.conflict with
  | .overwrite _ columns => i.table.columnNames.filter columns.contains
  | .fail | .keep _ => []

/-- What an insert assigns to the column of a name in a row that exists already: what it
would assign to it in a new row, if it overwrites the column. -/
def overwrittenTo (i : Insert) (r : Row) (name : String) : Option Value :=
  if name ∈ i.overwritten then i.assignedTo r name else none

/-- What the text of an insert says of a row that exists already; the dialects that have no
words for leaving it say so in the first words of the insert. -/
def conflictText (d : Dialect) (i : Insert) : String :=
  let names (ns : List String) := ", ".intercalate (ns.map d.quoteName)
  match i.conflict with
  | .fail => ""
  | .overwrite keys _ =>
    if d.isMysqlFamily then
      " ON DUPLICATE KEY UPDATE " ++ ", ".intercalate (i.overwritten.map (fun n =>
        d.quoteName n ++ " = VALUES(" ++ d.quoteName n ++ ")"))
    else
      " ON CONFLICT (" ++ names keys ++ ") DO UPDATE SET " ++ ", ".intercalate (i.overwritten.map
        (fun n => d.quoteName n ++ " = excluded." ++ d.quoteName n))
  | .keep keys => if d.isMysqlFamily then "" else " ON CONFLICT (" ++ names keys ++ ") DO NOTHING"

theorem wording_conflictPieces (i : Insert) :
    wording d (i.conflictPieces d) = i.conflictText d := by
  unfold conflictPieces conflictText overwritten
  cases i.conflict with
  | fail => rfl
  | overwrite keys columns =>
      dsimp only
      split
      · simp [wording_cons, wording_separated, wording_nil, Piece.word, Function.comp_def,
          String.append_assoc]
      · simp [wording_cons, wording_append, wording_separated, wording_nameList, wording_nil,
          Piece.word, Function.comp_def, String.append_assoc]
  | keep keys =>
      dsimp only
      split
      · rfl
      · simp [wording_cons, wording_append, wording_nameList, wording_nil, Piece.word,
          String.append_assoc]

/-- **The text of an insert that assigns columns**: it names them in the order of the values, and
goes on with what becomes of a row that exists already. -/
theorem text_of_prepare {i : Insert} {p : Prepared} (h : i.prepare d = .ok p)
    (hne : i.columns ≠ []) : ∃ places tail,
      p.sql = i.leadText d ++ d.quoteName i.table.name ++ " (" ++
        ", ".intercalate (i.columns.map d.quoteName) ++ ") VALUES (" ++ places ++ ")" ++
        i.conflictText d ++ tail := by
  obtain ⟨values, hvalues, hsql⟩ := sql_of_prepare h
  have hnames := names_firstParameters i
  unfold valuePieces at hvalues
  split at hvalues
  · rename_i hnil
    rw [hnil] at hnames
    exact absurd hnames.symm hne
  · cases hvalues
    rw [hsql, hnames, wording_conflictPieces]
    simp only [wording_append, wording_cons, wording_nil, wording_nameList, Piece.word,
      String.append_assoc, String.append_empty]
    exact ⟨_, _, rfl⟩

/-- **The text of an insert names the columns that it assigns**, in the order of the
values. -/
theorem names_in_text {i : Insert} {p : Prepared} (h : i.prepare d = .ok p)
    (hne : i.columns ≠ []) :
    ∃ lead tail, p.sql = lead ++ " (" ++ ", ".intercalate (i.columns.map d.quoteName)
      ++ ") VALUES (" ++ tail := by
  obtain ⟨places, tail, hsql⟩ := text_of_prepare h hne
  refine ⟨i.leadText d ++ d.quoteName i.table.name, places ++ ")" ++ i.conflictText d ++ tail, ?_⟩
  rw [hsql]
  simp only [String.append_assoc]

end Insert

/-! ### Updates -/

namespace Update

/-- What an update assigns to the column of a name. -/
def assignedTo (u : Update) (name : String) : Option Value :=
  (u.table.column? name).bind u.valueFor

theorem mem_assigned_iff {u : Update} {a : Parameter} :
    a ∈ u.assigned ↔ ∃ c ∈ u.table.columns, ∃ v, u.valueFor c = some v ∧
      ⟨c.name, c.type, v⟩ = a := by
  simp only [assigned, List.mem_filterMap, Option.map_eq_some_iff]

/-- A column is assigned the given value, or its own for updates that give it none. -/
theorem valueFor_eq_some {u : Update} {c : TableColumn} {v : Value} :
    u.valueFor c = some v ↔ u.assignments.get? c.name = some v ∨
      u.assignments.get? c.name = none ∧ c.onUpdate = some v := by
  unfold valueFor
  cases u.assignments.get? c.name <;> simp

theorem assignedTo_of_none {u : Update} {n : String} (h : u.assignments.get? n = none) :
    u.assignedTo n = u.table.onUpdate? n := by
  unfold assignedTo Table.onUpdate?
  refine Option.bind_congr fun c hc => ?_
  rw [valueFor, Table.name_of_column? hc, h, Option.none_or]

theorem assignedTo_of_some {u : Update} {n : String} {v : Value}
    (h : u.assignments.get? n = some v) :
    u.assignedTo n = (u.table.column? n).map (fun _ => v) := by
  rw [assignedTo, Option.map_eq_bind]
  refine Option.bind_congr fun c hc => ?_
  rw [valueFor, Table.name_of_column? hc, h, Option.some_or, Function.comp_apply]

/-- The names of the binds of an update: its columns', and those that its condition counts. -/
def bindNames (d : Dialect) (u : Update) : List String :=
  u.assigned.map (·.name) ++ placeNames .empty (u.condition.asCondition.pieces d)

/-- Whether each place of an update has its own value: places that are written alike are read as
one. -/
def PlacesApart (d : Dialect) (u : Update) : Prop := WrittenApart (u.bindNames d)

/-- What the driver is handed for an update: the assignments in the text, and where its places
are written apart, their values in the same order in front of those of the condition. -/
structure HandsOver (u : Update) (d : Dialect) (p : Prepared) : Prop where
  text : ∃ tail, p.sql = "UPDATE " ++ d.quoteName u.table.name ++ " SET " ++
    ", ".intercalate (u.assigned.map (fun a =>
      d.quoteName a.name ++ "=" ++ mark d (placeholderName a.name))) ++ tail
  values : u.PlacesApart d →
    ∃ vs tail, storedAll d u.assigned = .ok vs ∧ p.rows = [vs ++ tail]

/-- What a plain update writes in front of its condition. -/
def plainLead (u : Update) : List Piece :=
  .text "UPDATE " :: .name u.table.name :: .text " SET "
    :: u.assignmentPieces (fun n => [.name n]) ++ [.text " WHERE "]

theorem isFixed_plainLead (u : Update) : ∀ p ∈ u.plainLead, p.IsFixed := by
  have hassigned := isFixed_separated_map ", "
    (f := fun p : Parameter => [.name p.name] ++ [.text "=", Insert.valuePiece p])
    (fun p => by simp [Insert.valuePiece]) u.assigned
  simp only [plainLead, List.cons_append, List.forall_mem_cons, List.forall_mem_append,
    Piece.isFixed_text, Piece.isFixed_name, true_and]
  exact ⟨hassigned, by simp⟩

/-- What is read off the places of assignments and not off words. -/
theorem filterMap_assignmentPieces {α : Type} {f : Piece → Option α} {g : Parameter → α}
    (u : Update) (htext : ∀ s, f (.text s) = none) (name : String → List Piece)
    (hname : ∀ n, (name n).filterMap f = []) (hplace : ∀ a, f (Insert.valuePiece a) = some (g a)) :
    (u.assignmentPieces name).filterMap f = u.assigned.map g := by
  rw [assignmentPieces, filterMap_separated htext, List.flatMap_map, List.map_eq_flatMap]
  congr 1
  funext a
  rw [List.filterMap_append, hname, List.filterMap_cons_none (htext "="),
    List.filterMap_cons_some (hplace a)]
  rfl

theorem filterMap_plainLead {α : Type} {f : Piece → Option α} {g : Parameter → α} (u : Update)
    (htext : ∀ s, f (.text s) = none) (hname : ∀ s, f (.name s) = none)
    (hplace : ∀ a, f (Insert.valuePiece a) = some (g a)) :
    u.plainLead.filterMap f = u.assigned.map g := by
  have hassigned := u.filterMap_assignmentPieces htext (fun n => [.name n])
    (fun n => List.filterMap_cons_none (hname n)) hplace
  simp [plainLead, htext, hname, hassigned]

/-- An update whose condition names no other table is prepared from its own pieces. -/
theorem prepareOne_of_prepare {u : Update} {p : Prepared}
    (hown : u.condition.foreignTables u.table.name = [])
    (h : (Statement.update u).prepare d = .ok p) :
    prepareOne d (u.plainLead ++ u.condition.asCondition.pieces d) = .ok p := by
  unfold Statement.prepare at h
  split at h
  · simpa [pieces, hown, plainLead, conditionPieces] using h
  · cases h

/-- **An update hands over what it assigns**, here with a condition that names no other
table. -/
theorem handsOver_of_prepare {u : Update} {p : Prepared}
    (hown : u.condition.foreignTables u.table.name = [])
    (h : (Statement.update u).prepare d = .ok p) : u.HandsOver d p := by
  have hone := prepareOne_of_prepare hown h
  refine ⟨?_, fun hplaces => ?_⟩
  · obtain ⟨lead, tail, hsql, hlead, -⟩ := (writes_of_prepareOne hone).append
    refine ⟨" WHERE " ++ tail, ?_⟩
    rw [hsql, sql_of_writes u.isFixed_plainLead hlead]
    simp only [plainLead, List.cons_append, wording_cons, wording_append, wording_nil,
      assignmentPieces, wording_separated, List.map_map, Piece.word, String.append_assoc,
      String.append_empty]
    congr 6
    funext a
    simp [wording, Piece.word, Insert.valuePiece]
  · have hnames : ownNames u.plainLead = u.assigned.map (·.name) :=
      u.filterMap_plainLead (fun _ => rfl) (fun _ => rfl) (fun _ => rfl)
    have hparameters : ownParameters u.plainLead =
        u.assigned.map (fun a => ⟨placeholderName a.name, a.type, a.value⟩) :=
      u.filterMap_plainLead (fun _ => rfl) (fun _ => rfl) (fun _ => rfl)
    obtain ⟨vs, tail, hvs, hrows⟩ := rows_of_fixed_append u.isFixed_plainLead
      (by rw [hnames]; exact hplaces) hone
    refine ⟨vs, tail, ?_, hrows⟩
    rw [← hvs, hparameters]
    exact storedAll_congr (by rw [List.map_map]; rfl)

end Update

end Sql

end TableQuery
