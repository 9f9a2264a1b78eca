/-
Updates, clause by clause.

What an update writes in front of its condition is fixed: its table, the columns that it assigns
with their places, and the further tables that its condition names, for which a dialect has
one of two ways or none.  `leading` is that part, the word WHERE included, and behind it
stands the condition and nothing else.

So an update whose places are written apart can be prepared exactly when its clauses can and do
not get into each other's way (`IsAccepted`): each asks for what only it can lack, and the names
of the assigned columns have to be left by the places of the condition.  Then the driver is
handed the assigned values in the order of their columns in the text, and behind them the values
of the condition as it is by itself (`IsHanded`).
-/
import TableQuery.Proofs.Sql.Leading
import TableQuery.Proofs.Sql.Selecting

namespace TableQuery

theorem Row.mem_names_of_get? {r : Row} {n : String} {v : Value} (h : r.get? n = some v) :
    n ∈ r.names := by
  cases hcontains : r.contains n with
  | true => exact List.contains_iff_mem.mp hcontains
  | false =>
      rw [get?_of_not_contains hcontains] at h
      cases h

namespace Sql

variable {d : Dialect}

theorem ownNames_append (ps qs : List Piece) : ownNames (ps ++ qs) = ownNames ps ++ ownNames qs :=
  List.filterMap_append

theorem ownParameters_append (ps qs : List Piece) :
    ownParameters (ps ++ qs) = ownParameters ps ++ ownParameters qs := List.filterMap_append

theorem ownNames_separated (separator : String) (pss : List (List Piece)) :
    ownNames (separated separator pss) = pss.flatMap ownNames :=
  filterMap_separated (fun _ => rfl) separator pss

namespace Update

/-! ### Which columns are assigned -/

/-- An update assigns no column twice. -/
theorem nodup_assigned {u : Update} (hnodup : u.table.columnNames.Nodup) :
    (u.assigned.map (·.name)).Nodup := by
  refine List.Sublist.nodup ?_ hnodup
  unfold assigned Table.columnNames
  induction u.table.columns with
  | nil => exact .slnil
  | cons c cs ih =>
      rw [List.filterMap_cons]
      cases u.valueFor c with
      | none => exact ih.cons c.name
      | some v => exact ih.cons_cons c.name

/-- **An update of known columns assigns each its value**, and the columns that are not given and
have a value of their own for updates that one. -/
theorem assigns_iff {u : Update} (hnodup : u.table.columnNames.Nodup)
    (hknown : (Statement.update u).unknownColumns = []) {n : String} {v : Value} :
    (∃ a ∈ u.assigned, a.name = n ∧ a.value = v) ↔ u.assignments.get? n = some v ∨
      u.assignments.get? n = none ∧ u.table.onUpdate? n = some v := by
  constructor
  · rintro ⟨a, ha, rfl, rfl⟩
    obtain ⟨c, hc, w, hw, rfl⟩ := mem_assigned_iff.mp ha
    rcases valueFor_eq_some.mp hw with hgiven | ⟨hnone, hown⟩
    · exact .inl hgiven
    · exact .inr ⟨hnone, (Table.onUpdate?_of_mem hnodup hc).trans hown⟩
  · intro hvalue
    obtain ⟨c, hc⟩ : ∃ c, u.table.column? n = some c := by
      rcases hvalue with hgiven | ⟨-, hown⟩
      · have hnot := List.filter_eq_nil_iff.mp hknown n (Row.mem_names_of_get? hgiven)
        cases hc : u.table.column? n with
        | none => simp [hc] at hnot
        | some c => exact ⟨c, rfl⟩
      · obtain ⟨c, hc, -⟩ := Option.bind_eq_some_iff.mp hown
        exact ⟨c, hc⟩
    have hname := Table.name_of_column? hc
    rw [Table.onUpdate?, hc, Option.bind_some] at hvalue
    refine ⟨⟨c.name, c.type, v⟩, mem_assigned_iff.mpr ⟨c, List.mem_of_find?_eq_some hc, v, ?_, rfl⟩,
      hname, rfl⟩
    rw [valueFor_eq_some, hname]
    exact hvalue

/-- Updates of one table that have the same value under each name assign the same. -/
theorem assigned_congr {u u' : Update} (htable : u.table = u'.table)
    (hget : ∀ n, u.assignments.get? n = u'.assignments.get? n) : u.assigned = u'.assigned := by
  unfold assigned valueFor
  rw [htable]
  simp only [hget]

/-! ### What stands in front of the condition -/

/-- The tables beside its own that the condition of an update names. -/
def foreign (u : Update) : List String := u.condition.foreignTables u.table.name

/-- The tables that are named after the word UPDATE. -/
def targets (d : Dialect) (u : Update) : List String :=
  u.table.name :: if d.isMysqlFamily then u.foreign else []

/-- The tables that are named after the assignments. -/
def sources (d : Dialect) (u : Update) : List String := if d.isMysqlFamily then [] else u.foreign

/-- An assigned column as it is named: of several tables that are updated, it says which. -/
def columnPieces (d : Dialect) (u : Update) (n : String) : List Piece :=
  if (u.targets d).length = 1 then [.name n] else qualified u.table.name n

/-- What an update writes in front of its condition. -/
def leading (d : Dialect) (u : Update) : List Piece :=
  (.text "UPDATE " :: nameList (u.targets d)) ++
    (.text " SET " :: u.assignmentPieces (u.columnPieces d)) ++
    (if (u.sources d).isEmpty then [] else .text " FROM " :: nameList (u.sources d)) ++
    [.text " WHERE "]

/-- Whether a dialect has words for the tables that an update names. -/
def IsWorded (d : Dialect) (u : Update) : Prop := u.foreign = [] ∨ ∀ named, d ≠ .generic named

/-- **An update is its leading pieces and its condition.** -/
theorem pieces_of_isWorded {u : Update} (h : u.IsWorded d) :
    u.pieces d = .ok (u.leading d ++ u.condition.asCondition.pieces d) := by
  unfold IsWorded foreign at h
  unfold pieces leading columnPieces targets sources foreign
  cases hforeign : u.condition.foreignTables u.table.name with
  | nil => cases d <;> simp [Dialect.isMysqlFamily, nameList, separated, conditionPieces]
  | cons t ts =>
      rw [hforeign] at h
      cases d with
      | generic named => simp at h
      | sqlite | postgresql | mysql | mariadb =>
          simp [Dialect.isMysqlFamily, nameList, separated, conditionPieces]

theorem pieces_of_not_isWorded {u : Update} (h : ¬u.IsWorded d) :
    u.pieces d = .error (.multipleTables "UPDATE") := by
  unfold IsWorded foreign at h
  rw [not_or] at h
  obtain ⟨hforeign, hgeneric⟩ := h
  unfold pieces
  cases hts : u.condition.foreignTables u.table.name with
  | nil => exact absurd hts hforeign
  | cons t ts =>
      cases d with
      | generic named => rfl
      | sqlite | postgresql | mysql | mariadb => simp at hgeneric

section Leading

variable (u : Update)

theorem isWord_columnPieces (n : String) : ∀ p ∈ u.columnPieces d n, p.IsWord := by
  unfold columnPieces
  split <;> simp [qualified, Piece.IsWord]

theorem isFixed_assignment (a : Parameter) :
    ∀ p ∈ u.columnPieces d a.name ++ [.text "=", Insert.valuePiece a], p.IsFixed :=
  List.forall_mem_append.mpr
    ⟨fun p hp => (u.isWord_columnPieces a.name p hp).isFixed, by simp [Insert.valuePiece]⟩

theorem isFixed_leading : ∀ p ∈ u.leading d, p.IsFixed := by
  have hassigned := isFixed_separated_map ", " (u.isFixed_assignment (d := d)) u.assigned
  have hsources : ∀ p ∈ if (u.sources d).isEmpty then []
      else Piece.text " FROM " :: nameList (u.sources d), p.IsFixed := by
    split
    · simp
    · exact List.forall_mem_cons.mpr ⟨trivial, isFixed_nameList _⟩
  simp only [leading, List.forall_mem_append, List.forall_mem_cons, Piece.isFixed_text, true_and]
  exact ⟨⟨⟨isFixed_nameList _, hassigned⟩, hsources⟩, by simp⟩

/-- The words of an update have no names of their own and no values. -/
theorem own_words : ownNames (.text "UPDATE " :: nameList (u.targets d)) = [] ∧
    ownParameters (.text "UPDATE " :: nameList (u.targets d)) = [] ∧
    ownNames (if (u.sources d).isEmpty then [] else .text " FROM " :: nameList (u.sources d)) = [] ∧
    ownParameters (if (u.sources d).isEmpty then []
      else .text " FROM " :: nameList (u.sources d)) = [] := by
  have hlist : ∀ (s : String) (ns : List String),
      ∀ p ∈ Piece.text s :: nameList ns, p.IsWord :=
    fun s ns => List.forall_mem_cons.mpr ⟨trivial, Select.isWord_nameList ns⟩
  have htargets := words_have_no_names (d := d) (hlist "UPDATE " (u.targets d))
  refine ⟨htargets.1, htargets.2.1, ?_⟩
  split
  · exact ⟨rfl, rfl⟩
  · have hsources := words_have_no_names (d := d) (hlist " FROM " (u.sources d))
    exact ⟨hsources.1, hsources.2.1⟩

theorem ownNames_leading : ownNames (u.leading d) = u.assigned.map (·.name) := by
  obtain ⟨htargets, -, hsources, -⟩ := u.own_words (d := d)
  have hcolumn : ∀ a : Parameter,
      ownNames (u.columnPieces d a.name ++ [.text "=", Insert.valuePiece a]) = [a.name] := by
    intro a
    rw [ownNames_append, (words_have_no_names (d := d) (u.isWord_columnPieces a.name)).1]
    rfl
  have hassigned : ownNames (.text " SET " :: u.assignmentPieces (u.columnPieces d)) =
      u.assigned.map (·.name) := by
    show ownNames (separated ", " _) = _
    rw [ownNames_separated, List.flatMap_map]
    simp only [hcolumn, ← List.map_eq_flatMap]
  rw [leading, ownNames_append, ownNames_append, ownNames_append, htargets, hassigned, hsources]
  simp [ownNames]

/-- **The values in front of the condition are those of the assigned columns**, in their order. -/
theorem storedAll_leading : storedAll d (ownParameters (u.leading d)) = storedAll d u.assigned := by
  obtain ⟨-, htargets, -, hsources⟩ := u.own_words (d := d)
  have hcolumn : ∀ a : Parameter,
      ownParameters (u.columnPieces d a.name ++ [.text "=", Insert.valuePiece a]) =
        [⟨placeholderName a.name, a.type, a.value⟩] := by
    intro a
    rw [ownParameters_append, (words_have_no_names (d := d) (u.isWord_columnPieces a.name)).2.1]
    rfl
  have hassigned : ownParameters (.text " SET " :: u.assignmentPieces (u.columnPieces d)) =
      u.assigned.map (fun a => ⟨placeholderName a.name, a.type, a.value⟩) := by
    show ownParameters (separated ", " _) = _
    rw [ownParameters_separated, List.flatMap_map]
    simp only [hcolumn, ← List.map_eq_flatMap]
  have hleading : ownParameters (u.leading d) =
      u.assigned.map (fun a => ⟨placeholderName a.name, a.type, a.value⟩) := by
    rw [leading, ownParameters_append, ownParameters_append, ownParameters_append, htargets,
      hassigned, hsources]
    simp [ownParameters, Piece.ownParameter?]
  refine storedAll_congr ?_
  rw [hleading, List.map_map]
  rfl

end Leading

/-- The name of an assigned column in the text. -/
def columnText (d : Dialect) (u : Update) (n : String) : String :=
  if (u.targets d).length = 1 then d.quoteName n else d.quoteName u.table.name ++ "." ++ d.quoteName n

/-- The text of an update up to its condition. -/
def leadingText (d : Dialect) (u : Update) : String :=
  "UPDATE " ++ ", ".intercalate ((u.targets d).map d.quoteName) ++ " SET " ++
    ", ".intercalate (u.assigned.map (fun a =>
      u.columnText d a.name ++ "=" ++ mark d (placeholderName a.name))) ++
    (if (u.sources d).isEmpty then ""
      else " FROM " ++ ", ".intercalate ((u.sources d).map d.quoteName)) ++ " WHERE "

theorem wording_leading (u : Update) : wording d (u.leading d) = u.leadingText d := by
  have hcolumn : ∀ n, wording d (u.columnPieces d n) = u.columnText d n := by
    intro n
    unfold columnPieces columnText
    split <;> simp [qualified, wording, Piece.word, String.append_assoc]
  have hassignment : ∀ a : Parameter,
      wording d (u.columnPieces d a.name ++ [.text "=", Insert.valuePiece a]) =
        u.columnText d a.name ++ "=" ++ mark d (placeholderName a.name) := by
    intro a
    rw [wording_append, hcolumn, String.append_assoc]
    simp [wording, Piece.word, Insert.valuePiece]
  have hsources : wording d (if (u.sources d).isEmpty then []
      else .text " FROM " :: nameList (u.sources d)) = if (u.sources d).isEmpty then ""
        else " FROM " ++ ", ".intercalate ((u.sources d).map d.quoteName) := by
    split
    · rfl
    · rw [wording_cons, wording_nameList]
      rfl
  have hassigned : wording d (u.assignmentPieces (u.columnPieces d)) =
      ", ".intercalate (u.assigned.map (fun a =>
        u.columnText d a.name ++ "=" ++ mark d (placeholderName a.name))) := by
    rw [assignmentPieces, wording_separated, List.map_map]
    congr 2
    funext a
    exact hassignment a
  rw [leading, wording_append, wording_append, wording_append, hsources, wording_cons,
    wording_nameList, wording_cons, hassigned, leadingText]
  simp [wording, Piece.word, String.append_assoc]

/-! ### What can be prepared -/

/-- What an update whose places are written apart needs for a driver to be handed it. -/
structure IsAccepted (d : Dialect) (u : Update) : Prop where
  known : (Statement.update u).unknownColumns = []
  named : u.table.name ≠ "" ∧ ∀ a ∈ u.assigned, a.name ≠ ""
  worded : u.IsWorded d
  /-- No assigned column has the name that a place of the condition gets. -/
  left : Leaves (u.assigned.map (·.name)) (u.condition.asCondition.pieces d)
  stored : ∃ vs, storedAll d u.assigned = .ok vs
  condition : ∃ q, prepareOne d (u.condition.asCondition.pieces d) = .ok q

/-- What the driver is handed for an update: one execution, the columns with their places in the
text, and the condition.  Where its places are written apart, the values of the columns come in
the same order, and behind them those that the condition has by itself. -/
structure IsHanded (d : Dialect) (u : Update) (p : Prepared) : Prop where
  text : ∃ clause, p.sql = u.leadingText d ++ clause ∧
    Writes d (u.condition.asCondition.pieces d) clause
  values : u.PlacesApart d → ∃ vs q ws, storedAll d u.assigned = .ok vs ∧
    prepareOne d (u.condition.asCondition.pieces d) = .ok q ∧ q.rows = [ws] ∧ p.rows = [vs ++ ws]
  once : p.many = false

theorem isCounted_condition (u : Update) :
    ∀ p ∈ u.condition.asCondition.pieces d, p.IsCounted :=
  u.condition.asCondition.isCounted_pieces

/-- The names in front of a condition are the table's, those of the assigned columns, and those of
tables that the condition names itself. -/
theorem named_leading {u : Update} (htable : u.table.name ≠ "")
    (hcolumns : ∀ a ∈ u.assigned, a.name ≠ "")
    (hcondition : Named (u.condition.asCondition.pieces d)) : Named (u.leading d) := by
  have hforeign : ∀ t ∈ u.foreign, t ≠ "" := by
    rintro t ht rfl
    exact hcondition _ (Expr.foreign_mem_pieces ht) rfl
  have htargets : ∀ t ∈ u.targets d, t ≠ "" := by
    unfold targets
    split
    · exact List.forall_mem_cons.mpr ⟨htable, hforeign⟩
    · exact List.forall_mem_singleton.mpr htable
  have hassigned : Named (u.assignmentPieces (u.columnPieces d)) := by
    refine named_separated fun ps hps => ?_
    obtain ⟨a, ha, rfl⟩ := List.mem_map.mp hps
    have hname := hcolumns a ha
    unfold columnPieces
    split <;> simp [Named, qualified, Insert.valuePiece, hname, htable]
  have hnames : ∀ t ∈ u.sources d, t ≠ "" := by
    unfold sources
    split
    · simp
    · exact hforeign
  have hsources : Named (if (u.sources d).isEmpty then []
      else .text " FROM " :: nameList (u.sources d)) := by
    split
    · simp [Named]
    · exact List.forall_mem_cons.mpr ⟨by simp, named_nameList hnames⟩
  simp only [Named, leading, List.forall_mem_append, List.forall_mem_cons] at hassigned hsources ⊢
  exact ⟨⟨⟨⟨by simp, named_nameList htargets⟩, by simp, hassigned⟩, hsources⟩, by simp⟩

/-- An update of columns that its table does not have is refused with their names. -/
theorem prepare_of_unknown {u : Update} (hunknown : (Statement.update u).unknownColumns ≠ []) :
    (Statement.update u).prepare d =
      .error (.unknownColumns (Statement.update u).unknownColumns) := by
  unfold Statement.prepare
  split
  · rename_i hknown
    exact absurd hknown hunknown
  · rfl

theorem prepare_of_known {u : Update} (hknown : (Statement.update u).unknownColumns = []) :
    (Statement.update u).prepare d = (u.pieces d).bind (prepareOne d) := by
  unfold Statement.prepare
  rw [hknown]
  dsimp only
  cases u.pieces d <;> rfl

/-- The names in front of a condition are all written. -/
theorem names_of_named_leading {u : Update} (h : Named (u.leading d)) :
    u.table.name ≠ "" ∧ ∀ a ∈ u.assigned, a.name ≠ "" := by
  constructor
  · intro hempty
    refine h (.name u.table.name) ?_ (by rw [hempty])
    simp only [leading, List.mem_append, List.mem_cons]
    refine .inl (.inl (.inl (.inr ?_)))
    exact mem_separated (List.mem_map_of_mem List.mem_cons_self) List.mem_cons_self
  · intro a ha hempty
    refine h (.name a.name) ?_ (by rw [hempty])
    have hcolumn : .name a.name ∈ u.columnPieces d a.name := by
      unfold columnPieces
      split <;> simp [qualified]
    simp only [leading, List.mem_append, List.mem_cons]
    refine .inl (.inl (.inr (.inr ?_)))
    exact mem_separated (List.mem_map_of_mem ha) (List.mem_append_left _ hcolumn)

/-- **What a prepared update is handed over as, and was accepted for.** -/
theorem isHanded_of_prepare {u : Update} {p : Prepared}
    (h : (Statement.update u).prepare d = .ok p) :
    u.IsHanded d p ∧ (u.PlacesApart d → u.IsAccepted d) := by
  have hknown : (Statement.update u).unknownColumns = [] := by
    by_contra hunknown
    rw [prepare_of_unknown hunknown] at h
    cases h
  rw [prepare_of_known hknown] at h
  have hworded : u.IsWorded d := by
    by_contra hnot
    rw [pieces_of_not_isWorded hnot] at h
    cases h
  rw [pieces_of_isWorded hworded] at h
  have hone : prepareOne d (u.leading d ++ u.condition.asCondition.pieces d) = .ok p := h
  have hnamed := (List.forall_mem_append.mp (named_of_prepareAfter hone)).1
  have hleft := leaves_of_prepareOne u.isFixed_leading u.isCounted_condition hone
  rw [ownNames_leading] at hleft
  obtain ⟨text, hsql, htext⟩ := text_of_fixed_append u.isFixed_leading hone
  rw [wording_leading] at hsql
  -- Where places are written apart, the values of the columns and of the condition are told apart.
  have hvalues : u.PlacesApart d → ∃ vs q ws, storedAll d u.assigned = .ok vs ∧
      prepareOne d (u.condition.asCondition.pieces d) = .ok q ∧ q.rows = [ws] ∧
        p.rows = [vs ++ ws] := by
    intro hplaces
    have happlied : WrittenApart (ownNames (u.leading d) ++
        placeNames .empty (u.condition.asCondition.pieces d)) := by
      rw [ownNames_leading]
      exact hplaces
    obtain ⟨vs, tail, hvs, -⟩ := rows_of_fixed_append u.isFixed_leading happlied hone
    have hsplit := prepareOne_fixed_append u.isFixed_leading hnamed u.isCounted_condition
      (by rw [ownNames_leading]; exact hleft) happlied hvs
    rw [hone] at hsplit
    obtain ⟨q, hq, hqrows⟩ := map_eq_ok.mp hsplit.symm
    obtain ⟨sql, ws, rfl⟩ := single_of_prepareAfter hq
    exact ⟨vs, _, ws, by rw [← storedAll_leading, hvs], hq, rfl, hqrows.symm⟩
  refine ⟨⟨⟨text, hsql, htext⟩, hvalues, ?_⟩, fun hplaces => ?_⟩
  · obtain ⟨sql, ws, rfl⟩ := single_of_prepareAfter hone
    rfl
  · obtain ⟨vs, q, -, hstored, hq, -⟩ := hvalues hplaces
    exact ⟨hknown, names_of_named_leading hnamed, hworded, hleft, ⟨vs, hstored⟩, q, hq⟩

/-- **An update that is accepted can be prepared**, where its places are written apart. -/
theorem prepare_of_isAccepted {u : Update} (hplaces : u.PlacesApart d) (h : u.IsAccepted d) :
    ∃ p, (Statement.update u).prepare d = .ok p := by
  obtain ⟨vs, hvs⟩ := h.stored
  obtain ⟨q, hq⟩ := h.condition
  have hnamed := named_leading h.named.1 h.named.2 (named_of_prepareAfter hq)
  have hsplit := prepareOne_fixed_append u.isFixed_leading hnamed u.isCounted_condition
    (by rw [ownNames_leading]; exact h.left) (by rw [ownNames_leading]; exact hplaces)
    (by rw [storedAll_leading]; exact hvs)
  rw [hq] at hsplit
  obtain ⟨p, hp, -⟩ := map_eq_ok.mp hsplit
  refine ⟨p, ?_⟩
  rw [prepare_of_known h.known, pieces_of_isWorded h.worded]
  exact hp

end Update

end Sql

end TableQuery
