/-
Statements on another table.

A statement that names one table only can be moved to another: its table gets the other
name, and so does the table of every column that is qualified by it.  The printer looks at
the name of a table only to write it down.  So the pieces of a moved statement are those of
the statement, apart from the names of the table (`Piece.Moved`), and so are its parts and
stretches further on, until the texts come out as one text with gaps, in all of which the
one name stands or the other; the values do not change at all.
-/
import TableQuery.Proofs.Sql.Mentions
import TableQuery.Proofs.Sql.Rendering
import TableQuery.Sql.Statement.Printer

namespace TableQuery

namespace Sql

/-! ### Moved statements -/

/-- A column with one table in the place of another. -/
def ColumnRef.moved (A T : String) (c : ColumnRef) : ColumnRef :=
  if c.table = some A then { c with table := some T } else c

/-- An expression with one table in the place of another. -/
def Expr.moved (A T : String) : Expr → Expr := Expr.map (ColumnRef.moved A T) id

/-- A key of an order with one table in the place of another. -/
def OrderKey.moved (A T : String) : OrderKey → OrderKey
  | .column c => .column (c.moved A T)
  | .verbatim name => .verbatim name

/-- A column without its table, unless that is the given one. -/
def ColumnRef.keptTo (A : String) (c : ColumnRef) : ColumnRef :=
  { c with table := c.table.filter (fun n => n = A) }

/-- A query of another table. -/
def Select.moved (A T : String) (s : Select) : Select :=
  { s with
    table := s.table.rename T
    condition := s.condition.map (Expr.moved A T)
    orders := s.orders.map (fun o => (o.1.moved A T, o.2)) }

/-- An insert into another table. -/
def Insert.moved (T : String) (i : Insert) : Insert := { i with table := i.table.rename T }

/-- An update of another table. -/
def Update.moved (A T : String) (u : Update) : Update :=
  { u with table := u.table.rename T, condition := u.condition.moved A T }

/-- A delete from another table. -/
def Delete.moved (A T : String) (x : Delete) : Delete :=
  ⟨x.table.rename T, x.condition.moved A T⟩

/-- A statement on another table; a raw one is left as it is. -/
def Statement.moved (A T : String) : Statement → Statement
  | .select s => .select (s.moved A T)
  | .insert i => .insert (i.moved T)
  | .update u => .update (u.moved A T)
  | .delete x => .delete (x.moved A T)
  | .raw b => .raw b

/-- Whether an expression names no table but one. -/
def Expr.NamesOnly (A : String) (e : Expr) : Prop := ∀ c ∈ e.columns, ∀ t ∈ c.table, t = A

/-- Whether a key of an order names no table but one. -/
def OrderKey.NamesOnly (A : String) : OrderKey → Prop
  | .column c => ∀ t ∈ c.table, t = A
  | .verbatim _ => True

/-- Whether a statement names one table and no other; what a raw one names is not known. -/
def Statement.NamesOnly (A : String) : Statement → Prop
  | .select s => s.table.name = A ∧ (∀ e ∈ s.condition, e.NamesOnly A) ∧
      ∀ o ∈ s.orders, o.1.NamesOnly A
  | .insert i => i.table.name = A
  | .update u => u.table.name = A ∧ u.condition.NamesOnly A
  | .delete x => x.table.name = A ∧ x.condition.NamesOnly A
  | .raw _ => False

variable {A T : String}

theorem ColumnRef.name_moved (c : ColumnRef) : (c.moved A T).name = c.name := by
  unfold moved
  split <;> rfl

theorem ColumnRef.type_moved (c : ColumnRef) : (c.moved A T).type = c.type := by
  unfold moved
  split <;> rfl

theorem ColumnRef.table_moved {c : ColumnRef} (h : ∀ t ∈ c.table, t = A) :
    ∀ t ∈ (c.moved A T).table, t = T := by
  unfold moved
  split
  · simp
  · rename_i hne
    cases hc : c.table with
    | none => simp
    | some t => exact absurd (by rw [hc, h t hc]) hne

theorem ColumnRef.keptTo_eq_iff {c : ColumnRef} : c.keptTo A = c ↔ ∀ t ∈ c.table, t = A := by
  rcases c with ⟨name, _ | t, type⟩ <;> simp [keptTo]

/-- An expression that loses no table when all but one are taken away names only that. -/
theorem Expr.namesOnly_of_keptTo {e : Expr} (h : e.map (ColumnRef.keptTo A) id = e) :
    e.NamesOnly A := by
  have hcolumns : e.columns.map (ColumnRef.keptTo A) = e.columns.map id := by
    rw [← columns_map _ id, h, List.map_id]
  intro c hc
  exact ColumnRef.keptTo_eq_iff.mp (List.map_inj_left.mp hcolumns c hc)

theorem Expr.NamesOnly.moved {e : Expr} (h : e.NamesOnly A) : (e.moved A T).NamesOnly T := by
  intro c hc
  rw [Expr.moved, columns_map] at hc
  obtain ⟨c₀, hc₀, rfl⟩ := List.mem_map.mp hc
  exact ColumnRef.table_moved (h c₀ hc₀)

theorem OrderKey.NamesOnly.moved {o : OrderKey} (h : o.NamesOnly A) :
    (o.moved A T).NamesOnly T := by
  cases o with
  | column c => exact ColumnRef.table_moved h
  | verbatim name => trivial

/-- **A moved statement names the other table and no other.** -/
theorem Statement.NamesOnly.moved {x : Statement} (h : x.NamesOnly A) :
    (x.moved A T).NamesOnly T := by
  cases x with
  | select s =>
      obtain ⟨-, hcondition, horders⟩ := h
      refine ⟨rfl, fun e he => ?_, fun o ho => ?_⟩
      · obtain ⟨e₀, he₀, rfl⟩ := Option.map_eq_some_iff.mp he
        exact (hcondition e₀ he₀).moved
      · obtain ⟨o₀, ho₀, rfl⟩ := List.mem_map.mp ho
        exact (horders o₀ ho₀).moved
  | insert i => rfl
  | update u => exact ⟨rfl, h.2.moved⟩
  | delete x => exact ⟨rfl, h.2.moved⟩
  | raw b => exact h.elim

theorem Expr.foreignTables_of_namesOnly {e : Expr} (h : e.NamesOnly A) :
    e.foreignTables A = [] := by
  rw [foreignTables, List.filterMap_eq_nil_iff]
  intro c hc
  cases hctable : c.table with
  | none => rfl
  | some t => simp [h c hc t hctable]

/-! ### Their pieces -/

/-- Whether two things are the same, or one given thing and the one in its place. -/
inductive SameBut {α : Type} (a b : α) : α → α → Prop
  | same (x : α) : SameBut a b x x
  | moved : SameBut a b a b

/-- Whether pieces are the same, or the name of a table and that of another. -/
abbrev Piece.Moved (A T : String) : Piece → Piece → Prop := SameBut (.name A) (.name T)

theorem moved_refl (ps : List Piece) : List.Forall₂ (Piece.Moved A T) ps ps :=
  List.forall₂_same.mpr fun p _ => .same p

theorem moved_text_cons (s : String) {ps qs : List Piece}
    (h : List.Forall₂ (Piece.Moved A T) ps qs) :
    List.Forall₂ (Piece.Moved A T) (.text s :: ps) (.text s :: qs) :=
  .cons (.same _) h

theorem moved_separated (separator : String) {pss qss : List (List Piece)}
    (h : List.Forall₂ (List.Forall₂ (Piece.Moved A T)) pss qss) :
    List.Forall₂ (Piece.Moved A T) (separated separator pss) (separated separator qss) :=
  rel_separated (.same _) h

theorem moved_parenthesised {ps qs : List Piece} (h : List.Forall₂ (Piece.Moved A T) ps qs) :
    List.Forall₂ (Piece.Moved A T) (parenthesised ps) (parenthesised qs) :=
  List.rel_append (moved_text_cons "(" h) (moved_refl _)

theorem ColumnRef.pieces_moved (c : ColumnRef) :
    List.Forall₂ (Piece.Moved A T) c.pieces (c.moved A T).pieces := by
  unfold moved pieces
  by_cases h : c.table = some A
  · simp only [h, if_true]
    exact .cons .moved (moved_refl _)
  · rw [if_neg h]
    exact moved_refl _

theorem ColumnRef.slot_moved (c : ColumnRef) (vs : List Value) :
    (c.moved A T).slot vs = c.slot vs := by
  rw [slot, slot, name_moved, type_moved]

variable (d : Dialect)

/-- **An expression of another table is written alike.** -/
theorem Expr.pieces_moved (e : Expr) :
    List.Forall₂ (Piece.Moved A T) (e.pieces d) ((e.moved A T).pieces d) := by
  induction e using Expr.induction with
  | compare r c v =>
      rw [Expr.moved, map, pieces, pieces, id_eq, ColumnRef.slot_moved]
      exact List.rel_append c.pieces_moved (moved_refl _)
  | truth n c b =>
      rw [Expr.moved, map, pieces, pieces]
      exact List.rel_append c.pieces_moved (moved_refl _)
  | null n c =>
      rw [Expr.moved, map, pieces, pieces]
      exact List.rel_append c.pieces_moved (moved_refl _)
  | member n c vs =>
      rw [Expr.moved, map, List.map_id]
      cases n with
      | false =>
          rw [pieces, pieces, ColumnRef.slot_moved]
          exact List.rel_append c.pieces_moved (moved_refl _)
      | true =>
          rw [pieces, pieces, ColumnRef.slot_moved]
          exact List.rel_append (moved_text_cons "(" c.pieces_moved) (moved_refl _)
  | column c =>
      rw [Expr.moved, map, pieces, pieces]
      exact c.pieces_moved
  | flag c s =>
      rw [Expr.moved, map, pieces, pieces, flagPieces, flagPieces]
      split
      · split
        · exact c.pieces_moved
        · exact moved_text_cons _ c.pieces_moved
      · exact List.rel_append c.pieces_moved (moved_refl _)
  | native s => rw [Expr.moved, map]; exact moved_refl _
  | nullValue => rw [Expr.moved, map]; exact moved_refl _
  | const b => rw [Expr.moved, map]; exact moved_refl _
  | constTest b => rw [Expr.moved, map]; exact moved_refl _
  | not e ih =>
      rw [Expr.moved, map, pieces, pieces, isGroupedByNot_map]
      refine moved_text_cons _ ?_
      split
      · exact moved_parenthesised ih
      · exact ih
  | junction j es ih =>
      rw [Expr.moved, map, mapAll_eq_map, pieces, pieces]
      exact rel_junctionPieces (isGroupedIn_map j) (fun _ => .same _) ih

theorem conditionPieces_moved (lead : String) (e : Expr) :
    List.Forall₂ (Piece.Moved A T) (conditionPieces d lead e)
      (conditionPieces d lead (e.moved A T)) := by
  unfold conditionPieces
  rw [Expr.moved, Expr.asCondition_map (e.keepsType ColumnRef.type_moved)]
  exact moved_text_cons lead (e.asCondition.pieces_moved d)

theorem qualified_moved (names : List String) :
    List.Forall₂ (List.Forall₂ (Piece.Moved A T)) (names.map (qualified A))
      (names.map (qualified T)) := by
  rw [List.forall₂_map_left_iff, List.forall₂_map_right_iff]
  exact List.forall₂_same.mpr fun n _ => .cons .moved (moved_refl _)

theorem Select.outputPieces_moved (s : Select) (h : s.table.name = A) :
    List.Forall₂ (Piece.Moved A T) s.outputPieces (s.moved A T).outputPieces := by
  unfold outputPieces Select.moved
  cases s.output with
  | columns =>
      rw [h]
      exact moved_separated ", " (qualified_moved _)
  | everything => exact moved_refl _
  | count => exact moved_refl _

/-- A query that names one table reads from that table. -/
theorem Select.tables_of_namesOnly {s : Select} (h : (Statement.select s).NamesOnly A) :
    s.tables = [A] := by
  obtain ⟨htable, hcondition, -⟩ := h
  unfold tables
  rw [htable]
  cases hc : s.condition with
  | none => rfl
  | some e => simp [Expr.foreignTables_of_namesOnly (hcondition e hc)]

theorem Select.keyPieces_moved (o : OrderKey × Bool) :
    List.Forall₂ (Piece.Moved A T) (keyPieces o) (keyPieces (o.1.moved A T, o.2)) := by
  obtain ⟨key, descending⟩ := o
  cases key with
  | column c =>
      cases descending with
      | true => exact List.rel_append c.pieces_moved (moved_refl _)
      | false => exact c.pieces_moved
  | verbatim name => exact moved_refl _

theorem Select.orderPieces_moved (orders : List (OrderKey × Bool)) :
    List.Forall₂ (Piece.Moved A T) (orderPieces orders)
      (orderPieces (orders.map (fun o => (o.1.moved A T, o.2)))) := by
  unfold orderPieces
  cases orders with
  | nil => exact .nil
  | cons o os =>
      refine moved_text_cons _ (moved_separated ", " ?_)
      rw [List.map_map, List.forall₂_map_left_iff, List.forall₂_map_right_iff]
      exact List.forall₂_same.mpr fun o _ => keyPieces_moved o

theorem Select.pieces_moved {s : Select} (h : (Statement.select s).NamesOnly A) :
    List.Forall₂ (Piece.Moved A T) (s.pieces d) ((s.moved A T).pieces d) := by
  have htables : List.Forall₂ (Piece.Moved A T) (nameList s.tables)
      (nameList (s.moved A T).tables) := by
    have hmoved : (Statement.select (s.moved A T)).NamesOnly T := h.moved
    rw [tables_of_namesOnly h, tables_of_namesOnly hmoved]
    exact .cons .moved .nil
  unfold pieces coreParts
  refine List.rel_append (List.rel_append ?_ (orderPieces_moved s.orders)) (moved_refl _)
  refine List.rel_append ?_ ?_
  · exact List.rel_append (moved_text_cons _ (s.outputPieces_moved h.1)) (moved_text_cons _ htables)
  · unfold Select.moved
    cases s.condition with
    | none => exact .nil
    | some e => exact conditionPieces_moved d _ e

theorem Insert.pieces_moved {i : Insert} (h : i.table.name = A) :
    Together (List.Forall₂ (Piece.Moved A T)) (i.pieces d) ((i.moved T).pieces d) := by
  have hreturning : List.Forall₂ (Piece.Moved A T) (i.returningPieces d)
      ((i.moved T).returningPieces d) := by
    have hcolumns : (i.moved T).returnedColumns d = i.returnedColumns d := rfl
    unfold returningPieces
    rw [hcolumns]
    cases i.returnedColumns d with
    | nil => exact .nil
    | cons c cs =>
        refine moved_text_cons _ (moved_separated ", " ?_)
        rw [List.forall₂_map_left_iff, List.forall₂_map_right_iff]
        refine List.forall₂_same.mpr fun c _ => ?_
        split
        · rw [h]
          exact .cons .moved (moved_refl _)
        · exact moved_refl _
  have hvalues : (i.moved T).valuePieces d = i.valuePieces d := rfl
  unfold pieces
  rw [hvalues]
  cases i.valuePieces d with
  | error e => exact .error e
  | ok values =>
      refine .ok (moved_text_cons _ ?_)
      rw [h]
      exact .cons .moved (List.rel_append (moved_refl _) hreturning)

theorem Update.pieces_moved {u : Update} (h : (Statement.update u).NamesOnly A) :
    Together (List.Forall₂ (Piece.Moved A T)) (u.pieces d) ((u.moved A T).pieces d) := by
  obtain ⟨htable, hcondition⟩ := h
  have hown : u.condition.foreignTables u.table.name = [] := by
    rw [htable]
    exact Expr.foreignTables_of_namesOnly hcondition
  have hmoved : (u.moved A T).condition.foreignTables (u.moved A T).table.name = [] :=
    Expr.foreignTables_of_namesOnly hcondition.moved
  have hassigned : (u.moved A T).assignmentPieces (fun n => [.name n]) =
      u.assignmentPieces (fun n => [.name n]) := rfl
  unfold pieces
  simp only [hown, hmoved, hassigned]
  refine .ok (moved_text_cons _ ?_)
  rw [htable]
  refine .cons .moved (moved_text_cons _ ?_)
  exact List.rel_append (moved_refl _) (conditionPieces_moved d _ u.condition)

theorem Delete.pieces_moved {x : Delete} (h : (Statement.delete x).NamesOnly A) :
    Together (List.Forall₂ (Piece.Moved A T)) (x.pieces d) ((x.moved A T).pieces d) := by
  obtain ⟨htable, hcondition⟩ := h
  have hown : x.condition.foreignTables x.table.name = [] := by
    rw [htable]
    exact Expr.foreignTables_of_namesOnly hcondition
  have hmoved : (x.moved A T).condition.foreignTables (x.moved A T).table.name = [] :=
    Expr.foreignTables_of_namesOnly hcondition.moved
  unfold pieces
  simp only [hown, hmoved]
  refine .ok (moved_text_cons _ ?_)
  rw [htable]
  exact .cons .moved (conditionPieces_moved d _ x.condition)

/-! ### Their text -/

/-- Whether texts are one text with gaps, in all of which the name of a table stands, and that
of another. -/
def TextMoved (A T : String) (s s' : String) : Prop :=
  ∃ gaps : List (Option String), s = String.join (gaps.map (·.getD (d.quoteName A))) ∧
    s' = String.join (gaps.map (·.getD (d.quoteName T)))

/-- Whether parts are the same, or the name of a table and that of another. -/
abbrev Placed.Moved (A T : String) : Placed → Placed → Prop :=
  SameBut (.text (d.quoteName A)) (.text (d.quoteName T))

/-- Whether stretches are the same, or the name of a table and that of another. -/
abbrev Rendered.Moved (A T : String) : Rendered → Rendered → Prop :=
  SameBut ⟨d.quoteName A, []⟩ ⟨d.quoteName T, []⟩

variable {d}

theorem place_moved (hA : A ≠ "") (hT : T ≠ "") {ps qs : List Piece}
    (h : List.Forall₂ (Piece.Moved A T) ps qs) (n : Naming) :
    Together (List.Forall₂ (Placed.Moved d A T)) (place d n ps) (place d n qs) := by
  induction h generalizing n with
  | nil => exact .ok .nil
  | @cons p _ _ _ hp _ ih =>
      cases hp with
      | moved =>
          rw [place, place, writeName, writeName, if_neg hA, if_neg hT]
          exact (ih n).map (fun _ _ => .cons .moved)
      | same =>
          cases p with
          | text s => exact (ih n).map (fun _ _ => .cons (.same _))
          | missing slot => exact (ih n).map (fun _ _ => .cons (.same _))
          | name s =>
              rw [place, place]
              cases writeName d s with
              | error e => exact .error e
              | ok s => exact (ih n).map (fun _ _ => .cons (.same _))
          | value slot v =>
              rw [place, place]
              cases slot.placeholder n with
              | error e => exact .error e
              | ok placeholder => exact (ih _).map (fun _ _ => .cons (.same _))
          | members slot use vs =>
              rw [place, place]
              cases slot.placeholder n with
              | error e => exact .error e
              | ok placeholder => exact (ih _).map (fun _ _ => .cons (.same _))

theorem stretches_moved {taken : List String} {xs ys : List Placed}
    (h : List.Forall₂ (Placed.Moved d A T) xs ys) (written : List (String × Rendered)) :
    Together (List.Forall₂ (Rendered.Moved d A T)) (stretches d taken written xs)
      (stretches d taken written ys) := by
  induction h generalizing written with
  | nil => exact .ok .nil
  | @cons x _ _ _ hx _ ih =>
      cases hx with
      | moved =>
          rw [stretches, stretches]
          exact (ih written).map (fun _ _ => .cons .moved)
      | same =>
          cases x with
          | text s =>
              rw [stretches, stretches]
              exact (ih written).map (fun _ _ => .cons (.same _))
          | value p =>
              rw [stretches, stretches]
              exact (ih written).map (fun _ _ => .cons (.same _))
          | missing name =>
              rw [stretches, stretches]
              exact .error _
          | spread name type vs =>
              rw [stretches, stretches]
              cases Members.ofList type vs with
              | error e => exact .error e
              | ok m => exact (ih written).map (fun _ _ => .cons (.same _))
          | members name type use vs =>
              rw [stretches, stretches]
              split
              · exact (ih written).map (fun _ _ => .cons (.same _))
              · dsimp only
                split
                · exact .error _
                · exact (ih _).map (fun _ _ => .cons (.same _))

/-- Whether what is rendered differs in the name of the table alone. -/
structure Rendered.MovedAs (d : Dialect) (A T : String) (r r' : Rendered) : Prop where
  text : TextMoved d A T r.sql r'.sql
  parameters : r'.parameters = r.parameters

theorem concat_moved {rs rs' : List Rendered} (h : List.Forall₂ (Rendered.Moved d A T) rs rs') :
    Rendered.MovedAs d A T (.concat rs) (.concat rs') := by
  induction h with
  | nil => exact ⟨⟨[], rfl, rfl⟩, rfl⟩
  | @cons r _ _ _ hr _ ih =>
      obtain ⟨⟨gaps, hsql, hsql'⟩, hparameters⟩ := ih
      rw [concat_cons, concat_cons]
      cases hr with
      | moved =>
          refine ⟨⟨none :: gaps, ?_, ?_⟩, hparameters⟩
          · simp [hsql]
          · simp [hsql']
      | same =>
          refine ⟨⟨some r.sql :: gaps, ?_, ?_⟩, ?_⟩
          · simp [hsql]
          · simp [hsql']
          · rw [hparameters]

theorem firstMissing_moved {xs ys : List Placed} (h : List.Forall₂ (Placed.Moved d A T) xs ys) :
    firstMissing ys = firstMissing xs := by
  induction h with
  | nil => rfl
  | @cons x _ _ _ hx _ ih =>
      cases hx with
      | moved => exact ih
      | same => cases x <;> first | rfl | exact ih

theorem names_moved {xs ys : List Placed} (h : List.Forall₂ (Placed.Moved d A T) xs ys) :
    ys.filterMap Placed.name? = xs.filterMap Placed.name? := by
  induction h with
  | nil => rfl
  | cons hx _ ih =>
      cases hx with
      | moved => exact ih
      | same => rw [List.filterMap_cons, List.filterMap_cons, ih]

/-- **Parts that differ in the name of a table are written as texts that do.** -/
theorem expand_moved {xs ys : List Placed} (h : List.Forall₂ (Placed.Moved d A T) xs ys) :
    Together (Rendered.MovedAs d A T) (expand d xs) (expand d ys) := by
  unfold expand
  rw [firstMissing_moved h, names_moved h]
  split
  · exact .error _
  · exact (stretches_moved h []).map (fun _ _ => concat_moved)

/-! ### What their places read -/

/-- Whether named parts are the same, or the name of a table and that of another. -/
def NamedPart.Moved (d : Dialect) (A T : String) (x y : NamedPart) : Prop :=
  x.1 = y.1 ∧ Placed.Moved d A T x.2 y.2

theorem namedAlike_moved : NamedAlike Prod.fst Prod.fst (NamedPart.Moved d A T) :=
  .of_eq fun _ _ h => h.1

theorem valuesAlike_moved : ValuesAlike (NamedPart.Moved d A T) := by
  rintro ⟨name, part⟩ ⟨name', part'⟩ ⟨-, h⟩
  cases h with
  | moved => exact .inr ⟨rfl, rfl⟩
  | same => cases part <;> first | exact .inl ⟨rfl, rfl⟩ | exact .inr ⟨rfl, rfl⟩

theorem reading_moved {x y x' y' : Placed} (h : Placed.Moved d A T x y)
    (h' : Placed.Moved d A T x' y') :
    Placed.Moved d A T (x.reading x') (y.reading y') ∧ x.unlisted? x' = y.unlisted? y' := by
  cases h with
  | moved => exact ⟨h', rfl⟩
  | same =>
      cases h' with
      | same => exact ⟨.same _, rfl⟩
      | moved => cases x <;> exact ⟨.moved, rfl⟩

/-- The binds of pieces that differ in the name of a table are the same. -/
theorem bindNames_moved {ps qs : List Piece} (h : List.Forall₂ (Piece.Moved A T) ps qs)
    (n : Naming) : bindNames n ps = bindNames n qs := by
  induction h generalizing n with
  | nil => rfl
  | @cons p _ _ _ hp _ ih =>
      cases hp with
      | moved => exact congrArg (none :: ·) (ih n)
      | same =>
          cases p with
          | text s | name s | missing slot => exact congrArg (none :: ·) (ih n)
          | value slot v | members slot use vs => exact congrArg (some _ :: ·) (ih _)

theorem renderParts_moved (report : Reporting) {xs ys : List NamedPart}
    (h : List.Forall₂ (NamedPart.Moved d A T) xs ys) :
    Together (Rendered.MovedAs d A T) (renderParts report d xs) (renderParts report d ys) := by
  unfold renderParts
  rw [areMerged_rel namedAlike_moved h,
    unlisted?_rel namedAlike_moved (fun h h' _ => (reading_moved h.2 h'.2).2) h]
  split
  · exact .error _
  · rcases (expand_moved (served_rel namedAlike_moved valuesAlike_moved (fun h => h.2)
      (fun h h' => (reading_moved h.2 h'.2).1) h)).cases with ⟨e, hx, hy⟩ | ⟨r, r', hx, hy, hr⟩
    · rw [hx, hy]
      exact .error _
    · rw [hx, hy]
      cases unlisted? d ys with
      | some name => exact .error _
      | none => exact .ok hr

theorem renderAfter_moved (report : Reporting) (hA : A ≠ "") (hT : T ≠ "") {ps qs : List Piece}
    (h : List.Forall₂ (Piece.Moved A T) ps qs) (n : Naming) :
    Together (Rendered.MovedAs d A T) (renderAfter report d n ps) (renderAfter report d n qs) := by
  unfold renderAfter
  rcases (place_moved hA hT h n).cases with ⟨e, hx, hy⟩ | ⟨xs, ys, hx, hy, hxs⟩
  · rw [hx, hy]
    exact .error e
  · rw [hx, hy, bindNames_moved h]
    refine renderParts_moved report ?_
    have hpairs : ∀ (names : List (Option String)) {xs ys : List Placed},
        List.Forall₂ (Placed.Moved d A T) xs ys →
          List.Forall₂ (NamedPart.Moved d A T) (names.zip xs) (names.zip ys) := by
      intro names xs ys h
      induction h generalizing names with
      | nil => simp
      | cons hhead _ ih =>
          cases names with
          | nil => exact .nil
          | cons name names => exact .cons ⟨rfl, hhead⟩ (ih names)
    exact hpairs _ hxs

/-! ### As the driver receives them -/

/-- Whether what the driver receives differs in the name of a table alone. -/
structure Prepared.Moved (d : Dialect) (A T : String) (p p' : Prepared) : Prop where
  text : TextMoved d A T p.sql p'.sql
  rows : p'.rows = p.rows
  many : p'.many = p.many

theorem prepareAfter_moved (hA : A ≠ "") (hT : T ≠ "") {ps qs : List Piece}
    (h : List.Forall₂ (Piece.Moved A T) ps qs) (n : Naming) :
    Together (Prepared.Moved d A T) (prepareAfter d n ps) (prepareAfter d n qs) := by
  unfold prepareAfter
  rcases (renderAfter_moved whenRun hA hT h n).cases with ⟨e, hx, hy⟩ | ⟨r, r', hx, hy, hr⟩
  · rw [hx, hy]
    exact .error _
  · rw [hx, hy]
    dsimp only
    rw [hr.parameters]
    cases storedAll d r.parameters with
    | error e => exact .error _
    | ok vs => exact .ok ⟨hr.text, rfl, rfl⟩

theorem Insert.storedRows_moved (i : Insert) : (i.moved T).storedRows d = i.storedRows d := by
  have hwritten : (i.moved T).written = i.written := rfl
  have hparameters : ∀ (rs : List Row) (n : Nat),
      (i.moved T).parametersFrom n rs = i.parametersFrom n rs := by
    intro rs
    induction rs with
    | nil => intro n; rfl
    | cons r rs ih =>
        intro n
        rw [parametersFrom, parametersFrom, hwritten, ih]
  unfold storedRows
  rw [hparameters]
  rfl

theorem Insert.prepare_moved (hA : A ≠ "") (hT : T ≠ "") {i : Insert} (h : i.table.name = A) :
    Together (Prepared.Moved d A T) (i.prepare d) ((i.moved T).prepare d) := by
  unfold prepare
  rcases (Insert.pieces_moved d h).cases with ⟨e, hx, hy⟩ | ⟨ps, qs, hx, hy, hps⟩
  · rw [hx, hy]
    exact .error e
  · rw [hx, hy]
    dsimp only
    have hrender : Together (Rendered.MovedAs d A T) (render d ps) (render d qs) :=
      renderAfter_moved _ hA hT hps .empty
    rcases hrender.cases with ⟨e, hx, hy⟩ | ⟨r, r', hx, hy, hr⟩
    · rw [hx, hy]
      exact .error e
    · rw [hx, hy, storedRows_moved]
      cases i.storedRows d with
      | error e => exact .error _
      | ok rows => exact .ok ⟨hr.text, rfl, rfl⟩

/-- **A moved statement is prepared alike**: it fails alike, or its text differs in the name
of the table alone and its values do not differ. -/
theorem Statement.prepare_moved (hA : A ≠ "") (hT : T ≠ "") {x : Statement} (h : x.NamesOnly A) :
    Together (Prepared.Moved d A T) (x.prepare d) ((x.moved A T).prepare d) := by
  have hunknown : (x.moved A T).unknownColumns = x.unknownColumns := by cases x <;> rfl
  unfold prepare
  rw [hunknown]
  cases x.unknownColumns with
  | cons n ns => exact .error _
  | nil =>
      cases x with
      | select s => exact prepareAfter_moved hA hT (Select.pieces_moved d h) s.naming
      | insert i => exact Insert.prepare_moved hA hT h
      | update u =>
          dsimp only [moved]
          rcases (Update.pieces_moved d h).cases with ⟨e, hx, hy⟩ | ⟨ps, qs, hx, hy, hps⟩
          · rw [hx, hy]
            exact .error e
          · rw [hx, hy]
            exact prepareAfter_moved hA hT hps .empty
      | delete x =>
          dsimp only [moved]
          rcases (Delete.pieces_moved d h).cases with ⟨e, hx, hy⟩ | ⟨ps, qs, hx, hy, hps⟩
          · rw [hx, hy]
            exact .error e
          · rw [hx, hy]
            exact prepareAfter_moved hA hT hps .empty
      | raw b => exact h.elim

end Sql

end TableQuery
