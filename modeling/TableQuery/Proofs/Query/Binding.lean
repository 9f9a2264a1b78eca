/-
One query under every binding.

A statement runs against the table of a model, a copy of it under another name, or a table
known by its name alone, and a query can be translated for no table as well.  All that the
binding decides is how a bare column is named: with the table when that has a column of
the name, and as it stands otherwise (`ColumnRef.boundTo`).  So the translations of a query
under two bindings are one expression over bare columns, named for the one and for the
other (`toExpr_boundTo`), and its text differs piece by piece in the same way
(`pieces_boundTo`).

With the name a column takes its type from the table, and linking looks at the type of a
column that is a condition by itself.  `OnFields` leaves such columns out: in a
condition the column is compared with something, whatever its type.  A list of values is
one piece here; how its members are written out is decided later, by the type on its place.
-/
import TableQuery.Proofs.Query.Moving
import TableQuery.Proofs.Sql.Assignments

namespace TableQuery

open Sql

variable {b : Option Table}

namespace Sql.ColumnRef

/-- How a bare column of the same name is referred to under a binding, a table or none. -/
def boundTo (b : Option Table) (c : ColumnRef) : ColumnRef :=
  match b with
  | none => ⟨c.name, none, .unknown⟩
  | some t => ((t.column? c.name).map (fun col => ⟨c.name, some t.name, col.type⟩)).getD
      ⟨c.name, none, .unknown⟩

theorem name_boundTo (b : Option Table) (c : ColumnRef) : (c.boundTo b).name = c.name := by
  cases b with
  | none => rfl
  | some t =>
      rw [boundTo]
      cases t.column? c.name <;> rfl

/-- **A column is qualified exactly by the table that has one of its name.** -/
theorem table_boundTo (b : Option Table) (c : ColumnRef) : (c.boundTo b).table =
    (b.filter (fun t => t.columnNames.contains c.name)).map (·.name) := by
  cases b with
  | none => rfl
  | some t =>
      rw [boundTo, Option.filter_some, ← t.column?_isSome c.name]
      cases t.column? c.name <;> rfl

theorem boundTo_boundTo (b b' : Option Table) (c : ColumnRef) :
    (c.boundTo b).boundTo b' = c.boundTo b' := by
  have hname := name_boundTo b c
  generalize c.boundTo b = r at hname
  unfold boundTo
  rw [hname]

end Sql.ColumnRef

/-! ### Columns -/

namespace Column

theorem resolve_boundTo {c : Column} (h : c.table = none) (b : Option Table) :
    c.resolve b = (c.resolve none).boundTo b := by
  have hnone : c.resolve none = ⟨c.name, none, .unknown⟩ := by
    rw [resolve, elsewhere?_of_unqualified h, within?]
  cases b with
  | none => rw [hnone]; rfl
  | some t => rw [hnone, resolve_of_unqualified h]; rfl

/-- The name of the bound table qualifies as no name does. -/
theorem resolve_of_own {c : Column} {t : Table} (h : c.table = some t.name) :
    c.resolve (some t) = (c.withTable none).resolve (some t) := by
  have hown : c.elsewhere? (some t) = none := by simp [elsewhere?, h]
  have hbare : (c.withTable none).elsewhere? (some t) = none := elsewhere?_of_unqualified rfl _
  rw [resolve, resolve, hown, hbare]
  rfl

/-- **Another name stays with its column under every binding.** -/
theorem resolve_of_other {c : Column} {own : String} (h : c.table = some own)
    (hb : ∀ t ∈ b, t.name ≠ own) : c.resolve b = ⟨c.name, some own, .unknown⟩ := by
  have helsewhere : c.elsewhere? b = some ⟨c.name, some own, .unknown⟩ := by
    rw [elsewhere?, h]
    cases b with
    | none => rfl
    | some t => simp [hb t rfl]
  rw [resolve, helsewhere]

end Column

/-- A qualified column is written with its table, whatever can be known of it. -/
theorem Sql.render_qualified (d : Dialect) (own : String) {name : String} (hname : name ≠ "")
    (type : SqlType) : render d (ColumnRef.pieces ⟨name, some own, type⟩) =
      (writeName d own).map (fun s => ⟨s ++ "." ++ d.quoteName name, []⟩) := by
  have hwritten : writeName d name = .ok (d.quoteName name) := if_neg hname
  have hplaces : placeNames .empty (ColumnRef.pieces ⟨name, some own, type⟩) = [] := rfl
  rw [render, renderAfter_of_apart _ (by simp [hplaces, WrittenApart]), ColumnRef.pieces, place]
  cases writeName d own with
  | error e => rfl
  | ok s =>
      simp [place, hwritten, Except.map, Except.bind, expand, firstMissing, stretches,
        Rendered.concat, Except.mapError, String.join]

/-! ### Conditions and queries -/

namespace Condition

theorem toExpr_boundTo {c : Condition} (h : c.column.table = none) (b : Option Table) :
    c.toExpr b = (c.toExpr none).map (Expr.map (ColumnRef.boundTo b) id) := by
  rw [toExpr, toExpr, Column.resolve_boundTo h]
  exact expression_map _ _ _ _

end Condition

namespace Query

/-- Whether a query is made of conditions on columns that no table qualifies, of keywords,
and of parts that have no expression. -/
def OnFields (q : Query) : Prop :=
  ∀ p ∈ q.leaves, ∃ c : Condition, p = condition c ∧ c.column.table = none

variable {q : Query}

/-- **A translation under a binding is the one under none, with its columns named for it.** -/
theorem toExpr_boundTo (h : q.OnFields) (b : Option Table) : (q.toExpr b).result =
    (q.toExpr none).result.map (Option.map (Expr.map (ColumnRef.boundTo b) id)) := by
  have hcondition : ∀ c, condition c ∈ q.leaves →
      (id c).toExpr b = (c.toExpr none).map (Expr.map (ColumnRef.boundTo b) id) := by
    intro c hc
    obtain ⟨c', hc', htable⟩ := h _ hc
    cases hc'
    exact Condition.toExpr_boundTo htable b
  have hcolumn : ∀ c, column c ∉ q.leaves := by
    intro c hc
    obtain ⟨c', hc', -⟩ := h _ hc
    cases hc'
  have hnative : ∀ e, native e ∉ q.leaves := by
    intro e he
    obtain ⟨c', hc', -⟩ := h _ he
    cases hc'
  have hmap := toExpr_map (w := id) q hcondition (fun c hc => absurd hc (hcolumn c))
    (fun c hc => absurd hc (hcolumn c)) hnative
  rwa [map_id] at hmap

/-- The binding does not decide whether a query translates. -/
theorem translates_iff (h : q.OnFields) (b : Option Table) :
    (∃ r, (q.toExpr b).result = .ok r) ↔ q.Translates none := by
  rw [toExpr_boundTo h b]
  constructor
  · rintro ⟨r, hr⟩
    obtain ⟨r', hr', -⟩ := map_eq_ok.mp hr
    exact translates_of_toExpr hr'
  · intro htranslates
    obtain ⟨r, hr⟩ := toExpr_ok htranslates
    exact ⟨_, by rw [hr]; rfl⟩

/-- Without a table every column stays as it is. -/
theorem boundTo_none_of_toExpr (h : q.OnFields) {e : Expr}
    (he : (q.toExpr none).result = .ok (some e)) : ∀ c ∈ e.columns, c.boundTo none = c := by
  have hmap := toExpr_boundTo h none
  rw [he] at hmap
  have hfixed : e.map (ColumnRef.boundTo none) id = e :=
    (Option.some.inj (Except.ok.inj hmap)).symm
  have hcolumns : e.columns.map (ColumnRef.boundTo none) = e.columns.map id := by
    rw [← Expr.columns_map _ id, hfixed, List.map_id]
  exact List.map_inj_left.mp hcolumns

end Query

/-! ### Texts -/

namespace Sql

/-- A place for values that a column of its name is compared with, under a binding. -/
def Slot.boundTo (b : Option Table) (vs : List Value) (s : Slot) : Slot :=
  { s with type := SqlType.ofParameter (ColumnRef.boundTo b ⟨s.name, none, .unknown⟩).type vs }

/-- A piece of an expression over bare columns, as it stands under a binding: the table
before a name that it has a column of, and the types of its columns on the places. -/
def Piece.boundTo (b : Option Table) : Piece → List Piece
  | .name s => (ColumnRef.boundTo b ⟨s, none, .unknown⟩).pieces
  | .value slot v => [.value (slot.boundTo b [v]) v]
  | .members slot use vs => [.members (slot.boundTo b vs) use vs]
  | p => [p]

theorem flatMap_boundTo_parenthesised (ps : List Piece) :
    (parenthesised ps).flatMap (Piece.boundTo b) =
      parenthesised (ps.flatMap (Piece.boundTo b)) := by
  simp [parenthesised, Piece.boundTo]

namespace ColumnRef

variable {c : ColumnRef}

theorem pieces_boundTo (h : c.boundTo none = c) :
    (c.boundTo b).pieces = c.pieces.flatMap (Piece.boundTo b) := by
  rw [← h, boundTo_boundTo]
  simp [boundTo, pieces, Piece.boundTo]

theorem slot_boundTo (h : c.boundTo none = c) (vs : List Value) :
    (c.boundTo b).slot vs = (c.slot vs).boundTo b vs := by
  rw [← h, boundTo_boundTo, slot, slot, Slot.boundTo, name_boundTo, name_boundTo]
  rfl

end ColumnRef

namespace Expr

variable (d : Dialect)

/-- **The text of an expression changes in its columns only**, each of them in its place. -/
theorem pieces_boundTo {e : Expr} (h : ∀ c ∈ e.columns, c.boundTo none = c) :
    (e.map (ColumnRef.boundTo b) id).pieces d = (e.pieces d).flatMap (Piece.boundTo b) := by
  induction e using Expr.induction with
  | compare r c v =>
      have hc := h c (by simp [columns])
      simp [map, pieces, ColumnRef.pieces_boundTo hc, ColumnRef.slot_boundTo hc, Piece.boundTo]
  | truth n c x =>
      have hc := h c (by simp [columns])
      simp [map, pieces, ColumnRef.pieces_boundTo hc, Piece.boundTo]
  | null n c =>
      have hc := h c (by simp [columns])
      simp [map, pieces, ColumnRef.pieces_boundTo hc, Piece.boundTo]
  | member n c vs =>
      have hc := h c (by simp [columns])
      cases n <;>
        simp [map, pieces, ColumnRef.pieces_boundTo hc, ColumnRef.slot_boundTo hc, Piece.boundTo]
  | column c =>
      have hc := h c (by simp [columns])
      simp [map, pieces, ColumnRef.pieces_boundTo hc]
  | flag c x =>
      have hc := h c (by simp [columns])
      rw [map, pieces, pieces, flagPieces, flagPieces, ColumnRef.pieces_boundTo hc]
      split
      · split
        · rfl
        · rfl
      · simp [Piece.boundTo]
  | native s => simp [map, pieces, Piece.boundTo]
  | nullValue => simp [map, pieces, Piece.boundTo]
  | const x => simp [map, pieces, Piece.boundTo]
  | constTest x => simp [map, pieces, Piece.boundTo]
  | not e ih =>
      have he := ih (by simpa [columns] using h)
      rw [map, pieces, pieces, isGroupedByNot_map, List.flatMap_cons]
      split
      · rw [flatMap_boundTo_parenthesised, he]
        rfl
      · rw [he]
        rfl
  | junction j es ih =>
      rw [map, mapAll_eq_map, pieces, pieces]
      refine junctionPieces_map (isGroupedIn_map j) (fun _ => rfl) fun e he => ?_
      refine ih e he fun c hc => h c ?_
      rw [columns, columnsAll_eq_flatMap]
      exact List.mem_flatMap.mpr ⟨e, he, hc⟩

end Expr

end Sql

/-! ### Bindings compared -/

namespace Query

variable {q : Query}

/--
**One query means the same under every binding.**  Under any two bindings, each of them no
table, the table of a model, that table under another name, or a table known by its name
alone, a query on unqualified fields fails with one error, or has no expression, or has
one expression over bare columns, each of which is qualified by the table exactly when
that has a column of the name; relations, nesting and values are those of the one
expression, and in every dialect the text is, piece by piece.  A column that the name of
the bound table qualifies is resolved as if nothing did, and one that another name
qualifies is written with it.
-/
theorem same_under_every_binding (h : q.OnFields) (b b' : Option Table) :
    ((∃ x, (q.toExpr b).result = .error x ∧ (q.toExpr b').result = .error x) ∨
      ((q.toExpr b).result = .ok none ∧ (q.toExpr b').result = .ok none) ∨
      ∃ e : Expr, (∀ c ∈ e.columns, c.table = none) ∧
        (q.toExpr b).result = .ok (some (e.map (ColumnRef.boundTo b) id)) ∧
        (q.toExpr b').result = .ok (some (e.map (ColumnRef.boundTo b') id)) ∧
        ∀ d, (e.map (ColumnRef.boundTo b) id).pieces d =
            (e.pieces d).flatMap (Piece.boundTo b) ∧
          (e.map (ColumnRef.boundTo b') id).pieces d =
            (e.pieces d).flatMap (Piece.boundTo b')) ∧
    ((q.toExpr b).result = .ok none ↔ q.leaves = []) ∧
    ((∃ r, (q.toExpr b).result = .ok r) ↔ q.Translates none) ∧
    (∀ c : ColumnRef, (c.boundTo b).name = c.name ∧ (c.boundTo b).table =
      (b.filter (fun t => t.columnNames.contains c.name)).map (·.name)) ∧
    (∀ c : Column, ∀ t ∈ b, c.table = some t.name →
      c.resolve b = (c.withTable none).resolve b) ∧
    ∀ (c : Column) (own : String), c.table = some own → (∀ t ∈ b, t.name ≠ own) →
      c.resolve b = ⟨c.name, some own, .unknown⟩ ∧
        ∀ d, Sql.render d (c.resolve b).pieces =
          (writeName d own).map (fun s => ⟨s ++ "." ++ d.quoteName c.name, []⟩) := by
  refine ⟨?_, toExpr_eq_none_iff q, translates_iff h b,
    fun c => ⟨c.name_boundTo b, c.table_boundTo b⟩, ?_, fun c own hc hb => ?_⟩
  · rw [toExpr_boundTo h b, toExpr_boundTo h b']
    cases hbare : (q.toExpr none).result with
    | error x => exact .inl ⟨x, rfl, rfl⟩
    | ok r =>
        cases r with
        | none => exact .inr (.inl ⟨rfl, rfl⟩)
        | some e =>
            have hcolumns := boundTo_none_of_toExpr h hbare
            refine .inr (.inr ⟨e, fun c hc => ?_, rfl, rfl, fun d => ⟨?_, ?_⟩⟩)
            · rw [← hcolumns c hc]
              rfl
            · exact Expr.pieces_boundTo d hcolumns
            · exact Expr.pieces_boundTo d hcolumns
  · rintro c t ht hc
    rw [Option.mem_def.mp ht]
    exact Column.resolve_of_own hc
  · have hresolve := Column.resolve_of_other hc hb
    exact ⟨hresolve, fun d => by rw [hresolve, render_qualified d own c.name_ne_empty]⟩

/-- A disjunction with a negation and with parts that are left out, on a table of typed
columns and on one that is known by its name: the test of the flag is a constant and that
of the list a list on both, and only the column that the first table lacks is bare there. -/
theorem same_under_every_binding_flagged :
    let field (name : String) (h : name ≠ "") : Column := ⟨.field, name, none, h⟩
    let q := any [condition ⟨field "age" (by decide), .gt, [.int 18]⟩, absent,
      negation (all [condition ⟨field "active" (by decide), .eq, [.bool true]⟩, plain (.int 0),
        condition ⟨field "id" (by decide), .isIn, [.int 1, .int 2]⟩]),
      condition ⟨field "nick" (by decide), .isNull, []⟩]
    let t : Table := ⟨"users", [⟨"id", .integer, true, true, none, false, none⟩,
      ⟨"age", .integer, false, false, none, false, none⟩,
      ⟨"active", .boolean, false, false, none, false, none⟩]⟩
    let n := Table.named "people" []
    q.OnFields ∧
    (∃ e : Expr, (q.toExpr (some t)).result = .ok (some (e.map (ColumnRef.boundTo (some t)) id)) ∧
      (q.toExpr (some n)).result = .ok (some (e.map (ColumnRef.boundTo (some n)) id))) ∧
    (q.compiled (some t) .sqlite).toOption.join.map (·.sql) = some ("users.age > ? OR NOT "
      ++ "(users.active = 1 AND users.id IN (?, ?)) OR nick IS NULL") ∧
    (q.compiled (some n) .sqlite).toOption.join.map (·.sql) = some ("age > ? OR NOT "
      ++ "(active = 1 AND id IN (?, ?)) OR nick IS NULL") := by
  intro field q t n
  have h : q.OnFields := by
    intro p hp
    simp only [q, any, all, negation, leaves, leavesAll, List.append_nil, List.nil_append,
      List.mem_append, List.mem_singleton, or_assoc] at hp
    rcases hp with rfl | rfl | rfl | rfl <;> exact ⟨_, rfl, rfl⟩
  obtain ⟨hmeaning, -⟩ := same_under_every_binding h (some t) (some n)
  refine ⟨h, ?_, by decide +kernel, by decide +kernel⟩
  rcases hmeaning with ⟨x, hx, -⟩ | ⟨hnone, -⟩ | ⟨e, -, ht, hn, -⟩
  · cases hx
  · cases hnone
  · exact ⟨e, ht, hn⟩

end Query

end TableQuery
