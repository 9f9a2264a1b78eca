/-
Queries over another table.

A column without a table of its own belongs to the table of the statement, whatever that
is called.  So the expression of a query over such columns names no other table
(`namesOnly_of_toExpr`), and over a table under another name it is the same expression moved
to that name (`toExpr_rename`).
-/
import TableQuery.Pagination
import TableQuery.Proofs.Query.Replacing
import TableQuery.Proofs.Sql.Moving

namespace TableQuery

open Sql

variable {t : Table} {T : String}

namespace Column

theorem elsewhere?_of_unqualified {c : Column} (h : c.table = none) (t : Option Table) :
    c.elsewhere? t = none := by
  rw [elsewhere?, h]

theorem resolve_of_unqualified {c : Column} (h : c.table = none) (t : Table) :
    c.resolve (some t) = ((t.column? c.name).map (fun col => ⟨c.name, some t.name, col.type⟩)).getD
      ⟨c.name, none, .unknown⟩ := by
  rw [resolve, elsewhere?_of_unqualified h, within?]
  cases t.column? c.name <;> rfl

theorem resolve_rename {c : Column} (h : c.table = none) :
    c.resolve (some (t.rename T)) = (c.resolve (some t)).moved t.name T := by
  have hcolumn : (t.rename T).column? c.name = t.column? c.name := rfl
  rw [resolve_of_unqualified h, resolve_of_unqualified h, hcolumn]
  cases t.column? c.name with
  | none => rfl
  | some col => exact (if_pos rfl).symm

theorem table_resolve {c : Column} (h : c.table = none) :
    ∀ own ∈ (c.resolve (some t)).table, own = t.name := by
  rw [resolve_of_unqualified h]
  cases t.column? c.name with
  | none => simp
  | some col => simp

theorem orderKey_of_unqualified {c : Column} (h : c.table = none) (t : Table) :
    c.orderKey (some t) = if (t.column? c.name).isSome then .column (c.resolve (some t))
      else .verbatim c.name := by
  rw [orderKey, resolve, elsewhere?_of_unqualified h, within?]
  cases t.column? c.name <;> rfl

theorem orderKey_rename {c : Column} (h : c.table = none) :
    c.orderKey (some (t.rename T)) = (c.orderKey (some t)).moved t.name T := by
  have hcolumn : (t.rename T).column? c.name = t.column? c.name := rfl
  rw [orderKey_of_unqualified h, orderKey_of_unqualified h, hcolumn, resolve_rename h]
  split <;> rfl

theorem namesOnly_orderKey {c : Column} (h : c.table = none) :
    (c.orderKey (some t)).NamesOnly t.name := by
  rw [orderKey_of_unqualified h]
  split
  · exact table_resolve h
  · trivial

end Column

namespace Condition

theorem relate_map (f : ColumnRef → ColumnRef) (r : Relation) (c : ColumnRef) (v : Value) :
    relate r (f c) v = (relate r c v).map (Expr.map f id) := by
  unfold relate
  split <;> simp [Except.map, Expr.map]

/-- Another column in a comparison is another column in its expression. -/
theorem expression_map (f : ColumnRef → ColumnRef) (c : ColumnRef) (o : Operator)
    (vs : List Value) : expression (f c) o vs = (expression c o vs).map (Expr.map f id) := by
  unfold expression
  split <;> simp [relate_map f, Except.map, Expr.map]

end Condition

namespace Query

/-- Whether the columns of a query have no table of their own, and nothing in it is native. -/
structure Unqualified (q : Query) : Prop where
  conditions : ∀ c, condition c ∈ q.leaves → c.column.table = none
  columns : ∀ c, column c ∈ q.leaves → c.table = none
  noNative : ∀ e, native e ∉ q.leaves

theorem unqualified_absent : Unqualified absent := by
  constructor <;> simp [leaves]

theorem unqualified_condition {c : Condition} (h : c.column.table = none) :
    (condition c).Unqualified := by
  constructor <;> simp [leaves, h]

theorem unqualified_combine {k : Keyword} {cs : List Query} (h : ∀ q ∈ cs, q.Unqualified) :
    (combine k cs).Unqualified := by
  have hchild : ∀ {p}, p ∈ (combine k cs).leaves → ∃ q ∈ cs, p ∈ q.leaves := by
    intro p hp
    rw [leaves] at hp
    exact mem_leavesAll.mp hp
  refine ⟨fun c hc => ?_, fun c hc => ?_, fun e he => ?_⟩
  · obtain ⟨q, hq, hc⟩ := hchild hc
    exact (h q hq).conditions c hc
  · obtain ⟨q, hq, hc⟩ := hchild hc
    exact (h q hq).columns c hc
  · obtain ⟨q, hq, he⟩ := hchild he
    exact (h q hq).noNative e he

variable {q : Query}

/-- Columns that are resolved otherwise make an expression over those other columns. -/
theorem toExpr_resolved {t' : Option Table} {f : ColumnRef → ColumnRef} (h : q.Unqualified)
    (hf : ∀ c, (f c).type = c.type)
    (hresolve : ∀ c : Column, c.table = none → c.resolve t' = f (c.resolve (some t))) :
    (q.toExpr t').result = (q.toExpr (some t)).result.map (Option.map (Expr.map f id)) := by
  have hcondition : ∀ c, condition c ∈ q.leaves →
      (id c).toExpr t' = (c.toExpr (some t)).map (Expr.map f id) := by
    intro c hc
    rw [id_eq, Condition.toExpr, Condition.toExpr, hresolve _ (h.conditions c hc)]
    exact Condition.expression_map f _ _ _
  have hmap := toExpr_map (w := id) q hcondition (fun c hc => hresolve c (h.columns c hc))
    (fun _ _ => hf _) h.noNative
  rwa [map_id] at hmap

/-- **Over a table under another name a query has the same expression, moved to it.** -/
theorem toExpr_rename (h : q.Unqualified) :
    (q.toExpr (some (t.rename T))).result =
      (q.toExpr (some t)).result.map (Option.map (Expr.moved t.name T)) :=
  toExpr_resolved h (fun _ => ColumnRef.type_moved _) (fun _ => Column.resolve_rename)

/-- **The expression of a query without tables of its own names that of the statement only.** -/
theorem namesOnly_of_toExpr (h : q.Unqualified) {e : Expr}
    (he : (q.toExpr (some t)).result = .ok (some e)) : e.NamesOnly t.name := by
  -- To take every other table away changes nothing, as it changes no resolved column.
  have hresolve : ∀ c : Column, c.table = none →
      c.resolve (some t) = (c.resolve (some t)).keptTo t.name :=
    fun c hc => (ColumnRef.keptTo_eq_iff.mpr (Column.table_resolve hc)).symm
  have hkept := toExpr_resolved (f := ColumnRef.keptTo t.name) h (fun _ => rfl) hresolve
  rw [he] at hkept
  exact Expr.namesOnly_of_keptTo (Option.some.inj (Except.ok.inj hkept)).symm

end Query

end TableQuery
