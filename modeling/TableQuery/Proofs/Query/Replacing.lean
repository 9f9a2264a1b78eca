/-
Queries with their conditions replaced, and the expressions they translate to.

When the expression of every leaf of a query is replaced in one way, so is the expression of
the query: `toExpr_map` lifts a fact about leaves to whole trees.  The replacement may
come from other operands in the conditions or from another table that the columns are
resolved in, or both; what it must not do is change the type of a column that stands for
a condition by itself.
-/
import TableQuery.Proofs.Query.Tree
import TableQuery.Proofs.Sql.Replacing

namespace TableQuery

namespace Query

open Sql

mutual

/-- A query with every condition and every plain value replaced. -/
def map (h : Condition → Condition) (w : Value → Value) : Query → Query
  | absent => absent
  | condition c => condition (h c)
  | combine k children => combine k (mapAll h w children)
  | column c => column c
  | native e => native e
  | plain v => plain (w v)

/-- Several queries with their conditions and plain values replaced. -/
def mapAll (h : Condition → Condition) (w : Value → Value) : List Query → List Query
  | [] => []
  | q :: qs => map h w q :: mapAll h w qs

end

theorem mapAll_eq_map (h : Condition → Condition) (w : Value → Value) (qs : List Query) :
    mapAll h w qs = qs.map (map h w) := by
  induction qs with
  | nil => rw [mapAll]; rfl
  | cons q qs ih => rw [mapAll, ih]; rfl

theorem map_id (q : Query) : q.map id id = q := by
  induction q using Query.induction with
  | combine k cs ih =>
      rw [map, mapAll_eq_map, List.map_congr_left ih]
      simp
  | _ => simp [map]

variable {f : ColumnRef → ColumnRef} {g : Value → Value}

/-! ### Columns that stand for a condition -/

theorem keepsType_of_link {k : Keyword} {es : List Expr} (h : ∀ e ∈ es, e.KeepsType f) {e : Expr}
    (he : link k es = some e) : e.KeepsType f := by
  match k, es, h with
  | _, [], _ => simp [link] at he
  | .not, [_], _ | .not, _ :: _ :: _, _ =>
      rw [← Option.some.inj he]
      exact Expr.keepsType_negate _
  | .and, [e'], h | .or, [e'], h =>
      rw [← Option.some.inj he]
      exact h e' List.mem_cons_self
  | .and, _ :: _ :: _, h | .or, _ :: _ :: _, h =>
      rw [← Option.some.inj he]
      exact Expr.keepsType_join h _

/-- Where the columns among the leaves keep their types, so does what is built over them. -/
theorem keepsType_of_toExpr {t : Option Table} {q : Query}
    (hcolumn : ∀ c, column c ∈ q.leaves → (Expr.column (c.resolve t)).KeepsType f)
    (hnative : ∀ e, native e ∉ q.leaves) {e : Expr} (he : (q.toExpr t).result = .ok (some e)) :
    e.KeepsType f := by
  refine forall_of_toExpr (fun c _ x hx => ?_) hcolumn (fun x hx => absurd hx (hnative x))
    (fun _ _ hes _ hlink => keepsType_of_link hes hlink) he
  have htest := Condition.isTest_of_toExpr hx
  cases x with
  | column c => simp [Expr.isTest] at htest
  | _ => trivial

/-! ### From the leaves to the whole -/

theorem link_map {es : List Expr} (h : ∀ e ∈ es, e.KeepsType f) (k : Keyword) :
    link k (es.map (Expr.map f g)) = (link k es).map (Expr.map f g) := by
  match k, es, h with
  | _, [], _ => simp [link]
  | .not, [e], h => simp [link, Expr.negate_map (h e List.mem_cons_self)]
  | .and, [e], _ => simp [link]
  | .or, [e], _ => simp [link]
  | .not, e :: e' :: es, h =>
      simp only [link, List.map_cons, Option.map_some, ← Expr.negate_map (Expr.keepsType_join h _),
        ← Expr.join_map h]
  | .and, e :: e' :: es, h =>
      simp only [link, List.map_cons, Option.map_some, ← Expr.join_map h]
  | .or, e :: e' :: es, h =>
      simp only [link, List.map_cons, Option.map_some, ← Expr.join_map h]

/-- **What is replaced in every leaf is replaced in the whole.** -/
theorem toExpr_map {h : Condition → Condition} {w : Value → Value} {t t' : Option Table}
    (q : Query)
    (hcondition : ∀ c, condition c ∈ q.leaves →
      (h c).toExpr t' = (c.toExpr t).map (Expr.map f g))
    (hcolumn : ∀ c, column c ∈ q.leaves → c.resolve t' = f (c.resolve t))
    (htype : ∀ c, column c ∈ q.leaves → (Expr.column (c.resolve t)).KeepsType f)
    (hnative : ∀ e, native e ∉ q.leaves) :
    ((q.map h w).toExpr t').result = (q.toExpr t).result.map (Option.map (Expr.map f g)) := by
  induction q using Query.induction with
  | absent => simp [map, toExpr, Logged.pure, Except.map]
  | plain v => simp [map, toExpr, Logged.pure, Logged.bind, Logged.log, Except.map]
  | native e => exact absurd (by simp [leaves]) (hnative e)
  | column c =>
      have hc := hcolumn c (by simp [leaves])
      simp [map, toExpr, Logged.pure, Except.map, Expr.map, hc]
  | condition c =>
      rw [map, toExpr, toExpr, hcondition c (by simp [leaves])]
      cases c.toExpr t <;> rfl
  | combine k cs ih =>
      have hall : (toExprs t' k (cs.map (map h w))).result =
          (toExprs t k cs).result.map (List.map (Expr.map f g)) := by
        rw [leaves] at hcondition hcolumn htype hnative
        induction cs with
        | nil => rfl
        | cons q qs ihqs =>
            simp only [leavesAll, List.mem_append] at hcondition hcolumn htype hnative
            have hq := ih q (by simp) (fun c hc => hcondition c (.inl hc))
              (fun c hc => hcolumn c (.inl hc)) (fun c hc => htype c (.inl hc))
              (fun e he => hnative e (.inl he))
            have hqs := ihqs (fun p hp => ih p (by simp [hp])) (fun c hc => hcondition c (.inr hc))
              (fun c hc => hcolumn c (.inr hc)) (fun c hc => htype c (.inr hc))
              (fun e he => hnative e (.inr he))
            rw [List.map_cons, result_toExprs_cons, result_toExprs_cons, hq, hqs]
            cases (q.toExpr t).result with
            | error e => rfl
            | ok r =>
                cases (toExprs t k qs).result with
                | error e => rfl
                | ok es => cases r <;> rfl
      rw [map, mapAll_eq_map, result_toExpr_combine, result_toExpr_combine, hall]
      cases hes : (toExprs t k cs).result with
      | error e => rfl
      | ok es =>
          have hkeeps : ∀ e ∈ es, e.KeepsType f := by
            intro e he
            obtain ⟨q, hq, hr⟩ := mem_of_toExprs hes he
            exact keepsType_of_toExpr (fun c hc => htype c (mem_leaves_combine hq hc))
              (fun e he => hnative e (mem_leaves_combine hq he)) hr
          simp only [Except.map, link_map hkeeps]

end Query

end TableQuery
