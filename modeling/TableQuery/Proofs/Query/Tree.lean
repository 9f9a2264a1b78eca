/-
Query trees, as the proofs about them see them.

`Query` is nested in lists, so an induction over it carries one hypothesis for each
child of a keyword; `Query.induction` states that once, and every proof about trees
goes through it.

What a tree translates to depends on its leaves alone, the parts that stand for an
expression of their own: a tree without one has no expression (`toExpr_eq_none_iff`),
and a tree fails only when one of its conditions does (`toExpr_ok`).  Both rest on one
equation for the children of a keyword, `result_toExprs_cons`, which says that a child
contributes what it translates to and nothing else.
-/
import TableQuery.Proofs.Results
import TableQuery.Query.Filter
import TableQuery.Sql.Printer

namespace TableQuery

/-- Whether an expression compares a column with something. -/
def Sql.Expr.isTest : Sql.Expr → Bool
  | compare _ _ _ | truth _ _ _ | null _ _ | member _ _ _ => true
  | _ => false

/-- A condition translates to a test. -/
theorem Condition.isTest_of_toExpr {c : Condition} {t : Option Table} {e : Sql.Expr}
    (h : c.toExpr t = .ok e) : e.isTest = true := by
  have hrelate : ∀ r col v, relate r col v = .ok e → e.isTest = true := by
    intro r col v hr
    unfold relate at hr
    split at hr <;> cases hr <;> rfl
  unfold toExpr expression at h
  split at h
  all_goals first
    | exact hrelate _ _ _ h
    | (cases h <;> rfl)

namespace Query

/-- What holds of every leaf, and of a keyword whenever it holds of each child, holds of
every query. -/
@[elab_as_elim]
theorem induction {motive : Query → Prop} (absent : motive absent)
    (condition : ∀ c, motive (condition c))
    (combine : ∀ k cs, (∀ q ∈ cs, motive q) → motive (combine k cs))
    (column : ∀ c, motive (column c)) (native : ∀ e, motive (native e))
    (plain : ∀ v, motive (plain v)) (q : Query) : motive q :=
  @Query.rec motive (fun qs => ∀ q ∈ qs, motive q)
    absent condition (fun k cs ih => combine k cs ih) column native plain
    (fun _ hq => absurd hq (List.not_mem_nil))
    (fun _ _ hq hqs p hp => by
      rcases List.mem_cons.mp hp with rfl | hp
      · exact hq
      · exact hqs p hp) q

/-! ### Leaves -/

mutual

/-- The parts of a query that stand for an expression of their own, from left to right. -/
def leaves : Query → List Query
  | absent | plain _ => []
  | combine _ children => leavesAll children
  | q => [q]

/-- The leaves of several queries. -/
def leavesAll : List Query → List Query
  | [] => []
  | q :: qs => leaves q ++ leavesAll qs

end

/-- Whether every condition of a query translates for a table. -/
def Translates (t : Option Table) (q : Query) : Prop :=
  ∀ c, condition c ∈ q.leaves → ∃ e, c.toExpr t = .ok e

theorem leavesAll_eq_nil {qs : List Query} :
    leavesAll qs = [] ↔ ∀ q ∈ qs, q.leaves = [] := by
  induction qs with
  | nil => simp [leavesAll]
  | cons q qs ih => simp [leavesAll, ih]

theorem mem_leavesAll {p : Query} {qs : List Query} :
    p ∈ leavesAll qs ↔ ∃ q ∈ qs, p ∈ q.leaves := by
  induction qs with
  | nil => simp [leavesAll]
  | cons q qs ih => simp [leavesAll, ih]

theorem mem_leaves_combine {k : Keyword} {p : Query} {cs : List Query} (hp : p ∈ cs) {l : Query}
    (hl : l ∈ p.leaves) : l ∈ (combine k cs).leaves := by
  rw [leaves]
  exact mem_leavesAll.mpr ⟨p, hp, hl⟩

/-- A query as a dialect writes it for a table, with its parameters; none when it has no
expression. -/
def compiled (t : Option Table) (d : Dialect) (q : Query) : Except Error (Option Sql.Rendered) :=
  (q.toExpr t).result.bind (fun
    | none => .ok none
    | some e => (Sql.render d (e.pieces d)).map some)

/-! ### The expressions of the children of a keyword -/

theorem link_eq_none {k : Keyword} {es : List Sql.Expr} : link k es = none ↔ es = [] := by
  match k, es with
  | _, [] => simp [link]
  | .not, [_] | .and, [_] | .or, [_] => simp [link]
  | .not, _ :: _ :: _ | .and, _ :: _ :: _ | .or, _ :: _ :: _ => simp [link]

variable (t : Option Table) (k : Keyword)

theorem result_toExpr_combine (cs : List Query) :
    ((combine k cs).toExpr t).result = (toExprs t k cs).result.map (link k) := by
  rw [toExpr]
  cases h : (toExprs t k cs).result with
  | error e => rw [Logged.bind_of_error h]; rfl
  | ok es => rw [Logged.bind_of_ok h]; rfl

theorem result_toExprs_nil : (toExprs t k []).result = .ok [] := by
  rw [toExprs]
  rfl

/-- Reporting a child never fails. -/
theorem result_reportAbsent (q : Query) : (toExprs.reportAbsent k q).result = .ok () := by
  cases q <;> rfl

theorem result_toExprs_cons (q : Query) (qs : List Query) :
    (toExprs t k (q :: qs)).result = (q.toExpr t).result.bind (fun r =>
      (toExprs t k qs).result.map (r.toList ++ ·)) := by
  rw [toExprs, Logged.bind_of_ok (result_reportAbsent k q)]
  cases hq : (q.toExpr t).result with
  | error e => rw [Logged.bind_of_error hq]; rfl
  | ok r =>
      rw [Logged.bind_of_ok hq]
      cases hqs : (toExprs t k qs).result with
      | error e => rw [Logged.bind_of_error hqs]; rfl
      | ok es => rw [Logged.bind_of_ok hqs]; rfl

variable {t k}

theorem result_toExprs_cons_ok {q : Query} {qs : List Query} {es : List Sql.Expr}
    (h : (toExprs t k (q :: qs)).result = .ok es) :
    ∃ r rs, (q.toExpr t).result = .ok r ∧ (toExprs t k qs).result = .ok rs ∧
      es = r.toList ++ rs := by
  rw [result_toExprs_cons] at h
  cases hq : (q.toExpr t).result with
  | error e => rw [hq] at h; cases h
  | ok r =>
      rw [hq] at h
      cases hqs : (toExprs t k qs).result with
      | error e => rw [hqs] at h; cases h
      | ok rs =>
          rw [hqs] at h
          cases h
          exact ⟨r, rs, rfl, rfl, rfl⟩

/-- Every expression of the children is that of one of them. -/
theorem mem_of_toExprs {cs : List Query} {es : List Sql.Expr}
    (h : (toExprs t k cs).result = .ok es) {e : Sql.Expr} (he : e ∈ es) :
    ∃ q ∈ cs, (q.toExpr t).result = .ok (some e) := by
  induction cs generalizing es with
  | nil =>
      rw [result_toExprs_nil] at h
      cases h
      cases he
  | cons q qs ih =>
      obtain ⟨r, rs, hr, hrs, rfl⟩ := result_toExprs_cons_ok h
      rcases List.mem_append.mp he with he | he
      · rw [Option.mem_toList] at he
        exact ⟨q, List.mem_cons_self, by rw [hr, he]⟩
      · obtain ⟨p, hp, hpe⟩ := ih hrs he
        exact ⟨p, List.mem_cons_of_mem q hp, hpe⟩

/-- What holds of the expression of every leaf, and of linked expressions whenever it holds of
each, holds of the expression of the whole. -/
theorem forall_of_toExpr {P : Sql.Expr → Prop} {q : Query}
    (hcondition : ∀ c, condition c ∈ q.leaves → ∀ e, c.toExpr t = .ok e → P e)
    (hcolumn : ∀ c, column c ∈ q.leaves → P (.column (c.resolve t)))
    (hnative : ∀ e, native e ∈ q.leaves → P e)
    (hlink : ∀ k es, (∀ e ∈ es, P e) → ∀ e, link k es = some e → P e) {e : Sql.Expr}
    (he : (q.toExpr t).result = .ok (some e)) : P e := by
  induction q using Query.induction generalizing e with
  | absent | plain v =>
      rw [toExpr] at he
      cases he
  | native x =>
      rw [toExpr] at he
      cases he
      exact hnative x (by simp [leaves])
  | column c =>
      rw [toExpr] at he
      cases he
      exact hcolumn c (by simp [leaves])
  | condition c =>
      rw [toExpr] at he
      cases hc : c.toExpr t with
      | error x => rw [hc] at he; cases he
      | ok x =>
          rw [hc] at he
          cases he
          exact hcondition c (by simp [leaves]) e hc
  | combine k cs ih =>
      rw [result_toExpr_combine] at he
      obtain ⟨es, hes, hlinked⟩ := map_eq_ok.mp he
      refine hlink k es (fun x hx => ?_) e hlinked
      obtain ⟨q, hq, hr⟩ := mem_of_toExprs hes hx
      exact ih q hq (fun c hc => hcondition c (mem_leaves_combine hq hc))
        (fun c hc => hcolumn c (mem_leaves_combine hq hc))
        (fun x hx => hnative x (mem_leaves_combine hq hx)) hr

/-! ### When there is an expression -/

/-- **A tree has no expression exactly when it has no leaf.** -/
theorem toExpr_eq_none_iff (q : Query) : (q.toExpr t).result = .ok none ↔ q.leaves = [] := by
  induction q using Query.induction with
  | absent => simp [toExpr, leaves, Logged.pure]
  | condition c =>
      rw [toExpr]
      cases h : c.toExpr t <;> simp [Logged.bind, Logged.ofExcept, Logged.pure, leaves]
  | column c => simp [toExpr, leaves, Logged.pure]
  | native e => simp [toExpr, leaves, Logged.pure]
  | plain v => simp [toExpr, leaves, Logged.pure, Logged.bind, Logged.log]
  | combine k cs ih =>
      -- The children contribute nothing exactly when each of them translates to nothing.
      have hall : (toExprs t k cs).result = .ok [] ↔ ∀ q ∈ cs, q.leaves = [] := by
        induction cs with
        | nil => simp [result_toExprs_nil]
        | cons q qs ihqs =>
            have hq := ih q (by simp)
            have hqs := ihqs (fun p hp => ih p (by simp [hp]))
            rw [List.forall_mem_cons, ← hq, ← hqs]
            constructor
            · intro h
              obtain ⟨r, rs, hr, hrs, happ⟩ := result_toExprs_cons_ok h
              obtain ⟨hr0, hrs0⟩ := List.append_eq_nil_iff.mp happ.symm
              rw [Option.toList_eq_nil_iff] at hr0
              exact ⟨by rw [hr, hr0], by rw [hrs, hrs0]⟩
            · rintro ⟨h1, h2⟩
              rw [result_toExprs_cons, h1, h2]
              rfl
      rw [result_toExpr_combine, leaves, leavesAll_eq_nil, ← hall]
      cases h : (toExprs t k cs).result with
      | error e => simp [Except.map]
      | ok es => simp [Except.map, link_eq_none]

/-- **A tree fails only when one of its conditions does.** -/
theorem toExpr_ok {q : Query} (h : q.Translates t) : ∃ r, (q.toExpr t).result = .ok r := by
  induction q using Query.induction with
  | absent => exact ⟨none, by rw [toExpr]; rfl⟩
  | condition c =>
      obtain ⟨e, he⟩ := h c (by simp [leaves])
      exact ⟨some e, by rw [toExpr, he]; rfl⟩
  | column c => exact ⟨_, by rw [toExpr]; rfl⟩
  | native e => exact ⟨_, by rw [toExpr]; rfl⟩
  | plain v => exact ⟨none, by rw [toExpr]; rfl⟩
  | combine k cs ih =>
      have hall : ∃ es, (toExprs t k cs).result = .ok es := by
        have hcs : ∀ q ∈ cs, q.Translates t := by
          intro q hq c hc
          exact h c (by rw [leaves]; exact mem_leavesAll.mpr ⟨q, hq, hc⟩)
        clear h
        induction cs with
        | nil => exact ⟨[], result_toExprs_nil t k⟩
        | cons q qs ihqs =>
            obtain ⟨r, hr⟩ := ih q (by simp) (hcs q (by simp))
            obtain ⟨rs, hrs⟩ := ihqs (fun p hp => ih p (by simp [hp]))
              (fun p hp => hcs p (by simp [hp]))
            exact ⟨r.toList ++ rs, by rw [result_toExprs_cons, hr, hrs]; rfl⟩
      obtain ⟨es, hes⟩ := hall
      exact ⟨link k es, by rw [result_toExpr_combine, hes]; rfl⟩

theorem toExpr_ok_of_toExprs {cs : List Query} {es : List Sql.Expr}
    (h : (toExprs t k cs).result = .ok es) {q : Query} (hq : q ∈ cs) :
    ∃ r, (q.toExpr t).result = .ok r := by
  induction cs generalizing es with
  | nil => cases hq
  | cons p ps ih =>
      obtain ⟨r, rs, hr, hrs, -⟩ := result_toExprs_cons_ok h
      rcases List.mem_cons.mp hq with rfl | hq
      · exact ⟨r, hr⟩
      · exact ih hrs hq

/-- A tree fails when one of its conditions does. -/
theorem translates_of_toExpr {q : Query} {r : Option Sql.Expr} (hr : (q.toExpr t).result = .ok r) :
    q.Translates t := by
  induction q using Query.induction generalizing r with
  | absent | plain v | column c | native e =>
      intro c hc
      simp [leaves] at hc
  | condition c =>
      intro c' hc'
      obtain rfl : c' = c := by simpa [leaves] using hc'
      rw [toExpr] at hr
      cases hc : c'.toExpr t with
      | error e => rw [hc] at hr; cases hr
      | ok e => exact ⟨e, rfl⟩
  | combine k cs ih =>
      rw [result_toExpr_combine] at hr
      obtain ⟨es, hes, -⟩ := map_eq_ok.mp hr
      intro c hc
      rw [leaves] at hc
      obtain ⟨q, hq, hc⟩ := mem_leavesAll.mp hc
      obtain ⟨r, hr⟩ := toExpr_ok_of_toExprs hes hq
      exact ih q hq hr c hc

end Query

end TableQuery
