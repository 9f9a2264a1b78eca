/-
Translating a query keeps its meaning.

A query can be read without any SQL: a condition compares the value of its column, AND
and OR are the conjunction and the disjunction of the children that are there, and NOT is
the negation of their conjunction.  `Query.meaning` is that reading, in three truth values
and with nothing for a tree that has no condition left.  The main statement,
`toExpr_keeps_meaning`, is that the expression built for a query comes to the same on
every row, for whatever table the columns are resolved in and whatever the database makes
of two values.

Every step of the translation has its own reason.  A condition becomes a relation that
tests the same thing, provided that its operand is no null and a truth value is only
tested for equality, which is what the fields' tests of comparable operands give.  A
keyword links what its children contribute, which `link_keeps_meaning` takes from the
lemmas on joining and negating.  The rest is one induction over the tree.
-/
import TableQuery.Proofs.Query.Tree
import TableQuery.Proofs.Sql.Meaning

namespace TableQuery

open Sql

/-! ### Conditions -/

namespace Operator

/-- Whether an operator orders values or matches a pattern. -/
def isOrderOrPattern : Operator → Bool
  | gt | gtEq | lt | ltEq | like | notLike => true
  | _ => false

/-- The relation that an operator of one operand tests. -/
def relation? : Operator → Option Relation
  | eq => some .eq
  | notEq => some .ne
  | gt => some .gt
  | gtEq => some .ge
  | lt => some .lt
  | ltEq => some .le
  | like => some .like
  | notLike => some .notLike
  | isIn | notIn | isNull | isNotNull => none

/-- Only equality and its negation neither order values nor match a pattern. -/
theorem relation_eq_or_ne {o : Operator} {r : Relation} (h : o.relation? = some r)
    (ho : o.isOrderOrPattern = false) : r = .eq ∨ r = .ne := by
  cases o <;> simp_all [relation?, isOrderOrPattern]

end Operator

namespace Condition

/-- What a condition comes to when its column has the value `x`. -/
def meaning (S : Semantics) (x : Value) (c : Condition) : Truth :=
  match c.operator, c.operands with
  | .isNull, _ => .ofBool x.isNull
  | .isNotNull, _ => .ofBool (!x.isNull)
  | .isIn, vs => .any (vs.map (S.equal x))
  | .notIn, vs => .all (vs.map (fun v => (S.equal x v).not))
  | .eq, [v] => S.equal x v
  | .notEq, [v] => (S.equal x v).not
  | .gt, [v] => S.ordered Ordering.isGT x v
  | .gtEq, [v] => S.ordered Ordering.isGE x v
  | .lt, [v] => S.ordered Ordering.isLT x v
  | .ltEq, [v] => S.ordered Ordering.isLE x v
  | .like, [v] => S.like x v
  | .notLike, [v] => (S.like x v).not
  | _, _ => .unknown

/-- A condition as the methods of a field make it, with operands that every database can
compare. -/
structure OfField (c : Condition) : Prop where
  made : c = c.column.isNull ∨ c = c.column.isNotNull ∨
    ∃ k v, c.column.test k v = .ok (some c)
  /-- No operand is null, and so is no member of a list. -/
  notNull : ∀ v ∈ c.operands, v ≠ .null
  /-- A truth value has no order and matches no pattern. -/
  noTruth : c.operator.isOrderOrPattern = true → ∀ b, .bool b ∉ c.operands

/-- The operands that an operator takes from a field. -/
inductive Shape : Operator → List Value → Prop
  | isNull : Shape .isNull []
  | isNotNull : Shape .isNotNull []
  | isIn (vs : List Value) : Shape .isIn vs
  | notIn (vs : List Value) : Shape .notIn vs
  | relation {o : Operator} {r : Relation} (v : Value) (h : o.relation? = some r) : Shape o [v]

theorem shape_of_compare {c : Column} {o : Operator} {r : Relation} {v : Value} {x : Condition}
    (ho : o.relation? = some r) (h : c.compare o v = some x) :
    Shape x.operator x.operands := by
  unfold Column.compare at h
  split at h
  · cases h
  · cases h
    exact .relation v ho

theorem shape_of_pattern {c : Column} {o : Operator} {r : Relation} {before after : Bool}
    {v : Value} {x : Condition} (ho : o.relation? = some r)
    (h : c.pattern o before after v = .ok (some x)) : Shape x.operator x.operands := by
  unfold Column.pattern at h
  split at h
  · cases h
  · cases h
    exact .relation _ ho
  · split at h <;> cases h

theorem eq_of_memberTest {c : Column} {o : Operator} {v : Value} {x : Condition}
    (h : c.memberTest o v = .ok (some x)) : ∃ vs, x = ⟨c, o, vs⟩ := by
  unfold Column.memberTest at h
  split at h
  · cases h
  · cases h
  · cases h
  · split at h
    · cases h
    · cases h
    · rename_i m ms _
      cases h
      exact ⟨m :: ms, rfl⟩

theorem shape_of_test {c : Column} {k : Column.Test} {v : Value} {x : Condition}
    (h : c.test k v = .ok (some x)) : Shape x.operator x.operands := by
  cases k with
  | isIn =>
      obtain ⟨vs, rfl⟩ := eq_of_memberTest h
      exact .isIn vs
  | notIn =>
      obtain ⟨vs, rfl⟩ := eq_of_memberTest h
      exact .notIn vs
  | startsWith => exact shape_of_pattern (r := .like) rfl h
  | endsWith => exact shape_of_pattern (r := .like) rfl h
  | contains => exact shape_of_pattern (r := .like) rfl h
  | notContains => exact shape_of_pattern (r := .notLike) rfl h
  | eq => exact shape_of_compare (r := .eq) rfl (Except.ok.inj h)
  | notEq => exact shape_of_compare (r := .ne) rfl (Except.ok.inj h)
  | gt => exact shape_of_compare (r := .gt) rfl (Except.ok.inj h)
  | gtEq => exact shape_of_compare (r := .ge) rfl (Except.ok.inj h)
  | lt => exact shape_of_compare (r := .lt) rfl (Except.ok.inj h)
  | ltEq => exact shape_of_compare (r := .le) rfl (Except.ok.inj h)
  | like => exact shape_of_compare (r := .like) rfl (Except.ok.inj h)
  | notLike => exact shape_of_compare (r := .notLike) rfl (Except.ok.inj h)

theorem OfField.shape {c : Condition} (h : c.OfField) : Shape c.operator c.operands := by
  rcases h.made with hc | hc | ⟨k, v, hc⟩
  · rw [hc]
    exact .isNull
  · rw [hc]
    exact .isNotNull
  · exact shape_of_test hc

/-- A relation to a value that can be compared becomes an expression that tests it. -/
theorem relate_meaning (r : Relation) (col : ColumnRef) {v : Value} (hnull : v ≠ .null)
    (htruth : (r = .eq ∨ r = .ne) ∨ ∀ b, v ≠ .bool b) :
    ∃ e, relate r col v = .ok e ∧
      ∀ (S : Semantics) (ρ : Assignment), e.eval S ρ = S.test r (ρ col) v := by
  cases v with
  | null => exact absurd rfl hnull
  | bool b =>
      rcases htruth with (rfl | rfl) | hb
      · exact ⟨_, rfl, fun S ρ => rfl⟩
      · exact ⟨_, rfl, fun S ρ => (S.test_negate .eq (ρ col) (.bool b)).symm⟩
      · exact absurd rfl (hb b)
  | _ => exact ⟨.compare r col _, by cases r <;> rfl, fun S ρ => rfl⟩

theorem expression_of_relation {o : Operator} {r : Relation} (h : o.relation? = some r)
    (col : ColumnRef) (v : Value) : expression col o [v] = relate r col v := by
  cases o <;> cases h <;> rfl

theorem meaning_of_relation {o : Operator} {r : Relation} (h : o.relation? = some r)
    (S : Semantics) (x : Value) (col : Column) (v : Value) :
    meaning S x ⟨col, o, [v]⟩ = S.test r x v := by
  cases o with
  | notEq =>
      cases h
      exact (S.test_negate .eq x v).symm
  | _ => cases h <;> rfl

/-- **A condition of a field becomes an expression of the same meaning.** -/
theorem toExpr_meaning {c : Condition} (h : c.OfField) (t : Option Table) :
    ∃ e, c.toExpr t = .ok e ∧ ∀ (S : Semantics) (ρ : Assignment),
      e.eval S ρ = c.meaning S (ρ (c.column.resolve t)) := by
  have hshape := h.shape
  obtain ⟨col, o, vs⟩ := c
  cases hshape with
  | isNull => exact ⟨_, rfl, fun S ρ => rfl⟩
  | isNotNull => exact ⟨_, rfl, fun S ρ => Truth.not_ofBool _⟩
  | isIn vs => exact ⟨_, rfl, fun S ρ => rfl⟩
  | notIn vs =>
      refine ⟨_, rfl, fun S ρ => ?_⟩
      rw [Expr.eval, Truth.negatedIf, if_pos rfl, Truth.not_any, List.map_map]
      rfl
  | @relation _ r v hr =>
      have hnull : v ≠ .null := h.notNull v (by simp)
      have htruth : (r = .eq ∨ r = .ne) ∨ ∀ b, v ≠ .bool b := by
        by_cases ho : o.isOrderOrPattern = true
        · exact Or.inr (fun b hb => h.noTruth ho b (by simp [hb]))
        · exact Or.inl (Operator.relation_eq_or_ne hr (by simpa using ho))
      obtain ⟨e, he, hev⟩ := relate_meaning r (col.resolve t) hnull htruth
      refine ⟨e, ?_, fun S ρ => ?_⟩
      · rw [toExpr, expression_of_relation hr, he]
      · rw [hev, meaning_of_relation hr]

end Condition

/-! ### Trees -/

/-- What the children of a keyword come to together; nothing when there is none. -/
def Keyword.truth : Keyword → List Truth → Option Truth
  | _, [] => none
  | .and, xs => some (.all xs)
  | .or, xs => some (.any xs)
  | .not, xs => some (Truth.all xs).not

namespace Query

mutual

/-- What a query comes to on a row, read as it stands: absent children, plain values and
keywords without children are left out.  Nothing when nothing is left. -/
def meaning (S : Semantics) (ρ : Assignment) (t : Option Table) : Query → Option Truth
  | absent | plain _ => none
  | condition c => some (c.meaning S (ρ (c.column.resolve t)))
  | combine k children => k.truth (meaningsOf S ρ t children)
  | column c => some (S.asTruth (ρ (c.resolve t)))
  | native e => some (e.eval S ρ)

/-- What those of several queries that are there come to. -/
def meaningsOf (S : Semantics) (ρ : Assignment) (t : Option Table) : List Query → List Truth
  | [] => []
  | q :: qs => (meaning S ρ t q).toList ++ meaningsOf S ρ t qs

end

/-- A keyword links what its children come to. -/
theorem link_keeps_meaning (S : Semantics) (ρ : Assignment) (k : Keyword) (es : List Expr) :
    (link k es).map (Expr.eval S ρ) = k.truth (es.map (Expr.eval S ρ)) := by
  match k, es with
  | _, [] => simp [link, Keyword.truth]
  | .not, [e] => simp [link, Keyword.truth, Expr.eval_negate, Truth.all]
  | .and, [e] => simp [link, Keyword.truth, Truth.all]
  | .or, [e] => simp [link, Keyword.truth, Truth.any]
  | .not, e :: f :: es =>
      simp [link, Keyword.truth, Expr.eval_negate, Expr.eval_join, Junction.truth]
  | .and, e :: f :: es => simp [link, Keyword.truth, Expr.eval_join, Junction.truth]
  | .or, e :: f :: es => simp [link, Keyword.truth, Expr.eval_join, Junction.truth]

/-- A query translates, and what it translates to comes to what it says. -/
theorem toExpr_meaning (t : Option Table) {q : Query}
    (h : ∀ c, condition c ∈ q.leaves → c.OfField) :
    ∃ r, (q.toExpr t).result = .ok r ∧ ∀ (S : Semantics) (ρ : Assignment),
      q.meaning S ρ t = r.map (Expr.eval S ρ) := by
  induction q using Query.induction with
  | absent => exact ⟨none, by rw [toExpr]; rfl, fun S ρ => by rw [meaning]; rfl⟩
  | condition c =>
      obtain ⟨e, he, hev⟩ := Condition.toExpr_meaning (h c (by simp [leaves])) t
      exact ⟨some e, by rw [toExpr, he]; rfl, fun S ρ => by rw [meaning, ← hev]; rfl⟩
  | column c => exact ⟨_, by rw [toExpr]; rfl, fun S ρ => by simp [meaning, Expr.eval]⟩
  | native e => exact ⟨_, by rw [toExpr]; rfl, fun S ρ => by simp [meaning]⟩
  | plain v => exact ⟨none, by rw [toExpr]; rfl, fun S ρ => by rw [meaning]; rfl⟩
  | combine k cs ih =>
      have hall : ∃ es, (toExprs t k cs).result = .ok es ∧
          ∀ S ρ, meaningsOf S ρ t cs = es.map (Expr.eval S ρ) := by
        have hcs : ∀ q ∈ cs, ∀ c, condition c ∈ q.leaves → c.OfField := by
          intro q hq c hc
          exact h c (by rw [leaves]; exact mem_leavesAll.mpr ⟨q, hq, hc⟩)
        clear h
        induction cs with
        | nil => exact ⟨[], result_toExprs_nil t k, fun S ρ => by rw [meaningsOf]; rfl⟩
        | cons q qs ihqs =>
            obtain ⟨r, hr, hev⟩ := ih q (by simp) (hcs q (by simp))
            obtain ⟨rs, hrs, hevs⟩ := ihqs (fun p hp => ih p (by simp [hp]))
              (fun p hp => hcs p (by simp [hp]))
            refine ⟨r.toList ++ rs, by rw [result_toExprs_cons, hr, hrs]; rfl, fun S ρ => ?_⟩
            rw [meaningsOf, hev, hevs, List.map_append]
            cases r <;> rfl
      obtain ⟨es, hes, hev⟩ := hall
      refine ⟨link k es, by rw [result_toExpr_combine, hes]; rfl, fun S ρ => ?_⟩
      rw [meaning, hev, link_keeps_meaning]

/--
**Translating keeps the meaning in three-valued logic.**  A tree of a field's conditions
has no expression exactly when it has no leaf; otherwise it has one, and on every row of
values and nulls that expression comes to what the tree says.
-/
theorem toExpr_keeps_meaning (t : Option Table) (q : Query)
    (h : ∀ c, condition c ∈ q.leaves → c.OfField) :
    ((q.toExpr t).result = .ok none ↔ q.leaves = []) ∧
    (q.leaves ≠ [] → ∃ e, (q.toExpr t).result = .ok (some e) ∧
      ∀ (S : Semantics) (ρ : Assignment), q.meaning S ρ t = some (e.eval S ρ)) := by
  refine ⟨toExpr_eq_none_iff q, fun hne => ?_⟩
  obtain ⟨r, hr, hev⟩ := toExpr_meaning t h
  cases r with
  | none => exact absurd ((toExpr_eq_none_iff q).mp hr) hne
  | some e => exact ⟨e, hr, hev⟩

/-- A database that orders whole numbers and nothing else. -/
def wholeNumbers : Semantics where
  order
    | .int m, .int n => some (compare m n)
    | _, _ => none
  isLike _ _ := none
  isTrue _ := none
  native _ := .unknown

/-- The negation of `a > 5` and `b IN (1, 2)`, beside an absent condition, a plain value and
an empty query, holds where `a` is null and `b` is 3: the first is unknown, but the second
fails. -/
theorem toExpr_keeps_meaning_negation :
    let column (name : String) (h : name ≠ "") : Column := ⟨.field, name, none, h⟩
    let a : Condition := ⟨column "a" (by decide), .gt, [.int 5]⟩
    let b : Condition := ⟨column "b" (by decide), .isIn, [.int 1, .int 2]⟩
    let q := combine .not [condition a, absent, plain (.int 0), all [], condition b]
    let ρ : Assignment := fun c => if c.name = "a" then .null else .int 3
    (∀ c, condition c ∈ q.leaves → c.OfField) ∧
      ∃ e, (q.toExpr none).result = .ok (some e) ∧ e.eval wholeNumbers ρ = .holds := by
  intro column a b q ρ
  have h : ∀ c, condition c ∈ q.leaves → c.OfField := by
    intro c hc
    have hab : c = a ∨ c = b := by simpa [q, all, leaves, leavesAll] using hc
    rcases hab with rfl | rfl
    · exact ⟨.inr (.inr ⟨.gt, .int 5, rfl⟩), by simp [a], by simp [a]⟩
    · exact ⟨.inr (.inr ⟨.isIn, .list [.int 1, .int 2], rfl⟩), by simp [b], by simp [b]⟩
  refine ⟨h, ?_⟩
  obtain ⟨e, he, hev⟩ := (toExpr_keeps_meaning none q h).2 (by simp [q, all, leaves, leavesAll])
  refine ⟨e, he, Option.some.inj ((hev wholeNumbers ρ).symm.trans ?_)⟩
  rfl

end Query

end TableQuery
