/-
What an expression means on a row.

A condition of SQL holds, fails or is unknown, and it is unknown whenever a null takes
part in a comparison.  `Expr.eval` evaluates an expression on a row in these three values.
How two values that are not null compare is left to the database: `Semantics` is any
order and any pattern test, either of which may leave a pair undecided.

Building an expression rewrites it: negation swaps the relation of a comparison instead
of standing in front of it, and a junction drops constants, takes inner junctions of its
own kind in and disappears around a single member.  `eval_negate` and `eval_join` say that
none of this shows in the meaning.  Swapping relations is sound with nulls because a
comparison and its opposite are unknown on the same rows; that is `test_negate`, and it
would fail in two-valued logic.
-/
import TableQuery.Sql.Expr

namespace TableQuery

namespace Sql

/-! ### Three truth values -/

/-- What a condition comes to. -/
inductive Truth where
  | holds
  | fails
  | unknown
  deriving DecidableEq, Repr

namespace Truth

/-- The truth value of a decided test. -/
def ofBool (b : Bool) : Truth := if b then holds else fails

/-- The truth value of a test that may be undecided. -/
def ofOption : Option Bool → Truth
  | some b => ofBool b
  | none => unknown

/-- Negation; what is unknown stays so. -/
def not : Truth → Truth
  | holds => fails
  | fails => holds
  | unknown => unknown

/-- Conjunction: one failure decides it. -/
def and : Truth → Truth → Truth
  | fails, _ | _, fails => fails
  | holds, holds => holds
  | _, _ => unknown

/-- Disjunction: one success decides it. -/
def or : Truth → Truth → Truth
  | holds, _ | _, holds => holds
  | fails, fails => fails
  | _, _ => unknown

/-- The conjunction of several; of none it holds. -/
def all : List Truth → Truth
  | [] => holds
  | x :: xs => x.and (all xs)

/-- The disjunction of several; of none it fails. -/
def any : List Truth → Truth
  | [] => fails
  | x :: xs => x.or (any xs)

@[simp] theorem not_not (x : Truth) : x.not.not = x := by cases x <;> rfl

@[simp] theorem not_ofBool (b : Bool) : (ofBool b).not = ofBool (!b) := by cases b <;> rfl

theorem not_ofOption (o : Option Bool) : (ofOption o).not = ofOption (o.map (!·)) := by
  cases o with
  | none => rfl
  | some b => exact not_ofBool b

theorem not_or (x y : Truth) : (x.or y).not = x.not.and y.not := by cases x <;> cases y <;> rfl

theorem and_assoc (x y z : Truth) : (x.and y).and z = x.and (y.and z) := by
  cases x <;> cases y <;> cases z <;> rfl

theorem or_assoc (x y z : Truth) : (x.or y).or z = x.or (y.or z) := by
  cases x <;> cases y <;> cases z <;> rfl

@[simp] theorem holds_and (x : Truth) : holds.and x = x := by cases x <;> rfl

@[simp] theorem and_holds (x : Truth) : x.and holds = x := by cases x <;> rfl

@[simp] theorem fails_or (x : Truth) : fails.or x = x := by cases x <;> rfl

@[simp] theorem or_fails (x : Truth) : x.or fails = x := by cases x <;> rfl

theorem all_append (xs ys : List Truth) : all (xs ++ ys) = (all xs).and (all ys) := by
  induction xs with
  | nil => simp [all]
  | cons x xs ih => simp [all, ih, and_assoc]

theorem any_append (xs ys : List Truth) : any (xs ++ ys) = (any xs).or (any ys) := by
  induction xs with
  | nil => simp [any]
  | cons x xs ih => simp [any, ih, or_assoc]

/-- Not any of several is none of them. -/
theorem not_any (xs : List Truth) : (any xs).not = all (xs.map not) := by
  induction xs with
  | nil => rfl
  | cons x xs ih => rw [any, not_or, ih, List.map_cons, all]

/-- A conjunction holds exactly when every member does. -/
theorem all_eq_holds_iff {xs : List Truth} : all xs = holds ↔ ∀ x ∈ xs, x = holds := by
  induction xs with
  | nil => simp [all]
  | cons x xs ih =>
      rw [List.forall_mem_cons, ← ih, all]
      cases x <;> cases all xs <;> simp [and]

end Truth

/-! ### Rows and databases -/

/-- The values of a row by the columns that expressions name, null where there is none. -/
abbrev Assignment := ColumnRef → Value

/-- What a database makes of values that are not null; it may leave a pair undecided. -/
structure Semantics where
  order : Value → Value → Option Ordering
  /-- Whether a text matches a pattern. -/
  isLike : Value → Value → Option Bool
  /-- Whether a value counts as true where a condition is needed. -/
  isTrue : Value → Option Bool
  /-- What text that is passed on as it is comes to. -/
  native : String → Truth

namespace Semantics

variable (S : Semantics)

/-- A test of two values, unknown when either is null. -/
def onValues (test : Value → Value → Option Bool) (x v : Value) : Truth :=
  if x.isNull || v.isNull then .unknown else .ofOption (test x v)

/-- A test of how two values are ordered. -/
def ordered (p : Ordering → Bool) (x v : Value) : Truth :=
  onValues (fun x v => (S.order x v).map p) x v

/-- Whether two values are equal. -/
def equal (x v : Value) : Truth := S.ordered Ordering.isEq x v

/-- Whether a value matches a pattern. -/
def like (x v : Value) : Truth := onValues S.isLike x v

/-- A value where a condition is needed. -/
def asTruth (x : Value) : Truth := if x.isNull then .unknown else .ofOption (S.isTrue x)

/-- What a relation comes to on two values. -/
def test : Relation → Value → Value → Truth
  | .eq => S.ordered Ordering.isEq
  | .ne => S.ordered Ordering.isNe
  | .gt => S.ordered Ordering.isGT
  | .ge => S.ordered Ordering.isGE
  | .lt => S.ordered Ordering.isLT
  | .le => S.ordered Ordering.isLE
  | .like => S.like
  | .notLike => fun x v => (S.like x v).not

theorem not_ordered (p : Ordering → Bool) (x v : Value) :
    (S.ordered p x v).not = S.ordered (fun o => !p o) x v := by
  unfold ordered onValues
  split
  · rfl
  · simp only [Truth.not_ofOption, Option.map_map]
    rfl

/-- The negated relation comes to the negation, null or not. -/
theorem test_negate (r : Relation) (x v : Value) :
    S.test r.negate x v = (S.test r x v).not := by
  cases r with
  | like => rfl
  | notLike => exact (Truth.not_not _).symm
  | _ =>
      simp only [test, Relation.negate, not_ordered]
      congr 1
      funext o
      cases o <;> rfl

end Semantics

/-! ### Expressions -/

/-- A truth value, or its negation. -/
def Truth.negatedIf (negated : Bool) (x : Truth) : Truth := if negated then x.not else x

theorem Truth.negatedIf_not (negated : Bool) (x : Truth) :
    x.negatedIf (!negated) = (x.negatedIf negated).not := by
  cases negated <;> simp [Truth.negatedIf]

namespace Junction

/-- What two members of a junction come to together. -/
def op : Junction → Truth → Truth → Truth
  | conjunction => Truth.and
  | disjunction => Truth.or

/-- What the members of a junction come to together. -/
def truth : Junction → List Truth → Truth
  | conjunction => Truth.all
  | disjunction => Truth.any

variable (j : Junction)

theorem truth_nil : j.truth [] = .ofBool (!Expr.absorbing j) := by cases j <;> rfl

theorem truth_cons (x : Truth) (xs : List Truth) : j.truth (x :: xs) = j.op x (j.truth xs) := by
  cases j <;> rfl

theorem truth_append (xs ys : List Truth) :
    j.truth (xs ++ ys) = j.op (j.truth xs) (j.truth ys) := by
  cases j with
  | conjunction => exact Truth.all_append xs ys
  | disjunction => exact Truth.any_append xs ys

@[simp] theorem truth_singleton (x : Truth) : j.truth [x] = x := by
  cases j <;> cases x <;> rfl

/-- The constant that decides a junction does so at any place. -/
theorem truth_of_mem_absorbing {xs : List Truth} (h : .ofBool (Expr.absorbing j) ∈ xs) :
    j.truth xs = .ofBool (Expr.absorbing j) := by
  induction xs with
  | nil => simp at h
  | cons x xs ih =>
      rw [truth_cons]
      rcases List.mem_cons.mp h with rfl | h
      · cases j <;> cases truth _ xs <;> rfl
      · rw [ih h]
        cases j <;> cases x <;> rfl

/-- The other constant adds nothing. -/
theorem op_neutral (x : Truth) : j.op (.ofBool (!Expr.absorbing j)) x = x := by
  cases j <;> cases x <;> rfl

end Junction

namespace Expr

variable (S : Semantics) (ρ : Assignment)

mutual

/-- What an expression comes to on a row. -/
def eval : Expr → Truth
  | compare r c v => S.test r (ρ c) v
  | truth negated c b => (S.equal (ρ c) (.bool b)).negatedIf negated
  | null negated c => (Truth.ofBool (ρ c).isNull).negatedIf negated
  | member negated c vs => (Truth.any (vs.map (S.equal (ρ c)))).negatedIf negated
  | column c => S.asTruth (ρ c)
  | flag c set => (S.asTruth (ρ c)).negatedIf (!set)
  | native text => S.native text
  | nullValue => .unknown
  | const b | constTest b => .ofBool b
  | not e => (eval e).not
  | junction j es => j.truth (evalAll es)

/-- What several expressions come to. -/
def evalAll : List Expr → List Truth
  | [] => []
  | e :: es => eval e :: evalAll es

end

theorem evalAll_eq_map (es : List Expr) : evalAll S ρ es = es.map (eval S ρ) := by
  induction es with
  | nil => rw [evalAll]; rfl
  | cons e es ih => rw [evalAll, ih]; rfl

/-- Standing where a condition is needed changes no meaning. -/
theorem eval_asCondition (e : Expr) : e.asCondition.eval S ρ = e.eval S ρ := by
  cases e with
  | column c =>
      rw [asCondition]
      split
      · simp [eval, Truth.negatedIf]
      · rfl
  | const b => simp [asCondition, eval]
  | _ => rfl

/-- **Negating an expression negates its meaning.** -/
theorem eval_negate (e : Expr) : e.negate.eval S ρ = (e.eval S ρ).not := by
  cases e with
  | compare r c v => simp only [negate, eval, S.test_negate]
  | truth n c b => simp only [negate, eval, Truth.negatedIf_not]
  | null n c => simp only [negate, eval, Truth.negatedIf_not]
  | member n c vs => simp only [negate, eval, Truth.negatedIf_not]
  | flag c set => simp only [negate, eval, Truth.negatedIf_not]
  | column c =>
      rw [negate]
      split
      · simp [eval, Truth.negatedIf]
      · simp [eval]
  | const b => simp [negate, eval]
  | constTest b => simp [negate, eval]
  | _ => simp [negate, eval]

/-! ### Junctions -/

theorem eval_of_isConst {b : Bool} {e : Expr} (h : isConst b e = true) :
    e.eval S ρ = .ofBool b := by
  cases e with
  | const c =>
      have hbc : b = c := by simpa [isConst] using h
      rw [eval, hbc]
  | _ => simp [isConst] at h

/-- Constants that add nothing can be left out. -/
theorem truth_filter_neutral (j : Junction) (es : List Expr) :
    j.truth ((es.filter (fun e => !isConst (!absorbing j) e)).map (eval S ρ))
      = j.truth (es.map (eval S ρ)) := by
  induction es with
  | nil => rfl
  | cons e es ih =>
      by_cases hc : isConst (!absorbing j) e = true
      · rw [List.filter_cons_of_neg (by simp [hc]), ih, List.map_cons, j.truth_cons,
          eval_of_isConst S ρ hc, j.op_neutral]
      · rw [List.filter_cons_of_pos (by simp [hc]), List.map_cons, List.map_cons, j.truth_cons,
          j.truth_cons, ih]

/-- What an expression contributes to a junction comes to what it does. -/
theorem truth_membersOf (j : Junction) (e : Expr) :
    j.truth ((membersOf j e).map (eval S ρ)) = e.eval S ρ := by
  cases e with
  | junction k es =>
      rw [membersOf]
      split
      · rename_i hkj
        rw [eval, evalAll_eq_map, hkj]
      · simp
  | _ => simp [membersOf]

theorem truth_flatMap_membersOf (j : Junction) (es : List Expr) :
    j.truth ((es.flatMap (fun e => membersOf j e.asCondition)).map (eval S ρ))
      = j.truth (es.map (eval S ρ)) := by
  induction es with
  | nil => rfl
  | cons e es ih =>
      rw [List.flatMap_cons, List.map_append, j.truth_append, truth_membersOf, ih,
        eval_asCondition, List.map_cons, j.truth_cons]

/-- **Linking expressions links their meanings.** -/
theorem eval_join (j : Junction) (es : List Expr) :
    (join j es).eval S ρ = j.truth (es.map (eval S ρ)) := by
  unfold join
  split
  · rename_i hany
    obtain ⟨e, he, hc⟩ := List.any_eq_true.mp hany
    rw [eval, j.truth_of_mem_absorbing]
    exact List.mem_map.mpr ⟨e, he, eval_of_isConst S ρ hc⟩
  · rw [← truth_filter_neutral]
    split
    · rename_i hnil
      rw [hnil, List.map_nil, j.truth_nil, eval]
    · rename_i e hone
      rw [hone, eval_asCondition]
      simp
    · rw [eval, evalAll_eq_map, truth_flatMap_membersOf]

end Expr

end Sql

end TableQuery
