/-
Expressions with their columns and values replaced.

Putting an expression together never looks at a value, and at a column only where that is
the whole of what is put together, to see whether it is Boolean.  So when such a column keeps
its type (`KeepsType`), replacing commutes with negating, with linking and with everything
else that a query is built by.  What is built from two queries that differ in their
values, or for two tables, is therefore one expression with other values, or other
columns, in it.
-/
import TableQuery.Sql.Expr

namespace TableQuery

namespace Sql

namespace Expr

mutual

/-- An expression with every column and every value replaced. -/
def map (f : ColumnRef → ColumnRef) (g : Value → Value) : Expr → Expr
  | compare r c v => compare r (f c) (g v)
  | truth negated c b => truth negated (f c) b
  | null negated c => null negated (f c)
  | member negated c vs => member negated (f c) (vs.map g)
  | column c => column (f c)
  | flag c set => flag (f c) set
  | native text => native text
  | nullValue => nullValue
  | const b => const b
  | constTest b => constTest b
  | not e => not (map f g e)
  | junction j es => junction j (mapAll f g es)

/-- Several expressions with their columns and values replaced. -/
def mapAll (f : ColumnRef → ColumnRef) (g : Value → Value) : List Expr → List Expr
  | [] => []
  | e :: es => map f g e :: mapAll f g es

end

variable {f : ColumnRef → ColumnRef} {g : Value → Value}

theorem mapAll_eq_map (es : List Expr) : mapAll f g es = es.map (map f g) := by
  induction es with
  | nil => rw [mapAll]; rfl
  | cons e es ih => rw [mapAll, ih]; rfl

/-! ### Replacing commutes with building -/

theorem isConst_map (b : Bool) (e : Expr) : isConst b (e.map f g) = isConst b e := by
  cases e <;> simp [map, isConst]

theorem membersOf_map (j : Junction) (e : Expr) :
    membersOf j (e.map f g) = (membersOf j e).map (map f g) := by
  cases e with
  | junction k es =>
      rw [map, membersOf, membersOf, mapAll_eq_map]
      split
      · rfl
      · simp [map, mapAll_eq_map]
  | _ => simp [map, membersOf]

/-- Whether an expression that is itself a column keeps its type. -/
def KeepsType (f : ColumnRef → ColumnRef) : Expr → Prop
  | column c => (f c).type = c.type
  | _ => True

theorem keepsType (hf : ∀ c, (f c).type = c.type) (e : Expr) : e.KeepsType f := by
  cases e with
  | column c => exact hf c
  | _ => trivial

theorem KeepsType.asCondition {e : Expr} (h : e.KeepsType f) : e.asCondition.KeepsType f := by
  cases e with
  | column c =>
      rw [Expr.asCondition]
      split
      · trivial
      · exact h
  | _ => trivial

/-- A negation is no column. -/
theorem keepsType_negate (e : Expr) : e.negate.KeepsType f := by
  cases e with
  | column c =>
      rw [negate]
      split <;> trivial
  | _ => trivial

theorem keepsType_join {es : List Expr} (h : ∀ e ∈ es, e.KeepsType f) (j : Junction) :
    (join j es).KeepsType f := by
  unfold join
  split
  · trivial
  · match hkept : es.filter (fun e => !isConst (!absorbing j) e) with
    | [] => trivial
    | [e] =>
        have he : e ∈ es.filter (fun e => !isConst (!absorbing j) e) := by simp [hkept]
        exact (h e (List.mem_filter.mp he).1).asCondition
    | _ :: _ :: _ => trivial

theorem asCondition_map {e : Expr} (h : e.KeepsType f) :
    (e.map f g).asCondition = e.asCondition.map f g := by
  cases e with
  | column c =>
      rw [map, asCondition, asCondition, show (f c).type = c.type from h]
      split <;> simp [map]
  | _ => simp [map, asCondition]

theorem negate_map {e : Expr} (h : e.KeepsType f) :
    (e.map f g).negate = e.negate.map f g := by
  cases e with
  | column c =>
      rw [map, negate, negate, show (f c).type = c.type from h]
      split <;> simp [map]
  | _ => simp [map, negate]

/-- **Linking replaced expressions is replacing in the linked ones.** -/
theorem join_map {es : List Expr} (h : ∀ e ∈ es, e.KeepsType f) (j : Junction) :
    join j (es.map (map f g)) = (join j es).map f g := by
  have hkept : (es.map (map f g)).filter (fun e => !isConst (!absorbing j) e) =
      (es.filter (fun e => !isConst (!absorbing j) e)).map (map f g) := by
    rw [List.filter_map]
    simp only [Function.comp_def, isConst_map]
  have hany : (es.map (map f g)).any (isConst (absorbing j)) =
      es.any (isConst (absorbing j)) := by
    rw [List.any_map]
    simp only [Function.comp_def, isConst_map]
  unfold join
  rw [hany, hkept]
  split
  · rw [map]
  · have hmem : ∀ e ∈ es.filter (fun e => !isConst (!absorbing j) e), e.KeepsType f :=
      fun e he => h e (List.mem_filter.mp he).1
    match hes : es.filter (fun e => !isConst (!absorbing j) e) with
    | [] => simp [map]
    | [e] => exact asCondition_map (hmem e (by simp [hes]))
    | e :: e' :: rest =>
        simp only [List.map_cons]
        rw [map, mapAll_eq_map, ← List.map_cons, ← List.map_cons, List.flatMap_map,
          List.map_flatMap, List.flatMap_def, List.flatMap_def]
        congr 2
        refine List.map_congr_left fun x hx => ?_
        rw [asCondition_map (hmem x (hes ▸ hx)), membersOf_map]

end Expr

end Sql

end TableQuery
