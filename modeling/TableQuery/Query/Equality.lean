/-
Equality of queries, and their hash keys.

A query equals another of the same keyword with equal children.  A condition never
equals a query, and a plain value only another value.  Whatever holds a value without a
hash has none.
-/
import TableQuery.Query.Basic

namespace TableQuery

namespace Query

mutual

/-- Equality of queries. -/
def eq : Query → Query → Bool
  | absent, absent => true
  | condition a, condition b => Condition.eq a b
  | combine j as, combine k bs => j == k && eqList as bs
  | column a, column b => a == b
  | plain v, plain w => Value.eq v w
  | _, _ => false

/-- Equality of lists of queries. -/
def eqList : List Query → List Query → Bool
  | [], [] => true
  | a :: as, b :: bs => eq a b && eqList as bs
  | _, _ => false

end

/-- The hash key of a name. -/
def nameKey (s : String) : Value.HashKey := Value.contentKey (Value.textContent s)

mutual

/-- The hash key of a query, or the kind of the part that has none. -/
def hashKey : Query → Except String Value.HashKey
  | absent => .ok .null
  | condition c =>
    (Value.hashKeys c.operands).map (fun keys =>
      .members [nameKey c.column.name, nameKey c.operator.name, .members keys])
  | combine k children =>
    (hashKeys children).map (fun keys => .members [nameKey k.name, .members keys])
  | column c => .ok (nameKey c.name)
  | native _ => .ok .unequal
  | plain v => Value.hashKey v

/-- The hash keys of several queries, or the kind of the first part that has none. -/
def hashKeys : List Query → Except String (List Value.HashKey)
  | [] => .ok []
  | q :: qs =>
    match hashKey q with
    | .error k => .error k
    | .ok key =>
      match hashKeys qs with
      | .error k => .error k
      | .ok keys => .ok (key :: keys)

end

/-- How two queries compare when they are members of a set. -/
structure Comparison where
  sameHash : Bool
  /-- How many members the set of both has. -/
  distinct : Nat
  deriving DecidableEq, Repr

/-- The comparison of two queries; it fails when either has no hash. -/
def compareHashes (a b : Query) : Except Error Comparison :=
  match hashKey a, hashKey b with
  | .error k, _ | .ok _, .error k => .error (.unhashable k)
  | .ok x, .ok y =>
    let same := x.agree y
    .ok ⟨same, if same && eq a b then 1 else 2⟩

end Query

end TableQuery
