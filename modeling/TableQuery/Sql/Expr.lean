/-
Boolean expressions of SQL over columns.

Expressions are data; their text is written by a printer of its own.  Negation is
pushed into a comparison where the dialects do so, and a conjunction or disjunction
takes the members of an inner one of its own kind in, so that grouping leaves no trace.

A column or a constant is not yet a condition.  Where one is needed, below a junction
of several or after WHERE, a Boolean column becomes a test of its flag and a constant
becomes a comparison of two numbers: that is `asCondition`.
-/
import TableQuery.Sql.Type

namespace TableQuery

namespace Sql

/-- A column as an expression names it, with what is known of its type. -/
structure ColumnRef where
  name : String
  /-- The table that qualifies the name, if any. -/
  table : Option String
  type : SqlType
  deriving DecidableEq, Repr, Inhabited

/-- A comparison of a column with a bound value. -/
inductive Relation where
  | eq
  | ne
  | gt
  | ge
  | lt
  | le
  | like
  | notLike
  deriving DecidableEq, Repr

/-- The relation that holds where this one fails. -/
def Relation.negate : Relation → Relation
  | eq => ne
  | ne => eq
  | gt => le
  | ge => lt
  | lt => ge
  | le => gt
  | like => notLike
  | notLike => like

/-- How the members of a junction are linked. -/
inductive Junction where
  | conjunction
  | disjunction
  deriving DecidableEq, Repr

/-- A Boolean expression. -/
inductive Expr where
  | compare (r : Relation) (c : ColumnRef) (v : Value)
  /-- A column against a literal truth value. -/
  | truth (negated : Bool) (c : ColumnRef) (b : Bool)
  | null (negated : Bool) (c : ColumnRef)
  | member (negated : Bool) (c : ColumnRef) (vs : List Value)
  | column (c : ColumnRef)
  /-- A Boolean column as a condition: its flag is set, or is not. -/
  | flag (c : ColumnRef) (set : Bool)
  /-- Text that is passed on as it is. -/
  | native (text : String)
  /-- Null in the place of a condition. -/
  | nullValue
  | const (b : Bool)
  /-- A constant where a condition is needed. -/
  | constTest (b : Bool)
  | not (e : Expr)
  | junction (j : Junction) (es : List Expr)
  deriving Inhabited

namespace Expr

/-- An expression where a condition is needed. -/
def asCondition : Expr → Expr
  | column c => if c.type = .boolean then flag c true else column c
  | const b => constTest b
  | e => e

/-- The negation of an expression. -/
def negate : Expr → Expr
  | compare r c v => compare r.negate c v
  | truth n c b => truth (!n) c b
  | null n c => null (!n) c
  | member n c vs => member (!n) c vs
  | column c => if c.type = .boolean then flag c false else not (column c)
  | flag c set => flag c (!set)
  | const b => const (!b)
  | constTest b => const (!b)
  | e => not e

/-- The truth value that decides a junction by itself. -/
def absorbing : Junction → Bool
  | .conjunction => false
  | .disjunction => true

/-- Whether an expression is a given constant. -/
def isConst (b : Bool) : Expr → Bool
  | const c => b == c
  | _ => false

/-- The members that an expression contributes to a junction of a given kind. -/
def membersOf (j : Junction) : Expr → List Expr
  | junction k es => if k = j then es else [junction k es]
  | e => [e]

/-- Expressions linked by a junction.  A constant that decides it stands for the whole,
the other constant is left out, and inner junctions of the same kind are taken in. -/
def join (j : Junction) (es : List Expr) : Expr :=
  if es.any (isConst (absorbing j)) then constTest (absorbing j)
  else
    match es.filter (fun e => !isConst (!absorbing j) e) with
    | [] => constTest (!absorbing j)
    | [e] => asCondition e
    | rest => junction j (rest.flatMap (fun e => membersOf j e.asCondition))

mutual

/-- The columns that an expression names, in the order of its text. -/
def columns : Expr → List ColumnRef
  | compare _ c _ | truth _ c _ | null _ c | member _ c _ | column c | flag c _ => [c]
  | native _ | nullValue | const _ | constTest _ => []
  | not e => columns e
  | junction _ es => columnsAll es

/-- The columns that several expressions name. -/
def columnsAll : List Expr → List ColumnRef
  | [] => []
  | e :: es => columns e ++ columnsAll es

end

/-- The tables beside `main` that an expression names, one entry for each mention. -/
def foreignTables (main : String) (e : Expr) : List String :=
  e.columns.filterMap (fun c => c.table.filter (fun t => t != main))

end Expr

end Sql

end TableQuery
