/-
Conditions: one column compared with operands.

A field builds conditions over values that may be absent.  An absent value gives no
condition, so an optional filter can be passed straight through; so does a collection
without members.
-/
import TableQuery.Column
import TableQuery.Value.Equality

namespace TableQuery

/-- The comparisons. -/
inductive Operator where
  | eq
  | notEq
  | gt
  | gtEq
  | lt
  | ltEq
  | isIn
  | notIn
  | isNull
  | isNotNull
  | like
  | notLike
  deriving DecidableEq, Repr

namespace Operator

/-- The name of an operator. -/
def name : Operator → String
  | eq => "eq"
  | notEq => "not_eq"
  | gt => "gt"
  | gtEq => "gt_eq"
  | lt => "lt"
  | ltEq => "lt_eq"
  | isIn => "in"
  | notIn => "not_in"
  | isNull => "is_null"
  | isNotNull => "is_not_null"
  | like => "like"
  | notLike => "not_like"

/-- The operators. -/
def all : List Operator :=
  [eq, notEq, gt, gtEq, lt, ltEq, isIn, notIn, isNull, isNotNull, like, notLike]

/-- The operator of a name. -/
def ofName? (s : String) : Option Operator := all.find? (fun o => o.name == s)

end Operator

/-- A comparison of a column with operands. -/
structure Condition where
  column : Column
  operator : Operator
  operands : List Value

namespace Condition

/-- The condition of an operator given by any value: only the names of the operators are
accepted. -/
def ofName (column : Column) (operator : Value) (operands : List Value) :
    Except Error Condition :=
  let found := match operator with
    | .text s => Operator.ofName? s
    | _ => none
  match operator, found with
  | _, some o => .ok ⟨column, o, operands⟩
  | .list _, none => .error (.unhashable "list")
  | .set _, none => .error (.unhashable "set")
  | .map _, none => .error (.unhashable "dict")
  | v, none => .error (.unknownOperator v)

/-- The text of a condition, as messages show it. -/
def render (c : Condition) : String :=
  "Condition(column=" ++ c.column.render ++ ", operator=" ++ quoteText c.operator.name
    ++ ", operands=" ++ (Value.tuple c.operands).render ++ ")"

/-- Conditions are equal when their columns, operators and operands are. -/
def eq (a b : Condition) : Bool :=
  a.column == b.column && a.operator == b.operator && Value.eqList a.operands b.operands

/-- The name by which a wrong number of operands is reported. -/
def arityName : Operator → String
  | .notEq => "ne"
  | .gtEq => "ge"
  | .ltEq => "le"
  | o => o.name

/-- A column related to one operand.  Null and the truth values are constants of the
text, and only equality is defined against them. -/
def relate (r : Sql.Relation) (c : Sql.ColumnRef) (v : Value) : Except Error Sql.Expr :=
  match v, r with
  | .null, .eq => .ok (.null false c)
  | .null, .ne => .ok (.null true c)
  | .bool b, .eq => .ok (.truth false c b)
  | .bool b, .ne => .ok (.truth true c b)
  | .null, _ | .bool _, _ => .error .orderedConstant
  | v, r => .ok (.compare r c v)

/-- The expression of an operator over a resolved column. -/
def expression (c : Sql.ColumnRef) (o : Operator) (operands : List Value) :
    Except Error Sql.Expr :=
  match o, operands with
  | .isIn, vs => .ok (.member false c vs)
  | .notIn, vs => .ok (.member true c vs)
  | .isNull, [] => .ok (.null false c)
  | .isNotNull, [] => .ok (.null true c)
  | .isNull, vs | .isNotNull, vs => .error (.nullTestArity vs.length)
  | .eq, [v] => relate .eq c v
  | .notEq, [v] => relate .ne c v
  | .gt, [v] => relate .gt c v
  | .gtEq, [v] => relate .ge c v
  | .lt, [v] => relate .lt c v
  | .ltEq, [v] => relate .le c v
  | .like, [v] => relate .like c v
  | .notLike, [v] => relate .notLike c v
  | .like, vs | .notLike, vs => .error (.patternArity vs.length)
  | o, vs => .error (.comparisonArity (arityName o) vs.length)

/-- A condition as an expression over the table of a statement. -/
def toExpr (c : Condition) (t : Option Table) : Except Error Sql.Expr :=
  expression (c.column.resolve t) c.operator c.operands

end Condition

namespace Column

/-- A comparison with a value that may be absent. -/
def compare (c : Column) (o : Operator) (v : Value) : Option Condition :=
  if v.isNull then none else some ⟨c, o, [v]⟩

/-- A comparison with the members of a collection that may be absent or empty.  A text
or bytes is no collection of values. -/
def memberTest (c : Column) (o : Operator) (v : Value) : Except Error (Option Condition) :=
  match v with
  | .null => .ok none
  | .text _ | .bytes _ => .error (.notCollection c.name o.name v.kind)
  | v =>
    match v.members? with
    | none => .error (.notIterable v.kind)
    | some [] => .ok none
    | some (m :: ms) => .ok (some ⟨c, o, m :: ms⟩)

/-- A pattern comparison with a text put between wildcards; only a text can be. -/
def pattern (c : Column) (o : Operator) (before after : Bool) (v : Value) :
    Except Error (Option Condition) :=
  match v with
  | .null => .ok none
  | .text s =>
    let s := (if before then "%" else "") ++ s ++ (if after then "%" else "")
    .ok (some ⟨c, o, [.text s]⟩)
  | v => .error (if before then .cannotPrepend v.kind else .cannotAppend v.kind)

/-- The ways a field builds a condition of a value. -/
inductive Test where
  | eq
  | notEq
  | isIn
  | notIn
  | gt
  | gtEq
  | lt
  | ltEq
  | like
  | notLike
  | startsWith
  | endsWith
  | contains
  | notContains
  deriving DecidableEq, Repr

/-- The column is null. -/
def isNull (c : Column) : Condition := ⟨c, .isNull, []⟩

/-- The column is not null. -/
def isNotNull (c : Column) : Condition := ⟨c, .isNotNull, []⟩

/-- The condition that a test of a value stands for; none when the value is absent. -/
def test (c : Column) : Test → Value → Except Error (Option Condition)
  | .eq, v => .ok (c.compare .eq v)
  | .notEq, v => .ok (c.compare .notEq v)
  | .isIn, v => c.memberTest .isIn v
  | .notIn, v => c.memberTest .notIn v
  | .gt, v => .ok (c.compare .gt v)
  | .gtEq, v => .ok (c.compare .gtEq v)
  | .lt, v => .ok (c.compare .lt v)
  | .ltEq, v => .ok (c.compare .ltEq v)
  | .like, v => .ok (c.compare .like v)
  | .notLike, v => .ok (c.compare .notLike v)
  | .startsWith, v => c.pattern .like false true v
  | .endsWith, v => c.pattern .like true false v
  | .contains, v => c.pattern .like true true v
  | .notContains, v => c.pattern .notLike true true v

end Column

end TableQuery
