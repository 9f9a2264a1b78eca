/-
The operators `&`, `|` and `~` on queries and on what stands in their place.

A condition or a query at the left takes anything in.  A native expression at the left
takes another one, and what can be coerced to one: a truth value and null.  Plain values
have operators of their own.
-/
import TableQuery.Query.Printer
import TableQuery.Value.Bits

namespace TableQuery

/-- The name of the kind of a native expression, as messages give it. -/
def Sql.Expr.kind : Sql.Expr → String
  | .const true => "True_"
  | .const false => "False_"
  | .constTest _ => "AsBoolean"
  | .nullValue => "Null"
  | .not _ => "UnaryExpression"
  | .junction _ _ => "BooleanClauseList"
  | _ => "ColumnClause"

namespace Query

/-- The name of what stands here, as messages give it. -/
def kind : Query → String
  | absent => "NoneType"
  | condition _ => "Condition"
  | combine _ _ => "Query"
  | column c => c.kind.name
  | native e => e.kind
  | plain v => v.kind

/-- Whether this is a condition or a query, which can be combined with anything. -/
def isComposable : Query → Bool
  | condition _ | combine _ _ => true
  | _ => false

/-- An operand beside a native expression as one: a truth value is a constant, and
nothing at all is null. -/
def asNative : Query → Except Error Sql.Expr
  | native e => .ok e
  | absent => .ok .nullValue
  | plain (.bool b) => .ok (.const b)
  | plain (.text s) => .error (.textualExpression s)
  | q => .error (.notExpression q.render)

/-- Two operands of an operator that has no condition or query at the left. -/
def combineOthers (symbol : String) (j : Sql.Junction)
    (onValues : Value → Value → Option Value) (a b : Query) : Except Error Query :=
  let mismatch := Error.unsupportedOperands symbol a.kind b.kind
  match a, b with
  | plain v, plain w =>
    match onValues v w with
    | some r => .ok (plain r)
    | none => .error mismatch
  | native e, b => b.asNative.map (fun f => native (Sql.Expr.join j [e, f]))
  | _, _ => .error mismatch

/-- `a & b`: a condition or query takes anything in; plain values have an operator of
their own. -/
def conjunction (a b : Query) : Except Error Query :=
  if a.isComposable then .ok (all [a, b])
  else combineOthers "&" .conjunction Value.bitAnd? a b

/-- `a | b`. -/
def disjunction (a b : Query) : Except Error Query :=
  if a.isComposable then .ok (any [a, b])
  else combineOthers "|" .disjunction Value.bitOr? a b

/-- `~a`. -/
def complement : Query → Except Error Query
  | condition c => .ok (negation (condition c))
  | combine k children => .ok (negation (combine k children))
  | native e => .ok (native e.negate)
  | plain v =>
    match v.bitNot? with
    | some r => .ok (plain r)
    | none => .error (.unsupportedOperand "~" v.kind)
  | q => .error (.unsupportedOperand "~" q.kind)

end Query

end TableQuery
