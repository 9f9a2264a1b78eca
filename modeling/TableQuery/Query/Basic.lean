/-
Queries: conditions linked by AND, OR and NOT.

A tree holds conditions, columns, native expressions and, in between, whatever else a
caller passed: an absent condition is what an optional filter without a value gives, and
a plain value is a mistake that is reported and left out.
-/
import TableQuery.Condition
import TableQuery.Event

namespace TableQuery

/-- A query, or what stands in the place of one. -/
inductive Query where
  /-- No condition. -/
  | absent
  | condition (c : Condition)
  | combine (k : Keyword) (children : List Query)
  | column (c : Column)
  /-- An expression of SQL, taken as it is. -/
  | native (e : Sql.Expr)
  /-- A value that is no condition. -/
  | plain (v : Value)
  deriving Inhabited

namespace Query

/-- A condition that may be absent. -/
def ofOption : Option Condition → Query
  | some c => condition c
  | none => absent

/-- A value in the place of a query; null is an absent condition. -/
def ofValue : Value → Query
  | .null => absent
  | v => plain v

/-- All of several conditions. -/
def all (children : List Query) : Query := combine .and children

/-- Any of several conditions. -/
def any (children : List Query) : Query := combine .or children

/-- The negation of a condition. -/
def negation (child : Query) : Query := combine .not [child]

/-- A query of a keyword given by any value. -/
def ofKeyword (keyword : Value) (children : List Query) : Except Error Query :=
  let found := match keyword with
    | .text s => Keyword.ofName? s
    | _ => none
  match found with
  | some k => .ok (combine k children)
  | none => .error (.unknownKeyword keyword)

end Query

end TableQuery
