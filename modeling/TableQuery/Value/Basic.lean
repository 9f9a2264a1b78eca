/-
Values: what a condition compares with, what a statement binds and what a row holds.

A value is dynamic because a caller may hand over anything: the collections are not
stored in a column, but they stand in lists of members, in arguments of raw
statements and among the children of a query, where they are left out and logged.
-/
import TableQuery.Number.Binary64

namespace TableQuery

/-- A value of any kind.  A map keeps its entries in the order they were made. -/
inductive Value where
  | null
  | bool (b : Bool)
  | int (n : Int)
  | float (x : Binary64)
  | text (s : String)
  | bytes (bs : List UInt8)
  | list (vs : List Value)
  | tuple (vs : List Value)
  | set (vs : List Value)
  | map (entries : List (Value × Value))
  deriving Inhabited

namespace Value

/-- The name of a value's kind, as messages give it. -/
def kind : Value → String
  | null => "NoneType"
  | bool _ => "bool"
  | int _ => "int"
  | float _ => "float"
  | text _ => "str"
  | bytes _ => "bytes"
  | list _ => "list"
  | tuple _ => "tuple"
  | set _ => "set"
  | map _ => "dict"

/-- Whether this is the null value. -/
def isNull : Value → Bool
  | null => true
  | _ => false

/-- The members that a value yields when it is iterated: of a map the keys, of a text
its characters and of bytes their codes; none for a value that holds no members. -/
def members? : Value → Option (List Value)
  | list vs | tuple vs | set vs => some vs
  | map entries => some (entries.map (·.1))
  | text s => some (s.toList.map (fun c => text (String.ofList [c])))
  | bytes bs => some (bs.map (fun b => int (b.toNat : Int)))
  | _ => none

/-- The whole number that a boolean or a whole number stands for. -/
def whole? : Value → Option Int
  | bool b => some (if b then 1 else 0)
  | int n => some n
  | _ => none

/-- Whether a value counts as true: nonzero, and not empty. -/
def truthy : Value → Bool
  | null => false
  | bool b => b
  | int n => n != 0
  | float x => !x.isZero
  | text s => !s.isEmpty
  | bytes bs => !bs.isEmpty
  | list vs | tuple vs | set vs => !vs.isEmpty
  | map entries => !entries.isEmpty

end Value

end TableQuery
