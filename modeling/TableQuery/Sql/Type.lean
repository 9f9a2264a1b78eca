/-
The types of columns and of bound parameters.

A parameter has the type of its first value; a value without a type of its own, and one
of the same kind as the column that it is compared with, takes the type of the column.
-/
import TableQuery.Value.Basic

namespace TableQuery

/-- The type of a column or a parameter, as far as it is known. -/
inductive SqlType where
  | unknown
  | integer
  | real
  /-- Text, with the greatest length that a column declares. -/
  | string (length : Option Nat)
  | binary
  | boolean
  deriving DecidableEq, Repr, Inhabited

namespace SqlType

/-- The name of a type in generic SQL. -/
def name : SqlType → String
  | unknown => "NULL"
  | integer => "INTEGER"
  | real => "FLOAT"
  | string none => "VARCHAR"
  | string (some n) => "VARCHAR(" ++ toString n ++ ")"
  | binary => "BLOB"
  | boolean => "BOOLEAN"

/-- A type without the length that it declares. -/
def kind : SqlType → SqlType
  | string _ => string none
  | t => t

end SqlType

/-- The type that a value has by itself. -/
def Value.sqlType : Value → SqlType
  | .bool _ => .boolean
  | .int _ => .integer
  | .float _ => .real
  | .text _ => .string none
  | .bytes _ => .binary
  | _ => .unknown

/-- The type of a parameter: that of its first value, else that of the column. -/
def SqlType.ofParameter (column : SqlType) : List Value → SqlType
  | [] => column
  | v :: _ => if v.sqlType = .unknown || v.sqlType = column.kind then column else v.sqlType

end TableQuery
