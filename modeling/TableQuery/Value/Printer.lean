/-
The text of a value, as messages show it.
-/
import TableQuery.Number.Shortest
import TableQuery.Text.Quoted
import TableQuery.Value.Basic

namespace TableQuery

namespace Value

/-- Parts with a comma and a blank between them. -/
def commaSeparated (parts : List String) : String := ", ".intercalate parts

mutual

/-- The text of a value. -/
def render : Value → String
  | null => "None"
  | bool b => if b then "True" else "False"
  | int n => toString n
  | float x => x.render RealFormat.standard
  | text s => quoteText s
  | bytes bs => quoteBytes bs
  | list vs => "[" ++ commaSeparated (renderAll vs) ++ "]"
  | tuple [v] => "(" ++ render v ++ ",)"
  | tuple vs => "(" ++ commaSeparated (renderAll vs) ++ ")"
  | set [] => "set()"
  | set vs => "\x7b" ++ commaSeparated (renderAll vs) ++ "\x7d"
  | map entries => "\x7b" ++ commaSeparated (renderEntries entries) ++ "\x7d"

/-- The texts of several values. -/
def renderAll : List Value → List String
  | [] => []
  | v :: vs => render v :: renderAll vs

/-- The texts of the entries of a map. -/
def renderEntries : List (Value × Value) → List String
  | [] => []
  | (k, v) :: es => (render k ++ ": " ++ render v) :: renderEntries es

end

end Value

end TableQuery
