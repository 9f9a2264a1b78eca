/-
The text of queries, as messages show it.
-/
import TableQuery.Query.Basic

namespace TableQuery

namespace Query

mutual

/-- The text of a query. -/
def render : Query → String
  | absent => "None"
  | condition c => c.render
  | combine k [q] =>
    "Query(keyword=" ++ quoteText k.name ++ ", children=(" ++ q.render ++ ",))"
  | combine k children =>
    "Query(keyword=" ++ quoteText k.name ++ ", children=("
      ++ Value.commaSeparated (renderAll children) ++ "))"
  | column c => c.render
  | native _ => "<expression>"
  | plain v => v.render

/-- The texts of several queries. -/
def renderAll : List Query → List String
  | [] => []
  | q :: qs => render q :: renderAll qs

end

end Query

end TableQuery
