/-
Filters: the expressions of queries.

The expression of a query is one for the table of a statement, or for none.  Children that are
absent, that are no condition, or in which nothing is left are left out; when nothing
is left of a whole query there is no expression, which means no filter.  Each absent
child and each plain value is reported once, from left to right.
-/
import TableQuery.Query.Basic

namespace TableQuery

namespace Query

/-- The expression of a keyword over the expressions of its children; none when there
is no child left. -/
def link : Keyword → List Sql.Expr → Option Sql.Expr
  | _, [] => none
  | .not, [e] => some e.negate
  | .not, es => some (Sql.Expr.join .conjunction es).negate
  | _, [e] => some e
  | .and, es => some (Sql.Expr.join .conjunction es)
  | .or, es => some (Sql.Expr.join .disjunction es)

mutual

/-- The expression of what stands in the place of a query. -/
def toExpr (t : Option Table) : Query → Logged (Option Sql.Expr)
  | absent => .pure none
  | condition c => .bind (.ofExcept (c.toExpr t)) (fun e => .pure (some e))
  | combine k children => .bind (toExprs t k children) (fun es => .pure (link k es))
  | column c => .pure (some (.column (c.resolve t)))
  | native e => .pure (some e)
  | plain v => .bind (.log (.plainDropped v)) (fun _ => .pure none)

/-- The expressions of the children of a keyword that have one. -/
def toExprs (t : Option Table) (k : Keyword) : List Query → Logged (List Sql.Expr)
  | [] => .pure []
  | q :: qs =>
    .bind (reportAbsent k q) (fun _ =>
      .bind (toExpr t q) (fun e =>
        .bind (toExprs t k qs) (fun es => .pure (e.toList ++ es))))
where
  /-- Reports a child that is absent. -/
  reportAbsent (k : Keyword) : Query → Logged Unit
    | absent => .log (.absentDropped k)
    | _ => .pure ()

end

end Query

end TableQuery
