/-
Pagination: a limit, an offset and the columns to order by.

Limit and offset are kept as they were given; they become whole numbers when a
statement is built.
-/
import TableQuery.Column

namespace TableQuery

/-- One key of an order. -/
structure Order where
  column : Column
  descending : Bool

/-- The text of a key of an order. -/
def Order.render (o : Order) : String :=
  "OrderConfig(column=" ++ o.column.render ++ ", desc=" ++ (Value.bool o.descending).render ++ ")"

/-- A limit, an offset and an order; null imposes nothing. -/
structure Pagination where
  limit : Value
  offset : Value
  orders : List Order

namespace Pagination

/-- Nothing imposed. -/
def empty : Pagination := ⟨.null, .null, []⟩

/-- At most one record. -/
def single : Pagination := ⟨.int 1, .null, []⟩

/-- Another limit. -/
def withLimit (p : Pagination) (v : Value) : Pagination := { p with limit := v }

/-- Another offset. -/
def withOffset (p : Pagination) (v : Value) : Pagination := { p with offset := v }

/-- A further key of the order. -/
def appendOrder (p : Pagination) (o : Order) : Pagination := { p with orders := p.orders ++ [o] }

/-- The text of a pagination. -/
def render (p : Pagination) : String :=
  "PaginationConfig(limit=" ++ p.limit.render ++ ", offset=" ++ p.offset.render ++ ", orders=["
    ++ Value.commaSeparated (p.orders.map Order.render) ++ "])"

end Pagination

end TableQuery
