/-
Copies of tables under other names, made once and kept.

The copy of a mapped table under a name is one object as long as it is among the
`capacity` copies that were asked for last.  Classes that are mapped to one table share its
copies.  The cache does not hold the copies themselves, which their key determines, but
numbers them in the order they were made, so that two resolutions can be told to be the
same object.
-/
import TableQuery.Handle

namespace TableQuery

/-- A table as an object: two resolutions are the same object when they agree here. -/
inductive TableObject where
  /-- The table that classes are mapped to. -/
  | mapped (table : String)
  /-- A copy or a table known by name, numbered by when it was made. -/
  | made (number : Nat)
  deriving DecidableEq, Repr

/-- The copies made, those asked for last first. -/
structure TableCache where
  /-- The number of the copy of a mapped table under a name. -/
  recent : List ((String × String) × Nat)
  /-- The number of the next object made. -/
  next : Nat

namespace TableCache

/-- How many copies are kept. -/
def capacity : Nat := 256

/-- No copies yet. -/
def empty : TableCache := ⟨[], 0⟩

/-- A new object of its own. -/
def fresh (c : TableCache) : TableObject × TableCache :=
  (.made c.next, { c with next := c.next + 1 })

/-- The copy of a mapped table under a name: the one that is kept, or a new one. -/
def copy (c : TableCache) (table name : String) : TableObject × TableCache :=
  let key := (table, name)
  match c.recent.lookup key with
  | some n => (.made n, { c with recent := (key, n) :: c.recent.filter (fun e => e.1 != key) })
  | none => (.made c.next, ⟨((key, c.next) :: c.recent).take capacity, c.next + 1⟩)

/-- The object that a handle's table is, with the cache after it was asked for.  A class that is
not mapped has no table. -/
def resolve (c : TableCache) (h : Handle) : TableObject × TableCache :=
  match h.model.map (·.mapping) with
  | none | some none => c.fresh
  | some (some m) =>
    match h.ownName? with
    | some name => if name = m.tableName then (.mapped m.object, c) else c.copy m.object name
    | none => (.mapped m.object, c)

end TableCache

end TableQuery
