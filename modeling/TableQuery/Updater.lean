/-
Updaters: the pending assignments of a partial update.

A later assignment to a column replaces an earlier one in its place.  Columns are told
apart by their names alone.
-/
import TableQuery.Column
import TableQuery.Row

namespace TableQuery

/-- Pending values by column name. -/
structure Updater where
  pending : Row

namespace Updater

/-- Nothing pending. -/
def empty : Updater := ⟨.empty⟩

/-- A value for a column. -/
def add (u : Updater) (c : Column) (v : Value) : Updater := ⟨u.pending.insert c.name v⟩

/-- No value for a column. -/
def remove (u : Updater) (c : Column) : Updater := ⟨u.pending.erase c.name⟩

/-- The entries of a map from columns: equal columns share the place of the first and
the value of the last. -/
def addAll (u : Updater) (entries : List (Column × Value)) : Updater :=
  ⟨u.pending.insertAll (Row.ofList (entries.map (fun e => (e.1.name, e.2)))).entries⟩

/-- How many columns have a pending value. -/
def size (u : Updater) : Nat := u.pending.size

/-- The text of an updater. -/
def render (u : Updater) : String := "Updater(" ++ u.pending.toValue.render ++ ")"

end Updater

end TableQuery
