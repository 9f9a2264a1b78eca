/-
Batches: the rows of one insert, and lists cut into chunks.

All rows of an insert have the same names.  A name is left out when every row leaves it
null and the table can fill it in; apart from that nothing is lost.
-/
import TableQuery.Names
import TableQuery.Row
import TableQuery.Table

namespace TableQuery

namespace Batch

/-- The names of several rows in the order of first appearance. -/
def names (rows : List Row) : List String := distinct (rows.flatMap Row.names)

/-- Whether a name is left to the database: every row leaves it null, and its column
has a default. -/
def isOmitted (t : Table) (rows : List Row) (name : String) : Bool :=
  t.hasDefault name && rows.all (fun r => (r.get name).isNull)

/-- The names that an insert of several rows gives. -/
def keptNames (t : Table) (rows : List Row) : List String :=
  (names rows).filter (fun n => !isOmitted t rows n)

/-- The kept names stand once each. -/
theorem nodup_keptNames (t : Table) (rows : List Row) : (keptNames t rows).Nodup :=
  List.filter_sublist.nodup (nodup_distinct _)

/-- The rows of an insert: each row with the kept names, null where it lacks one. -/
def uniform (t : Table) (rows : List Row) : List Row :=
  let kept := keptNames t rows
  rows.map (fun r => r.pick kept (nodup_keptNames t rows))

/-- How many rows a statement takes when nothing else is asked for. -/
def defaultSize : Nat := 1000

/-- The number of rows of a chunk; none at all means the default. -/
def effectiveSize (asked : Int) : Nat := if asked ≤ 0 then defaultSize else asked.toNat

/-- The chunks of a list, at most `fuel` of them. -/
def chunksUpTo {α : Type} (size : Nat) : Nat → List α → List (List α)
  | 0, _ => []
  | _ + 1, [] => []
  | fuel + 1, x :: xs => (x :: xs).take size :: chunksUpTo size fuel ((x :: xs).drop size)

/-- A list cut into chunks of `size`; the last one may be shorter. -/
def chunks {α : Type} (size : Nat) (xs : List α) : List (List α) := chunksUpTo size xs.length xs

end Batch

end TableQuery
