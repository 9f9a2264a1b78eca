/-
Sets of characters given by ranges of code points.

The tables that use this list only what lies beyond ASCII, so a text of ASCII
characters never searches one.
-/
namespace TableQuery

/-- A set of code points as inclusive ranges, in increasing order. -/
structure CodeRanges where
  ranges : List (Nat × Nat)

/-- Whether a character lies in one of the ranges. -/
def CodeRanges.contains (r : CodeRanges) (c : Char) : Bool :=
  r.ranges.any (fun (low, high) => low ≤ c.toNat && c.toNat ≤ high)

end TableQuery
