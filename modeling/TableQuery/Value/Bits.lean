/-
The operators `&`, `|` and `~` on plain values: bit by bit on whole numbers, truth
tables on truth values, intersection and union on sets, and union on maps.
-/
import TableQuery.Value.Equality

namespace TableQuery

/-- Bitwise conjunction of whole numbers, negative ones with infinitely many leading ones. -/
def intAnd : Int → Int → Int
  | .ofNat a, .ofNat b => .ofNat (a &&& b)
  | .ofNat a, .negSucc b => .ofNat (a - (a &&& b))
  | .negSucc a, .ofNat b => .ofNat (b - (a &&& b))
  | .negSucc a, .negSucc b => .negSucc (a ||| b)

/-- Bitwise complement of a whole number. -/
def intNot (n : Int) : Int := -n - 1

/-- Bitwise disjunction of whole numbers. -/
def intOr (a b : Int) : Int := intNot (intAnd (intNot a) (intNot b))

namespace Value

/-- The entries of a map with one more, which replaces the value of an equal key. -/
def setEntry (k v : Value) (es : List (Value × Value)) : List (Value × Value) :=
  if es.any (fun e => eq e.1 k) then es.map (fun e => if eq e.1 k then (e.1, v) else e)
  else es ++ [(k, v)]

/-- The members that two sets share, as the smaller of the two has them, or the second
of two that are equally large. -/
def sharedMembers (a b : List Value) : List Value :=
  if a.length < b.length then a.filter (fun v => b.any (eq v))
  else b.filter (fun v => a.any (eq v))

/-- `a & b`; none when the kinds have no such operator. -/
def bitAnd? : Value → Value → Option Value
  | bool a, bool b => some (bool (a && b))
  | set a, set b => some (set (sharedMembers a b))
  | a, b =>
    match a.whole?, b.whole? with
    | some m, some n => some (int (intAnd m n))
    | _, _ => none

/-- `a | b`; none when the kinds have no such operator. -/
def bitOr? : Value → Value → Option Value
  | bool a, bool b => some (bool (a || b))
  | set a, set b => some (set (a ++ b.filter (fun v => !a.any (eq v))))
  | map a, map b => some (map (b.foldl (fun es e => setEntry e.1 e.2 es) a))
  | a, b =>
    match a.whole?, b.whole? with
    | some m, some n => some (int (intOr m n))
    | _, _ => none

/-- `~a`; none when the kind has no such operator. -/
def bitNot? (a : Value) : Option Value := a.whole?.map (fun n => int (intNot n))

end Value

end TableQuery
