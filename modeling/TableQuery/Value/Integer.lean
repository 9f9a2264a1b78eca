/-
The whole number that a value stands for where a count, a limit or a port is wanted.
-/
import TableQuery.Error

namespace TableQuery

/-- A value as a whole number: a truth value counts 0 or 1, a fraction is cut off toward
zero, and a text or bytes of ASCII characters is read. -/
def Value.toInteger : Value → Except Error Int
  | .bool b => .ok (if b then 1 else 0)
  | .int n => .ok n
  | .float .nan => .error .nanInteger
  | .float x =>
    match x.truncate? with
    | some n => .ok n
    | none => .error .infiniteInteger
  | .text s => (integerOfText s).mapError (Error.ofIntegerFault (.text s))
  | .bytes bs =>
    let ascii := bs.map (fun b => if b < 0x80 then Char.ofNat b.toNat else '?')
    (integerOfText (String.ofList ascii)).mapError
      (Error.ofIntegerFault (.bytes (bs.take Error.shownLength)))
  | v => .error (.notNumeric v.kind)

end TableQuery
