/-
Values as the driver stores them.

Values for Boolean parameters become what the dialect stores: truth values where it has
them, else 0 and 1; what neither is a truth value nor equals one is refused.  Values for
real parameters become real numbers where the dialect has no decimal numbers of its own,
and values for binary parameters become bytes.  All others are handed over as they are.
-/
import TableQuery.Sql.Literal
import TableQuery.Text.Real

namespace TableQuery

/-- Whether a dialect takes decimal numbers as they are. -/
def Dialect.hasDecimals : Dialect → Bool
  | .postgresql | .mysql | .mariadb => true
  | _ => false

namespace Sql

/-- A value for a Boolean parameter. -/
def boolParameter (d : Dialect) (v : Value) : Except ParameterError Value :=
  match truthOf? v with
  | some b => .ok (if d.hasBooleans then .bool b else .int (if b then 1 else 0))
  | none =>
    match v with
    | .int n => .error (.notTruthValue (.int n))
    | .set vs => .error (.notBoolean (.set vs))
    | v =>
      match v.hashKey with
      | .error kind => .error (.unhashable kind)
      | .ok _ => .error (.notBoolean v)

/-- A number read from a text, which is part of the value that is shown when it is none. -/
def realOfValue (s : String) (v : Value) : Except ParameterError Value :=
  match realOfText? s with
  | some x => .ok (.float x)
  | none => .error (.unreadableReal v)

/-- A whole number as a real one. -/
def realOfInt (n : Int) : Except ParameterError Value :=
  match Binary64.ofRatio (n < 0) n.natAbs 1 with
  | .infinite _ => .error .realOverflow
  | x => .ok (.float x)

/-- A value for a real parameter. -/
def realParameter : Value → Except ParameterError Value
  | .bool b => realOfInt (if b then 1 else 0)
  | .int n => realOfInt n
  | .float x => .ok (.float x)
  | .text s => realOfValue s (.text s)
  | .bytes bs =>
    let ascii := bs.map (fun b => if b < 0x80 then Char.ofNat b.toNat else '?')
    realOfValue (String.ofList ascii) (.bytes bs)
  | v => .error (.notReal v.kind)

/-- A member of a list as a byte. -/
def byteOf (v : Value) : Except ParameterError UInt8 :=
  match v.whole? with
  | some n => if 0 ≤ n && n < 256 then .ok (UInt8.ofNat n.toNat) else .error .byteRange
  | none => .error (.notByte v.kind)

/-- Zero bytes, as many as a number says. -/
def zeroBytes (n : Int) : Except ParameterError Value :=
  let bound : Int := Int.ofNat (Binary64.twoPow 63)
  if n < -bound || bound ≤ n then .error .lengthOverflow
  else if n < 0 then .error .negativeLength
  else .ok (.bytes (List.replicate n.toNat 0))

/-- A value for a binary parameter: a number gives as many zero bytes, and a collection
the bytes that are its members. -/
def binaryParameter (v : Value) : Except ParameterError Value :=
  match v with
  | .bytes bs => .ok (.bytes bs)
  | .text _ => .error .textAsBytes
  | v =>
    match v.whole?, v.members? with
    | some n, _ => zeroBytes n
    | none, some vs => (collect byteOf vs).map .bytes
    | none, none => .error (.notBytes v.kind)

/-- The value of a parameter as the driver receives it. -/
def Parameter.stored (d : Dialect) (p : Parameter) : Except ParameterError Value :=
  if p.value.isNull then .ok .null
  else
    match p.type with
    | .boolean => boolParameter d p.value
    | .real => if d.hasDecimals then .ok p.value else realParameter p.value
    | .binary => binaryParameter p.value
    | _ => .ok p.value

/-- The values of one execution as the driver receives them. -/
def storedAll (d : Dialect) (ps : List Parameter) : Except ParameterError (List Value) :=
  collect (Parameter.stored d) ps

end Sql

end TableQuery
