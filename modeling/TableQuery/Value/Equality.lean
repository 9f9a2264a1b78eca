/-
Equality of values, and the keys by which equal values are found again.

Numbers are equal by value whatever their kind, so 1, true and 1.0 are the same
member of a set.  Collections are equal member by member within their own kind; the
members of a set and the entries of a map may stand in any order.

`sameHash` says when two values have the same hash.  Equal values always do, and
so do some unequal ones: the hash of a number is its value modulo the prime
2^61 - 1, with -1 and -2 falling together, and a text shares its hash with the
bytes that hold its characters.  Values that can change have no hash.
-/
import TableQuery.Value.Basic

namespace TableQuery

namespace Value

mutual

/-- Equality of values. -/
def eq : Value → Value → Bool
  | null, null => true
  | text a, text b => a == b
  | bytes a, bytes b => a == b
  | list a, list b => eqList a b
  | tuple a, tuple b => eqList a b
  | set a, set b => a.length == b.length && allIn a b
  | map a, map b => a.length == b.length && allEntriesIn a b
  | bool a, w => numberEq (.int (if a then 1 else 0)) w
  | int a, w => numberEq (.int a) w
  | float a, w => numberEq (.float a) w
  | _, _ => false
where
  /-- Equality of a number with any value. -/
  numberEq : Value → Value → Bool
    | int a, bool b => a == (if b then 1 else 0)
    | int a, int b => a == b
    | int a, float b => b.whole? == some a
    | float a, bool b => a.whole? == some (if b then 1 else 0)
    | float a, int b => a.whole? == some b
    | float a, float b => Binary64.eq a b
    | _, _ => false

/-- Equality member by member. -/
def eqList : List Value → List Value → Bool
  | [], [] => true
  | v :: vs, w :: ws => eq v w && eqList vs ws
  | _, _ => false

/-- Whether each value of the first list equals one of the second. -/
def allIn : List Value → List Value → Bool
  | [], _ => true
  | v :: vs, ws => ws.any (fun w => eq v w) && allIn vs ws

/-- Whether each entry of the first list equals one of the second. -/
def allEntriesIn : List (Value × Value) → List (Value × Value) → Bool
  | [], _ => true
  | (k, v) :: es, fs => fs.any (fun f => eq k f.1 && eq v f.2) && allEntriesIn es fs

end

/-- The modulus of the hashes of numbers. -/
def hashPrime : Nat := Binary64.twoPow 61 - 1

/-- What a hash depends on: the residue of a number, the content of a text or of
bytes, or the keys of the members. -/
inductive HashKey where
  | null
  | number (residue : Int)
  | content (bs : List UInt8)
  | unequal
  | members (keys : List HashKey)
  deriving Inhabited

/-- The residue by which a whole number is hashed; -1 shares that of -2. -/
def hashWhole (n : Int) : Int :=
  let r : Int := ((n.natAbs % hashPrime : Nat) : Int)
  let r := if n < 0 then -r else r
  if r == -1 then -2 else r

/-- The residue by which a binary64 number is hashed; 2 is inverted modulo the prime
for a fraction. -/
def hashFloat : Binary64 → HashKey
  | .nan => .unequal
  | .infinite s => .number (if s then -314159 else 314159)
  | .finite s m e =>
    let power : Nat := (e % 61).toNat
    let r : Int := ((m * Binary64.twoPow power % hashPrime : Nat) : Int)
    let r := if s then -r else r
    .number (if r == -1 then -2 else r)

/-- The characters of a text in the narrowest width that holds all of them. -/
def textContent (s : String) : List UInt8 :=
  let codes := s.toList.map Char.toNat
  let byte (n k : Nat) : UInt8 := UInt8.ofNat (n / Binary64.twoPow (8 * k) % 256)
  if codes.all (· < 0x100) then codes.map (byte · 0)
  else if codes.all (· < 0x10000) then codes.flatMap (fun n => [byte n 0, byte n 1])
  else codes.flatMap (fun n => [byte n 0, byte n 1, byte n 2, byte n 3])

/-- The key of content; empty content is hashed as zero. -/
def contentKey (bs : List UInt8) : HashKey :=
  if bs.isEmpty then .number 0 else .content bs

mutual

/-- The hash key of a value, or the kind of the part that has none. -/
def hashKey : Value → Except String HashKey
  | null => .ok .null
  | bool b => .ok (.number (if b then 1 else 0))
  | int n => .ok (.number (hashWhole n))
  | float x => .ok (hashFloat x)
  | text s => .ok (contentKey (textContent s))
  | bytes bs => .ok (contentKey bs)
  | tuple vs => (hashKeys vs).map .members
  | list _ => .error "list"
  | set _ => .error "set"
  | map _ => .error "dict"

/-- The hash keys of several values, or the kind of the first part that has none. -/
def hashKeys : List Value → Except String (List HashKey)
  | [] => .ok []
  | v :: vs =>
    match hashKey v with
    | .error k => .error k
    | .ok key =>
      match hashKeys vs with
      | .error k => .error k
      | .ok keys => .ok (key :: keys)

end

mutual

/-- Whether two hash keys agree. -/
def HashKey.agree : HashKey → HashKey → Bool
  | .null, .null => true
  | .number a, .number b => a == b
  | .content a, .content b => a == b
  | .members a, .members b => HashKey.agreeList a b
  | _, _ => false

/-- Whether two lists of hash keys agree member by member. -/
def HashKey.agreeList : List HashKey → List HashKey → Bool
  | [], [] => true
  | a :: as, b :: bs => HashKey.agree a b && HashKey.agreeList as bs
  | _, _ => false

end

end Value

/-- Values are compared by their own equality. -/
instance : BEq Value := ⟨Value.eq⟩

end TableQuery
