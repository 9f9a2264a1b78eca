/-
Whole numbers in text: optional white space, a sign, and decimal digits of any script,
single underscores between them.  A number of more than `maxDigits` digits is refused by
its length, whatever follows it.
-/
import TableQuery.Text.Blank

namespace TableQuery

/-- The code points of the digit zero, one for each run of ten decimal digits. -/
def zeroDigits : List Nat := [
  0x30, 0x660, 0x6f0, 0x7c0, 0x966, 0x9e6, 0xa66, 0xae6, 0xb66, 0xbe6, 0xc66, 0xce6, 0xd66,
  0xde6, 0xe50, 0xed0, 0xf20, 0x1040, 0x1090, 0x17e0, 0x1810, 0x1946, 0x19d0, 0x1a80, 0x1a90,
  0x1b50, 0x1bb0, 0x1c40, 0x1c50, 0xa620, 0xa8d0, 0xa900, 0xa9d0, 0xa9f0, 0xaa50, 0xabf0,
  0xff10, 0x104a0, 0x10d30, 0x11066, 0x110f0, 0x11136, 0x111d0, 0x112f0, 0x11450, 0x114d0,
  0x11650, 0x116c0, 0x11730, 0x118e0, 0x11950, 0x11c50, 0x11d50, 0x11da0, 0x16a60, 0x16ac0,
  0x16b50, 0x1d7ce, 0x1d7d8, 0x1d7e2, 0x1d7ec, 0x1d7f6, 0x1e140, 0x1e2f0, 0x1e950, 0x1fbf0]

/-- The value of a decimal digit of any script. -/
def digitValue? (c : Char) : Option Nat :=
  if c.toNat < 0x80 then (if c.isDigit then some (c.toNat - 0x30) else none)
  else (zeroDigits.find? (fun z => z ≤ c.toNat && c.toNat < z + 10)).map (c.toNat - ·)

/-- The number written by further digits after those of `acc`.  `afterDigit` says that
a digit stands just before, so that an underscore may follow and the text may end. -/
def digitsFrom? (acc : Nat) (afterDigit : Bool) : List Char → Option Nat
  | [] => if afterDigit then some acc else none
  | c :: rest =>
    if c == '_' then (if afterDigit then digitsFrom? acc false rest else none)
    else match digitValue? c with
      | some d => digitsFrom? (10 * acc + d) true rest
      | none => none

/-- How many digits a number in text may have. -/
def maxDigits : Nat := 4300

/-- Why a text stands for no whole number. -/
inductive IntegerFault where
  | unreadable
  | tooManyDigits (found : Nat)
  deriving DecidableEq, Repr

/-- The number written by a text of digits without a sign. -/
def unsignedInteger (cs : List Char) : Except IntegerFault Nat :=
  let run := cs.takeWhile (fun c => c == '_' || (digitValue? c).isSome)
  let found := (run.filter (fun c => c != '_')).length
  match digitsFrom? 0 false run with
  | none => .error .unreadable
  | some n =>
    if maxDigits < found then .error (.tooManyDigits found)
    else if run.length = cs.length then .ok n
    else .error .unreadable

/-- The whole number that a text stands for, white space around it left out. -/
def integerOfText (s : String) : Except IntegerFault Int :=
  match trimBy isWhite s.toList with
  | '-' :: r => (unsignedInteger r).map (fun n => -(n : Int))
  | '+' :: r => (unsignedInteger r).map (fun n => (n : Int))
  | r => (unsignedInteger r).map (fun n => (n : Int))

end TableQuery
