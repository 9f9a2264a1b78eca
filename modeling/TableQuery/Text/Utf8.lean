/-
Bytes as text: UTF-8 with a replacement for what is no character.

The longest beginning of a character that turns out not to be one is replaced by a
single U+FFFD, and decoding goes on with the byte that broke it off.
-/
namespace TableQuery

namespace Utf8

/-- A character of which bytes are still to come: how many, the value so far, and the
range of the next one. -/
structure Pending where
  remaining : Nat
  value : Nat
  low : UInt8
  high : UInt8

/-- What stands for bytes that are no character. -/
def replacement : Char := Char.ofNat 0xfffd

/-- What the first byte of a character decides: the characters that are complete, and
the one that is pending. -/
def start (b : UInt8) : List Char × Option Pending :=
  let n := b.toNat
  if n < 0x80 then ([Char.ofNat n], none)
  else if 0xc2 ≤ n && n ≤ 0xdf then ([], some ⟨1, n - 0xc0, 0x80, 0xbf⟩)
  else if n = 0xe0 then ([], some ⟨2, 0, 0xa0, 0xbf⟩)
  else if n = 0xed then ([], some ⟨2, 0xd, 0x80, 0x9f⟩)
  else if 0xe1 ≤ n && n ≤ 0xef then ([], some ⟨2, n - 0xe0, 0x80, 0xbf⟩)
  else if n = 0xf0 then ([], some ⟨3, 0, 0x90, 0xbf⟩)
  else if 0xf1 ≤ n && n ≤ 0xf3 then ([], some ⟨3, n - 0xf0, 0x80, 0xbf⟩)
  else if n = 0xf4 then ([], some ⟨3, 4, 0x80, 0x8f⟩)
  else ([replacement], none)

/-- What one more byte decides. -/
def step (p : Option Pending) (b : UInt8) : List Char × Option Pending :=
  match p with
  | none => start b
  | some p =>
    if p.low ≤ b && b ≤ p.high then
      let value := p.value * 64 + (b.toNat - 0x80)
      if p.remaining ≤ 1 then ([Char.ofNat value], none)
      else ([], some ⟨p.remaining - 1, value, 0x80, 0xbf⟩)
    else
      let (cs, next) := start b
      (replacement :: cs, next)

/-- What is left of a pending character when nothing follows. -/
def finish (p : Option Pending) : List Char := if p.isSome then [replacement] else []

/-- The characters of bytes after a pending one. -/
def decodeFrom (p : Option Pending) : List UInt8 → List Char
  | [] => finish p
  | b :: bs =>
    let (cs, next) := step p b
    cs ++ decodeFrom next bs

/-- The characters of bytes. -/
def decode (bs : List UInt8) : List Char := decodeFrom none bs

/-- The bytes of a text. -/
def encode (s : String) : List UInt8 := s.toUTF8.data.toList

/-- The text of bytes, if they are the bytes of one. -/
def decode? (bs : List UInt8) : Option String :=
  let s := String.ofList (decode bs)
  if encode s = bs then some s else none

end Utf8

end TableQuery
