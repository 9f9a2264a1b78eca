/-
What becomes of the places of a raw statement.

A text is read more than once: the scanner writes a template, in which placeholders are
named binds and other colons are escaped, and the template is read for its names and read to
be written out, by rules of its own.  `Apart` is the spacing under which the later readings
find what the first one wrote: no placeholder stands beside a word character, a dollar sign or
another placeholder, or behind a colon or a backslash.  `parts_positionalTemplate` says that
then the binds of the template are the placeholders and all else is the text again.  `Legible`
is what the reading for names alone asks for.

All of them only look at neighbours, so the text is seen as a list of places, each a
character or a placeholder, and the proof is one induction on that list.  It carries the
character before, which decides whether a colon may start a bind.
-/
import Mathlib.Data.List.Chain
import TableQuery.Proofs.RawSql.Scan
import TableQuery.Proofs.RawSql.Reading

namespace TableQuery

namespace RawSql

/-! ### Places -/

/-- The places of a segment: its characters, or none for a placeholder. -/
def Segment.places : Segment → List (Option Char)
  | .placeholder _ => [none]
  | s => s.chars.map some

/-- The places of a text from left to right. -/
def places (ss : List Segment) : List (Option Char) := ss.flatMap Segment.places

/-- Whether two places may stand one after the other. -/
def Fits : Option Char → Option Char → Prop
  | some _, some _ => True
  | some c, none => isWord c = false ∧ c ≠ '$' ∧ c ≠ ':' ∧ c ≠ '\\'
  | none, some c => isWord c = false ∧ c ≠ '$'
  | none, none => False

instance : DecidableRel Fits
  | some _, some _ => inferInstanceAs (Decidable True)
  | some c, none =>
    inferInstanceAs (Decidable (isWord c = false ∧ c ≠ '$' ∧ c ≠ ':' ∧ c ≠ '\\'))
  | none, some c => inferInstanceAs (Decidable (isWord c = false ∧ c ≠ '$'))
  | none, none => inferInstanceAs (Decidable False)

/-- Whether every placeholder stands apart from what it must not touch. -/
def Apart (ss : List Segment) : Prop := (places ss).IsChain Fits

instance (ss : List Segment) : Decidable (Apart ss) :=
  inferInstanceAs (Decidable ((places ss).IsChain Fits))

/-- Whether a reading with these characters for the parts of a name keeps two places apart that
stand one after the other. -/
def FitsIn (inName : Char → Bool) : Option Char → Option Char → Prop
  | some _, some _ => True
  | some c, none => blocksBind inName c = false
  | none, some c => inName c = false
  | none, none => False

instance (inName : Char → Bool) : DecidableRel (FitsIn inName)
  | some _, some _ => inferInstanceAs (Decidable True)
  | some c, none => inferInstanceAs (Decidable (blocksBind inName c = false))
  | none, some c => inferInstanceAs (Decidable (inName c = false))
  | none, none => inferInstanceAs (Decidable False)

theorem Fits.fitsIn {inName : Char → Bool} (hclass : NameClass inName) {x y : Option Char}
    (h : Fits x y) : FitsIn inName x y := by
  have hname : ∀ c, isWord c = false → c ≠ '$' → inName c = false := by
    intro c hword hdollar
    refine Bool.eq_false_iff.mpr fun hname => ?_
    rcases hclass.only c hname with hc | hc
    · exact absurd hc (Bool.eq_false_iff.mp hword)
    · exact hdollar hc
  match x, y, h with
  | some _, some _, _ => trivial
  | some c, none, ⟨hword, hdollar, hcolon, hslash⟩ =>
      exact blocksBind_eq_false_iff.mpr ⟨hname c hword hdollar, hcolon, hslash⟩
  | none, some c, ⟨hword, hdollar⟩ => exact hname c hword hdollar

/-- Whether the reading for names keeps every placeholder apart from what is beside it. -/
def Legible (ss : List Segment) : Prop := (places ss).IsChain (FitsIn isWord)

instance (ss : List Segment) : Decidable (Legible ss) :=
  inferInstanceAs (Decidable ((places ss).IsChain (FitsIn isWord)))

theorem Apart.legible {ss : List Segment} (h : Apart ss) : Legible ss :=
  h.imp fun _ _ hfits => hfits.fitsIn nameClass_isWord

theorem count_places (ss : List Segment) : (places ss).count none = placeholderCount ss := by
  induction ss with
  | nil => rfl
  | cons s ss ih =>
      rw [places, List.flatMap_cons, List.count_append, ← places, ih, placeholderCount,
        placeholderCount, List.countP_cons]
      have hchars : ∀ cs : List Char, (cs.map some).count none = 0 := by
        intro cs
        rw [List.count_eq_zero]
        simp
      cases s with
      | placeholder p => simp [Segment.places, Nat.add_comm]
      | ordinary c => simp [Segment.places, hchars]
      | shielded cs => simp [Segment.places, hchars]
      | colon => simp [Segment.places, hchars]

/-- The scanner leaves no colon ordinary. -/
theorem Scan.ordinary_ne_colon {escapes : Bool} {cs : List Char} {ss : List Segment}
    (h : Scan escapes cs ss) : .ordinary ':' ∉ ss := by
  induction h with
  | nil => simp
  | shielded h longest hrest ih => simpa using ih
  | question hrest ih => simpa using ih
  | percent hrest ih => simpa using ih
  | colon hrest ih => simpa using ih
  | ordinary question colon percent unshielded hrest ih => simpa [Ne.symm colon] using ih

/-! ### The names of placeholders -/

theorem toList_positionName (i : Nat) : (positionName i).toList = 'p' :: Nat.toDigits 10 i := by
  rw [positionName, String.toList_append, Nat.toString_eq_repr, Nat.toList_repr]
  rfl

theorem positionName_injective {i j : Nat} (h : positionName i = positionName j) : i = j := by
  have hlists := congrArg String.toList h
  rw [toList_positionName, toList_positionName] at hlists
  have hdigits := (List.cons.inj hlists).2
  rw [← Nat.ofDigitChars_ten_toDigits (n := i), hdigits, Nat.ofDigitChars_ten_toDigits]

theorem isWord_of_isDigit {c : Char} (h : c.isDigit = true) : isWord c = true := by
  have hle : c.toNat ≤ 57 := by
    simp only [Char.isDigit, Bool.and_eq_true, decide_eq_true_eq, UInt32.le_iff_toNat_le] at h
    exact h.2
  rw [isWord, if_pos (by omega), Char.isAlphanum, h]
  simp

theorem isWord_of_mem_positionName {i : Nat} {c : Char} (h : c ∈ (positionName i).toList) :
    isWord c = true := by
  rw [toList_positionName] at h
  rcases List.mem_cons.mp h with rfl | h
  · decide
  · exact isWord_of_isDigit (Nat.isDigit_of_mem_toDigits (by decide) (by decide) h)

/-! ### The template and its parts -/

/-- The template of places of which the first placeholder has the number `i`. -/
def placeTemplate : Nat → List (Option Char) → List Char
  | _, [] => []
  | i, none :: xs => ':' :: (positionName i).toList ++ placeTemplate (i + 1) xs
  | i, some c :: xs => escapeColons [c] ++ placeTemplate i xs

/-- The parts that places stand for. -/
def placeParts : Nat → List (Option Char) → List Part
  | _, [] => []
  | i, none :: xs => .bind (positionName i).toList :: placeParts (i + 1) xs
  | i, some c :: xs => .char c :: placeParts i xs

theorem placeTemplate_colon (i : Nat) (xs : List (Option Char)) :
    placeTemplate i (some ':' :: xs) = '\\' :: ':' :: placeTemplate i xs := rfl

theorem placeTemplate_char {c : Char} (hc : c ≠ ':') (i : Nat) (xs : List (Option Char)) :
    placeTemplate i (some c :: xs) = c :: placeTemplate i xs := by
  simp [placeTemplate, escapeColons, hc]

theorem placeTemplate_append (i : Nat) (cs : List Char) (xs : List (Option Char)) :
    placeTemplate i (cs.map some ++ xs) = escapeColons cs ++ placeTemplate i xs := by
  induction cs with
  | nil => rfl
  | cons c cs ih =>
      rw [List.map_cons, List.cons_append, placeTemplate, ih, ← List.append_assoc, escapeColons,
        escapeColons, escapeColons, ← List.flatMap_append, List.singleton_append]

theorem positionalTemplate_eq {ss : List Segment} (h : .ordinary ':' ∉ ss) (i : Nat) :
    positionalTemplate i ss = placeTemplate i (places ss) := by
  induction ss generalizing i with
  | nil => rfl
  | cons s ss ih =>
      rw [List.mem_cons, not_or] at h
      rw [places, List.flatMap_cons, ← places]
      cases s with
      | placeholder p => rw [positionalTemplate, ih h.2]; rfl
      | shielded cs =>
          show escapeColons cs ++ positionalTemplate i ss =
            placeTemplate i (cs.map some ++ places ss)
          rw [ih h.2, placeTemplate_append]
      | colon =>
          show escapeColons [':'] ++ positionalTemplate i ss =
            placeTemplate i (some ':' :: places ss)
          rw [ih h.2, placeTemplate]
      | ordinary c =>
          have hc : c ≠ ':' := fun heq => h.1 (by rw [heq])
          rw [positionalTemplate, ih h.2]
          show _ = escapeColons [c] ++ _
          simp [escapeColons, hc]

/-- A template starts with a colon only where its places start with a placeholder. -/
theorem head?_placeTemplate {i : Nat} {xs : List (Option Char)} {c : Char}
    (h : (placeTemplate i xs).head? = some c) :
    xs.head? = some none ∧ c = ':' ∨ xs.head? = some (some c) ∧ c ≠ ':' ∨
      xs.head? = some (some ':') ∧ c = '\\' := by
  match xs with
  | [] => simp [placeTemplate] at h
  | none :: xs =>
      refine Or.inl ⟨rfl, ?_⟩
      simpa [placeTemplate, eq_comm] using h
  | some d :: xs =>
      by_cases hd : d = ':'
      · refine Or.inr (Or.inr ⟨by rw [hd]; rfl, ?_⟩)
        simpa [placeTemplate, escapeColons, hd, eq_comm] using h
      · have hdc : d = c := by simpa [placeTemplate, escapeColons, hd] using h
        exact Or.inr (Or.inl ⟨by rw [hdc]; rfl, hdc ▸ hd⟩)

section Reading

variable {inName : Char → Bool} {retreats : Bool} (hclass : NameClass inName)
include hclass

/-- Behind an escaped colon no run of name characters meets another colon: the run ends before
the next placeholder. -/
theorem meetsColon_placeTemplate {i : Nat} {c : Char} {xs : List (Option Char)}
    (h : (some c :: xs).IsChain (FitsIn inName)) (hc : c = ':' ∨ inName c = true) :
    meetsColon inName (placeTemplate i xs) = false := by
  induction xs generalizing c with
  | nil => rfl
  | cons x xs ih =>
      obtain ⟨hfits, hchain⟩ := List.isChain_cons_cons.mp h
      cases x with
      | none =>
          obtain ⟨hname, hcolon, -⟩ := blocksBind_eq_false_iff.mp hfits
          rcases hc with hc | hc
          · exact absurd hc hcolon
          · exact absurd hc (Bool.eq_false_iff.mp hname)
      | some d =>
          by_cases hd : d = ':'
          · rw [hd, placeTemplate_colon, meetsColon_cons, if_neg (by simp [hclass.backslash])]
            rfl
          · rw [placeTemplate_char hd, meetsColon_cons]
            by_cases hname : inName d = true
            · rw [if_pos hname]
              exact ih hchain (Or.inr hname)
            · rw [if_neg hname]
              exact beq_false_of_ne hd

/-- No part of a name and no colon stands behind a placeholder that is kept apart. -/
theorem placeTemplate_behind {i : Nat} {xs : List (Option Char)}
    (h : (none :: xs).IsChain (FitsIn inName)) :
    (placeTemplate i xs).takeWhile inName = [] ∧
      meetsColon inName (placeTemplate i xs) = false := by
  match xs, h with
  | [], _ => exact ⟨rfl, rfl⟩
  | none :: xs, h => exact (List.isChain_cons_cons.mp h).1.elim
  | some c :: xs, h =>
      by_cases hc : c = ':'
      · rw [hc, placeTemplate_colon, meetsColon_cons, List.takeWhile_cons_of_neg,
          if_neg (by simp [hclass.backslash])]
        · exact ⟨rfl, rfl⟩
        · simp [hclass.backslash]
      · have hname : inName c = false := (List.isChain_cons_cons.mp h).1
        rw [placeTemplate_char hc, meetsColon_cons, List.takeWhile_cons_of_neg,
          if_neg (by simp [hname])]
        · exact ⟨rfl, beq_false_of_ne hc⟩
        · simp [hname]

theorem partsFrom_placeTemplate {previous : Option Char} {i : Nat} {xs : List (Option Char)}
    (h : xs.IsChain (FitsIn inName))
    (hstart : xs.head? = some none → previous.any (blocksBind inName) = false) :
    partsFrom inName retreats previous 0 (placeTemplate i xs) = placeParts i xs := by
  induction xs generalizing previous i with
  | nil => rfl
  | cons x xs ih =>
      have hchain : xs.IsChain (FitsIn inName) := List.IsChain.of_cons h
      have hfits : ∀ y, xs.head? = some y → FitsIn inName x y := by
        intro y hy
        obtain ⟨ys, rfl⟩ := List.head?_eq_some_iff.mp hy
        exact (List.isChain_cons_cons.mp h).1
      cases x with
      | none =>
          obtain ⟨hrun, hfree⟩ := placeTemplate_behind hclass (i := i + 1) h
          have hname : nameAfter? inName retreats
              ((positionName i).toList ++ placeTemplate (i + 1) xs) =
                some (positionName i).toList :=
            nameAfter?_run (fun c hc => hclass.word c (isWord_of_mem_positionName hc)) hrun hfree
          have hnext : xs.head? = some none →
              ((positionName i).toList.getLast?.or (some ':')).any (blocksBind inName) = false :=
            fun hx => (hfits none hx).elim
          rw [placeTemplate, List.cons_append, placeParts, ← ih hchain hnext, ← partsFrom_append]
          rw [toList_positionName] at hname ⊢
          exact partsFrom_bind (hstart rfl) hname
      | some c =>
          have hnext : xs.head? = some none → (some c).any (blocksBind inName) = false :=
            fun hx => hfits none hx
          rw [placeParts, ← ih hchain hnext]
          by_cases hc : c = ':'
          · subst hc
            have hfree := meetsColon_placeTemplate hclass (i := i) h (Or.inl rfl)
            exact partsFrom_escaped (isSome_nameAfter? hfree)
          · rw [placeTemplate_char hc]
            refine partsFrom_char hc ?_
            -- A colon behind a backslash would be that of a placeholder.
            rintro ⟨rfl, rest, hrest, -⟩
            rcases head?_placeTemplate (by rw [hrest]; rfl) with ⟨hy, -⟩ | ⟨-, hne⟩ | ⟨-, heq⟩
            · exact (blocksBind_eq_false_iff.mp (hfits none hy)).2.2 rfl
            · exact hne rfl
            · simp at heq

/-- The parts of the template are the places where every placeholder keeps apart. -/
theorem partsFrom_positionalTemplate {escapes : Bool} {cs : List Char} {ss : List Segment}
    (hscan : Scan escapes cs ss) (hchain : (places ss).IsChain (FitsIn inName)) :
    partsFrom inName retreats none 0 (positionalTemplate 0 ss) = placeParts 0 (places ss) := by
  rw [positionalTemplate_eq hscan.ordinary_ne_colon]
  exact partsFrom_placeTemplate hclass hchain fun _ => rfl

end Reading

/-- **The binds of the template are the placeholders, and all else is the text again**, for
both readings. -/
theorem parts_positionalTemplate {escapes : Bool} {cs : List Char} {ss : List Segment}
    (hscan : Scan escapes cs ss) (hapart : Apart ss) :
    parts (positionalTemplate 0 ss) = placeParts 0 (places ss) ∧
      writtenParts (positionalTemplate 0 ss) = placeParts 0 (places ss) :=
  ⟨partsFrom_positionalTemplate nameClass_isWord hscan hapart.legible,
    partsFrom_positionalTemplate nameClass_isNameChar hscan
      (hapart.imp fun _ _ h => h.fitsIn nameClass_isNameChar)⟩

end RawSql

end TableQuery
