/-
How a template is read.

A template is read for its names and read again to be written out.  The two readings differ in
what they take for a part of a name, of which `NameClass` is all that is used, and in what they
make of a run of name characters that meets a colon (`meetsColon`): it is no name to the one, and
to the other its last character is none.  Both look no further than from a colon to the end of
the run behind it, so a character that is no part of a name, no colon and no backslash cuts a
reading in two (`partsFrom_separated`).  Where every colon is escaped, as in a literal, no run
meets one, and nothing is read but the characters (`partsFrom_escapeColons`).
-/
import TableQuery.RawSql.Binding

namespace TableQuery

namespace RawSql

/-- What a reading may take for a part of a name. -/
structure NameClass (inName : Char → Bool) : Prop where
  word : ∀ c, isWord c = true → inName c = true
  only : ∀ c, inName c = true → isWord c = true ∨ c = '$'

theorem nameClass_isWord : NameClass isWord := ⟨fun _ h => h, fun _ h => Or.inl h⟩

theorem nameClass_isNameChar : NameClass isNameChar where
  word c h := by simp [isNameChar, h]
  only c h := by simpa [isNameChar] using h

variable {inName : Char → Bool} {retreats : Bool}

theorem NameClass.backslash (hclass : NameClass inName) : inName '\\' = false := by
  refine Bool.eq_false_iff.mpr fun h => ?_
  rcases hclass.only '\\' h with hword | hdollar
  · exact absurd hword (by decide)
  · exact absurd hdollar (by decide)

theorem blocksBind_eq_false_iff {c : Char} :
    blocksBind inName c = false ↔ inName c = false ∧ c ≠ ':' ∧ c ≠ '\\' := by
  simp only [blocksBind, Bool.or_eq_false_iff, beq_eq_false_iff_ne]
  exact ⟨fun ⟨⟨hcolon, hslash⟩, hname⟩ => ⟨hname, hcolon, hslash⟩,
    fun ⟨hname, hcolon, hslash⟩ => ⟨⟨hcolon, hslash⟩, hname⟩⟩

/-! ### Names -/

/-- Whether the run of name characters that a text starts with meets a colon. -/
def meetsColon (inName : Char → Bool) (cs : List Char) : Bool :=
  (cs.dropWhile inName).head? == some ':'

theorem meetsColon_cons (c : Char) (cs : List Char) :
    meetsColon inName (c :: cs) = if inName c = true then meetsColon inName cs else c == ':' := by
  unfold meetsColon
  by_cases hname : inName c = true
  · rw [List.dropWhile_cons_of_pos hname, if_pos hname]
  · rw [List.dropWhile_cons_of_neg hname, if_neg hname]
    rfl

theorem meetsColon_run {name : List Char} (hname : ∀ c ∈ name, inName c = true)
    (rest : List Char) : meetsColon inName (name ++ rest) = meetsColon inName rest := by
  induction name with
  | nil => rfl
  | cons c name ih =>
      rw [List.cons_append, meetsColon_cons, if_pos (hname c List.mem_cons_self),
        ih fun d hd => hname d (List.mem_cons_of_mem c hd)]

theorem meetsColon_separated {c : Char} (hc : blocksBind inName c = false) (xs ys : List Char) :
    meetsColon inName (xs ++ c :: ys) = meetsColon inName xs := by
  obtain ⟨hname, hcolon, -⟩ := blocksBind_eq_false_iff.mp hc
  induction xs with
  | nil =>
      rw [List.nil_append, meetsColon_cons, if_neg (by simp [hname])]
      exact beq_false_of_ne hcolon
  | cons x xs ih => rw [List.cons_append, meetsColon_cons, meetsColon_cons, ih]

theorem nameAfter?_of_free {cs : List Char} (h : meetsColon inName cs = false) :
    nameAfter? inName retreats cs = some (cs.takeWhile inName) :=
  if_neg (Bool.eq_false_iff.mp h)

theorem isSome_nameAfter? {cs : List Char} (h : meetsColon inName cs = false) :
    (nameAfter? inName retreats cs).isSome = true :=
  Option.isSome_of_eq_some (nameAfter?_of_free h)

theorem nameAfter?_of_meets {cs : List Char} (h : meetsColon inName cs = true) :
    nameAfter? inName retreats cs =
      if retreats && 1 < (cs.takeWhile inName).length then some (cs.takeWhile inName).dropLast
      else none :=
  if_pos h

/-- A run of name characters with none behind it and no colon is the name. -/
theorem nameAfter?_run {name rest : List Char} (hname : ∀ c ∈ name, inName c = true)
    (hrun : rest.takeWhile inName = []) (hfree : meetsColon inName rest = false) :
    nameAfter? inName retreats (name ++ rest) = some name := by
  rw [nameAfter?_of_free ((meetsColon_run hname rest).trans hfree),
    List.takeWhile_append_of_pos hname, hrun, List.append_nil]

/-- What follows a character that is no part of a name does not matter for one before it. -/
theorem nameAfter?_separated {c : Char} (hc : blocksBind inName c = false) (xs ys : List Char) :
    nameAfter? inName retreats (xs ++ c :: ys) = nameAfter? inName retreats xs := by
  have hname : inName c = false := (blocksBind_eq_false_iff.mp hc).1
  have hrun : (xs ++ c :: ys).takeWhile inName = xs.takeWhile inName := by
    induction xs with
    | nil => exact List.takeWhile_cons_of_neg (by simp [hname])
    | cons x xs ih => rw [List.cons_append, List.takeWhile_cons, List.takeWhile_cons, ih]
  have hmeets := meetsColon_separated hc xs ys
  cases h : meetsColon inName xs with
  | false => rw [nameAfter?_of_free (hmeets.trans h), nameAfter?_of_free h, hrun]
  | true => rw [nameAfter?_of_meets (hmeets.trans h), nameAfter?_of_meets h, hrun]

/-- A name is what the text starts with, and made of name characters. -/
theorem prefix_of_nameAfter? {cs name : List Char} (h : nameAfter? inName retreats cs = some name) :
    name <+: cs ∧ ∀ c ∈ name, inName c = true := by
  have hrun : ∀ c ∈ cs.takeWhile inName, inName c = true :=
    List.all_eq_true.mp List.all_takeWhile
  have hstart : cs.takeWhile inName <+: cs := List.takeWhile_prefix inName
  cases hmeets : meetsColon inName cs with
  | false =>
      rw [nameAfter?_of_free hmeets] at h
      cases h
      exact ⟨hstart, hrun⟩
  | true =>
      rw [nameAfter?_of_meets hmeets] at h
      split at h
      · cases h
        have hinit := List.dropLast_prefix (cs.takeWhile inName)
        exact ⟨hinit.trans hstart, fun c hc => hrun c (hinit.subset hc)⟩
      · cases h

/-! ### One step -/

/-- Whether a character is a backslash that only says that the colon behind it starts no
bind. -/
def Escapes (inName : Char → Bool) (retreats : Bool) (c : Char) (cs : List Char) : Prop :=
  c = '\\' ∧ ∃ rest, cs = ':' :: rest ∧ (nameAfter? inName retreats rest).isSome = true

theorem partsFrom_bind {previous : Option Char} {n : Char} {ns rest : List Char}
    (hprevious : previous.any (blocksBind inName) = false)
    (hname : nameAfter? inName retreats rest = some (n :: ns)) :
    partsFrom inName retreats previous 0 (':' :: rest) =
      .bind (n :: ns) :: partsFrom inName retreats (some ':') (ns.length + 1) rest := by
  rw [partsFrom.eq_def]
  dsimp only
  rw [if_pos (by simp [hprevious]), hname]

/-- A colon is itself where it starts no bind. -/
theorem partsFrom_colon {previous : Option Char} {rest : List Char}
    (h : previous.any (blocksBind inName) = true ∨ (nameAfter? inName retreats rest).getD [] = []) :
    partsFrom inName retreats previous 0 (':' :: rest) =
      .char ':' :: partsFrom inName retreats (some ':') 0 rest := by
  rw [partsFrom.eq_def]
  dsimp only
  split
  · rename_i hfree
    rcases h with h | h
    · simp [h] at hfree
    · split
      · rename_i heq
        simp [heq] at h
      · rfl
  · rfl

theorem partsFrom_escape {previous : Option Char} {c : Char} {rest : List Char}
    (h : Escapes inName retreats c rest) :
    partsFrom inName retreats previous 0 (c :: rest) =
      partsFrom inName retreats (some c) 0 rest := by
  obtain ⟨rfl, rest, rfl, hname⟩ := h
  rw [partsFrom.eq_def]
  dsimp only
  rw [if_neg (by simp), if_pos rfl]
  exact if_pos hname

theorem partsFrom_char {previous : Option Char} {c : Char} {rest : List Char} (hc : c ≠ ':')
    (hescapes : ¬Escapes inName retreats c rest) :
    partsFrom inName retreats previous 0 (c :: rest) =
      .char c :: partsFrom inName retreats (some c) 0 rest := by
  rw [partsFrom.eq_def]
  dsimp only
  rw [if_neg (by simp [hc])]
  split
  · rename_i hslash
    split
    · refine if_neg fun hname => ?_
      exact hescapes ⟨hslash, _, rfl, hname⟩
    · rfl
  · rfl

/-- An escaped colon is a colon. -/
theorem partsFrom_escaped {previous : Option Char} {rest : List Char}
    (h : (nameAfter? inName retreats rest).isSome = true) :
    partsFrom inName retreats previous 0 ('\\' :: ':' :: rest) =
      .char ':' :: partsFrom inName retreats (some ':') 0 rest := by
  rw [partsFrom_escape ⟨rfl, rest, rfl, h⟩]
  exact partsFrom_colon (Or.inl rfl)

/-! ### Reading on -/

theorem partsFrom_append (previous : Option Char) (name rest : List Char) :
    partsFrom inName retreats previous name.length (name ++ rest) =
      partsFrom inName retreats (name.getLast?.or previous) 0 rest := by
  induction name generalizing previous with
  | nil => rfl
  | cons c name ih =>
      show partsFrom inName retreats (some c) name.length (name ++ rest) = _
      rw [ih, List.getLast?_cons]
      cases name.getLast? <;> rfl

/-- What stands before a text only matters for whether a colon may start a bind. -/
theorem partsFrom_congr {previous other : Option Char}
    (h : previous.any (blocksBind inName) = other.any (blocksBind inName)) (cs : List Char) :
    partsFrom inName retreats previous 0 cs = partsFrom inName retreats other 0 cs := by
  cases cs with
  | nil => rfl
  | cons c cs =>
      rw [partsFrom.eq_def, partsFrom.eq_def]
      dsimp only
      rw [h]

/-- **A character that is no part of a name, no colon and no backslash cuts a reading in
two.** -/
theorem partsFrom_separated {c : Char} (hc : blocksBind inName c = false)
    {previous : Option Char} {skip : Nat} {xs : List Char} (hskip : skip ≤ xs.length)
    (ys : List Char) :
    partsFrom inName retreats previous skip (xs ++ c :: ys) =
      partsFrom inName retreats previous skip xs ++
        .char c :: partsFrom inName retreats none 0 ys := by
  induction xs generalizing previous skip with
  | nil =>
      obtain rfl : skip = 0 := Nat.le_zero.mp hskip
      obtain ⟨-, hcolon, hslash⟩ := blocksBind_eq_false_iff.mp hc
      rw [List.nil_append, partsFrom_char hcolon fun h => hslash h.1,
        partsFrom_congr (show (some c).any _ = Option.any _ none from hc)]
      rfl
  | cons x xs ih =>
      cases skip with
      | succ skip => exact ih (Nat.le_of_succ_le_succ hskip)
      | zero =>
          have hrest : ∀ {previous : Option Char},
              partsFrom inName retreats previous 0 (xs ++ c :: ys) =
                partsFrom inName retreats previous 0 xs ++
                  .char c :: partsFrom inName retreats none 0 ys :=
            ih (Nat.zero_le _)
          rw [List.cons_append]
          by_cases hcolon : x = ':'
          · subst hcolon
            by_cases hstart : previous.any (blocksBind inName) = false ∧
                (nameAfter? inName retreats xs).getD [] ≠ []
            · obtain ⟨hfree, hname⟩ := hstart
              obtain ⟨n, ns, hns⟩ : ∃ n ns, nameAfter? inName retreats xs = some (n :: ns) := by
                cases hxs : nameAfter? inName retreats xs with
                | none => simp [hxs] at hname
                | some name =>
                    cases name with
                    | nil => simp [hxs] at hname
                    | cons n ns => exact ⟨n, ns, rfl⟩
              have hlength : ns.length + 1 ≤ xs.length := (prefix_of_nameAfter? hns).1.length_le
              rw [partsFrom_bind hfree (by rw [nameAfter?_separated hc, hns]),
                partsFrom_bind hfree hns, ih hlength]
              rfl
            · have hnone : previous.any (blocksBind inName) = true ∨
                  (nameAfter? inName retreats xs).getD [] = [] := by
                by_cases hfree : previous.any (blocksBind inName) = false
                · exact Or.inr (Decidable.of_not_not fun hname => hstart ⟨hfree, hname⟩)
                · exact Or.inl (Bool.not_eq_false _ ▸ hfree)
              rw [partsFrom_colon (by rwa [nameAfter?_separated hc]), partsFrom_colon hnone, hrest]
              rfl
          · -- The character behind the end of `xs` is no colon, so it is never escaped.
            have hsame :
                Escapes inName retreats x (xs ++ c :: ys) ↔ Escapes inName retreats x xs := by
              unfold Escapes
              refine and_congr_right fun _ => ?_
              cases xs with
              | nil => simp [(blocksBind_eq_false_iff.mp hc).2.1]
              | cons d xs => simp [and_assoc, nameAfter?_separated hc]
            by_cases hescapes : Escapes inName retreats x xs
            · rw [partsFrom_escape (hsame.mpr hescapes), partsFrom_escape hescapes, hrest]
            · rw [partsFrom_char hcolon (mt hsame.mp hescapes), partsFrom_char hcolon hescapes,
                hrest]
              rfl

/-! ### Text whose colons are escaped -/

theorem escapeColons_cons (c : Char) (cs : List Char) :
    escapeColons (c :: cs) = (if c = ':' then ['\\', ':'] else [c]) ++ escapeColons cs := rfl

/-- No run in such a text meets a colon, unless one stands behind the text. -/
theorem meetsColon_escapeColons (hclass : NameClass inName) {rest : List Char}
    (hrest : ∀ c, rest.head? = some c → blocksBind inName c = false) (cs : List Char) :
    meetsColon inName (escapeColons cs ++ rest) = false := by
  induction cs with
  | nil =>
      cases rest with
      | nil => rfl
      | cons c rest => exact meetsColon_separated (hrest c rfl) [] rest
  | cons c cs ih =>
      rw [escapeColons_cons]
      by_cases hcolon : c = ':'
      · rw [if_pos hcolon, List.append_assoc, List.cons_append, meetsColon_cons,
          if_neg (by simp [hclass.backslash])]
        rfl
      · rw [if_neg hcolon, List.append_assoc, List.singleton_append, meetsColon_cons, ih]
        simp [hcolon]

/-- **Of a text whose colons are escaped nothing is read but its characters**, when what stands
behind it starts with no part of a name, no colon and no backslash. -/
theorem partsFrom_escapeColons (hclass : NameClass inName) {rest : List Char}
    (hrest : ∀ c, rest.head? = some c → blocksBind inName c = false) (previous : Option Char)
    (cs : List Char) :
    partsFrom inName retreats previous 0 (escapeColons cs ++ rest) =
      cs.map .char ++ partsFrom inName retreats (cs.getLast?.or previous) 0 rest := by
  induction cs generalizing previous with
  | nil => rfl
  | cons c cs ih =>
      have hlast : ((c :: cs).getLast?.or previous) = cs.getLast?.or (some c) := by
        rw [List.getLast?_cons]
        cases cs.getLast? <;> rfl
      rw [escapeColons_cons, hlast, List.map_cons, List.cons_append, ← ih]
      by_cases hcolon : c = ':'
      · subst hcolon
        exact partsFrom_escaped (isSome_nameAfter? (meetsColon_escapeColons hclass hrest cs))
      · rw [if_neg hcolon]
        refine partsFrom_char hcolon ?_
        rintro ⟨-, tail, htail, -⟩
        -- A colon behind a backslash is escaped itself, or stands behind the text.
        cases cs with
        | nil =>
            have hhead : rest.head? = some ':' := by
              rw [show rest = ':' :: tail from htail]
              rfl
            exact (blocksBind_eq_false_iff.mp (hrest ':' hhead)).2.1 rfl
        | cons d cs =>
            rw [escapeColons_cons] at htail
            by_cases hd : d = ':'
            · simp [hd] at htail
            · simp [hd] at htail

end RawSql

end TableQuery
