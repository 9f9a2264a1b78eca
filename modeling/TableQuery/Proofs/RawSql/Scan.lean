/-
What the scanner of raw statements finds.

`Scan` says what the segments of a text are without saying how they are found: from left
to right, at each place the longest literal, quoted name or comment that starts there, or
else a placeholder, a colon or an ordinary character.  An opener of which no closed form
starts is ordinary by the last rule.  `scan_iff` says that the scanner finds exactly
these segments.

What makes the longest form the one that is found is the doubled quote, the only place
where the scanner has a choice: it goes on behind a doubled quote whenever what follows
can be closed at all, and otherwise lets the first of the two close.
-/
import TableQuery.RawSql.Segment

namespace TableQuery

namespace RawSql

/-! ### Closed forms -/

/-- What may stand after an opening quote, to the end of the quote that closes it. -/
inductive Closes (escapes : Bool) (q : Char) : List Char → Prop where
  | quote : Closes escapes q [q]
  | doubled {body : List Char} (h : Closes escapes q body) : Closes escapes q (q :: q :: body)
  | escaped {body : List Char} (honoured : escapes = true) (c : Char)
      (h : Closes escapes q body) : Closes escapes q ('\\' :: c :: body)
  | char {c : Char} {body : List Char} (hq : c ≠ q) (plain : ¬(escapes = true ∧ c = '\\'))
      (h : Closes escapes q body) : Closes escapes q (c :: body)

/-- The literals, quoted names and comments. -/
inductive Shield (escapes : Bool) : List Char → Prop where
  | literal {body : List Char} (h : Closes escapes '\x27' body) : Shield escapes ('\x27' :: body)
  | name {body : List Char} (h : Closes escapes '"' body) : Shield escapes ('"' :: body)
  | backquoted {body : List Char} (h : '\x60' ∉ body) :
      Shield escapes ('\x60' :: (body ++ ['\x60']))
  | line {body : List Char} (h : '\n' ∉ body) : Shield escapes ('-' :: '-' :: body)
  /-- A block comment ends where it can first. -/
  | block {body : List Char} (h : ¬['*', '/'] <:+: body ++ ['*']) :
      Shield escapes ('/' :: '*' :: (body ++ ['*', '/']))

/-- The segments of a text, from left to right. -/
inductive Scan (escapes : Bool) : List Char → List Segment → Prop where
  | nil : Scan escapes [] []
  | shielded {cs rest : List Char} {ss : List Segment} (h : Shield escapes cs)
      (longest : ∀ cs', Shield escapes cs' → cs' <+: cs ++ rest → cs'.length ≤ cs.length)
      (hrest : Scan escapes rest ss) : Scan escapes (cs ++ rest) (.shielded cs :: ss)
  | question {rest : List Char} {ss : List Segment} (hrest : Scan escapes rest ss) :
      Scan escapes ('?' :: rest) (.placeholder false :: ss)
  | percent {rest : List Char} {ss : List Segment} (hrest : Scan escapes rest ss) :
      Scan escapes ('%' :: 's' :: rest) (.placeholder true :: ss)
  | colon {rest : List Char} {ss : List Segment} (hrest : Scan escapes rest ss) :
      Scan escapes (':' :: rest) (.colon :: ss)
  | ordinary {c : Char} {rest : List Char} {ss : List Segment} (question : c ≠ '?')
      (colon : c ≠ ':') (percent : ¬(c = '%' ∧ rest.head? = some 's'))
      (unshielded : ∀ cs, Shield escapes cs → ¬cs <+: c :: rest)
      (hrest : Scan escapes rest ss) : Scan escapes (c :: rest) (.ordinary c :: ss)

/-- Segments have the characters of the text. -/
theorem Scan.flatMap_chars {escapes : Bool} {cs : List Char} {ss : List Segment}
    (h : Scan escapes cs ss) : ss.flatMap Segment.chars = cs := by
  induction h with
  | nil => rfl
  | shielded h longest hrest ih => rw [List.flatMap_cons, ih, Segment.chars]
  | question hrest ih => rw [List.flatMap_cons, ih]; rfl
  | percent hrest ih => rw [List.flatMap_cons, ih]; rfl
  | colon hrest ih => rw [List.flatMap_cons, ih]; rfl
  | ordinary question colon percent unshielded hrest ih => rw [List.flatMap_cons, ih]; rfl

/-! ### Quotes -/

section Quotes

variable {escapes : Bool} {q : Char} {cs body : List Char}

theorem Closes.ne_nil (h : Closes escapes q body) : body ≠ [] := by
  cases h <;> simp

theorem closes_of_closeQuote (h : closeQuote escapes q cs = some body) :
    Closes escapes q body ∧ body <+: cs := by
  fun_induction closeQuote escapes q cs generalizing body with
  | case1 => simp at h
  | case2 =>
      rw [← Option.some.inj h]
      exact ⟨.quote, List.prefix_refl _⟩
  | case3 => simp at h
  | case4 cs found hfound ih =>
      obtain ⟨hcloses, hstarts⟩ := ih hfound
      rw [← Option.some.inj h]
      exact ⟨.doubled hcloses, by simpa using hstarts⟩
  | case5 cs hnone ih =>
      rw [← Option.some.inj h]
      exact ⟨.quote, by simp⟩
  | case6 d cs hd =>
      rw [← Option.some.inj h]
      exact ⟨.quote, by simp⟩
  | case7 c d cs hc hescape ih =>
      obtain ⟨found, hfound, rfl⟩ := Option.map_eq_some_iff.mp h
      obtain ⟨hcloses, hstarts⟩ := ih hfound
      obtain ⟨honoured, rfl⟩ : escapes = true ∧ c = '\\' := by simpa using hescape
      exact ⟨.escaped honoured d hcloses, by simpa using hstarts⟩
  | case8 c d cs hc hplain ih =>
      obtain ⟨found, hfound, rfl⟩ := Option.map_eq_some_iff.mp h
      obtain ⟨hcloses, hstarts⟩ := ih hfound
      exact ⟨.char hc (by simpa using hplain) hcloses, by simpa using hstarts⟩

/-- What is found behind a quote is as long as any closed form that starts there. -/
theorem closeQuote_longest (hq : q ≠ '\\') (h : Closes escapes q body) (hstarts : body <+: cs) :
    ∃ found, closeQuote escapes q cs = some found ∧ body.length ≤ found.length := by
  induction h generalizing cs with
  | quote =>
      obtain ⟨rest, rfl⟩ := hstarts
      cases rest with
      | nil => exact ⟨[q], by simp [closeQuote], by simp⟩
      | cons d rest =>
          by_cases hd : d = q
          · cases hfound : closeQuote escapes q rest with
            | none => exact ⟨[q], by simp [closeQuote, hd, hfound], by simp⟩
            | some found => exact ⟨q :: d :: found, by simp [closeQuote, hd, hfound], by simp⟩
          · exact ⟨[q], by simp [closeQuote, hd], by simp⟩
  | doubled h ih =>
      obtain ⟨rest, rfl⟩ := hstarts
      obtain ⟨found, hfound, hlength⟩ := ih (List.prefix_append _ rest)
      exact ⟨q :: q :: found, by simp [closeQuote, hfound], by simpa using hlength⟩
  | escaped honoured c h ih =>
      obtain ⟨rest, rfl⟩ := hstarts
      obtain ⟨found, hfound, hlength⟩ := ih (List.prefix_append _ rest)
      subst honoured
      refine ⟨'\\' :: c :: found, ?_, by simpa using hlength⟩
      simp [closeQuote, hq.symm, hfound]
  | @char c body hc plain h ih =>
      obtain ⟨rest, rfl⟩ := hstarts
      obtain ⟨found, hfound, hlength⟩ := ih (List.prefix_append _ rest)
      refine ⟨c :: found, ?_, by simpa using hlength⟩
      obtain ⟨d, body, rfl⟩ := List.exists_cons_of_ne_nil h.ne_nil
      rw [List.cons_append, List.cons_append, closeQuote, if_neg hc, if_neg (by simpa using plain)]
      rw [← List.cons_append, hfound]
      rfl

end Quotes

/-! ### Other closed forms -/

section Others

variable {q : Char} {cs body found : List Char}

theorem closeAt_append (h : q ∉ body) (rest : List Char) :
    closeAt q (body ++ q :: rest) = some (body ++ [q]) := by
  induction body with
  | nil => simp [closeAt]
  | cons c body ih =>
      rw [List.mem_cons, not_or] at h
      rw [List.cons_append, closeAt, if_neg (Ne.symm h.1), ih h.2]
      rfl

theorem body_of_closeAt (h : closeAt q cs = some found) :
    ∃ body, q ∉ body ∧ found = body ++ [q] ∧ found <+: cs := by
  fun_induction closeAt q cs generalizing found with
  | case1 => simp at h
  | case2 cs =>
      rw [← Option.some.inj h]
      exact ⟨[], by simp, rfl, by simp⟩
  | case3 c cs hc ih =>
      obtain ⟨found, hfound, rfl⟩ := Option.map_eq_some_iff.mp h
      obtain ⟨body, hbody, rfl, hstarts⟩ := ih hfound
      exact ⟨c :: body, by simp [hbody, Ne.symm hc], rfl, by simpa using hstarts⟩

theorem closeComment_cons {c : Char} (h : ¬(c = '*' ∧ cs.head? = some '/')) :
    closeComment (c :: cs) = (closeComment cs).map (c :: ·) := by
  rw [closeComment]
  rintro tail rfl rfl
  exact h ⟨rfl, rfl⟩

theorem closeComment_append (h : ¬['*', '/'] <:+: body ++ ['*']) (rest : List Char) :
    closeComment (body ++ '*' :: '/' :: rest) = some (body ++ ['*', '/']) := by
  induction body with
  | nil => rfl
  | cons c body ih =>
      rw [List.cons_append, List.infix_cons_iff, not_or] at h
      have hopen : ¬(c = '*' ∧ (body ++ '*' :: '/' :: rest).head? = some '/') := by
        rintro ⟨rfl, hhead⟩
        refine h.1 ?_
        cases body with
        | nil => simp at hhead
        | cons d body =>
            obtain rfl : d = '/' := by simpa using hhead
            simp
      rw [List.cons_append, closeComment_cons hopen, ih h.2]
      rfl

theorem body_of_closeComment (h : closeComment cs = some found) :
    ∃ body, ¬['*', '/'] <:+: body ++ ['*'] ∧ found = body ++ ['*', '/'] ∧ found <+: cs := by
  fun_induction closeComment cs generalizing found with
  | case1 => simp at h
  | case2 tail =>
      rw [← Option.some.inj h]
      exact ⟨[], by simp [List.infix_cons_iff], rfl, by simp⟩
  | case3 c cs hopen ih =>
      obtain ⟨found, hfound, rfl⟩ := Option.map_eq_some_iff.mp h
      obtain ⟨body, hbody, rfl, hstarts⟩ := ih hfound
      refine ⟨c :: body, ?_, rfl, by simpa using hstarts⟩
      rw [List.cons_append, List.infix_cons_iff, not_or]
      refine ⟨?_, hbody⟩
      intro hstart
      obtain ⟨rfl, hslash⟩ := List.cons_prefix_cons.mp hstart
      -- A slash behind the star would have ended the comment here.
      cases body with
      | nil => simp at hslash
      | cons d body =>
          obtain ⟨rfl, -⟩ := List.cons_prefix_cons.mp hslash
          obtain ⟨rest, rfl⟩ := hstarts
          exact hopen _ rfl rfl

end Others

/-! ### The scanner -/

section Scanner

variable {escapes : Bool} {c : Char} {cs found : List Char}

theorem Shield.ne_nil (h : Shield escapes cs) : cs ≠ [] := by
  cases h <;> simp

theorem length_le_takeWhile {body : List Char} (h : '\n' ∉ body) (rest : List Char) :
    body.length ≤ ((body ++ rest).takeWhile (fun c => c ≠ '\n')).length := by
  have hbody : ∀ c ∈ body, decide (c ≠ '\n') = true := by
    intro c hc
    exact decide_eq_true fun heq => h (heq ▸ hc)
  rw [List.takeWhile_append_of_pos hbody, List.length_append]
  omega

/-- Where a closed form starts, one is found that is as long. -/
theorem opened?_of_shield {form : List Char} (h : Shield escapes form)
    (hstarts : form <+: c :: cs) :
    ∃ body, opened? escapes c cs = some (.shielded (c :: body)) ∧
      form.length ≤ (c :: body).length := by
  cases h with
  | literal hcloses =>
      obtain ⟨rfl, hbody⟩ := List.cons_prefix_cons.mp hstarts
      obtain ⟨body, hfound, hlength⟩ := closeQuote_longest (by decide) hcloses hbody
      exact ⟨body, by simp [opened?, hfound], by simpa using hlength⟩
  | name hcloses =>
      obtain ⟨rfl, hbody⟩ := List.cons_prefix_cons.mp hstarts
      obtain ⟨body, hfound, hlength⟩ := closeQuote_longest (by decide) hcloses hbody
      exact ⟨body, by simp [opened?, hfound], by simpa using hlength⟩
  | @backquoted body hbody =>
      obtain ⟨rfl, rest, rfl⟩ := List.cons_prefix_cons.mp hstarts
      rw [List.append_assoc, List.singleton_append]
      exact ⟨_, by simp [opened?, closeAt_append hbody rest]; rfl, by simp⟩
  | @line body hbody =>
      obtain ⟨rfl, hrest⟩ := List.cons_prefix_cons.mp hstarts
      obtain ⟨tail, rfl⟩ := hrest
      refine ⟨_, rfl, ?_⟩
      have hlength := length_le_takeWhile hbody tail
      simp only [List.cons_append, List.length_cons, List.takeWhile_cons]
      simp only [ne_eq, decide_not] at hlength ⊢
      simp
      omega
  | @block body hbody =>
      obtain ⟨rfl, hrest⟩ := List.cons_prefix_cons.mp hstarts
      obtain ⟨tail, rfl⟩ := hrest
      have hfound := closeComment_append hbody tail
      exact ⟨_, by simp [opened?, hfound]; rfl, by simp⟩

/-- What it says of a place that a segment is found there, or none. -/
def Found (escapes : Bool) (c : Char) (cs : List Char) : Option Segment → Prop
  | some (.shielded form) => Shield escapes form ∧ form <+: c :: cs
  | some (.placeholder false) => c = '?'
  | some (.placeholder true) => c = '%' ∧ cs.head? = some 's'
  | some .colon => c = ':'
  | some (.ordinary _) => False
  | none => c ≠ '?' ∧ c ≠ ':' ∧ ¬(c = '%' ∧ cs.head? = some 's')

theorem opened?_of_quote (escapes : Bool) (h : c = '\x27' ∨ c = '"') (cs : List Char) :
    opened? escapes c cs =
      (closeQuote escapes c cs).map (fun body => .shielded (c :: body)) := by
  unfold opened?
  rw [if_pos (by simpa using h)]

theorem found_opened? (escapes : Bool) (c : Char) (cs : List Char) :
    Found escapes c cs (opened? escapes c cs) := by
  by_cases hquote : c = '\x27' ∨ c = '"'
  · rw [opened?_of_quote escapes hquote]
    cases hfound : closeQuote escapes c cs with
    | none => rcases hquote with rfl | rfl <;> simp [Found]
    | some body =>
        obtain ⟨hcloses, hstarts⟩ := closes_of_closeQuote hfound
        refine ⟨?_, by simpa using hstarts⟩
        rcases hquote with rfl | rfl
        · exact .literal hcloses
        · exact .name hcloses
  by_cases hback : c = '\x60'
  · subst hback
    have hopened : opened? escapes '\x60' cs =
        (closeAt '\x60' cs).map (fun body => .shielded ('\x60' :: body)) := rfl
    rw [hopened]
    cases hfound : closeAt '\x60' cs with
    | none => simp [Found]
    | some found =>
        obtain ⟨body, hbody, rfl, hstarts⟩ := body_of_closeAt hfound
        exact ⟨.backquoted hbody, by simpa using hstarts⟩
  by_cases hquestion : c = '?'
  · subst hquestion
    exact rfl
  by_cases hcolon : c = ':'
  · subst hcolon
    exact rfl
  unfold opened?
  rw [if_neg (by simpa using hquote), if_neg hback, if_neg hquestion, if_neg hcolon]
  split
  · rename_i tail
    have hline : '\n' ∉ tail.takeWhile (fun c => c ≠ '\n') := by
      intro hmem
      have hall := List.all_eq_true.mp (List.all_takeWhile (l := tail) (p := fun c => c ≠ '\n'))
      simpa using hall '\n' hmem
    exact ⟨.line hline, by simpa using List.takeWhile_prefix _⟩
  · rename_i rest
    cases hfound : closeComment rest with
    | none => simp [Found]
    | some found =>
        obtain ⟨body, hbody, rfl, hstarts⟩ := body_of_closeComment hfound
        exact ⟨.block hbody, by simpa using hstarts⟩
  · exact ⟨rfl, rfl⟩
  · rename_i hpercent
    refine ⟨hquestion, hcolon, ?_⟩
    rintro ⟨rfl, hs⟩
    cases cs with
    | nil => simp at hs
    | cons d tail =>
        obtain rfl : d = 's' := by simpa using hs
        exact hpercent tail rfl rfl

/-- Nothing is found exactly where no closed form, placeholder or colon starts. -/
theorem opened?_eq_none_iff : opened? escapes c cs = none ↔
    c ≠ '?' ∧ c ≠ ':' ∧ ¬(c = '%' ∧ cs.head? = some 's') ∧
      ∀ form, Shield escapes form → ¬form <+: c :: cs := by
  have hfound := found_opened? escapes c cs
  constructor
  · intro hnone
    rw [hnone] at hfound
    refine ⟨hfound.1, hfound.2.1, hfound.2.2, ?_⟩
    intro form hform hstarts
    obtain ⟨body, hbody, -⟩ := opened?_of_shield hform hstarts
    simp [hnone] at hbody
  · rintro ⟨question, colon, percent, unshielded⟩
    cases hopened : opened? escapes c cs with
    | none => rfl
    | some s =>
        rw [hopened] at hfound
        cases s with
        | ordinary d => exact hfound.elim
        | colon => exact absurd hfound colon
        | placeholder p =>
            cases p with
            | false => exact absurd hfound question
            | true => exact absurd hfound percent
        | shielded form => exact absurd hfound.2 (unshielded form hfound.1)

theorem segmentsFrom_eq_drop (escapes : Bool) (skip : Nat) (cs : List Char) :
    segmentsFrom escapes skip cs = segments escapes (cs.drop skip) := by
  induction cs generalizing skip with
  | nil => simp [segmentsFrom, segments]
  | cons c cs ih =>
      cases skip with
      | zero => rfl
      | succ skip => exact ih skip

/-- The scanner goes on behind what it has found. -/
theorem segments_cons_of_some {s : Segment} (h : opened? escapes c cs = some s) :
    segments escapes (c :: cs) = s :: segments escapes (cs.drop (s.chars.length - 1)) := by
  rw [segments, segmentsFrom, h]
  exact congrArg (s :: ·) (segmentsFrom_eq_drop ..)

theorem segments_cons_of_none (h : opened? escapes c cs = none) :
    segments escapes (c :: cs) = .ordinary c :: segments escapes cs := by
  rw [segments, segmentsFrom, h]
  rfl

/-- A closed form is found when it is a longest one. -/
theorem segments_append_of_shield {form rest : List Char} (h : Shield escapes form)
    (longest : ∀ form', Shield escapes form' → form' <+: form ++ rest →
      form'.length ≤ form.length) :
    segments escapes (form ++ rest) = .shielded form :: segments escapes rest := by
  obtain ⟨c, body, rfl⟩ := List.exists_cons_of_ne_nil h.ne_nil
  have hstarts : c :: body <+: c :: (body ++ rest) := List.prefix_append (c :: body) rest
  obtain ⟨body', hopened, hlength⟩ := opened?_of_shield h hstarts
  have hfound : Shield escapes (c :: body') ∧ c :: body' <+: c :: body ++ rest := by
    have := found_opened? escapes c (body ++ rest)
    rwa [hopened] at this
  have heq : c :: body = c :: body' := by
    have hle := longest _ hfound.1 hfound.2
    have hbody := List.prefix_of_prefix_length_le (List.prefix_append _ rest) hfound.2 hlength
    exact hbody.eq_of_length (by omega)
  rw [← heq] at hopened
  rw [List.cons_append, segments_cons_of_some hopened]
  simp [Segment.chars]

/-- The scanner finds the segments of every text. -/
theorem scan_segments (escapes : Bool) (cs : List Char) :
    Scan escapes cs (segments escapes cs) := by
  induction hlength : cs.length using Nat.strongRecOn generalizing cs with
  | ind n ih =>
      have shorter : ∀ rest, rest.length < cs.length → Scan escapes rest (segments escapes rest) :=
        fun rest hrest => ih rest.length (hlength ▸ hrest) rest rfl
      cases cs with
      | nil => exact .nil
      | cons c cs =>
          have hfound := found_opened? escapes c cs
          cases hopened : opened? escapes c cs with
          | none =>
              obtain ⟨question, colon, percent, unshielded⟩ := opened?_eq_none_iff.mp hopened
              rw [segments_cons_of_none hopened]
              exact .ordinary question colon percent unshielded (shorter cs (by simp))
          | some s =>
              rw [hopened] at hfound
              cases s with
              | ordinary d => exact hfound.elim
              | colon =>
                  obtain rfl : c = ':' := hfound
                  exact .colon (shorter cs (by simp))
              | placeholder percent =>
                  cases percent with
                  | false =>
                      obtain rfl : c = '?' := hfound
                      exact .question (shorter cs (by simp))
                  | true =>
                      obtain ⟨rfl, hs⟩ := hfound
                      obtain ⟨rest, rfl⟩ := List.head?_eq_some_iff.mp hs
                      exact .percent (shorter rest (by simp only [List.length_cons]; omega))
              | shielded form =>
                  obtain ⟨hform, rest, hrest⟩ := hfound
                  have longest : ∀ form', Shield escapes form' → form' <+: form ++ rest →
                      form'.length ≤ form.length := by
                    intro form' hform' hstarts
                    rw [hrest] at hstarts
                    obtain ⟨body, hbody, hle⟩ := opened?_of_shield hform' hstarts
                    rw [hopened] at hbody
                    obtain rfl : form = c :: body := by simpa using hbody
                    exact hle
                  rw [← hrest, segments_append_of_shield hform longest]
                  refine .shielded hform longest (shorter rest ?_)
                  have hpos := List.length_pos_iff.mpr hform.ne_nil
                  rw [← hrest, List.length_append]
                  omega

/-- **The segments of a text are those that the scanner finds.** -/
theorem scan_iff {ss : List Segment} : Scan escapes cs ss ↔ ss = segments escapes cs := by
  constructor
  · intro h
    induction h with
    | nil => rfl
    | shielded hform longest hrest ih => rw [segments_append_of_shield hform longest, ih]
    | question hrest ih => rw [segments_cons_of_some (s := .placeholder false) rfl, ih]; rfl
    | percent hrest ih => rw [segments_cons_of_some (s := .placeholder true) rfl, ih]; rfl
    | colon hrest ih => rw [segments_cons_of_some (s := .colon) rfl, ih]; rfl
    | ordinary question colon percent unshielded hrest ih =>
        have hnone := opened?_eq_none_iff.mpr ⟨question, colon, percent, unshielded⟩
        rw [segments_cons_of_none hnone, ih]
  · rintro rfl
    exact scan_segments escapes cs

end Scanner

end RawSql

end TableQuery
