/-
Where honouring backslash escapes makes a difference.

Raw statements are scanned with backslash escapes honoured for some databases and without them
for the others.  `segments_eq_iff` says which texts the two scans tell apart: exactly those in
which a literal or a name in double quotes, as the plain scan finds it, has a backslash before
a quote.  A backslash anywhere else, in a comment, between backquotes, outside everything or
before another character of a literal, is harmless.

Where no quote is escaped, both look for the closing quote in the same steps, but that the one
with escapes takes a backslash and the character behind it at once
(`closeQuote_eq_of_unescaped`).  Where one is, it is missing from the run of quotes it stands in,
which makes a closing quote of the first of two and the other way round; so no text closes in
both readings with an escaped quote in it (`Closes.hasEscaped_eq_false`).

A text without a backslash has no such literal, and `bind_without_backslash` follows it through
binding.
-/
import TableQuery.Proofs.RawSql.Scan
import TableQuery.RawSql.Binding

namespace TableQuery

namespace RawSql

/-- Whether a text has an escaped `q`: read from left to right, a backslash takes the character
behind it along. -/
def hasEscaped (q : Char) : List Char → Bool
  | '\\' :: c :: cs => c == q || hasEscaped q cs
  | _ :: cs => hasEscaped q cs
  | [] => false

/-- Whether a segment is a literal or a name in double quotes that has its quote escaped. -/
def Segment.escapesQuote : Segment → Bool
  | .shielded (q :: body) => (q == '\x27' || q == '"') && hasEscaped q body
  | _ => false

/-! ### Escaped quotes -/

section Quotes

variable {q c : Char} {cs body : List Char}

theorem hasEscaped_cons (hc : c ≠ '\\') (cs : List Char) :
    hasEscaped q (c :: cs) = hasEscaped q cs := by
  rw [hasEscaped]
  rintro d tail rfl
  exact absurd rfl hc

theorem hasEscaped_of_not_mem (h : '\\' ∉ cs) : hasEscaped q cs = false := by
  induction cs with
  | nil => rfl
  | cons c cs ih =>
      rw [List.mem_cons, not_or] at h
      rw [hasEscaped_cons (Ne.symm h.1), ih h.2]

theorem Segment.escapesQuote_of_not_mem {s : Segment} (h : '\\' ∉ s.chars) :
    s.escapesQuote = false := by
  cases s with
  | ordinary c => rfl
  | placeholder percent => rfl
  | colon => rfl
  | shielded form =>
      cases form with
      | nil => rfl
      | cons q body =>
          have hbody : '\\' ∉ body := fun hmem => h (List.mem_cons_of_mem q hmem)
          rw [Segment.escapesQuote, hasEscaped_of_not_mem hbody, Bool.and_false]

/-! ### Closing quotes -/

theorem closes_plain_cons (hc : c ≠ q) : Closes false q (c :: body) ↔ Closes false q body := by
  constructor
  · intro h
    cases h with
    | quote => exact absurd rfl hc
    | doubled h => exact absurd rfl hc
    | escaped honoured d h => cases honoured
    | char hq plain h => exact h
  · exact .char hc (by simp)

theorem closes_plain_doubled : Closes false q (q :: q :: body) ↔ Closes false q body := by
  constructor
  · intro h
    cases h with
    | doubled h => exact h
    | escaped honoured d h => cases honoured
    | char hq plain h => exact absurd rfl hq
  · exact .doubled

/-- A quote more in front leaves a run of quotes that cannot close. -/
theorem Closes.not_closes_plain (hq : q ≠ '\\') (h : Closes true q body) :
    ¬Closes false q (q :: body) := by
  -- A quote in front can only be the first of two, so the rest of the run shifts by one.
  have hnext : ∀ {c : Char} {body : List Char}, c ≠ q → ¬Closes false q (q :: c :: body) := by
    intro c body hc hplain
    cases hplain with
    | doubled h => exact hc rfl
    | escaped honoured d h => cases honoured
    | char hq plain h => exact hq rfl
  induction h with
  | quote => exact fun hplain => (closes_plain_doubled.mp hplain).ne_nil rfl
  | doubled h ih => exact fun hplain => ih (closes_plain_doubled.mp hplain)
  | escaped honoured c h ih => exact hnext (Ne.symm hq)
  | char hc plain h ih => exact hnext hc

/-- **What closes with escapes and without them has no escaped quote.** -/
theorem Closes.hasEscaped_eq_false (hq : q ≠ '\\') (h : Closes true q body)
    (hplain : Closes false q body) : hasEscaped q body = false := by
  induction h with
  | quote => rw [hasEscaped_cons hq]; rfl
  | doubled h ih =>
      rw [hasEscaped_cons hq, hasEscaped_cons hq, ih (closes_plain_doubled.mp hplain)]
  | @escaped body honoured c h ih =>
      have hbehind : Closes false q (c :: body) := (closes_plain_cons (Ne.symm hq)).mp hplain
      by_cases hc : c = q
      · subst hc
        exact absurd hbehind (h.not_closes_plain hq)
      · rw [hasEscaped, ih ((closes_plain_cons hc).mp hbehind), Bool.or_false]
        exact beq_eq_false_iff_ne.mpr hc
  | @char c body hc plain h ih =>
      have hslash : c ≠ '\\' := fun heq => plain ⟨rfl, heq⟩
      rw [hasEscaped_cons hslash, ih ((closes_plain_cons hc).mp hplain)]

/-- Without escapes a character other than the quote is passed over. -/
theorem closeQuote_plain_cons (hc : c ≠ q) (cs : List Char) :
    closeQuote false q (c :: cs) = (closeQuote false q cs).map (c :: ·) := by
  cases cs with
  | nil => simp [closeQuote, hc]
  | cons d cs => rw [closeQuote, if_neg hc, if_neg (by simp)]

/-- A quote closes when nothing behind it does. -/
theorem exists_closeQuote (escapes : Bool) (q : Char) (cs : List Char) :
    ∃ body, closeQuote escapes q (q :: cs) = some (q :: body) := by
  cases cs with
  | nil => exact ⟨[], by simp [closeQuote]⟩
  | cons d cs =>
      rw [closeQuote, if_pos rfl]
      split
      · split
        · exact ⟨_, rfl⟩
        · exact ⟨[], rfl⟩
      · exact ⟨[], rfl⟩

/-- Whether what the plain scan finds behind an opening quote has no quote escaped. -/
def ClosesUnescaped (q : Char) (cs : List Char) : Prop :=
  ∀ body, closeQuote false q cs = some body → hasEscaped q body = false

theorem ClosesUnescaped.doubled (hq : q ≠ '\\') (h : ClosesUnescaped q (q :: q :: cs)) :
    ClosesUnescaped q cs := by
  intro body hbody
  have hlonger := h (q :: q :: body) (by simp [closeQuote, hbody])
  rwa [hasEscaped_cons hq, hasEscaped_cons hq] at hlonger

theorem ClosesUnescaped.tail (hc : c ≠ q) (hslash : c ≠ '\\')
    (h : ClosesUnescaped q (c :: cs)) : ClosesUnescaped q cs := by
  intro body hbody
  have hlonger := h (c :: body) (by rw [closeQuote_plain_cons hc, hbody]; rfl)
  rwa [hasEscaped_cons hslash] at hlonger

/-- No quote stands behind the backslash: it would be found there escaped, since a quote closes
when nothing behind it does. -/
theorem ClosesUnescaped.escape (hq : q ≠ '\\') (h : ClosesUnescaped q ('\\' :: c :: cs)) :
    c ≠ q ∧ ClosesUnescaped q cs := by
  have hc : c ≠ q := by
    rintro rfl
    obtain ⟨body, hbody⟩ := exists_closeQuote false c cs
    have hnone := h ('\\' :: c :: body) (by rw [closeQuote_plain_cons hq.symm, hbody]; rfl)
    simp [hasEscaped] at hnone
  refine ⟨hc, fun body hbody => ?_⟩
  have hlonger := h ('\\' :: c :: body)
    (by rw [closeQuote_plain_cons hq.symm, closeQuote_plain_cons hc, hbody]; rfl)
  rw [hasEscaped, Bool.or_eq_false_iff] at hlonger
  exact hlonger.2

/-- Both settings close a quote alike where the plain one leaves no quote escaped. -/
theorem closeQuote_eq_of_unescaped (hq : q ≠ '\\') (h : ClosesUnescaped q cs) :
    closeQuote true q cs = closeQuote false q cs := by
  fun_induction closeQuote true q cs with
  | case1 => rfl
  | case2 => simp [closeQuote]
  | case3 c hc => simp [closeQuote, hc]
  | case4 cs found hfound ih => simp [closeQuote, ← ih (h.doubled hq), hfound]
  | case5 cs hfound ih => simp [closeQuote, ← ih (h.doubled hq), hfound]
  | case6 d cs hd => simp [closeQuote, hd]
  | case7 c d cs hc hescape ih =>
      obtain rfl : c = '\\' := by simpa using hescape
      obtain ⟨hd, hrest⟩ := h.escape hq
      rw [closeQuote_plain_cons hc, closeQuote_plain_cons hd, ih hrest, Option.map_map]
      rfl
  | case8 c d cs hc hplain ih =>
      have hslash : c ≠ '\\' := by simpa using hplain
      rw [closeQuote_plain_cons hc, ih (h.tail hc hslash)]

/-- **Both settings close a quote alike exactly where the plain one leaves no quote escaped.** -/
theorem closeQuote_eq_iff (hq : q ≠ '\\') :
    closeQuote true q cs = closeQuote false q cs ↔ ClosesUnescaped q cs := by
  refine ⟨fun heq body hbody => ?_, closeQuote_eq_of_unescaped hq⟩
  have hcloses := (closes_of_closeQuote (heq.trans hbody)).1
  exact hcloses.hasEscaped_eq_false hq (closes_of_closeQuote hbody).1

end Quotes

/-! ### The two scans -/

section Scans

variable {c : Char} {cs : List Char}

theorem escapesQuote_of_quote (h : c = '\x27' ∨ c = '"') (body : List Char) :
    (Segment.shielded (c :: body)).escapesQuote = hasEscaped c body := by
  rcases h with rfl | rfl <;> rfl

/-- Only quotes are affected. -/
theorem escapesQuote_of_opened? {escapes : Bool} {s : Segment} (h : ¬(c = '\x27' ∨ c = '"'))
    (hopened : opened? escapes c cs = some s) : s.escapesQuote = false := by
  have hfound := found_opened? escapes c cs
  rw [hopened] at hfound
  cases s with
  | ordinary d => rfl
  | placeholder percent => rfl
  | colon => rfl
  | shielded form =>
      obtain ⟨hform, hstarts⟩ := hfound
      obtain ⟨d, body, rfl⟩ := List.exists_cons_of_ne_nil hform.ne_nil
      obtain rfl : d = c := (List.cons_prefix_cons.mp hstarts).1
      simp [Segment.escapesQuote, not_or.mp h]

/-- Both scans find the same at a place exactly where the plain one finds no escaped quote. -/
theorem opened?_eq_iff : opened? true c cs = opened? false c cs ↔
    ∀ s, opened? false c cs = some s → s.escapesQuote = false := by
  by_cases hquote : c = '\x27' ∨ c = '"'
  · have hq : c ≠ '\\' := by rcases hquote with rfl | rfl <;> decide
    have hinj : Function.Injective (fun body => Segment.shielded (c :: body)) := by
      intro body body' h
      simpa using h
    rw [opened?_of_quote true hquote, opened?_of_quote false hquote,
      (Option.map_injective hinj).eq_iff, closeQuote_eq_iff hq]
    simp only [ClosesUnescaped, Option.map_eq_some_iff, forall_exists_index, and_imp,
      forall_apply_eq_imp_iff₂, escapesQuote_of_quote hquote]
  · have hnone : ¬(decide (c = '\x27') || decide (c = '"')) = true := by simpa using hquote
    refine iff_of_true ?_ fun s => escapesQuote_of_opened? hquote
    simp only [opened?, if_neg hnone]

/-- What a text starts with, other than an ordinary character, is found there. -/
theorem opened?_of_segmentsFrom {escapes : Bool} {s : Segment} {ss : List Segment}
    (h : segmentsFrom escapes 0 (c :: cs) = s :: ss) (hs : s ≠ .ordinary c) :
    opened? escapes c cs = some s := by
  rw [segmentsFrom] at h
  split at h
  · rename_i found hfound
    rw [hfound, (List.cons.inj h).1]
  · exact absurd (List.cons.inj h).1.symm hs

theorem segmentsFrom_eq_iff (skip : Nat) (cs : List Char) :
    segmentsFrom true skip cs = segmentsFrom false skip cs ↔
      ∀ s ∈ segmentsFrom false skip cs, s.escapesQuote = false := by
  induction cs generalizing skip with
  | nil => simp [segmentsFrom]
  | cons c cs ih =>
      cases skip with
      | succ skip => exact ih skip
      | zero =>
          by_cases hsame : opened? true c cs = opened? false c cs
          · have hfound := opened?_eq_iff.mp hsame
            rw [segmentsFrom, segmentsFrom, hsame]
            cases hplain : opened? false c cs with
            | none => simp [ih, Segment.escapesQuote]
            | some s => simp [ih, hfound s hplain]
          · obtain ⟨s, hplain, hs⟩ : ∃ s, opened? false c cs = some s ∧ s.escapesQuote = true := by
              simpa using mt opened?_eq_iff.mpr hsame
            have hcons : segmentsFrom false 0 (c :: cs) =
                s :: segmentsFrom false (s.chars.length - 1) cs := by
              rw [segmentsFrom, hplain]
            have hordinary : s ≠ .ordinary c := by
              rintro rfl
              cases hs
            refine iff_of_false (fun heq => hsame ?_) fun hall => ?_
            · rw [hplain]
              exact opened?_of_segmentsFrom (heq.trans hcons) hordinary
            · have hnone := hall s (by rw [hcons]; exact List.mem_cons_self)
              rw [hs] at hnone
              cases hnone

/--
**The scans with escapes and without them find the same segments exactly of the texts in which
no literal or name in double quotes has its quote escaped.**
-/
theorem segments_eq_iff : segments true cs = segments false cs ↔
    ∀ s ∈ segments false cs, s.escapesQuote = false :=
  segmentsFrom_eq_iff 0 cs

-- The quote behind the backslash closes the literal in the plain scan only.
example : segments true "'it\\'s ?'".toList ≠ segments false "'it\\'s ?'".toList := by decide

end Scans

/-! ### Binding -/

/-- Where no quote is escaped, escapes need not be honoured. -/
theorem bind_of_unescaped {sql : String}
    (h : ∀ s ∈ segments false sql.toList, s.escapesQuote = false) (arguments : List Value) :
    bind true sql arguments = bind false sql arguments := by
  unfold bind
  rw [segments_eq_iff.mpr h]

/--
**Without a backslash in the text both scans bind alike**: any arguments, given by place or by
name, yield the same text with the same binds and values, or the same error.
-/
theorem bind_without_backslash {sql : String} (h : '\\' ∉ sql.toList) (arguments : List Value) :
    bind true sql arguments = bind false sql arguments := by
  refine bind_of_unescaped (fun s hs => Segment.escapesQuote_of_not_mem fun hmem => h ?_) arguments
  -- The segments hold the characters of the text and no others.
  rw [← (scan_segments false sql.toList).flatMap_chars]
  exact List.mem_flatMap.mpr ⟨s, hs, hmem⟩

/-- A doubled quote, a comment and a quote that nothing closes: the last placeholder is one, as
the quote before it is ordinary. -/
theorem bind_without_backslash_unclosed :
    '\\' ∉ "SELECT 'it''s :x' /* ? */ WHERE id = ? AND name = 'a ?".toList ∧
      ∃ b, bind true "SELECT 'it''s :x' /* ? */ WHERE id = ? AND name = 'a ?"
          [.int 5, .int 7] = .ok b ∧
        bind false "SELECT 'it''s :x' /* ? */ WHERE id = ? AND name = 'a ?"
          [.int 5, .int 7] = .ok b ∧
        b.binds = [bindOf "p0" (.int 5), bindOf "p1" (.int 7)] := by
  have hplain : '\\' ∉ "SELECT 'it''s :x' /* ? */ WHERE id = ? AND name = 'a ?".toList := by
    decide
  obtain ⟨b, hbound, hbinds⟩ :
      ∃ b, bind false "SELECT 'it''s :x' /* ? */ WHERE id = ? AND name = 'a ?"
          [.int 5, .int 7] = .ok b ∧
        b.binds = [bindOf "p0" (.int 5), bindOf "p1" (.int 7)] := ⟨_, rfl, rfl⟩
  exact ⟨hplain, b, (bind_without_backslash hplain _).trans hbound, hbound, hbinds⟩

end RawSql

end TableQuery
