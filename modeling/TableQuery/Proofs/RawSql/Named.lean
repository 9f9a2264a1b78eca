/-
Named binds, and what is left alone around them.

With a single map as argument the text is hardly rewritten: only the colons in literals, quoted
names and comments are escaped, and what a reading of the whole then finds must come from
outside them.  `readApart` says what that is without saying how it is found: each stretch
between literals, quoted names and comments is read by itself, and these stand in between as
they are.  `partsFrom_namedTemplate` says that this is how the template is read, since every
one of them starts and ends with a character that cuts a reading in two, but for a line
comment, which ends where the line does.

`bind_named_faithful` follows such a statement from its text to what a driver gets.
-/
import TableQuery.Proofs.RawSql.Giving
import TableQuery.Proofs.RawSql.Scan
import TableQuery.Proofs.RawSql.Reading
import TableQuery.Proofs.Sql.Rendering
import TableQuery.Row

namespace TableQuery

namespace RawSql

/-! ### Stretches read apart -/

/-- The parts of segments when each stretch between literals, quoted names and comments is
read by itself; `stretch` is what has been passed of the present one. -/
def readApart (inName : Char → Bool) (retreats : Bool) (stretch : List Char) :
    List Segment → List Part
  | [] => partsFrom inName retreats none 0 stretch
  | .shielded cs :: ss =>
    partsFrom inName retreats none 0 stretch ++ cs.map .char ++ readApart inName retreats [] ss
  | s :: ss => readApart inName retreats (stretch ++ s.chars) ss

/-- The names of binds outside literals, quoted names and comments. -/
def outsideNames (ss : List Segment) : List String := bindNames (readApart isWord true [] ss)

/-- What a statement is written as outside and inside them. -/
def writtenApart (ss : List Segment) : List Part := readApart isNameChar false [] ss

/-! ### Literals, quoted names and comments -/

/-- The characters that literals, quoted names, comments and placeholders start with, and
literals, quoted names and block comments end with. -/
def delimiters : List Char := ['\x27', '"', '\x60', '-', '/', '?', '%']

theorem NameClass.delimiter {inName : Char → Bool} (hclass : NameClass inName) {c : Char}
    (h : c ∈ delimiters ∨ c = '\n') : blocksBind inName c = false := by
  have hplain : ('\n' :: delimiters).all
      (fun d => !isWord d && d != '$' && d != ':' && d != '\\') = true := by decide
  obtain ⟨⟨⟨hword, hdollar⟩, hcolon⟩, hslash⟩ : ((isWord c = false ∧ c ≠ '$') ∧ c ≠ ':') ∧
      c ≠ '\\' := by
    simpa using List.all_eq_true.mp hplain c (List.mem_cons.mpr h.symm)
  refine blocksBind_eq_false_iff.mpr ⟨Bool.eq_false_iff.mpr fun hname => ?_, hcolon, hslash⟩
  rcases hclass.only c hname with hc | hc
  · exact absurd hc (Bool.eq_false_iff.mp hword)
  · exact hdollar hc

theorem Closes.exists_append {escapes : Bool} {q : Char} {body : List Char}
    (h : Closes escapes q body) : ∃ front, body = front ++ [q] := by
  induction h with
  | quote => exact ⟨[], rfl⟩
  | @doubled body h ih =>
      obtain ⟨front, rfl⟩ := ih
      exact ⟨q :: q :: front, rfl⟩
  | escaped honoured c h ih =>
      obtain ⟨front, rfl⟩ := ih
      exact ⟨'\\' :: c :: front, rfl⟩
  | @char c body hq plain h ih =>
      obtain ⟨front, rfl⟩ := ih
      exact ⟨c :: front, rfl⟩

/-- A closed form starts with a delimiter, and ends with one or is a line comment. -/
theorem Shield.delimited {escapes : Bool} {cs : List Char} (h : Shield escapes cs) :
    ∃ c body, cs = c :: body ∧ c ∈ delimiters ∧
      ((∃ front d, body = front ++ [d] ∧ d ∈ delimiters) ∨
        ∃ text, body = '-' :: text ∧ c = '-' ∧ '\n' ∉ text) := by
  cases h with
  | literal hcloses =>
      obtain ⟨front, rfl⟩ := hcloses.exists_append
      exact ⟨_, _, rfl, by decide, Or.inl ⟨front, _, rfl, by decide⟩⟩
  | name hcloses =>
      obtain ⟨front, rfl⟩ := hcloses.exists_append
      exact ⟨_, _, rfl, by decide, Or.inl ⟨front, _, rfl, by decide⟩⟩
  | @backquoted body hbody =>
      exact ⟨_, _, rfl, by decide, Or.inl ⟨body, _, rfl, by decide⟩⟩
  | line hbody => exact ⟨_, _, rfl, by decide, Or.inr ⟨_, rfl, rfl, hbody⟩⟩
  | @block body hbody =>
      exact ⟨_, _, rfl, by decide, Or.inl ⟨'*' :: (body ++ ['*']), '/', by simp, by decide⟩⟩

/-- A line comment goes on to the end of its line. -/
theorem head?_of_line {escapes : Bool} {text rest : List Char} (hline : '\n' ∉ text)
    (longest : ∀ cs, Shield escapes cs → cs <+: '-' :: '-' :: text ++ rest →
      cs.length ≤ ('-' :: '-' :: text).length) :
    ∀ c, rest.head? = some c → c = '\n' := by
  intro c hc
  obtain ⟨rest, rfl⟩ := List.head?_eq_some_iff.mp hc
  refine Decidable.of_not_not fun hne => ?_
  have hlonger : Shield escapes ('-' :: '-' :: (text ++ [c])) := by
    refine .line fun hmem => ?_
    rcases List.mem_append.mp hmem with hmem | hmem
    · exact hline hmem
    · exact hne (List.mem_singleton.mp hmem).symm
  have hle := longest _ hlonger (by simp)
  simp only [List.length_cons, List.length_append, List.length_nil] at hle
  omega

/-- The template starts a line where the text does. -/
theorem head?_namedTemplate {escapes : Bool} {cs : List Char} {ss : List Segment}
    (hscan : Scan escapes cs ss) (h : ∀ c, cs.head? = some c → c = '\n') :
    ∀ c, (namedTemplate ss).head? = some c → c = '\n' := by
  intro c hc
  cases hscan with
  | nil => simp [namedTemplate] at hc
  | shielded hshield longest hrest =>
      obtain ⟨d, body, rfl, hd, -⟩ := hshield.delimited
      rw [h d rfl] at hd
      exact absurd hd (by decide)
  | question hrest => exact absurd (h '?' rfl) (by decide)
  | percent hrest => exact absurd (h '%' rfl) (by decide)
  | colon hrest => exact absurd (h ':' rfl) (by decide)
  | ordinary question colon percent unshielded hrest =>
      exact h c hc

section Reading

variable {inName : Char → Bool} {retreats : Bool} (hclass : NameClass inName)
include hclass

/-- Of a closed form nothing is read but its characters. -/
theorem partsFrom_shield {escapes : Bool} {cs rest : List Char} (h : Shield escapes cs)
    (hrest : ∀ text, cs = '-' :: '-' :: text → ∀ c, rest.head? = some c → c = '\n')
    (stretch : List Char) :
    partsFrom inName retreats none 0 (stretch ++ (escapeColons cs ++ rest)) =
      partsFrom inName retreats none 0 stretch ++ cs.map .char ++
        partsFrom inName retreats none 0 rest := by
  obtain ⟨c, body, rfl, hc, hend⟩ := h.delimited
  have hplain := hclass.delimiter (Or.inl hc)
  have hcut : partsFrom inName retreats none 0 (stretch ++ (escapeColons (c :: body) ++ rest)) =
      partsFrom inName retreats none 0 stretch ++
        .char c :: partsFrom inName retreats none 0 (escapeColons body ++ rest) := by
    rw [escapeColons_cons, if_neg (blocksBind_eq_false_iff.mp hplain).2.1]
    exact partsFrom_separated hplain (Nat.zero_le _) _
  have hbody : partsFrom inName retreats none 0 (escapeColons body ++ rest) =
      body.map .char ++ partsFrom inName retreats none 0 rest := by
    rcases hend with ⟨front, d, rfl, hd⟩ | ⟨text, rfl, rfl, -⟩
    · have hdelimiter := hclass.delimiter (Or.inl hd)
      obtain ⟨-, hcolon, hslash⟩ := blocksBind_eq_false_iff.mp hdelimiter
      have hlast : escapeColons (front ++ [d]) ++ rest = escapeColons front ++ d :: rest := by
        simp [escapeColons, hcolon]
      rw [hlast, partsFrom_escapeColons hclass (by simpa using hdelimiter),
        partsFrom_char hcolon fun hescapes => hslash hescapes.1,
        partsFrom_congr (show (some d).any _ = Option.any _ none from hdelimiter)]
      simp
    · have hnext : ∀ c, rest.head? = some c → c = '\n' := hrest text rfl
      rw [partsFrom_escapeColons hclass fun c hc => hclass.delimiter (Or.inr (hnext c hc))]
      -- What stands before a line end does not matter for it.
      cases rest with
      | nil => rfl
      | cons c rest =>
          obtain rfl := hnext c rfl
          rw [partsFrom_char (by decide) (by simp [Escapes]),
            partsFrom_char (by decide) (by simp [Escapes])]
  rw [hcut, hbody, List.map_cons, List.append_assoc, List.cons_append]

/-- **The template is read stretch by stretch.** -/
theorem partsFrom_namedTemplate {escapes : Bool} {cs : List Char} {ss : List Segment}
    (hscan : Scan escapes cs ss) (stretch : List Char) :
    partsFrom inName retreats none 0 (stretch ++ namedTemplate ss) =
      readApart inName retreats stretch ss := by
  induction hscan generalizing stretch with
  | nil => rw [namedTemplate, List.append_nil, readApart]
  | @shielded cs rest ss h longest hrest ih =>
      have hline : ∀ text, cs = '-' :: '-' :: text →
          ∀ c, (namedTemplate ss).head? = some c → c = '\n' := by
        rintro text rfl
        have hnewline : '\n' ∉ text := by
          cases h with
          | line hbody => exact hbody
        exact head?_namedTemplate hrest (head?_of_line hnewline longest)
      rw [namedTemplate, partsFrom_shield hclass h hline, readApart]
      exact congrArg _ (ih [])
  | question hrest ih => exact (congrArg _ (List.append_assoc ..).symm).trans (ih _)
  | percent hrest ih => exact (congrArg _ (List.append_assoc ..).symm).trans (ih _)
  | colon hrest ih => exact (congrArg _ (List.append_assoc ..).symm).trans (ih _)
  | ordinary question colon percent unshielded hrest ih =>
      exact (congrArg _ (List.append_assoc ..).symm).trans (ih _)

end Reading

/-! ### What is left as it is -/

/-- Whether a segment is left as it is: a literal, a quoted name, a comment or a placeholder. -/
def Segment.IsKept : Segment → Prop
  | .shielded _ | .placeholder _ => True
  | _ => False

section Keeping

variable {inName : Char → Bool} {retreats : Bool}

theorem readApart_separated (retreats : Bool) {c : Char} (hc : blocksBind inName c = false)
    (stretch more : List Char) (ss : List Segment) :
    readApart inName retreats (stretch ++ c :: more) ss =
      partsFrom inName retreats none 0 stretch ++ .char c :: readApart inName retreats more ss := by
  have hcut : ∀ more, partsFrom inName retreats none 0 (stretch ++ c :: more) =
      partsFrom inName retreats none 0 stretch ++
        .char c :: partsFrom inName retreats none 0 more :=
    partsFrom_separated hc (Nat.zero_le _)
  induction ss generalizing more with
  | nil => exact hcut more
  | cons s ss ih =>
      cases s with
      | shielded cs =>
          rw [readApart, readApart, hcut]
          simp only [List.append_assoc, List.cons_append]
      | ordinary c => simpa [readApart, Segment.chars] using ih (more ++ [c])
      | placeholder p => simpa [readApart] using ih (more ++ (Segment.placeholder p).chars)
      | colon => simpa [readApart, Segment.chars] using ih (more ++ [':'])

/-- A character that starts a stretch and is neither a colon nor a backslash is itself. -/
theorem readApart_char {c : Char} (hcolon : c ≠ ':') (hslash : c ≠ '\\') (more : List Char)
    (ss : List Segment) : ∃ rest, readApart inName retreats (c :: more) ss = .char c :: rest := by
  have hchar : ∀ more, partsFrom inName retreats none 0 (c :: more) =
      .char c :: partsFrom inName retreats (some c) 0 more :=
    fun more => partsFrom_char hcolon fun h => hslash h.1
  induction ss generalizing more with
  | nil => exact ⟨_, hchar more⟩
  | cons s ss ih =>
      cases s with
      | shielded cs =>
          rw [readApart, hchar]
          exact ⟨_, rfl⟩
      | ordinary c => exact ih (more ++ [c])
      | placeholder p => exact ih (more ++ (Segment.placeholder p).chars)
      | colon => exact ih (more ++ [':'])

/-- What is left as it is stands behind what is before it, whatever comes after. -/
theorem readApart_kept (hclass : NameClass inName) {s : Segment} (hs : s.IsKept)
    (before after : List Segment) (stretch : List Char) :
    ∃ rest, readApart inName retreats stretch (before ++ s :: after) =
      readApart inName retreats stretch before ++ s.chars.map .char ++ rest := by
  induction before generalizing stretch with
  | nil =>
      cases s with
      | ordinary c => exact hs.elim
      | colon => exact hs.elim
      | shielded cs => exact ⟨readApart inName retreats [] after, rfl⟩
      | placeholder percent =>
          cases percent with
          | false =>
              refine ⟨readApart inName retreats [] after, ?_⟩
              have hcut := readApart_separated retreats
                (hclass.delimiter (c := '?') (Or.inl (by decide))) stretch [] after
              simpa [readApart, Segment.chars] using hcut
          | true =>
              obtain ⟨rest, hrest⟩ : ∃ rest,
                  readApart inName retreats ['s'] after = .char 's' :: rest :=
                readApart_char (by decide) (by decide) [] after
              refine ⟨rest, ?_⟩
              have hcut := readApart_separated retreats
                (hclass.delimiter (c := '%') (Or.inl (by decide))) stretch ['s'] after
              rw [hrest] at hcut
              simpa [readApart, Segment.chars] using hcut
  | cons b before ih =>
      cases b with
      | shielded cs =>
          obtain ⟨rest, hrest⟩ := ih []
          refine ⟨rest, ?_⟩
          rw [List.cons_append, readApart, readApart, hrest]
          simp only [List.append_assoc]
      | ordinary c => exact ih (stretch ++ [c])
      | placeholder p => exact ih (stretch ++ (Segment.placeholder p).chars)
      | colon => exact ih (stretch ++ [':'])

end Keeping

/-- What parts are written as when the names have values: characters are written as they are,
and a bind as the value of its name is. -/
inductive Spelled (d : Dialect) (value : String → Value) : List Part → String → Prop where
  | nil : Spelled d value [] ""
  | char (c : Char) {ps : List Part} {text : String} (h : Spelled d value ps text) :
      Spelled d value (.char c :: ps) (String.ofList [c] ++ text)
  | bind {name : List Char} {mark : String}
      (hmark : Sql.Writes d (bindOf (String.ofList name) (value (String.ofList name))).pieces mark)
      {ps : List Part} {text : String} (h : Spelled d value ps text) :
      Spelled d value (.bind name :: ps) (mark ++ text)

section Spelling

variable {d : Dialect} {value : String → Value}

theorem Spelled.append {ps qs : List Part} {text : String} (h : Spelled d value (ps ++ qs) text) :
    ∃ left right, text = left ++ right ∧ Spelled d value ps left ∧ Spelled d value qs right := by
  induction ps generalizing text with
  | nil => exact ⟨"", text, by simp, .nil, h⟩
  | cons p ps ih =>
      cases h with
      | char c h =>
          obtain ⟨left, right, rfl, hps, hqs⟩ := ih h
          exact ⟨_, right, (String.append_assoc ..).symm, .char c hps, hqs⟩
      | bind hmark h =>
          obtain ⟨left, right, rfl, hps, hqs⟩ := ih h
          exact ⟨_, right, (String.append_assoc ..).symm, .bind hmark hps, hqs⟩

theorem Spelled.chars {cs : List Char} {text : String} (h : Spelled d value (cs.map .char) text) :
    text = String.ofList cs := by
  induction cs generalizing text with
  | nil =>
      cases h
      rfl
  | cons c cs ih =>
      cases h with
      | char c h => rw [ih h, ← String.ofList_append, List.singleton_append]

/-- Where every bind has the value of its name, parts are written so. -/
theorem spelled_of_writes {binds : List Bind}
    (hbinds : ∀ b ∈ binds, b = bindOf b.name (value b.name))
    {ps : List Part} {text : String} (h : Sql.Writes d (ps.flatMap (Part.pieces binds)) text) :
    Spelled d value ps text := by
  induction ps generalizing text with
  | nil =>
      rw [Sql.Writes.nil h]
      exact .nil
  | cons p ps ih =>
      rw [List.flatMap_cons] at h
      cases p with
      | char c =>
          obtain ⟨rest, rfl, hrest⟩ := Sql.Writes.text_cons h
          exact .char c (ih hrest)
      | bind name =>
          obtain ⟨mark, rest, rfl, hmark, hrest⟩ := Sql.Writes.append h
          refine .bind ?_ (ih hrest)
          rw [Part.pieces] at hmark
          cases hfound : binds.find? (fun b => b.name == String.ofList name) with
          | none =>
              rw [hfound] at hmark
              exact (Sql.not_writes_missing _ _ hmark).elim
          | some b =>
              rw [hfound] at hmark
              have hname : b.name = String.ofList name := by simpa using List.find?_some hfound
              rwa [hbinds b (List.mem_of_find?_eq_some hfound), hname] at hmark

end Spelling

/-! ### Binding by name -/

theorem bind_ne_nil {inName : Char → Bool} {retreats : Bool} {previous : Option Char} {skip : Nat}
    {cs name : List Char} (h : .bind name ∈ partsFrom inName retreats previous skip cs) :
    name ≠ [] := by
  induction cs generalizing previous skip with
  | nil => simp [partsFrom] at h
  | cons c cs ih =>
      cases skip with
      | succ skip => exact ih h
      | zero =>
          rw [partsFrom.eq_def] at h
          dsimp only at h
          split at h
          · split at h
            · rcases List.mem_cons.mp h with heq | h
              · cases heq
                simp
              · exact ih h
            · exact ih (by simpa using h)
          · split at h
            · split at h
              · split at h
                · exact ih h
                · exact ih (by simpa using h)
              · exact ih (by simpa using h)
            · exact ih (by simpa using h)

theorem outsideNames_eq {escapes : Bool} {cs : List Char} {ss : List Segment}
    (hscan : Scan escapes cs ss) : bindNames (parts (namedTemplate ss)) = outsideNames ss :=
  congrArg bindNames (partsFrom_namedTemplate nameClass_isWord hscan [])

-- A name that a colon follows is defined without its last character.
example :
    bindNames (parts (namedTemplate (segments false "SELECT :foo::int".toList))) = ["fo"] := by
  decide

theorem ne_empty_of_mem_outsideNames {escapes : Bool} {cs : List Char} {ss : List Segment}
    (hscan : Scan escapes cs ss) {name : String} (h : name ∈ outsideNames ss) : name ≠ "" := by
  rw [← outsideNames_eq hscan, bindNames, mem_distinct] at h
  obtain ⟨p, hp, hname⟩ := List.mem_filterMap.mp h
  cases p with
  | char c => cases hname
  | bind cs =>
      rintro rfl
      have hnil := congrArg String.toList (Option.some.inj hname)
      rw [String.toList_ofList] at hnil
      exact bind_ne_nil hp hnil

theorem keyName?_of_ne_empty {name : String} (h : name ≠ "") :
    keyName? (.text name) = some name := by
  rw [keyName?, if_neg h]

/-- A map of names gives each name its own value. -/
theorem given?_entries {es : List (String × Value)} (hnodup : (es.map Prod.fst).Nodup)
    (hne : ∀ e ∈ es, e.1 ≠ "") (name : String) :
    given? name (es.map (fun e => (.text e.1, e.2))) =
      (es.find? (fun e => e.1 == name)).map Prod.snd := by
  induction es with
  | nil => rfl
  | cons e es ih =>
      obtain ⟨hmem, hrest⟩ := List.nodup_cons.mp hnodup
      rw [List.map_cons, given?, ih hrest fun e' he' => hne e' (List.mem_cons_of_mem e he'),
        keyName?_of_ne_empty (hne e List.mem_cons_self)]
      by_cases hname : e.1 = name
      · have hnone : es.find? (fun e' => e'.1 == name) = none := by
          rw [List.find?_eq_none]
          intro e' he' heq
          exact hmem (List.mem_map.mpr ⟨e', he', (eq_of_beq heq).trans hname.symm⟩)
        rw [hnone, if_pos (congrArg some hname), List.find?_cons_of_pos (by simpa using hname)]
        rfl
      · rw [if_neg (mt Option.some.inj hname), Option.or_none,
          List.find?_cons_of_neg (by simpa using hname)]

theorem bind_map {escapes : Bool} {sql : String} {ss : List Segment}
    (hscan : Scan escapes sql.toList ss) (entries : List (Value × Value)) :
    bind escapes sql [.map entries] = bindTemplate (namedTemplate ss) entries := by
  rw [bind, ← scan_iff.mp hscan]

/-- A map whose keys are the names outside binds each of them. -/
theorem bind_row {escapes : Bool} {sql : String} {ss : List Segment}
    (hscan : Scan escapes sql.toList ss) {r : Row}
    (hnames : ∀ name, name ∈ r.names ↔ name ∈ outsideNames ss) :
    bind escapes sql [r.toValue] =
      .ok ⟨namedTemplate ss, (outsideNames ss).map (fun name => bindOf name (r.get name))⟩ := by
  have hne : ∀ e ∈ r.entries, e.1 ≠ "" := by
    intro e he
    exact ne_empty_of_mem_outsideNames hscan ((hnames _).mp (List.mem_map_of_mem he))
  have hknown : ∀ e ∈ r.entries.map (fun e => (Value.text e.1, e.2)),
      Known (bindNames (parts (namedTemplate ss))) e.1 := by
    intro e he
    obtain ⟨named, hnamed, rfl⟩ := List.mem_map.mp he
    rw [outsideNames_eq hscan]
    exact ⟨named.1, keyName?_of_ne_empty (hne named hnamed),
      (hnames _).mp (List.mem_map_of_mem hnamed)⟩
  rw [Row.toValue, bind_map hscan, bindTemplate_of_known hknown, openBinds, outsideNames_eq hscan,
    List.map_map]
  refine congrArg (fun bs => Except.ok (Bound.mk (namedTemplate ss) bs)) ?_
  refine List.map_congr_left fun name hname => ?_
  have hgiven := given?_entries r.names_nodup hne name
  obtain ⟨e, he, hkey⟩ := List.mem_map.mp ((hnames name).mpr hname)
  show (given? name _).elim _ (bindOf name) = bindOf name (r.get name)
  rw [hgiven, Row.get, Row.get?]
  cases hfound : r.entries.find? (fun e => e.1 == name) with
  | none =>
      rw [List.find?_eq_none] at hfound
      exact absurd (by simpa using hkey) (hfound e he)
  | some found => rfl

/-- A key that is none of the names is reported, the first such. -/
theorem bind_of_unknown {escapes : Bool} {sql : String} {ss : List Segment}
    (hscan : Scan escapes sql.toList ss) {entries : List (Value × Value)}
    (h : ∃ e ∈ entries, ¬Known (outsideNames ss) e.1) :
    ∃ before key v after, entries = before ++ (key, v) :: after ∧
      (∀ e ∈ before, Known (outsideNames ss) e.1) ∧ ¬Known (outsideNames ss) key ∧
      bind escapes sql [.map entries] = .error (.unknownBind (reported key)) := by
  obtain ⟨before, ⟨key, v⟩, after, rfl, hbefore, hkey⟩ : ∃ before e after,
      entries = before ++ e :: after ∧ (∀ e' ∈ before, Known (outsideNames ss) e'.1) ∧
        ¬Known (outsideNames ss) e.1 := by
    induction entries with
    | nil => simp at h
    | cons e entries ih =>
        by_cases he : Known (outsideNames ss) e.1
        · obtain ⟨e', he', hunknown⟩ := h
          rcases List.mem_cons.mp he' with rfl | he'
          · exact absurd he hunknown
          · obtain ⟨before, first, after, rfl, hbefore, hfirst⟩ := ih ⟨e', he', hunknown⟩
            exact ⟨e :: before, first, after, rfl, List.forall_mem_cons.mpr ⟨he, hbefore⟩, hfirst⟩
        · exact ⟨[], e, entries, rfl, by simp, he⟩
  refine ⟨before, key, v, after, rfl, hbefore, hkey, ?_⟩
  rw [← outsideNames_eq hscan] at hbefore hkey
  rw [bind_map hscan, bindTemplate_of_unknown hbefore hkey]

/--
**Binding by name leaves literals and comments alone.**

For a map whose keys are the names of binds that stand outside literals, quoted names and
comments, binding succeeds: the statement has exactly these names, each bound to its value in
the map.  Wherever it can be rendered, its stretches between literals, quoted names and
comments are written as each reads by itself, with every bind as its value is written; and
every literal, quoted name, comment and placeholder stands in the text character for
character, behind what is written for the text before it.  A map with a key that names none
of these binds is refused.
-/
theorem bind_named_faithful {escapes : Bool} {sql : String} {ss : List Segment}
    (hscan : Scan escapes sql.toList ss) :
    (∀ r : Row, (∀ name, name ∈ r.names ↔ name ∈ outsideNames ss) →
      ∃ b, bind escapes sql [r.toValue] = .ok b ∧
        bindNames (parts b.text) = outsideNames ss ∧
        b.defined = (outsideNames ss).map (fun name => bindOf name (r.get name)) ∧
        ∀ d rendered, Sql.render d b.pieces = .ok rendered →
          Spelled d r.get (writtenApart ss) rendered.sql ∧
          ∀ before s after, ss = before ++ s :: after → s.IsKept →
            ∃ left right, rendered.sql = left ++ String.ofList s.chars ++ right ∧
              Spelled d r.get (writtenApart before) left) ∧
    (∀ entries, (∃ e ∈ entries, ¬Known (outsideNames ss) e.1) →
      ∃ before key v after, entries = before ++ (key, v) :: after ∧
        (∀ e ∈ before, Known (outsideNames ss) e.1) ∧ ¬Known (outsideNames ss) key ∧
        bind escapes sql [.map entries] = .error (.unknownBind (reported key))) := by
  refine ⟨fun r hnames => ?_, fun entries h => bind_of_unknown hscan h⟩
  refine ⟨_, bind_row hscan hnames, outsideNames_eq hscan, rfl, fun d rendered hrender => ?_⟩
  have hwrites := Sql.writes_of_render hrender
  have hparts : writtenParts (namedTemplate ss) = writtenApart ss :=
    partsFrom_namedTemplate nameClass_isNameChar hscan []
  have hspelled : Spelled d r.get (writtenApart ss) rendered.sql := by
    rw [Bound.pieces, hparts] at hwrites
    refine spelled_of_writes (fun b hb => ?_) hwrites
    obtain ⟨name, -, rfl⟩ := List.mem_map.mp hb
    rw [bindOf_name]
  refine ⟨hspelled, fun before s after hsplit hs => ?_⟩
  obtain ⟨rest, hrest⟩ := readApart_kept nameClass_isNameChar hs before after []
  rw [writtenApart, hsplit, hrest, List.append_assoc] at hspelled
  obtain ⟨left, tail, htext, hleft, htail⟩ := hspelled.append
  obtain ⟨middle, right, rfl, hmiddle, -⟩ := htail.append
  exact ⟨left, right, by rw [htext, hmiddle.chars, String.append_assoc], hleft⟩

/-- A name in a literal or a comment is none: it is not asked for, and refused when given. -/
theorem bind_named_faithful_comment :
    (∃ b, bind false "SELECT ':a ?' FROM t WHERE x = :y -- %s :z" [.map [(.text "y", .int 1)]] =
        .ok b ∧ b.defined = [bindOf "y" (.int 1)]) ∧
      bind false "SELECT ':a ?' FROM t WHERE x = :y -- %s :z" [.map [(.text "z", .int 1)]] =
        .error (.unknownBind (.text "z")) := by
  have hscan := scan_segments false "SELECT ':a ?' FROM t WHERE x = :y -- %s :z".toList
  have hnames : outsideNames (segments false
      "SELECT ':a ?' FROM t WHERE x = :y -- %s :z".toList) = ["y"] := by decide +kernel
  obtain ⟨hbound, hrefused⟩ := bind_named_faithful hscan
  rw [hnames] at hbound hrefused
  have hz : ¬Known ["y"] (.text "z") := by simp [Known, keyName?]
  refine ⟨?_, ?_⟩
  · obtain ⟨b, hb, -, hbinds, -⟩ := hbound ⟨[("y", .int 1)], by simp⟩ (by simp [Row.names])
    exact ⟨b, hb, hbinds⟩
  · obtain ⟨before, key, v, after, hentries, hbefore, -, herror⟩ :=
      hrefused [(.text "z", .int 1)] ⟨_, List.mem_singleton_self _, hz⟩
    obtain rfl : before = [] := by
      cases before with
      | nil => rfl
      | cons e before => simp at hentries
    obtain ⟨⟨rfl, -⟩, -⟩ : (Value.text "z" = key ∧ Value.int 1 = v) ∧ [] = after := by
      simpa using hentries
    exact herror

/-- An empty key binds the name `param`, which is not itself. -/
theorem bind_named_faithful_empty_key :
    "" ∉ outsideNames (segments false "SELECT :param".toList) ∧
      ∃ b, bind false "SELECT :param" [.map [(.text "", .int 1)]] = .ok b :=
  ⟨by decide +kernel, _, rfl⟩

end RawSql

end TableQuery
