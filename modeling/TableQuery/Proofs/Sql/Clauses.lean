/-
Statements put together from clauses.

Preparing passes a state from left to right, so the clauses of a statement are not prepared
one by one: a clause is placed with the names that those before it leave, and its lists avoid
the names of the whole.  `Naming.after` is the first part of the state, and
`place_append_eq` says with it what placing two clauses comes to, failures included.  What
is written the same whatever stands around it can be taken off at either end
(`stretches_alone_append`, `stretches_append_alone`).

Fixed pieces are placed one by one, and all that they leave behind are the names that they have
of their own (`place_fixed`).  Words have none, so a statement that starts with words is the
rest of it with their text in front, and fails as the rest does (`prepareAfter_words_append`).
-/
import TableQuery.Proofs.Sql.Writing

namespace TableQuery

namespace Sql

variable {d : Dialect}

/-! ### Placing -/

/-- **Two clauses are placed one after the other**, and fail as the first that fails. -/
theorem place_append_eq (n : Naming) (ps qs : List Piece) :
    place d n (ps ++ qs) =
      (place d n ps).bind (fun xs => (place d (n.after ps) qs).map (xs ++ ·)) := by
  induction ps generalizing n with
  | nil =>
      simp only [List.nil_append, place, Naming.after, Except.bind]
      cases place d n qs <;> rfl
  | cons p ps ih =>
      -- Every kind of piece adds one part in front of what the rest is placed as.
      have step : ∀ (m : Naming) (x : Placed),
          (place d m (ps ++ qs)).map (x :: ·) =
            ((place d m ps).map (x :: ·)).bind
              (fun xs => (place d (m.after ps) qs).map (xs ++ ·)) := by
        intro m x
        rw [ih]
        cases place d m ps with
        | error e => rfl
        | ok xs => cases place d (m.after ps) qs <;> rfl
      cases p with
      | text s => exact step n (.text s)
      | missing slot => exact step n (.missing slot.name)
      | name s =>
          simp only [List.cons_append, place, Naming.after]
          cases writeName d s with
          | error e => rfl
          | ok w => exact step n (.text w)
      | value slot v =>
          simp only [List.cons_append, place, Naming.after]
          cases hslot : slot.placeholder n with
          | error e => rfl
          | ok w =>
              rw [← (bindName_of_placeholder hslot).2]
              exact step w.2 (.value ⟨w.1, slot.type, v⟩)
      | members slot use vs =>
          simp only [List.cons_append, place, Naming.after]
          cases hslot : slot.placeholder n with
          | error e => rfl
          | ok w =>
              rw [← (bindName_of_placeholder hslot).2]
              exact step w.2 (.members w.1 slot.type use vs)

/-- Counting names gives no place a name of its own. -/
theorem own_after {n : Naming} {ps : List Piece} (hps : ∀ p ∈ ps, p.IsCounted) :
    (n.after ps).own = n.own := by
  induction ps generalizing n with
  | nil => rfl
  | cons p ps ih =>
      have htail := fun (m : Naming) => ih (n := m) (fun q hq => hps q (List.mem_cons_of_mem p hq))
      have hslot : ∀ (slot : Slot), slot.counted = true →
          ((slot.bindName n).2.after ps).own = n.own := by
        intro slot hcounted
        rw [htail, Slot.bindName, if_pos hcounted]
        exact Naming.own_next n _
      cases p with
      | text s | name s | missing slot => exact htail n
      | value slot v | members slot use vs => exact hslot slot (hps _ List.mem_cons_self)

/-! ### Parts that are written alone -/

/-- Whether a part is written the same whatever stands around it. -/
def Placed.IsAlone : Placed → Prop
  | .text _ | .value _ => True
  | .members _ _ _ _ | .spread _ _ _ | .missing _ => False

/-- What such a part is written as. -/
def Placed.alone (d : Dialect) : Placed → Rendered
  | .text s => ⟨s, []⟩
  | .value p => ⟨mark d p.name, [p]⟩
  | .members _ _ _ _ | .spread _ _ _ | .missing _ => ⟨"", []⟩

theorem stretches_alone_append (taken : List String) (written : List (String × Rendered))
    {xs : List Placed} (hxs : ∀ x ∈ xs, x.IsAlone) (ys : List Placed) :
    stretches d taken written (xs ++ ys) =
      (stretches d taken written ys).map (xs.map (Placed.alone d) ++ ·) := by
  induction xs with
  | nil =>
      simp only [List.nil_append, List.map_nil]
      cases stretches d taken written ys <;> rfl
  | cons x xs ih =>
      have htail := ih fun y hy => hxs y (List.mem_cons_of_mem x hy)
      cases x with
      | text s | value p =>
          rw [List.cons_append, stretches, htail, map_map]
          rfl
      | members name type use vs | spread name type vs | missing name =>
          exact (hxs _ List.mem_cons_self).elim

theorem stretches_append_alone (taken : List String) (written : List (String × Rendered))
    (xs : List Placed) {ys : List Placed} (hys : ∀ y ∈ ys, y.IsAlone) :
    stretches d taken written (xs ++ ys) =
      (stretches d taken written xs).map (· ++ ys.map (Placed.alone d)) := by
  induction xs generalizing written with
  | nil =>
      have hall := stretches_alone_append (d := d) taken written hys []
      rw [List.append_nil] at hall
      rw [List.nil_append, hall, stretches]
      simp [Except.map]
  | cons x xs ih =>
      have step : ∀ (w : List (String × Rendered)) (r : Rendered),
          (stretches d taken w (xs ++ ys)).map (r :: ·) =
            ((stretches d taken w xs).map (r :: ·)).map (· ++ ys.map (Placed.alone d)) := by
        intro w r
        rw [ih, map_map, map_map]
        rfl
      cases x with
      | text s | value p =>
          rw [List.cons_append, stretches, stretches]
          exact step _ _
      | missing name =>
          rw [List.cons_append, stretches, stretches]
          rfl
      | spread name type vs =>
          rw [List.cons_append, stretches, stretches]
          cases Members.ofList type vs with
          | error e => rfl
          | ok m => exact step _ _
      | members name type use vs =>
          rw [List.cons_append, stretches, stretches]
          cases written.lookup name with
          | some r => exact step _ _
          | none =>
              dsimp only
              split
              · rfl
              · exact step _ _

theorem firstMissing_append (xs ys : List Placed) :
    firstMissing (xs ++ ys) = (firstMissing xs).or (firstMissing ys) := by
  induction xs with
  | nil => rfl
  | cons x xs ih =>
      cases x with
      | missing name => rfl
      | text s | value p | members name type use vs | spread name type vs =>
          simpa [firstMissing] using ih

theorem firstMissing_of_isAlone {xs : List Placed} (hxs : ∀ x ∈ xs, x.IsAlone) :
    firstMissing xs = none := by
  refine firstMissing_of_plain fun x hx => ?_
  have halone := hxs x hx
  cases x with
  | text s | value p => trivial
  | members name type use vs | spread name type vs | missing name => exact halone.elim

/-! ### Values -/

/-- The values of two clauses are stored one after the other, and fail as the first that
fails. -/
theorem storedAll_append (ps qs : List Parameter) :
    storedAll d (ps ++ qs) =
      (storedAll d ps).bind (fun vs => (storedAll d qs).map (vs ++ ·)) := by
  unfold storedAll
  induction ps with
  | nil =>
      simp only [List.nil_append, collect, Except.bind]
      cases collect (Parameter.stored d) qs <;> rfl
  | cons p ps ih =>
      rw [List.cons_append, collect, collect]
      cases Parameter.stored d p with
      | error e => rfl
      | ok v =>
          simp only [ih]
          cases collect (Parameter.stored d) ps with
          | error e => rfl
          | ok vs => cases collect (Parameter.stored d) qs <;> rfl

/-- What is prepared as one execution has one row. -/
theorem single_of_prepareAfter {n : Naming} {ps : List Piece} {p : Prepared}
    (h : prepareAfter d n ps = .ok p) : ∃ sql vs, p = ⟨sql, [vs], false⟩ := by
  obtain ⟨r, vs, -, -, rfl⟩ := prepareAfter_eq_ok.mp h
  exact ⟨r.sql, vs, rfl⟩

/-! ### Parts with their binds -/

/-- What is prepared from parts, each with the bind that stands at it. -/
def prepareParts (d : Dialect) (xs : List NamedPart) : Except Error Prepared :=
  (renderParts whenRun d xs).bind (fun r =>
    asStatementError ((storedAll d r.parameters).map (fun vs => ⟨r.sql, [vs], false⟩)))

theorem prepareAfter_eq (n : Naming) (ps : List Piece) :
    prepareAfter d n ps =
      (place d n ps).bind (fun xs => prepareParts d ((bindNames n ps).zip xs)) := by
  unfold prepareAfter renderAfter
  cases place d n ps with
  | error e => rfl
  | ok xs =>
      dsimp only [Except.bind, prepareParts]
      cases renderParts whenRun d ((bindNames n ps).zip xs) <;> rfl

/-- Nothing is prepared as nothing. -/
theorem prepareAfter_nil (n : Naming) : prepareAfter d n [] = .ok ⟨"", [[]], false⟩ := by
  rw [prepareAfter, renderAfter_of_apart _ (by simp [placeNames, bindNames, WrittenApart])]
  rfl

/-- The binds of two clauses stand at the parts of each. -/
theorem zip_bindNames_append {n : Naming} {ps qs : List Piece} {xs : List Placed}
    (h : place d n ps = .ok xs) (ys : List Placed) :
    (bindNames n (ps ++ qs)).zip (xs ++ ys) =
      (bindNames n ps).zip xs ++ (bindNames (n.after ps) qs).zip ys := by
  rw [bindNames_append, List.zip_append (length_of_place h)]

/-! ### Fixed pieces in front -/

/-- One stretch behind another. -/
def Rendered.andThen (a b : Rendered) : Rendered := ⟨a.sql ++ b.sql, a.parameters ++ b.parameters⟩

theorem concat_append (as bs : List Rendered) :
    Rendered.concat (as ++ bs) = (Rendered.concat as).andThen (Rendered.concat bs) := by
  simp [Rendered.concat, Rendered.andThen, String.join_append]

/-- What a fixed piece is placed as. -/
def Piece.placed (d : Dialect) : Piece → Placed
  | .text s => .text s
  | .name s => .text (d.quoteName s)
  | .value slot v => .value ⟨placeholderName slot.name, slot.type, v⟩
  | .members slot _ _ | .missing slot => .missing slot.name

/-- Fixed pieces are placed one by one, and their names are taken from then on. -/
theorem place_fixed {ps : List Piece} (hps : ∀ p ∈ ps, p.IsFixed) (hnamed : Named ps) (n : Naming) :
    place d n ps = .ok (ps.map (Piece.placed d)) ∧
      n.after ps = { n with own := (ownNames ps).reverse ++ n.own } := by
  induction ps generalizing n with
  | nil => exact ⟨rfl, rfl⟩
  | cons p ps ih =>
      obtain ⟨hp, hrest⟩ := List.forall_mem_cons.mp hps
      obtain ⟨hname, hnames⟩ := List.forall_mem_cons.mp hnamed
      cases p with
      | text s =>
          obtain ⟨hplace, hafter⟩ := ih hrest hnames n
          exact ⟨by rw [place, hplace]; rfl, hafter⟩
      | name s =>
          obtain ⟨hplace, hafter⟩ := ih hrest hnames n
          have hs : s ≠ "" := fun hs => hname (by rw [hs])
          exact ⟨by rw [place, writeName, if_neg hs, hplace]; rfl, hafter⟩
      | value slot v =>
          obtain ⟨hplace, hafter⟩ := ih hrest hnames { n with own := slot.name :: n.own }
          have hslot := placeholder_of_own hp n
          refine ⟨by rw [place, hslot]; dsimp only; rw [hplace]; rfl, ?_⟩
          rw [Naming.after, ← (bindName_of_placeholder hslot).2, hafter]
          simp [ownNames]
      | members slot use vs | missing slot => exact hp.elim

theorem isAlone_placed {ps : List Piece} (hps : ∀ p ∈ ps, p.IsFixed) :
    ∀ x ∈ ps.map (Piece.placed d), x.IsAlone := by
  intro x hx
  obtain ⟨p, hp, rfl⟩ := List.mem_map.mp hx
  have hfixed := hps p hp
  cases p with
  | text s | name s | value slot v => trivial
  | members slot use vs | missing slot => exact hfixed.elim

/-- Fixed pieces are written as their wording, with their own parameters. -/
theorem concat_placed {ps : List Piece} (hps : ∀ p ∈ ps, p.IsFixed) :
    Rendered.concat ((ps.map (Piece.placed d)).map (Placed.alone d)) =
      ⟨wording d ps, ownParameters ps⟩ := by
  induction ps with
  | nil => rfl
  | cons p ps ih =>
      obtain ⟨hp, hrest⟩ := List.forall_mem_cons.mp hps
      rw [List.map_cons, List.map_cons, concat_cons, ih hrest, wording_cons]
      cases p with
      | text s | name s | value slot v => rfl
      | members slot use vs | missing slot => exact hp.elim

/-- Whether a piece is a word of the statement: text or a name. -/
def Piece.IsWord : Piece → Prop
  | .text _ | .name _ => True
  | .value _ _ | .members _ _ _ | .missing _ => False

theorem Piece.IsWord.isFixed {p : Piece} (h : p.IsWord) : p.IsFixed := by
  cases p with
  | text s | name s => trivial
  | value slot v | members slot use vs | missing slot => exact h.elim

/-- Words have no names of their own, and no parameters. -/
theorem words_have_no_names {ps : List Piece} (hps : ∀ p ∈ ps, p.IsWord) :
    ownNames ps = [] ∧ ownParameters ps = [] ∧
      (ps.map (Piece.placed d)).filterMap Placed.name? = [] := by
  simp only [ownNames, ownParameters, List.filterMap_map, List.filterMap_eq_nil_iff]
  refine ⟨fun p hp => ?_, fun p hp => ?_, fun p hp => ?_⟩ <;>
    (have hword := hps p hp; cases p <;> first | rfl | exact hword.elim)

/-- A statement with text in front of it. -/
def Prepared.after (text : String) (p : Prepared) : Prepared := { p with sql := text ++ p.sql }

theorem bindNames_words {n : Naming} {ps : List Piece} (hps : ∀ p ∈ ps, p.IsWord) :
    bindNames n ps = ps.map (fun _ => none) := by
  induction ps with
  | nil => rfl
  | cons p ps ih =>
      obtain ⟨hp, htail⟩ := List.forall_mem_cons.mp hps
      cases p with
      | text s | name s => exact congrArg (none :: ·) (ih htail)
      | value slot v | members slot use vs | missing slot => exact hp.elim

/-- Words in front of parts are text in front of them. -/
theorem renderParts_words_append (report : Reporting) {ps : List Piece}
    (hps : ∀ p ∈ ps, p.IsWord) (xs : List NamedPart) :
    renderParts report d (ps.map (fun p => (none, p.placed d)) ++ xs) =
      (renderParts report d xs).map (Rendered.andThen ⟨wording d ps, []⟩) := by
  have hfixed : ∀ p ∈ ps, p.IsFixed := fun p hp => (hps p hp).isFixed
  obtain ⟨-, hparameters, hnames⟩ := words_have_no_names (d := d) hps
  have halone := isAlone_placed (d := d) hfixed
  have hconcat := concat_placed (d := d) hfixed
  have hnone : ∀ x ∈ ps.map (fun p => ((none, p.placed d) : NamedPart)), x.1 = none := by simp
  have hparts : (ps.map (fun p => ((none, p.placed d) : NamedPart))).map Prod.snd =
      ps.map (Piece.placed d) := by
    rw [List.map_map]
    rfl
  have hexpand : expand d (ps.map (Piece.placed d) ++ served d xs) =
      (expand d (served d xs)).map (Rendered.andThen ⟨wording d ps, []⟩) := by
    unfold expand
    rw [firstMissing_append, firstMissing_of_isAlone halone, List.filterMap_append, hnames,
      Option.none_or, List.nil_append]
    cases firstMissing (served d xs) with
    | some name => rfl
    | none =>
        dsimp only
        rw [stretches_alone_append _ _ halone, map_map, map_map]
        simp only [concat_append, hconcat, hparameters]
  unfold renderParts
  rw [areMerged_append_left fun x hx => isEscaped_of_none (hnone x hx), served_append_left hnone,
    unlisted?_append_left hnone, hparts, hexpand]
  split
  · rfl
  · cases expand d (served d xs) with
    | error e => rfl
    | ok r => cases unlisted? d xs <;> rfl

/-- **Words in front of a statement are text in front of it**, whether it can be prepared
or not. -/
theorem prepareAfter_words_append {ps : List Piece} (hps : ∀ p ∈ ps, p.IsWord) (hnamed : Named ps)
    (n : Naming) (qs : List Piece) :
    prepareAfter d n (ps ++ qs) = (prepareAfter d n qs).map (Prepared.after (wording d ps)) := by
  have hfixed : ∀ p ∈ ps, p.IsFixed := fun p hp => (hps p hp).isFixed
  obtain ⟨hplace, hafter⟩ := place_fixed (d := d) hfixed hnamed n
  have hsame : n.after ps = n := by
    rw [hafter, (words_have_no_names (d := d) hps).1]
    rfl
  rw [prepareAfter_eq, prepareAfter_eq, place_append_eq, hplace, hsame]
  cases place d n qs with
  | error e => rfl
  | ok ys =>
      have hwords : (bindNames n ps).zip (ps.map (Piece.placed d)) =
          ps.map (fun p => (none, p.placed d)) := by
        rw [bindNames_words hps, List.zip_map']
      show prepareParts d ((bindNames n (ps ++ qs)).zip (ps.map (Piece.placed d) ++ ys)) =
        (prepareParts d ((bindNames n qs).zip ys)).map _
      rw [zip_bindNames_append hplace, hwords, hsame, prepareParts,
        renderParts_words_append _ hps, prepareParts]
      cases renderParts whenRun d ((bindNames n qs).zip ys) with
      | error e => rfl
      | ok r =>
          show asStatementError ((storedAll d r.parameters).map _) =
            (asStatementError ((storedAll d r.parameters).map _)).map _
          cases storedAll d r.parameters <;> rfl

end Sql

end TableQuery
