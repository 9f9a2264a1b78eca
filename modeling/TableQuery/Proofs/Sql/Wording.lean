/-
Pieces that are written the same wherever they stand.

Text, names and places with a name of their own do not depend on what stands before them, so
what they are written as is a function of the pieces: `wording` is their text and
`ownParameters` their parameters.  Inserts have no other pieces, and an update has only these
in front of its condition.
-/
import TableQuery.Proofs.Sql.Rendering
import TableQuery.Proofs.Sql.Separated

namespace TableQuery

namespace Sql

/-- Whether a piece is written the same wherever it stands. -/
def Piece.IsFixed : Piece → Prop
  | .text _ | .name _ => True
  | .value slot _ => slot.counted = false
  | .members _ _ _ | .missing _ => False

@[simp]
theorem Piece.isFixed_text (s : String) : (Piece.text s).IsFixed := trivial

@[simp]
theorem Piece.isFixed_name (s : String) : (Piece.name s).IsFixed := trivial

@[simp]
theorem Piece.isFixed_value {slot : Slot} {v : Value} :
    (Piece.value slot v).IsFixed ↔ slot.counted = false := Iff.rfl

/-- What a fixed piece is written as. -/
def Piece.word (d : Dialect) : Piece → String
  | .text s => s
  | .name s => d.quoteName s
  | .value slot _ => mark d (placeholderName slot.name)
  | .members _ _ _ | .missing _ => ""

/-- The parameter of a fixed piece. -/
def Piece.ownParameter? : Piece → Option Parameter
  | .value slot v => some ⟨placeholderName slot.name, slot.type, v⟩
  | _ => none

/-- The text of fixed pieces. -/
def wording (d : Dialect) (ps : List Piece) : String := String.join (ps.map (Piece.word d))

/-- The parameters of fixed pieces. -/
def ownParameters (ps : List Piece) : List Parameter := ps.filterMap Piece.ownParameter?

/-- The names that fixed pieces have of their own. -/
def ownNames (ps : List Piece) : List String :=
  ps.filterMap (fun
    | .value slot _ => some slot.name
    | _ => none)

variable {d : Dialect}

theorem wording_nil : wording d [] = "" := rfl

theorem wording_cons (p : Piece) (ps : List Piece) :
    wording d (p :: ps) = p.word d ++ wording d ps := by
  simp [wording]

theorem wording_append (ps qs : List Piece) :
    wording d (ps ++ qs) = wording d ps ++ wording d qs := by
  simp [wording, String.join_append]

theorem wording_separated (separator : String) (pss : List (List Piece)) :
    wording d (separated separator pss) = separator.intercalate (pss.map (wording d)) := by
  induction pss using separated.induct with
  | case1 => rfl
  | case2 ps => simp [separated]
  | case3 ps rest hrest ih =>
      rw [separated]
      · obtain ⟨qs, rest, rfl⟩ := List.exists_cons_of_ne_nil hrest
        rw [wording_append, wording_cons, ih]
        simp [Piece.word, String.intercalate_cons_cons, String.append_assoc]
      · exact hrest

/-- What is read off pieces one by one is read off lists of them, where the text between the lists
gives nothing. -/
theorem filterMap_separated {α : Type} {f : Piece → Option α} (hf : ∀ s, f (.text s) = none)
    (separator : String) (pss : List (List Piece)) :
    (separated separator pss).filterMap f = pss.flatMap (List.filterMap f) := by
  have hnone : (f (.text separator)).toList = [] := by rw [hf]; rfl
  rw [List.filterMap_eq_flatMap_toList, flatMap_separated hnone]
  exact congrArg pss.flatMap (funext fun ps => (List.filterMap_eq_flatMap_toList f ps).symm)

theorem ownParameters_separated (separator : String) (pss : List (List Piece)) :
    ownParameters (separated separator pss) = pss.flatMap ownParameters :=
  filterMap_separated (fun _ => rfl) separator pss

theorem wording_nameList (ns : List String) :
    wording d (nameList ns) = ", ".intercalate (ns.map d.quoteName) := by
  rw [nameList, wording_separated, List.map_map]
  congr 2

theorem isFixed_separated {separator : String} {pss : List (List Piece)}
    (h : ∀ ps ∈ pss, ∀ p ∈ ps, p.IsFixed) : ∀ p ∈ separated separator pss, p.IsFixed :=
  forall_mem_separated trivial h

theorem isFixed_separated_map {α : Type} (separator : String) {f : α → List Piece}
    (h : ∀ x, ∀ p ∈ f x, p.IsFixed) (xs : List α) :
    ∀ p ∈ separated separator (xs.map f), p.IsFixed := by
  refine isFixed_separated fun ps hps => ?_
  obtain ⟨x, -, rfl⟩ := List.mem_map.mp hps
  exact h x

theorem isFixed_nameList (ns : List String) : ∀ p ∈ nameList ns, p.IsFixed :=
  isFixed_separated_map ", " (fun n => by simp) ns

/-- A name of its own is the placeholder's, whatever has been named. -/
theorem placeholder_of_own {slot : Slot} (h : slot.counted = false) (n : Naming) :
    slot.placeholder n =
      .ok (placeholderName slot.name, { n with own := slot.name :: n.own }) := by
  rw [Slot.placeholder, Slot.bindName, h]
  rfl

/-- **Fixed pieces are written as their wording, with their own parameters.** -/
theorem concat_of_isFixed {n : Naming} {ps : List Piece} {xs : List Placed} {taken : List String}
    {written : List (String × Rendered)} {rs : List Rendered} (hps : ∀ p ∈ ps, p.IsFixed)
    (hplaced : place d n ps = .ok xs) (hrs : stretches d taken written xs = .ok rs) :
    Rendered.concat rs = ⟨wording d ps, ownParameters ps⟩ := by
  induction ps generalizing n xs rs with
  | nil =>
      cases hplaced
      cases hrs
      rfl
  | cons p ps ih =>
      have htail := fun q hq => hps q (List.mem_cons_of_mem p hq)
      have hp := hps p List.mem_cons_self
      -- Each piece is one stretch in front of those of the rest.
      have step : ∀ {m : Naming} {x : Placed}, (place d m ps).map (x :: ·) = .ok xs →
          (∀ ys, stretches d taken written (x :: ys) =
            (stretches d taken written ys).map (⟨p.word d, p.ownParameter?.toList⟩ :: ·)) →
          Rendered.concat rs = ⟨wording d (p :: ps), ownParameters (p :: ps)⟩ := by
        intro m x hx hstretch
        obtain ⟨ys, hys, rfl⟩ := map_eq_ok.mp hx
        rw [hstretch] at hrs
        obtain ⟨rest, hrest, rfl⟩ := map_eq_ok.mp hrs
        have hconcat := ih htail hys hrest
        rw [Rendered.concat, Rendered.mk.injEq] at hconcat
        rw [wording_cons, ownParameters, List.filterMap_cons, Rendered.concat, List.map_cons,
          List.flatMap_cons, hconcat.2]
        cases p.ownParameter? with
        | none => simp [← hconcat.1, ownParameters]
        | some parameter => simp [← hconcat.1, ownParameters]
      cases p with
      | text s => exact step hplaced (fun ys => by rw [stretches]; rfl)
      | name s =>
          rw [place, writeName] at hplaced
          split at hplaced
          · cases hplaced
          · rename_i s' hs'
            split at hs'
            · cases hs'
            · cases hs'
              exact step hplaced (fun ys => by rw [stretches]; rfl)
      | value slot v =>
          rw [place, placeholder_of_own hp] at hplaced
          exact step hplaced (fun ys => by rw [stretches]; rfl)
      | members slot use vs => exact hp.elim
      | missing slot => exact hp.elim

/-- Fixed pieces are written as their wording, whatever their places read. -/
theorem sql_of_writes {ps : List Piece} {text : String} (hps : ∀ p ∈ ps, p.IsFixed)
    (h : Writes d ps text) : text = wording d ps := by
  obtain ⟨n, xs, taken, written, rs, hxs, hrs, rfl⟩ := h
  have hconcat := concat_of_isFixed hps hxs hrs
  rw [Rendered.concat, Rendered.mk.injEq] at hconcat
  exact hconcat.1

/-- The binds of fixed pieces are those that they have of their own, and nothing is counted. -/
theorem placeNames_of_isFixed {n : Naming} {ps : List Piece} (hps : ∀ p ∈ ps, p.IsFixed) :
    placeNames n ps = ownNames ps ∧ (n.after ps).counts = n.counts := by
  induction ps generalizing n with
  | nil => exact ⟨rfl, rfl⟩
  | cons p ps ih =>
      obtain ⟨hp, htail⟩ := List.forall_mem_cons.mp hps
      cases p with
      | text s | name s => exact ih htail
      | value slot v =>
          have hslot : slot.bindName n = (slot.name, { n with own := slot.name :: n.own }) := by
            rw [Slot.bindName, show slot.counted = false from hp]
            rfl
          obtain ⟨hnames, hcounts⟩ := ih (n := { n with own := slot.name :: n.own }) htail
          rw [placeNames, bindNames, Naming.after, hslot]
          exact ⟨congrArg (slot.name :: ·) hnames, hcounts⟩
      | members slot use vs | missing slot => exact hp.elim

/-- The places of a statement that leads with fixed pieces are named as those of its clauses. -/
theorem placeNames_fixed_append {ps : List Piece} (hps : ∀ p ∈ ps, p.IsFixed) (n : Naming)
    (qs : List Piece) : placeNames n (ps ++ qs) = ownNames ps ++ placeNames n qs := by
  obtain ⟨hnames, hcounts⟩ := placeNames_of_isFixed (n := n) hps
  rw [placeNames_append, hnames, placeNames, placeNames, bindNames_congr hcounts]

/-! ### The values of a statement -/

theorem storedAll_congr {ps qs : List Parameter}
    (h : ps.map (fun p => (p.type, p.value)) = qs.map (fun p => (p.type, p.value))) :
    storedAll d ps = storedAll d qs := by
  have hstored : ∀ xs : List Parameter, storedAll d xs =
      collect (fun e : SqlType × Value => Parameter.stored d ⟨"", e.1, e.2⟩)
        (xs.map (fun p => (p.type, p.value))) := by
    intro xs
    induction xs with
    | nil => rfl
    | cons x xs ih =>
        rw [storedAll] at ih
        rw [storedAll, List.map_cons, collect, collect, ih]
        rfl
  rw [hstored, hstored, h]

theorem collect_append {α β ε : Type} {f : α → Except ε β} {as as' : List α} {bs : List β}
    (h : collect f (as ++ as') = .ok bs) :
    ∃ xs ys, collect f as = .ok xs ∧ collect f as' = .ok ys ∧ bs = xs ++ ys := by
  induction as generalizing bs with
  | nil => exact ⟨[], bs, rfl, h, rfl⟩
  | cons a as ih =>
      obtain ⟨b, rest, hb, hrest, rfl⟩ := collect_cons_eq_ok.mp h
      obtain ⟨xs, ys, hxs, hys, rfl⟩ := ih hrest
      exact ⟨b :: xs, ys, collect_cons_eq_ok.mpr ⟨b, xs, hb, hxs, rfl⟩, hys, rfl⟩

/-- **A statement that leads with fixed pieces hands over their values in front**, where every
place reads its own. -/
theorem rows_of_fixed_append {ps qs : List Piece} {p : Prepared} (hps : ∀ x ∈ ps, x.IsFixed)
    (hplaces : WrittenApart (ownNames ps ++ placeNames .empty qs))
    (h : prepareOne d (ps ++ qs) = .ok p) :
    ∃ vs tail, storedAll d (ownParameters ps) = .ok vs ∧ p.rows = [vs ++ tail] := by
  obtain ⟨r, all, hr, hstored, rfl⟩ := prepareAfter_eq_ok.mp h
  rw [renderAfter_of_apart whenRun (by rwa [placeNames_fixed_append hps])] at hr
  obtain ⟨placed, hplaced, hexpand⟩ := bind_eq_ok.mp hr
  obtain ⟨m, xs, ys, hxs, hys, rfl⟩ := place_append hplaced
  obtain ⟨-, rs, hrs, rfl⟩ := expand_eq_ok.mp (mapError_eq_ok.mp hexpand)
  obtain ⟨written', as, bs, has, hbs, rfl⟩ := stretches_append hrs
  have hconcat := concat_of_isFixed hps hxs has
  rw [Rendered.concat, Rendered.mk.injEq] at hconcat
  rw [Rendered.concat, List.flatMap_append, hconcat.2] at hstored
  obtain ⟨vs, tail, hvs, -, rfl⟩ := collect_append hstored
  exact ⟨vs, tail, hvs, rfl⟩

end Sql

end TableQuery
