/-
The text of a statement does not depend on its values.

`Piece.blank` takes the value out of a place and leaves null there, once for every member
of a list.  What shows of a rendered statement beside its values is its text and the names
of its parameters, its `outline`; and `outline_render_blank` says that blanking the pieces
leaves that as it is.  Naming never sees a value, so the parts of blanked pieces are the
blanked parts.  Writing sees of a list how many members it has and whether they are groups,
which is why the lists must be flat.
-/
import TableQuery.Proofs.Sql.Serving

namespace TableQuery

namespace Sql

/-! ### Blanks -/

/-- A piece without its value. -/
def Piece.blank : Piece → Piece
  | .value slot _ => .value { slot with type := .unknown } .null
  | .members slot use vs => .members { slot with type := .unknown } use (vs.map (fun _ => .null))
  | p => p

/-- A part without its value. -/
def Placed.blank : Placed → Placed
  | .value p => .value ⟨p.name, .unknown, .null⟩
  | .members name _ use vs => .members name .unknown use (vs.map (fun _ => .null))
  | .spread name _ vs => .spread name .unknown (vs.map (fun _ => .null))
  | p => p

/-- Whether a piece is no list of groups. -/
def Piece.IsFlat : Piece → Prop
  | .members slot _ vs => isGrouped slot.type vs = false
  | _ => True

/-- Whether a part is no list of groups. -/
def Placed.IsFlat : Placed → Prop
  | .members _ type _ vs | .spread _ type vs => isGrouped type vs = false
  | _ => True

/-- What shows of a stretch beside its values: its text and the names of its parameters. -/
def Rendered.outline (r : Rendered) : String × List String :=
  (r.sql, r.parameters.map (·.name))

variable {d : Dialect}

/-- Naming never sees a value. -/
theorem place_blank (d : Dialect) (n : Naming) (ps : List Piece) :
    place d n (ps.map Piece.blank) = (place d n ps).map (List.map Placed.blank) := by
  induction ps generalizing n with
  | nil => rfl
  | cons p ps ih =>
      cases p with
      | text s => simp [Piece.blank, place, ih, map_map, Placed.blank]
      | missing slot => simp [Piece.blank, place, ih, map_map, Placed.blank]
      | name s =>
          simp only [List.map_cons, Piece.blank, place]
          cases writeName d s with
          | error e => rfl
          | ok w => simp [ih, map_map, Placed.blank]
      | value slot v =>
          have hslot : ({ slot with type := .unknown } : Slot).placeholder n = slot.placeholder n :=
            rfl
          simp only [List.map_cons, Piece.blank, place, hslot]
          cases slot.placeholder n with
          | error e => rfl
          | ok w => simp [ih, map_map, Placed.blank]
      | members slot use vs =>
          have hslot : ({ slot with type := .unknown } : Slot).placeholder n = slot.placeholder n :=
            rfl
          simp only [List.map_cons, Piece.blank, place, hslot]
          cases slot.placeholder n with
          | error e => rfl
          | ok w => simp [ih, map_map, Placed.blank]

theorem isFlat_of_place {n : Naming} {ps : List Piece} {xs : List Placed}
    (hps : ∀ p ∈ ps, p.IsFlat) (h : place d n ps = .ok xs) : ∀ x ∈ xs, x.IsFlat :=
  forall_mem_of_place (fun _ => trivial) (fun _ => trivial) (fun _ => trivial)
    (fun _ _ _ hmem _ => hps _ hmem) h

/-! ### Lists -/

theorem ofList_of_flat {type : SqlType} {vs : List Value} (h : isGrouped type vs = false) :
    Members.ofList type vs = .ok (.single vs) := by
  rw [Members.ofList, if_neg (by simp [h])]

/-- A flat list that has members is one placeholder for each of them. -/
theorem listStretch_of_flat {taken : List String} {name : String} {type : SqlType} {use : ListUse}
    {vs : List Value} (hne : vs ≠ []) (h : isGrouped type vs = false) :
    listStretch d taken name type use vs =
      (Members.single vs).rendered d type
        ((Members.numbered name vs.length).map (freshName taken)) := by
  cases vs with
  | nil => exact absurd rfl hne
  | cons v vs =>
      rw [listStretch, ofList_of_flat h]
      · rfl
      · simp

theorem isGrouped_nulls (vs : List Value) :
    isGrouped .unknown (vs.map (fun _ => Value.null)) = false := by
  cases vs <;> rfl

/-- The outline of a flat list depends on how many members it has. -/
theorem outline_listStretch (taken : List String) (name : String) (use : ListUse)
    {type : SqlType} {vs : List Value} (h : isGrouped type vs = false) :
    (listStretch d taken name .unknown use (vs.map (fun _ => .null))).map Rendered.outline =
      (listStretch d taken name type use vs).map Rendered.outline := by
  cases vs with
  | nil => rfl
  | cons v vs =>
      rw [listStretch_of_flat (by simp) h, listStretch_of_flat (by simp) (isGrouped_nulls _)]
      have hnames : ∀ (type : SqlType) (names : List String) (ws : List Value),
          names.length = ws.length →
          ((Members.single ws).rendered d type names).map Rendered.outline =
            .ok (markList d names, names) := by
        intro type names ws hlength
        have hzip : (names.zip ws).map Prod.fst = names := List.map_fst_zip (by omega)
        simp only [Members.rendered, Members.text, Except.map, Rendered.outline, List.map_map,
          Members.values, Function.comp_def, hzip]
      rw [hnames, hnames]
      · simp
      · simp [Members.numbered]
      · simp [Members.numbered]

/-! ### Statements -/

theorem lookup_outline {w w' : List (String × Rendered)}
    (hw : w'.map (fun e => (e.1, e.2.outline)) = w.map (fun e => (e.1, e.2.outline)))
    (name : String) :
    (w'.lookup name).map Rendered.outline = (w.lookup name).map Rendered.outline := by
  have hlookup : ∀ es : List (String × Rendered), (es.lookup name).map Rendered.outline =
      (es.map (fun e => (e.1, e.2.outline))).lookup name := by
    intro es
    induction es with
    | nil => rfl
    | cons e es ih =>
        rw [List.map_cons, List.lookup_cons, List.lookup_cons]
        cases name == e.1 with
        | true => rfl
        | false => exact ih
  rw [hlookup, hlookup, hw]

theorem names_outline {w w' : List (String × Rendered)}
    (hw : w'.map (fun e => (e.1, e.2.outline)) = w.map (fun e => (e.1, e.2.outline))) :
    w'.flatMap (fun e => e.2.parameters.map (·.name)) =
      w.flatMap (fun e => e.2.parameters.map (·.name)) := by
  have hnames : ∀ es : List (String × Rendered), es.flatMap (fun e => e.2.parameters.map (·.name)) =
      (es.map (fun e => (e.1, e.2.outline))).flatMap (fun e => e.2.2) := by
    intro es
    rw [List.flatMap_map]
    rfl
  rw [hnames, hnames, hw]

/-- **Writing flat parts sees no value.** -/
theorem outline_stretches (taken : List String) (w w' : List (String × Rendered))
    {xs : List Placed} (hxs : ∀ x ∈ xs, x.IsFlat)
    (hw : w'.map (fun e => (e.1, e.2.outline)) = w.map (fun e => (e.1, e.2.outline))) :
    (stretches d taken w' (xs.map Placed.blank)).map (List.map Rendered.outline) =
      (stretches d taken w xs).map (List.map Rendered.outline) := by
  induction xs generalizing w w' with
  | nil => rfl
  | cons x xs ih =>
      have htail := fun y hy => hxs y (List.mem_cons_of_mem x hy)
      -- Stretches of one outline in front of the rest keep the outlines equal.
      have step : ∀ {w w' : List (String × Rendered)} {r r' : Rendered}, r'.outline = r.outline →
          w'.map (fun e => (e.1, e.2.outline)) = w.map (fun e => (e.1, e.2.outline)) →
          ((stretches d taken w' (xs.map Placed.blank)).map (r' :: ·)).map
              (List.map Rendered.outline) =
            ((stretches d taken w xs).map (r :: ·)).map (List.map Rendered.outline) := by
        intro w w' r r' hr hw
        have hrest := congrArg (Except.map (r.outline :: ·)) (ih w w' htail hw)
        rw [map_map, map_map] at hrest
        simpa only [map_map, List.map_cons, hr] using hrest
      rw [List.map_cons]
      cases x with
      | text s =>
          rw [Placed.blank, stretches, stretches]
          · exact step rfl hw
          all_goals simp
      | value p =>
          rw [Placed.blank, stretches, stretches]
          exact step rfl hw
      | missing name => simp [Placed.blank, stretches]
      | spread name type vs =>
          rw [Placed.blank, stretches, stretches, ofList_of_flat (isGrouped_nulls vs),
            ofList_of_flat (hxs _ List.mem_cons_self)]
          refine step ?_ hw
          simp [Rendered.outline, Members.values, Function.comp_def, List.map_const']
      | members name type use vs =>
          rw [Placed.blank, stretches, stretches]
          have hlookup := lookup_outline hw name
          cases hfound : w.lookup name with
          | some r =>
              rw [hfound] at hlookup
              obtain ⟨r', hr', houtline⟩ := Option.map_eq_some_iff.mp hlookup
              rw [hr']
              exact step houtline hw
          | none =>
              rw [hfound] at hlookup
              rw [Option.map_eq_none_iff.mp hlookup, names_outline hw]
              have hlist := outline_listStretch (d := d)
                (taken ++ w.flatMap (fun e => e.2.parameters.map (·.name))) name use
                (hxs _ List.mem_cons_self)
              obtain ⟨e, he', he⟩ | ⟨r', r, hr', hr, houtline⟩ := cases_of_map_eq hlist
              · simp only [he, he']
              · simp only [hr, hr']
                exact step houtline (by simp [hw, houtline])

theorem outline_concat (rs : List Rendered) :
    (Rendered.concat rs).outline =
      (String.join ((rs.map Rendered.outline).map Prod.fst),
        (rs.map Rendered.outline).flatMap Prod.snd) := by
  simp only [Rendered.concat, Rendered.outline, List.map_map, List.flatMap_map, Function.comp_def,
    List.map_flatMap]

theorem firstMissing_blank (xs : List Placed) :
    firstMissing (xs.map Placed.blank) = firstMissing xs := by
  induction xs with
  | nil => rfl
  | cons x xs ih => cases x <;> simp [Placed.blank, firstMissing, ih]

theorem names_blank (xs : List Placed) :
    (xs.map Placed.blank).filterMap Placed.name? = xs.filterMap Placed.name? := by
  rw [List.filterMap_map]
  congr 1
  funext x
  cases x <;> rfl

/-! ### What places read -/

theorem reading_blank (x y : Placed) : x.blank.reading y.blank = (x.reading y).blank := by
  cases x <;> cases y <;> rfl

theorem unlisted?_blank (x y : Placed) : x.blank.unlisted? y.blank = x.unlisted? y := by
  cases x <;> cases y <;> rfl

theorem IsFlat.reading {x y : Placed} (hy : y.IsFlat) : (x.reading y).IsFlat := by
  cases x <;> cases y <;> exact hy

/-- A named part without its value. -/
def NamedPart.blank (x : NamedPart) : NamedPart := (x.1, x.2.blank)

theorem namedAlike_blank :
    NamedAlike Prod.fst Prod.fst (fun x y : NamedPart => y = NamedPart.blank x) :=
  .of_eq fun _ _ h => by rw [h]; rfl

theorem valuesAlike_blank : ValuesAlike (fun x y => y = NamedPart.blank x) := by
  rintro ⟨name, part⟩ _ rfl
  cases part <;> first | exact .inl ⟨rfl, rfl⟩ | exact .inr ⟨rfl, rfl⟩

theorem forall₂_blank (xs : List NamedPart) :
    List.Forall₂ (fun x y => y = NamedPart.blank x) xs (xs.map NamedPart.blank) := by
  rw [List.forall₂_map_right_iff]
  exact List.forall₂_same.mpr fun _ _ => rfl

/-- **What places read is found without the values.** -/
theorem served_blank (xs : List NamedPart) :
    served d (xs.map NamedPart.blank) = (served d xs).map Placed.blank := by
  have hserved := served_rel (d := d) (P := fun x y => y = x.blank) namedAlike_blank
    valuesAlike_blank (fun h => by rw [h]; rfl) (fun h h' => by rw [h, h']; exact reading_blank _ _)
    (forall₂_blank xs)
  have hsame := map_eq_map_iff_forall₂.mpr (hserved.imp fun _ _ h => h.symm)
  rw [hsame, List.map_id']

theorem renderParts_blank {report : Reporting} {xs : List NamedPart}
    (hxs : ∀ x ∈ xs, x.2.IsFlat) :
    (renderParts report d (xs.map NamedPart.blank)).map Rendered.outline =
      (renderParts report d xs).map Rendered.outline := by
  have hmerged := areMerged_rel namedAlike_blank (forall₂_blank xs)
  have hunlisted : unlisted? d xs = unlisted? d (xs.map NamedPart.blank) :=
    unlisted?_rel namedAlike_blank
      (fun h h' _ => by rw [h, h']; exact (unlisted?_blank _ _).symm) (forall₂_blank xs)
  have hflat : ∀ x ∈ served d xs, x.IsFlat := by
    obtain ⟨read, hserved, -, hread⟩ := exists_read d xs
    rw [hserved, List.forall_mem_map]
    exact fun x hx => IsFlat.reading (hxs _ (hread x hx).1)
  unfold renderParts
  rw [← hmerged, ← hunlisted, served_blank, expand, expand, firstMissing_blank, names_blank]
  split
  · rfl
  · cases firstMissing (served d xs) with
    | some name => rfl
    | none =>
        dsimp only
        have hout := outline_stretches (d := d) ((served d xs).filterMap Placed.name?) [] [] hflat
          rfl
        obtain ⟨e, he', he⟩ | ⟨rs', rs, hrs', hrs, houtline⟩ := cases_of_map_eq hout
        · rw [he, he']
        · rw [hrs, hrs']
          cases unlisted? d xs with
          | some name => rfl
          | none => simp only [Except.map, outline_concat, houtline]

/-- **Taking the values out of a statement leaves its text and its names.** -/
theorem outline_render_blank {ps : List Piece} (hps : ∀ p ∈ ps, p.IsFlat) :
    (render d (ps.map Piece.blank)).map Rendered.outline =
      (render d ps).map Rendered.outline := by
  have hbinds : ∀ n, bindNames n (ps.map Piece.blank) = bindNames n ps := by
    induction ps with
    | nil => exact fun _ => rfl
    | cons p ps ih =>
        have htail := ih fun q hq => hps q (List.mem_cons_of_mem p hq)
        intro n
        cases p <;> simp only [List.map_cons, Piece.blank, bindNames, htail] <;> rfl
  unfold render renderAfter
  rw [place_blank, hbinds]
  cases hplace : place d .empty ps with
  | error e => rfl
  | ok xs =>
      have hflat := isFlat_of_place hps hplace
      dsimp only [Except.map]
      rw [List.zip_map_right]
      exact renderParts_blank fun x hx => hflat _ (List.of_mem_zip hx).2

/-- Statements that differ in their values only are written alike. -/
theorem outline_render_eq {ps qs : List Piece} (hps : ∀ p ∈ ps, p.IsFlat)
    (hqs : ∀ p ∈ qs, p.IsFlat) (h : ps.map Piece.blank = qs.map Piece.blank) :
    (render d ps).map Rendered.outline = (render d qs).map Rendered.outline := by
  rw [← outline_render_blank hps, h, outline_render_blank hqs]

end Sql

end TableQuery
