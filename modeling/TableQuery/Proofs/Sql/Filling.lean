/-
A statement is fixed text with holes, and in each hole stands the placeholder of a value.

The fixed text of a statement, with the holes in it, is its `Frame`: one hole for a value
and as many as it has members for a list.  `Fills` says of a rendered stretch
that its text is a frame with the placeholders of its own parameters in the holes, from
left to right, and that these parameters hold given values in the same order.  The
statement about whole statements is `render_fills`.  It asks that no two lists share a
name, since a list whose name was already written is written as the one before.
-/
import TableQuery.Proofs.Sql.Naming
import TableQuery.Proofs.Sql.Outline

namespace TableQuery

namespace Sql

/-! ### Frames -/

/-- Fixed text with holes; a hole is where the text is missing. -/
abbrev Frame := List (Option String)

namespace Frame

/-- The number of holes. -/
def holes : Frame → Nat
  | [] => 0
  | some _ :: f => holes f
  | none :: f => holes f + 1

/-- The text of a frame with texts in its holes, from left to right. -/
def fill : Frame → List String → String
  | [], _ => ""
  | some s :: f, ts => s ++ fill f ts
  | none :: f, [] => fill f []
  | none :: f, t :: ts => t ++ fill f ts

/-- As many holes as there are members, with commas between them. -/
def ofList : Nat → Frame
  | 0 => []
  | 1 => [none]
  | n + 2 => none :: some ", " :: ofList (n + 1)

theorem holes_append (f g : Frame) : holes (f ++ g) = holes f + holes g := by
  induction f with
  | nil => simp [holes]
  | cons x f ih =>
      cases x with
      | none => rw [List.cons_append, holes, holes, ih]; omega
      | some s => rw [List.cons_append, holes, holes, ih]

theorem fill_append {f : Frame} {ts : List String} (h : holes f = ts.length) (g : Frame)
    (us : List String) : fill (f ++ g) (ts ++ us) = fill f ts ++ fill g us := by
  induction f generalizing ts with
  | nil =>
      have hnil : ts = [] := List.length_eq_zero_iff.mp h.symm
      simp [hnil, fill]
  | cons x f ih =>
      cases x with
      | some s => rw [List.cons_append, fill, fill, ih h, String.append_assoc]
      | none =>
          match ts, h with
          | t :: ts, h =>
              have hlength : holes f = ts.length := by simpa [holes] using h
              rw [List.cons_append, List.cons_append, fill, fill, ih hlength, String.append_assoc]

theorem holes_ofList (n : Nat) : (ofList n).holes = n := by
  induction n using ofList.induct with
  | case1 => rfl
  | case2 => rfl
  | case3 n ih => rw [ofList, holes, holes, ih]

theorem fill_ofList (ts : List String) : (ofList ts.length).fill ts = ", ".intercalate ts := by
  match ts with
  | [] => rfl
  | [t] => simp [ofList, fill]
  | t :: u :: ts =>
      have ih := fill_ofList (u :: ts)
      rw [List.length_cons] at ih
      simp only [List.length_cons, ofList, fill, ih]
      simp [String.intercalate_cons_cons, String.append_assoc]

end Frame

/-! ### Stretches -/

/-- The frame of a piece. -/
def Piece.frame (d : Dialect) : Piece → Frame
  | .text s => [some s]
  | .name s => [some (d.quoteName s)]
  | .value _ _ => [none]
  | .members _ _ vs => Frame.ofList vs.length
  | .missing _ => []

/-- The values of a piece. -/
def Piece.operands : Piece → List Value
  | .value _ v => [v]
  | .members _ _ vs => vs
  | _ => []

/-- The frame of a part. -/
def Placed.frame : Placed → Frame
  | .text s => [some s]
  | .value _ => [none]
  | .members _ _ _ vs => Frame.ofList vs.length
  | .spread _ _ _ | .missing _ => []

/-- The values of a part. -/
def Placed.operands : Placed → List Value
  | .value p => [p.value]
  | .members _ _ _ vs => vs
  | _ => []

/-- A stretch is a frame in whose holes the placeholders of values stand in order. -/
structure Rendered.Fills (d : Dialect) (frame : Frame) (vs : List Value) (r : Rendered) : Prop where
  sql : r.sql = frame.fill (r.parameters.map (fun p => mark d p.name))
  values : r.parameters.map (·.value) = vs
  /-- There is one hole for each value. -/
  holes : frame.holes = vs.length

variable {d : Dialect}

theorem Rendered.Fills.append {f g : Frame} {vs ws : List Value} {r s : Rendered}
    (hr : r.Fills d f vs) (hs : s.Fills d g ws) :
    Rendered.Fills d (f ++ g) (vs ++ ws) ⟨r.sql ++ s.sql, r.parameters ++ s.parameters⟩ where
  sql := by
    have hlength : f.holes = (r.parameters.map (fun p => mark d p.name)).length := by
      rw [hr.holes, ← hr.values, List.length_map, List.length_map]
    rw [List.map_append, Frame.fill_append hlength, ← hr.sql, ← hs.sql]
  values := by rw [List.map_append, hr.values, hs.values]
  holes := by rw [Frame.holes_append, hr.holes, hs.holes, List.length_append]

/-- A flat list fills as many holes as it has members. -/
theorem fills_listStretch (taken : List String) (name : String) (use : ListUse) {type : SqlType}
    {vs : List Value} (hne : vs ≠ []) (hflat : isGrouped type vs = false) :
    ∃ r, listStretch d taken name type use vs = .ok r ∧ r.Fills d (Frame.ofList vs.length) vs := by
  have hlength : ((Members.numbered name vs.length).map (freshName taken)).length = vs.length := by
    simp [Members.numbered]
  rw [listStretch_of_flat hne hflat]
  generalize (Members.numbered name vs.length).map (freshName taken) = names at hlength
  have hnames : (names.zip vs).map Prod.fst = names := List.map_fst_zip (by omega)
  have hvalues : (names.zip vs).map Prod.snd = vs := List.map_snd_zip (by omega)
  refine ⟨_, rfl, ?_, ?_, Frame.holes_ofList _⟩
  · have hmarks : ((names.zip vs).map (fun e => (⟨e.1, type, e.2⟩ : Parameter))).map
        (fun p => mark d p.name) = names.map (mark d) := by
      calc _ = ((names.zip vs).map Prod.fst).map (mark d) := by
              simp only [List.map_map, Function.comp_def]
        _ = names.map (mark d) := by rw [hnames]
    show markList d names = _
    rw [Members.values, hmarks, ← hlength, ← List.length_map (f := mark d), Frame.fill_ofList,
      markList]
  · show ((names.zip vs).map (fun e => (⟨e.1, type, e.2⟩ : Parameter))).map (·.value) = vs
    rw [List.map_map]
    exact hvalues

theorem concat_cons (r : Rendered) (rs : List Rendered) :
    Rendered.concat (r :: rs) =
      ⟨r.sql ++ (Rendered.concat rs).sql, r.parameters ++ (Rendered.concat rs).parameters⟩ := by
  simp [Rendered.concat]

/-- Whether a part can be written: it is no missing value, no list at a single placeholder,
and no list of groups or of nothing. -/
def Placed.IsPlain : Placed → Prop
  | .members _ type _ vs => vs ≠ [] ∧ isGrouped type vs = false
  | .spread _ _ _ | .missing _ => False
  | _ => True

/-- **Plain parts are written, and fill their frames with their own values.** -/
theorem fills_stretches (taken : List String) (written : List (String × Rendered))
    {xs : List Placed} (hxs : ∀ x ∈ xs, x.IsPlain) (hnodup : (xs.filterMap Placed.listName?).Nodup)
    (hnew : ∀ name ∈ xs.filterMap Placed.listName?, written.lookup name = none) :
    ∃ rs, stretches d taken written xs = .ok rs ∧
      (Rendered.concat rs).Fills d (xs.flatMap Placed.frame) (xs.flatMap Placed.operands) := by
  induction xs generalizing written with
  | nil => exact ⟨[], rfl, rfl, rfl, rfl⟩
  | cons x xs ih =>
      have htail := fun y hy => hxs y (List.mem_cons_of_mem x hy)
      have step : ∀ {w : List (String × Rendered)} {r : Rendered} (f : Frame) (vs : List Value),
          r.Fills d f vs → (xs.filterMap Placed.listName?).Nodup →
          (∀ name ∈ xs.filterMap Placed.listName?, w.lookup name = none) →
          ∃ rs, (stretches d taken w xs).map (r :: ·) = .ok rs ∧
            (Rendered.concat rs).Fills d (f ++ xs.flatMap Placed.frame)
              (vs ++ xs.flatMap Placed.operands) := by
        intro w r f vs hr hnodup hnew
        obtain ⟨rs, hrs, hfills⟩ := ih w htail hnodup hnew
        exact ⟨r :: rs, by rw [hrs]; rfl, by rw [concat_cons]; exact hr.append hfills⟩
      cases x with
      | text s =>
          rw [List.filterMap_cons_none (f := Placed.listName?) rfl] at hnodup hnew
          rw [stretches]
          exact step [some s] [] ⟨by simp [Frame.fill], rfl, rfl⟩ hnodup hnew
      | value p =>
          rw [List.filterMap_cons_none (f := Placed.listName?) rfl] at hnodup hnew
          rw [stretches]
          exact step [none] [p.value] ⟨by simp [Frame.fill], rfl, rfl⟩ hnodup hnew
      | spread name type vs | missing name => exact (hxs _ List.mem_cons_self).elim
      | members name type use vs =>
          obtain ⟨hne, hflat⟩ := hxs _ List.mem_cons_self
          rw [List.filterMap_cons_some (f := Placed.listName?) rfl] at hnodup hnew
          obtain ⟨hhead, hnodup⟩ := List.nodup_cons.mp hnodup
          rw [stretches, hnew name List.mem_cons_self]
          obtain ⟨r, hr, hfills⟩ := fills_listStretch (d := d)
            (taken ++ written.flatMap (fun w => w.2.parameters.map (·.name))) name use hne hflat
          simp only [hr]
          refine step _ _ hfills hnodup (fun other hother => ?_)
          have hother' : (other == name) = false := by
            rw [beq_eq_false_iff_ne]
            rintro rfl
            exact hhead hother
          rw [List.lookup_cons, hother']
          exact hnew other (List.mem_cons_of_mem _ hother)

/-- Plain parts are written whatever their lists are named. -/
theorem stretches_ok (taken : List String) (written : List (String × Rendered))
    {xs : List Placed} (hxs : ∀ x ∈ xs, x.IsPlain) :
    ∃ rs, stretches d taken written xs = .ok rs := by
  induction xs generalizing written with
  | nil => exact ⟨[], rfl⟩
  | cons x xs ih =>
      have step : ∀ (w : List (String × Rendered)) (r : Rendered),
          ∃ rs, (stretches d taken w xs).map (r :: ·) = .ok rs := by
        intro w r
        obtain ⟨rs, hrs⟩ := ih w (fun y hy => hxs y (List.mem_cons_of_mem x hy))
        exact ⟨r :: rs, by rw [hrs]; rfl⟩
      cases x with
      | text s => rw [stretches]; exact step _ _
      | value p => rw [stretches]; exact step _ _
      | spread name type vs | missing name => exact (hxs _ List.mem_cons_self).elim
      | members name type use vs =>
          rw [stretches]
          cases written.lookup name with
          | some r => exact step _ _
          | none =>
              obtain ⟨hne, hflat⟩ := hxs _ List.mem_cons_self
              obtain ⟨r, hr, -⟩ := fills_listStretch (d := d)
                (taken ++ written.flatMap (fun w => w.2.parameters.map (·.name))) name use hne hflat
              simp only [hr]
              exact step _ _

/-! ### Statements -/

/-- Whether a piece can be written: its name is not empty, its place is counted, and it is
no missing value and no list of groups or of nothing. -/
def Piece.IsPlain : Piece → Prop
  | .text _ => True
  | .name s => s ≠ ""
  | .value slot _ => slot.counted = true
  | .members slot _ vs => slot.counted = true ∧ vs ≠ [] ∧ isGrouped slot.type vs = false
  | .missing _ => False

theorem Piece.IsPlain.isCounted {p : Piece} (h : p.IsPlain) : p.IsCounted := by
  cases p with
  | text s => trivial
  | name s => trivial
  | missing slot => trivial
  | value slot v => exact h
  | members slot use vs => exact h.1

/-- **Plain pieces get their names**, and keep their frames and values. -/
theorem place_ok {n : Naming} {ps : List Piece} (hps : ∀ p ∈ ps, p.IsPlain) (hn : n.own = []) :
    ∃ xs, place d n ps = .ok xs ∧ (∀ x ∈ xs, x.IsPlain) ∧
      xs.flatMap Placed.frame = ps.flatMap (Piece.frame d) ∧
      xs.flatMap Placed.operands = ps.flatMap Piece.operands := by
  induction ps generalizing n with
  | nil => exact ⟨[], rfl, by simp, rfl, rfl⟩
  | cons p ps ih =>
      have htail := fun q hq => hps q (List.mem_cons_of_mem p hq)
      have hp := hps p List.mem_cons_self
      have step : ∀ {m : Naming} (x : Placed), m.own = [] → x.IsPlain → x.frame = p.frame d →
          x.operands = p.operands →
          ∃ xs, (place d m ps).map (x :: ·) = .ok xs ∧ (∀ x ∈ xs, x.IsPlain) ∧
            xs.flatMap Placed.frame = (p :: ps).flatMap (Piece.frame d) ∧
            xs.flatMap Placed.operands = (p :: ps).flatMap Piece.operands := by
        intro m x hm hx hframe hoperands
        obtain ⟨xs, hxs, hplain, hframes, hvalues⟩ := ih htail hm
        refine ⟨x :: xs, by rw [hxs]; rfl, List.forall_mem_cons.mpr ⟨hx, hplain⟩, ?_, ?_⟩
        · rw [List.flatMap_cons, List.flatMap_cons, hframe, hframes]
        · rw [List.flatMap_cons, List.flatMap_cons, hoperands, hvalues]
      cases p with
      | text s =>
          rw [place]
          exact step (.text s) hn trivial rfl rfl
      | name s =>
          rw [place, writeName, if_neg hp]
          exact step (.text (d.quoteName s)) hn trivial rfl rfl
      | value slot v =>
          rw [place, placeholder_ok hp hn]
          exact step (.value _) (by rw [Naming.own_next, hn]) trivial rfl rfl
      | members slot use vs =>
          rw [place, placeholder_ok hp.1 hn]
          exact step (.members _ slot.type use vs) (by rw [Naming.own_next, hn]) hp.2 rfl rfl
      | missing slot => exact hp.elim

theorem firstMissing_of_plain {xs : List Placed} (h : ∀ x ∈ xs, x.IsPlain) :
    firstMissing xs = none := by
  induction xs with
  | nil => rfl
  | cons x xs ih =>
      have htail := fun y hy => h y (List.mem_cons_of_mem x hy)
      cases x with
      | spread name type vs | missing name => exact (h _ List.mem_cons_self).elim
      | text s => rw [firstMissing, ih htail]; simp
      | value p => rw [firstMissing, ih htail]; simp
      | members name type use vs => rw [firstMissing, ih htail]; simp

/-- A statement is written when its pieces are placed as plain parts, and the places are written
apart. -/
theorem render_of_place {ps : List Piece} {xs : List Placed} (hxs : place d .empty ps = .ok xs)
    (hplain : ∀ x ∈ xs, x.IsPlain) (hplaces : WrittenApart (placeNames .empty ps)) :
    ∃ rs, stretches d (xs.filterMap Placed.name?) [] xs = .ok rs ∧
      render d ps = .ok (Rendered.concat rs) := by
  obtain ⟨rs, hrs⟩ := stretches_ok (d := d) (xs.filterMap Placed.name?) [] hplain
  refine ⟨rs, hrs, ?_⟩
  rw [render, renderAfter_of_apart _ hplaces, hxs]
  simp only [Except.bind, expand, firstMissing_of_plain hplain, hrs]
  rfl

/-- To a driver that knows names a statement of plain parts can be written, whatever its places
read. -/
theorem render_of_place_named {ps : List Piece} {xs : List Placed} (hd : ¬d.isPositional)
    (hxs : place d .empty ps = .ok xs) (hplain : ∀ x ∈ xs, x.IsPlain) :
    ∃ r, render d ps = .ok r := by
  have hserved : ∀ x ∈ served d ((bindNames .empty ps).zip xs), x.IsPlain :=
    forall_mem_served_of_named hd fun x hx => hplain x.2 (List.of_mem_zip hx).2
  obtain ⟨rs, hrs⟩ := stretches_ok (d := d)
    ((served d ((bindNames .empty ps).zip xs)).filterMap Placed.name?) [] hserved
  refine ⟨Rendered.concat rs, ?_⟩
  rw [render, renderAfter, hxs]
  dsimp only
  rw [renderParts, if_neg (fun h => hd h.1), expand, firstMissing_of_plain hserved, unlisted?,
    if_neg hd]
  dsimp only
  rw [hrs]
  rfl

/-- A statement of plain pieces is written, and by position where its names are apart. -/
theorem render_ok {ps : List Piece} (hps : ∀ p ∈ ps, p.IsPlain)
    (hplaces : d.isPositional → NamesApart (ps.filterMap Piece.slotName?)) :
    ∃ r, render d ps = .ok r := by
  obtain ⟨xs, hxs, hplain, -⟩ := place_ok (d := d) (n := .empty) hps rfl
  by_cases hd : d.isPositional
  · obtain ⟨rs, -, hr⟩ := render_of_place hxs hplain
      (writtenApart_of_namesApart (fun p hp => (hps p hp).isCounted) (hplaces hd))
    exact ⟨_, hr⟩
  · exact render_of_place_named hd hxs hplain

/-- **A statement of plain pieces is its frame, filled with its values in order.** -/
theorem render_fills {ps : List Piece} (hps : ∀ p ∈ ps, p.IsPlain)
    (hplaces : NamesApart (ps.filterMap Piece.slotName?))
    (hapart : NamesApart (ps.filterMap Piece.listSlot?)) :
    ∃ r, render d ps = .ok r ∧
      r.Fills d (ps.flatMap (Piece.frame d)) (ps.flatMap Piece.operands) := by
  obtain ⟨xs, hxs, hplain, hframes, hvalues⟩ := place_ok (d := d) (n := .empty) hps rfl
  have hcounted := fun p hp => (hps p hp).isCounted
  obtain ⟨rs, hrs, hr⟩ := render_of_place hxs hplain
    (writtenApart_of_namesApart hcounted hplaces)
  obtain ⟨rs', hrs', hfills⟩ := fills_stretches (d := d) (xs.filterMap Placed.name?) []
    hplain (nodup_listNames hcounted hapart hxs) (fun _ _ => rfl)
  obtain rfl : rs' = rs := Except.ok.inj (hrs'.symm.trans hrs)
  exact ⟨_, hr, by rw [← hframes, ← hvalues]; exact hfills⟩

end Sql

end TableQuery
