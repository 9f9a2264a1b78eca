/-
Statements whose places are counted from another number.

A count has a label, which is counted like the name of a place, so the places behind it of that
name have the number after the one that they would have without it.  Nothing else is made of the
number: where what is counted ahead is written like no other name (`WrittenAlone`), the places of a
statement read the same binds as before (`namedAlike_renumbered`), and the statement is prepared
with the same values and, but for the names of its placeholders, the same text
(`prepareAfter_renumbered`).
-/
import TableQuery.Proofs.Sql.Clauses
import TableQuery.Proofs.Sql.Renaming

namespace TableQuery

namespace Sql

variable {ahead : String → Nat}

/-! ### Numbered names -/

/-- The name of the bind that is the `k`-th of a counted name. -/
def numberedBind (base : String) (k : Nat) : String := base ++ "_" ++ toString k

theorem placeholderName_numberedBind (base : String) (k : Nat) :
    placeholderName (numberedBind base k) = countedPlaceholder base k := rfl

theorem numberedBind_inj {a b : String} {k l : Nat} :
    numberedBind a k = numberedBind b l ↔ a = b ∧ k = l := by
  refine ⟨fun h => ?_, fun ⟨ha, hk⟩ => by rw [ha, hk]⟩
  obtain rfl : k = l := (countedPlaceholder_inj (congrArg placeholderName h)).2
  refine ⟨String.toList_injective ?_, rfl⟩
  have hlists := congrArg String.toList h
  simpa [numberedBind] using hlists

theorem countedPlaceholder_eq_iff {a b : String} {k l : Nat} :
    countedPlaceholder a k = countedPlaceholder b l ↔
      placeholderName a = placeholderName b ∧ k = l := by
  refine ⟨countedPlaceholder_inj, fun ⟨hname, hk⟩ => String.toList_injective ?_⟩
  rw [toList_countedPlaceholder, toList_countedPlaceholder, hname, hk]

/-- A numbered name stands as it is exactly when the name that is counted does. -/
theorem countedPlaceholder_eq_numberedBind {base : String} {k : Nat} :
    countedPlaceholder base k = numberedBind base k ↔ placeholderName base = base := by
  refine ⟨fun h => String.toList_injective ?_, fun h => countedPlaceholder_of_plain h k⟩
  have hlists := congrArg String.toList h
  rw [toList_countedPlaceholder] at hlists
  simpa [numberedBind, Nat.toString_eq_repr] using hlists

theorem isEscaped_of_numberedBind {α : Type} (name? : α → Option String) {x : α} {base : String}
    {k : Nat} (h : name? x = some (numberedBind base k)) :
    isEscaped name? x = (placeholderName base != base) := by
  rw [isEscaped, h, Option.any_some, placeholderName_numberedBind, Bool.eq_iff_iff, bne_iff_ne,
    bne_iff_ne, ne_eq, ne_eq, countedPlaceholder_eq_numberedBind]

/-- Whether a name that is counted ahead is written like no other. -/
def WrittenAlone (ahead : String → Nat) : Prop :=
  ∀ a b, placeholderName a = placeholderName b → ahead a ≠ 0 → a = b

/-- Names that are written alike are counted alike. -/
theorem WrittenAlone.eq (h : WrittenAlone ahead) {a b : String}
    (hab : placeholderName a = placeholderName b) : ahead a = ahead b := by
  by_cases ha : ahead a = 0
  · by_cases hb : ahead b = 0
    · rw [ha, hb]
    · rw [h b a hab.symm hb]
  · rw [h a b hab ha]

/-! ### Parts with their binds -/

/-- Whether written names are those of one count and of the one ahead. -/
def NumberedAhead (ahead : String → Nat) (a b : String) : Prop :=
  ∃ base k, a = countedPlaceholder base k ∧ b = countedPlaceholder base (k + ahead base)

theorem NumberedAhead.iff (halone : WrittenAlone ahead) {a b a' b' : String}
    (h : NumberedAhead ahead a b) (h' : NumberedAhead ahead a' b') : a = a' ↔ b = b' := by
  obtain ⟨base, k, rfl, rfl⟩ := h
  obtain ⟨base', k', rfl, rfl⟩ := h'
  rw [countedPlaceholder_eq_iff, countedPlaceholder_eq_iff]
  refine and_congr_right fun hname => ?_
  rw [halone.eq hname]
  omega

/-- Whether parts with their binds are the same, or places of one count and of the one ahead. -/
inductive NamedPart.Renumbered (ahead : String → Nat) : NamedPart → NamedPart → Prop
  | text (s : String) : Renumbered ahead (none, .text s) (none, .text s)
  | missing (name : String) : Renumbered ahead (none, .missing name) (none, .missing name)
  | value (base : String) (k : Nat) (type : SqlType) (v : Value) :
      Renumbered ahead (some (numberedBind base k), .value ⟨countedPlaceholder base k, type, v⟩)
        (some (numberedBind base (k + ahead base)),
          .value ⟨countedPlaceholder base (k + ahead base), type, v⟩)
  | members (base : String) (k : Nat) (type : SqlType) (use : ListUse) (vs : List Value) :
      Renumbered ahead
        (some (numberedBind base k), .members (countedPlaceholder base k) type use vs)
        (some (numberedBind base (k + ahead base)),
          .members (countedPlaceholder base (k + ahead base)) type use vs)

namespace NamedPart.Renumbered

variable {x y x' y' : NamedPart}

/-- The binds of such parts: none, or one of a count and one of the count ahead. -/
theorem binds (h : Renumbered ahead x y) : (x.1 = none ∧ y.1 = none) ∨
    ∃ base k, x.1 = some (numberedBind base k) ∧
      y.1 = some (numberedBind base (k + ahead base)) := by
  cases h with
  | text | missing => exact .inl ⟨rfl, rfl⟩
  | value base k | members base k => exact .inr ⟨base, k, rfl, rfl⟩

theorem renamed (h : Renumbered ahead x y) : Placed.Renamed (NumberedAhead ahead) x.2 y.2 := by
  cases h with
  | text s => exact .text s
  | missing name => exact .missing name
  | value base k type v => exact .value ⟨base, k, rfl, rfl⟩ type v
  | members base k type use vs => exact .members ⟨base, k, rfl, rfl⟩ type use vs

theorem reading (h : Renumbered ahead x y) (h' : Renumbered ahead x' y') :
    Placed.Renamed (NumberedAhead ahead) (x.2.reading x'.2) (y.2.reading y'.2) := by
  cases h with
  | text | missing => exact h'.renamed
  | value base k type v =>
      cases h' with
      | members base' k' type use vs => exact .spread ⟨base, k, rfl, rfl⟩ type vs
      | text | missing | value => exact renamed (by constructor)
  | members base k type use vs =>
      cases h' with
      | value => exact .text ""
      | text | missing | members => exact renamed (by constructor)

theorem valuesAlike : ValuesAlike (Renumbered ahead) := by
  intro x y h
  cases h with
  | value => exact .inl ⟨rfl, rfl⟩
  | text | missing | members => exact .inr ⟨rfl, rfl⟩

/-- A list that finds no list to read is not one whose count is ahead: what it finds is written
like it and is another. -/
theorem unlisted?_eq (halone : WrittenAlone ahead) (h : Renumbered ahead x y)
    (h' : Renumbered ahead x' y') (hread : MayRead Prod.fst x x') :
    x.2.unlisted? x'.2 = y.2.unlisted? y'.2 := by
  cases h with
  | text | missing | value => rfl
  | members base k type use vs =>
      cases h' with
      | text | missing | members => rfl
      | value base' k' type' v =>
          rcases hread with hself | ⟨hplain, hescaped, hwritten⟩
          · exact absurd (congrArg Prod.snd hself) (by simp)
          · have hplain : (placeholderName base != base) = false :=
              (isEscaped_of_numberedBind Prod.fst rfl).symm.trans hplain
            have hescaped : (placeholderName base' != base') = true :=
              (isEscaped_of_numberedBind Prod.fst rfl).symm.trans hescaped
            have hname : placeholderName base = placeholderName base' :=
              (countedPlaceholder_inj (Option.some.inj hwritten).symm).1
            have hzero : ahead base = 0 := by
              by_contra hahead
              rw [halone base base' hname hahead] at hplain
              exact Bool.false_ne_true (hplain.symm.trans hescaped)
            show some _ = some _
            rw [hzero, Nat.add_zero]

end NamedPart.Renumbered

/-- **Places that are counted ahead read as the others do.** -/
theorem namedAlike_renumbered (halone : WrittenAlone ahead) :
    NamedAlike Prod.fst Prod.fst (NamedPart.Renumbered ahead) where
  unnamed h := by
    rcases h.binds with ⟨hx, hy⟩ | ⟨base, k, hx, hy⟩
    · rw [hx, hy]
    · rw [hx, hy]
      simp
  escaped h := by
    rcases h.binds with ⟨hx, hy⟩ | ⟨base, k, hx, hy⟩
    · rw [isEscaped_of_none hx, isEscaped_of_none hy]
    · rw [isEscaped_of_numberedBind _ hx, isEscaped_of_numberedBind _ hy]
  written h h' := by
    unfold writtenName?
    rcases h.binds with ⟨hx, hy⟩ | ⟨base, k, hx, hy⟩ <;>
      rcases h'.binds with ⟨hx', hy'⟩ | ⟨base', k', hx', hy'⟩ <;> rw [hx, hy, hx', hy']
    · simp
    · simp
    · simpa [placeholderName_numberedBind] using
        NumberedAhead.iff halone ⟨base, k, rfl, rfl⟩ ⟨base', k', rfl, rfl⟩
  same h h' := by
    rcases h.binds with ⟨hx, hy⟩ | ⟨base, k, hx, hy⟩ <;>
      rcases h'.binds with ⟨hx', hy'⟩ | ⟨base', k', hx', hy'⟩ <;> rw [hx, hy, hx', hy']
    · simp
    · simp
    · rw [Option.some_inj, Option.some_inj, numberedBind_inj, numberedBind_inj]
      refine and_congr_right fun hbase => ?_
      rw [hbase]
      omega

/-! ### Naming -/

/-- Whether one naming is ahead of another, and no name is taken in either. -/
structure Naming.Ahead (ahead : String → Nat) (n m : Naming) : Prop where
  count : ∀ base, m.count base = n.count base + ahead base
  free : n.own = []
  free' : m.own = []

theorem Naming.Ahead.next {n m : Naming} (h : Naming.Ahead ahead n m) (base : String) :
    Naming.Ahead ahead (n.next base).2 (m.next base).2 where
  count other := by
    by_cases hbase : other = base
    · rw [hbase, count_next, count_next, h.count]
      omega
    · rw [count_next_of_ne hbase, count_next_of_ne hbase, h.count]
  free := by rw [own_next, h.free]
  free' := by rw [own_next, h.free']

variable {d : Dialect}

/-- **Counted pieces get the same names with the numbers ahead.** -/
theorem place_renumbered {ps : List Piece} (hps : ∀ p ∈ ps, p.IsCounted) {n m : Naming}
    (h : Naming.Ahead ahead n m) :
    Together (List.Forall₂ (NamedPart.Renumbered ahead))
      ((place d n ps).map ((bindNames n ps).zip ·))
      ((place d m ps).map ((bindNames m ps).zip ·)) := by
  induction ps generalizing n m with
  | nil => exact .ok .nil
  | cons p ps ih =>
      obtain ⟨hp, hrest⟩ := List.forall_mem_cons.mp hps
      -- One part in front of the rest, which is named as far ahead.
      have step : ∀ {n m : Naming} {x y : NamedPart}, NamedPart.Renumbered ahead x y →
          Naming.Ahead ahead n m → Together (List.Forall₂ (NamedPart.Renumbered ahead))
            (((place d n ps).map (x.2 :: ·)).map ((x.1 :: bindNames n ps).zip ·))
            (((place d m ps).map (y.2 :: ·)).map ((y.1 :: bindNames m ps).zip ·)) := by
        intro n m x y hxy hahead
        have hparts := ih hrest hahead
        rw [map_map, map_map]
        have hmap := hparts.map (f := (x :: ·)) (g := (y :: ·))
          (S := List.Forall₂ (NamedPart.Renumbered ahead)) fun _ _ => .cons hxy
        rw [map_map, map_map] at hmap
        exact hmap
      have hnumber : ∀ slot : Slot, m.count (countedName slot.name) + 1 =
          n.count (countedName slot.name) + 1 + ahead (countedName slot.name) := by
        intro slot
        rw [h.count]
        omega
      have hname : ∀ (slot : Slot) (k : Naming), slot.counted = true → slot.bindName k =
          (numberedBind (countedName slot.name) (k.count (countedName slot.name) + 1),
            (k.next (countedName slot.name)).2) := by
        intro slot k hslot
        rw [Slot.bindName, if_pos hslot, ← Naming.next_fst]
        rfl
      cases p with
      | text s => exact step (.text s) h
      | missing slot => exact step (.missing slot.name) h
      | name s =>
          rw [place, place]
          cases writeName d s with
          | error e => exact .error e
          | ok s => exact step (.text s) h
      | value slot v =>
          rw [place, place, placeholder_ok hp h.free, placeholder_ok hp h.free', bindNames,
            bindNames, hname slot n hp, hname slot m hp, hnumber]
          exact step (.value _ _ slot.type v) (h.next _)
      | members slot use vs =>
          rw [place, place, placeholder_ok hp h.free, placeholder_ok hp h.free', bindNames,
            bindNames, hname slot n hp, hname slot m hp, hnumber]
          exact step (.members _ _ slot.type use vs) (h.next _)

/-! ### Statements -/

theorem renderParts_renumbered (halone : WrittenAlone ahead) (report : Reporting)
    {xs ys : List NamedPart} (h : List.Forall₂ (NamedPart.Renumbered ahead) xs ys) :
    Together (Rendered.Alike d) (renderParts report d xs) (renderParts report d ys) := by
  have hnames := namedAlike_renumbered halone
  unfold renderParts
  rw [areMerged_rel hnames h,
    unlisted?_rel hnames (fun hxy hxy' hread => hxy.unlisted?_eq halone hxy' hread) h]
  split
  · exact .error _
  · rcases (expand_alike (NumberedAhead.iff halone)
      (served_rel hnames NamedPart.Renumbered.valuesAlike (fun hxy => hxy.renamed)
        (fun hxy hxy' => hxy.reading hxy') h)).cases with
      ⟨e, hx, hy⟩ | ⟨r, r', hx, hy, hr⟩
    · rw [hx, hy]
      exact .error _
    · rw [hx, hy]
      cases unlisted? d ys with
      | some name => exact .error _
      | none => exact .ok hr

/-- Whether what a driver receives differs in the names of placeholders alone. -/
structure Prepared.Alike (d : Dialect) (p p' : Prepared) : Prop where
  text : MarkedAlike d p.sql p'.sql
  rows : p.rows = p'.rows
  many : p.many = p'.many

/-- To a driver that knows positions there is no difference. -/
theorem Prepared.Alike.eq_of_isPositional {p p' : Prepared} (hd : d.isPositional)
    (h : p.Alike d p') : p = p' := by
  obtain ⟨sql, rows, many⟩ := p
  obtain ⟨sql', rows', many'⟩ := p'
  obtain ⟨htext, hrows, hmany⟩ := h
  exact congr (congrArg₂ Prepared.mk (htext.eq_of_isPositional hd) hrows) hmany

/-- **Counted pieces are prepared alike when their places are counted ahead**, where what is ahead
is written like no other name. -/
theorem prepareAfter_renumbered (halone : WrittenAlone ahead) {ps : List Piece}
    (hps : ∀ p ∈ ps, p.IsCounted) {n m : Naming} (h : Naming.Ahead ahead n m) :
    Together (Prepared.Alike d) (prepareAfter d n ps) (prepareAfter d m ps) := by
  rw [prepareAfter_eq, prepareAfter_eq]
  rcases (place_renumbered (d := d) hps h).of_map.cases with
    ⟨e, hx, hy⟩ | ⟨xs, ys, hx, hy, hparts⟩
  · rw [hx, hy]
    exact .error e
  · rw [hx, hy]
    dsimp only [Except.bind, prepareParts]
    rcases (renderParts_renumbered (d := d) halone whenRun hparts).cases with
      ⟨e, hr, hr'⟩ | ⟨r, r', hr, hr', halike⟩
    · rw [hr, hr']
      exact .error e
    · rw [hr, hr']
      dsimp only
      rw [storedAll_congr halike.bound]
      cases storedAll d r'.parameters with
      | error e => exact .error _
      | ok vs => exact .ok ⟨halike.text, rfl, rfl⟩

end Sql

end TableQuery
