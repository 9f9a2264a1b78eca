/-
Which bind a place reads.

The bind of a place is found by its written name, and that may be the bind of another place: one
whose name was changed, for a driver that knows placeholders by position (`readFor`), and the last
one for a driver that knows them by name (`readLast`).  `WrittenApart` says of names that no two of
them are written alike, and then every place reads its own bind (`readFor_of_apart`,
`readLast_of_apart`), so a statement whose places are named apart is rendered as its parts are
written (`renderAfter_of_apart`).

What holds of other statements too is that a place only ever reads a bind of the same written
name (`writtenName?_readFor`, `readLast_cases`), that names which stand as they are are in the way
of no other (`readFor_append`), and that what is read is found alike among parts that are alike
(`readFor_rel`, `readLast_rel`).
-/
import Mathlib.Data.List.Forall2
import TableQuery.Proofs.Results
import TableQuery.Sql.Piece

namespace TableQuery

namespace Sql

/-- Whether no two names are written alike. -/
def WrittenApart (names : List String) : Prop :=
  ∀ a ∈ names, ∀ b ∈ names, placeholderName a = placeholderName b → a = b

instance (names : List String) : Decidable (WrittenApart names) :=
  inferInstanceAs (Decidable (∀ _ ∈ _, _))

theorem WrittenApart.subset {names more : List String} (h : WrittenApart more)
    (hsub : names ⊆ more) : WrittenApart names :=
  fun a ha b hb => h a (hsub ha) b (hsub hb)

/-! ### Looking a bind up -/

section Reading

variable {α β : Type} {name? : α → Option String} {xs ys : List α} {x : α}

theorem isEscaped_iff :
    isEscaped name? x = true ↔ ∃ n, name? x = some n ∧ placeholderName n ≠ n := by
  unfold isEscaped
  cases name? x <;> simp

theorem isEscaped_of_none (h : name? x = none) : isEscaped name? x = false := by
  rw [isEscaped, h]
  rfl

/-- A place that reads another's bind stands as it is, and the other is written like it. -/
theorem readFor_cases (name? : α → Option String) (xs : List α) (x : α) :
    readFor name? xs x = x ∨ ∃ y ∈ xs, readFor name? xs x = y ∧ isEscaped name? x = false ∧
      isEscaped name? y = true ∧ writtenName? name? y = writtenName? name? x := by
  unfold readFor
  by_cases hx : isEscaped name? x = true
  · exact .inl (if_pos hx)
  · rw [if_neg hx]
    cases hfind : xs.find? (fun y =>
        isEscaped name? y && writtenName? name? y == writtenName? name? x) with
    | none => exact .inl rfl
    | some y =>
        have hy := List.find?_some hfind
        simp only [Bool.and_eq_true, beq_iff_eq] at hy
        exact .inr ⟨y, List.mem_of_find?_eq_some hfind, rfl, by simpa using hx, hy.1, hy.2⟩

/-- What a place may read: its own bind, or one whose name is changed and written like its own. -/
def MayRead (name? : α → Option String) (x y : α) : Prop :=
  y = x ∨ isEscaped name? x = false ∧ isEscaped name? y = true ∧
    writtenName? name? y = writtenName? name? x

theorem mayRead_readFor (name? : α → Option String) (xs : List α) (x : α) :
    MayRead name? x (readFor name? xs x) := by
  rcases readFor_cases name? xs x with hself | ⟨y, -, hread, hother⟩
  · exact .inl hself
  · rw [hread]
    exact .inr hother

/-- **A place only reads a bind of its written name.** -/
theorem writtenName?_readFor : writtenName? name? (readFor name? xs x) = writtenName? name? x := by
  rcases mayRead_readFor name? xs x with h | ⟨-, -, hwritten⟩
  · rw [h]
  · exact hwritten

/-- What is no place reads nothing else. -/
theorem readFor_of_none (h : name? x = none) : readFor name? xs x = x := by
  rcases readFor_cases name? xs x with hself | ⟨y, -, -, -, hy, hwritten⟩
  · exact hself
  · obtain ⟨n, hn, -⟩ := isEscaped_iff.mp hy
    simp [writtenName?, h, hn] at hwritten

/-- **Where no two names are written alike, every place reads its own bind.** -/
theorem readFor_of_apart (h : WrittenApart (xs.filterMap name?)) (hx : x ∈ xs) :
    readFor name? xs x = x := by
  rcases readFor_cases name? xs x with hself | ⟨y, hy, -, hplain, hescaped, hwritten⟩
  · exact hself
  · obtain ⟨n, hn, hchanged⟩ := isEscaped_iff.mp hescaped
    rw [writtenName?, writtenName?, hn] at hwritten
    obtain ⟨m, hm, hmn⟩ := Option.map_eq_some_iff.mp hwritten.symm
    have hsame : m = n := h m (List.mem_filterMap.mpr ⟨x, hx, hm⟩) n
      (List.mem_filterMap.mpr ⟨y, hy, hn⟩) hmn
    rw [isEscaped, hm, hsame] at hplain
    simp [hchanged] at hplain

/-- A place that reads the last bind of its name reads one that is written like its own. -/
theorem readLast_cases (name? : α → Option String) (xs : List α) (x : α) :
    readLast name? xs x = x ∨ ∃ y ∈ xs, readLast name? xs x = y ∧
      writtenName? name? y = writtenName? name? x ∧ name? y ≠ name? x := by
  unfold readLast
  cases hfind : xs.reverse.find? (fun y => writtenName? name? y == writtenName? name? x) with
  | none => exact .inl rfl
  | some y =>
      have hmem : y ∈ xs := List.mem_reverse.mp (List.mem_of_find?_eq_some hfind)
      have hwritten : writtenName? name? y = writtenName? name? x := by
        simpa using List.find?_some hfind
      dsimp only
      split
      · exact .inl rfl
      · rename_i hname
        exact .inr ⟨y, hmem, rfl, hwritten, hname⟩

/-- Where only binds of its own name are written like it, a place reads its own. -/
theorem readLast_of_same
    (h : ∀ y ∈ xs, writtenName? name? y = writtenName? name? x → name? y = name? x) :
    readLast name? xs x = x := by
  rcases readLast_cases name? xs x with hself | ⟨y, hy, -, hwritten, hname⟩
  · exact hself
  · exact absurd (h y hy hwritten) hname

theorem readLast_of_none (h : name? x = none) : readLast name? xs x = x := by
  refine readLast_of_same fun y _ hwritten => ?_
  rw [writtenName?, writtenName?, h] at hwritten
  rw [h, Option.map_eq_none_iff.mp hwritten]

/-- **Where no two names are written alike, every place reads its own bind**, and not a later
one. -/
theorem readLast_of_apart (h : WrittenApart (xs.filterMap name?)) (hx : x ∈ xs) :
    readLast name? xs x = x := by
  refine readLast_of_same fun y hy hwritten => ?_
  unfold writtenName? at hwritten
  cases hm : name? x with
  | none =>
      rw [hm] at hwritten
      exact Option.map_eq_none_iff.mp hwritten
  | some m =>
      rw [hm] at hwritten
      obtain ⟨n, hn, hnm⟩ := Option.map_eq_some_iff.mp hwritten
      rw [hn, h n (List.mem_filterMap.mpr ⟨y, hy, hn⟩) m (List.mem_filterMap.mpr ⟨x, hx, hm⟩) hnm]

/-- Where no two names are written alike, none are merged. -/
theorem areMerged_of_apart (h : WrittenApart (xs.filterMap name?)) :
    areMerged name? xs = false := by
  rw [areMerged, List.any_eq_false]
  intro x hx
  rw [List.any_eq_true]
  rintro ⟨y, hy, hxy⟩
  obtain ⟨hmem, hescaped⟩ := List.mem_filter.mp hx
  obtain ⟨hmem', hescaped'⟩ := List.mem_filter.mp hy
  obtain ⟨n, hn, -⟩ := isEscaped_iff.mp hescaped
  obtain ⟨m, hm, -⟩ := isEscaped_iff.mp hescaped'
  simp only [writtenName?, hn, hm, Option.map_some, Bool.and_eq_true, beq_iff_eq, bne_iff_ne,
    ne_eq, Option.some.injEq] at hxy
  exact hxy.2 (h n (List.mem_filterMap.mpr ⟨x, hmem, hn⟩) m
    (List.mem_filterMap.mpr ⟨y, hmem', hm⟩) hxy.1)

/-! ### Further places -/

theorem find?_isEscaped (hys : ∀ y ∈ ys, isEscaped name? y = false) (p : α → Bool) :
    ys.find? (fun y => isEscaped name? y && p y) = none := by
  rw [List.find?_eq_none]
  intro y hy
  simp [hys y hy]

/-- Places whose names stand as they are are read by no other. -/
theorem readFor_append (hys : ∀ y ∈ ys, isEscaped name? y = false) (x : α) :
    readFor name? (xs ++ ys) x = readFor name? xs x := by
  unfold readFor
  rw [List.find?_append, find?_isEscaped hys, Option.or_none]

theorem readFor_append_left (hys : ∀ y ∈ ys, isEscaped name? y = false) (x : α) :
    readFor name? (ys ++ xs) x = readFor name? xs x := by
  unfold readFor
  rw [List.find?_append, find?_isEscaped hys, Option.none_or]

/-- What has no name is read by no other. -/
theorem readLast_append_left (hys : ∀ y ∈ ys, name? y = none) (x : α) :
    readLast name? (ys ++ xs) x = readLast name? xs x := by
  cases hx : name? x with
  | none => rw [readLast_of_none hx, readLast_of_none hx]
  | some n =>
      have hnone : ys.reverse.find? (fun y => writtenName? name? y == writtenName? name? x) =
          none := by
        rw [List.find?_eq_none]
        intro y hy
        simp [writtenName?, hys y (List.mem_reverse.mp hy), hx]
      unfold readLast
      rw [List.reverse_append, List.find?_append, hnone, Option.or_none]

/-- Further places change nothing where only binds of one name are written like theirs. -/
theorem readLast_append
    (hys : ∀ y ∈ ys, ∀ z ∈ xs ++ ys, writtenName? name? z = writtenName? name? y →
      name? z = name? y) (hx : x ∈ xs) :
    readLast name? (xs ++ ys) x = readLast name? xs x := by
  by_cases hfound : ∃ y ∈ ys, writtenName? name? y = writtenName? name? x
  · obtain ⟨y, hy, hwritten⟩ := hfound
    have hname : name? x = name? y := hys y hy x (List.mem_append_left ys hx) hwritten.symm
    have hsame : ∀ z ∈ xs ++ ys, writtenName? name? z = writtenName? name? x →
        name? z = name? x := by
      intro z hz hzx
      rw [hname]
      exact hys y hy z hz (hzx.trans hwritten.symm)
    rw [readLast_of_same hsame, readLast_of_same fun z hz => hsame z (List.mem_append_left ys hz)]
  · have hnone : ys.reverse.find? (fun y => writtenName? name? y == writtenName? name? x) =
        none := by
      rw [List.find?_eq_none]
      intro y hy heq
      exact hfound ⟨y, List.mem_reverse.mp hy, by simpa using heq⟩
    unfold readLast
    rw [List.reverse_append, List.find?_append, hnone, Option.none_or]

theorem filter_isEscaped (hys : ∀ y ∈ ys, isEscaped name? y = false) :
    ys.filter (isEscaped name?) = [] := by
  rw [List.filter_eq_nil_iff]
  intro y hy
  simp [hys y hy]

theorem areMerged_append (hys : ∀ y ∈ ys, isEscaped name? y = false) :
    areMerged name? (xs ++ ys) = areMerged name? xs := by
  rw [areMerged, areMerged, List.filter_append, filter_isEscaped hys, List.append_nil]

theorem areMerged_append_left (hys : ∀ y ∈ ys, isEscaped name? y = false) :
    areMerged name? (ys ++ xs) = areMerged name? xs := by
  rw [areMerged, areMerged, List.filter_append, filter_isEscaped hys, List.nil_append]

/-! ### Places that are alike -/

variable {other? : β → Option String} {R : α → β → Prop}

/-- Whether things that are related are named alike: the names of one kind are changed when they
are written, are written the same, and are the same, where those of the other kind are. -/
structure NamedAlike (name? : α → Option String) (other? : β → Option String)
    (R : α → β → Prop) : Prop where
  unnamed : ∀ {u v}, R u v → (name? u = none ↔ other? v = none)
  escaped : ∀ {u v}, R u v → isEscaped name? u = isEscaped other? v
  written : ∀ {u v u' v'}, R u v → R u' v' →
    (writtenName? name? u = writtenName? name? u' ↔ writtenName? other? v = writtenName? other? v')
  same : ∀ {u v u' v'}, R u v → R u' v' → (name? u = name? u' ↔ other? v = other? v')

/-- Things of the same names are named alike. -/
theorem NamedAlike.of_eq (h : ∀ u v, R u v → name? u = other? v) : NamedAlike name? other? R where
  unnamed huv := by rw [h _ _ huv]
  escaped huv := by rw [isEscaped, isEscaped, h _ _ huv]
  written huv huv' := by rw [writtenName?, writtenName?, writtenName?, writtenName?, h _ _ huv,
    h _ _ huv']
  same huv huv' := by rw [h _ _ huv, h _ _ huv']

variable {us : List α} {vs : List β}

/-- **What is read is found alike among things that are named alike.** -/
theorem readFor_rel (hnames : NamedAlike name? other? R) (h : List.Forall₂ R us vs) {u : α} {v : β}
    (huv : R u v) : R (readFor name? us u) (readFor other? vs v) := by
  unfold readFor
  rw [hnames.escaped huv]
  split
  · exact huv
  · induction h with
    | nil => exact huv
    | @cons a b _ _ hhead _ ih =>
        have hwritten : (writtenName? name? a == writtenName? name? u) =
            (writtenName? other? b == writtenName? other? v) := by
          rw [Bool.eq_iff_iff, beq_iff_eq, beq_iff_eq]
          exact hnames.written hhead huv
        rw [List.find?_cons, List.find?_cons, hnames.escaped hhead, hwritten]
        split
        · exact hhead
        · exact ih

/-- The last one is found alike too. -/
theorem readLast_rel (hnames : NamedAlike name? other? R) (h : List.Forall₂ R us vs) {u : α} {v : β}
    (huv : R u v) : R (readLast name? us u) (readLast other? vs v) := by
  have hreverse := List.forall₂_reverse_iff.mpr h
  unfold readLast
  generalize us.reverse = us' at hreverse ⊢
  generalize vs.reverse = vs' at hreverse ⊢
  induction hreverse with
  | nil => exact huv
  | @cons a b _ _ hhead _ ih =>
      have hwritten : (writtenName? name? a == writtenName? name? u) =
          (writtenName? other? b == writtenName? other? v) := by
        rw [Bool.eq_iff_iff, beq_iff_eq, beq_iff_eq]
        exact hnames.written hhead huv
      rw [List.find?_cons, List.find?_cons, hwritten]
      cases writtenName? other? b == writtenName? other? v with
      | false => exact ih
      | true =>
          dsimp only
          by_cases hsame : name? a = name? u
          · rw [if_pos hsame, if_pos ((hnames.same hhead huv).mp hsame)]
            exact huv
          · rw [if_neg hsame, if_neg (mt (hnames.same hhead huv).mpr hsame)]
            exact hhead

theorem areMerged_rel (hnames : NamedAlike name? other? R) (h : List.Forall₂ R us vs) :
    areMerged name? us = areMerged other? vs := by
  have hfilter : List.Forall₂ R (us.filter (isEscaped name?)) (vs.filter (isEscaped other?)) := by
    induction h with
    | nil => exact .nil
    | cons hhead _ ih =>
        rw [List.filter_cons, List.filter_cons, hnames.escaped hhead]
        split
        · exact .cons hhead ih
        · exact ih
  have hany : ∀ {us : List α} {vs : List β} {p : α → Bool} {q : β → Bool},
      List.Forall₂ R us vs → (∀ u v, R u v → p u = q v) → us.any p = vs.any q := by
    intro us vs p q h hpq
    induction h with
    | nil => rfl
    | cons hhead _ ih => rw [List.any_cons, List.any_cons, hpq _ _ hhead, ih]
  refine hany hfilter fun u v huv => hany hfilter fun u' v' huv' => ?_
  rw [Bool.eq_iff_iff]
  simp only [Bool.and_eq_true, beq_iff_eq, bne_iff_ne, ne_eq, hnames.written huv huv',
    hnames.same huv huv']

end Reading

/-! ### The parts of a statement -/

variable {d : Dialect} {n m : Naming} {ps : List Piece} {xs : List Placed}

/-- The names of the binds that stand in pieces. -/
def placeNames (n : Naming) (ps : List Piece) : List String := (bindNames n ps).filterMap id

/-- What has been named once the binds of some pieces are. -/
def Naming.after (n : Naming) : List Piece → Naming
  | [] => n
  | .value slot _ :: ps | .members slot _ _ :: ps => (slot.bindName n).2.after ps
  | .text _ :: ps | .name _ :: ps | .missing _ :: ps => n.after ps

theorem bindNames_append (n : Naming) (ps qs : List Piece) :
    bindNames n (ps ++ qs) = bindNames n ps ++ bindNames (n.after ps) qs := by
  induction ps generalizing n with
  | nil => rfl
  | cons p ps ih =>
      cases p with
      | text s | name s | missing slot => exact congrArg (none :: ·) (ih n)
      | value slot v | members slot use vs => exact congrArg (some _ :: ·) (ih _)

theorem placeNames_append (n : Naming) (ps qs : List Piece) :
    placeNames n (ps ++ qs) = placeNames n ps ++ placeNames (n.after ps) qs := by
  rw [placeNames, bindNames_append, List.filterMap_append]
  rfl

/-- The names of binds depend on what has been counted, and not on what is taken. -/
theorem bindNames_congr (h : n.counts = m.counts) (ps : List Piece) :
    bindNames n ps = bindNames m ps := by
  have hslot : ∀ {n m : Naming} (slot : Slot), n.counts = m.counts →
      (slot.bindName n).1 = (slot.bindName m).1 ∧
        (slot.bindName n).2.counts = (slot.bindName m).2.counts := by
    intro n m slot h
    have hnext : (n.next (countedName slot.name)).1 = (m.next (countedName slot.name)).1 ∧
        (n.next (countedName slot.name)).2.counts = (m.next (countedName slot.name)).2.counts := by
      unfold Naming.next
      rw [h]
      cases m.counts.lookup (countedName slot.name) <;> exact ⟨rfl, rfl⟩
    unfold Slot.bindName
    split
    · exact ⟨congrArg (countedName slot.name ++ "_" ++ toString ·) hnext.1, hnext.2⟩
    · exact ⟨rfl, h⟩
  induction ps generalizing n m with
  | nil => rfl
  | cons p ps ih =>
      cases p with
      | text s | name s | missing slot => exact congrArg (none :: ·) (ih h)
      | value slot v | members slot use vs =>
          obtain ⟨hname, hafter⟩ := hslot slot h
          show some (slot.bindName n).1 :: bindNames (slot.bindName n).2 ps =
            some (slot.bindName m).1 :: bindNames (slot.bindName m).2 ps
          rw [hname, ih hafter]

/-- A placeholder is the name of its bind as written. -/
theorem bindName_of_placeholder {s : Slot} {name : String}
    (h : s.placeholder n = .ok (name, m)) :
    name = placeholderName (s.bindName n).1 ∧ m = (s.bindName n).2 := by
  unfold Slot.placeholder at h
  dsimp only at h
  split at h
  · cases h
  · cases h
    exact ⟨rfl, rfl⟩

/-- Every part is what one piece is placed as, and a place has the name of its bind. -/
theorem names_of_place (h : place d n ps = .ok xs) :
    xs.map Placed.name? = (bindNames n ps).map (Option.map placeholderName) := by
  induction ps generalizing n xs with
  | nil =>
      cases h
      rfl
  | cons p ps ih =>
      cases p with
      | text s | missing slot =>
          obtain ⟨rest, hrest, rfl⟩ := map_eq_ok.mp h
          rw [List.map_cons, ih hrest]
          rfl
      | name s =>
          rw [place] at h
          split at h
          · cases h
          · obtain ⟨rest, hrest, rfl⟩ := map_eq_ok.mp h
            rw [List.map_cons, ih hrest]
            rfl
      | value slot v | members slot use vs =>
          rw [place] at h
          split at h
          · cases h
          · rename_i name after hname
            obtain ⟨rfl, rfl⟩ := bindName_of_placeholder hname
            obtain ⟨rest, hrest, rfl⟩ := map_eq_ok.mp h
            rw [List.map_cons, ih hrest]
            rfl

/-- What holds of the parts of every piece holds of all parts. -/
theorem forall_mem_of_place {P : Placed → Prop} (htext : ∀ s, P (.text s))
    (hmissing : ∀ name, P (.missing name)) (hvalue : ∀ p, P (.value p))
    (hmembers : ∀ slot use vs, .members slot use vs ∈ ps →
      ∀ name, P (.members name slot.type use vs))
    (h : place d n ps = .ok xs) : ∀ x ∈ xs, P x := by
  induction ps generalizing n xs with
  | nil =>
      cases h
      simp
  | cons p ps ih =>
      have step : ∀ {m : Naming} (x : Placed), P x →
          (place d m ps).map (x :: ·) = .ok xs → ∀ x ∈ xs, P x := by
        intro m x hx hplace
        obtain ⟨rest, hrest, rfl⟩ := map_eq_ok.mp hplace
        refine List.forall_mem_cons.mpr ⟨hx, ih (fun slot use vs hmem => ?_) hrest⟩
        exact hmembers slot use vs (List.mem_cons_of_mem p hmem)
      cases p with
      | text s => exact step _ (htext s) h
      | missing slot => exact step _ (hmissing slot.name) h
      | name s =>
          rw [place] at h
          split at h
          · cases h
          · exact step _ (htext _) h
      | value slot v =>
          rw [place] at h
          split at h
          · cases h
          · exact step _ (hvalue _) h
      | members slot use vs =>
          rw [place] at h
          split at h
          · cases h
          · exact step _ (hmembers slot use vs List.mem_cons_self _) h

theorem length_of_place (h : place d n ps = .ok xs) : (bindNames n ps).length = xs.length := by
  have hlengths := congrArg List.length (names_of_place h)
  simpa using hlengths.symm

theorem map_fst_of_place (h : place d n ps = .ok xs) :
    ((bindNames n ps).zip xs).map Prod.fst = bindNames n ps :=
  List.map_fst_zip (Nat.le_of_eq (length_of_place h))

theorem map_snd_of_place (h : place d n ps = .ok xs) :
    ((bindNames n ps).zip xs).map Prod.snd = xs :=
  List.map_snd_zip (Nat.le_of_eq (length_of_place h).symm)

theorem filterMap_fst_of_place (h : place d n ps = .ok xs) :
    ((bindNames n ps).zip xs).filterMap Prod.fst = placeNames n ps := by
  have hfilter := congrArg (List.filterMap id) (map_fst_of_place h)
  rw [List.filterMap_map] at hfilter
  exact hfilter

theorem name?_of_place (h : place d n ps = .ok xs) :
    ∀ x ∈ (bindNames n ps).zip xs, x.2.name? = x.1.map placeholderName := by
  have hzip : ((bindNames n ps).zip xs).map (fun x => x.2.name?) =
      ((bindNames n ps).zip xs).map (fun x => x.1.map placeholderName) := by
    have hsecond := congrArg (List.map Placed.name?) (map_snd_of_place h)
    have hfirst := congrArg (List.map (Option.map placeholderName)) (map_fst_of_place h)
    rw [List.map_map] at hsecond hfirst
    exact hsecond.trans ((names_of_place h).trans hfirst.symm)
  exact List.map_inj_left.mp hzip

theorem Placed.reading_self (x : Placed) : x.reading x = x := by cases x <;> rfl

theorem Placed.unlisted?_self (x : Placed) : x.unlisted? x = none := by cases x <;> rfl

/-! ### Values that are known by name -/

theorem NamedPart.valueName?_eq_none {x : NamedPart} (h : x.1 = none) : x.valueName? = none := by
  obtain ⟨name, part⟩ := x
  cases part <;> first | exact h | rfl

theorem NamedPart.fst_of_valueName? {x : NamedPart} {n : String} (h : x.valueName? = some n) :
    x.1 = some n := by
  obtain ⟨name, part⟩ := x
  cases part <;> first | exact h | cases h

theorem NamedPart.writtenName?_fst {x y : NamedPart} (hx : x.valueName? ≠ none)
    (h : writtenName? valueName? y = writtenName? valueName? x) :
    writtenName? Prod.fst y = writtenName? Prod.fst x := by
  obtain ⟨n, hn⟩ := Option.ne_none_iff_exists'.mp hx
  unfold writtenName? at h ⊢
  rw [hn] at h
  obtain ⟨m, hm, hwritten⟩ := Option.map_eq_some_iff.mp h
  rw [fst_of_valueName? hn, fst_of_valueName? hm, Option.map_some, Option.map_some, hwritten]

theorem NamedPart.value_of_valueName? {x : NamedPart} {n : String} (h : x.valueName? = some n) :
    ∃ p, x.2 = .value p := by
  obtain ⟨name, part⟩ := x
  cases part with
  | text | members | spread | missing => cases h
  | value p => exact ⟨p, rfl⟩

/-- **A part reads itself, or a single value another one** that is written like it. -/
theorem readLast_valueName? {xs : List NamedPart} {x : NamedPart} (hx : x ∈ xs) :
    let y := readLast NamedPart.valueName? xs x
    y ∈ xs ∧ x.2.reading y.2 = y.2 ∧ x.2.unlisted? y.2 = none ∧
      writtenName? Prod.fst y = writtenName? Prod.fst x := by
  intro y
  have hself : y = x → y ∈ xs ∧ x.2.reading y.2 = y.2 ∧ x.2.unlisted? y.2 = none ∧
      writtenName? Prod.fst y = writtenName? Prod.fst x := by
    intro h
    rw [h]
    exact ⟨hx, x.2.reading_self, x.2.unlisted?_self, rfl⟩
  cases hname : x.valueName? with
  | none => exact hself (readLast_of_none hname)
  | some n =>
      rcases readLast_cases NamedPart.valueName? xs x with h | ⟨z, hz, hread, hwritten, -⟩
      · exact hself h
      · have hfst := NamedPart.writtenName?_fst (by simp [hname]) hwritten
        rw [writtenName?, writtenName?, hname] at hwritten
        obtain ⟨m, hm, -⟩ := Option.map_eq_some_iff.mp hwritten
        obtain ⟨p, hp⟩ := NamedPart.value_of_valueName? hname
        obtain ⟨q, hq⟩ := NamedPart.value_of_valueName? hm
        obtain rfl : y = z := hread
        exact ⟨hz, by rw [hp, hq]; rfl, by rw [hp, hq]; rfl, hfst⟩

/-- Whether of related parts both or neither are places of single values. -/
def ValuesAlike (R : NamedPart → NamedPart → Prop) : Prop :=
  ∀ x y, R x y →
    x.valueName? = x.1 ∧ y.valueName? = y.1 ∨ x.valueName? = none ∧ y.valueName? = none

/-- Parts that are named alike have values that are. -/
theorem NamedAlike.values {R : NamedPart → NamedPart → Prop}
    (h : NamedAlike Prod.fst Prod.fst R) (hvalues : ValuesAlike R) :
    NamedAlike NamedPart.valueName? NamedPart.valueName? R where
  unnamed huv := by
    rcases hvalues _ _ huv with ⟨hu, hv⟩ | ⟨hu, hv⟩
    · rw [hu, hv]
      exact h.unnamed huv
    · rw [hu, hv]
  escaped huv := by
    unfold isEscaped
    rcases hvalues _ _ huv with ⟨hu, hv⟩ | ⟨hu, hv⟩
    · rw [hu, hv]
      exact h.escaped huv
    · rw [hu, hv]
  written huv huv' := by
    unfold writtenName?
    rcases hvalues _ _ huv with ⟨hu, hv⟩ | ⟨hu, hv⟩ <;>
      rcases hvalues _ _ huv' with ⟨hu', hv'⟩ | ⟨hu', hv'⟩ <;> rw [hu, hv, hu', hv']
    · exact h.written huv huv'
    · simpa using h.unnamed huv
    · simpa [eq_comm] using h.unnamed huv'
  same huv huv' := by
    rcases hvalues _ _ huv with ⟨hu, hv⟩ | ⟨hu, hv⟩ <;>
      rcases hvalues _ _ huv' with ⟨hu', hv'⟩ | ⟨hu', hv'⟩ <;> rw [hu, hv, hu', hv']
    · exact h.same huv huv'
    · exact h.unnamed huv
    · simpa [eq_comm] using h.unnamed huv'

/-! ### What is served -/

/-- Each place of a statement reads some bind of its written name. -/
theorem exists_read (d : Dialect) (xs : List NamedPart) :
    ∃ read : NamedPart → NamedPart, served d xs = xs.map (fun x => x.2.reading (read x).2) ∧
      unlisted? d xs = xs.findSome? (fun x => x.2.unlisted? (read x).2) ∧
      ∀ x ∈ xs, read x ∈ xs ∧ writtenName? Prod.fst (read x) = writtenName? Prod.fst x ∧
        (x.1 = none → read x = x) := by
  by_cases hd : d.isPositional
  · refine ⟨readFor Prod.fst xs, if_pos hd, if_pos hd, fun x hx =>
      ⟨?_, writtenName?_readFor, readFor_of_none⟩⟩
    rcases readFor_cases Prod.fst xs x with hself | ⟨y, hy, hread, -⟩
    · rwa [hself]
    · rwa [hread]
  · refine ⟨readLast NamedPart.valueName? xs, ?_, ?_, fun x hx => ?_⟩
    · rw [served, if_neg hd]
      exact List.map_congr_left fun x hx => (readLast_valueName? hx).2.1.symm
    · rw [unlisted?, if_neg hd, eq_comm, List.findSome?_eq_none_iff]
      exact fun x hx => (readLast_valueName? hx).2.2.1
    · obtain ⟨hmem, -, -, hwritten⟩ := readLast_valueName? hx
      exact ⟨hmem, hwritten,
        fun hnone => readLast_of_none (NamedPart.valueName?_eq_none hnone)⟩

/-- What holds of all parts holds of all that are served to a driver that knows names. -/
theorem forall_mem_served_of_named (hd : ¬d.isPositional) {P : Placed → Prop}
    {xs : List NamedPart} (h : ∀ x ∈ xs, P x.2) : ∀ x ∈ served d xs, P x := by
  rw [served, if_neg hd, List.forall_mem_map]
  exact fun x hx => h _ (readLast_valueName? hx).1

/-- What is served is alike for parts that are named alike. -/
theorem served_rel {R : NamedPart → NamedPart → Prop} {P : Placed → Placed → Prop}
    (hnames : NamedAlike Prod.fst Prod.fst R) (hvalues : ValuesAlike R)
    (hself : ∀ {x y}, R x y → P x.2 y.2)
    (hread : ∀ {x y x' y'}, R x y → R x' y' → P (x.2.reading x'.2) (y.2.reading y'.2))
    {xs ys : List NamedPart} (h : List.Forall₂ R xs ys) :
    List.Forall₂ P (served d xs) (served d ys) := by
  unfold served
  split
  · rw [List.forall₂_map_left_iff, List.forall₂_map_right_iff]
    exact h.imp fun x y hxy => hread hxy (readFor_rel hnames h hxy)
  · rw [List.forall₂_map_left_iff, List.forall₂_map_right_iff]
    exact h.imp fun x y hxy => hself (readLast_rel (hnames.values hvalues) h hxy)

theorem unlisted?_rel {R : NamedPart → NamedPart → Prop} (hnames : NamedAlike Prod.fst Prod.fst R)
    (hread : ∀ {x y x' y'}, R x y → R x' y' → MayRead Prod.fst x x' →
      x.2.unlisted? x'.2 = y.2.unlisted? y'.2)
    {xs ys : List NamedPart} (h : List.Forall₂ R xs ys) : unlisted? d xs = unlisted? d ys := by
  unfold unlisted?
  split
  · have hsame : ∀ {us vs : List NamedPart}, List.Forall₂ R us vs →
        us.findSome? (fun x => x.2.unlisted? (readFor Prod.fst xs x).2) =
          vs.findSome? (fun y => y.2.unlisted? (readFor Prod.fst ys y).2) := by
      intro us vs huv
      induction huv with
      | nil => rfl
      | cons hhead _ ih =>
          rw [List.findSome?_cons, List.findSome?_cons,
            hread hhead (readFor_rel hnames h hhead) (mayRead_readFor _ _ _), ih]
    exact hsame h
  · rfl

/-! ### Further parts -/

/-- Words in front of parts change nothing about what these read. -/
theorem served_append_left {hs xs : List NamedPart} (hhs : ∀ x ∈ hs, x.1 = none) :
    served d (hs ++ xs) = hs.map Prod.snd ++ served d xs := by
  have hplain : ∀ x ∈ hs, isEscaped Prod.fst x = false := fun x hx => isEscaped_of_none (hhs x hx)
  have hvalueless : ∀ x ∈ hs, x.valueName? = none := fun x hx =>
    NamedPart.valueName?_eq_none (hhs x hx)
  unfold served
  split
  · rw [List.map_append]
    refine congrArg₂ (· ++ ·) (List.map_congr_left fun x hx => ?_)
      (List.map_congr_left fun x _ => ?_)
    · rw [readFor_of_none (hhs x hx), Placed.reading_self]
    · rw [readFor_append_left hplain]
  · rw [List.map_append]
    refine congrArg₂ (· ++ ·) (List.map_congr_left fun x hx => ?_)
      (List.map_congr_left fun x _ => ?_)
    · rw [readLast_of_none (hvalueless x hx)]
    · rw [readLast_append_left hvalueless]

theorem unlisted?_append_left {hs xs : List NamedPart} (hhs : ∀ x ∈ hs, x.1 = none) :
    unlisted? d (hs ++ xs) = unlisted? d xs := by
  have hplain : ∀ x ∈ hs, isEscaped Prod.fst x = false := fun x hx => isEscaped_of_none (hhs x hx)
  unfold unlisted?
  split
  · have hwords : hs.findSome? (fun x => x.2.unlisted? (readFor Prod.fst (hs ++ xs) x).2) = none :=
      List.findSome?_eq_none_iff.mpr fun x hx => by
        rw [readFor_of_none (hhs x hx), Placed.unlisted?_self]
    rw [List.findSome?_append, hwords, Option.none_or]
    simp only [readFor_append_left hplain]
  · rfl

/-- Whether the places of further parts neither are read by others nor read others. -/
def AreApart (xs ys : List NamedPart) : Prop :=
  ∀ y ∈ ys, isEscaped Prod.fst y = false ∧ readFor Prod.fst xs y = y

/-- Only binds of its own name are written like such a place. -/
theorem AreApart.fst_eq {xs ys : List NamedPart} (h : AreApart xs ys) {y z : NamedPart}
    (hy : y ∈ ys) (hz : z ∈ xs ++ ys)
    (hwritten : writtenName? Prod.fst z = writtenName? Prod.fst y) : z.1 = y.1 := by
  have hplain : ∀ x : NamedPart, isEscaped Prod.fst x = false → writtenName? Prod.fst x = x.1 := by
    intro x hx
    unfold isEscaped at hx
    unfold writtenName?
    cases hname : x.1 with
    | none => rfl
    | some n => simpa [hname] using hx
  obtain ⟨hy', hself⟩ := h y hy
  have hz' : isEscaped Prod.fst z = false := by
    rcases List.mem_append.mp hz with hz | hz
    · -- A bind that is escaped would be read in the place of `y`, which is not.
      by_contra hescaped
      cases hfind : xs.find? (fun x =>
          isEscaped Prod.fst x && writtenName? Prod.fst x == writtenName? Prod.fst y) with
      | none =>
          have hno := List.find?_eq_none.mp hfind z hz
          simp [hwritten] at hno
          exact hescaped hno
      | some x =>
          rw [readFor, hy', if_neg (by simp), hfind, Option.getD_some] at hself
          have hboth := List.find?_some hfind
          rw [hself, hy', Bool.false_and] at hboth
          cases hboth
    · exact (h z hz).1
  rw [← hplain z hz', hwritten, hplain y hy']

theorem AreApart.valueName?_eq {xs ys : List NamedPart} (h : AreApart xs ys) :
    ∀ y ∈ ys, ∀ z ∈ xs ++ ys,
      writtenName? NamedPart.valueName? z = writtenName? NamedPart.valueName? y →
        z.valueName? = y.valueName? := by
  intro y hy z hz hwritten
  cases hname : y.valueName? with
  | none =>
      rw [writtenName?, writtenName?, hname] at hwritten
      exact Option.map_eq_none_iff.mp hwritten
  | some n =>
      have hfst := h.fst_eq hy hz (NamedPart.writtenName?_fst (by simp [hname]) hwritten)
      rw [writtenName?, writtenName?, hname] at hwritten
      obtain ⟨m, hm, -⟩ := Option.map_eq_some_iff.mp hwritten
      rw [hm, ← NamedPart.fst_of_valueName? hm, hfst, NamedPart.fst_of_valueName? hname]

theorem served_append {xs ys : List NamedPart} (h : AreApart xs ys) :
    served d (xs ++ ys) = served d xs ++ ys.map Prod.snd := by
  have hplain := fun y hy => (h y hy).1
  unfold served
  split
  · rw [List.map_append]
    refine congrArg₂ (· ++ ·) (List.map_congr_left fun x _ => ?_)
      (List.map_congr_left fun y hy => ?_)
    · rw [readFor_append hplain]
    · rw [readFor_append hplain, (h y hy).2, Placed.reading_self]
  · rw [List.map_append]
    refine congrArg₂ (· ++ ·) (List.map_congr_left fun x hx => ?_)
      (List.map_congr_left fun y hy => ?_)
    · rw [readLast_append h.valueName?_eq hx]
    · rw [readLast_of_same (h.valueName?_eq y hy)]

theorem unlisted?_append {xs ys : List NamedPart} (h : AreApart xs ys) :
    unlisted? d (xs ++ ys) = unlisted? d xs := by
  have hplain := fun y hy => (h y hy).1
  unfold unlisted?
  split
  · have hrest : ys.findSome? (fun y => y.2.unlisted? (readFor Prod.fst (xs ++ ys) y).2) = none :=
      List.findSome?_eq_none_iff.mpr fun y hy => by
        rw [readFor_append hplain, (h y hy).2, Placed.unlisted?_self]
    rw [List.findSome?_append, hrest, Option.or_none]
    simp only [readFor_append hplain]
  · rfl

/-! ### Places that read their own binds -/

theorem served_of_apart {xs : List NamedPart} (h : WrittenApart (xs.filterMap Prod.fst)) :
    served d xs = xs.map Prod.snd := by
  have hvalues : WrittenApart (xs.filterMap NamedPart.valueName?) := by
    refine h.subset fun n hn => ?_
    obtain ⟨x, hx, hname⟩ := List.mem_filterMap.mp hn
    exact List.mem_filterMap.mpr ⟨x, hx, NamedPart.fst_of_valueName? hname⟩
  unfold served
  split
  · refine List.map_congr_left fun x hx => ?_
    rw [readFor_of_apart h hx, Placed.reading_self]
  · refine List.map_congr_left fun x hx => ?_
    rw [readLast_of_apart hvalues hx]

theorem unlisted?_of_apart {xs : List NamedPart} (h : WrittenApart (xs.filterMap Prod.fst)) :
    unlisted? d xs = none := by
  unfold unlisted?
  split
  · rw [List.findSome?_eq_none_iff]
    intro x hx
    rw [readFor_of_apart h hx, Placed.unlisted?_self]
  · rfl

/-- **A statement whose places are named apart is rendered as its parts are written.** -/
theorem renderAfter_of_apart (report : Reporting) (h : WrittenApart (placeNames n ps)) :
    renderAfter report d n ps =
      (place d n ps).bind (fun xs => (expand d xs).mapError report.parameter) := by
  unfold renderAfter
  cases hplace : place d n ps with
  | error e => rfl
  | ok xs =>
      rw [← filterMap_fst_of_place hplace] at h
      have hmerged : ¬(d.isPositional ∧ areMerged Prod.fst ((bindNames n ps).zip xs)) := by
        rintro ⟨-, hmerged⟩
        rw [areMerged_of_apart h] at hmerged
        cases hmerged
      dsimp only [Except.bind]
      rw [renderParts, if_neg hmerged, served_of_apart h, unlisted?_of_apart h,
        map_snd_of_place hplace]
      cases expand d xs <;> rfl

end Sql

end TableQuery
