/-
The text of a statement, piece by piece.

`place` and `stretches` pass a state from left to right, so what a piece is written as
can depend on the pieces before it: a counted name goes up, and a member of a list avoids
the names that are taken.  The text of a whole is still the texts of its parts one after
another.  `Writes` says that a text is what some pieces become at some point of a
statement, and `prepareOne_append` cuts the text of a statement wherever its pieces are
cut.
-/
import TableQuery.Proofs.Sql.Serving
import TableQuery.Sql.Prepared

namespace TableQuery

namespace Sql

variable {d : Dialect}

/-- Whether a text is what pieces become somewhere in a statement, whatever has been
named and written before them. -/
def Writes (d : Dialect) (ps : List Piece) (text : String) : Prop :=
  ∃ naming placed taken written rs, place d naming ps = .ok placed
    ∧ stretches d taken written placed = .ok rs ∧ text = String.join (rs.map (·.sql))

theorem place_append {n : Naming} {ps qs : List Piece} {placed : List Placed}
    (h : place d n (ps ++ qs) = .ok placed) :
    ∃ m xs ys, place d n ps = .ok xs ∧ place d m qs = .ok ys ∧ placed = xs ++ ys := by
  induction ps generalizing n placed with
  | nil => exact ⟨n, [], placed, rfl, h, rfl⟩
  | cons p ps ih =>
      -- Every kind of piece adds one part in front of what the rest is placed as.
      have step : ∀ {m : Naming} {x : Placed},
          (place d m (ps ++ qs)).map (x :: ·) = .ok placed →
          ∃ m' xs ys, (place d m ps).map (x :: ·) = .ok xs ∧ place d m' qs = .ok ys
            ∧ placed = xs ++ ys := by
        intro m x hx
        obtain ⟨rest, hrest, rfl⟩ := map_eq_ok.mp hx
        obtain ⟨m', xs, ys, hxs, hys, rfl⟩ := ih hrest
        exact ⟨m', x :: xs, ys, by rw [hxs]; rfl, hys, rfl⟩
      cases p with
      | text s => exact step h
      | missing slot => exact step h
      | name s =>
          simp only [List.cons_append, place] at h ⊢
          split at h
          · simp at h
          · exact step h
      | value slot v =>
          simp only [List.cons_append, place] at h ⊢
          split at h
          · simp at h
          · exact step h
      | members slot use vs =>
          simp only [List.cons_append, place] at h ⊢
          split at h
          · simp at h
          · exact step h

theorem stretches_append {taken : List String} {written : List (String × Rendered)}
    {xs ys : List Placed} {rs : List Rendered}
    (h : stretches d taken written (xs ++ ys) = .ok rs) :
    ∃ written' as bs, stretches d taken written xs = .ok as
      ∧ stretches d taken written' ys = .ok bs ∧ rs = as ++ bs := by
  induction xs generalizing written rs with
  | nil => exact ⟨written, [], rs, by rw [stretches], h, rfl⟩
  | cons x xs ih =>
      have step : ∀ {w : List (String × Rendered)} {r : Rendered},
          (stretches d taken w (xs ++ ys)).map (r :: ·) = .ok rs →
          ∃ w' as bs, (stretches d taken w xs).map (r :: ·) = .ok as
            ∧ stretches d taken w' ys = .ok bs ∧ rs = as ++ bs := by
        intro w r hr
        obtain ⟨rest, hrest, rfl⟩ := map_eq_ok.mp hr
        obtain ⟨w', as, bs, has, hbs, rfl⟩ := ih hrest
        exact ⟨w', r :: as, bs, by rw [has]; rfl, hbs, rfl⟩
      cases x with
      | text s =>
          simp only [List.cons_append, stretches] at h ⊢
          exact step h
      | value p =>
          simp only [List.cons_append, stretches] at h ⊢
          exact step h
      | missing name => simp [stretches] at h
      | spread name type vs =>
          simp only [List.cons_append, stretches] at h ⊢
          split at h
          · simp at h
          · exact step h
      | members name type use vs =>
          simp only [List.cons_append, stretches] at h ⊢
          split at h
          · exact step h
          · split at h
            · simp at h
            · exact step h

theorem Writes.text_cons {s text : String} {ps : List Piece} (h : Writes d (.text s :: ps) text) :
    ∃ rest, text = s ++ rest ∧ Writes d ps rest := by
  obtain ⟨naming, placed, taken, written, rs, hplaced, hrs, rfl⟩ := h
  rw [place] at hplaced
  obtain ⟨tail, htail, rfl⟩ := map_eq_ok.mp hplaced
  rw [stretches] at hrs
  obtain ⟨rest, hrest, rfl⟩ := map_eq_ok.mp hrs
  exact ⟨_, by simp, naming, tail, taken, written, rest, htail, hrest, rfl⟩

theorem Writes.append {text : String} {ps qs : List Piece} (h : Writes d (ps ++ qs) text) :
    ∃ a b, text = a ++ b ∧ Writes d ps a ∧ Writes d qs b := by
  obtain ⟨naming, placed, taken, written, rs, hplaced, hrs, rfl⟩ := h
  obtain ⟨m, xs, ys, hxs, hys, rfl⟩ := place_append hplaced
  obtain ⟨written', as, bs, has, hbs, rfl⟩ := stretches_append hrs
  exact ⟨_, _, by rw [List.map_append, String.join_append],
    ⟨naming, xs, taken, written, as, hxs, has, rfl⟩,
    ⟨m, ys, taken, written', bs, hys, hbs, rfl⟩⟩

theorem Writes.nil {text : String} (h : Writes d [] text) : text = "" := by
  obtain ⟨naming, placed, taken, written, rs, hplaced, hrs, rfl⟩ := h
  obtain rfl : [] = placed := Except.ok.inj hplaced
  obtain rfl : [] = rs := Except.ok.inj hrs
  rfl

/-- A bind without a value is not written. -/
theorem not_writes_missing (slot : Slot) (text : String) : ¬Writes d [.missing slot] text := by
  rintro ⟨naming, placed, taken, written, rs, hplaced, hrs, -⟩
  obtain rfl : [.missing slot.name] = placed := Except.ok.inj hplaced
  simp [stretches] at hrs

/-! ### Where a place reads another's bind -/

/-- The text of a part when all lists have been written. -/
def Placed.textBeside (d : Dialect) (settled : List (String × Rendered)) : Placed → String
  | .text s => s
  | .value p => mark d p.name
  | .spread name _ _ => mark d name
  | .members name _ _ _ => ((settled.lookup name).map (·.sql)).getD ""
  | .missing _ => ""

/-- Whether a part is written as long as all lists have been. -/
def Placed.IsSettled (settled : List (String × Rendered)) : Placed → Prop
  | .text _ | .value _ => True
  | .members name _ _ _ => (settled.lookup name).isSome = true
  | .spread _ _ _ | .missing _ => False

/-- When stretches have been written, each of their lists is written from then on as it was. -/
theorem exists_settled {taken : List String} {written : List (String × Rendered)}
    {xs : List Placed} {rs : List Rendered} (h : stretches d taken written xs = .ok rs) :
    ∃ settled, (∀ name r, written.lookup name = some r → settled.lookup name = some r) ∧
      rs.map (·.sql) = xs.map (Placed.textBeside d settled) ∧
      ∀ name type use vs, .members name type use vs ∈ xs →
        (settled.lookup name).isSome = true := by
  induction xs generalizing written rs with
  | nil =>
      cases h
      exact ⟨written, fun _ _ hr => hr, rfl, by simp⟩
  | cons x xs ih =>
      -- One part in front of the rest, which has been written with the lists of this one.
      have step : ∀ {w : List (String × Rendered)} {r : Rendered},
          (stretches d taken w xs).map (r :: ·) = .ok rs →
          (∀ name r, written.lookup name = some r → w.lookup name = some r) →
          (∀ settled : List (String × Rendered),
            (∀ name r, w.lookup name = some r → settled.lookup name = some r) →
            x.textBeside d settled = r.sql) →
          (∀ name type use vs, x = .members name type use vs → (w.lookup name).isSome = true) →
          ∃ settled, (∀ name r, written.lookup name = some r → settled.lookup name = some r) ∧
            rs.map (·.sql) = (x :: xs).map (Placed.textBeside d settled) ∧
            ∀ name type use vs, .members name type use vs ∈ x :: xs →
              (settled.lookup name).isSome = true := by
        intro w r hr hw htext hlist
        obtain ⟨rest, hrest, rfl⟩ := map_eq_ok.mp hr
        obtain ⟨settled, hkept, hsql, hlists⟩ := ih hrest
        refine ⟨settled, fun name r hr => hkept name r (hw name r hr), ?_, ?_⟩
        · rw [List.map_cons, List.map_cons, hsql, htext settled hkept]
        · intro name type use vs hmem
          rcases List.mem_cons.mp hmem with heq | hmem
          · obtain ⟨r, hr⟩ := Option.isSome_iff_exists.mp (hlist name type use vs heq.symm)
            rw [hkept name r hr]
            rfl
          · exact hlists name type use vs hmem
      cases x with
      | text s | value p =>
          rw [stretches] at h
          exact step h (fun _ _ hr => hr) (fun _ _ => rfl) (by simp)
      | missing name => simp [stretches] at h
      | spread name type vs =>
          rw [stretches] at h
          split at h
          · cases h
          · exact step h (fun _ _ hr => hr) (fun _ _ => rfl) (by simp)
      | members name type use vs =>
          rw [stretches] at h
          split at h
          · rename_i r hr
            refine step h (fun _ _ hr => hr) (fun settled hkept => ?_) ?_
            · rw [Placed.textBeside, hkept name r hr]
              rfl
            · rintro _ _ _ _ ⟨⟩
              rw [hr]
              rfl
          · rename_i hnone
            dsimp only at h
            split at h
            · cases h
            · rename_i r hr
              refine step h (fun other s hs => ?_) (fun settled hkept => ?_) ?_
              · have hne : (other == name) = false := by
                  rw [beq_eq_false_iff_ne]
                  rintro rfl
                  rw [hnone] at hs
                  cases hs
                rw [List.lookup_cons, hne]
                exact hs
              · rw [Placed.textBeside, hkept name r (by simp)]
                rfl
              · rintro _ _ _ _ ⟨⟩
                simp

theorem stretches_of_isSettled (taken : List String) {settled : List (String × Rendered)}
    {xs : List Placed} (hxs : ∀ x ∈ xs, x.IsSettled settled) :
    ∃ rs, stretches d taken settled xs = .ok rs ∧
      rs.map (·.sql) = xs.map (Placed.textBeside d settled) := by
  induction xs with
  | nil => exact ⟨[], rfl, rfl⟩
  | cons x xs ih =>
      obtain ⟨hx, htail⟩ := List.forall_mem_cons.mp hxs
      obtain ⟨rs, hrs, hsql⟩ := ih htail
      have step : ∀ r : Rendered, x.textBeside d settled = r.sql →
          ∃ rs', (stretches d taken settled xs).map (r :: ·) = .ok rs' ∧
            rs'.map (·.sql) = (x :: xs).map (Placed.textBeside d settled) := by
        intro r hr
        exact ⟨r :: rs, by rw [hrs]; rfl, by rw [List.map_cons, List.map_cons, hsql, hr]⟩
      cases x with
      | text s | value p =>
          rw [stretches]
          exact step _ rfl
      | members name type use vs =>
          obtain ⟨r, hr⟩ := Option.isSome_iff_exists.mp hx
          rw [stretches, hr]
          exact step r (by rw [Placed.textBeside, hr]; rfl)
      | spread name type vs | missing name => exact hx.elim

/-- What a part reads that can be written: a bind of its name, and a list when it is a list. -/
structure Placed.Reads (x y : Placed) : Prop where
  name : y.name? = x.name?
  listed : x.unlisted? y = none
  self : x.name? = none → y = x
  /-- No piece is placed as a list at a single placeholder. -/
  notSpread : ∀ name type vs, x ≠ .spread name type vs ∧ y ≠ .spread name type vs

/-- **What a place reads does not show in its text.** -/
theorem Placed.Reads.textBeside {settled : List (String × Rendered)} {x y : Placed}
    (h : x.Reads y) : (x.reading y).textBeside d settled = x.textBeside d settled := by
  have hname := h.name
  cases x with
  | text s | missing name => rw [h.self rfl, Placed.reading_self]
  | spread name type vs => exact absurd rfl (h.notSpread name type vs).1
  | value p =>
      cases y with
      | text s | missing name => cases hname
      | spread name type vs => exact absurd rfl (h.notSpread name type vs).2
      | value q =>
          show mark d q.name = mark d p.name
          rw [Option.some.inj hname]
      | members name type use vs => rfl
  | members name type use vs =>
      cases y with
      | text s | missing other => cases hname
      | spread other type vs => exact absurd rfl (h.notSpread other type vs).2
      | value q => cases h.listed
      | members other type' use' vs' =>
          obtain rfl : other = name := Option.some.inj hname
          rfl

theorem Placed.Reads.isSettled {settled : List (String × Rendered)} {x y : Placed} (h : x.Reads y)
    (hmissing : ∀ name, x.reading y ≠ .missing name)
    (hlists : ∀ name type use vs, x.reading y = .members name type use vs →
      (settled.lookup name).isSome = true) : x.IsSettled settled := by
  have hname := h.name
  cases x with
  | text s | value p => trivial
  | missing name =>
      rw [h.self rfl] at hmissing
      exact absurd rfl (hmissing name)
  | spread name type vs => exact absurd rfl (h.notSpread name type vs).1
  | members name type use vs =>
      cases y with
      | text s | missing other => cases hname
      | spread other type vs => exact absurd rfl (h.notSpread other type vs).2
      | value q => cases h.listed
      | members other type' use' vs' =>
          obtain rfl : other = name := Option.some.inj hname
          exact hlists other type' use' vs' rfl

theorem not_mem_of_firstMissing {xs : List Placed} (h : firstMissing xs = none) (name : String) :
    .missing name ∉ xs := by
  induction xs with
  | nil => simp
  | cons x xs ih =>
      cases x with
      | missing other => cases h
      | text s | value p | members other type use vs | spread other type vs =>
          simpa using ih h

/-- Parts that are expanded have been written one by one. -/
theorem expand_eq_ok {xs : List Placed} {r : Rendered} :
    expand d xs = .ok r ↔ firstMissing xs = none ∧
      ∃ rs, stretches d (xs.filterMap Placed.name?) [] xs = .ok rs ∧ r = Rendered.concat rs := by
  unfold expand
  cases firstMissing xs with
  | some name => simp
  | none => simp only [map_eq_ok, true_and, @eq_comm _ r]

/-- What is rendered has been written part by part, each list reading a list. -/
theorem stretches_of_renderParts {report : Reporting} {xs : List NamedPart} {r : Rendered}
    (h : renderParts report d xs = .ok r) :
    unlisted? d xs = none ∧ firstMissing (served d xs) = none ∧
      ∃ rs, stretches d ((served d xs).filterMap Placed.name?) [] (served d xs) = .ok rs ∧
        r = Rendered.concat rs := by
  unfold renderParts at h
  split at h
  · cases h
  · split at h
    · cases h
    · rename_i r' hexpand
      split at h
      · cases h
      · rename_i hlisted
        cases h
        exact ⟨hlisted, expand_eq_ok.mp hexpand⟩

/-- **The text of a rendered statement is what its pieces are written as**, whatever its places
read. -/
theorem writes_of_renderAfter {report : Reporting} {n : Naming} {ps : List Piece} {r : Rendered}
    (h : renderAfter report d n ps = .ok r) : Writes d ps r.sql := by
  unfold renderAfter at h
  split at h
  · cases h
  · rename_i xs hplace
    obtain ⟨hlisted, hmissing, rs, hrs, rfl⟩ := stretches_of_renderParts h
    obtain ⟨settled, -, hsql, hlists⟩ := exists_settled hrs
    obtain ⟨read, hserved, hunlisted, hread⟩ := exists_read d ((bindNames n ps).zip xs)
    rw [hunlisted, List.findSome?_eq_none_iff] at hlisted
    have hspread : ∀ x ∈ xs, ∀ name type vs, x ≠ .spread name type vs :=
      forall_mem_of_place (by simp) (by simp) (by simp) (by simp) hplace
    have hmem : ∀ x ∈ (bindNames n ps).zip xs, x.2 ∈ xs := fun x hx => (List.of_mem_zip hx).2
    have hnames := name?_of_place hplace
    have hreads : ∀ x ∈ (bindNames n ps).zip xs, x.2.Reads (read x).2 := by
      intro x hx
      obtain ⟨hin, hwritten, hself⟩ := hread x hx
      refine ⟨?_, hlisted x hx, fun hnone => ?_, fun name type vs => ?_⟩
      · rw [hnames _ hin, hnames x hx]
        exact hwritten
      · rw [hnames x hx, Option.map_eq_none_iff] at hnone
        rw [hself hnone]
      · exact ⟨hspread _ (hmem x hx) name type vs, hspread _ (hmem _ hin) name type vs⟩
    have hsettled : ∀ x ∈ xs, x.IsSettled settled := by
      intro part hpart
      rw [← map_snd_of_place hplace] at hpart
      obtain ⟨x, hx, rfl⟩ := List.mem_map.mp hpart
      have hin : x.2.reading (read x).2 ∈ served d ((bindNames n ps).zip xs) := by
        rw [hserved]
        exact List.mem_map.mpr ⟨x, hx, rfl⟩
      refine (hreads x hx).isSettled (fun name heq => ?_) (fun name type use vs heq => ?_)
      · exact not_mem_of_firstMissing hmissing name (heq ▸ hin)
      · exact hlists name type use vs (heq ▸ hin)
    obtain ⟨rs', hrs', hsql'⟩ := stretches_of_isSettled (d := d)
      ((served d ((bindNames n ps).zip xs)).filterMap Placed.name?) hsettled
    refine ⟨n, xs, _, settled, rs', hplace, hrs', ?_⟩
    have htexts : (served d ((bindNames n ps).zip xs)).map (Placed.textBeside d settled) =
        xs.map (Placed.textBeside d settled) := by
      conv_rhs => rw [← map_snd_of_place hplace]
      rw [hserved, List.map_map, List.map_map]
      exact List.map_congr_left fun x hx => (hreads x hx).textBeside
    rw [Rendered.concat, hsql, htexts, ← hsql']

/-- The text of a rendered statement is what its pieces are written as. -/
theorem writes_of_render {ps : List Piece} {r : Rendered} (h : render d ps = .ok r) :
    Writes d ps r.sql :=
  writes_of_renderAfter h

/-- A statement that is prepared has been rendered, and its values can be stored. -/
theorem prepareAfter_eq_ok {n : Naming} {ps : List Piece} {p : Prepared} :
    prepareAfter d n ps = .ok p ↔ ∃ r vs, renderAfter whenRun d n ps = .ok r ∧
      storedAll d r.parameters = .ok vs ∧ p = ⟨r.sql, [vs], false⟩ := by
  unfold prepareAfter
  cases renderAfter whenRun d n ps with
  | error e => simp
  | ok r =>
      dsimp only
      constructor
      · intro h
        cases hstored : storedAll d r.parameters with
        | error e => simp [hstored, asStatementError, Except.map] at h
        | ok vs =>
            simp only [hstored, asStatementError, Except.map, Except.ok.injEq] at h
            exact ⟨r, vs, rfl, hstored, h.symm⟩
      · rintro ⟨r', vs, hr, hstored, rfl⟩
        cases hr
        rw [hstored]
        rfl

/-- The text of a prepared statement is what its pieces are written as. -/
theorem writes_of_prepareAfter {n : Naming} {ps : List Piece} {p : Prepared}
    (h : prepareAfter d n ps = .ok p) : Writes d ps p.sql := by
  obtain ⟨r, vs, hr, -, rfl⟩ := prepareAfter_eq_ok.mp h
  exact writes_of_renderAfter hr

/-- The text of a prepared statement is what its pieces are written as. -/
theorem writes_of_prepareOne {ps : List Piece} {p : Prepared} (h : prepareOne d ps = .ok p) :
    Writes d ps p.sql :=
  writes_of_prepareAfter h

end Sql

end TableQuery
