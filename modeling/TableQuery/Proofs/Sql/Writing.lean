/-
Statements that can be written.

A name that is empty cannot be written, and two names may come out the same; nothing else can
be wrong with fixed pieces (`render_of_isFixed`).  So an insert can be prepared when its columns
have names that are written apart and its values can be stored (`Insert.prepare_ok`).  The other
way round, whatever a statement names has a name once the statement has been prepared
(`named_of_prepareAfter`), and a condition names every column that it mentions
(`name_mem_pieces`).
-/
import TableQuery.Proofs.Sql.Assignments
import TableQuery.Proofs.Sql.Mentions

namespace TableQuery

namespace Sql

variable {d : Dialect}

/-- Whether no piece is an empty name. -/
def Named (ps : List Piece) : Prop := ∀ p ∈ ps, p ≠ .name ""

theorem named_of_place {n : Naming} {ps : List Piece} {xs : List Placed}
    (h : place d n ps = .ok xs) : Named ps := by
  induction ps generalizing n xs with
  | nil => simp [Named]
  | cons p ps ih =>
      -- The rest is placed behind what this piece is placed as.
      have step : ∀ {m : Naming} {x : Placed}, (place d m ps).map (x :: ·) = .ok xs → Named ps := by
        intro m x hx
        obtain ⟨ys, hys, -⟩ := map_eq_ok.mp hx
        exact ih hys
      refine List.forall_mem_cons.mpr ?_
      cases p with
      | text s => exact ⟨by simp, step h⟩
      | missing slot => exact ⟨by simp, step h⟩
      | name s =>
          rw [place, writeName] at h
          by_cases hs : s = ""
          · rw [if_pos hs] at h
            cases h
          · rw [if_neg hs] at h
            exact ⟨by simpa using hs, step h⟩
      | value slot v =>
          rw [place] at h
          split at h
          · cases h
          · exact ⟨by simp, step h⟩
      | members slot use vs =>
          rw [place] at h
          split at h
          · cases h
          · exact ⟨by simp, step h⟩

/-- **What a statement names has a name**, once it has been prepared. -/
theorem named_of_prepareAfter {n : Naming} {ps : List Piece} {p : Prepared}
    (h : prepareAfter d n ps = .ok p) : Named ps := by
  obtain ⟨r, -, hr, -, -⟩ := prepareAfter_eq_ok.mp h
  unfold renderAfter at hr
  split at hr
  · cases hr
  · rename_i xs hxs
    exact named_of_place hxs

theorem place_of_isFixed {n : Naming} {ps : List Piece} (hps : ∀ p ∈ ps, p.IsFixed)
    (hnamed : Named ps) : ∃ xs, place d n ps = .ok xs ∧ ∀ x ∈ xs, x.IsPlain := by
  induction ps generalizing n with
  | nil => exact ⟨[], rfl, by simp⟩
  | cons p ps ih =>
      obtain ⟨hp, hrest⟩ := List.forall_mem_cons.mp hps
      obtain ⟨hname, hnames⟩ := List.forall_mem_cons.mp hnamed
      have step : ∀ (m : Naming) (x : Placed), x.IsPlain →
          ∃ xs, (place d m ps).map (x :: ·) = .ok xs ∧ ∀ x ∈ xs, x.IsPlain := by
        intro m x hx
        obtain ⟨xs, hxs, hplain⟩ := ih (n := m) hrest hnames
        exact ⟨x :: xs, by rw [hxs]; rfl, List.forall_mem_cons.mpr ⟨hx, hplain⟩⟩
      cases p with
      | text s => exact step n (.text s) trivial
      | name s =>
          have hs : s ≠ "" := fun hs => hname (by rw [hs])
          rw [place, writeName, if_neg hs]
          exact step n (.text (d.quoteName s)) trivial
      | value slot v =>
          rw [place, placeholder_of_own hp]
          exact step _ (.value _) trivial
      | members slot use vs => exact hp.elim
      | missing slot => exact hp.elim

/-- **Fixed pieces can be written** when all their names can, and are written apart. -/
theorem render_of_isFixed {ps : List Piece} (hps : ∀ p ∈ ps, p.IsFixed) (hnamed : Named ps)
    (hplaces : WrittenApart (ownNames ps)) : ∃ r, render d ps = .ok r := by
  obtain ⟨xs, hxs, hplain⟩ := place_of_isFixed (d := d) (n := .empty) hps hnamed
  obtain ⟨rs, -, hr⟩ := render_of_place hxs hplain
    (by rwa [(placeNames_of_isFixed (n := .empty) hps).1])
  exact ⟨_, hr⟩

/-! ### Inserts -/

theorem named_separated {separator : String} {pss : List (List Piece)}
    (h : ∀ ps ∈ pss, Named ps) : Named (separated separator pss) :=
  forall_mem_separated (by simp) h

theorem named_nameList {ns : List String} (h : ∀ n ∈ ns, n ≠ "") : Named (nameList ns) := by
  refine named_separated fun ps hps => ?_
  obtain ⟨n, hn, rfl⟩ := List.mem_map.mp hps
  simpa [Named] using h n hn

namespace Insert

/-- The columns and the values of an insert that assigns any. -/
theorem named_valuePieces {i : Insert} (hne : i.columns ≠ []) (hcolumns : ∀ n ∈ i.columns, n ≠ "") :
    ∃ values, i.valuePieces d = .ok values ∧ Named values ∧ ownNames values = i.columns := by
  have hnames := names_firstParameters i
  unfold valuePieces
  split
  · rename_i hnil
    rw [hnil] at hnames
    exact absurd hnames.symm hne
  · refine ⟨_, rfl, ?_⟩
    have hlist := named_nameList hcolumns
    have hplaces : Named (separated ", " (i.firstParameters.map fun p => [valuePiece p])) := by
      refine named_separated fun ps hps => ?_
      obtain ⟨p, -, rfl⟩ := List.mem_map.mp hps
      simp [Named, valuePiece]
    rw [hnames]
    refine ⟨?_, ?_⟩
    · simp only [Named, List.cons_append, List.forall_mem_cons, List.forall_mem_append]
      exact ⟨by simp, ⟨hlist, by simp, hplaces⟩, by simp⟩
    · have hlistNames : ownNames (nameList i.columns) = [] := by
        rw [nameList, ownNames, filterMap_separated (fun _ => rfl)]
        simp
      have hvalueNames : ownNames (separated ", " (i.firstParameters.map fun p => [valuePiece p])) =
          i.columns := by
        rw [ownNames, filterMap_separated (fun _ => rfl), List.flatMap_map, ← hnames,
          List.map_eq_flatMap]
        rfl
      simp only [ownNames] at hlistNames hvalueNames
      simp [ownNames, hlistNames, hvalueNames]

/-- **An insert can be prepared** when its columns have names that are written apart and its
values can be stored, here one that asks for nothing else. -/
theorem prepare_ok {i : Insert} {vs : List (List Value)} (hconflict : i.conflict = .fail)
    (hreturned : i.returnedColumns d = []) (htable : i.table.name ≠ "") (hne : i.columns ≠ [])
    (hcolumns : ∀ n ∈ i.columns, n ≠ "") (hplaces : i.PlacesApart)
    (hrows : ∀ r ∈ i.rows, ∀ n, i.first.contains n = true → r.contains n = true)
    (hstored : collect (storedAll d) (i.rows.map i.assignments) = .ok vs) :
    ∃ p, i.prepare d = .ok p := by
  obtain ⟨ps, hps, hfixed, hnamed, hown⟩ : ∃ ps, i.pieces d = .ok ps ∧ (∀ p ∈ ps, p.IsFixed) ∧
      Named ps ∧ ownNames ps = i.columns := by
    have hreturning : i.returningPieces d = [] := by rw [returningPieces, hreturned]
    have hconflicts : i.conflictPieces d = [] := by rw [conflictPieces, hconflict]
    obtain ⟨values, hvalues, hnamed, hown⟩ := named_valuePieces hne hcolumns
    refine ⟨_, by rw [pieces, hvalues]; rfl, ?_, ?_, ?_⟩
    · rw [hconflicts, hreturning]
      simpa using isFixed_valuePieces hvalues
    · rw [hconflicts, hreturning]
      simpa [Named, htable] using hnamed
    · rw [hconflicts, hreturning]
      simpa [ownNames] using hown
  obtain ⟨r, hr⟩ := render_of_isFixed (d := d) hfixed hnamed (by rw [hown]; exact hplaces)
  have hserved : collect (fun ps => storedAll d (servedRow d ps)) (i.rows.map i.assignments) =
      .ok vs := by
    rw [collect_map] at hstored ⊢
    simpa only [servedRow_assignments hplaces] using hstored
  refine ⟨⟨r.sql, vs, !i.rest.isEmpty⟩, ?_⟩
  simp only [prepare, hps, hr, storedRows, parametersFrom_ok hrows, hserved]
  rfl

end Insert

/-! ### Conditions -/

namespace Expr

/-- **Every column that is mentioned stands in the text**, with the table that qualifies it. -/
theorem mem_pieces_of_mention {e : Expr} {x : Mention} (hx : x ∈ e.mentions) {p : Piece}
    (hp : p ∈ x.column.pieces) : p ∈ e.pieces d := by
  induction e using Expr.induction with
  | compare r c v =>
      rw [List.mem_singleton.mp hx] at hp
      rw [pieces]
      exact List.mem_append_left _ hp
  | truth n c b =>
      rw [List.mem_singleton.mp hx] at hp
      rw [pieces]
      exact List.mem_append_left _ hp
  | null n c =>
      rw [List.mem_singleton.mp hx] at hp
      rw [pieces]
      exact List.mem_append_left _ hp
  | member n c vs =>
      rw [List.mem_singleton.mp hx] at hp
      cases n with
      | false =>
          rw [pieces]
          exact List.mem_append_left _ hp
      | true =>
          rw [pieces]
          exact List.mem_cons_of_mem _ (List.mem_append_left _ hp)
  | column c =>
      rw [List.mem_singleton.mp hx] at hp
      rw [pieces]
      exact hp
  | flag c set =>
      rw [List.mem_singleton.mp hx] at hp
      rw [pieces, flagPieces]
      split
      · split
        · exact hp
        · exact List.mem_cons_of_mem _ hp
      · exact List.mem_append_left _ hp
  | native s | nullValue | const b | constTest b => cases hx
  | not e ih =>
      rw [pieces]
      refine List.mem_cons_of_mem _ ?_
      split
      · simp [parenthesised, ih hx]
      · exact ih hx
  | junction j es ih =>
      rw [mentions, mentionsAll_eq_flatMap] at hx
      obtain ⟨e, he, hxe⟩ := List.mem_flatMap.mp hx
      rw [pieces]
      exact mem_junctionPieces he (ih e he hxe)

theorem name_mem_pieces {e : Expr} {x : Mention} (hx : x ∈ e.mentions) :
    .name x.column.name ∈ e.pieces d := by
  refine mem_pieces_of_mention hx ?_
  unfold ColumnRef.pieces
  split <;> simp

/-- The columns of an expression are those that it mentions. -/
theorem map_column_mentions (e : Expr) : e.mentions.map (·.column) = e.columns := by
  induction e using Expr.induction with
  | not e ih => rw [mentions, columns, ih]
  | junction j es ih =>
      rw [mentions, columns, mentionsAll_eq_flatMap, columnsAll_eq_flatMap, List.map_flatMap,
        List.flatMap_def, List.flatMap_def, List.map_congr_left ih]
  | _ => simp [mentions, columns]

/-- **Every further table that is named stands in the text.** -/
theorem foreign_mem_pieces {e : Expr} {main t : String} (h : t ∈ e.foreignTables main) :
    .name t ∈ e.asCondition.pieces d := by
  obtain ⟨c, hc, ht⟩ := List.mem_filterMap.mp h
  rw [← map_column_mentions, ← mentions_asCondition] at hc
  obtain ⟨x, hx, rfl⟩ := List.mem_map.mp hc
  refine mem_pieces_of_mention hx ?_
  obtain ⟨htable, -⟩ := Option.filter_eq_some_iff.mp ht
  simp [ColumnRef.pieces, htable]

end Expr

end Sql

end TableQuery
