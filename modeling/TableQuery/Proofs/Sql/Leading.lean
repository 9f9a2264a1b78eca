/-
Statements that lead with fixed pieces.

An update names the columns that it assigns in front of its condition, and the places of these
columns have names of their own.  For the condition behind them that makes two differences.  A
place that is counted may get to a name that is one of those, and then there is no
statement at all: the condition has to leave them (`Leaves`).  And the members of its lists
avoid more names than they would alone, which shows in nothing but their names: what a driver
is told of their values is the same (`stretches_alike`).

So the values of the whole are those of the fixed pieces and those of the condition by itself, one
after the other (`prepareOne_fixed_append`).
-/
import TableQuery.Proofs.Sql.Clauses
import TableQuery.Proofs.Sql.Renaming

namespace TableQuery

namespace Sql

variable {d : Dialect}

/-! ### Names that are left -/

/-- The name that a counted place is named after. -/
def Piece.base? : Piece → Option String
  | .value slot _ | .members slot _ _ => some (countedName slot.name)
  | .text _ | .name _ | .missing _ => none

/-- The names that the places of pieces are named after. -/
def bases (ps : List Piece) : List String := ps.filterMap Piece.base?

/-- Whether counting the places of pieces, from what has been counted before, gets to none of
some names. -/
def LeavesFrom (n : Naming) (own : List String) (ps : List Piece) : Prop :=
  ∀ base k, n.count base < k → k ≤ n.count base + (bases ps).count base →
    base ++ "_" ++ toString k ∉ own

/-- Whether the places of pieces leave some names: as many places as are named after one base,
so many numbers stand behind it. -/
def Leaves (own : List String) (ps : List Piece) : Prop :=
  ∀ base k, 0 < k → k ≤ (bases ps).count base → base ++ "_" ++ toString k ∉ own

variable {n : Naming} {own : List String}

theorem leavesFrom_empty {ps : List Piece} : LeavesFrom .empty own ps ↔ Leaves own ps := by
  have hzero : ∀ base, Naming.empty.count base = 0 := fun _ => rfl
  simp only [LeavesFrom, Leaves, hzero, Nat.zero_add]

theorem leavesFrom_cons_of_none {p : Piece} (hp : p.base? = none) {ps : List Piece} :
    LeavesFrom n own (p :: ps) ↔ LeavesFrom n own ps := by
  simp only [LeavesFrom, bases, List.filterMap_cons_none hp]

/-- The next place has the next number of its base, and the rest count on from there. -/
theorem leavesFrom_cons_of_some {p : Piece} {b : String} (hp : p.base? = some b)
    {ps : List Piece} :
    LeavesFrom n own (p :: ps) ↔
      b ++ "_" ++ toString (n.count b + 1) ∉ own ∧ LeavesFrom (n.next b).2 own ps := by
  have hcount : ∀ base, (bases (p :: ps)).count base =
      (bases ps).count base + if b == base then 1 else 0 := by
    intro base
    rw [bases, List.filterMap_cons_some hp, List.count_cons]
    rfl
  have hnext : ∀ base, (n.next b).2.count base = n.count base + if b == base then 1 else 0 := by
    intro base
    by_cases hb : b = base
    · subst hb
      simp [Naming.count_next]
    · simp [Naming.count_next_of_ne (Ne.symm hb), hb]
  constructor
  · intro h
    refine ⟨h b _ (Nat.lt_succ_self _) ?_, fun base k hlow hhigh => h base k ?_ ?_⟩
    · rw [hcount]
      simp only [beq_self_eq_true, if_true]
      omega
    · rw [hnext] at hlow
      omega
    · rw [hnext] at hhigh
      rw [hcount]
      omega
  · rintro ⟨hfirst, hrest⟩ base k hlow hhigh
    rw [hcount] at hhigh
    by_cases hk : b = base ∧ k = n.count b + 1
    · obtain ⟨rfl, rfl⟩ := hk
      exact hfirst
    · refine hrest base k ?_ ?_
      · rw [hnext]
        by_cases hb : b = base
        · subst hb
          have hne : k ≠ n.count b + 1 := fun hk' => hk ⟨rfl, hk'⟩
          rw [beq_self_eq_true, if_pos rfl]
          omega
        · rw [if_neg (by simpa using hb)]
          omega
      · rw [hnext]
        omega

/-- The same names, of which some are taken. -/
def Naming.owning (n : Naming) (own : List String) : Naming := { n with own }

theorem Naming.next_owning (n : Naming) (own : List String) (base : String) :
    (n.owning own).next base = ((n.next base).1, (n.next base).2.owning own) := by
  unfold Naming.next Naming.owning
  cases n.counts.lookup base <;> rfl

theorem Naming.own_owning (n : Naming) (own : List String) : (n.owning own).own = own := rfl

/-- A counted place gets the next number of its base, unless the name with it is taken. -/
theorem placeholder_owning {slot : Slot} (hslot : slot.counted = true) (n : Naming)
    (own : List String) :
    slot.placeholder (n.owning own) =
      if countedName slot.name ++ "_" ++ toString (n.count (countedName slot.name) + 1) ∈ own then
        .error (.placeholderTaken
          (countedName slot.name ++ "_" ++ toString (n.count (countedName slot.name) + 1)))
      else .ok (countedPlaceholder (countedName slot.name) (n.count (countedName slot.name) + 1),
        (n.next (countedName slot.name)).2.owning own) := by
  rw [Slot.placeholder, Slot.bindName, if_pos hslot]
  simp only [Naming.next_owning, Naming.next_fst, Naming.own_owning, hslot, Bool.true_and,
    List.contains_iff_mem]
  rfl

/-- **Counted places that leave the names that are taken** get the names that they would get
if none were; else they get none. -/
theorem place_owning {ps : List Piece} (hps : ∀ p ∈ ps, p.IsCounted) (n : Naming) :
    (LeavesFrom n own ps → place d (n.owning own) ps = place d (n.owning []) ps) ∧
      ∀ xs, place d (n.owning own) ps = .ok xs → LeavesFrom n own ps := by
  induction ps generalizing n with
  | nil =>
      refine ⟨fun _ => rfl, fun xs _ base k hlow hhigh => ?_⟩
      have hzero : (bases []).count base = 0 := rfl
      omega
  | cons p ps ih =>
      obtain ⟨hp, hrest⟩ := List.forall_mem_cons.mp hps
      have plain : ∀ x : Placed, p.base? = none →
          (LeavesFrom n own (p :: ps) →
            (place d (n.owning own) ps).map (x :: ·) = (place d (n.owning []) ps).map (x :: ·)) ∧
          ∀ xs, (place d (n.owning own) ps).map (x :: ·) = .ok xs →
            LeavesFrom n own (p :: ps) := by
        intro x hbase
        rw [leavesFrom_cons_of_none hbase]
        refine ⟨fun h => by rw [(ih hrest n).1 h], fun xs hxs => ?_⟩
        obtain ⟨ys, hys, -⟩ := map_eq_ok.mp hxs
        exact (ih hrest n).2 ys hys
      have counted : ∀ (slot : Slot) (f : String → Placed), slot.counted = true →
          p.base? = some (countedName slot.name) →
          (∀ m, place d m (p :: ps) =
            (slot.placeholder m).bind (fun w => (place d w.2 ps).map (f w.1 :: ·))) →
          (LeavesFrom n own (p :: ps) →
            place d (n.owning own) (p :: ps) = place d (n.owning []) (p :: ps)) ∧
          ∀ xs, place d (n.owning own) (p :: ps) = .ok xs → LeavesFrom n own (p :: ps) := by
        intro slot f hslot hbase hplace
        rw [leavesFrom_cons_of_some hbase, hplace, hplace, placeholder_owning hslot,
          placeholder_owning hslot, if_neg List.not_mem_nil]
        obtain ⟨hsame, hleaves⟩ := ih hrest (n.next (countedName slot.name)).2
        refine ⟨fun h => ?_, fun xs hxs => ?_⟩
        · rw [if_neg h.1]
          show (place d (Naming.owning _ own) ps).map _ = (place d (Naming.owning _ []) ps).map _
          rw [hsame h.2]
        · split at hxs
          · cases hxs
          · rename_i hfree
            obtain ⟨ys, hys, -⟩ := map_eq_ok.mp hxs
            exact ⟨hfree, hleaves ys hys⟩
      cases p with
      | text s =>
          rw [place, place]
          exact plain (.text s) rfl
      | missing slot =>
          rw [place, place]
          exact plain (.missing slot.name) rfl
      | name s =>
          rw [place, place]
          cases writeName d s with
          | error e => exact ⟨fun _ => rfl, fun xs hxs => by cases hxs⟩
          | ok w => exact plain (.text w) rfl
      | value slot v =>
          refine counted slot (fun name => .value ⟨name, slot.type, v⟩) hp rfl fun m => ?_
          rw [place]
          cases slot.placeholder m <;> rfl
      | members slot use vs =>
          refine counted slot (fun name => .members name slot.type use vs) hp rfl fun m => ?_
          rw [place]
          cases slot.placeholder m <;> rfl

/-! ### Fixed pieces in front of counted ones -/

variable {head ps : List Piece}

theorem place_fixed_append (hhead : ∀ p ∈ head, p.IsFixed) (hnamed : Named head) :
    place d .empty (head ++ ps) =
      (place d (Naming.empty.owning (ownNames head).reverse) ps).map
        (head.map (Piece.placed d) ++ ·) := by
  obtain ⟨hplace, hafter⟩ := place_fixed (d := d) hhead hnamed .empty
  rw [place_append_eq, hplace, hafter]
  have hown : (ownNames head).reverse ++ Naming.empty.own = (ownNames head).reverse :=
    List.append_nil _
  rw [hown]
  rfl

/-- A statement that leads with fixed pieces leaves their names. -/
theorem leaves_of_prepareOne (hhead : ∀ p ∈ head, p.IsFixed) (hps : ∀ p ∈ ps, p.IsCounted)
    {p : Prepared} (h : prepareOne d (head ++ ps) = .ok p) : Leaves (ownNames head) ps := by
  have hnamed := (List.forall_mem_append.mp (named_of_prepareAfter h)).1
  rw [prepareOne, prepareAfter_eq, place_fixed_append hhead hnamed] at h
  cases hplace : place d (Naming.empty.owning (ownNames head).reverse) ps with
  | error e => simp [hplace, Except.map, Except.bind] at h
  | ok xs =>
      have hleaves := leavesFrom_empty.mp ((place_owning hps .empty).2 xs hplace)
      simpa [Leaves] using hleaves

/-- Where every place reads its own value, a statement is prepared as its parts are written. -/
theorem prepareAfter_of_apart {n : Naming} (hplaces : WrittenApart (placeNames n ps)) :
    prepareAfter d n ps = (place d n ps).bind (fun xs => asStatementError ((expand d xs).bind
      (fun r => (storedAll d r.parameters).map (fun vs => ⟨r.sql, [vs], false⟩)))) := by
  unfold prepareAfter
  rw [renderAfter_of_apart _ hplaces]
  cases place d n ps with
  | error e => rfl
  | ok xs =>
      dsimp only [Except.bind]
      cases expand d xs <;> rfl

/-- **Fixed pieces in front add their values in front**, where the rest leaves their names and is
written apart from them; it is prepared with the values that it has by itself, and fails as it
does. -/
theorem prepareOne_fixed_append (hhead : ∀ p ∈ head, p.IsFixed) (hnamed : Named head)
    (hps : ∀ p ∈ ps, p.IsCounted) (hleaves : Leaves (ownNames head) ps)
    (hplaces : WrittenApart (ownNames head ++ placeNames .empty ps))
    {vs : List Value} (hvs : storedAll d (ownParameters head) = .ok vs) :
    (prepareOne d (head ++ ps)).map Prepared.rows =
      (prepareOne d ps).map (fun q => q.rows.map (vs ++ ·)) := by
  have hplace : place d (Naming.empty.owning (ownNames head).reverse) ps = place d .empty ps := by
    refine (place_owning hps .empty).1 (leavesFrom_empty.mpr ?_)
    simpa [Leaves] using hleaves
  have halone := isAlone_placed (d := d) hhead
  rw [prepareOne, prepareAfter_of_apart (by rwa [placeNames_fixed_append hhead]), prepareOne,
    prepareAfter_of_apart (hplaces.subset (List.subset_append_right _ _)),
    place_fixed_append hhead hnamed, hplace]
  cases place d .empty ps with
  | error e => rfl
  | ok ys =>
      dsimp only [Except.map, Except.bind]
      unfold expand
      rw [firstMissing_append, firstMissing_of_isAlone halone, Option.none_or]
      cases firstMissing ys with
      | some name => rfl
      | none =>
          dsimp only
          rw [stretches_alone_append _ _ halone, map_map]
          have hsame : Together (List.Forall₂ (Rendered.Alike d))
              (stretches d ((head.map (Piece.placed d) ++ ys).filterMap Placed.name?) [] ys)
              (stretches d (ys.filterMap Placed.name?) [] ys) :=
            stretches_alike (fun h h' => by rw [h, h']) .nil (List.forall₂_same.mpr fun y _ => .refl y)
          rcases hsame.cases with ⟨e, hleft, hright⟩ | ⟨rs, rs', hleft, hright, halike⟩
          · rw [hleft, hright]
            rfl
          · have hparameters := (concat_alike halike).bound
            rw [hleft, hright]
            simp only [Except.map, concat_append, concat_placed hhead, Rendered.andThen,
              storedAll_append, hvs, storedAll_congr hparameters]
            cases storedAll d (Rendered.concat rs').parameters <;> rfl

/-- **The text of a statement that leads with fixed pieces** is their wording and then that of the
rest. -/
theorem text_of_fixed_append (hhead : ∀ p ∈ head, p.IsFixed) {p : Prepared}
    (h : prepareOne d (head ++ ps) = .ok p) :
    ∃ text, p.sql = wording d head ++ text ∧ Writes d ps text := by
  obtain ⟨a, text, hsql, ⟨n, xs, taken, written, rs, hxs, hrs, rfl⟩, htext⟩ :=
    (writes_of_prepareAfter h).append
  have hconcat := concat_of_isFixed hhead hxs hrs
  rw [Rendered.concat, Rendered.mk.injEq] at hconcat
  exact ⟨text, by rw [hsql, hconcat.1], htext⟩

end Sql

end TableQuery
