/-
The names that the lists of a statement get.

A list is written out once for each name that a place has as written, so two lists must
not share one.  A counted name is a base and a number, and the number goes up with every
use of the base; two lists of one base therefore differ in the number.  Two of different
bases differ unless the bases are written alike, which happens: a dot and an underscore
come out the same.  `NamesApart` excludes that, and `nodup_listNames` is what follows
from it for a whole statement.
-/
import Mathlib.Data.List.Nodup
import TableQuery.Proofs.Lookup
import TableQuery.Proofs.Sql.Serving

namespace TableQuery

namespace Sql

/-! ### Counting -/

namespace Naming

/-- How often a counted name has been used. -/
def count (n : Naming) (base : String) : Nat := (n.counts.lookup base).getD 0

theorem next_fst (n : Naming) (base : String) : (n.next base).1 = n.count base + 1 := by
  unfold next count
  cases n.counts.lookup base <;> simp

theorem count_next (n : Naming) (base : String) :
    (n.next base).2.count base = n.count base + 1 := by
  unfold next count
  cases n.counts.lookup base <;> simp

theorem count_next_of_ne {base other : String} (h : other ≠ base) (n : Naming) :
    (n.next base).2.count other = n.count other := by
  have hother : (other == base) = false := beq_false_of_ne h
  unfold next count
  cases n.counts.lookup base with
  | none => simp [List.lookup_cons, hother]
  | some k => simp [List.lookup_cons, hother, lookup_filter_ne h]

theorem count_le_count_next (n : Naming) (base other : String) :
    n.count other ≤ (n.next base).2.count other := by
  by_cases h : other = base
  · rw [h, count_next]
    omega
  · exact Nat.le_of_eq (count_next_of_ne h n).symm

theorem own_next (n : Naming) (base : String) : (n.next base).2.own = n.own := by
  unfold next
  cases n.counts.lookup base <;> rfl

end Naming

/-! ### Counted names as written -/

/-- The name of the placeholder that is the `k`-th of a counted name, as written. -/
def countedPlaceholder (base : String) (k : Nat) : String :=
  placeholderName (base ++ "_" ++ toString k)

theorem placeholderChar_of_isDigit {c : Char} (h : c.isDigit = true) : placeholderChar c = c := by
  have hrange : 48 ≤ c.toNat ∧ c.toNat ≤ 57 := by
    simp only [Char.isDigit, Bool.and_eq_true, decide_eq_true_eq, ge_iff_le,
      UInt32.le_iff_toNat_le] at h
    exact h
  have hne : ∀ x : Char, x.toNat < 48 ∨ 57 < x.toNat → (c == x) = false := by
    rintro x hx
    rw [beq_eq_false_iff_ne]
    rintro rfl
    omega
  simp [placeholderChar, hne '%' (by decide), hne '(' (by decide), hne ')' (by decide),
    hne ':' (by decide), hne '.' (by decide), hne '[' (by decide), hne ']' (by decide),
    hne ' ' (by decide)]

/-- The characters that are written in the place of others. -/
def substitutes : List Char := ['P', 'A', 'Z', 'C', '_']

theorem placeholderChar_cases (c : Char) :
    placeholderChar c = c ∨ placeholderChar c ∈ substitutes := by
  unfold placeholderChar substitutes
  grind

/-- **A name that is written without a substitute stands as it is.** -/
theorem placeholderName_of_plain {name : String}
    (h : (placeholderName name).toList.any substitutes.contains = false) :
    placeholderName name = name := by
  have hplain : ∀ c ∈ (placeholderName name).toList, c ∉ substitutes := by
    simpa [List.any_eq_false] using h
  refine String.toList_injective ?_
  rw [placeholderName, String.toList_ofList] at hplain ⊢
  rw [List.map_congr_left (g := id), List.map_id]
  intro c hc
  exact (placeholderChar_cases c).resolve_right (hplain _ (List.mem_map_of_mem hc))

theorem toList_countedPlaceholder (base : String) (k : Nat) :
    (countedPlaceholder base k).toList =
      (placeholderName base).toList ++ '_' :: Nat.toDigits 10 k := by
  have hdigits : (Nat.toDigits 10 k).map placeholderChar = Nat.toDigits 10 k := by
    rw [List.map_congr_left (g := id), List.map_id]
    intro c hc
    exact placeholderChar_of_isDigit (Nat.isDigit_of_mem_toDigits (by decide) (by decide) hc)
  simp only [countedPlaceholder, placeholderName, String.toList_ofList, String.toList_append,
    Nat.toString_eq_repr, Nat.toList_repr, List.map_append, hdigits, List.append_assoc]
  rfl

/-- A counted name stands as it is when its base does. -/
theorem countedPlaceholder_of_plain {base : String} (h : placeholderName base = base) (k : Nat) :
    countedPlaceholder base k = base ++ "_" ++ toString k := by
  refine String.toList_injective ?_
  rw [toList_countedPlaceholder, h]
  simp [Nat.toString_eq_repr]

/-- A counted name as written says what its base is written as, and its number. -/
theorem countedPlaceholder_inj {a b : String} {k l : Nat}
    (h : countedPlaceholder a k = countedPlaceholder b l) :
    placeholderName a = placeholderName b ∧ k = l := by
  -- The number is the longest run of digits at the end.
  have hrun : ∀ (base : String) (k : Nat),
      (countedPlaceholder base k).toList.reverse.takeWhile Char.isDigit =
        (Nat.toDigits 10 k).reverse ∧
      (countedPlaceholder base k).toList.reverse.dropWhile Char.isDigit =
        '_' :: (placeholderName base).toList.reverse := by
    intro base k
    have hall : ∀ c ∈ (Nat.toDigits 10 k).reverse, c.isDigit = true := by
      intro c hc
      exact Nat.isDigit_of_mem_toDigits (by decide) (by decide) (List.mem_reverse.mp hc)
    rw [toList_countedPlaceholder, List.reverse_append, List.reverse_cons, List.append_assoc,
      List.takeWhile_append_of_pos hall, List.dropWhile_append_of_pos hall]
    simp
  obtain ⟨hka, hba⟩ := hrun a k
  obtain ⟨hlb, hbb⟩ := hrun b l
  rw [h, hlb] at hka
  rw [h, hbb] at hba
  constructor
  · exact (String.toList_injective (List.reverse_injective (List.cons.inj hba).2)).symm
  · rw [← Nat.ofDigitChars_ten_toDigits (n := k), ← List.reverse_injective hka,
      Nat.ofDigitChars_ten_toDigits]

/-! ### The lists of a statement -/

/-- The name of the slot of a list. -/
def Piece.listSlot? : Piece → Option String
  | .members slot _ _ => some slot.name
  | _ => none

/-- The name of the slot of a place. -/
def Piece.slotName? : Piece → Option String
  | .value slot _ | .members slot _ _ => some slot.name
  | _ => none

/-- The name that a list has as written. -/
def Placed.listName? : Placed → Option String
  | .members name _ _ _ => some name
  | _ => none

/-- Whether the places of a piece are named by counts. -/
def Piece.IsCounted : Piece → Prop
  | .value slot _ | .members slot _ _ => slot.counted = true
  | _ => True

/-- Whether names that are written alike are counted alike. -/
def NamesApart (names : List String) : Prop :=
  ∀ a ∈ names, ∀ b ∈ names,
    placeholderName (countedName a) = placeholderName (countedName b) →
      countedName a = countedName b

theorem placeholder_of_counted {s : Slot} {n m : Naming} {name : String}
    (hs : s.counted = true) (h : s.placeholder n = .ok (name, m)) :
    name = countedPlaceholder (countedName s.name) (n.count (countedName s.name) + 1) ∧
      m = (n.next (countedName s.name)).2 := by
  obtain ⟨rfl, rfl⟩ := bindName_of_placeholder h
  rw [Slot.bindName, if_pos hs, ← Naming.next_fst]
  exact ⟨rfl, rfl⟩

/-- A counted place gets the next number of its counted name, when no name is taken. -/
theorem placeholder_ok {s : Slot} {n : Naming} (hs : s.counted = true) (hn : n.own = []) :
    s.placeholder n = .ok
      (countedPlaceholder (countedName s.name) (n.count (countedName s.name) + 1),
        (n.next (countedName s.name)).2) := by
  simp [Slot.placeholder, Slot.bindName, hs, hn, Naming.next_fst, countedPlaceholder]

variable {d : Dialect}

/-- What placing the first of several pieces comes to: no name is counted down, and a list gets
the next number of its slot's counted name. -/
theorem place_cons_cases {n : Naming} {p : Piece} {ps : List Piece} {xs : List Placed}
    (hp : p.IsCounted) (h : place d n (p :: ps) = .ok xs) :
    ∃ x m rest, place d m ps = .ok rest ∧ xs = x :: rest ∧ (∀ b, n.count b ≤ m.count b) ∧
      (p.listSlot? = none ∧ x.listName? = none ∨
        ∃ s, p.listSlot? = some s ∧ m.count (countedName s) = n.count (countedName s) + 1 ∧
          x.listName? = some (countedPlaceholder (countedName s) (m.count (countedName s)))) := by
  have same : ∀ b, n.count b ≤ n.count b := fun _ => Nat.le_refl _
  cases p with
  | text s =>
      obtain ⟨rest, hrest, rfl⟩ := map_eq_ok.mp h
      exact ⟨_, n, rest, hrest, rfl, same, .inl ⟨rfl, rfl⟩⟩
  | missing slot =>
      obtain ⟨rest, hrest, rfl⟩ := map_eq_ok.mp h
      exact ⟨_, n, rest, hrest, rfl, same, .inl ⟨rfl, rfl⟩⟩
  | name s =>
      rw [place] at h
      split at h
      · cases h
      · obtain ⟨rest, hrest, rfl⟩ := map_eq_ok.mp h
        exact ⟨_, n, rest, hrest, rfl, same, .inl ⟨rfl, rfl⟩⟩
  | value slot v =>
      rw [place] at h
      split at h
      · cases h
      · rename_i name m hname
        obtain ⟨-, rfl⟩ := placeholder_of_counted hp hname
        obtain ⟨rest, hrest, rfl⟩ := map_eq_ok.mp h
        exact ⟨_, _, rest, hrest, rfl, n.count_le_count_next _, .inl ⟨rfl, rfl⟩⟩
  | members slot use vs =>
      rw [place] at h
      split at h
      · cases h
      · rename_i written m hwritten
        obtain ⟨rfl, rfl⟩ := placeholder_of_counted hp hwritten
        obtain ⟨rest, hrest, rfl⟩ := map_eq_ok.mp h
        refine ⟨_, _, rest, hrest, rfl, n.count_le_count_next _, .inr ⟨slot.name, rfl, ?_⟩⟩
        rw [Naming.count_next]
        exact ⟨rfl, rfl⟩

/-- Every list of a statement is a number of its slot's counted name that was not used
before. -/
theorem listName_of_place {n : Naming} {ps : List Piece} {xs : List Placed}
    (hps : ∀ p ∈ ps, p.IsCounted) (h : place d n ps = .ok xs) :
    ∀ name ∈ xs.filterMap Placed.listName?, ∃ s ∈ ps.filterMap Piece.listSlot?,
      ∃ k, n.count (countedName s) < k ∧ name = countedPlaceholder (countedName s) k := by
  induction ps generalizing n xs with
  | nil =>
      cases h
      simp
  | cons p ps ih =>
      obtain ⟨x, m, rest, hrest, rfl, hle, hcase⟩ := place_cons_cases (hps p List.mem_cons_self) h
      have htail : ∀ name ∈ rest.filterMap Placed.listName?,
          ∃ s ∈ ps.filterMap Piece.listSlot?,
            ∃ k, n.count (countedName s) < k ∧ name = countedPlaceholder (countedName s) k := by
        intro name hname
        obtain ⟨s, hs, k, hk, rfl⟩ := ih (fun q hq => hps q (List.mem_cons_of_mem p hq)) hrest
          name hname
        exact ⟨s, hs, k, Nat.lt_of_le_of_lt (hle _) hk, rfl⟩
      rcases hcase with ⟨hslot, hname⟩ | ⟨s, hslot, hnext, hname⟩
      · rwa [List.filterMap_cons_none hname, List.filterMap_cons_none hslot]
      · rw [List.filterMap_cons_some hname, List.filterMap_cons_some hslot]
        refine List.forall_mem_cons.mpr ⟨?_, fun name hname => ?_⟩
        · exact ⟨s, List.mem_cons_self, _, Nat.lt_of_lt_of_eq (Nat.lt_succ_self _) hnext.symm, rfl⟩
        · obtain ⟨s', hs', hk⟩ := htail name hname
          exact ⟨s', List.mem_cons_of_mem s hs', hk⟩

/-- The bind of every counted place is a number of its slot's counted name. -/
theorem mem_placeNames {n : Naming} {ps : List Piece} (hps : ∀ p ∈ ps, p.IsCounted) :
    ∀ name ∈ placeNames n ps, ∃ s ∈ ps.filterMap Piece.slotName?,
      ∃ k : Nat, name = countedName s ++ "_" ++ toString k := by
  induction ps generalizing n with
  | nil => simp [placeNames, bindNames]
  | cons p ps ih =>
      have htail := fun q hq => hps q (List.mem_cons_of_mem p hq)
      -- A place adds the next number of its slot's counted name.
      have step : ∀ (slot : Slot), slot.counted = true → p.slotName? = some slot.name →
          bindNames n (p :: ps) =
            some (slot.bindName n).1 :: bindNames (slot.bindName n).2 ps →
          ∀ name ∈ placeNames n (p :: ps), ∃ s ∈ (p :: ps).filterMap Piece.slotName?,
            ∃ k : Nat, name = countedName s ++ "_" ++ toString k := by
        intro slot hslot hp hbinds
        rw [placeNames, hbinds, List.filterMap_cons_some (f := id) rfl,
          List.filterMap_cons_some hp]
        refine List.forall_mem_cons.mpr ⟨⟨slot.name, List.mem_cons_self, ?_⟩, fun name hname => ?_⟩
        · rw [Slot.bindName, if_pos hslot]
          exact ⟨_, rfl⟩
        · obtain ⟨s, hs, hk⟩ := ih htail name hname
          exact ⟨s, List.mem_cons_of_mem _ hs, hk⟩
      cases p with
      | text s | name s | missing slot => exact ih htail
      | value slot v => exact step slot (hps _ List.mem_cons_self) rfl rfl
      | members slot use vs => exact step slot (hps _ List.mem_cons_self) rfl rfl

/-- **Counted places whose names are apart are written apart.** -/
theorem writtenApart_of_namesApart {n : Naming} {ps : List Piece} (hps : ∀ p ∈ ps, p.IsCounted)
    (hapart : NamesApart (ps.filterMap Piece.slotName?)) : WrittenApart (placeNames n ps) := by
  intro a ha b hb hab
  obtain ⟨s, hs, k, rfl⟩ := mem_placeNames hps a ha
  obtain ⟨s', hs', l, rfl⟩ := mem_placeNames hps b hb
  obtain ⟨hwritten, rfl⟩ := countedPlaceholder_inj hab
  rw [hapart s hs s' hs' hwritten]

/-- **Lists whose names are apart are named differently.** -/
theorem nodup_listNames {n : Naming} {ps : List Piece} {xs : List Placed}
    (hps : ∀ p ∈ ps, p.IsCounted) (hapart : NamesApart (ps.filterMap Piece.listSlot?))
    (h : place d n ps = .ok xs) : (xs.filterMap Placed.listName?).Nodup := by
  induction ps generalizing n xs with
  | nil =>
      cases h
      exact List.nodup_nil
  | cons p ps ih =>
      obtain ⟨x, m, rest, hrest, rfl, -, hcase⟩ := place_cons_cases (hps p List.mem_cons_self) h
      have htail : ∀ q ∈ ps, q.IsCounted := fun q hq => hps q (List.mem_cons_of_mem p hq)
      rcases hcase with ⟨hslot, hname⟩ | ⟨s, hslot, -, hname⟩
      · rw [List.filterMap_cons_none hslot] at hapart
        rw [List.filterMap_cons_none hname]
        exact ih htail hapart hrest
      · rw [List.filterMap_cons_some hslot] at hapart
        rw [List.filterMap_cons_some hname, List.nodup_cons]
        refine ⟨fun hmem => ?_, ih htail ?_ hrest⟩
        · -- A later list of this name would have the same base and a greater number.
          obtain ⟨s', hs', k, hk, heq⟩ := listName_of_place htail hrest _ hmem
          obtain ⟨hwritten, hnumber⟩ := countedPlaceholder_inj heq
          have hbase := hapart s List.mem_cons_self s' (List.mem_cons_of_mem s hs') hwritten
          rw [← hbase] at hk
          omega
        · intro a ha b hb
          exact hapart a (List.mem_cons_of_mem s ha) b (List.mem_cons_of_mem s hb)

end Sql

end TableQuery
