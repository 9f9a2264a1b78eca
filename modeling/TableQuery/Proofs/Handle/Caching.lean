/-
What is kept of the copies of tables, and for how long.

A cache keeps the copies that were asked for last.  So what it keeps is a matter of the order in
which copies have been asked for and of nothing else (`keys_cacheAfter`), and how long a copy
stays can be read off that order: it is gone as soon as enough others have been asked for in a
stretch in which it was not (`Stays`).  A copy that is gone is made again when it is asked for,
with a number that no object had before, so it is never the same object again; that is why
`number?_iff_stays` speaks of all stretches since a copy was made and not only of the last one.
-/
import Mathlib.Data.Finset.Card
import Mathlib.Data.List.Infix
import TableQuery.Handle.Cache
import TableQuery.Proofs.Lookup

namespace TableQuery

/-! ### The order of asking -/

section

variable {α : Type} [BEq α] [LawfulBEq α]

/-- Keys after one was asked for: it comes first, and stands nowhere else. -/
def touch (k : α) (ks : List α) : List α := k :: ks.filter (fun x => x != k)

/-- The keys that were asked for one after another, each once, the last one first. -/
def recency (asked : List α) : List α := asked.foldl (fun ks k => touch k ks) []

variable {k : α} {ks asked : List α}

omit [LawfulBEq α] in
theorem recency_concat (asked : List α) (k : α) :
    recency (asked ++ [k]) = touch k (recency asked) := by
  rw [recency, List.foldl_append]
  rfl

theorem mem_touch {x : α} : x ∈ touch k ks ↔ x = k ∨ x ∈ ks := by
  by_cases h : x = k <;> simp [touch, h]

theorem nodup_touch (h : ks.Nodup) : (touch k ks).Nodup :=
  List.nodup_cons.mpr ⟨by simp, h.filter _⟩

theorem mem_recency {x : α} : x ∈ recency asked ↔ x ∈ asked := by
  induction asked using List.reverseRecOn with
  | nil => exact Iff.rfl
  | append_singleton asked k ih =>
      rw [recency_concat, mem_touch, ih, List.mem_append, List.mem_singleton, or_comm]

theorem nodup_recency (asked : List α) : (recency asked).Nodup := by
  induction asked using List.reverseRecOn with
  | nil => exact List.nodup_nil
  | append_singleton asked k ih =>
      rw [recency_concat]
      exact nodup_touch ih

theorem length_recency [DecidableEq α] (asked : List α) :
    (recency asked).length = asked.toFinset.card := by
  rw [← List.toFinset_card_of_nodup (nodup_recency asked)]
  congr 1
  ext x
  simp [mem_recency]

/-- What was asked for later comes first, and what was asked for before follows without it. -/
theorem recency_append (asked later : List α) : recency (asked ++ later) =
    recency later ++ (recency asked).filter (fun x => !later.contains x) := by
  induction later using List.reverseRecOn with
  | nil => simp [recency]
  | append_singleton later k ih =>
      rw [← List.append_assoc, recency_concat, ih, recency_concat, touch, touch, List.filter_append,
        List.filter_filter, List.cons_append]
      congr 2
      refine List.filter_congr fun x _ => ?_
      rw [List.contains_append, Bool.not_or]
      by_cases h : x = k <;> simp [h]

/-- A key is followed by what was asked for before it, and preceded by what was asked for
since. -/
theorem recency_of_not_mem (asked : List α) {later : List α} (h : k ∉ later) : ∃ rest,
    recency (asked ++ k :: later) = recency later ++ k :: rest := by
  have hkept : (!later.contains k) = true := by simpa using h
  refine ⟨((recency asked).filter (fun x => x != k)).filter (fun x => !later.contains x), ?_⟩
  rw [List.append_cons, recency_append, recency_concat, touch]
  exact congrArg (recency later ++ ·) (List.filter_cons_of_pos hkept)

omit [BEq α] [LawfulBEq α] in
/-- The last place of a member of a list. -/
theorem eq_append_of_mem_last (h : k ∈ ks) : ∃ front back, ks = front ++ k :: back ∧ k ∉ back := by
  obtain ⟨back, front, hreverse, hback⟩ := List.eq_append_cons_of_mem (List.mem_reverse.mpr h)
  refine ⟨front.reverse, back.reverse, ?_, by simpa using hback⟩
  rw [← List.reverse_reverse ks, hreverse]
  simp

/-- A key is among the last `n` that were asked for as long as fewer than `n` others have been
asked for in every stretch that leads up to now and in which it was not. -/
theorem mem_take_recency_iff [DecidableEq α] {n : Nat} {later : List α} :
    k ∈ (recency (asked ++ k :: later)).take n ↔
      ∀ stretch, stretch <:+ later → k ∉ stretch → stretch.toFinset.card < n := by
  obtain ⟨front, back, hsplit, hback⟩ :=
    eq_append_of_mem_last (List.mem_append_right asked (List.mem_cons_self (a := k) (l := later)))
  -- The longest stretch without the key is what stands behind its last place.
  have hlongest : k :: back <:+ asked ++ k :: later := hsplit ▸ List.suffix_append front _
  have hall : ∀ stretch, stretch <:+ later → k ∉ stretch → stretch <:+ back := by
    intro stretch hstretch hk
    have hwhole : stretch <:+ asked ++ k :: later :=
      (hstretch.trans (List.suffix_cons k later)).trans (List.suffix_append asked _)
    rcases List.suffix_or_suffix_of_suffix hwhole hlongest with h | h
    · rcases List.suffix_cons_iff.mp h with rfl | h
      · exact absurd List.mem_cons_self hk
      · exact h
    · exact absurd (h.subset List.mem_cons_self) hk
  have hlater : k :: later <:+ asked ++ k :: later := List.suffix_append asked _
  have hbackLater : back <:+ later := by
    rcases List.suffix_or_suffix_of_suffix hlongest hlater with h | h
    · rcases List.suffix_cons_iff.mp h with h | h
      · rw [(List.cons.inj h).2]
      · exact (List.suffix_cons k back).trans h
    · rcases List.suffix_cons_iff.mp h with h | h
      · rw [(List.cons.inj h).2]
      · exact absurd (h.subset List.mem_cons_self) hback
  obtain ⟨rest, hrecency⟩ := recency_of_not_mem front hback
  have hplace : k ∈ (recency (asked ++ k :: later)).take n ↔ (recency back).length < n := by
    have hfront : k ∉ (recency back).take n :=
      fun h => hback (mem_recency.mp (List.mem_of_mem_take h))
    rw [hsplit, hrecency, List.take_append, List.mem_append, or_iff_right hfront]
    cases hn : n - (recency back).length with
    | zero => simp; omega
    | succ m => simp; omega
  rw [hplace, length_recency]
  constructor
  · intro h stretch hstretch hk
    refine Nat.lt_of_le_of_lt (Finset.card_le_card fun x hx => ?_) h
    exact List.mem_toFinset.mpr ((hall stretch hstretch hk).subset (List.mem_toFinset.mp hx))
  · exact fun h => h back hbackLater hback

/-- The keys that are kept after one was asked for: the same ones when it is among them, and
else all but the last. -/
theorem take_touch {n : Nat} (h : ks.Nodup) : (touch k ks).take (n + 1) =
    if k ∈ ks.take (n + 1) then touch k (ks.take (n + 1)) else k :: (ks.take (n + 1)).take n := by
  generalize hkept : ks.take (n + 1) = kept
  generalize hrest : ks.drop (n + 1) = rest
  have hks : ks = kept ++ rest := by rw [← hkept, ← hrest, List.take_append_drop]
  -- Something is only left over when as much is kept as there is room for.
  have hfull : rest = [] ∨ kept.length = n + 1 := by
    rw [← hkept, ← hrest, List.length_take, List.drop_eq_nil_iff]
    omega
  have hnone : ∀ {others : List α} {m : Nat}, rest = [] ∨ m ≤ others.length →
      (others ++ rest.filter (fun x => x != k)).take m = others.take m := by
    rintro others m (hempty | hm)
    · simp [hempty]
    · exact List.take_append_of_le_length hm
  rw [touch, hks, List.filter_append, List.take_succ_cons]
  split
  case isTrue hk =>
    have hnodup : kept.Nodup := hkept ▸ h.sublist (List.take_sublist _ _)
    have hlength : (kept.filter (fun x => x != k)).length + 1 = kept.length := by
      rw [← hnodup.erase_eq_filter, List.length_erase_of_mem hk]
      exact Nat.succ_pred_eq_of_pos (List.length_pos_of_mem hk)
    have hroom : kept.length ≤ n + 1 := hkept ▸ List.length_take_le _ _
    rw [touch, hnone (hfull.imp_right fun h => by omega), List.take_of_length_le (by omega)]
  case isFalse hk =>
    have hother : kept.filter (fun x => x != k) = kept :=
      List.filter_eq_self.mpr fun x hx => by simpa using fun hxk : x = k => hk (hxk ▸ hx)
    rw [hother, hnone (hfull.imp_right fun h => by omega)]

end

/-! ### What a resolution does -/

/-- The mapping of a handle's model; none when it has no model, or one that is not mapped. -/
def Handle.mapping? (h : Handle) : Option Mapping := h.model.bind (·.mapping)

/-- The mapped table and the name of the copy that a handle's table is, unless it is the mapped
table itself or known by its name alone. -/
def Handle.copyKey? (h : Handle) : Option (String × String) :=
  match h.mapping?, h.ownName? with
  | some m, some name => if name = m.tableName then none else some (m.object, name)
  | _, _ => none

namespace TableCache

/-- The number of the copy that is kept under a key. -/
def number? (c : TableCache) (k : String × String) : Option Nat := c.recent.lookup k

/-- What asking for a handle's table does: which object it is, and what becomes of the copies
that are kept. -/
inductive Resolves (c : TableCache) (h : Handle) : TableObject → TableCache → Prop
  /-- A table that is known by its name alone is a new object each time. -/
  | named (hmapping : h.mapping? = none) : Resolves c h (.made c.next) { c with next := c.next + 1 }
  /-- The mapped table is one object. -/
  | mapped {m : Mapping} (hmapping : h.mapping? = some m) (hkey : h.copyKey? = none) :
      Resolves c h (.mapped m.object) c
  /-- A copy that is kept is the object that it was, and nothing is renumbered. -/
  | kept {k : String × String} {n : Nat} {c' : TableCache} (hkey : h.copyKey? = some k)
      (hnumber : c.number? k = some n) (hnext : c'.next = c.next)
      (hsame : ∀ k', c'.number? k' = c.number? k') : Resolves c h (.made n) c'
  /-- A copy that is not kept is made, and may take the place of another one. -/
  | made {k : String × String} {c' : TableCache} (hkey : h.copyKey? = some k)
      (hnumber : c.number? k = none) (hnext : c'.next = c.next + 1)
      (hself : c'.number? k = some c.next)
      (hothers : ∀ k' n, k' ≠ k → c'.number? k' = some n → c.number? k' = some n) :
      Resolves c h (.made c.next) c'

variable {c : TableCache} {h : Handle} {k k' : String × String} {n : Nat}

/-- Which copy is asked for decides what a resolution does. -/
theorem resolve_eq (c : TableCache) (h : Handle) : c.resolve h =
    match h.copyKey? with
    | some k => c.copy k.1 k.2
    | none =>
      match h.mapping? with
      | none => c.fresh
      | some m => (.mapped m.object, c) := by
  unfold resolve Handle.copyKey? Handle.mapping?
  cases h.model with
  | none => rfl
  | some model =>
      dsimp only [Option.map_some, Option.bind_some]
      cases model.mapping with
      | none => rfl
      | some m =>
          cases h.ownName? with
          | none => rfl
          | some name => by_cases hname : name = m.tableName <;> simp [hname]

theorem copy_of_some (hn : c.number? k = some n) : c.copy k.1 k.2 =
    (.made n, ⟨(k, n) :: c.recent.filter (fun e => e.1 != k), c.next⟩) := by
  rw [number?] at hn
  simp only [copy, hn]

theorem copy_of_none (hn : c.number? k = none) : c.copy k.1 k.2 =
    (.made c.next, ⟨((k, c.next) :: c.recent).take capacity, c.next + 1⟩) := by
  rw [number?] at hn
  simp only [copy, hn]

/-- **Asking for a handle's table** does one of four things. -/
theorem resolves (c : TableCache) (h : Handle) :
    Resolves c h (c.resolve h).1 (c.resolve h).2 := by
  rw [resolve_eq]
  cases hkey : h.copyKey? with
  | none =>
      cases hmapping : h.mapping? with
      | none => exact .named hmapping
      | some m => exact .mapped hmapping hkey
  | some k =>
      cases hnumber : c.number? k with
      | some n =>
          simp only [copy_of_some hnumber]
          refine .kept hkey hnumber rfl fun k' => ?_
          show ((k, n) :: c.recent.filter (fun e => e.1 != k)).lookup k' = c.number? k'
          by_cases hk : k' = k
          · rw [hk, hnumber, List.lookup_cons_self]
          · rw [List.lookup_cons, beq_false_of_ne hk, lookup_filter_ne hk, number?]
      | none =>
          simp only [copy_of_none hnumber]
          refine .made hkey hnumber rfl List.lookup_cons_self fun k' n hk hn => ?_
          have hfound : ((k, c.next) :: c.recent).lookup k' = some n := lookup_of_lookup_take hn
          rwa [List.lookup_cons, beq_false_of_ne hk] at hfound

namespace Resolves

variable {o : TableObject} {c' : TableCache}

/-- Numbers are never given back. -/
theorem next_le (hr : Resolves c h o c') : c.next ≤ c'.next := by
  cases hr with
  | named => exact Nat.le_succ _
  | mapped => exact Nat.le_refl _
  | kept _ _ hnext _ => exact Nat.le_of_eq hnext.symm
  | made _ _ hnext _ _ => exact hnext ▸ Nat.le_succ _

theorem number?_of_none (hr : Resolves c h o c') (hkey : h.copyKey? = none) :
    c'.number? k = c.number? k := by
  cases hr with
  | named => rfl
  | mapped => rfl
  | kept hsome => rw [hkey] at hsome; cases hsome
  | made hsome => rw [hkey] at hsome; cases hsome

/-- Asking for other copies numbers none anew. -/
theorem number?_of_ne (hr : Resolves c h o c') (hkey : h.copyKey? ≠ some k)
    (hn : c'.number? k = some n) : c.number? k = some n := by
  cases hr with
  | named => exact hn
  | mapped => exact hn
  | kept _ _ _ hsame => rwa [hsame] at hn
  | made hsome _ _ _ hothers => exact hothers k n (fun hk => hkey (hk ▸ hsome)) hn

/-- Asking for a copy leaves it the number that it has, and gives it none that is in use. -/
theorem number?_self_iff (hr : Resolves c h o c') (hkey : h.copyKey? = some k) (hn : n < c.next) :
    c'.number? k = some n ↔ c.number? k = some n := by
  cases hr with
  | named => exact Iff.rfl
  | mapped => exact Iff.rfl
  | kept _ _ _ hsame => rw [hsame]
  | made hsome hnumber _ hself _ =>
      cases hkey.symm.trans hsome
      rw [hself, hnumber]
      simp [Nat.ne_of_gt hn]

/-- The object that a copy is, among those that there are. -/
theorem object_iff (hr : Resolves c h o c') (hkey : h.copyKey? = some k) (hn : n < c.next) :
    o = .made n ↔ c.number? k = some n := by
  cases hr with
  | named hmapping => simp [Handle.copyKey?, hmapping] at hkey
  | mapped _ hnone => rw [hnone] at hkey; cases hkey
  | kept hsome hnumber _ _ =>
      cases hkey.symm.trans hsome
      rw [hnumber, TableObject.made.injEq, Option.some.injEq]
  | made hsome hnumber _ _ _ =>
      cases hkey.symm.trans hsome
      rw [hnumber]
      simp [Nat.ne_of_gt hn]

end Resolves

/-- Whether the numbers in a cache were given once each. -/
structure Numbered (c : TableCache) : Prop where
  /-- Only numbers that were given are in use. -/
  below : ∀ k n, c.number? k = some n → n < c.next
  /-- No two copies have one number. -/
  injective : ∀ k k' n, c.number? k = some n → c.number? k' = some n → k = k'

theorem Resolves.numbered {o : TableObject} {c' : TableCache} (hr : Resolves c h o c')
    (hc : Numbered c) : Numbered c' := by
  cases hr with
  | named => exact ⟨fun k n hn => Nat.lt_succ_of_lt (hc.below k n hn), hc.injective⟩
  | mapped => exact hc
  | kept _ _ hnext hsame =>
      refine ⟨fun k n hn => ?_, fun k k' n hn hn' => ?_⟩
      · rw [hsame] at hn
        rw [hnext]
        exact hc.below k n hn
      · rw [hsame] at hn hn'
        exact hc.injective k k' n hn hn'
  | @made key _ hkey hnumber hnext hself hothers =>
      -- A copy other than the one that is made had its number before, which is not the next one.
      have hold : ∀ k n, k ≠ key → c'.number? k = some n → n < c.next := fun k n hk hn =>
        hc.below k n (hothers k n hk hn)
      refine ⟨fun k n hn => ?_, fun k k' n hn hn' => ?_⟩
      · rw [hnext]
        by_cases hk : k = key
        · rw [hk, hself] at hn
          cases hn
          exact Nat.lt_succ_self _
        · exact Nat.lt_succ_of_lt (hold k n hk hn)
      · by_cases hk : k = key <;> by_cases hk' : k' = key
        · rw [hk, hk']
        · rw [hk, hself] at hn
          cases hn
          exact absurd (hold k' _ hk' hn') (Nat.lt_irrefl _)
        · rw [hk', hself] at hn'
          cases hn'
          exact absurd (hold k _ hk hn) (Nat.lt_irrefl _)
        · exact hc.injective k k' n (hothers k n hk hn) (hothers k' n hk' hn')

/-! ### What is left after many resolutions -/

/-- The cache after handles have been asked for their tables one after another. -/
def after (hs : List Handle) : TableCache := hs.foldl (fun c h => (c.resolve h).2) empty

theorem after_concat (hs : List Handle) (h : Handle) :
    after (hs ++ [h]) = ((after hs).resolve h).2 := by
  rw [after, List.foldl_append]
  rfl

/-- The copies that handles asked for, in order. -/
def asked (hs : List Handle) : List (String × String) := hs.filterMap Handle.copyKey?

theorem asked_concat (hs : List Handle) (h : Handle) :
    asked (hs ++ [h]) = asked hs ++ h.copyKey?.toList := by
  rw [asked, List.filterMap_append]
  cases hkey : h.copyKey? <;> simp [hkey, asked]

/-- The keys that are kept. -/
def keys (c : TableCache) : List (String × String) := c.recent.map Prod.fst

theorem number?_isSome : (c.number? k).isSome = true ↔ k ∈ c.keys := by
  rw [number?, List.lookup_isSome_iff, keys, List.mem_map]
  simp only [beq_iff_eq, @eq_comm _ k]

theorem keys_filter : (c.recent.filter (fun e => e.1 != k)).map Prod.fst =
    c.keys.filter (fun x => x != k) := by
  rw [keys, List.filter_map]
  rfl

/-- The keys that are kept after a copy was asked for. -/
theorem keys_copy (k : String × String) : (c.copy k.1 k.2).2.keys =
    if k ∈ c.keys then touch k c.keys else (k :: c.keys).take capacity := by
  cases hnumber : c.number? k with
  | some n =>
      have hk : k ∈ c.keys := number?_isSome.mp (by rw [hnumber]; rfl)
      rw [copy_of_some hnumber, if_pos hk]
      exact congrArg (k :: ·) keys_filter
  | none =>
      have hk : k ∉ c.keys := fun hk => by
        simpa [hnumber] using number?_isSome.mpr hk
      rw [copy_of_none hnumber, if_neg hk, keys, List.map_take]
      rfl

/-- **The copies that are kept** are the ones that were asked for last, as many as there is room
for. -/
theorem keys_after (hs : List Handle) :
    (after hs).keys = (recency (asked hs)).take capacity := by
  induction hs using List.reverseRecOn with
  | nil => rfl
  | append_singleton hs h ih =>
      rw [after_concat, asked_concat, resolve_eq]
      cases hkey : h.copyKey? with
      | none =>
          rw [Option.toList_none, List.append_nil, ← ih]
          cases h.mapping? <;> rfl
      | some k =>
          rw [Option.toList_some, recency_concat]
          show ((after hs).copy k.1 k.2).2.keys = _
          rw [keys_copy, ih]
          exact (take_touch (nodup_recency (asked hs))).symm

/-- Whether a copy that was made before stays the same object while copies are asked for: in no
stretch without it are so many different others asked for that there is no room left. -/
def Stays (k : String × String) (between : List (String × String)) : Prop :=
  ∀ stretch, stretch <:+: between → k ∉ stretch → stretch.toFinset.card < capacity

/-- Asking for a copy itself ends a stretch. -/
theorem stays_concat_self {between : List (String × String)} :
    Stays k (between ++ [k]) ↔ Stays k between := by
  constructor
  · exact fun h stretch hstretch =>
      h stretch (hstretch.trans (List.prefix_append between [k]).isInfix)
  · intro h stretch hstretch hk
    rcases List.infix_concat_iff.mp hstretch with hsuffix | hinfix
    · rcases List.suffix_concat_iff.mp hsuffix with rfl | ⟨front, rfl, -⟩
      · exact h [] List.nil_infix hk
      · simp at hk
    · exact h stretch hinfix hk

theorem stays_concat {between : List (String × String)} : Stays k (between ++ [k']) ↔
    Stays k between ∧ ∀ stretch, stretch <:+ between ++ [k'] → k ∉ stretch →
      stretch.toFinset.card < capacity := by
  constructor
  · exact fun h => ⟨fun stretch hstretch =>
      h stretch (hstretch.trans (List.prefix_append between [k']).isInfix),
      fun stretch hstretch => h stretch hstretch.isInfix⟩
  · rintro ⟨hbefore, hlast⟩ stretch hstretch hk
    rcases List.infix_concat_iff.mp hstretch with hsuffix | hinfix
    · exact hlast stretch hsuffix hk
    · exact hbefore stretch hinfix hk

/-- A copy stays while there is room for everything that is asked for. -/
theorem stays_of_length_lt {between : List (String × String)} (h : between.length < capacity) :
    Stays k between := by
  intro stretch hstretch _
  have hcard := List.toFinset_card_le stretch
  have hlength := hstretch.length_le
  omega

/-- A copy does not stay when as many different others are asked for as there is room for. -/
theorem not_stays {between : List (String × String)} (hk : k ∉ between) (hnodup : between.Nodup)
    (h : capacity ≤ between.length) : ¬Stays k between := by
  intro hstays
  have hcard := hstays between (List.infix_refl between) hk
  rw [List.toFinset_card_of_nodup hnodup] at hcard
  omega

/-- A copy that was asked for is kept as long as its last stretch leaves room. -/
theorem number?_isSome_after {a : Handle} (hkey : a.copyKey? = some k)
    (before between : List Handle) :
    ((after (before ++ a :: between)).number? k).isSome = true ↔
      ∀ stretch, stretch <:+ asked between → k ∉ stretch → stretch.toFinset.card < capacity := by
  have hasked : asked (before ++ a :: between) = asked before ++ k :: asked between := by
    rw [asked, List.filterMap_append, List.filterMap_cons_some hkey]
    rfl
  rw [number?_isSome, keys_after, hasked]
  exact mem_take_recency_iff

theorem numbered_after (hs : List Handle) : Numbered (after hs) := by
  induction hs using List.reverseRecOn with
  | nil => exact ⟨fun _ _ hn => (by cases hn), fun _ _ _ hn => (by cases hn)⟩
  | append_singleton hs h ih =>
      rw [after_concat]
      exact (resolves _ h).numbered ih

/-- A copy that was just asked for has the number of the object that it is. -/
theorem number?_of_resolve (hc : Numbered c) (hkey : h.copyKey? = some k)
    (hobject : (c.resolve h).1 = .made n) :
    (c.resolve h).2.number? k = some n ∧ n < (c.resolve h).2.next := by
  have hr := resolves c h
  rw [hobject] at hr
  generalize (c.resolve h).2 = c' at hr
  cases hr with
  | named hmapping => simp [Handle.copyKey?, hmapping] at hkey
  | kept hsome hnumber hnext hsame =>
      cases hkey.symm.trans hsome
      exact ⟨by rw [hsame, hnumber], hnext ▸ hc.below _ _ hnumber⟩
  | made hsome _ hnext hself _ =>
      cases hkey.symm.trans hsome
      exact ⟨hself, hnext ▸ Nat.lt_succ_self _⟩

section

variable {before : List Handle} {a : Handle}

theorem after_append_cons_concat (before between : List Handle) (a h : Handle) :
    after (before ++ a :: (between ++ [h])) =
      ((after (before ++ a :: between)).resolve h).2 := by
  rw [← after_concat, List.append_assoc, List.cons_append]

/-- The number of an object stays given. -/
theorem lt_next_after (hkey : a.copyKey? = some k)
    (hobject : ((after before).resolve a).1 = .made n) (between : List Handle) :
    n < (after (before ++ a :: between)).next := by
  induction between using List.reverseRecOn with
  | nil =>
      rw [after_concat]
      exact (number?_of_resolve (numbered_after before) hkey hobject).2
  | append_singleton between h ih =>
      rw [after_append_cons_concat]
      exact Nat.lt_of_lt_of_le ih (resolves _ h).next_le

/-- **How long a copy is the same object**: it has its number exactly as long as it stays. -/
theorem number?_iff_stays (hkey : a.copyKey? = some k)
    (hobject : ((after before).resolve a).1 = .made n) (between : List Handle) :
    (after (before ++ a :: between)).number? k = some n ↔ Stays k (asked between) := by
  induction between using List.reverseRecOn with
  | nil =>
      have hstays : Stays k (asked []) := by
        intro stretch hstretch _
        rw [List.infix_nil.mp hstretch]
        decide
      rw [after_concat]
      exact iff_of_true (number?_of_resolve (numbered_after before) hkey hobject).1 hstays
  | append_singleton between h ih =>
      have hsome := number?_isSome_after hkey before (between ++ [h])
      have hr := resolves (after (before ++ a :: between)) h
      rw [after_append_cons_concat] at hsome ⊢
      rw [asked_concat] at hsome ⊢
      cases hother : h.copyKey? with
      | none =>
          rw [hr.number?_of_none hother, ih, Option.toList_none, List.append_nil]
      | some k' =>
          rw [hother] at hsome
          rw [Option.toList_some] at hsome ⊢
          by_cases hk : k' = k
          · subst hk
            rw [hr.number?_self_iff hother (lt_next_after hkey hobject between), ih,
              stays_concat_self]
          · -- Another copy numbers this one no other way, but may leave no room for it.
            have hne : h.copyKey? ≠ some k := fun h => hk (Option.some.inj (hother.symm.trans h))
            rw [stays_concat, ← hsome, ← ih]
            constructor
            · exact fun hn => ⟨hr.number?_of_ne hne hn, by rw [hn]; rfl⟩
            · rintro ⟨hn, hkept⟩
              obtain ⟨m, hm⟩ := Option.isSome_iff_exists.mp hkept
              rw [hm, ← hr.number?_of_ne hne hm, hn]

/-- No other copy is given the number of an object later. -/
theorem eq_of_number? (hkey : a.copyKey? = some k)
    (hobject : ((after before).resolve a).1 = .made n) {between : List Handle}
    (hn : (after (before ++ a :: between)).number? k' = some n) : k' = k := by
  induction between using List.reverseRecOn with
  | nil =>
      rw [after_concat] at hn
      have hself := (number?_of_resolve (numbered_after before) hkey hobject).1
      exact ((resolves _ a).numbered (numbered_after before)).injective k' k n hn hself
  | append_singleton between h ih =>
      have hr := resolves (after (before ++ a :: between)) h
      rw [after_append_cons_concat] at hn
      by_cases hother : h.copyKey? = some k'
      · exact ih ((hr.number?_self_iff hother (lt_next_after hkey hobject between)).mp hn)
      · exact ih (hr.number?_of_ne hother hn)

end

end TableCache

end TableQuery
