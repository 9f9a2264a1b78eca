/-
Which object a handle's table is, over a whole run.

A run makes handles of handles and asks some of them for their tables.  All of them share one
cache, so what a handle's table is depends on everything that was asked for before; a run does no
more than ask for the tables in the order of its log (`Replays`), which is where
`TableCache.number?_iff_stays` applies.  A resolution has the right table in every case.  The own
table of a model is one object throughout, for all models that are mapped to it.  A copy is one
object as long as it stays in the cache, and a long-lived handle to a shard does come to have
another object when `TableCache.capacity` other shards are resolved without it
(`resolutions_of_many_shards`).
-/
import TableQuery.Catalog
import TableQuery.Proofs.Handle.Caching

namespace TableQuery

/-! ### Handles of models -/

namespace Handle

variable {h : Handle} {model : Model} {m : Mapping}

/-- The table of a handle of a mapped model has the handle's own name, or else the model's, and
the model's columns. -/
theorem table_eq (hmodel : h.model = some model) (hmapping : model.mapping = some m) :
    h.table = .ok ⟨h.ownName?.getD m.tableName, m.table.columns⟩ := by
  rw [table, hmodel]
  simp only [hmapping]
  cases h.ownName? <;> rfl

theorem mapping?_eq (hmodel : h.model = some model) (hmapping : model.mapping = some m) :
    h.mapping? = some m := by
  rw [mapping?, hmodel]
  exact hmapping

/-- A handle of a mapped model asks for a copy when its table has another name than the
model's. -/
theorem copyKey?_eq (hm : h.mapping? = some m) :
    h.copyKey? = if h.ownName?.getD m.tableName = m.tableName then none
      else some (m.object, h.ownName?.getD m.tableName) := by
  rw [copyKey?, hm]
  cases h.ownName? with
  | none => simp
  | some name => rfl

theorem fst_copyKey? {k : String × String} (hm : h.mapping? = some m)
    (hkey : h.copyKey? = some k) : k.1 = m.object := by
  rw [copyKey?_eq hm] at hkey
  split at hkey
  · cases hkey
  · rw [← Option.some.inj hkey]

end Handle

/-! ### Pairs of resolutions -/

namespace TableCache

variable {before between : List Handle} {a b : Handle} {k : String × String}

/-- A copy is a numbered object. -/
theorem exists_number (c : TableCache) (hkey : a.copyKey? = some k) :
    ∃ n, (c.resolve a).1 = .made n := by
  have hr := resolves c a
  generalize (c.resolve a).1 = o at hr ⊢
  generalize (c.resolve a).2 = c' at hr
  cases hr with
  | named => exact ⟨_, rfl⟩
  | mapped _ hnone => rw [hkey] at hnone; cases hnone
  | kept => exact ⟨_, rfl⟩
  | made => exact ⟨_, rfl⟩

/-- The own table of a model is the table that it is mapped to. -/
theorem object_mapped {c : TableCache} {m : Mapping} (hm : a.mapping? = some m)
    (hkey : a.copyKey? = none) : (c.resolve a).1 = .mapped m.object := by
  rw [resolve_eq, hkey, hm]

/-- **A copy is the same object** as before exactly when it stayed. -/
theorem object_eq_iff (ha : a.copyKey? = some k) (hb : b.copyKey? = some k) :
    ((after before).resolve a).1 = ((after (before ++ a :: between)).resolve b).1 ↔
      Stays k (asked between) := by
  obtain ⟨n, hobject⟩ := exists_number (after before) ha
  have hlt := lt_next_after ha hobject between
  rw [hobject, eq_comm, (resolves _ b).object_iff hb hlt, number?_iff_stays ha hobject]

/-- Handles of mapped models have the same object only when it is one mapped table, or one copy of
one. -/
theorem copyKey?_eq_of_object_eq {m m' : Mapping} (ha : a.mapping? = some m)
    (hb : b.mapping? = some m')
    (h : ((after before).resolve a).1 = ((after (before ++ a :: between)).resolve b).1) :
    a.copyKey? = b.copyKey? ∧ m.object = m'.object := by
  cases hkey : a.copyKey? with
  | none =>
      rw [object_mapped ha hkey] at h
      cases hother : b.copyKey? with
      | none =>
          rw [object_mapped hb hother] at h
          exact ⟨rfl, TableObject.mapped.inj h⟩
      | some k =>
          obtain ⟨n, hn⟩ := exists_number (after (before ++ a :: between)) hother
          rw [hn] at h
          cases h
  | some k =>
      obtain ⟨n, hobject⟩ := exists_number (after before) hkey
      have hlt := lt_next_after hkey hobject between
      rw [hobject] at h
      cases hother : b.copyKey? with
      | none =>
          rw [object_mapped hb hother] at h
          cases h
      | some k' =>
          have hnumber := ((resolves _ b).object_iff hother hlt).mp h.symm
          have hk : k' = k := eq_of_number? hkey hobject hnumber
          refine ⟨by rw [hk], ?_⟩
          rw [← Handle.fst_copyKey? ha hkey, ← Handle.fst_copyKey? hb hother, hk]

end TableCache

/-! ### Runs -/

/-- A step of a run, by the number of a handle that was made before. -/
inductive Move where
  /-- A handle like it with another model, or none. -/
  | withModel (handle : Nat) (model : Option Model)
  /-- A handle like it with another table name, or none. -/
  | withTableName (handle : Nat) (name : Option String)
  /-- Its table is asked for. -/
  | resolve (handle : Nat)

/-- A handle's table that was asked for, and the object that it is. -/
structure Resolution where
  handle : Handle
  object : TableObject

/-- A run so far: the handles that were made, the cache that they share, and the resolutions in
order. -/
structure Resolving where
  handles : List Handle
  cache : TableCache
  log : List Resolution

namespace Resolving

/-- One handle bound to nothing, and no copies. -/
def start : Resolving := ⟨[.unbound], .empty, []⟩

/-- A handle is made. -/
def make (s : Resolving) (h : Handle) : Resolving := { s with handles := s.handles ++ [h] }

/-- A handle's table is asked for. -/
def ask (s : Resolving) (h : Handle) : Resolving :=
  let (object, cache) := s.cache.resolve h
  { s with cache, log := s.log ++ [⟨h, object⟩] }

/-- One step; one of a handle that there is not does nothing. -/
def step (s : Resolving) : Move → Resolving
  | .withModel i model => (s.handles[i]?.map (fun h => s.make (h.withModel model))).getD s
  | .withTableName i name => (s.handles[i]?.map (fun h => s.make (h.withTableName name))).getD s
  | .resolve i => (s.handles[i]?.map s.ask).getD s

/-- All steps from the start. -/
def run (moves : List Move) : Resolving := moves.foldl step start

/-- Whether a run did nothing but ask for the tables that it logged, in their order. -/
structure Replays (s : Resolving) : Prop where
  /-- The cache is what the resolutions have left. -/
  cache : s.cache = .after (s.log.map (·.handle))
  /-- Every object is what its resolution found after the earlier ones. -/
  object : ∀ before e later, s.log = before ++ e :: later →
    e.object = ((TableCache.after (before.map (·.handle))).resolve e.handle).1

variable {s : Resolving}

theorem log_ask (s : Resolving) (h : Handle) :
    (s.ask h).log = s.log ++ [⟨h, (s.cache.resolve h).1⟩] := rfl

theorem replays_ask (hs : Replays s) (h : Handle) : Replays (s.ask h) := by
  constructor
  case cache =>
    rw [log_ask, List.map_append, List.map_singleton, TableCache.after_concat, ← hs.cache]
    rfl
  case object =>
    intro before e later hlog
    rw [log_ask] at hlog
    rcases List.eq_nil_or_concat later with rfl | ⟨later, x, rfl⟩
    · obtain ⟨hbefore, hlast⟩ := List.append_inj' hlog rfl
      cases hlast
      rw [← hbefore, ← hs.cache]
    · rw [List.concat_eq_append, ← List.cons_append, ← List.append_assoc] at hlog
      exact hs.object before e later (List.append_inj' hlog rfl).1

/-- **A step replays** what it adds to the log. -/
theorem replays_step (hs : Replays s) (m : Move) : Replays (s.step m) := by
  cases m with
  | withModel i model => cases h : s.handles[i]? <;> simpa [step, h] using ⟨hs.cache, hs.object⟩
  | withTableName i name => cases h : s.handles[i]? <;> simpa [step, h] using ⟨hs.cache, hs.object⟩
  | resolve i =>
      cases h : s.handles[i]? with
      | none => simpa [step, h] using hs
      | some handle => simpa [step, h] using replays_ask hs handle

/-- **A run replays** its log. -/
theorem replays_run (moves : List Move) : Replays (run moves) := by
  induction moves using List.reverseRecOn with
  | nil => exact ⟨rfl, fun before e later h => by cases before <;> cases h⟩
  | append_singleton moves m ih =>
      rw [run, List.foldl_append]
      exact replays_step ih m

end Resolving

/-- Whether mappings are to one table, which has one name and the same columns in both. -/
structure Mapping.OneTable (m m' : Mapping) : Prop where
  object : m.object = m'.object
  table : m.table = m'.table

theorem Mapping.OneTable.tableName {m m' : Mapping} (h : m.OneTable m') :
    m.tableName = m'.tableName :=
  congrArg Table.name h.table

/-- Whether a resolution was one of a mapped model's handle, and which table it gave. -/
structure Resolution.Gives (e : Resolution) (model : Model) (m : Mapping) (t : Table) : Prop where
  bound : e.handle.model = some model
  mapped : model.mapping = some m
  table : e.handle.table = .ok t

namespace Resolution.Gives

variable {e : Resolution} {model : Model} {m : Mapping} {t : Table}

theorem table_eq (h : e.Gives model m t) :
    t = ⟨e.handle.ownName?.getD m.tableName, m.table.columns⟩ :=
  Except.ok.inj (h.table.symm.trans (Handle.table_eq h.bound h.mapped))

theorem mapping?_eq (h : e.Gives model m t) : e.handle.mapping? = some m :=
  Handle.mapping?_eq h.bound h.mapped

theorem copyKey?_eq (h : e.Gives model m t) :
    e.handle.copyKey? = if t.name = m.tableName then none else some (m.object, t.name) := by
  rw [Handle.copyKey?_eq h.mapping?_eq, h.table_eq]

/-- Handles of one table that ask for the same copy, or for none, have the same table. -/
theorem eq_of_copyKey?_eq {e' : Resolution} {model' : Model} {m' : Mapping} {t' : Table}
    (h : e.Gives model m t) (h' : e'.Gives model' m' t') (htable : m.table = m'.table)
    (hkey : e.handle.copyKey? = e'.handle.copyKey?) : t = t' := by
  have hmapped : m.tableName = m'.tableName := congrArg Table.name htable
  have hname : t.name = t'.name := by
    rw [h.copyKey?_eq, h'.copyKey?_eq] at hkey
    split at hkey <;> split at hkey
    · rename_i hown hown'
      rw [hown, hown', hmapped]
    · cases hkey
    · cases hkey
    · exact congrArg Prod.snd (Option.some.inj hkey)
  rw [h.table_eq, h'.table_eq] at hname ⊢
  rw [Table.mk.injEq]
  exact ⟨hname, congrArg Table.columns htable⟩

end Resolution.Gives

namespace Resolving

/--
**Which object a table is over a whole run.**

For every run of handles that are made and asked for their tables, in any order and with any
number of names: a handle of a mapped model is given a table with the handle's own name, or the
model's when it has none, and with the columns and the key of the model.  Two resolutions of one
mapped table, be it of one model or of several that share the table, under one name are the same
object when that name is the table's own, and for a copy exactly when it stayed in between: in no
stretch of the resolutions between them that is without it were `TableCache.capacity` other copies
asked for.  And they are only the same object when they are of one mapped table, under one name.
-/
theorem resolutions_of_run (moves : List Move) :
    let log := (run moves).log
    (∀ e ∈ log, ∀ model m, e.handle.model = some model → model.mapping = some m →
      ∃ t, e.Gives model m t ∧ t.name = e.handle.ownName?.getD m.tableName ∧
        t.columnNames = m.columns.map (·.name) ∧
        t.keyNames = (m.columns.filter (·.isKey)).map (·.name)) ∧
    ∀ before a between b later, log = before ++ a :: (between ++ b :: later) →
      (∀ model m t model' m' t', a.Gives model m t → b.Gives model' m' t' → m.OneTable m' →
        t.name = t'.name →
        (a.object = b.object ↔ t.name = m.tableName ∨
          TableCache.Stays (m.object, t.name) (TableCache.asked (between.map (·.handle))))) ∧
      (∀ model m t model' m' t', a.Gives model m t → b.Gives model' m' t' →
        a.object = b.object → m.object = m'.object ∧ (m.OneTable m' → t = t')) := by
  intro log
  refine ⟨fun e _ model m hmodel hmapping => ?_, fun before a between b later hlog => ?_⟩
  · refine ⟨_, ⟨hmodel, hmapping, Handle.table_eq hmodel hmapping⟩, rfl, ?_, ?_⟩
    · simp [Table.columnNames, Mapping.table, Function.comp_def]
    · simp [Table.keyNames, Table.keyColumns, Mapping.table, List.filter_map, Function.comp_def]
  · have hrun := replays_run moves
    have ha := hrun.object before a _ hlog
    have hb := hrun.object (before ++ a :: between) b later (by simpa using hlog)
    rw [List.map_append, List.map_cons] at hb
    refine ⟨fun model m t model' m' t' hga hgb hone hname => ?_,
      fun model m t model' m' t' hga hgb hobject => ?_⟩
    · have hkeya := hga.copyKey?_eq
      have hkeyb := hgb.copyKey?_eq
      rw [← hname, ← hone.object, ← hone.tableName] at hkeyb
      by_cases hown : t.name = m.tableName
      · rw [if_pos hown] at hkeya hkeyb
        rw [ha, hb, TableCache.object_mapped hga.mapping?_eq hkeya,
          TableCache.object_mapped hgb.mapping?_eq hkeyb, hone.object]
        exact iff_of_true rfl (.inl hown)
      · rw [if_neg hown] at hkeya hkeyb
        rw [ha, hb, TableCache.object_eq_iff hkeya hkeyb, or_iff_right hown]
    · rw [ha, hb] at hobject
      obtain ⟨hkey, hmapped⟩ :=
        TableCache.copyKey?_eq_of_object_eq hga.mapping?_eq hgb.mapping?_eq hobject
      exact ⟨hmapped, fun hone => hga.eq_of_copyKey?_eq hgb hone.table hkey⟩

/-- Two handles to one shard, one made after the other, have one table, also when another shard
and the model's own table were asked for in between. -/
theorem resolutions_of_run_shards :
    let log := (run [.withModel 0 (some Catalog.user), .withTableName 1 (some "users_01"),
      .resolve 2, .withTableName 1 (some "users_02"), .resolve 3, .resolve 1,
      .withTableName 1 (some "users_01"), .resolve 4]).log
    ∃ a b t, log[0]? = some a ∧ log[3]? = some b ∧ a.handle.table = .ok t ∧
      b.handle.table = .ok t ∧ t.name = "users_01" ∧ a.object = b.object := by
  intro log
  obtain ⟨htables, hpairs⟩ := resolutions_of_run [.withModel 0 (some Catalog.user),
    .withTableName 1 (some "users_01"), .resolve 2, .withTableName 1 (some "users_02"), .resolve 3,
    .resolve 1, .withTableName 1 (some "users_01"), .resolve 4]
  have hmapped : Catalog.user.mapping = some (Catalog.user.mapping.get rfl) := rfl
  obtain ⟨t, hgives, hname, -⟩ := htables ⟨⟨some Catalog.user, some "users_01"⟩, .made 0⟩
    List.mem_cons_self Catalog.user _ rfl hmapped
  obtain ⟨hsame, -⟩ := hpairs [] _ [_, _] _ [] rfl
  refine ⟨_, _, t, rfl, rfl, hgives.table, hgives.table, hname, ?_⟩
  exact (hsame Catalog.user _ t Catalog.user _ t hgives hgives ⟨rfl, rfl⟩ rfl).mpr
    (.inr (TableCache.stays_of_length_lt (by decide)))

/-! ### More shards than there is room for -/

/-- The steps that bind a model, and ask for its own table and then for its table under one name
after another. -/
def tour (model : Model) (names : List String) : List Move :=
  .withModel 0 (some model) :: .resolve 1 :: names.zipIdx.flatMap (fun (name, i) =>
    [.withTableName 1 (some name), .resolve (i + 2)])

theorem run_tour (model : Model) (names : List String) :
    (run (tour model names)).handles =
        .unbound :: ⟨some model, none⟩ :: names.map (fun n => ⟨some model, some n⟩) ∧
      (run (tour model names)).log.map (·.handle) =
        ⟨some model, none⟩ :: names.map (fun n => ⟨some model, some n⟩) := by
  induction names using List.reverseRecOn with
  | nil => exact ⟨rfl, rfl⟩
  | append_singleton names name ih =>
      obtain ⟨hhandles, hlog⟩ := ih
      have hrun : run (tour model (names ++ [name])) =
          ((run (tour model names)).step (.withTableName 1 (some name))).step
            (.resolve (names.length + 2)) := by
        simp [run, tour, List.zipIdx_append, List.foldl_append]
      generalize run (tour model names) = s at hrun hhandles hlog
      -- The new handle is the last one, and that is the one whose table is asked for.
      have hmake : s.step (.withTableName 1 (some name)) = s.make ⟨some model, some name⟩ := by
        rw [step, hhandles]
        rfl
      have hask : (s.make ⟨some model, some name⟩).step (.resolve (names.length + 2)) =
          (s.make ⟨some model, some name⟩).ask ⟨some model, some name⟩ := by
        have hlast : (s.make ⟨some model, some name⟩).handles[names.length + 2]? =
            some ⟨some model, some name⟩ := by
          simp [make, hhandles]
        rw [step, hlast]
        rfl
      rw [hrun, hmake, hask]
      constructor
      · show s.handles ++ [_] = _
        rw [hhandles]
        simp
      · rw [log_ask, List.map_append]
        show s.log.map (·.handle) ++ [_] = _
        rw [hlog]
        simp

/-- The name of a shard. -/
def shard (n : Nat) : String := "s" ++ n.repr

theorem shard_injective {n n' : Nat} (h : shard n = shard n') : n = n' := by
  have hdigits : Nat.toDigits 10 n = Nat.toDigits 10 n' := by
    simpa [shard] using congrArg String.toList h
  rw [← Nat.ofDigitChars_ten_toDigits (n := n), hdigits, Nat.ofDigitChars_ten_toDigits]

/-- A shard is a copy of the table of users. -/
theorem copyKey?_shard (n : Nat) :
    (Handle.mk (some Catalog.user) (some (shard n))).copyKey? = some ("users", shard n) := by
  have hne : shard n ≠ "" := by
    intro h
    simpa [shard] using congrArg String.toList h
  have hown : (Handle.mk (some Catalog.user) (some (shard n))).ownName? = some (shard n) := by
    simp [Handle.ownName?, hne]
  have hother : shard n ≠ "users" := by
    intro h
    simpa [shard] using congrArg String.toList h
  rw [Handle.copyKey?_eq (Handle.mapping?_eq rfl rfl), hown]
  exact if_neg hother

/-- **A handle to a shard does not keep its table**: after as many other shards as there is room
for, the same model and table name give another object. -/
theorem resolutions_of_many_shards :
    let names := shard 0 :: ((List.range 256).map (fun n => shard (n + 1)) ++ [shard 0])
    let log := (run (tour Catalog.user names)).log
    ∃ a b : Resolution, log[1]? = some a ∧ log[258]? = some b ∧
      a.handle = ⟨some Catalog.user, some "s0"⟩ ∧ b.handle = a.handle ∧ a.object ≠ b.object := by
  intro names log
  let others : List Handle :=
    (List.range 256).map (fun n => ⟨some Catalog.user, some (shard (n + 1))⟩)
  have hlog : log.map (·.handle) = [⟨some Catalog.user, none⟩] ++
      ⟨some Catalog.user, some (shard 0)⟩ :: (others ++ [⟨some Catalog.user, some (shard 0)⟩]) := by
    rw [(run_tour Catalog.user names).2]
    simp [names, others, Function.comp_def]
  obtain ⟨before, rest, hsplit, hbefore, hrest⟩ := List.map_eq_append_iff.mp hlog
  obtain ⟨a, rest, rfl, ha, hrest⟩ := List.map_eq_cons_iff.mp hrest
  obtain ⟨between, last, rfl, hbetween, hlast⟩ := List.map_eq_append_iff.mp hrest
  obtain ⟨b, later, rfl, hb, hlater⟩ := List.map_eq_cons_iff.mp hlast
  have hfirst : before.length = 1 := by simpa using congrArg List.length hbefore
  have hmany : between.length = 256 := by simpa [others] using congrArg List.length hbetween
  refine ⟨a, b, ?_, ?_, ha, hb.trans ha.symm, ?_⟩
  · rw [hsplit, List.getElem?_append_right (by omega), hfirst]
    rfl
  · rw [hsplit, List.getElem?_append_right (by omega), hfirst]
    show (between ++ b :: later)[256]? = some b
    rw [List.getElem?_append_right (by omega), hmany]
    rfl
  · have hrun := replays_run (tour Catalog.user names)
    have hobjecta := hrun.object before a _ hsplit
    have hobjectb := hrun.object (before ++ a :: between) b later (by simpa using hsplit)
    rw [List.map_append, List.map_cons] at hobjectb
    rw [hobjecta, hobjectb, ne_eq, TableCache.object_eq_iff (k := ("users", shard 0))
      (by rw [ha, copyKey?_shard]) (by rw [hb, copyKey?_shard]), hbetween]
    have hasked : TableCache.asked others =
        (List.range 256).map (fun n => ("users", shard (n + 1))) := by
      rw [TableCache.asked, List.filterMap_map, ← List.filterMap_eq_map]
      refine List.filterMap_congr fun n _ => ?_
      exact copyKey?_shard (n + 1)
    rw [hasked]
    refine TableCache.not_stays ?_ ?_ ?_
    · intro hmem
      obtain ⟨n, -, hn⟩ := List.mem_map.mp hmem
      cases shard_injective (congrArg Prod.snd hn)
    · refine List.nodup_range.map_on fun n _ n' _ hn => ?_
      exact Nat.succ.inj (shard_injective (congrArg Prod.snd hn))
    · simp [TableCache.capacity]

end Resolving

end TableQuery
