/-
Writes by identity: what they are about, what they assign, and what they leave.

`update`, `delete` and the first statement of `save` are about the row of one key.  Each has the
test for that key as its whole condition, and none assigns a column of the key, unless the column
has a value of its own for updates; `PinsRow` is this and what follows from it, whichever
statement it is.  A row whose key is another one in any column fails the test, so it stays as it
is, and a row that passes it keeps its key (`PinsRow.others`, `PinsRow.keeps`).  How values compare
is left to the database as in `Semantics`.

A statement does what it says where its places are written apart.  A driver would otherwise be
handed the value of an assigned column for a column of the key, or the other way round.

What is left is which columns are assigned, which is decided by the attributes of the entity, and
that nothing is sent where the key is not whole.
-/
import TableQuery.Proofs.Handle.BatchSaving
import TableQuery.Proofs.Handle.Guarded
import TableQuery.Proofs.Handle.Resaving
import TableQuery.Proofs.Sql.Updating

namespace TableQuery

namespace Sql

/-- The condition that selects the rows of a statement, if it has one. -/
def Statement.condition? : Statement → Option Expr
  | update u => some u.condition
  | delete x => some x.condition
  | select q => q.condition
  | insert _ | raw _ => none

/-- Whether each place of a statement has its own value: places that are written alike are read as
one. -/
def Statement.PlacesApart (d : Dialect) : Statement → Prop
  | update u => u.PlacesApart d
  | delete x => WrittenApart (placeNames .empty (x.condition.asCondition.pieces d))
  | select q => WrittenApart (placeNames q.naming (q.pieces d))
  | insert x => x.PlacesApart
  | raw b => WrittenApart (placeNames .empty b.pieces)

/-- What a statement leaves of a row that is there and that its condition selects or does not
select; nothing when it deletes the row. -/
def Statement.leaves (S : Semantics) (x : Statement) (stored : String → Value) :
    Option (String → Value) :=
  match x with
  | update u =>
    if u.condition.eval S (fun c => stored c.name) = .holds then some (x.overwrites stored)
    else some stored
  | delete y =>
    if y.condition.eval S (fun c => stored c.name) = .holds then none else some stored
  | select _ | insert _ | raw _ => some stored

/-- Whether a text ends with a clause that is written from a condition, in a line of its own or
not. -/
def EndsWithWhere (d : Dialect) (e : Expr) (sql : String) : Prop :=
  ∃ head space clause, sql = head ++ space ++ "WHERE " ++ clause ∧ (space = " " ∨ space = " \n") ∧
    Writes d (e.asCondition.pieces d) clause

variable {d : Dialect} {e : Expr} {p : Prepared}

theorem HasWhere.endsWithWhere {sql : String} (h : HasWhere d e sql) : EndsWithWhere d e sql := by
  obtain ⟨head, clause, rfl, hclause⟩ := h
  have hword : " WHERE " = " " ++ "WHERE " := by decide
  exact ⟨head, " ", clause, by rw [hword, ← String.append_assoc], .inl rfl, hclause⟩

/-- A count of the rows that meet a condition ends with its clause. -/
theorem endsWithWhere_of_count {t : Table}
    (h : (Statement.select ⟨t, .count, some e, [], none, none⟩).prepare d = .ok p) :
    EndsWithWhere d e p.sql := by
  have hwrites : Writes d (Select.pieces d ⟨t, .count, some e, [], none, none⟩) p.sql :=
    writes_of_prepareAfter h
  have hpieces : Select.pieces d ⟨t, .count, some e, [], none, none⟩ =
      (.text "SELECT " :: Select.outputPieces ⟨t, .count, some e, [], none, none⟩ ++
        .text " \nFROM " :: nameList (Select.tables ⟨t, .count, some e, [], none, none⟩)) ++
        conditionPieces d " \nWHERE " e := by
    simp [Select.pieces, Select.coreParts, Select.orderPieces, Select.limitPieces]
  rw [hpieces] at hwrites
  obtain ⟨head, rest, hsql, -, hrest⟩ := hwrites.append
  obtain ⟨clause, rfl, hclause⟩ := hrest.text_cons
  have hword : " \nWHERE " = " \n" ++ "WHERE " := by decide
  refine ⟨head, " \n", clause, ?_, .inr rfl, hclause⟩
  rw [hsql, hword]
  simp only [String.append_assoc]

end Sql

namespace Handle

open Run Session Batch Sql Entity

variable {s : Session} {h : Handle} {t : Table} {m : Mapping} {e : Entity} {r key : Row}

/-- Whether a statement is about the row with the key of `r` and no other: `test` is the test for
that key. -/
structure PinsRow (d : Dialect) (t : Table) (r : Row) (test : Expr) (x : Statement) : Prop where
  condition : x.condition? = some test
  /-- The test is the clause that the text ends with. -/
  clause : ∀ p, x.prepare d = .ok p → EndsWithWhere d test p.sql
  /-- A column of the key is assigned nothing but what it has for updates. -/
  key : ∀ n ∈ t.keyNames, x.assignedTo n = x.onUpdate? n
  /-- An update hands over what it assigns, and then the values of the test. -/
  handsOver : ∀ u p, x = .update u → x.prepare d = .ok p → u.IsHanded d p
  /-- A row with another key stays as it is. -/
  others : x.PlacesApart d → ∀ (S : Semantics) (stored : String → Value),
    (∃ n ∈ t.keyNames, S.equal (stored n) (r.get n) ≠ .holds) → x.leaves S stored = some stored
  /-- A row that is left has the key that it had, where the key has no values for updates. -/
  keeps : x.PlacesApart d → ∀ (S : Semantics) (stored left : String → Value),
    x.leaves S stored = some left → ∀ n ∈ t.keyNames, x.onUpdate? n = none → left n = stored n

/-- A row with another key does not meet the test. -/
theorem PinsKey.not_holds {test : Expr} (hpins : PinsKey t r test) {S : Semantics}
    {stored : String → Value} (hother : ∃ n ∈ t.keyNames, S.equal (stored n) (r.get n) ≠ .holds) :
    test.eval S (fun c => stored c.name) ≠ .holds := by
  intro hholds
  obtain ⟨n, hn, hne⟩ := hother
  exact hne ((hpins.meaning S _).mp hholds n hn)

variable {d : Dialect} {test : Expr}

theorem pinsRow_delete (hpins : PinsKey t r test) : PinsRow d t r test (.delete ⟨t, test⟩) where
  condition := rfl
  clause _ hp := (Statement.hasWhere_of_prepare hp rfl).endsWithWhere
  key _ _ := rfl
  handsOver _ _ hu := nomatch hu
  others _ S stored hother := if_neg (hpins.not_holds hother)
  keeps _ S stored left hleft n _ _ := by
    unfold Statement.leaves at hleft
    dsimp only at hleft
    split at hleft
    · cases hleft
    · rw [← Option.some.inj hleft]

theorem pinsRow_update {values : Row} (hpins : PinsKey t r test)
    (hkey : ∀ n ∈ t.keyNames, values.get? n = none) :
    PinsRow d t r test (.update ⟨t, values, test⟩) where
  condition := rfl
  clause _ hp := (Statement.hasWhere_of_prepare hp rfl).endsWithWhere
  key n hn := Update.assignedTo_of_none (hkey n hn)
  handsOver u p hu hp := by
    cases hu
    exact (Update.isHanded_of_prepare hp).1
  others _ S stored hother := if_neg (hpins.not_holds hother)
  keeps _ S stored left hleft n hn hnone := by
    have hassigned : (Statement.update ⟨t, values, test⟩).assignedTo n = none :=
      (Update.assignedTo_of_none (hkey n hn)).trans hnone
    unfold Statement.leaves at hleft
    dsimp only at hleft
    split at hleft
    · rw [← Option.some.inj hleft, Statement.overwrites, hassigned]
      rfl
    · rw [← Option.some.inj hleft]

theorem pinsRow_count : PinsRow d t r test (.select ⟨t, .count, some test, [], none, none⟩) where
  condition := rfl
  clause _ hp := endsWithWhere_of_count hp
  key _ _ := rfl
  handsOver _ _ hu := nomatch hu
  others _ _ _ _ := rfl
  keeps _ _ _ _ hleft n _ _ := by rw [← Option.some.inj hleft]

/-- **Overwriting the row of a key pins it.** -/
theorem pinsRow_overwriting (hkey : key.names = t.keyNames)
    (hpins : PinsKey t r (identityTest t key)) :
    PinsRow d t r (identityTest t key) (overwriting t key (withoutIdentity key r)) := by
  unfold overwriting
  split
  · exact pinsRow_count
  · exact pinsRow_update hpins fun n hn => by rw [get?_withoutIdentity hkey, if_pos hn]

/-! ### What is assigned -/

theorem mem_keyNames_iff (hcolumns : t.columns = m.table.columns) {c : MappedColumn}
    (hc : c ∈ m.columns) : c.name ∈ t.keyNames ↔ c.isKey = true := by
  rw [keyNames_eq hcolumns, Mapping.mem_keyNames hc]

theorem get?_rowOf {c : MappedColumn} (hc : c ∈ m.columns) :
    (rowOf m e).get? c.name = some (e.get c.attr) := by
  have hcontains : (rowOf m e).contains c.name = true :=
    List.contains_iff_mem.mpr (List.mem_map.mpr ⟨_, List.mem_map.mpr ⟨c, hc, rfl⟩, rfl⟩)
  rw [Row.get?_of_contains hcontains, get_rowOf e hc]

theorem isSome_column? (hcolumns : t.columns = m.table.columns) {c : MappedColumn}
    (hc : c ∈ m.columns) : (t.column? c.name).isSome = true := by
  rw [Table.column?_isSome, columnNames_eq hcolumns, List.contains_iff_mem]
  exact Mapping.name_mem_columnNames hc

/-- The values of a row that an update by its key assigns. -/
def givenValues (key r : Row) : Row := (withoutIdentity key r).filter (fun _ v => !v.isNull)

section

variable (hcolumns : t.columns = m.table.columns) (hkey : key.names = t.keyNames)

include hcolumns hkey

theorem contains_key_iff {c : MappedColumn} (hc : c ∈ m.columns) :
    key.contains c.name = true ↔ c.isKey = true := by
  rw [Row.contains, hkey, List.contains_iff_mem, mem_keyNames_iff hcolumns hc]

theorem isEmpty_withoutIdentity :
    (withoutIdentity key (rowOf m e)).isEmpty = true ↔ ∀ c ∈ m.columns, c.isKey = true := by
  rw [Row.isEmpty, List.isEmpty_iff]
  show List.filter _ (m.columns.map fun c => (c.name, e.get c.attr)) = [] ↔ _
  rw [List.filter_eq_nil_iff, List.forall_mem_map]
  refine forall₂_congr fun c hc => ?_
  rw [← contains_key_iff hcolumns hkey hc]
  simp

theorem isEmpty_givenValues : (givenValues key (rowOf m e)).isEmpty = true ↔
    ∀ c ∈ m.columns, c.isKey = true ∨ (e.get c.attr).isNull = true := by
  rw [Row.isEmpty, List.isEmpty_iff]
  show List.filter _ (List.filter _ (m.columns.map fun c => (c.name, e.get c.attr))) = [] ↔ _
  rw [List.filter_filter, List.filter_eq_nil_iff, List.forall_mem_map]
  refine forall₂_congr fun c hc => ?_
  rw [← contains_key_iff hcolumns hkey hc]
  simp [or_iff_not_imp_left]

theorem get?_givenValues {c : MappedColumn} (hc : c ∈ m.columns) :
    (givenValues key (rowOf m e)).get? c.name =
      if c.isKey = true ∨ (e.get c.attr).isNull = true then none else some (e.get c.attr) := by
  rw [givenValues, Row.get?_filter_value, get?_withoutIdentity hkey, get?_rowOf hc]
  simp only [mem_keyNames_iff hcolumns hc]
  by_cases hkey : c.isKey = true
  · simp [hkey]
  · cases hnull : (e.get c.attr).isNull <;> simp [hkey, hnull]

/-- **An update by the key assigns the columns outside it that are given a value**, and to the
others what they have for updates. -/
theorem assignedTo_givenValues {c : MappedColumn} (hc : c ∈ m.columns) :
    (Update.mk t (givenValues key (rowOf m e)) test).assignedTo c.name =
      if c.isKey = true ∨ (e.get c.attr).isNull = true then t.onUpdate? c.name
      else some (e.get c.attr) := by
  have hget := get?_givenValues (e := e) hcolumns hkey hc
  split at hget
  · rename_i hleft
    rw [Update.assignedTo_of_none hget, if_pos hleft]
  · rename_i hgiven
    obtain ⟨k, hk⟩ := Option.isSome_iff_exists.mp (isSome_column? hcolumns hc)
    rw [Update.assignedTo_of_some hget, if_neg hgiven]
    exact congrArg (Option.map _) hk

end

theorem get?_givenValues_of_key (hkey : key.names = t.keyNames) {n : String}
    (hn : n ∈ t.keyNames) : (givenValues key r).get? n = none := by
  rw [givenValues, Row.get?_filter_value, get?_withoutIdentity hkey, if_pos hn]
  rfl

/-! ### What is sent -/

variable {i : Item} {c : Channel}

section

variable (hmodel : (h.forItem i).requireModel = .ok ()) (ht : (h.forItem i).table = .ok t)
  (hkey : identity t i = .ok (some key))

include hmodel ht hkey

theorem carriesOut_delete : (h.delete s i).CarriesOut c s
    [⟨.delete ⟨t, identityTest t key⟩, fun _ => .ok ()⟩] (nextReply c.outcomes).rowCount := by
  unfold delete
  refine carriesOut_lift_bind hmodel (carriesOut_lift_bind ht (carriesOut_lift_bind hkey ?_))
  exact carriesOut_execute_bind (q := ⟨.delete ⟨t, identityTest t key⟩, fun _ => .ok ()⟩)
    (fun _ he => nomatch he) fun _ _ _ => carriesOut_pure _

theorem carriesOut_update (hr : i.toRow = .ok r) (hgiven : (givenValues key r).isEmpty = false) :
    (h.update s i).CarriesOut c s
      [⟨.update ⟨t, givenValues key r, identityTest t key⟩, fun _ => .ok ()⟩]
      (nextReply c.outcomes).rowCount := by
  unfold update
  refine carriesOut_lift_bind hmodel (carriesOut_lift_bind ht (carriesOut_lift_bind hkey
    (carriesOut_lift_bind hr ?_)))
  unfold givenValues at hgiven
  simp only [hgiven, Bool.false_eq_true, if_false]
  exact carriesOut_execute_bind
    (q := ⟨.update ⟨t, givenValues key r, identityTest t key⟩, fun _ => .ok ()⟩)
    (fun _ he => nomatch he) fun _ _ _ => carriesOut_pure _

theorem update_endsQuietly (hr : i.toRow = .ok r) (hgiven : (givenValues key r).isEmpty = true) :
    (h.update s i).EndsQuietly (.ok 0) := by
  intro c
  unfold update
  unfold givenValues at hgiven
  simp only [hmodel, ht, hkey, hr, lift_ok_bind, hgiven, if_true]
  exact ⟨rfl, rfl, rfl⟩

end

/-! ### Entities -/

/-- How the writes of an entity that has its key go: `test` is the test for the key. -/
structure WritesByKey (s : Session) (h : Handle) (e : Entity) (m : Mapping) (t : Table)
    (test : Expr) : Prop where
  pins : PinsKey t (rowOf m e) test
  delete : PinsRow s.dialect t (rowOf m e) test (.delete ⟨t, test⟩) ∧
    ∀ c, (h.delete s (.ofEntity e)).CarriesOut c s [⟨.delete ⟨t, test⟩, fun _ => .ok ()⟩]
      (nextReply c.outcomes).rowCount
  /-- An update assigns what the entity gives a value outside the key, and to the other columns
  what they have for updates; where nothing is given, nothing is sent. -/
  update :
    if ∀ c ∈ m.columns, c.isKey = true ∨ (e.get c.attr).isNull = true then
      (h.update s (.ofEntity e)).EndsQuietly (.ok 0)
    else ∃ values, PinsRow s.dialect t (rowOf m e) test (.update ⟨t, values, test⟩) ∧
      (∀ c ∈ m.columns, (Update.mk t values test).assignedTo c.name =
        if c.isKey = true ∨ (e.get c.attr).isNull = true then t.onUpdate? c.name
        else some (e.get c.attr)) ∧
      ∀ c, (h.update s (.ofEntity e)).CarriesOut c s
        [⟨.update ⟨t, values, test⟩, fun _ => .ok ()⟩] (nextReply c.outcomes).rowCount
  /-- Saving overwrites every column outside the key, or counts the rows where there is none; the
  entity is inserted when no row was found. -/
  save : ∃ first : PlanStep, PinsRow s.dialect t (rowOf m e) test first.statement ∧
    (if ∀ c ∈ m.columns, c.isKey = true then
      first.statement = .select ⟨t, .count, some test, [], none, none⟩
    else ∃ values, first.statement = .update ⟨t, values, test⟩) ∧
    (∀ c ∈ m.columns, first.statement.assignedTo c.name =
      if c.isKey = true then first.statement.onUpdate? c.name else some (e.get c.attr)) ∧
    ∀ c, (h.save s (.ofEntity e)).CarriesOut c s (first ::
      if first.statement.finds (nextReply c.outcomes) then []
      else [insertStep s (insertion t [rowOf m e] .key false)]) (.ofEntity e)

/-- **Writes of an entity that has its key pin it.** -/
theorem writesByKey_of_identified (s : Session) (hmodel : h.model = none ∨ h.model = some e.model)
    (hmapping : e.model.mapping = some m) (ht : (h.forItem (.ofEntity e)).table = .ok t)
    (hcolumns : t.columns = m.table.columns) (hidentified : e.Identified m) :
    ∃ test, WritesByKey s h e m t test := by
  have hrequired : (h.forItem (.ofEntity e)).requireModel = .ok () := by
    rw [forItem_ofEntity hmodel rfl]
    rfl
  have hr := toRow_ofEntity hmapping
  obtain ⟨hkeyed, hhas⟩ := hidentified
  obtain ⟨key, hidentity, hkey⟩ := identity_of_hasKey ht hcolumns hmapping
    (by rwa [keyNames_eq hcolumns]) hhas
  have hpins : PinsKey t (rowOf m e) (identityTest t key) := by
    obtain ⟨r, hr', hpins⟩ := pinsKey_of_identity (keyNames_nodup ht) hidentity
    cases hr'.symm.trans hr
    exact hpins
  have hgiven := isEmpty_givenValues (e := e) hcolumns hkey
  have hothers := isEmpty_withoutIdentity (e := e) hcolumns hkey
  refine ⟨identityTest t key, hpins,
    ⟨pinsRow_delete hpins, fun c => carriesOut_delete hrequired ht hidentity⟩, ?_,
    overwriteStep t key (withoutIdentity key (rowOf m e)), pinsRow_overwriting hkey hpins, ?_,
    fun c hc => ?_, fun c => carriesOut_save hrequired ht hidentity hr c⟩
  · split
    · rename_i hnone
      exact update_endsQuietly hrequired ht hidentity hr (hgiven.mpr hnone)
    · rename_i hsome
      refine ⟨givenValues key (rowOf m e), pinsRow_update hpins
        fun n hn => get?_givenValues_of_key hkey hn,
        fun c hc => assignedTo_givenValues hcolumns hkey hc, fun c => ?_⟩
      exact carriesOut_update hrequired ht hidentity hr (Bool.eq_false_iff.mpr (mt hgiven.mp hsome))
  · split
    · rename_i hall
      exact if_pos (hothers.mpr hall)
    · rename_i hall
      exact ⟨_, if_neg (mt hothers.mp hall)⟩
  · show (overwriting t key _).assignedTo c.name = _
    by_cases hn : c.isKey = true
    · rw [if_pos hn, assignedTo_overwriting hkey,
        if_pos (.inl ((mem_keyNames_iff hcolumns hc).mpr hn))]
      rfl
    · obtain ⟨k, hk⟩ := Option.isSome_iff_exists.mp (isSome_column? hcolumns hc)
      rw [if_neg hn, assignedTo_overwriting_rowOf hcolumns hkey
        (mt (mem_keyNames_iff hcolumns hc).mp hn), hk, Option.map_some, get_rowOf e hc]

/--
**Writes by identity pin the whole key and never assign it.**

Let the entity be of a mapped model, and the handle be bound to that model or to none.  Where the
model has no key or the entity lacks a part of it, `update` and `delete` are refused with nothing
sent, and `save` is `create`.  Otherwise their statements, and the first one of `save`, are about
the row with the key of the entity: the test for the whole key is the condition, no column of the
key is assigned anything but what it has itself for updates, and where the places of the statement
are written apart no row with another key is changed or deleted.
-/
theorem writes_pin_key (s : Session) (hmodel : h.model = none ∨ h.model = some e.model)
    (hmapping : e.model.mapping = some m) :
    ∃ t, (h.forItem (.ofEntity e)).table = .ok t ∧ t.columns = m.table.columns ∧
      (¬ e.Identified m →
        (h.update s (.ofEntity e)).EndsQuietly (.error (.noIdentity t.name)) ∧
        (h.delete s (.ofEntity e)).EndsQuietly (.error (.noIdentity t.name)) ∧
        h.save s (.ofEntity e) = h.create s (.ofEntity e)) ∧
      (e.Identified m → ∃ test, WritesByKey s h e m t test) := by
  have hitem : h.forItem (.ofEntity e) = h.withModel (some e.model) := forItem_ofEntity hmodel rfl
  obtain ⟨t, ht, hcolumns⟩ := exists_table (h := h.forItem (.ofEntity e)) (by rw [hitem]; rfl)
    hmapping
  refine ⟨t, ht, hcolumns, fun hmissing => ?_,
    writesByKey_of_identified s hmodel hmapping ht hcolumns⟩
  have hidentity : identity t (.ofEntity e) = .ok none := by
    have hnone := isSome_identity ht hcolumns hmapping
    rw [decide_eq_false hmissing] at hnone
    obtain ⟨o, ho, hisNone⟩ := map_eq_ok.mp hnone
    cases o with
    | none => exact ho
    | some key => cases hisNone
  have hrequired : (h.forItem (.ofEntity e)).requireModel = .ok () := by
    rw [hitem]
    rfl
  refine ⟨fun c => ?_, fun c => ?_, ?_⟩
  · unfold update
    simp only [hrequired, ht, hidentity, lift_ok_bind]
    exact ⟨rfl, rfl, rfl⟩
  · unfold delete
    simp only [hrequired, ht, hidentity, lift_ok_bind]
    exact ⟨rfl, rfl, rfl⟩
  · unfold save
    simp only [hrequired, ht, hidentity, lift_ok_bind]
    unfold create
    have hbound : (h.withModel (some e.model)).forItem (.ofEntity e) =
        h.withModel (some e.model) := rfl
    simp only [hitem, hbound]

/-- A membership in the group of number zero is deleted by both parts of its key, which leaves the
memberships of other users alone; there is nothing to update in it, and without a user it cannot
be deleted. -/
theorem writes_pin_key_membership :
    let s : Session := ⟨.sqlite, true⟩
    let h : Handle := ⟨none, some "memberships_7"⟩
    let e : Entity := ⟨Catalog.membership, .ofList [("group_id", .int 0), ("user_id", .int 2)]⟩
    let everyone : Entity := ⟨Catalog.membership, .ofList [("group_id", .int 0)]⟩
    (h.delete s (.ofEntity everyone)).EndsQuietly (.error (.noIdentity "memberships_7")) ∧
    (h.update s (.ofEntity e)).EndsQuietly (.ok 0) ∧
    ∃ x, (h.delete s (.ofEntity e) ⟨[], [], []⟩).2.sent.map (·.statement) = [.delete x] ∧
      ∀ (S : Semantics) (stored : String → Value), S.equal (stored "user_id") (.int 2) ≠ .holds →
        (Statement.delete x).leaves S stored = some stored := by
  intro s h e everyone
  obtain ⟨t, ht, -, hmissing, -⟩ := writes_pin_key (h := h) (e := everyone) s (.inl rfl) rfl
  cases ht
  obtain ⟨t, ht, -, -, hwhole⟩ := writes_pin_key (h := h) (e := e) s (.inl rfl) rfl
  cases ht
  obtain ⟨test, hwrites⟩ := hwhole (by decide)
  obtain rfl := hwrites.pins.shape
  obtain ⟨added, hsent, -, hprogress⟩ := (hwrites.delete.2 ⟨[], [], []⟩).doesOn
  have hquiet : (h.update s (.ofEntity e)).EndsQuietly (.ok 0) := by
    have hupdate := hwrites.update
    rwa [if_pos] at hupdate
    decide
  have hothers := hwrites.delete.1.others (show WrittenApart _ by decide +kernel)
  refine ⟨(hmissing (by decide)).2.1, hquiet, ⟨_, _⟩, ?_, fun S stored hother =>
    hothers S stored ⟨"user_id", by decide, hother⟩⟩
  rw [hsent]
  cases hprogress.complete (by decide +kernel) with
  | cons hdelete hrest =>
      cases hrest
      simp [hdelete.statement]

/-- An update also assigns the columns with a value for updates that the draft leaves out, one of
them a part of its key.  And of the ninth sample the driver is handed the number 5 for the key
too, which is written like the column that is assigned. -/
theorem writes_pin_key_marked :
    let s : Session := ⟨.sqlite, true⟩
    let h : Handle := ⟨none, none⟩
    let titled : Entity := ⟨Catalog.draft,
      .ofList [("id", .int 1), ("revision", .int 1), ("title", .text "a")]⟩
    let ninth : Entity := ⟨Catalog.sample, .ofList [("id", .int 9), ("first", .int 5)]⟩
    let sent (e : Entity) := (h.update s (.ofEntity e) ⟨[], [], []⟩).2.sent.map
      (fun y => (y.prepared.sql, y.prepared.rows.map (List.map Value.render)))
    titled.Identified (Catalog.draft.mapping.get rfl) ∧
      (titled.get "edited").isNull = true ∧
      sent titled = [("UPDATE drafts SET revision=?, title=?, edited=? " ++
        "WHERE drafts.id = ? AND drafts.revision = ?", [["2", "'a'", "1", "1", "1"]])] ∧
      ninth.Identified (Catalog.sample.mapping.get rfl) ∧
      sent ninth = [("UPDATE samples SET \"id 1\"=? WHERE samples.id = ?", [["5", "5"]])] := by
  intro s h titled ninth sent
  exact ⟨by decide, by decide, by decide +kernel, by decide, by decide +kernel⟩

end Handle

end TableQuery
