/-
The condition of a write by identity.

A record has an identity in a table when the table has a key and the record gives every
column of it a value.  `PinsKey` says what a condition makes of such a record: it is the
conjunction of one equality for each column of the key, so a row meets it only when it
agrees with the record on the whole key.  Nothing is lost on the way from the columns to
the condition, because a resolved table never names two columns of its key alike.  All the
columns of the condition are of that table, so under another name of the table it is the same
condition, moved there.
-/
import TableQuery.Handle.Write
import TableQuery.Proofs.Sql.Meaning
import TableQuery.Proofs.Sql.Moving

namespace TableQuery

namespace Row

theorem insertAll_entries {r : Row} {es : List (String × Value)}
    (h : (r.names ++ es.map Prod.fst).Nodup) : (r.insertAll es).entries = r.entries ++ es := by
  induction es generalizing r with
  | nil => simp [insertAll]
  | cons e es ih =>
      have hmem : e.1 ∉ r.names := by
        intro hin
        exact (List.nodup_append.mp h).2.2 e.1 hin e.1 (by simp) rfl
      have hentries : (r.insert e.1 e.2).entries = r.entries ++ [e] := by
        unfold insert
        rw [dif_neg hmem]
      have hnames : (r.insert e.1 e.2).names = r.names ++ [e.1] := by
        rw [names, hentries, List.map_append]
        rfl
      show ((r.insert e.1 e.2).insertAll es).entries = _
      rw [ih (by rw [hnames]; simpa using h), hentries, List.append_assoc]
      rfl

/-- Entries whose names differ are kept as they are. -/
theorem entries_ofList {es : List (String × Value)} (h : (es.map Prod.fst).Nodup) :
    (ofList es).entries = es := insertAll_entries (r := empty) h

end Row

namespace Handle

/-- The columns of a table that a handle resolves to have different names. -/
theorem columnNames_nodup {h : Handle} {t : Table} (ht : h.table = .ok t) :
    t.columnNames.Nodup := by
  have mapped : ∀ m : Mapping, m.table.columnNames.Nodup := by
    intro m
    have hnames : m.table.columnNames = m.columns.map (fun c => c.name) := by
      simp [Mapping.table, Table.columnNames]
    rw [hnames]
    exact m.names_nodup
  unfold table at ht
  split at ht
  · split at ht
    · rename_i m _
      split at ht
      · rw [← Except.ok.inj ht]
        exact mapped m
      · rw [← Except.ok.inj ht]
        exact mapped m
    · simp at ht
  · split at ht
    · rw [← Except.ok.inj ht]
      exact List.nodup_nil
    · simp at ht

/-- So have those of its key. -/
theorem keyNames_nodup {h : Handle} {t : Table} (ht : h.table = .ok t) : t.keyNames.Nodup :=
  (List.filter_sublist.map _).nodup (columnNames_nodup ht)

/-- A column of the key of a table, as a condition names it. -/
def keyColumn (t : Table) (name : String) : Sql.ColumnRef :=
  ⟨name, some t.name, ((t.column? name).map (·.type)).getD .unknown⟩

/-- Whether a condition is that the key of a table has the values that a row gives it. -/
structure PinsKey (t : Table) (r : Row) (e : Sql.Expr) : Prop where
  /-- The table has a key. -/
  keyed : t.keyNames ≠ []
  /-- No part of the key is null. -/
  given : ∀ n ∈ t.keyNames, (r.get n).isNull = false
  shape : e = Sql.Expr.join .conjunction (t.keyNames.map (fun n => keyTest t n (r.get n)))
  /-- A row meets the condition when each column of its key equals the value given. -/
  meaning : ∀ (S : Sql.Semantics) (ρ : Sql.Assignment), e.eval S ρ = .holds ↔
    ∀ n ∈ t.keyNames, S.equal (ρ (keyColumn t n)) (r.get n) = .holds

theorem eval_keyTest (S : Sql.Semantics) (ρ : Sql.Assignment) (t : Table) (n : String) {v : Value}
    (hv : v.isNull = false) : (keyTest t n v).eval S ρ = S.equal (ρ (keyColumn t n)) v := by
  cases v with
  | null => simp [Value.isNull] at hv
  | _ => rfl

theorem pinsKey_join {t : Table} {r : Row} (hkeys : t.keyNames ≠ [])
    (hgiven : ∀ n ∈ t.keyNames, (r.get n).isNull = false) :
    PinsKey t r
      (Sql.Expr.join .conjunction (t.keyNames.map (fun n => keyTest t n (r.get n)))) where
  keyed := hkeys
  given := hgiven
  shape := rfl
  meaning S ρ := by
    rw [Sql.Expr.eval_join, Sql.Junction.truth, Sql.Truth.all_eq_holds_iff]
    simp only [List.map_map, List.forall_mem_map]
    refine forall₂_congr fun n hn => ?_
    rw [Function.comp, eval_keyTest S ρ t n (hgiven n hn)]

/-- **The test for an identity pins the whole key.** -/
theorem pinsKey_of_identity {t : Table} {i : Item} {key : Row} (hnodup : t.keyNames.Nodup)
    (h : identity t i = .ok (some key)) :
    ∃ r, i.toRow = .ok r ∧ PinsKey t r (identityTest t key) := by
  unfold identity at h
  split at h
  · simp at h
  · obtain ⟨r, hr, hkey⟩ := map_eq_ok.mp h
    unfold identityOf at hkey
    dsimp only at hkey
    split at hkey
    · simp at hkey
    · rename_i hnames hnulls
      rw [Bool.or_eq_true, not_or] at hnulls
      have hgiven : ∀ n ∈ t.keyNames, (r.get n).isNull = false := by
        intro n hn
        refine Bool.eq_false_iff.mpr fun hc => ?_
        exact hnulls.2 (List.any_eq_true.mpr ⟨n, hn, hc⟩)
      have hentries : key.entries = t.keyNames.map (fun n => (n, r.get n)) := by
        rw [← Option.some.inj hkey]
        exact Row.entries_ofList (by simpa [Function.comp_def] using hnodup)
      refine ⟨r, hr, ?_⟩
      rw [identityTest, hentries, List.map_map]
      exact pinsKey_join (by simpa using hnames) hgiven

/-! ### The columns of the test -/

/-- Where other columns stand for the key, the test for an identity is over those. -/
theorem identityTest_map {t t' : Table} {f : Sql.ColumnRef → Sql.ColumnRef}
    (hf : ∀ c, (f c).type = c.type) (hkey : ∀ n, keyColumn t' n = f (keyColumn t n)) (key : Row) :
    identityTest t' key = (identityTest t key).map f id := by
  have hkeyTest : ∀ n v, keyTest t' n v = (keyTest t n v).map f id := by
    intro n v
    have hcolumn := hkey n
    unfold keyColumn at hcolumn
    unfold keyTest
    rw [hcolumn]
    cases v <;> simp [Sql.Expr.map]
  rw [identityTest, identityTest, ← Sql.Expr.join_map (fun e _ => e.keepsType hf), List.map_map]
  simp only [hkeyTest, Function.comp_def]

/-- **The test for an identity in a table under another name is that test, moved to it.** -/
theorem identityTest_rename (t : Table) (T : String) (key : Row) :
    identityTest (t.rename T) key = (identityTest t key).moved t.name T := by
  have hkey : ∀ n, keyColumn (t.rename T) n = (keyColumn t n).moved t.name T :=
    fun _ => (if_pos rfl).symm
  exact identityTest_map (fun _ => Sql.ColumnRef.type_moved _) hkey key

/-- The test for an identity names no other table. -/
theorem namesOnly_identityTest (t : Table) (key : Row) : (identityTest t key).NamesOnly t.name := by
  have hkey : ∀ n, keyColumn t n = (keyColumn t n).keptTo t.name :=
    fun _ => (Sql.ColumnRef.keptTo_eq_iff.mpr (by simp [keyColumn])).symm
  have hkept := identityTest_map (f := Sql.ColumnRef.keptTo t.name) (fun _ => rfl) hkey key
  exact Sql.Expr.namesOnly_of_keptTo hkept.symm

theorem foreignTables_identityTest (t : Table) (key : Row) :
    (identityTest t key).foreignTables t.name = [] :=
  Sql.Expr.foreignTables_of_namesOnly (namesOnly_identityTest t key)

end Handle

end TableQuery
