/-
Records against rows.

An entity keeps its values under attributes and a row under columns, and a mapping leads
from one to the other.  No column and no attribute stands twice, so the way there is
one-to-one (`Mapping.attr?_eq_some_iff`), and everything here comes down to one value at a time:
what an entity that was read from a row has under an attribute is what the row has under the
column (`get_ofRow`), and what the row of an entity has under a column is what the entity has
under the attribute (`get_rowOf`).  A row may lack columns, and it may have other names; a name
that is an attribute and no column is one of those.
-/
import TableQuery.Catalog
import TableQuery.Entity
import TableQuery.Proofs.Handle.Identity
import TableQuery.Proofs.Sql.Assignments

namespace TableQuery

/-! ### Columns and attributes -/

namespace Mapping

variable {m : Mapping}

/-- Columns that have a name in common are one column. -/
theorem eq_of_name_eq {c c' : MappedColumn} (hc : c ∈ m.columns) (hc' : c' ∈ m.columns)
    (h : c.name = c'.name) : c = c' :=
  List.inj_on_of_nodup_map m.names_nodup hc hc' h

/-- Columns that have an attribute in common are one column. -/
theorem eq_of_attr_eq {c c' : MappedColumn} (hc : c ∈ m.columns) (hc' : c' ∈ m.columns)
    (h : c.attr = c'.attr) : c = c' :=
  List.inj_on_of_nodup_map m.attrs_nodup hc hc' h

theorem attr?_eq_some_iff {n a : String} :
    m.attr? n = some a ↔ ∃ c ∈ m.columns, c.name = n ∧ c.attr = a := by
  unfold attr?
  rw [Option.map_eq_some_iff]
  constructor
  · rintro ⟨c, hc, ha⟩
    exact ⟨c, List.mem_of_find?_eq_some hc, by simpa using List.find?_some hc, ha⟩
  · rintro ⟨c, hc, hn, ha⟩
    have hfound : (m.columns.find? (fun c => c.name == n)).isSome = true :=
      List.find?_isSome.mpr ⟨c, hc, by simp [hn]⟩
    obtain ⟨c', hc'⟩ := Option.isSome_iff_exists.mp hfound
    have hname : c'.name = n := by simpa using List.find?_some hc'
    have hsame : c' = c :=
      eq_of_name_eq (List.mem_of_find?_eq_some hc') hc (hname.trans hn.symm)
    exact ⟨c', hc', by rw [hsame, ha]⟩

theorem attr?_name {c : MappedColumn} (hc : c ∈ m.columns) : m.attr? c.name = some c.attr :=
  attr?_eq_some_iff.mpr ⟨c, hc, rfl, rfl⟩

/-- No two columns have one attribute. -/
theorem attr?_injective {n n' a : String} (h : m.attr? n = some a) (h' : m.attr? n' = some a) :
    n = n' := by
  obtain ⟨c, hc, rfl, hca⟩ := attr?_eq_some_iff.mp h
  obtain ⟨c', hc', rfl, hca'⟩ := attr?_eq_some_iff.mp h'
  rw [eq_of_attr_eq hc hc' (hca.trans hca'.symm)]

end Mapping

/-! ### Values of rows -/

namespace Row

theorem mem_entries_of_contains {r : Row} {n : String} (h : r.contains n = true) :
    (n, r.get n) ∈ r.entries := by
  have hn : n ∈ r.entries.map Prod.fst := by simpa [contains, names] using h
  obtain ⟨e, he, rfl⟩ := List.mem_map.mp hn
  rwa [get_of_mem (v := e.2) he]

theorem replaced_of_not_mem {name : String} {es : List (String × Value)}
    (h : name ∉ es.map Prod.fst) (v : Value) : replaced name v es = es := by
  have hsame : ∀ e ∈ es, (if e.1 = name then (e.1, v) else e) = e := by
    intro e he
    refine if_neg fun hname => h ?_
    exact hname ▸ List.mem_map.mpr ⟨e, he, rfl⟩
  rw [replaced, List.map_congr_left hsame, List.map_id']

/-- A name that is set has its new value, and every other name the value that it had. -/
theorem get?_insert (r : Row) (n : String) (v : Value) (n' : String) :
    (r.insert n v).get? n' = if n' = n then some v else r.get? n' := by
  unfold insert
  by_cases hn : n ∈ r.names
  · rw [dif_pos hn]
    show ((replaced n v r.entries).find? (fun e => e.1 == n')).map Prod.snd = _
    have hfind : (replaced n v r.entries).find? (fun e => e.1 == n') =
        (r.entries.find? (fun e => e.1 == n')).map (fun e => if e.1 = n then (e.1, v) else e) := by
      rw [replaced, List.find?_map]
      congr 2
      funext e
      by_cases he : e.1 = n <;> simp [he]
    rw [hfind]
    by_cases h : n' = n
    · subst h
      have hcontains : r.contains n' = true := by simpa [contains] using hn
      obtain ⟨e, he, -⟩ := Option.map_eq_some_iff.mp (get?_of_contains hcontains)
      have hname : e.1 = n' := by simpa using List.find?_some he
      simp [he, hname]
    · rw [if_neg h, get?]
      cases he : r.entries.find? (fun e => e.1 == n') with
      | none => rfl
      | some e =>
          have hname : e.1 = n' := by simpa using List.find?_some he
          have hne : e.1 ≠ n := by rw [hname]; exact h
          simp [hne]
  · rw [dif_neg hn]
    show ((r.entries ++ [(n, v)]).find? (fun e => e.1 == n')).map Prod.snd = _
    rw [List.find?_append]
    by_cases h : n' = n
    · subst h
      have hnone : r.entries.find? (fun e => e.1 == n') = none := by
        rw [List.find?_eq_none]
        intro e he hname
        exact hn (List.mem_map.mpr ⟨e, he, by simpa using hname⟩)
      simp [hnone]
    · have hne : (n == n') = false := by simpa using Ne.symm h
      simp [h, hne, get?]

theorem get_insert (r : Row) (n : String) (v : Value) (n' : String) :
    (r.insert n v).get n' = if n' = n then v else r.get n' := by
  rw [get, get?_insert]
  split <;> rfl

end Row

namespace Entity

variable {model : Model} {m : Mapping}

theorem get_set (e : Entity) (a : String) (v : Value) (a' : String) :
    (e.set a v).get a' = if a' = a then v else e.get a' := Row.get_insert e.values a v a'

/-- The row of an entity has under a column what the entity has under the attribute. -/
theorem get_rowOf (e : Entity) {c : MappedColumn} (hc : c ∈ m.columns) :
    (rowOf m e).get c.name = e.get c.attr :=
  Row.get_of_mem (List.mem_map.mpr ⟨c, hc, rfl⟩)

theorem names_rowOf (m : Mapping) (e : Entity) : (rowOf m e).names = m.table.columnNames := by
  simp [Row.names, rowOf, Mapping.table, Table.columnNames, Function.comp_def]

/-! ### Reading a row -/

/-- No attribute is given two values by a row. -/
theorem nodup_assigned (m : Mapping) (r : Row) : ((assigned m r).map Prod.fst).Nodup := by
  have hattrs : (assigned m r).map Prod.fst = r.names.filterMap m.attr? := by
    rw [assigned, Row.names, List.map_filterMap, List.filterMap_map]
    congr 1
    funext e
    simp [Function.comp_def]
  rw [hattrs]
  exact r.names_nodup.filterMap fun n n' a hn hn' => Mapping.attr?_injective hn hn'

/-- **An entity that is read from a row** has under an attribute what the row has under the
column, and null where the row lacks it. -/
theorem get_ofRow (r : Row) {c : MappedColumn} (hc : c ∈ m.columns) :
    (Entity.mk model (Row.ofList (assigned m r))).get c.attr = r.get c.name := by
  have hentries : (Row.ofList (assigned m r)).entries = assigned m r :=
    Row.entries_ofList (nodup_assigned m r)
  show (Row.ofList (assigned m r)).get c.attr = _
  by_cases hcontains : r.contains c.name = true
  · refine Row.get_of_mem ?_
    rw [hentries]
    exact List.mem_filterMap.mpr
      ⟨(c.name, r.get c.name), Row.mem_entries_of_contains hcontains, by
        rw [Mapping.attr?_name hc]; rfl⟩
  · have hmissing : r.get c.name = .null :=
      Row.get_of_not_contains (Bool.eq_false_iff.mpr hcontains)
    rw [hmissing]
    refine Row.get_of_not_contains ?_
    rw [Row.contains, Row.names, hentries, Bool.eq_false_iff]
    intro hmem
    -- Only the column itself could have given the attribute its value.
    obtain ⟨x, hx, hxattr⟩ := List.mem_map.mp (List.contains_iff_mem.mp hmem)
    obtain ⟨e, he, hassigned⟩ := List.mem_filterMap.mp hx
    obtain ⟨a, ha, rfl⟩ := Option.map_eq_some_iff.mp hassigned
    have hattr : m.attr? e.1 = some c.attr := by rw [ha]; exact congrArg some hxattr
    have hname : e.1 = c.name := Mapping.attr?_injective hattr (Mapping.attr?_name hc)
    refine hcontains ?_
    rw [Row.contains, List.contains_iff_mem]
    exact List.mem_map.mpr ⟨e, he, hname⟩

/-! ### Setting a column -/

theorem get_setColumn {e : Entity} (hm : e.model.mapping = some m) (name : String) (v : Value)
    {c : MappedColumn} (hc : c ∈ m.columns) :
    (e.setColumn name v).get c.attr = if c.name = name then v else e.get c.attr := by
  unfold setColumn
  rw [hm, Option.bind_some]
  cases hattr : m.attr? name with
  | none =>
      have hne : c.name ≠ name := by
        intro h
        rw [← h, Mapping.attr?_name hc] at hattr
        cases hattr
      simp [hne]
  | some a =>
      obtain ⟨c', hc', rfl, rfl⟩ := Mapping.attr?_eq_some_iff.mp hattr
      have hsame : c.attr = c'.attr ↔ c.name = c'.name :=
        ⟨fun h => by rw [Mapping.eq_of_attr_eq hc hc' h],
          fun h => by rw [Mapping.eq_of_name_eq hc hc' h]⟩
      simp only [get_set, hsame]

/-- **The row of an entity with a column set** is its row with the value of that column
replaced; a name that is no column replaces nothing. -/
theorem entries_rowOf_setColumn {e : Entity} (hm : e.model.mapping = some m) (name : String)
    (v : Value) :
    (rowOf m (e.setColumn name v)).entries = Row.replaced name v (rowOf m e).entries := by
  have hreplaced : Row.replaced name v (rowOf m e).entries =
      m.columns.map (fun c => (c.name, if c.name = name then v else e.get c.attr)) := by
    rw [Row.replaced, rowOf, List.map_map]
    refine List.map_congr_left fun c _ => ?_
    by_cases h : c.name = name <;> simp [h]
  rw [hreplaced]
  exact List.map_congr_left fun c hc => by rw [get_setColumn hm name v hc]

theorem model_setColumn (e : Entity) (name : String) (v : Value) :
    (e.setColumn name v).model = e.model := by
  unfold setColumn
  split <;> rfl

/--
**Rows and entities round-trip.**

Read from a row and written again, an entity has the columns of its model in their order, each
with the row's value, and null where the row lacks it: whatever else the row has is gone.
Written as a row and read again, it has under each attribute what it had.  Setting a name
replaces that column of its row and nothing else, and nothing at all when no column has
that name.
-/
theorem rows_round_trip (hm : model.mapping = some m) :
    (∀ r : Row, ∃ e row, ofRow model r = .ok e ∧ e.model = model ∧ e.toRow = .ok row ∧
      row.entries = m.columns.map (fun c => (c.name, (r.get? c.name).getD .null))) ∧
    (∀ e : Entity, e.model = model → ∃ row e', e.toRow = .ok row ∧ ofRow model row = .ok e' ∧
      ∀ a ∈ m.attrs, e'.get a = e.get a) ∧
    (∀ (e : Entity) (name : String) (v : Value), e.model = model →
      ∃ row row', e.toRow = .ok row ∧ (e.setColumn name v).toRow = .ok row' ∧
        row'.entries = row.entries.map (fun x => if x.1 = name then (x.1, v) else x) ∧
        (name ∉ m.table.columnNames → row'.entries = row.entries)) := by
  have htoRow : ∀ e : Entity, e.model = model → e.toRow = .ok (rowOf m e) := by
    intro e he
    rw [toRow, he, hm]
  have hofRow : ∀ r : Row, ofRow model r = .ok ⟨model, Row.ofList (assigned m r)⟩ := by
    intro r
    rw [ofRow, hm]
  refine ⟨fun r => ?_, fun e he => ?_, fun e name v he => ?_⟩
  · refine ⟨_, _, hofRow r, rfl, htoRow _ rfl, ?_⟩
    exact List.map_congr_left fun c hc => by rw [get_ofRow r hc]; rfl
  · refine ⟨_, _, htoRow e he, hofRow _, fun a ha => ?_⟩
    obtain ⟨c, hc, rfl⟩ := List.mem_map.mp ha
    rw [get_ofRow _ hc, get_rowOf e hc]
  · have hentries := entries_rowOf_setColumn (by rw [he, hm]) name v
    refine ⟨_, _, htoRow e he, htoRow _ (by rw [model_setColumn, he]), hentries, fun hname => ?_⟩
    have hmissing : name ∉ (rowOf m e).entries.map Prod.fst := by
      rw [← names_rowOf m e] at hname
      exact hname
    rw [hentries, Row.replaced_of_not_mem hmissing]

/-- A task that is read from a row without its owner, and with a value under the name of an
attribute that is no column. -/
theorem rows_round_trip_title :
    let r : Row := .ofList [("title_text", .text "a"), ("title", .text "b"), ("todo_no", .int 7)]
    ∃ e row, ofRow Catalog.todo r = .ok e ∧ e.toRow = .ok row ∧
      row.entries = [("todo_no", .int 7), ("title_text", .text "a"), ("owner_id", .null)] ∧
      ∃ row', (e.setColumn "title_text" (.text "c")).toRow = .ok row' ∧
        row'.entries = [("todo_no", .int 7), ("title_text", .text "c"), ("owner_id", .null)] := by
  intro r
  have hmapped : Catalog.todo.mapping = some (Catalog.todo.mapping.get rfl) := rfl
  obtain ⟨hread, -, hset⟩ := rows_round_trip hmapped
  obtain ⟨e, row, hofRow, hmodel, htoRow, hentries⟩ := hread r
  obtain ⟨row₀, row', hrow₀, hrow', hreplaced, -⟩ := hset e "title_text" (.text "c") hmodel
  rw [Except.ok.inj (hrow₀.symm.trans htoRow), hentries] at hreplaced
  exact ⟨e, row, hofRow, htoRow, hentries, row', hrow', hreplaced⟩

end Entity

end TableQuery
