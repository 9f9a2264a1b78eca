/-
What is pending in an updater.

An updater is built by calls, and a call leaves a mark on each name that it is about: a value that
is to be assigned, or that nothing is.  So a sequence of calls is one list of marks, and what
is pending under a name is its last mark (`get?_ofCalls`).  The marks go by names, and with that
so does everything that is said of the calls: a column bound to another table, or one of the
other kind, leaves the same marks.

The last mark of a name depends on the marks of that name alone.  Calls may therefore
change places as long as the marks of each name stay in order (`SameMarks`), which two neighbours
without a name in common do not disturb (`sameMarks_swap`).
-/
import TableQuery.Proofs.Handle.Creating

namespace TableQuery

/-! ### Entries that come last -/

namespace Row

/-- **Of entries that are set one after another the last one of a name counts.** -/
theorem get?_insertAll (r : Row) (es : List (String × Value)) (n : String) :
    (r.insertAll es).get? n = (es.reverse.lookup n).or (r.get? n) := by
  induction es generalizing r with
  | nil => rfl
  | cons e es ih =>
      show ((r.insert e.1 e.2).insertAll es).get? n = _
      rw [ih, get?_insert, List.reverse_cons, List.lookup_append, Option.or_assoc,
        lookup_cons_ite]
      split <;> rfl

/-- No name stands twice in a row, so it makes no difference from which end it is looked up. -/
theorem lookup_reverse_entries (r : Row) (n : String) : r.entries.reverse.lookup n = r.get? n := by
  have hsame : (ofList r.entries).get? n = r.get? n := by
    rw [get?, entries_ofList r.names_nodup, get?]
  rw [← hsame, ofList, get?_insertAll]
  exact Option.or_none.symm

theorem contains_eq_isSome (r : Row) (n : String) : r.contains n = (r.get? n).isSome := by
  cases h : r.contains n with
  | true => rw [get?_of_contains h]; rfl
  | false => rw [get?_of_not_contains h]; rfl

theorem isEmpty_iff {r : Row} : r.isEmpty = true ↔ ∀ n, r.get? n = none := by
  constructor
  · intro h n
    rw [get?, List.isEmpty_iff.mp h]
    rfl
  · intro h
    rw [isEmpty, List.isEmpty_iff, List.eq_nil_iff_forall_not_mem]
    intro e he
    have hcontains : r.contains e.1 = true := by
      rw [contains, List.contains_iff_mem]
      exact List.mem_map_of_mem he
    rw [contains_eq_isSome, h] at hcontains
    cases hcontains

end Row

namespace Updater

/-! ### Calls -/

/-- A call on an updater. -/
inductive Call where
  | add (c : Column) (v : Value)
  | addAll (entries : List (Column × Value))
  | remove (c : Column)

namespace Call

/-- What a call leaves behind on names, in order: a value, or none. -/
def marks : Call → List (String × Option Value)
  | add c v => [(c.name, some v)]
  | addAll entries => entries.map (fun e => (e.1.name, some e.2))
  | remove c => [(c.name, none)]

/-- Whether two calls are about different names. -/
def Apart (a b : Call) : Prop := ∀ x ∈ a.marks, ∀ y ∈ b.marks, x.1 ≠ y.1

end Call

/-- An updater after a call. -/
def perform (u : Updater) : Call → Updater
  | .add c v => u.add c v
  | .addAll entries => u.addAll entries
  | .remove c => u.remove c

/-- The updater that calls make of a new one. -/
def ofCalls (calls : List Call) : Updater := calls.foldl perform .empty

/-- The marks of calls, in order. -/
def marks (calls : List Call) : List (String × Option Value) := calls.flatMap Call.marks

/-- The value that the last call on a name set; none when it was removed since, or never set. -/
def lastSet (calls : List Call) (n : String) : Option Value := ((marks calls).reverse.lookup n).join

/-! ### What they leave -/

theorem get?_perform (u : Updater) (call : Call) (n : String) :
    (u.perform call).pending.get? n = (call.marks.reverse.lookup n).getD (u.pending.get? n) := by
  cases call with
  | add c v =>
      show (u.pending.insert c.name v).get? n = ([(c.name, some v)].lookup n).getD _
      rw [Row.get?_insert, List.lookup_cons]
      by_cases hn : n = c.name
      · simp [hn]
      · have hne : (n == c.name) = false := by simpa using hn
        rw [if_neg hn, hne]
        rfl
  | remove c =>
      show (u.pending.filter (fun m _ => m != c.name)).get? n = ([(c.name, none)].lookup n).getD _
      rw [Row.get?_filter, List.lookup_cons]
      by_cases hn : n = c.name
      · simp [hn]
      · have hne : (n == c.name) = false := by simpa using hn
        rw [hne, if_pos (by simpa using hn)]
        rfl
  | addAll entries =>
      have hmarks : (Call.addAll entries).marks.reverse.lookup n =
          ((entries.map (fun e => (e.1.name, e.2))).reverse.lookup n).map some := by
        rw [Call.marks, ← List.map_reverse, ← List.map_reverse]
        induction entries.reverse with
        | nil => rfl
        | cons e es ih =>
            rw [List.map_cons, List.map_cons, List.lookup_cons, List.lookup_cons, ih]
            cases n == e.1.name <;> rfl
      show (u.pending.insertAll (Row.ofList _).entries).get? n = _
      rw [Row.get?_insertAll, Row.lookup_reverse_entries, Row.ofList, Row.get?_insertAll, hmarks]
      cases (entries.map (fun e => (e.1.name, e.2))).reverse.lookup n <;> rfl

/-- **Under each name is pending what the last call on it set.** -/
theorem get?_ofCalls (calls : List Call) (n : String) :
    (ofCalls calls).pending.get? n = lastSet calls n := by
  have hfold : ∀ u : Updater, (calls.foldl perform u).pending.get? n =
      ((marks calls).reverse.lookup n).getD (u.pending.get? n) := by
    induction calls with
    | nil => intro u; rfl
    | cons call calls ih =>
        intro u
        have hmarks : (marks (call :: calls)).reverse =
            (marks calls).reverse ++ call.marks.reverse := by
          rw [marks, List.flatMap_cons, List.reverse_append, marks]
        rw [List.foldl_cons, ih, get?_perform, hmarks, List.lookup_append]
        cases (marks calls).reverse.lookup n <;> rfl
  rw [ofCalls, hfold, lastSet]
  cases (marks calls).reverse.lookup n <;> rfl

theorem mem_names_iff {calls : List Call} {n : String} :
    n ∈ (ofCalls calls).pending.names ↔ (lastSet calls n).isSome = true := by
  rw [← get?_ofCalls, ← Row.contains_eq_isSome, Row.contains, List.contains_iff_mem]

theorem isEmpty_iff {calls : List Call} :
    (ofCalls calls).pending.isEmpty = true ↔ ∀ n, lastSet calls n = none := by
  simp only [Row.isEmpty_iff, get?_ofCalls]

/-! ### Calls in another order -/

/-- Whether calls leave on each name the same marks in the same order. -/
def SameMarks (calls calls' : List Call) : Prop :=
  ∀ n, (marks calls).filter (fun x => x.1 == n) = (marks calls').filter (fun x => x.1 == n)

/-- **The order matters among the calls on one name only.** -/
theorem get?_ofCalls_of_sameMarks {calls calls' : List Call} (h : SameMarks calls calls')
    (n : String) : (ofCalls calls).pending.get? n = (ofCalls calls').pending.get? n := by
  have hlookup : ∀ calls : List Call, (marks calls).reverse.lookup n =
      ((marks calls).filter (fun x => x.1 == n)).reverse.lookup n := by
    intro calls
    rw [← List.filter_reverse, lookup_filter_eq]
  rw [get?_ofCalls, get?_ofCalls, lastSet, lastSet, hlookup calls, hlookup calls', h n]

/-- Two neighbours that are apart may change places. -/
theorem sameMarks_swap {a b : Call} (h : a.Apart b) (before after : List Call) :
    SameMarks (before ++ a :: b :: after) (before ++ b :: a :: after) := by
  intro n
  have hswap : a.marks.filter (fun x => x.1 == n) ++ b.marks.filter (fun x => x.1 == n) =
      b.marks.filter (fun x => x.1 == n) ++ a.marks.filter (fun x => x.1 == n) := by
    by_cases ha : ∃ x ∈ a.marks, x.1 = n
    · obtain ⟨x, hx, rfl⟩ := ha
      have hnone : b.marks.filter (fun y => y.1 == x.1) = [] := by
        rw [List.filter_eq_nil_iff]
        intro y hy
        simpa using (h x hx y hy).symm
      rw [hnone, List.append_nil, List.nil_append]
    · have hnone : a.marks.filter (fun x => x.1 == n) = [] := by
        rw [List.filter_eq_nil_iff]
        intro x hx
        simpa using fun hn => ha ⟨x, hx, hn⟩
      rw [hnone, List.append_nil, List.nil_append]
  simp only [marks, List.flatMap_append, List.flatMap_cons, List.filter_append]
  rw [← List.append_assoc (a.marks.filter _), hswap, List.append_assoc]

end Updater

end TableQuery
