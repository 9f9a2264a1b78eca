/-
Leaving parts out of a query is the same as never having put them in.

`prune` takes a tree apart from below: absent conditions and plain values go, and so does
a keyword once nothing is left under it.  `toExpr_prune` says that translating looks at
the pruned tree only, because a child that prunes away contributes no expression to its
keyword, and one that does not contributes the expression of what is left of it.  Text
and parameters follow, whatever the dialect.

The reports are the other half.  `dropped` lists them without translating anything, one
for each absent child and each plain value, in the order in which the parts stand in the
tree; `events_toExpr` says that translating reports exactly these.  A failing condition
would cut the list short, which is why that half asks for conditions that translate.
-/
import TableQuery.Proofs.Query.Tree

namespace TableQuery

namespace Query

/-! ### What is left of a tree -/

mutual

/-- A query without the parts that have no expression; none when nothing is left. -/
def prune : Query → Option Query
  | absent | plain _ => none
  | combine k children =>
    match pruneAll children with
    | [] => none
    | kept => some (combine k kept)
  | condition c => some (condition c)
  | column c => some (column c)
  | native e => some (native e)

/-- What is left of several queries. -/
def pruneAll : List Query → List Query
  | [] => []
  | q :: qs => (prune q).toList ++ pruneAll qs

end

theorem prune_combine_of_eq_nil {k : Keyword} {cs : List Query} (h : pruneAll cs = []) :
    (combine k cs).prune = none := by
  rw [prune, h]

theorem prune_combine_of_ne_nil {k : Keyword} {cs : List Query} (h : pruneAll cs ≠ []) :
    (combine k cs).prune = some (combine k (pruneAll cs)) := by
  rw [prune]
  split
  · rename_i hnil
    exact absurd hnil h
  · rfl

theorem pruneAll_append (ps qs : List Query) :
    pruneAll (ps ++ qs) = pruneAll ps ++ pruneAll qs := by
  induction ps with
  | nil => simp [pruneAll]
  | cons p ps ih => simp [pruneAll, ih]

/-! ### Translating sees the pruned tree only -/

variable {t : Option Table}

/-- What a query that may be missing translates to. -/
def resultOf (t : Option Table) : Option Query → Except Error (Option Sql.Expr)
  | none => .ok none
  | some q => (q.toExpr t).result

/-- The children of a keyword contribute what is left of them. -/
theorem result_toExprs_pruneAll {k : Keyword} {cs : List Query}
    (h : ∀ q ∈ cs, (q.toExpr t).result = resultOf t q.prune) :
    (toExprs t k cs).result = (toExprs t k (pruneAll cs)).result := by
  induction cs with
  | nil => rw [pruneAll]
  | cons q qs ih =>
      have hq := h q (by simp)
      have hqs := ih (fun p hp => h p (by simp [hp]))
      rw [pruneAll, result_toExprs_cons, hq, hqs]
      cases hp : q.prune with
      | none =>
          show (toExprs t k (pruneAll qs)).result.map ([] ++ ·) = _
          simp only [List.nil_append, Option.toList_none]
          cases (toExprs t k (pruneAll qs)).result <;> rfl
      | some p =>
          show _ = (toExprs t k (p :: pruneAll qs)).result
          rw [result_toExprs_cons]
          rfl

/-- **A tree translates as what is left of it does.** -/
theorem toExpr_prune (q : Query) : (q.toExpr t).result = resultOf t q.prune := by
  induction q using Query.induction with
  | absent => rw [toExpr, prune]; rfl
  | condition c => rw [prune]; rfl
  | column c => rw [prune]; rfl
  | native e => rw [prune]; rfl
  | plain v => rw [toExpr, prune]; rfl
  | combine k cs ih =>
      rw [result_toExpr_combine, result_toExprs_pruneAll ih]
      by_cases hnil : pruneAll cs = []
      · rw [prune_combine_of_eq_nil hnil, hnil, result_toExprs_nil]
        rfl
      · rw [prune_combine_of_ne_nil hnil]
        show _ = ((combine k (pruneAll cs)).toExpr t).result
        rw [result_toExpr_combine]

theorem prune_eq_none_iff (q : Query) : q.prune = none ↔ q.leaves = [] := by
  induction q using Query.induction with
  | absent => simp [prune, leaves]
  | condition c => simp [prune, leaves]
  | column c => simp [prune, leaves]
  | native e => simp [prune, leaves]
  | plain v => simp [prune, leaves]
  | combine k cs ih =>
      have hall : pruneAll cs = [] ↔ ∀ q ∈ cs, q.leaves = [] := by
        induction cs with
        | nil => simp [pruneAll]
        | cons q qs ihqs =>
            rw [pruneAll, List.append_eq_nil_iff, Option.toList_eq_nil_iff, ih q (by simp),
              ihqs (fun p hp => ih p (by simp [hp])), List.forall_mem_cons]
      rw [leaves, leavesAll_eq_nil, ← hall]
      by_cases hnil : pruneAll cs = []
      · simp [prune_combine_of_eq_nil hnil, hnil]
      · simp [prune_combine_of_ne_nil hnil, hnil]

/-- Text and parameters are those of what is left. -/
theorem compiled_prune {q p : Query} (h : q.prune = some p) (d : Dialect) :
    q.compiled t d = p.compiled t d := by
  unfold compiled
  rw [toExpr_prune q, h]
  rfl

/-- Trees of which the same is left are written alike. -/
theorem compiled_eq_of_prune_eq {q p : Query} (h : q.prune = p.prune) (d : Dialect) :
    q.compiled t d = p.compiled t d := by
  unfold compiled
  rw [toExpr_prune q, toExpr_prune p, h]

/-! ### Reports -/

/-- The report of a child that is absent. -/
def absenceOf (k : Keyword) : Query → List Event
  | absent => [.absentDropped k]
  | _ => []

mutual

/-- The reports of what is left out of a query, in the order of the tree. -/
def dropped : Query → List Event
  | plain v => [.plainDropped v]
  | combine k children => droppedAll k children
  | absent | condition _ | column _ | native _ => []

/-- The reports of what is left out of the children of a keyword. -/
def droppedAll (k : Keyword) : List Query → List Event
  | [] => []
  | q :: qs => absenceOf k q ++ dropped q ++ droppedAll k qs

end

theorem events_reportAbsent (k : Keyword) (q : Query) :
    (toExprs.reportAbsent k q).events = absenceOf k q := by
  cases q <;> rfl

/-- **Translating reports every part that is left out, once and in order.** -/
theorem events_toExpr {q : Query} (h : q.Translates t) : (q.toExpr t).events = q.dropped := by
  induction q using Query.induction with
  | absent => rw [toExpr, dropped]; rfl
  | condition c =>
      obtain ⟨e, he⟩ := h c (by simp [leaves])
      rw [toExpr, dropped, he]
      rfl
  | column c => rw [toExpr, dropped]; rfl
  | native e => rw [toExpr, dropped]; rfl
  | plain v => rw [toExpr, dropped]; rfl
  | combine k cs ih =>
      have hcs : ∀ q ∈ cs, q.Translates t := by
        intro q hq c hc
        exact h c (by rw [leaves]; exact mem_leavesAll.mpr ⟨q, hq, hc⟩)
      have hall : (toExprs t k cs).events = droppedAll k cs ∧
          ∃ es, (toExprs t k cs).result = .ok es := by
        clear h
        induction cs with
        | nil => exact ⟨by rw [toExprs, droppedAll]; rfl, [], result_toExprs_nil t k⟩
        | cons q qs ihqs =>
            obtain ⟨r, hr⟩ := toExpr_ok (hcs q (by simp))
            obtain ⟨hev, rs, hrs⟩ := ihqs (fun p hp => ih p (by simp [hp]))
              (fun p hp => hcs p (by simp [hp]))
            refine ⟨?_, r.toList ++ rs, by rw [result_toExprs_cons, hr, hrs]; rfl⟩
            rw [toExprs, Logged.bind_of_ok (result_reportAbsent k q), Logged.bind_of_ok hr,
              Logged.bind_of_ok hrs, events_reportAbsent, ih q (by simp) (hcs q (by simp)), hev,
              droppedAll]
            simp [Logged.pure]
      obtain ⟨hev, es, hes⟩ := hall
      rw [toExpr, Logged.bind_of_ok hes, hev, dropped]
      simp [Logged.pure]

/-- What is left of a query is never an absent condition. -/
theorem absenceOf_prune {q p : Query} (k : Keyword) (h : q.prune = some p) :
    absenceOf k p = [] := by
  cases q with
  | absent => simp [prune] at h
  | plain v => simp [prune] at h
  | combine j cs =>
      by_cases hnil : pruneAll cs = []
      · rw [prune_combine_of_eq_nil hnil] at h
        cases h
      · rw [prune_combine_of_ne_nil hnil] at h
        cases h
        rfl
  | condition c => simp only [prune, Option.some.injEq] at h; subst h; rfl
  | column c => simp only [prune, Option.some.injEq] at h; subst h; rfl
  | native e => simp only [prune, Option.some.injEq] at h; subst h; rfl

/-- Nothing is left to report of what pruning leaves. -/
theorem dropped_prune {q p : Query} (h : q.prune = some p) : p.dropped = [] := by
  induction q using Query.induction generalizing p with
  | absent => simp [prune] at h
  | condition c => simp only [prune, Option.some.injEq] at h; subst h; rw [dropped]
  | column c => simp only [prune, Option.some.injEq] at h; subst h; rw [dropped]
  | native e => simp only [prune, Option.some.injEq] at h; subst h; rw [dropped]
  | plain v => simp [prune] at h
  | combine k cs ih =>
      have hall : droppedAll k (pruneAll cs) = [] := by
        clear h
        induction cs with
        | nil => simp [pruneAll, droppedAll]
        | cons q qs ihqs =>
            have hqs := ihqs (fun r hr => ih r (by simp [hr]))
            rw [pruneAll]
            cases hq : q.prune with
            | none => simpa using hqs
            | some r => simp [droppedAll, absenceOf_prune k hq, ih q (by simp) hq, hqs]
      by_cases hnil : pruneAll cs = []
      · rw [prune_combine_of_eq_nil hnil] at h
        cases h
      · rw [prune_combine_of_ne_nil hnil] at h
        cases h
        rw [dropped, hall]

/-! ### Absent values

A field gives no condition for a value that is null, nor for a collection without
members where it takes one; zero, false and the empty text are values like any other.
Where no condition is given the tree holds an absent child, and taking that child out is
invisible wherever it stands.
-/

/-- The second query is the first with one absent condition taken out. -/
inductive Omits : Query → Query → Prop
  | here (k : Keyword) (l r : List Query) :
      Omits (combine k (l ++ ofOption none :: r)) (combine k (l ++ r))
  | inside {q p : Query} (k : Keyword) (l r : List Query) (h : Omits q p) :
      Omits (combine k (l ++ q :: r)) (combine k (l ++ p :: r))

theorem prune_combine_congr {k : Keyword} {cs ds : List Query}
    (h : pruneAll cs = pruneAll ds) : (combine k cs).prune = (combine k ds).prune := by
  rw [prune, prune, h]

/-- The same is left with and without an absent condition. -/
theorem prune_eq_of_omits {q p : Query} (h : Omits q p) : q.prune = p.prune := by
  induction h with
  | here k l r =>
      apply prune_combine_congr
      rw [pruneAll_append, pruneAll_append, pruneAll, ofOption, prune]
      rfl
  | inside k l r h ih =>
      apply prune_combine_congr
      rw [pruneAll_append, pruneAll_append, pruneAll, pruneAll, ih]

end Query

/-- Whether a test takes a collection of values. -/
def Column.Test.isMembership : Column.Test → Bool
  | .isIn | .notIn => true
  | _ => false

/-- Whether a value is a collection without members; a text or bytes is no collection. -/
def Value.isEmptyCollection : Value → Bool
  | .list [] | .tuple [] | .set [] | .map [] => true
  | _ => false

namespace Column

theorem compare_eq_none_iff (c : Column) (o : Operator) (v : Value) :
    c.compare o v = none ↔ v = .null := by
  cases v <;> simp [compare, Value.isNull]

theorem pattern_eq_none_iff (c : Column) (o : Operator) (before after : Bool) (v : Value) :
    c.pattern o before after v = .ok none ↔ v = .null := by
  cases v <;> simp [pattern]

theorem memberTest_eq_none_iff (c : Column) (o : Operator) (v : Value) :
    c.memberTest o v = .ok none ↔ v = .null ∨ v.isEmptyCollection = true := by
  cases v with
  | list vs | tuple vs | set vs =>
      cases vs <;> simp [memberTest, Value.members?, Value.isEmptyCollection]
  | map es => cases es <;> simp [memberTest, Value.members?, Value.isEmptyCollection]
  | _ => simp [memberTest, Value.members?, Value.isEmptyCollection]

/-- **A field gives no condition exactly for an absent value.** -/
theorem test_eq_none_iff (c : Column) (k : Test) (v : Value) :
    c.test k v = .ok none ↔
      v = .null ∨ (k.isMembership = true ∧ v.isEmptyCollection = true) := by
  cases k with
  | isIn | notIn => simp [test, Test.isMembership, memberTest_eq_none_iff]
  | startsWith | endsWith | contains | notContains =>
      simp [test, Test.isMembership, pattern_eq_none_iff]
  | _ => simp [test, Test.isMembership, compare_eq_none_iff]

end Column

namespace Query

/--
**Leaving out is exact, at every depth.**  A tree whose conditions translate has no
expression exactly when nothing is left of it, and otherwise is written, for every table
and dialect, as what is left; an absent condition can be taken out anywhere; and every
part left out is reported once, in the order of the tree, an absent child for information
under its keyword and a plain value as a warning.
-/
theorem prune_exact (t : Option Table) (q : Query) (h : q.Translates t) :
    ((q.toExpr t).result = .ok none ↔ q.prune = none) ∧
    (∀ p, q.prune = some p → p.dropped = [] ∧ ∀ d, q.compiled t d = p.compiled t d) ∧
    (∀ p, q.Omits p → ∀ d, q.compiled t d = p.compiled t d) ∧
    (∀ (c : Column) (k : Column.Test) (v : Value), c.test k v = .ok none ↔
      v = .null ∨ (k.isMembership = true ∧ v.isEmptyCollection = true)) ∧
    (q.toExpr t).events = q.dropped ∧
    (∀ k, (Event.absentDropped k).level = .debug ∧
      (Event.absentDropped k).message = "Dropping absent condition from " ++ k.name ++ " query") ∧
    (∀ v, (Event.plainDropped v).level = .warning) := by
  refine ⟨?_, ?_, ?_, Column.test_eq_none_iff, events_toExpr h, fun k => ⟨rfl, rfl⟩,
    fun v => rfl⟩
  · rw [toExpr_eq_none_iff, prune_eq_none_iff]
  · intro p hp
    exact ⟨dropped_prune hp, compiled_prune hp⟩
  · intro p hp
    exact compiled_eq_of_prune_eq (prune_eq_of_omits hp)

/-- A disjunction of an absent condition, a plain value, a conjunction in which nothing is
left, and a condition is written as the disjunction of that condition alone. -/
theorem prune_exact_disjunction :
    let c : Condition := ⟨⟨.field, "age", none, by decide⟩, .gt, [.int 0]⟩
    let q : Query := any [absent, plain (.int 0), all [absent, negation (plain (.text ""))],
      condition c]
    q.Translates none ∧ (∀ d, q.compiled none d = (any [condition c]).compiled none d) ∧
      (q.toExpr none).events = [.absentDropped .or, .plainDropped (.int 0), .absentDropped .and,
        .plainDropped (.text "")] := by
  intro c q
  have h : q.Translates none := by
    intro x hx
    have hxc : x = c := by
      simpa [q, any, all, negation, leaves, leavesAll] using hx
    exact ⟨_, by rw [hxc]; rfl⟩
  obtain ⟨-, hprune, -, -, hevents, -⟩ := prune_exact none q h
  refine ⟨h, (hprune _ rfl).2, ?_⟩
  rw [hevents]
  rfl

end Query

end TableQuery
