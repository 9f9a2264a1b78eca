/-
Values never become text.

Queries have one shape when they differ in their operands only: `shape` puts zero in the
place of every operand and null in that of every plain value.  Two queries of one shape over
scalar operands are written with the same text and the same names, or fail alike,
and that text is the frame of their shape with a placeholder in each hole.  What stands
behind the placeholders is the query's own operands, in the order of its leaves.

The last part has one condition.  A driver is given a value under the name that its
placeholder has as written, and a dot and an underscore are written alike.  For both of two
such places a driver that knows positions is handed the value of the one whose name was changed,
and a driver that knows names that of the last; and where lists of two such columns come to the
same name, the second is handed over as the first.  `PlacesApart` and `ListsApart` say that no two
columns with values, or with lists, are so related, and `values_stay_parameters_clash` shows what
happens when they are.
-/
import TableQuery.Proofs.Query.Meaning
import TableQuery.Proofs.Query.Replacing
import TableQuery.Proofs.Sql.Marks
import TableQuery.Proofs.Sql.Mentions

namespace TableQuery

open Sql

/-- Whether a value is a text, bytes or a number. -/
def Value.isScalar : Value → Bool
  | text _ | bytes _ | int _ | float _ => true
  | _ => false

/-- The operands that a test of a value compares with: the members of a collection, a text
between the wildcards of its pattern, and else the value itself. -/
def Column.Test.operands : Column.Test → Value → List Value
  | isIn, v | notIn, v => v.members?.getD []
  | startsWith, .text s => [.text (s ++ "%")]
  | endsWith, .text s => [.text ("%" ++ s)]
  | contains, .text s | notContains, .text s => [.text ("%" ++ s ++ "%")]
  | _, v => [v]

namespace Operator

/-- Whether an operator takes a list of values. -/
def isMembership : Operator → Bool
  | isIn | notIn => true
  | _ => false

theorem isMembership_of_relation {o : Operator} {r : Relation} (h : o.relation? = some r) :
    o.isMembership = false := by
  cases o <;> first | rfl | cases h

end Operator

/-! ### Conditions -/

namespace Condition

/-- A condition as the methods of a field make it, whose operands are scalars. -/
structure OfScalars (c : Condition) : Prop where
  made : c = c.column.isNull ∨ c = c.column.isNotNull ∨
    ∃ k v, c.column.test k v = .ok (some c)
  scalar : ∀ v ∈ c.operands, v.isScalar = true

/-- What is put in the place of an operand. -/
def blankValue (_ : Value) : Value := .int 0

/-- A condition without its operands. -/
def blank (c : Condition) : Condition := { c with operands := c.operands.map blankValue }

/-- The column of a condition over a table, with the operands. -/
def mention (t : Option Table) (c : Condition) : Mention :=
  ⟨c.column.resolve t, c.operator.isMembership, c.operands⟩

theorem OfScalars.ofField {c : Condition} (h : c.OfScalars) : c.OfField where
  made := h.made
  notNull := by
    rintro v hv rfl
    exact Bool.noConfusion (h.scalar _ hv)
  noTruth := by
    intro _ b hb
    exact Bool.noConfusion (h.scalar _ hb)

theorem operands_of_compare {c : Column} {o : Operator} {v : Value} {x : Condition}
    (h : c.compare o v = some x) : x.operator = o ∧ x.operands = [v] := by
  unfold Column.compare at h
  split at h
  · cases h
  · cases h
    exact ⟨rfl, rfl⟩

theorem operands_of_memberTest {c : Column} {o : Operator} {v : Value} {x : Condition}
    (h : c.memberTest o v = .ok (some x)) :
    x.operator = o ∧ x.operands ≠ [] ∧ x.operands = v.members?.getD [] := by
  unfold Column.memberTest at h
  split at h
  · cases h
  · cases h
  · cases h
  · split at h
    · cases h
    · cases h
    · rename_i hmembers
      cases h
      exact ⟨rfl, by simp, by rw [hmembers]; rfl⟩

theorem operands_of_pattern {c : Column} {o : Operator} {before after : Bool} {v : Value}
    {x : Condition} (h : c.pattern o before after v = .ok (some x)) :
    x.operator = o ∧ ∃ s, v = .text s ∧
      x.operands = [.text ((if before then "%" else "") ++ s ++ (if after then "%" else ""))] := by
  unfold Column.pattern at h
  split at h
  · cases h
  · rename_i s
    cases h
    exact ⟨rfl, s, rfl, rfl⟩
  · split at h <;> cases h

/-- **A test compares with its own operands**, a pattern with the text between its
wildcards. -/
theorem operands_of_test {c : Column} {k : Column.Test} {v : Value} {x : Condition}
    (h : c.test k v = .ok (some x)) : x.operands = k.operands v := by
  cases k with
  | isIn | notIn => exact (operands_of_memberTest h).2.2
  | startsWith | endsWith | contains | notContains =>
      obtain ⟨-, s, rfl, hx⟩ := operands_of_pattern h
      simpa [Column.Test.operands] using hx
  | _ => exact (operands_of_compare (Except.ok.inj h)).2

/-- A field tests no empty list. -/
theorem OfScalars.operands_ne_nil {c : Condition} (h : c.OfScalars)
    (hlist : c.operator.isMembership = true) : c.operands ≠ [] := by
  rcases h.made with hc | hc | ⟨k, v, hc⟩
  · rw [hc] at hlist
    cases hlist
  · rw [hc] at hlist
    cases hlist
  · cases k with
    | isIn | notIn => exact (operands_of_memberTest hc).2.1
    | startsWith | endsWith | contains | notContains =>
        obtain ⟨-, s, -, hx⟩ := operands_of_pattern hc
        simp [hx]
    | _ => simp [(operands_of_compare (Except.ok.inj hc)).2]

theorem relate_of_isScalar (r : Relation) (col : ColumnRef) {v : Value}
    (h : v.isScalar = true) : relate r col v = .ok (.compare r col v) := by
  cases v with
  | text s | bytes bs | int n | float x => cases r <;> rfl
  | _ => cases h

/-- **A condition over scalars becomes one mention of its column**, whatever the scalars
are. -/
theorem toExpr_of_scalars {c : Condition} (h : c.OfScalars) (t : Option Table) :
    ∃ e, c.toExpr t = .ok e ∧ c.blank.toExpr t = .ok (e.map id blankValue) ∧
      e.mentions = [c.mention t] ∧ e.isConstant = false := by
  have hshape := h.ofField.shape
  obtain ⟨col, o, vs⟩ := c
  cases hshape with
  | isNull | isNotNull =>
      exact ⟨_, rfl, by simp [blank, toExpr, expression, Expr.map], by
        simp [Expr.mentions, mention, Operator.isMembership], rfl⟩
  | isIn vs | notIn vs =>
      exact ⟨_, rfl, by simp [blank, toExpr, expression, Expr.map], by
        simp [Expr.mentions, mention, Operator.isMembership], rfl⟩
  | @relation _ r v hr =>
      have hv : v.isScalar = true := h.scalar v (by simp)
      refine ⟨.compare r (col.resolve t) v, ?_, ?_, ?_, rfl⟩
      · rw [toExpr, expression_of_relation hr, relate_of_isScalar r _ hv]
      · rw [blank, toExpr]
        simp only [List.map_cons, List.map_nil]
        rw [expression_of_relation hr, relate_of_isScalar r _ rfl, Expr.map]
        rfl
      · simp [Expr.mentions, mention, Operator.isMembership_of_relation hr]

end Condition

/-! ### Trees -/

namespace Column

variable {c : Column} {t : Option Table} {r : ColumnRef}

theorem name_of_elsewhere (h : c.elsewhere? t = some r) : r.name = c.name := by
  unfold elsewhere? at h
  split at h
  · cases h
  · split at h
    · cases h
    · cases h
      rfl

theorem name_of_within (h : c.within? t = some r) : r.name = c.name := by
  unfold within? at h
  split at h
  · cases h
  · obtain ⟨col, -, rfl⟩ := Option.map_eq_some_iff.mp h
    rfl

/-- A column keeps its name wherever it is resolved. -/
theorem resolve_name (c : Column) (t : Option Table) : (c.resolve t).name = c.name := by
  unfold resolve
  split
  · rename_i h
    exact name_of_elsewhere h
  · rename_i h
    exact name_of_within h
  · rfl

end Column

namespace Query

/-- A query of conditions over scalars, without native expressions. -/
structure OfScalars (q : Query) : Prop where
  conditions : ∀ c, condition c ∈ q.leaves → c.OfScalars
  notNative : ∀ e, native e ∉ q.leaves

/-- A query without its values. -/
def shape (q : Query) : Query := q.map Condition.blank (fun _ => .null)

/-- The operands of the conditions of a query, from left to right. -/
def operands (q : Query) : List Value :=
  q.leaves.flatMap (fun
    | condition c => c.operands
    | _ => [])

/-- The names of the columns that a query compares with lists. -/
def listColumns (q : Query) : List String :=
  q.leaves.filterMap (fun
    | condition c => if c.operator.isMembership then some c.column.name else none
    | _ => none)

/-- The names of the columns that a query compares with values. -/
def comparedColumns (q : Query) : List String :=
  q.leaves.filterMap (fun
    | condition c => if c.operands.isEmpty then none else some c.column.name
    | _ => none)

/-- Whether no two columns with lists share a name as written without sharing it as
counted. -/
def ListsApart (q : Query) : Prop := NamesApart q.listColumns

/-- Whether no two columns with values share a name as written without sharing it as
counted. -/
def PlacesApart (q : Query) : Prop := NamesApart q.comparedColumns

/-- The mention that a leaf translates to. -/
def mention (t : Option Table) : Query → Option Mention
  | condition c => some (c.mention t)
  | column c => some ⟨c.resolve t, false, []⟩
  | _ => none

/-- Whether every table that a query names has a name. -/
def NamesTables (t : Option Table) (q : Query) : Prop :=
  ∀ m ∈ q.leaves.filterMap (mention t), m.column.table ≠ some ""

theorem leavesAll_eq_flatMap (qs : List Query) : leavesAll qs = qs.flatMap leaves := by
  induction qs with
  | nil => rw [leavesAll]; rfl
  | cons q qs ih => rw [leavesAll, ih]; rfl

variable {t : Option Table} {q : Query}

theorem OfScalars.child {k : Keyword} {cs : List Query} (h : (combine k cs).OfScalars)
    {p : Query} (hp : p ∈ cs) : p.OfScalars where
  conditions := fun c hc => h.conditions c (mem_leaves_combine hp hc)
  notNative := fun e he => h.notNative e (mem_leaves_combine hp he)

/-- Linking keeps mentions, and makes no constant of what is none. -/
theorem mentions_link {k : Keyword} {es : List Expr} (h : ∀ e ∈ es, e.isConstant = false) :
    (link k es).toList.flatMap Expr.mentions = es.flatMap Expr.mentions ∧
      ∀ e ∈ link k es, e.isConstant = false := by
  have hjoin : ∀ j, ∀ e e' rest, es = e :: e' :: rest → (Expr.join j es).isConstant = false :=
    fun j e e' rest hes => Expr.isConstant_join j (by simp [hes]) h
  match k, es with
  | .and, [] | .or, [] | .not, [] => simp [link]
  | .and, [e] | .or, [e] => simpa [link] using h e List.mem_cons_self
  | .not, [e] =>
      have he := h e List.mem_cons_self
      simp [link, Expr.mentions_negate, Expr.isConstant_negate, he]
  | .and, e :: e' :: rest =>
      simpa [link, Expr.mentions_join _ h] using hjoin .conjunction e e' rest rfl
  | .or, e :: e' :: rest =>
      simpa [link, Expr.mentions_join _ h] using hjoin .disjunction e e' rest rfl
  | .not, e :: e' :: rest =>
      simpa [link, Expr.mentions_negate, Expr.isConstant_negate, Expr.mentions_join _ h]
        using hjoin .conjunction e e' rest rfl

/-- **A query translates, and mentions what its leaves do, in order.** -/
theorem toExpr_mentions (h : q.OfScalars) :
    ∃ r, (q.toExpr t).result = .ok r ∧
      r.toList.flatMap Expr.mentions = q.leaves.filterMap (mention t) ∧
      ∀ e ∈ r, e.isConstant = false := by
  induction q using Query.induction with
  | absent => exact ⟨none, by rw [toExpr]; rfl, by simp [leaves], by simp⟩
  | plain v => exact ⟨none, by rw [toExpr]; rfl, by simp [leaves], by simp⟩
  | native e => exact absurd (by simp [leaves]) (h.notNative e)
  | column c =>
      exact ⟨_, by rw [toExpr]; rfl, by simp [leaves, mention, Expr.mentions], by
        simp [Expr.isConstant]⟩
  | condition c =>
      obtain ⟨e, he, -, hmentions, hconstant⟩ :=
        Condition.toExpr_of_scalars (h.conditions c (by simp [leaves])) t
      exact ⟨some e, by rw [toExpr, he]; rfl, by simp [leaves, mention, hmentions], by
        simpa using hconstant⟩
  | combine k cs ih =>
      have hall : ∃ es, (toExprs t k cs).result = .ok es ∧
          es.flatMap Expr.mentions = (leavesAll cs).filterMap (mention t) ∧
          ∀ e ∈ es, e.isConstant = false := by
        have hcs := fun p hp => h.child (p := p) hp
        clear h
        induction cs with
        | nil => exact ⟨[], result_toExprs_nil t k, by simp [leavesAll], by simp⟩
        | cons q qs ihqs =>
            obtain ⟨r, hr, hmentions, hconstant⟩ := ih q (by simp) (hcs q (by simp))
            obtain ⟨rs, hrs, hmentionss, hconstants⟩ := ihqs (fun p hp => ih p (by simp [hp]))
              (fun p hp => hcs p (by simp [hp]))
            refine ⟨r.toList ++ rs, by rw [result_toExprs_cons, hr, hrs]; rfl, ?_, ?_⟩
            · rw [List.flatMap_append, hmentions, hmentionss, leavesAll, List.filterMap_append]
            · intro e he
              rcases List.mem_append.mp he with he | he
              · exact hconstant e (Option.mem_toList.mp he)
              · exact hconstants e he
      obtain ⟨es, hes, hmentions, hconstants⟩ := hall
      obtain ⟨hlink, hlinked⟩ := mentions_link (k := k) hconstants
      exact ⟨link k es, by rw [result_toExpr_combine, hes]; rfl, by
        rw [hlink, hmentions, leaves], hlinked⟩

/-- The shape of a query translates as the query does, without the values. -/
theorem toExpr_shape (h : q.OfScalars) :
    (q.shape.toExpr t).result =
      (q.toExpr t).result.map (Option.map (Expr.map id Condition.blankValue)) := by
  refine toExpr_map q (fun c hc => ?_) (fun _ _ => rfl) (fun _ _ => rfl) h.notNative
  obtain ⟨e, he, hblank, -⟩ := Condition.toExpr_of_scalars (h.conditions c hc) t
  rw [hblank, he]
  rfl

/-! ### Texts and parameters -/

theorem operands_eq (q : Query) :
    q.operands = (q.leaves.filterMap (mention t)).flatMap Mention.operands := by
  unfold operands
  induction q.leaves with
  | nil => rfl
  | cons l ls ih =>
      rw [List.flatMap_cons, ih]
      cases l <;> simp [List.filterMap_cons, mention, Condition.mention]

theorem mem_listColumns {m : Mention} (hm : m ∈ q.leaves.filterMap (mention t))
    (hlist : m.list = true) : m.column.name ∈ q.listColumns := by
  obtain ⟨l, hl, hmention⟩ := List.mem_filterMap.mp hm
  cases l with
  | condition c =>
      cases hmention
      have hname : (c.mention t).column.name = c.column.name := Column.resolve_name c.column t
      have hmembership : c.operator.isMembership = true := hlist
      exact List.mem_filterMap.mpr ⟨_, hl, by simp only [hmembership, if_true, hname]⟩
  | column c =>
      cases hmention
      cases hlist
  | _ => cases hmention

theorem mem_comparedColumns {m : Mention} (hm : m ∈ q.leaves.filterMap (mention t))
    (hne : m.operands ≠ []) : m.column.name ∈ q.comparedColumns := by
  obtain ⟨l, hl, hmention⟩ := List.mem_filterMap.mp hm
  cases l with
  | condition c =>
      cases hmention
      have hname : (c.mention t).column.name = c.column.name := Column.resolve_name c.column t
      have hoperands : c.operands.isEmpty = false := List.isEmpty_eq_false_iff.mpr hne
      exact List.mem_filterMap.mpr ⟨_, hl, by simp [hoperands, hname]⟩
  | column c =>
      cases hmention
      exact absurd rfl hne
  | _ => cases hmention

theorem isGrouped_of_scalar {type : SqlType} {vs : List Value}
    (h : ∀ v ∈ vs, v.isScalar = true) : isGrouped type vs = false := by
  match vs with
  | [] => rfl
  | v :: vs =>
      have hv := h v List.mem_cons_self
      cases v with
      | text s | bytes bs | int n | float x => rfl
      | _ => cases hv

/-- The lists that a query of scalars mentions are no lists of groups and not empty. -/
theorem OfScalars.list {m : Mention} (h : q.OfScalars)
    (hm : m ∈ q.leaves.filterMap (mention t)) (hlist : m.list = true) :
    m.operands ≠ [] ∧ ∀ type, isGrouped type m.operands = false := by
  obtain ⟨l, hl, hmention⟩ := List.mem_filterMap.mp hm
  cases l with
  | condition c =>
      cases hmention
      have hc := h.conditions c hl
      exact ⟨hc.operands_ne_nil hlist, fun type => isGrouped_of_scalar hc.scalar⟩
  | column c =>
      cases hmention
      cases hlist
  | _ => cases hmention

/-- The pieces of an expression of scalars are flat. -/
theorem isFlat_pieces (h : q.OfScalars) {e : Expr} (d : Dialect)
    (he : e.mentions = q.leaves.filterMap (mention t)) : ∀ p ∈ e.pieces d, p.IsFlat := by
  intro p hp
  rcases e.covered_pieces d p hp with ⟨s, rfl⟩ | ⟨m, hm, hpiece⟩
  · trivial
  · rw [he] at hm
    cases hpiece with
    | members use hlist => exact (h.list hm hlist).2 _
    | _ => trivial

/-- They can be written when no empty table name has to be. -/
theorem isPlain_pieces (h : q.OfScalars) (htables : q.NamesTables t) {e : Expr} (d : Dialect)
    (he : e.mentions = q.leaves.filterMap (mention t)) : ∀ p ∈ e.pieces d, p.IsPlain := by
  intro p hp
  rcases e.covered_pieces d p hp with ⟨s, rfl⟩ | ⟨m, hm, hpiece⟩
  · trivial
  · rw [he] at hm
    cases hpiece with
    | table htable =>
        rintro rfl
        exact htables m hm htable
    | column =>
        obtain ⟨l, hl, hmention⟩ := List.mem_filterMap.mp hm
        cases l with
        | condition c =>
            cases hmention
            show (c.column.resolve t).name ≠ ""
            rw [Column.resolve_name]
            exact c.column.name_ne_empty
        | column c =>
            cases hmention
            show (c.resolve t).name ≠ ""
            rw [Column.resolve_name]
            exact c.name_ne_empty
        | _ => cases hmention
    | value hv => rfl
    | members use hlist => exact ⟨rfl, (h.list hm hlist).1, (h.list hm hlist).2 _⟩

theorem namesApart_pieces (h : q.ListsApart) {e : Expr} (d : Dialect)
    (he : e.mentions = q.leaves.filterMap (mention t)) :
    NamesApart ((e.pieces d).filterMap Piece.listSlot?) := by
  have hmem : ∀ a ∈ (e.pieces d).filterMap Piece.listSlot?, a ∈ q.listColumns := by
    intro a ha
    obtain ⟨p, hp, hslot⟩ := List.mem_filterMap.mp ha
    rcases e.covered_pieces d p hp with ⟨s, rfl⟩ | ⟨m, hm, hpiece⟩
    · cases hslot
    · rw [he] at hm
      cases hpiece with
      | members use hlist =>
          cases hslot
          exact mem_listColumns hm hlist
      | _ => cases hslot
  intro a ha b hb
  exact h a (hmem a ha) b (hmem b hb)

theorem placesApart_pieces (h : q.OfScalars) (hapart : q.PlacesApart) {e : Expr} (d : Dialect)
    (he : e.mentions = q.leaves.filterMap (mention t)) :
    NamesApart ((e.pieces d).filterMap Piece.slotName?) := by
  have hmem : ∀ a ∈ (e.pieces d).filterMap Piece.slotName?, a ∈ q.comparedColumns := by
    intro a ha
    obtain ⟨p, hp, hslot⟩ := List.mem_filterMap.mp ha
    rcases e.covered_pieces d p hp with ⟨s, rfl⟩ | ⟨m, hm, hpiece⟩
    · cases hslot
    · rw [he] at hm
      cases hpiece with
      | value hv =>
          cases hslot
          exact mem_comparedColumns hm (List.ne_nil_of_mem hv)
      | members use hlist =>
          cases hslot
          exact mem_comparedColumns hm (h.list hm hlist).1
      | _ => cases hslot
  intro a ha b hb
  exact hapart a (hmem a ha) b (hmem b hb)

/-! ### Queries of one shape -/

theorem leaves_map (h : Condition → Condition) (w : Value → Value) (q : Query) :
    (q.map h w).leaves = q.leaves.map (map h w) := by
  induction q using Query.induction with
  | combine k cs ih =>
      simp only [map, mapAll_eq_map, leaves, leavesAll_eq_flatMap, List.flatMap_map,
        List.map_flatMap]
      rw [List.flatMap_def, List.flatMap_def, List.map_congr_left ih]
  | _ => simp [map, leaves]

theorem listColumns_shape (q : Query) : q.shape.listColumns = q.listColumns := by
  unfold listColumns shape
  rw [leaves_map, List.filterMap_map]
  congr 1
  funext l
  cases l <;> simp [map, Condition.blank]

theorem comparedColumns_shape (q : Query) : q.shape.comparedColumns = q.comparedColumns := by
  unfold comparedColumns shape
  rw [leaves_map, List.filterMap_map]
  congr 1
  funext l
  cases l <;> simp [map, Condition.blank]

theorem namesTables_shape (t : Option Table) (q : Query) :
    q.shape.NamesTables t ↔ q.NamesTables t := by
  have hcolumns : ∀ q : Query, q.NamesTables t ↔
      ∀ c ∈ q.leaves.filterMap (fun l => (mention t l).map Mention.column),
        c.table ≠ some "" := by
    intro q
    rw [NamesTables, ← List.map_filterMap]
    simp only [List.forall_mem_map]
  rw [hcolumns, hcolumns, shape, leaves_map, List.filterMap_map]
  have hleaf : (fun l => (mention t l).map Mention.column) ∘ map Condition.blank (fun _ => .null) =
      fun l => (mention t l).map Mention.column := by
    funext l
    cases l <;> simp [map, mention, Condition.mention, Condition.blank]
  rw [hleaf]

/-- A query of scalars that has a leaf and names its tables is written, where its places read
their own values. -/
theorem compiled_of_scalars (h : q.OfScalars) (hne : q.leaves ≠ []) (htables : q.NamesTables t)
    (d : Dialect) :
    ∃ e, (q.shape.toExpr t).result = .ok (some e) ∧ ((d.isPositional → q.PlacesApart) →
      ∃ r, q.compiled t d = .ok (some r) ∧
        (q.PlacesApart → q.ListsApart → r.Fills d (e.frame d) q.operands)) := by
  obtain ⟨x, hx, hmentions, -⟩ := toExpr_mentions (t := t) h
  cases x with
  | none => exact absurd ((toExpr_eq_none_iff q).mp hx) hne
  | some e =>
      have he : e.mentions = q.leaves.filterMap (mention t) := by simpa using hmentions
      refine ⟨e.map id Condition.blankValue, ?_, fun hplaces => ?_⟩
      · rw [toExpr_shape h, hx]
        rfl
      have hplain := isPlain_pieces h htables d he
      have hapart := fun hd => placesApart_pieces h (hplaces hd) d he
      obtain ⟨r, hr⟩ := render_ok (d := d) hplain hapart
      refine ⟨r, ?_, fun hown hlists => ?_⟩
      · simp [compiled, hx, Except.bind, hr, Except.map]
      · obtain ⟨r', hr', hfills⟩ := render_fills (d := d) hplain
          (placesApart_pieces h hown d he) (namesApart_pieces hlists d he)
        have hrr : r' = r := Except.ok.inj (hr'.symm.trans hr)
        rw [hrr, Expr.operands_pieces, he, ← operands_eq] at hfills
        rw [Expr.frame_map]
        exact hfills

/-- Queries of one shape are written with the same text and names, or fail alike. -/
theorem outline_compiled_eq {q p : Query} (hq : q.OfScalars) (hp : p.OfScalars)
    (h : q.shape = p.shape) (t : Option Table) (d : Dialect) :
    (q.compiled t d).map (Option.map Rendered.outline) =
      (p.compiled t d).map (Option.map Rendered.outline) := by
  obtain ⟨x, hx, hxs, -⟩ := toExpr_mentions (t := t) hq
  obtain ⟨y, hy, hys, -⟩ := toExpr_mentions (t := t) hp
  have hshape : x.map (Expr.map id Condition.blankValue) =
      y.map (Expr.map id Condition.blankValue) := by
    have hxq := toExpr_shape (t := t) hq
    have hyp := toExpr_shape (t := t) hp
    rw [hx] at hxq
    rw [hy, ← h, hxq] at hyp
    exact Except.ok.inj hyp
  cases x with
  | none =>
      cases y with
      | none => simp [compiled, hx, hy]
      | some f => cases hshape
  | some e =>
      cases y with
      | none => cases hshape
      | some f =>
          have hef : e.map id Condition.blankValue = f.map id Condition.blankValue :=
            Option.some.inj hshape
          have hblank : (e.pieces d).map Piece.blank = (f.pieces d).map Piece.blank := by
            rw [← Expr.blank_pieces_map d e, hef, Expr.blank_pieces_map]
          have hrender := outline_render_eq (d := d)
            (isFlat_pieces hq d (by simpa using hxs)) (isFlat_pieces hp d (by simpa using hys))
            hblank
          have hsome := congrArg (Except.map some) hrender
          simp only [map_map] at hsome
          simpa only [compiled, hx, hy, Except.bind, map_map, Option.map_some] using hsome

/--
**Values stay parameters.**  Two queries of one shape over scalars are written with the same
text and the same names of parameters, or fail alike.  Where a query has a leaf and names its
tables, and for a driver that knows positions its places are apart, it is written; and when its
places and its lists are apart, the text is the frame of the shape with one placeholder in each
hole, and the parameters hold the query's own operands in order, of a pattern the text with its
wildcards.
-/
theorem values_stay_parameters (t : Option Table) (d : Dialect) {q p : Query}
    (hq : q.OfScalars) (hp : p.OfScalars) (h : q.shape = p.shape) :
    (q.compiled t d).map (Option.map Rendered.outline) =
      (p.compiled t d).map (Option.map Rendered.outline) ∧
    (q.leaves = [] → q.compiled t d = .ok none ∧ p.compiled t d = .ok none) ∧
    (q.leaves ≠ [] → q.NamesTables t →
      ∃ e, (q.shape.toExpr t).result = .ok (some e) ∧ ((d.isPositional → q.PlacesApart) →
        ∀ s ∈ [q, p], ∃ r, s.compiled t d = .ok (some r) ∧
          (q.PlacesApart → q.ListsApart → r.Fills d (e.frame d) s.operands ∧
            (d.isPositional →
              r.sql = (e.frame d).fill (List.replicate s.operands.length "?"))))) ∧
    (∀ (c : Column) (k : Column.Test) (v : Value) (x : Condition),
      c.test k v = .ok (some x) → x.operands = k.operands v) := by
  have hleaves : ∀ q : Query, q.shape.leaves = [] ↔ q.leaves = [] := by
    intro q
    rw [shape, leaves_map, List.map_eq_nil_iff]
  have hnil : q.leaves = [] ↔ p.leaves = [] := by rw [← hleaves q, h, hleaves p]
  refine ⟨outline_compiled_eq hq hp h t d, fun hq0 => ?_, fun hne htables => ?_,
    fun c k v x => Condition.operands_of_test⟩
  · have hnone : ∀ s : Query, s.leaves = [] → s.compiled t d = .ok none := by
      intro s hs
      rw [compiled, (toExpr_eq_none_iff s).mpr hs]
      rfl
    exact ⟨hnone q hq0, hnone p (hnil.mp hq0)⟩
  · obtain ⟨e, he, hwritten⟩ := compiled_of_scalars hq hne htables d
    have hptables : p.NamesTables t := by
      rw [← namesTables_shape, ← h, namesTables_shape]
      exact htables
    obtain ⟨e', he', hwritten'⟩ := compiled_of_scalars hp (fun hnp => hne (hnil.mpr hnp))
      hptables d
    have hee : e' = e := by
      rw [← h, he] at he'
      exact (Option.some.inj (Except.ok.inj he')).symm
    have hlists : q.ListsApart → p.ListsApart := by
      intro hq
      rw [ListsApart, ← listColumns_shape, ← h, listColumns_shape]
      exact hq
    have hplaces : q.PlacesApart → p.PlacesApart := by
      intro hq
      rw [PlacesApart, ← comparedColumns_shape, ← h, comparedColumns_shape]
      exact hq
    -- For a driver that knows positions every placeholder is a question mark.
    have hmarks : ∀ {r : Rendered} {vs : List Value}, r.Fills d (e.frame d) vs → d.isPositional →
        r.sql = (e.frame d).fill (List.replicate vs.length "?") := by
      intro r vs hr hd
      rw [hr.sql, ← hr.values, List.length_map, ← List.map_const']
      simp only [mark_of_isPositional hd]
    refine ⟨e, he, fun hapart s hs => ?_⟩
    simp only [List.mem_cons, List.not_mem_nil, or_false] at hs
    rcases hs with rfl | rfl
    · obtain ⟨r, hr, hfills⟩ := hwritten hapart
      exact ⟨r, hr, fun hown ha => ⟨hfills hown ha, hmarks (hfills hown ha)⟩⟩
    · obtain ⟨r, hr, hfills⟩ := hwritten' fun hd => hplaces (hapart hd)
      rw [hee] at hfills
      exact ⟨r, hr, fun hown ha => ⟨hfills (hplaces hown) (hlists ha),
        hmarks (hfills (hplaces hown) (hlists ha))⟩⟩

/-- Texts that look like SQL stay behind their placeholders: the two queries below are
written with one text, and each hands over its own operands. -/
theorem values_stay_parameters_quotes :
    let name : Column := ⟨.field, "name", none, by decide⟩
    let age : Column := ⟨.field, "age", none, by decide⟩
    let query (s : String) (m n : Int) : Query :=
      any [negation (condition ⟨name, .like, [.text ("%" ++ s)]⟩), absent,
        condition ⟨age, .isIn, [.int m, .int n]⟩]
    let q := query "a" 1 2
    let p := query "' OR 1 = 1 --" 3 4
    q.OfScalars ∧ p.OfScalars ∧ q.shape = p.shape ∧
      ∀ s ∈ [q, p], ∃ r, s.compiled none .sqlite = .ok (some r) ∧
        r.sql = "name NOT LIKE ? OR age IN (?, ?)" ∧ r.parameters.map (·.value) = s.operands := by
  intro name age query q p
  have hscalars : ∀ (s : String) (m n : Int), (query s m n).OfScalars := by
    intro s m n
    refine ⟨fun c hc => ?_, fun e he => ?_⟩
    · have hcases : c = ⟨name, .like, [.text ("%" ++ s)]⟩ ∨ c = ⟨age, .isIn, [.int m, .int n]⟩ := by
        simpa [query, any, negation, leaves, leavesAll] using hc
      rcases hcases with rfl | rfl
      · refine ⟨.inr (.inr ⟨.endsWith, .text s, ?_⟩), by simp [Value.isScalar]⟩
        simp [Column.test, Column.pattern]
      · exact ⟨.inr (.inr ⟨.isIn, .list [.int m, .int n], rfl⟩), by simp [Value.isScalar]⟩
    · simp [query, any, negation, leaves, leavesAll] at he
  have hlists : q.ListsApart := by
    intro a ha b hb _
    have hone : ∀ x ∈ q.listColumns, x = "age" := by
      simp [q, query, listColumns, any, negation, leaves, leavesAll, Operator.isMembership, age]
    rw [hone a ha, hone b hb]
  have hplaces : q.PlacesApart := by
    have hnames : q.comparedColumns = ["name", "age"] := by
      simp [q, query, comparedColumns, any, negation, leaves, leavesAll, name, age]
    rw [PlacesApart, hnames, NamesApart]
    decide
  obtain ⟨-, -, hwritten, -⟩ := values_stay_parameters none .sqlite (hscalars "a" 1 2)
    (hscalars "' OR 1 = 1 --" 3 4) rfl
  obtain ⟨e, he, hall⟩ := hwritten (by simp [query, any, negation, leaves, leavesAll])
    (by simp [NamesTables, query, any, negation, leaves, leavesAll, mention, Condition.mention,
      Column.resolve, Column.elsewhere?, Column.within?, name, age])
  refine ⟨hscalars _ _ _, hscalars _ _ _, rfl, fun s hs => ?_⟩
  obtain ⟨r, hr, hfills⟩ := hall (fun _ => hplaces) s hs
  obtain ⟨hfill, hsql⟩ := hfills hplaces hlists
  refine ⟨r, hr, ?_, hfill.values⟩
  rw [hsql (by simp [Dialect.isPositional])]
  have hlength : s.operands.length = 3 := by
    simp only [List.mem_cons, List.not_mem_nil, or_false] at hs
    rcases hs with rfl | rfl <;> rfl
  have hshape : (q.shape.toExpr none).result = .ok (some (.junction .disjunction
      [.compare .notLike ⟨"name", none, .unknown⟩ (.int 0),
        .member false ⟨"age", none, .unknown⟩ [.int 0, .int 0]])) := rfl
  rw [hshape] at he
  cases he
  rw [hlength]
  rfl

/-- One value for the column `a.b` and two for `a_b`, both of which are written as `a_b_1`. -/
def dottedAndPlain : Query :=
  all [condition ⟨⟨.field, "a.b", none, by decide⟩, .isIn, [.int 7]⟩,
    condition ⟨⟨.field, "a_b", none, by decide⟩, .isIn, [.int 7, .int 7]⟩]

/-- Without lists that are apart the parameters need not be the operands: of the three
values of `dottedAndPlain` two are handed over. -/
theorem values_stay_parameters_clash :
    dottedAndPlain.OfScalars ∧ ∃ r, dottedAndPlain.compiled none .sqlite = .ok (some r) ∧
      r.sql = "\"a.b\" IN (?) AND a_b IN (?)" ∧ r.parameters.length = 2 ∧
      dottedAndPlain.operands = [.int 7, .int 7, .int 7] := by
  have hwritten : (dottedAndPlain.compiled none .sqlite).toOption.join.map
      (fun r => (r.sql, r.parameters.length)) =
        some ("\"a.b\" IN (?) AND a_b IN (?)", 2) := by
    decide +kernel
  obtain ⟨r, hr, hpair⟩ := Option.map_eq_some_iff.mp hwritten
  refine ⟨⟨fun c hc => ?_, fun e he => ?_⟩, r, ?_, congrArg Prod.fst hpair,
    congrArg Prod.snd hpair, rfl⟩
  · have hcases : c = ⟨⟨.field, "a.b", none, by decide⟩, .isIn, [.int 7]⟩ ∨
        c = ⟨⟨.field, "a_b", none, by decide⟩, .isIn, [.int 7, .int 7]⟩ := by
      simpa [dottedAndPlain, all, leaves, leavesAll] using hc
    rcases hcases with rfl | rfl
    · exact ⟨.inr (.inr ⟨.isIn, .list [.int 7], rfl⟩), by simp [Value.isScalar]⟩
    · exact ⟨.inr (.inr ⟨.isIn, .list [.int 7, .int 7], rfl⟩), by simp [Value.isScalar]⟩
  · simp [dottedAndPlain, all, leaves, leavesAll] at he
  · cases hcompiled : dottedAndPlain.compiled none .sqlite with
    | error e => simp [hcompiled, Except.toOption] at hr
    | ok o =>
        rw [hcompiled] at hr
        exact congrArg Except.ok hr

end Query

end TableQuery
