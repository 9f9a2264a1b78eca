/-
The operators `&`, `|` and `~` as shorthands of the functions.

A `Formula` is an expression of the operators over conditions, queries and absent
conditions.  `evaluate` runs it as a caller's program does, operand by operand, and
`spellOut` is the query that the functions build of the same parts.  An operator is one of
the condition or query at its left, which takes in whatever stands at its right; an
absent condition is a bare null and has no operators.  So a formula is the query it spells out
when no operator is left to an absent condition, and else it fails with the complaint of
the first one that is (`evaluate_eq`).

An operator fails for what it finds at its left only: with the absent condition on
the other side, or among the arguments of the function, the same parts make a query.
-/
import TableQuery.Proofs.Query.Tree
import TableQuery.Query.Operators

namespace TableQuery

namespace Query

/-! ### One operator -/

theorem conjunction_of_isComposable {a : Query} (h : a.isComposable = true) (b : Query) :
    conjunction a b = .ok (all [a, b]) := by
  rw [conjunction, if_pos h]

theorem disjunction_of_isComposable {a : Query} (h : a.isComposable = true) (b : Query) :
    disjunction a b = .ok (any [a, b]) := by
  rw [disjunction, if_pos h]

theorem complement_of_isComposable {a : Query} (h : a.isComposable = true) :
    complement a = .ok (negation a) := by
  cases a with
  | condition c => rfl
  | combine k cs => rfl
  | _ => cases h

/-- An absent condition has no operator, whatever stands beside it. -/
theorem conjunction_absent (b : Query) :
    conjunction absent b = .error (.unsupportedOperands "&" absent.kind b.kind) := by
  cases b <;> rfl

theorem disjunction_absent (b : Query) :
    disjunction absent b = .error (.unsupportedOperands "|" absent.kind b.kind) := by
  cases b <;> rfl

theorem complement_absent :
    complement absent = .error (.unsupportedOperand "~" absent.kind) := rfl

end Query

/-! ### Formulas -/

/-- An expression of the operators. -/
inductive Formula where
  | operand (q : Query)
  | and (a b : Formula)
  | or (a b : Formula)
  | not (a : Formula)

namespace Formula

/-- The parts that a formula is built from. -/
def operands : Formula → List Query
  | operand q => [q]
  | and a b | or a b => a.operands ++ b.operands
  | not a => a.operands

/-- Whether a formula is built from conditions, queries and absent conditions. -/
def IsOfConditions (f : Formula) : Prop :=
  ∀ q ∈ f.operands, q = .absent ∨ q.isComposable = true

/-- What the operators make of a formula: both sides first, then the operator. -/
def evaluate : Formula → Except Error Query
  | operand q => .ok q
  | and a b => a.evaluate.bind (fun p => b.evaluate.bind (fun q => p.conjunction q))
  | or a b => a.evaluate.bind (fun p => b.evaluate.bind (fun q => p.disjunction q))
  | not a => a.evaluate.bind Query.complement

/-- The query that the functions make of a formula. -/
def spellOut : Formula → Query
  | operand q => q
  | and a b => .all [a.spellOut, b.spellOut]
  | or a b => .any [a.spellOut, b.spellOut]
  | not a => .negation a.spellOut

/-- Whether a formula is an absent condition alone. -/
def isAbsent : Formula → Bool
  | operand .absent => true
  | _ => false

/-- What stands at the left of an operator, or under a negation, anywhere in a formula. -/
def heads : Formula → List Formula
  | operand _ => []
  | and a b | or a b => a :: (a.heads ++ b.heads)
  | not a => a :: a.heads

/-- The complaint about an operator that is left to an absent condition. -/
def complaint (a : Formula) (e : Error) : Option Error := if a.isAbsent then some e else none

/-- The first complaint on the way through a formula. -/
def refusal : Formula → Option Error
  | operand _ => none
  | and a b => (a.refusal.or b.refusal).or
      (complaint a (.unsupportedOperands "&" Query.absent.kind b.spellOut.kind))
  | or a b => (a.refusal.or b.refusal).or
      (complaint a (.unsupportedOperands "|" Query.absent.kind b.spellOut.kind))
  | not a => a.refusal.or (complaint a (.unsupportedOperand "~" Query.absent.kind))

/-- A query, unless there is a complaint. -/
def outcome (refusal : Option Error) (q : Query) : Except Error Query :=
  match refusal with
  | none => .ok q
  | some e => .error e

variable {f : Formula}

/-- A formula is an absent condition alone, or spells out what has the operators. -/
theorem isAbsent_or_isComposable (h : f.IsOfConditions) :
    (f.isAbsent = true ∧ f.spellOut = .absent) ∨
      (f.isAbsent = false ∧ f.spellOut.isComposable = true) := by
  cases f with
  | operand q =>
      rcases h q (by simp [operands]) with rfl | hq
      · exact .inl ⟨rfl, rfl⟩
      · refine .inr ⟨?_, hq⟩
        cases q with
        | condition | combine => rfl
        | _ => cases hq
  | and a b | or a b | not a => exact .inr ⟨rfl, rfl⟩

theorem complaint_eq_none_iff (a : Formula) (e : Error) :
    complaint a e = none ↔ a.isAbsent = false := by
  unfold complaint
  cases a.isAbsent <;> simp

/-- What an operator of two sides comes to, once each side has come to its own outcome. -/
theorem bind_outcome {a b : Formula} (ha : a.IsOfConditions)
    {op : Query → Query → Except Error Query} {spelled : Query → Query → Query}
    {complaintOf : Query → Error}
    (hop : ∀ p q, p.isComposable = true → op p q = .ok (spelled p q))
    (habsent : ∀ q, op .absent q = .error (complaintOf q)) :
    (outcome a.refusal a.spellOut).bind (fun p =>
        (outcome b.refusal b.spellOut).bind (fun q => op p q)) =
      outcome ((a.refusal.or b.refusal).or (complaint a (complaintOf b.spellOut)))
        (spelled a.spellOut b.spellOut) := by
  cases a.refusal with
  | some e => rfl
  | none =>
      cases b.refusal with
      | some e => rfl
      | none =>
          show op a.spellOut b.spellOut = _
          rcases isAbsent_or_isComposable ha with ⟨hhead, hspelled⟩ | ⟨hhead, hspelled⟩
          · rw [hspelled, habsent, complaint, if_pos hhead]
            rfl
          · rw [hop _ _ hspelled, (complaint_eq_none_iff a _).mpr hhead]
            rfl

/-- **A formula is the query it spells out, or its first complaint.** -/
theorem evaluate_eq (h : f.IsOfConditions) : f.evaluate = outcome f.refusal f.spellOut := by
  induction f with
  | operand q => rfl
  | and a b iha ihb =>
      have ha : a.IsOfConditions := fun q hq => h q (List.mem_append_left _ hq)
      have hb : b.IsOfConditions := fun q hq => h q (List.mem_append_right _ hq)
      rw [evaluate, iha ha, ihb hb]
      exact bind_outcome ha (fun p q hp => Query.conjunction_of_isComposable hp q)
        Query.conjunction_absent
  | or a b iha ihb =>
      have ha : a.IsOfConditions := fun q hq => h q (List.mem_append_left _ hq)
      have hb : b.IsOfConditions := fun q hq => h q (List.mem_append_right _ hq)
      rw [evaluate, iha ha, ihb hb]
      exact bind_outcome ha (fun p q hp => Query.disjunction_of_isComposable hp q)
        Query.disjunction_absent
  | not a iha =>
      have ha : a.IsOfConditions := h
      rw [evaluate, iha ha, refusal, spellOut]
      cases a.refusal with
      | some e => rfl
      | none =>
          show a.spellOut.complement = _
          rcases isAbsent_or_isComposable ha with ⟨hhead, hspelled⟩ | ⟨hhead, hspelled⟩
          · rw [hspelled, Query.complement_absent, complaint, if_pos hhead]
            rfl
          · rw [Query.complement_of_isComposable hspelled,
              (complaint_eq_none_iff a _).mpr hhead]
            rfl

/-- There is a complaint exactly when some operator is left to an absent condition. -/
theorem refusal_eq_none_iff (f : Formula) :
    f.refusal = none ↔ ∀ a ∈ f.heads, a.isAbsent = false := by
  induction f with
  | operand q => simp [refusal, heads]
  | and a b iha ihb | or a b iha ihb =>
      rw [refusal, heads, Option.or_eq_none_iff, Option.or_eq_none_iff, iha, ihb,
        complaint_eq_none_iff, List.forall_mem_cons, List.forall_mem_append, and_comm]
  | not a iha =>
      rw [refusal, heads, Option.or_eq_none_iff, iha, complaint_eq_none_iff,
        List.forall_mem_cons, and_comm]

/-- The complaints are about an absent condition and no other. -/
theorem refusal_cases {e : Error} (h : f.refusal = some e) :
    (∃ symbol right, e = .unsupportedOperands symbol Query.absent.kind right) ∨
      e = .unsupportedOperand "~" Query.absent.kind := by
  have hcomplaint : ∀ {a : Formula} {e' : Error}, complaint a e' = some e → e' = e := by
    intro a e' hc
    unfold complaint at hc
    split at hc
    · exact Option.some.inj hc
    · cases hc
  induction f with
  | operand q => cases h
  | and a b iha ihb | or a b iha ihb =>
      rw [refusal, Option.or_eq_some_iff, Option.or_eq_some_iff] at h
      rcases h with (ha | ⟨-, hb⟩) | ⟨-, hself⟩
      · exact iha ha
      · exact ihb hb
      · exact .inl ⟨_, _, (hcomplaint hself).symm⟩
  | not a iha =>
      rw [refusal, Option.or_eq_some_iff] at h
      rcases h with ha | ⟨-, hself⟩
      · exact iha ha
      · exact .inr (hcomplaint hself).symm

/--
**The operators spell out the functions**, as far as they have something to stand after.  A
formula of conditions, queries and absent conditions is the query that the functions make of
it exactly when no operator has an absent condition at its left and no negation is of
one; absent conditions at the right are taken in.  It is never another query, and where
it fails it is with the first complaint about an absent condition.
-/
theorem operators_spell_functions (h : f.IsOfConditions) :
    (f.evaluate = .ok f.spellOut ↔ ∀ a ∈ f.heads, a.isAbsent = false) ∧
    (∀ q, f.evaluate = .ok q → q = f.spellOut) ∧
    ∀ e, f.evaluate = .error e → f.refusal = some e ∧
      ((∃ symbol right, e = .unsupportedOperands symbol Query.absent.kind right) ∨
        e = .unsupportedOperand "~" Query.absent.kind) := by
  rw [evaluate_eq h, ← refusal_eq_none_iff]
  cases hf : f.refusal with
  | none => simp [outcome]
  | some e =>
      refine ⟨by simp [outcome], fun q hq => ?_, fun e' he' => ?_⟩
      · cases hq
      · cases he'
        exact ⟨rfl, refusal_cases hf⟩

/-- An absent condition at the right of either operator is a child like any other, also below
a negation. -/
theorem operators_spell_functions_right :
    let c : Query := .condition ⟨⟨.field, "age", none, by decide⟩, .gt, [.int 18]⟩
    let f : Formula := .or (.not (.and (operand c) (operand .absent))) (operand .absent)
    f.evaluate = .ok (.any [.negation (.all [c, .absent]), .absent]) := by
  intro c f
  refine (operators_spell_functions (f := f) ?_).1.mpr ?_
  · simp [IsOfConditions, f, c, operands, Query.isComposable]
  · simp [f, c, heads, isAbsent]

/-- An absent condition at the left has no operator: the same two operands fail in one order
and make a query in the other, and the functions take them in both. -/
theorem operators_spell_functions_left :
    let age : Column := ⟨.field, "age", none, by decide⟩
    let missing := Query.ofOption (age.compare .eq .null)
    let c : Query := .condition ⟨age, .gt, [.int 18]⟩
    let left : Formula := .and (operand missing) (operand c)
    let right : Formula := .and (operand c) (operand missing)
    left.IsOfConditions ∧
      left.evaluate = .error (.unsupportedOperands "&" "NoneType" "Condition") ∧
      left.spellOut = .all [missing, c] ∧ right.evaluate = .ok (.all [c, missing]) ∧
      (Formula.or (operand missing) (operand c)).evaluate =
        .error (.unsupportedOperands "|" "NoneType" "Condition") ∧
      (Formula.not (operand missing)).evaluate = .error (.unsupportedOperand "~" "NoneType") := by
  intro age missing c left right
  refine ⟨fun q hq => ?_, rfl, rfl, rfl, rfl, rfl⟩
  have hcases : q = missing ∨ q = c := by simpa [left, operands] using hq
  rcases hcases with rfl | rfl
  · exact .inl rfl
  · exact .inr rfl

end Formula

end TableQuery
