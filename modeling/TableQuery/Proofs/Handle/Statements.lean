/-
What each operation of a handle sends.

One lemma for each operation, by the steps of its definition.  It says of a class of
statements that all the operation sends is in it, given that the class has the statements
that the operation can build; what an update or a delete is built from, a resolved table
and an identity or a translated query, is what the class may rely on.
-/
import TableQuery.Proofs.Handle.Sending
import TableQuery.Proofs.Results

namespace TableQuery

namespace Batch

theorem mem_of_mem_chunksUpTo {α : Type} {size fuel : Nat} {xs chunk : List α}
    (h : chunk ∈ chunksUpTo size fuel xs) {x : α} (hx : x ∈ chunk) : x ∈ xs := by
  induction fuel generalizing xs with
  | zero => simp [chunksUpTo] at h
  | succ fuel ih =>
      cases xs with
      | nil => simp [chunksUpTo] at h
      | cons y ys =>
          rw [chunksUpTo] at h
          rcases List.mem_cons.mp h with rfl | h
          · exact List.mem_of_mem_take hx
          · exact List.mem_of_mem_drop (ih h)

/-- The chunks of a list have no members of their own. -/
theorem mem_of_mem_chunks {α : Type} {size : Nat} {xs chunk : List α}
    (h : chunk ∈ chunks size xs) {x : α} (hx : x ∈ chunk) : x ∈ xs :=
  mem_of_mem_chunksUpTo h hx

end Batch

namespace Handle

open Run Session

variable {s : Session} {A : Sql.Statement → Prop} {h : Handle}

/-! ### Reading -/

/-- The condition of a write is the translation of its query, and nothing is a failure. -/
theorem writeCondition_apply (t : Table) (q : Query) (action : String) (c : Channel) :
    writeCondition t q action c =
      ((q.toExpr (some t)).result.bind (fun
        | some e => .ok e
        | none => .error (.everyRow action t.name)),
      { c with events := c.events ++ (q.toExpr (some t)).events }) := by
  unfold writeCondition
  show Run.bind (ofLogged (q.toExpr (some t))) _ c = _
  unfold Run.bind ofLogged
  rcases (q.toExpr (some t)).result with _ | _ | _
  · rfl
  · rfl
  · rfl

end Handle

end TableQuery
