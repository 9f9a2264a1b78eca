/-
Entries that are looked up by their keys.

A lookup finds the first entry of a key and sees no other: entries of other keys may be
taken away, or be the only ones that are, and entries behind may be added.
-/
import Mathlib.Data.List.Basic

namespace TableQuery

variable {α β : Type} [BEq α] [LawfulBEq α] {k : α} {es : List (α × β)}

theorem lookup_cons_ite [DecidableEq α] (e : α × β) (k : α) :
    (e :: es).lookup k = if k = e.1 then some e.2 else es.lookup k := by
  rw [List.lookup_cons]
  by_cases hk : k = e.1
  · rw [if_pos hk, hk, beq_self_eq_true]
  · have hne : (k == e.1) = false := by simpa using hk
    rw [if_neg hk, hne]

theorem lookup_of_not_mem (h : k ∉ es.map Prod.fst) : es.lookup k = none := by
  rw [List.lookup_eq_none_iff]
  intro x hx
  have hne : k ≠ x.1 := fun heq => h (List.mem_map.mpr ⟨x, hx, heq.symm⟩)
  simpa using hne

/-- Entries of other keys make no difference. -/
theorem lookup_filter_eq (k : α) (es : List (α × β)) :
    (es.filter (fun e => e.1 == k)).lookup k = es.lookup k := by
  induction es with
  | nil => rfl
  | cons e es ih =>
      rw [List.filter_cons, List.lookup_cons, BEq.comm (a := e.1)]
      cases hk : k == e.1 with
      | true => rw [if_pos rfl, List.lookup_cons, hk]
      | false => exact ih

/-- The entries of one key can be taken away from those of the others. -/
theorem lookup_filter_ne {other : α} (h : other ≠ k) :
    (es.filter (fun e => e.1 != k)).lookup other = es.lookup other := by
  induction es with
  | nil => rfl
  | cons e es ih =>
      by_cases he : e.1 = k
      · have hother : (other == e.1) = false := by simpa [he] using h
        rw [List.filter_cons_of_neg (by simp [he]), ih, List.lookup_cons, hother]
      · rw [List.filter_cons_of_pos (by simpa using he), List.lookup_cons, List.lookup_cons, ih]

/-- What is found in the front of a list is found in the list. -/
theorem lookup_of_lookup_take {n : Nat} {a : β} (h : (es.take n).lookup k = some a) :
    es.lookup k = some a := by
  obtain ⟨front, back, hsplit, hfront⟩ := List.lookup_eq_some_iff.mp h
  refine List.lookup_eq_some_iff.mpr ⟨front, back ++ es.drop n, ?_, hfront⟩
  rw [← List.cons_append, ← List.append_assoc, ← hsplit, List.take_append_drop]

end TableQuery
