/-
Lists of names without repetition, in the order of first appearance.
-/
namespace TableQuery

/-- Each name at its first place. -/
def distinct : List String → List String
  | [] => []
  | a :: as => a :: (distinct as).filter (fun b => b != a)

/-- No name stands twice. -/
theorem nodup_distinct (names : List String) : (distinct names).Nodup := by
  induction names with
  | nil => exact List.nodup_nil
  | cons a as ih =>
    refine List.nodup_cons.2 ⟨?_, List.filter_sublist.nodup ih⟩
    simp [List.mem_filter]

/-- The same names occur. -/
theorem mem_distinct {a : String} {names : List String} : a ∈ distinct names ↔ a ∈ names := by
  induction names with
  | nil => simp [distinct]
  | cons b bs ih =>
    by_cases h : a = b <;> simp [distinct, List.mem_filter, ih, h]

end TableQuery
