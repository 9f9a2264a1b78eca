/-
Results that may be failures.

What is known of a computation that succeeded: which parts of it did, and with what.
-/
import Mathlib.Data.List.Forall2
import TableQuery.Event

namespace TableQuery

section

variable {ε α β γ δ : Type}

theorem map_eq_ok {f : α → β} {x : Except ε α} {b : β} :
    x.map f = .ok b ↔ ∃ a, x = .ok a ∧ f a = b := by
  cases x <;> simp [Except.map]

theorem map_eq_error {f : α → β} {x : Except ε α} {e : ε} : x.map f = .error e ↔ x = .error e := by
  cases x <;> simp [Except.map]

theorem bind_eq_ok {f : α → Except ε β} {x : Except ε α} {b : β} :
    x.bind f = .ok b ↔ ∃ a, x = .ok a ∧ f a = .ok b := by
  cases x <;> simp [Except.bind]

theorem mapError_eq_ok {f : ε → γ} {x : Except ε α} {a : α} :
    x.mapError f = .ok a ↔ x = .ok a := by
  cases x <;> simp [Except.mapError]

theorem map_map (f : α → β) (g : β → γ) (x : Except ε α) :
    (x.map f).map g = x.map (fun a => g (f a)) := by
  cases x <;> rfl

/-- Two results that come to the same fail alike, or both succeed. -/
theorem cases_of_map_eq {f : α → γ} {g : β → γ} {x : Except ε α} {y : Except ε β}
    (h : x.map f = y.map g) :
    (∃ e, x = .error e ∧ y = .error e) ∨ ∃ a b, x = .ok a ∧ y = .ok b ∧ f a = g b := by
  cases x with
  | error e =>
      cases y with
      | error e' =>
          cases h
          exact .inl ⟨e, rfl, rfl⟩
      | ok b => cases h
  | ok a =>
      cases y with
      | error e' => cases h
      | ok b => exact .inr ⟨a, b, rfl, rfl, Except.ok.inj h⟩

/-- Whether two results fail alike, or both succeed with related values. -/
inductive Together (R : α → β → Prop) : Except ε α → Except ε β → Prop
  | error (e : ε) : Together R (.error e) (.error e)
  | ok {a : α} {b : β} (h : R a b) : Together R (.ok a) (.ok b)

theorem Together.cases {R : α → β → Prop} {x : Except ε α} {y : Except ε β}
    (h : Together R x y) :
    (∃ e, x = .error e ∧ y = .error e) ∨ ∃ a b, x = .ok a ∧ y = .ok b ∧ R a b := by
  cases h with
  | error e => exact .inl ⟨e, rfl, rfl⟩
  | ok h => exact .inr ⟨_, _, rfl, rfl, h⟩

theorem Together.eq {R : α → α → Prop} {x y : Except ε α} (h : Together R x y)
    (hR : ∀ a b, R a b → a = b) : x = y := by
  cases h with
  | error e => rfl
  | ok h => rw [hR _ _ h]

theorem Together.map {R : α → β → Prop} {S : γ → δ → Prop} {x : Except ε α} {y : Except ε β}
    (h : Together R x y) {f : α → γ} {g : β → δ} (hfg : ∀ a b, R a b → S (f a) (g b)) :
    Together S (x.map f) (y.map g) := by
  cases h with
  | error e => exact .error e
  | ok h => exact .ok (hfg _ _ h)

theorem Together.of_map {S : γ → δ → Prop} {f : α → γ} {g : β → δ} {x : Except ε α}
    {y : Except ε β} (h : Together S (x.map f) (y.map g)) :
    Together (fun a b => S (f a) (g b)) x y := by
  cases x with
  | error e =>
      cases y with
      | error e' =>
          cases h
          exact .error e
      | ok b => cases h
  | ok a =>
      cases y with
      | error e' => cases h
      | ok b =>
          cases h with
          | ok h => exact .ok h

theorem collect_cons_eq_ok {f : α → Except ε β} {a : α} {as : List α} {bs : List β} :
    collect f (a :: as) = .ok bs ↔
      ∃ b rest, f a = .ok b ∧ collect f as = .ok rest ∧ bs = b :: rest := by
  rw [collect]
  cases hb : f a with
  | error e => simp
  | ok b =>
      rw [map_eq_ok]
      constructor
      · rintro ⟨rest, hrest, rfl⟩
        exact ⟨b, rest, rfl, hrest, rfl⟩
      · rintro ⟨b', rest, hb', hrest, rfl⟩
        exact ⟨rest, hrest, by rw [Except.ok.inj hb']⟩

theorem collect_map (f : β → Except ε γ) (g : α → β) (as : List α) :
    collect f (as.map g) = collect (fun a => f (g a)) as := by
  induction as with
  | nil => rfl
  | cons a as ih => rw [List.map_cons, collect, collect, ih]

/-- Results that are all known are collected. -/
theorem collect_of_ok {f : α → Except ε β} {g : α → β} {as : List α}
    (h : ∀ a ∈ as, f a = .ok (g a)) : collect f as = .ok (as.map g) := by
  induction as with
  | nil => rfl
  | cons a as ih =>
      exact collect_cons_eq_ok.mpr ⟨g a, as.map g, h a List.mem_cons_self,
        ih (fun b hb => h b (List.mem_cons_of_mem a hb)), rfl⟩

/-- Lists have the same images when their members have, one by one. -/
theorem map_eq_map_iff_forall₂ {f : α → γ} {g : β → γ} {xs : List α} {ys : List β} :
    xs.map f = ys.map g ↔ List.Forall₂ (fun x y => f x = g y) xs ys := by
  rw [← List.forall₂_eq_eq_eq, List.forall₂_map_left_iff, List.forall₂_map_right_iff]

/-- Every member of a list is related to one of a list that is related to it. -/
theorem exists_of_forall₂ {R : α → β → Prop} {xs : List α} {ys : List β}
    (h : List.Forall₂ R xs ys) {x : α} (hx : x ∈ xs) : ∃ y ∈ ys, R x y := by
  induction h with
  | nil => cases hx
  | cons hxy _ ih =>
      rcases List.mem_cons.mp hx with rfl | hx
      · exact ⟨_, List.mem_cons_self, hxy⟩
      · obtain ⟨y, hy, hR⟩ := ih hx
        exact ⟨y, List.mem_cons_of_mem _ hy, hR⟩

end

namespace Logged

variable {α β : Type}

theorem bind_of_ok {x : Logged α} {a : α} (h : x.result = .ok a) (f : α → Logged β) :
    x.bind f = ⟨x.events ++ (f a).events, (f a).result⟩ := by
  rw [Logged.bind, h]

theorem bind_of_error {x : Logged α} {e : Error} (h : x.result = .error e)
    (f : α → Logged β) : x.bind f = ⟨x.events, .error e⟩ := by
  rw [Logged.bind, h]

end Logged

end TableQuery
