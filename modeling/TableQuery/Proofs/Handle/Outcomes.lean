/-
What a computation sends, together with how it ends.

`Run.Sends` says what is sent whatever happens.  To say that everything planned has
been sent when a computation succeeds, and only a first part of it when it fails, the result
has to be in view: `Run.Does` relates the two, on whatever channel.  Its rules follow the
computations: a result that is looked up sends nothing, and a statement is either sent once
or not at all, in which case the computation has failed.  `Progress` is what a loop over a
plan does in these terms.
-/
import Mathlib.Data.List.Forall2
import TableQuery.Proofs.Handle.Statements

namespace TableQuery

namespace Run

variable {α β : Type}

/-- Whether the result of a computation on a channel and what it adds to what has been sent
are related in some way. -/
def DoesOn (x : Run α) (c : Channel) (R : Except Error α → List Sent → Prop) : Prop :=
  ∃ added, (x c).2.sent = c.sent ++ added ∧ R (x c).1 added

/-- Whether they are so related on every channel. -/
def Does (x : Run α) (R : Except Error α → List Sent → Prop) : Prop := ∀ c, x.DoesOn c R

variable {R : Except Error α → List Sent → Prop}

theorem Does.mono {x : Run α} {R' : Except Error α → List Sent → Prop} (h : x.Does R)
    (hR : ∀ r added, R r added → R' r added) : x.Does R' := by
  intro c
  obtain ⟨added, hsent, hr⟩ := h c
  exact ⟨added, hsent, hR _ _ hr⟩

theorem does_of_sent_eq {x : Run α} (h : ∀ c, (x c).2.sent = c.sent ∧ R (x c).1 []) : x.Does R := by
  intro c
  exact ⟨[], by rw [(h c).1, List.append_nil], (h c).2⟩

theorem does_pure {a : α} (h : R (.ok a) []) : Does (Pure.pure a) R :=
  does_of_sent_eq fun _ => ⟨rfl, h⟩

theorem does_lift {r : Except Error α} (h : R r []) : (lift r).Does R :=
  does_of_sent_eq fun _ => ⟨rfl, h⟩

theorem does_fail {e : Error} (h : R (.error e) []) : (fail e : Run α).Does R :=
  does_of_sent_eq fun _ => ⟨rfl, h⟩

/-- One computation after another: what both do is put together, and a failure of the first
is one of the whole. -/
theorem DoesOn.bind {x : Run β} {f : β → Run α} {S : Except Error β → List Sent → Prop}
    {c : Channel} (hx : x.DoesOn c S) (herror : ∀ e added, S (.error e) added → R (.error e) added)
    (hf : ∀ b first, S (.ok b) first → (f b).Does (fun r second => R r (first ++ second))) :
    (x >>= f).DoesOn c R := by
  obtain ⟨first, hfirst, hS⟩ := hx
  show ∃ added, (Run.bind x f c).2.sent = c.sent ++ added ∧ R (Run.bind x f c).1 added
  unfold Run.bind
  rcases hxc : x c with ⟨r, c'⟩
  rw [hxc] at hfirst hS
  cases r with
  | error e => exact ⟨first, hfirst, herror e first hS⟩
  | ok b =>
      obtain ⟨second, hsecond, hR⟩ := hf b first hS c'
      refine ⟨first ++ second, ?_, hR⟩
      rw [← List.append_assoc, ← hfirst]
      exact hsecond

theorem Does.bind {x : Run β} {f : β → Run α} {S : Except Error β → List Sent → Prop}
    (hx : x.Does S) (herror : ∀ e added, S (.error e) added → R (.error e) added)
    (hf : ∀ b first, S (.ok b) first → (f b).Does (fun r second => R r (first ++ second))) :
    (x >>= f).Does R :=
  fun c => (hx c).bind herror hf

/-- A result that is looked up sends nothing and is known to what follows. -/
theorem does_lift_bind {r : Except Error β} {f : β → Run α}
    (herror : ∀ e, r = .error e → R (.error e) []) (hf : ∀ b, r = .ok b → (f b).Does R) :
    (lift r >>= f).Does R := by
  cases r with
  | error e => exact does_of_sent_eq fun _ => ⟨rfl, herror e rfl⟩
  | ok b => exact hf b rfl

theorem lift_ok_bind (b : β) (f : β → Run α) : (lift (.ok b) >>= f) = f b := rfl

theorem does_log_bind {e : Event} {f : Unit → Run α} (hf : (f ()).Does R) :
    (log e >>= f).Does R := by
  intro c
  exact hf { c with events := c.events ++ [e] }

end Run

namespace Session

variable {α : Type} {R : Except Error α → List Sent → Prop}

/-- A statement is sent once, as it is prepared, or the computation has failed. -/
theorem does_execute (s : Session) (x : Sql.Statement) :
    (s.execute x).Does (fun r added => (added = [] ∧ ∃ e, r = .error e) ∨
      ∃ p, x.prepare s.dialect = .ok p ∧ added = [⟨x, p⟩]) := by
  intro c
  unfold Run.DoesOn execute
  split
  · exact ⟨[], by simp, .inl ⟨rfl, _, rfl⟩⟩
  · split
    · exact ⟨[], by simp, .inl ⟨rfl, _, rfl⟩⟩
    · rename_i p hp
      refine ⟨[⟨x, p⟩], ?_, .inr ⟨p, hp, rfl⟩⟩
      unfold Run.send
      dsimp only
      split <;> rfl

theorem does_execute_bind {s : Session} {x : Sql.Statement} {f : Reply → Run α}
    (hnone : ∀ e, R (.error e) [])
    (hsome : ∀ p, x.prepare s.dialect = .ok p →
      (∀ e, R (.error e) [⟨x, p⟩]) ∧
        ∀ reply, (f reply).Does (fun r added => R r (⟨x, p⟩ :: added))) :
    (s.execute x >>= f).Does R := by
  refine (does_execute s x).bind ?_ ?_
  · rintro e added (⟨rfl, -⟩ | ⟨p, hp, rfl⟩)
    · exact hnone e
    · exact (hsome p hp).1 e
  · rintro reply first (⟨-, e, he⟩ | ⟨p, hp, rfl⟩)
    · cases he
    · exact (hsome p hp).2 reply

end Session

/-- Whether what was sent is a given statement, as a session prepares it. -/
structure Session.SendsAs (s : Session) (x : Sql.Statement) (y : Sent) : Prop where
  statement : y.statement = x
  prepared : x.prepare s.dialect = .ok y.prepared

/-! ### Plans -/

/-- Whether what was sent carries out a plan as far as it goes: one statement for each of its
first members in order, and for all of them when the computation succeeds. -/
def Progress {α β : Type} (plan : List α) (P : α → Sent → Prop) (r : Except Error β)
    (added : List Sent) : Prop :=
  ∃ done, done <+: plan ∧ (r.isOk = true → done = plan) ∧ List.Forall₂ P done added

namespace Progress

variable {α β γ : Type} {plan : List α} {P : α → Sent → Prop} {r : Except Error β}
  {added : List Sent}

theorem nothing {e : Error} : Progress plan P (.error e : Except Error β) [] :=
  ⟨[], List.nil_prefix, fun h => Bool.noConfusion h, .nil⟩

theorem done {b : β} : Progress [] P (.ok b) [] := ⟨[], List.prefix_refl _, fun _ => rfl, .nil⟩

theorem cons {a : α} {y : Sent} (hy : P a y) (h : Progress plan P r added) :
    Progress (a :: plan) P r (y :: added) := by
  obtain ⟨first, hprefix, hall, hsent⟩ := h
  exact ⟨a :: first, (List.prefix_cons_inj a).mpr hprefix, fun hr => by rw [hall hr],
    .cons hy hsent⟩

/-- How a computation that made progress goes on or ends makes no difference. -/
theorem of_isOk {s : Except Error γ} (h : Progress plan P r added)
    (hrs : s.isOk = true → r.isOk = true) : Progress plan P s added := by
  obtain ⟨first, hprefix, hall, hsent⟩ := h
  exact ⟨first, hprefix, fun hs => hall (hrs hs), hsent⟩

/-- Only members of a plan are carried out. -/
theorem mem (h : Progress plan P r added) :
    Progress plan (fun a y => a ∈ plan ∧ P a y) r added := by
  obtain ⟨first, hprefix, hall, hsent⟩ := h
  exact ⟨first, hprefix, hall, (List.forall₂_and_left _ _).mpr
    ⟨fun a ha => hprefix.subset ha, hsent⟩⟩

theorem imp {Q : α → Sent → Prop} (h : Progress plan P r added) (hPQ : ∀ a y, P a y → Q a y) :
    Progress plan Q r added := by
  obtain ⟨first, hprefix, hall, hsent⟩ := h
  exact ⟨first, hprefix, hall, hsent.imp hPQ⟩

/-- What was sent as the `k`-th is for the `k`-th member of the plan. -/
theorem getElem? {k : Nat} {y : Sent} (h : Progress plan P r added) (hy : added[k]? = some y) :
    ∃ a, plan[k]? = some a ∧ P a y := by
  obtain ⟨first, ⟨rest, rfl⟩, -, hsent⟩ := h
  obtain ⟨hk, rfl⟩ := List.getElem?_eq_some_iff.mp hy
  have hfirst : k < first.length := hsent.length_eq ▸ hk
  refine ⟨first[k], ?_, hsent.get hfirst hk⟩
  rw [List.getElem?_append_left hfirst, List.getElem?_eq_getElem hfirst]

/-- A computation that succeeds has carried out the whole plan. -/
theorem complete (h : Progress plan P r added) (hr : r.isOk = true) :
    List.Forall₂ P plan added := by
  obtain ⟨first, -, hall, hsent⟩ := h
  rwa [hall hr] at hsent

/-- A plan that is read off another one is carried out with it. -/
theorem of_forall₂ {plan' : List γ} {S : γ → α → Prop} (hplan : List.Forall₂ S plan' plan)
    (h : Progress plan P r added) :
    Progress plan' (fun c y => ∃ a, S c a ∧ P a y) r added := by
  obtain ⟨first, ⟨rest, rfl⟩, hall, hsent⟩ := h
  have htake : List.Forall₂ S (plan'.take first.length) first := by
    have h := List.forall₂_take first.length hplan
    rwa [List.take_left] at h
  refine ⟨plan'.take first.length, List.take_prefix _ _, fun hr => ?_, ?_⟩
  · refine List.take_of_length_le (Nat.le_of_eq ?_)
    rw [hplan.length_eq, ← hall hr]
  · clear hall hplan
    revert htake
    generalize plan'.take first.length = first'
    intro htake
    induction htake generalizing added with
    | nil =>
        cases hsent
        exact .nil
    | cons hca _ ih =>
        cases hsent with
        | cons hay hrest => exact .cons ⟨_, hca, hay⟩ (ih hrest)

theorem of_map {f : γ → α} {plan : List γ} (h : Progress (plan.map f) P r added) :
    Progress plan (fun c => P (f c)) r added := by
  have hplan : List.Forall₂ (fun c a => a = f c) plan (plan.map f) :=
    List.forall₂_map_right_iff.mpr (List.forall₂_same.mpr fun _ _ => rfl)
  refine (h.of_forall₂ hplan).imp fun c y hy => ?_
  obtain ⟨a, rfl, hP⟩ := hy
  exact hP

theorem map {f : γ → α} {plan : List γ} (h : Progress plan (fun c => P (f c)) r added) :
    Progress (plan.map f) P r added := by
  obtain ⟨first, hprefix, hall, hsent⟩ := h
  exact ⟨first.map f, hprefix.map f, fun hr => by rw [hall hr], List.forall₂_map_left_iff.mpr hsent⟩

/-- A longer plan is begun by what begins a shorter one and then fails. -/
theorem begins {e : Error} (h : Progress plan P (.error e : Except Error β) added)
    (more : List α) : Progress (plan ++ more) P (.error e : Except Error γ) added := by
  obtain ⟨first, hprefix, -, hsent⟩ := h
  exact ⟨first, hprefix.trans (List.prefix_append plan more), fun h => Bool.noConfusion h, hsent⟩

/-- One plan after another. -/
theorem append {b : β} {more : List α} {s : Except Error γ} {second : List Sent}
    (h : Progress plan P (.ok b : Except Error β) added) (hmore : Progress more P s second) :
    Progress (plan ++ more) P s (added ++ second) := by
  obtain ⟨first, -, hall, hsent⟩ := h
  obtain ⟨next, hprefix, hrest, hnext⟩ := hmore
  rw [hall rfl] at hsent
  exact ⟨plan ++ next, (List.prefix_append_right_inj plan).mpr hprefix,
    fun hs => by rw [hrest hs], List.rel_append hsent hnext⟩

end Progress

/-- Whether computations have been carried out one after another up to the first that failed,
and what they sent together: `P` says of a member of the plan how it ends and what it
sends. -/
inductive InTurn {α β γ : Type} (P : α → Except Error γ → List Sent → Prop) :
    List α → Except Error β → List Sent → Prop
  | done (b : β) : InTurn P [] (.ok b) []
  | failed {a : α} {e : Error} {added : List Sent} (plan : List α) (h : P a (.error e) added) :
      InTurn P (a :: plan) (.error e) added
  | cons {a : α} {c : γ} {first second : List Sent} {plan : List α} {r : Except Error β}
      (h : P a (.ok c) first) (hrest : InTurn P plan r second) :
      InTurn P (a :: plan) r (first ++ second)

namespace InTurn

variable {α β γ δ : Type} {P : α → Except Error γ → List Sent → Prop} {plan more : List α}
  {first second : List Sent}

theorem begins {e : Error} (h : InTurn P plan (.error e : Except Error β) first)
    (more : List α) : InTurn P (plan ++ more) (.error e : Except Error δ) first := by
  generalize hr : (.error e : Except Error β) = r at h
  induction h with
  | done b => cases hr
  | failed plan h =>
      cases hr
      exact .failed _ h
  | cons h hrest ih => exact .cons h (ih hr)

theorem append {b : β} {r : Except Error δ} (h : InTurn P plan (.ok b : Except Error β) first)
    (hmore : InTurn P more r second) : InTurn P (plan ++ more) r (first ++ second) := by
  generalize hok : (.ok b : Except Error β) = s at h
  induction h with
  | done b => exact hmore
  | failed plan h => cases hok
  | cons h hrest ih =>
      rw [List.append_assoc]
      exact .cons h (ih hok)

end InTurn

end TableQuery
