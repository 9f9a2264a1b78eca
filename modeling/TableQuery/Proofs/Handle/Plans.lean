/-
Plans against the outcomes of a driver.

A batch decides what it sends before it sends anything, so it has a plan: a list of steps,
each a statement.  What becomes of a plan is a function of the outcomes that the driver has
ready, `Session.exchange`, and says nothing of channels, reports or results that were sent
before.  `Run.CarriesOut` says that a computation is no more than carrying out a plan.  Then
all that there is to know about it is known of plans: they are sent in order up to the first
failure (`exchange_progress`), a failure of the driver is the result and nothing follows it
(`exchange_of_failure`), and they succeed exactly when every step does
(`exchange_eq_ok_iff`).
-/
import TableQuery.Proofs.Handle.Outcomes

namespace TableQuery

/-- A statement, with what has to be readable from the reply to it. -/
structure PlanStep where
  statement : Sql.Statement
  read : Reply → Except Error Unit

/-- The reply that is given next; a driver whose outcomes are used up has nothing to say. -/
def nextReply : List Outcome → Reply
  | .reply r :: _ => r
  | _ => .silent

/-- What becomes of steps. -/
structure Exchange where
  result : Except Error Unit
  sent : List Sent
  /-- The outcomes that are left. -/
  left : List Outcome

/-- One exchange after another; nothing follows a failure. -/
def Exchange.andThen (x : Exchange) (f : List Outcome → Exchange) : Exchange :=
  match x.result with
  | .ok () => ⟨(f x.left).result, x.sent ++ (f x.left).sent, (f x.left).left⟩
  | .error _ => x

namespace Session

/-- What becomes of one step. -/
def perform (s : Session) (q : PlanStep) (os : List Outcome) : Exchange :=
  match os with
  | .cancel :: rest => ⟨.error .cancelled, [], rest⟩
  | os =>
    match q.statement.prepare s.dialect with
    | .error e => ⟨.error e, [], os⟩
    | .ok p =>
      match os with
      | .failure kind message :: rest =>
        ⟨.error (.driver kind message), [⟨q.statement, p⟩], rest⟩
      | os => ⟨q.read (nextReply os), [⟨q.statement, p⟩], os.tail⟩

/-- What becomes of a plan. -/
def exchange (s : Session) : List PlanStep → List Outcome → Exchange
  | [], os => ⟨.ok (), [], os⟩
  | q :: qs, os => (s.perform q os).andThen (s.exchange qs)

variable {s : Session} {q : PlanStep} {plan more : List PlanStep} {os : List Outcome}

/-! ### One step -/

/-- **What can become of a step**: it is not sent and fails, or it is sent as it is
prepared, and then the driver fails or its reply is read. -/
theorem perform_cases (s : Session) (q : PlanStep) (os : List Outcome) :
    (∃ e, (s.perform q os).result = .error e ∧ (s.perform q os).sent = []) ∨
    (∃ p, q.statement.prepare s.dialect = .ok p ∧ (s.perform q os).sent = [⟨q.statement, p⟩] ∧
      (s.perform q os).left = os.tail ∧
      ((∃ kind message, os.head? = some (.failure kind message) ∧
          (s.perform q os).result = .error (.driver kind message)) ∨
        (∀ kind message, os.head? ≠ some (.failure kind message)) ∧ os.head? ≠ some .cancel ∧
          (s.perform q os).result = q.read (nextReply os))) := by
  unfold perform
  split
  · exact .inl ⟨_, rfl, rfl⟩
  · rename_i hcancel
    cases hp : q.statement.prepare s.dialect with
    | error e => exact .inl ⟨e, rfl, rfl⟩
    | ok p =>
        refine .inr ⟨p, rfl, ?_⟩
        cases os with
        | nil => exact ⟨rfl, rfl, .inr ⟨by simp, by simp, rfl⟩⟩
        | cons o rest =>
            cases o with
            | cancel => exact absurd rfl (hcancel rest)
            | reply r => exact ⟨rfl, rfl, .inr ⟨by simp, by simp, rfl⟩⟩
            | failure kind message => exact ⟨rfl, rfl, .inl ⟨kind, message, rfl, rfl⟩⟩

/-- A step whose statement can be prepared succeeds when the reply can be read. -/
theorem perform_of_reply {p : Sql.Prepared} {reply : Reply} {rest : List Outcome}
    (hp : q.statement.prepare s.dialect = .ok p) (hread : q.read reply = .ok ()) :
    s.perform q (.reply reply :: rest) = ⟨.ok (), [⟨q.statement, p⟩], rest⟩ := by
  simp only [perform, hp, nextReply, hread, List.tail_cons]

/-- A step whose statement can be prepared is sent, unless it is cancelled. -/
theorem sent_perform {p : Sql.Prepared} (hp : q.statement.prepare s.dialect = .ok p)
    (hcancel : os.head? ≠ some .cancel) : (s.perform q os).sent = [⟨q.statement, p⟩] := by
  unfold perform
  cases os with
  | nil => simp only [hp]
  | cons o rest =>
      cases o with
      | cancel => exact absurd rfl hcancel
      | reply r => simp only [hp]
      | failure kind message => simp only [hp]

/-- A step that succeeds has been sent, and has taken one outcome. -/
theorem sent_of_perform_ok (h : (s.perform q os).result = .ok ()) :
    ∃ p, q.statement.prepare s.dialect = .ok p ∧ (s.perform q os).sent = [⟨q.statement, p⟩] ∧
      (s.perform q os).left = os.tail ∧
      ∀ kind message, os.head? ≠ some (.failure kind message) := by
  rcases perform_cases s q os with ⟨e, he, -⟩ | ⟨p, hp, hsent, hleft, hresult⟩
  · rw [he] at h
    cases h
  · rcases hresult with ⟨kind, message, -, hresult⟩ | ⟨hfailure, -, -⟩
    · rw [hresult] at h
      cases h
    · exact ⟨p, hp, hsent, hleft, hfailure⟩

/-- The reply to a step that succeeds could be read. -/
theorem read_of_perform_ok (h : (s.perform q os).result = .ok ()) :
    q.read (nextReply os) = .ok () := by
  rcases perform_cases s q os with ⟨e, he, -⟩ | ⟨-, -, -, -, ⟨_, _, -, he⟩ | ⟨-, -, hread⟩⟩
  · cases he.symm.trans h
  · cases he.symm.trans h
  · exact hread.symm.trans h

/-! ### Plans -/

theorem exchange_cons (s : Session) (q : PlanStep) (qs : List PlanStep) (os : List Outcome) :
    s.exchange (q :: qs) os = (s.perform q os).andThen (s.exchange qs) := rfl

/-- What is planned after a failure has no part in the exchange. -/
theorem exchange_cons_of_error {e : Error} (h : (s.perform q os).result = .error e)
    (qs : List PlanStep) : s.exchange (q :: qs) os = s.perform q os := by
  rw [exchange_cons, Exchange.andThen, h]

theorem exchange_cons_of_ok {p : Sql.Prepared} (h : (s.perform q os).result = .ok ())
    (hsent : (s.perform q os).sent = [⟨q.statement, p⟩]) (hleft : (s.perform q os).left = os.tail)
    (qs : List PlanStep) :
    s.exchange (q :: qs) os = ⟨(s.exchange qs os.tail).result,
      ⟨q.statement, p⟩ :: (s.exchange qs os.tail).sent, (s.exchange qs os.tail).left⟩ := by
  rw [exchange_cons, Exchange.andThen, h]
  simp only [hsent, hleft, List.singleton_append]

theorem Exchange.andThen_assoc (x : Exchange) (f g : List Outcome → Exchange) :
    (x.andThen f).andThen g = x.andThen (fun os => (f os).andThen g) := by
  unfold Exchange.andThen
  cases hx : x.result with
  | error e => simp only [hx]
  | ok _ =>
      cases hf : (f x.left).result with
      | error e => simp only [hf]
      | ok _ => simp only [hf, List.append_assoc]

theorem exchange_append (plan more : List PlanStep) (os : List Outcome) :
    s.exchange (plan ++ more) os = (s.exchange plan os).andThen (s.exchange more) := by
  induction plan generalizing os with
  | nil => simp [exchange, Exchange.andThen]
  | cons q qs ih =>
      rw [List.cons_append, exchange_cons, exchange_cons, Exchange.andThen_assoc]
      congr 1
      funext os
      exact ih os

/-- A plan that succeeds in two parts has succeeded in each. -/
theorem exchange_append_of_ok (h : (s.exchange (plan ++ more) os).result = .ok ()) :
    (s.exchange plan os).result = .ok () ∧
      (s.exchange more (s.exchange plan os).left).result = .ok () ∧
      (s.exchange (plan ++ more) os).sent =
        (s.exchange plan os).sent ++ (s.exchange more (s.exchange plan os).left).sent := by
  rw [exchange_append] at h ⊢
  unfold Exchange.andThen at h ⊢
  cases hplan : (s.exchange plan os).result with
  | error e =>
      rw [hplan] at h
      cases hplan.symm.trans h
  | ok _ =>
      rw [hplan] at h
      exact ⟨rfl, h, rfl⟩

/-- A plan of one step is that step. -/
theorem exchange_singleton (s : Session) (q : PlanStep) (os : List Outcome) :
    s.exchange [q] os = s.perform q os := by
  rw [exchange_cons, Exchange.andThen]
  cases hresult : (s.perform q os).result with
  | error e => rfl
  | ok _ =>
      simp only [exchange, List.append_nil]
      rw [← hresult]

/-- **A plan is sent in order**, up to its first failure. -/
theorem exchange_progress (s : Session) (plan : List PlanStep) (os : List Outcome) :
    Progress plan (fun q y => s.SendsAs q.statement y) (s.exchange plan os).result
      (s.exchange plan os).sent := by
  induction plan generalizing os with
  | nil => exact .done
  | cons q qs ih =>
      rcases perform_cases s q os with ⟨e, he, hsent⟩ | ⟨p, hp, hsent, hleft, -⟩
      · rw [exchange_cons_of_error he, he, hsent]
        exact .nothing
      · cases hresult : (s.perform q os).result with
        | error e =>
            rw [exchange_cons_of_error hresult, hresult, hsent]
            exact .cons ⟨rfl, hp⟩ .nothing
        | ok _ =>
            rw [exchange_cons_of_ok hresult hsent hleft]
            exact (ih os.tail).cons ⟨rfl, hp⟩

/-- **A failure of the driver is the result**, as it is, and nothing is sent after it. -/
theorem exchange_of_failure {k : Nat} {kind message : String}
    (hk : k < (s.exchange plan os).sent.length) (hfailure : os[k]? = some (.failure kind message)) :
    (s.exchange plan os).result = .error (.driver kind message) ∧
      (s.exchange plan os).sent.length = k + 1 := by
  induction plan generalizing os k with
  | nil => simp [exchange] at hk
  | cons q qs ih =>
      rcases perform_cases s q os with ⟨e, he, hsent⟩ | ⟨p, hp, hsent, hleft, hresult⟩
      · rw [exchange_cons_of_error he, hsent] at hk
        simp at hk
      · cases hperformed : (s.perform q os).result with
        | error e =>
            -- The first step has failed, so it is the one of this outcome.
            rw [exchange_cons_of_error hperformed, hsent] at hk ⊢
            have hzero : k = 0 := by simpa using hk
            subst hzero
            rw [← List.head?_eq_getElem?] at hfailure
            rcases hresult with ⟨kind', message', hhead, hresult⟩ | ⟨hnone, -⟩
            · rw [hhead] at hfailure
              cases hfailure
              exact ⟨hresult, rfl⟩
            · exact absurd hfailure (hnone kind message)
        | ok _ =>
            rw [exchange_cons_of_ok hperformed hsent hleft] at hk ⊢
            cases k with
            | zero =>
                obtain ⟨-, -, -, -, hnone⟩ := sent_of_perform_ok hperformed
                exact absurd (List.head?_eq_getElem? ▸ hfailure) (hnone kind message)
            | succ k =>
                have htail : os.tail[k]? = some (.failure kind message) := by
                  rwa [List.getElem?_tail]
                obtain ⟨hdriver, hlength⟩ := ih (by simpa using hk) htail
                exact ⟨hdriver, by simp [hlength]⟩

/-- **A plan succeeds exactly when every step of it does**, with the outcomes that those
before it leave. -/
theorem exchange_eq_ok_iff : (s.exchange plan os).result = .ok () ↔
    ∀ k q, plan[k]? = some q → (s.perform q (os.drop k)).result = .ok () := by
  induction plan generalizing os with
  | nil => simp [exchange]
  | cons q qs ih =>
      constructor
      · intro h k x hx
        cases hperformed : (s.perform q os).result with
        | error e =>
            rw [exchange_cons_of_error hperformed, hperformed] at h
            cases h
        | ok _ =>
            obtain ⟨p, -, hsent, hleft, -⟩ := sent_of_perform_ok hperformed
            rw [exchange_cons_of_ok hperformed hsent hleft] at h
            cases k with
            | zero =>
                rw [List.getElem?_cons_zero, Option.some.injEq] at hx
                rw [← hx, List.drop_zero, hperformed]
            | succ k =>
                rw [← List.drop_tail]
                exact ih.mp h k x (by simpa using hx)
      · intro h
        have hperformed : (s.perform q os).result = .ok () := h 0 q rfl
        obtain ⟨p, -, hsent, hleft, -⟩ := sent_of_perform_ok hperformed
        rw [exchange_cons_of_ok hperformed hsent hleft]
        refine ih.mpr fun k x hx => ?_
        rw [List.drop_tail]
        exact h (k + 1) x (by simpa using hx)

end Session

/-! ### Carrying out a plan -/

namespace Run

variable {α β : Type}

/-- Whether a computation on a channel carries out a plan, and gives `a` when that succeeds. -/
structure CarriesOut (x : Run α) (c : Channel) (s : Session) (plan : List PlanStep) (a : α) :
    Prop where
  result : (x c).1 = (s.exchange plan c.outcomes).result.map (fun _ => a)
  sent : (x c).2.sent = c.sent ++ (s.exchange plan c.outcomes).sent
  left : (x c).2.outcomes = (s.exchange plan c.outcomes).left

variable {c : Channel} {s : Session} {plan more : List PlanStep} {a : α}

theorem carriesOut_pure (a : α) : CarriesOut (Pure.pure a) c s [] a :=
  ⟨rfl, (List.append_nil _).symm, rfl⟩

theorem carriesOut_lift {r : Except Error α} (hr : r = .ok a) : (lift r).CarriesOut c s [] a := by
  rw [hr]
  exact carriesOut_pure a

theorem carriesOut_lift_bind {r : Except Error β} {f : β → Run α} {b : β} (hr : r = .ok b)
    (hf : (f b).CarriesOut c s plan a) : (lift r >>= f).CarriesOut c s plan a := by
  rw [hr]
  exact hf

theorem carriesOut_log_bind {e : Event} {f : Unit → Run α}
    (hf : ∀ c', c'.outcomes = c.outcomes → (f ()).CarriesOut c' s plan a) :
    (log e >>= f).CarriesOut c s plan a := by
  obtain ⟨hresult, hsent, hleft⟩ := hf { c with events := c.events ++ [e] } rfl
  exact ⟨hresult, hsent, hleft⟩

/-- One plan after another. -/
theorem CarriesOut.bind {x : Run β} {f : β → Run α} {b : β} (hx : x.CarriesOut c s plan b)
    (hf : ∀ c', c'.outcomes = (s.exchange plan c.outcomes).left →
      (f b).CarriesOut c' s more a) : (x >>= f).CarriesOut c s (plan ++ more) a := by
  obtain ⟨hresult, hsent, hleft⟩ := hx
  have hbind : (x >>= f) c = Run.bind x f c := rfl
  unfold Run.bind at hbind
  rcases hxc : x c with ⟨r, c'⟩
  rw [hxc] at hresult hsent hleft hbind
  have happend := s.exchange_append plan more c.outcomes
  unfold Exchange.andThen at happend
  cases hplan : (s.exchange plan c.outcomes).result with
  | error e =>
      rw [hplan] at hresult happend
      cases hresult
      dsimp only at happend
      rw [← happend] at hplan hsent hleft
      exact ⟨by rw [hbind, hplan]; rfl, by rw [hbind, ← hsent], by rw [hbind, ← hleft]⟩
  | ok _ =>
      rw [hplan] at hresult happend
      cases hresult
      obtain ⟨hresult', hsent', hleft'⟩ := hf c' hleft
      rw [show c'.outcomes = _ from hleft] at hresult' hsent' hleft'
      refine ⟨?_, ?_, ?_⟩
      · rw [hbind, happend, hresult']
      · rw [hbind, happend, hsent', show c'.sent = _ from hsent, List.append_assoc]
      · rw [hbind, happend, hleft']

/-- What a computation that carries out a plan does, in terms of what it sends. -/
theorem CarriesOut.doesOn {x : Run α} (h : x.CarriesOut c s plan a) :
    x.DoesOn c (fun r added => (∀ b, r = .ok b → b = a) ∧
      Progress plan (fun q y => s.SendsAs q.statement y) r added) := by
  obtain ⟨hresult, hsent, -⟩ := h
  refine ⟨_, hsent, fun b hb => ?_, (s.exchange_progress plan c.outcomes).of_isOk fun hok => ?_⟩
  · rw [hresult] at hb
    obtain ⟨_, -, rfl⟩ := map_eq_ok.mp hb
    rfl
  · rw [hresult] at hok
    cases hplan : (s.exchange plan c.outcomes).result with
    | error e =>
        rw [hplan] at hok
        cases hok
    | ok _ => rfl

end Run

namespace Session

variable {α : Type} {c : Channel} {s : Session} {q : PlanStep} {more : List PlanStep} {a : α}

/-- A statement on a channel either fails as the step does, or the reply to it arrives. -/
theorem execute_cases (s : Session) (q : PlanStep) (c : Channel) :
    (∃ e, (s.perform q c.outcomes).result = .error e ∧
      s.execute q.statement c = (.error e, { c with
        outcomes := (s.perform q c.outcomes).left,
        sent := c.sent ++ (s.perform q c.outcomes).sent })) ∨
    (∃ p, s.perform q c.outcomes =
        ⟨q.read (nextReply c.outcomes), [⟨q.statement, p⟩], c.outcomes.tail⟩ ∧
      s.execute q.statement c = (.ok (nextReply c.outcomes), { c with
        outcomes := c.outcomes.tail, sent := c.sent ++ [⟨q.statement, p⟩] })) := by
  obtain ⟨os, sent, events⟩ := c
  unfold execute perform Run.send
  cases os with
  | nil =>
      cases hp : q.statement.prepare s.dialect with
      | error e => exact .inl ⟨e, rfl, by simp⟩
      | ok p => exact .inr ⟨p, rfl, rfl⟩
  | cons o rest =>
      cases o with
      | cancel => exact .inl ⟨_, rfl, by simp⟩
      | reply r =>
          cases hp : q.statement.prepare s.dialect with
          | error e => exact .inl ⟨e, rfl, by simp⟩
          | ok p => exact .inr ⟨p, rfl, rfl⟩
      | failure kind message =>
          cases hp : q.statement.prepare s.dialect with
          | error e => exact .inl ⟨e, rfl, by simp⟩
          | ok p => exact .inl ⟨_, rfl, rfl⟩

/-- **A statement is the first step of a plan** when what follows it starts by reading the
reply, and then carries out the rest of the plan. -/
theorem carriesOut_execute_bind {f : Reply → Run α}
    (herror : ∀ e, q.read (nextReply c.outcomes) = .error e → ∀ c',
      f (nextReply c.outcomes) c' = (.error e, c'))
    (hok : q.read (nextReply c.outcomes) = .ok () → ∀ c', c'.outcomes = c.outcomes.tail →
      (f (nextReply c.outcomes)).CarriesOut c' s more a) :
    (s.execute q.statement >>= f).CarriesOut c s (q :: more) a := by
  have hbind : (s.execute q.statement >>= f) c = Run.bind (s.execute q.statement) f c := rfl
  unfold Run.bind at hbind
  rcases execute_cases s q c with ⟨e, he, hexecute⟩ | ⟨p, hperform, hexecute⟩
  · rw [hexecute] at hbind
    have hplan := exchange_cons_of_error he more
    exact ⟨by rw [hbind, hplan, he]; rfl, by rw [hbind, hplan], by rw [hbind, hplan]⟩
  · rw [hexecute] at hbind
    dsimp only at hbind
    have hresult : (s.perform q c.outcomes).result = q.read (nextReply c.outcomes) := by
      rw [hperform]
    cases hread : q.read (nextReply c.outcomes) with
    | error e =>
        rw [hread] at hresult
        have hplan := exchange_cons_of_error hresult more
        rw [hperform, hread] at hplan
        rw [herror e hread] at hbind
        exact ⟨by rw [hbind, hplan]; rfl, by rw [hbind, hplan], by rw [hbind, hplan]⟩
    | ok _ =>
        rw [hread] at hresult
        have hplan := exchange_cons_of_ok hresult (by rw [hperform]) (by rw [hperform]) more
        obtain ⟨hrest, hsent, hleft⟩ := hok hread
          ⟨c.outcomes.tail, c.sent ++ [⟨q.statement, p⟩], c.events⟩ rfl
        refine ⟨?_, ?_, ?_⟩
        · rw [hbind, hplan, hrest]
        · rw [hbind, hplan, hsent, List.append_assoc, List.singleton_append]
        · rw [hbind, hplan, hleft]

end Session

end TableQuery
