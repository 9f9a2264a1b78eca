/-
What reaches the driver.

A computation only ever adds to what has been sent, so what it sends can be stated
without the channel it starts from: `Run.Sends` says that all of it meets a test,
whatever the driver replies.  A result that a continuation goes on with is known to be
one the first part can give; that is how the table and the condition of a write are
known to be the ones that were resolved and translated.

An `Operation` is what a caller asks of a handle or an executor, apart from raw
statements.  In a sequence of operations the next one follows also when one has failed,
and its arguments are whatever they are by then, so the sequences are those of every
caller.
-/
import TableQuery.Executor
import TableQuery.Handle.BatchWrite

namespace TableQuery

namespace Run

variable {α β : Type} {P : Sent → Prop}

/-- Whether a computation adds to what has been sent only statements that meet a test. -/
def Sends (x : Run α) (P : Sent → Prop) : Prop :=
  ∀ c, ∃ added, (x c).2.sent = c.sent ++ added ∧ ∀ y ∈ added, P y

/-- Whether a computation can give a result. -/
def Yields (x : Run α) (a : α) : Prop := ∃ c, (x c).1 = .ok a

theorem Sends.bind {x : Run α} {f : α → Run β} (hx : x.Sends P)
    (hf : ∀ a, x.Yields a → (f a).Sends P) : (x >>= f).Sends P := by
  intro c
  obtain ⟨first, hfirst, hP⟩ := hx c
  show ∃ added, (Run.bind x f c).2.sent = c.sent ++ added ∧ ∀ y ∈ added, P y
  unfold Run.bind
  rcases hxc : x c with ⟨r, c'⟩
  rw [hxc] at hfirst
  cases r with
  | error e => exact ⟨first, hfirst, hP⟩
  | ok a =>
      obtain ⟨second, hsecond, hP'⟩ := hf a ⟨c, by rw [hxc]⟩ c'
      refine ⟨first ++ second, ?_, ?_⟩
      · rw [← List.append_assoc, ← hfirst]
        exact hsecond
      · intro y hy
        rcases List.mem_append.mp hy with hy | hy
        · exact hP y hy
        · exact hP' y hy

theorem lift_bind_of_ok {r : Except Error α} {a : α} (h : r = .ok a) (f : α → Run β)
    (c : Channel) : (lift r >>= f) c = f a c := by
  rw [h]
  rfl

theorem bind_of_error {x : Run α} {e : Error} {c c' : Channel} (h : x c = (.error e, c'))
    (f : α → Run β) : (x >>= f) c = (.error e, c') := by
  show Run.bind x f c = _
  rw [Run.bind, h]

end Run

namespace Session

end Session

/-! ### Operations -/

/-- What can be asked of a handle or an executor, apart from raw statements.  The other
operations of an executor are those of its handle, and a delete by query for another
model is one on the handle with that model. -/
inductive Operation where
  | find (h : Handle) (q : Query) (p : Pagination)
  | count (h : Handle) (q : Query)
  | create (h : Handle) (i : Item)
  | save (h : Handle) (i : Item)
  | update (h : Handle) (i : Item)
  | delete (h : Handle) (i : Item)
  | batchCreate (h : Handle) (items : List Item) (size : Int)
  | batchSave (h : Handle) (items : List Item) (size : Int)
  | updateByQuery (h : Handle) (q : Query) (u : Updater)
  | deleteByQuery (h : Handle) (q : Query)
  | findOne (e : Executor) (q : Query)
  | findById (e : Executor) (id : Value)
  | updateById (e : Executor) (id : Value) (u : Updater)
  | deleteById (e : Executor) (id : Value)

namespace Operation

/-- A computation without its result. -/
def silently {α : Type} (x : Run α) : Run Unit := do
  let _ ← x
  return ()

/-- What an operation does in a session. -/
def run (s : Session) : Operation → Run Unit
  | find h q p => silently (h.find s q p)
  | count h q => silently (h.count s q)
  | create h i => silently (h.create s i)
  | save h i => silently (h.save s i)
  | update h i => silently (h.update s i)
  | delete h i => silently (h.delete s i)
  | batchCreate h items size => silently (h.batchCreate s items size)
  | batchSave h items size => silently (h.batchSave s items size)
  | updateByQuery h q u => silently (h.updateByQuery s q u)
  | deleteByQuery h q => silently (h.deleteByQuery s q)
  | findOne e q => silently (e.findOne s q)
  | findById e id => silently (e.findById s id)
  | updateById e id u => silently (e.handle.updateByQuery s (e.byId id) u)
  | deleteById e id => silently (e.handle.deleteByQuery s (e.byId id))

end Operation

end TableQuery
