/-
A model sharded over several tables.

An executor of a model on a table of another name is the executor of the model on another
table, and nothing else.  A `Request` is what is asked of an executor, and a caller decides on
the next one by the answers it has had so far, so the requests of two callers stay the same as
long as the answers do.  `serve_mirrors` follows both executors through all of them, with
the lemma of one operation for each step, and `sharded_serves_alike` says of a
model and any name what comes of it.
-/
import TableQuery.Catalog
import TableQuery.Proofs.Handle.Mirroring

namespace TableQuery

/-- What is asked of an executor, apart from raw statements. -/
inductive Request where
  | find (q : Query) (p : Pagination)
  /-- The first record that meets a query. -/
  | findOne (q : Query)
  | findById (id : Value)
  | count (q : Query)
  | create (i : Item)
  | save (i : Item)
  | update (i : Item)
  | delete (i : Item)
  | batchCreate (items : List Item) (size : Int)
  | batchSave (items : List Item)
  | updateByQuery (q : Query) (u : Updater)
  | deleteByQuery (q : Query)
  | updateById (id : Value) (u : Updater)
  | deleteById (id : Value)

/-- What an executor answers. -/
inductive Answer where
  | records (rs : List Record)
  | found (r : Option Record)
  | number (n : Int)
  /-- An item as it is left by what was asked. -/
  | item (i : Item)

namespace Request

/-- What a request makes an executor do. -/
def run (e : Executor) (s : Session) : Request → Run Answer
  | find q p => do return .records (← e.handle.find s q p)
  | findOne q => do return .found (← e.findOne s q)
  | findById id => do return .found (← e.findById s id)
  | count q => do return .number (← e.handle.count s q)
  | create i => do return .item (← e.handle.create s i)
  | save i => do return .item (← e.handle.save s i)
  | update i => do return .number (← e.handle.update s i)
  | delete i => do return .number (← e.handle.delete s i)
  | batchCreate items size => do return .number (← e.handle.batchCreate s items size)
  | batchSave items => do return .number (← e.handle.batchSave s items Batch.defaultSize)
  | updateByQuery q u => do return .number (← e.handle.updateByQuery s q u)
  | deleteByQuery q => do return .number (← e.handle.deleteByQuery s q)
  | updateById id u => do return .number (← e.handle.updateByQuery s (e.byId id) u)
  | deleteById id => do return .number (← e.handle.deleteByQuery s (e.byId id))

/-- Whether the columns that a request queries and orders by have no table of their own, and
nothing that it queries by is native. -/
def Unqualified : Request → Prop
  | find q p => q.Unqualified ∧ ∀ o ∈ p.orders, o.column.table = none
  | findOne q | count q | updateByQuery q _ | deleteByQuery q => q.Unqualified
  | _ => True

end Request

/-- An error without the table that it is about. -/
def Error.withoutTable : Error → Error
  | everyRow action _ => .everyRow action ""
  | noIdentity _ => .noIdentity ""
  | e => e

/-- What each request was answered with, or how it failed. -/
abbrev Answers : Type := List (Except Error Answer)

/-- What decides on the next request by the answers so far, if there is a next one.  Of an
error it does not see the table. -/
abbrev Caller : Type := Answers → Option Request

/-- The answers as a caller sees them. -/
def Answers.seen (answers : Answers) : Answers := answers.map (Except.mapError Error.withoutTable)

/-- The first `n` requests of a caller, each after the one before it whether that succeeded or
not, with the channel after them. -/
def Executor.serve (e : Executor) (s : Session) (next : Caller) :
    Nat → Answers → Channel → Answers × Channel
  | 0, answers, c => (answers, c)
  | n + 1, answers, c =>
    match next answers.seen with
    | none => (answers, c)
    | some r => serve e s next n (answers ++ [(r.run e s c).1]) (r.run e s c).2

/-- Whether a caller got the same from one table and from another: the answers are alike,
what was sent differs in the name of the table, and nothing was sent to any table but the
other one. -/
structure ServedAlike (d : Dialect) (A T : String) (x y : Answers × Channel) : Prop where
  answers : List.Forall₂ (Mirrored A T Eq) x.1 y.1
  sent : List.Forall₂ (Sent.Moved d A T) x.2.sent y.2.sent
  outcomes : y.2.outcomes = x.2.outcomes
  names : ∀ z ∈ y.2.sent, z.statement.NamesOnly T

namespace Executor

open Run Handle

variable {M : Model} {A T : String}

/-- The query for an identifier is over a column without a table of its own. -/
theorem unqualified_byId (e : Executor) (id : Value) : (e.byId id).Unqualified := by
  refine Query.unqualified_combine fun q hq => ?_
  rw [List.mem_singleton.mp hq, Column.compare]
  split
  · exact Query.unqualified_absent
  · exact Query.unqualified_condition rfl

section

variable (hA : A ≠ "") (hT : T ≠ "") (s : Session)

theorem mirrors_first? {q : Query} (hq : q.Unqualified) {p : Pagination}
    (hp : ∀ o ∈ p.orders, o.column.table = none) :
    Mirrors s.dialect A T Eq (first? ⟨M, A, hA⟩ s q p) (first? ⟨M, T, hT⟩ s q p) := by
  unfold first?
  exact (mirrors_find hA hT s hq hp).bind_eq fun _ => mirrors_pure rfl

theorem mirrors_findById (id : Value) :
    Mirrors s.dialect A T Eq (findById ⟨M, A, hA⟩ s id) (findById ⟨M, T, hT⟩ s id) := by
  unfold findById
  split
  · exact mirrors_pure rfl
  · exact mirrors_first? hA hT s (unqualified_byId ⟨M, A, hA⟩ id) (by simp [Pagination.empty])

/-- **A request is answered alike on another table, and sends the same there.** -/
theorem mirrors_run {r : Request} (hr : r.Unqualified) :
    Mirrors s.dialect A T Eq (r.run ⟨M, A, hA⟩ s) (r.run ⟨M, T, hT⟩ s) := by
  have hid := unqualified_byId ⟨M, A, hA⟩
  cases r with
  | find q p => exact (mirrors_find hA hT s hr.1 hr.2).bind_eq fun _ => mirrors_pure rfl
  | findOne q =>
      have hsingle : ∀ o ∈ Pagination.single.orders, o.column.table = none := by
        simp [Pagination.single]
      exact (mirrors_first? hA hT s hr hsingle).bind_eq fun _ => mirrors_pure rfl
  | findById id => exact (mirrors_findById hA hT s id).bind_eq fun _ => mirrors_pure rfl
  | count q => exact (mirrors_count hA hT s hr).bind_eq fun _ => mirrors_pure rfl
  | create i => exact (mirrors_create hA hT s i).bind_eq fun _ => mirrors_pure rfl
  | save i => exact (mirrors_save hA hT s i).bind_eq fun _ => mirrors_pure rfl
  | update i => exact (mirrors_update hA hT s i).bind_eq fun _ => mirrors_pure rfl
  | delete i => exact (mirrors_delete hA hT s i).bind_eq fun _ => mirrors_pure rfl
  | batchCreate items size =>
      exact (mirrors_batchCreate hA hT s items size).bind_eq fun _ => mirrors_pure rfl
  | batchSave items =>
      exact (mirrors_batchSave hA hT s items _).bind_eq fun _ => mirrors_pure rfl
  | updateByQuery q u =>
      exact (mirrors_updateByQuery hA hT s hr u).bind_eq fun _ => mirrors_pure rfl
  | deleteByQuery q =>
      exact (mirrors_deleteByQuery hA hT s hr).bind_eq fun _ => mirrors_pure rfl
  | updateById id u =>
      exact (mirrors_updateByQuery hA hT s (hid id) u).bind_eq fun _ => mirrors_pure rfl
  | deleteById id =>
      exact (mirrors_deleteByQuery hA hT s (hid id)).bind_eq fun _ => mirrors_pure rfl

/-- A caller sees no difference between answers that are alike. -/
theorem seen_eq_of_mirrored {answers answers' : Answers}
    (h : List.Forall₂ (Mirrored A T Eq) answers answers') : answers'.seen = answers.seen := by
  induction h with
  | nil => rfl
  | cons h _ ih =>
      rw [Answers.seen, Answers.seen, List.map_cons, List.map_cons]
      refine congrArg₂ List.cons ?_ ih
      cases h with
      | ok hab => rw [hab]
      | error he => cases he <;> rfl

/-- **A caller that gets alike answers goes on alike**, and so does the executor. -/
theorem serve_mirrors {next : Caller} (hnext : ∀ answers r, next answers = some r → r.Unqualified)
    (n : Nat) {answers answers' : Answers}
    (hanswers : List.Forall₂ (Mirrored A T Eq) answers answers') {c c' : Channel}
    (hc : Channel.Moved s.dialect A T c c') :
    List.Forall₂ (Mirrored A T Eq) (serve ⟨M, A, hA⟩ s next n answers c).1
        (serve ⟨M, T, hT⟩ s next n answers' c').1 ∧
      Channel.Moved s.dialect A T (serve ⟨M, A, hA⟩ s next n answers c).2
        (serve ⟨M, T, hT⟩ s next n answers' c').2 := by
  induction n generalizing answers answers' c c' with
  | zero => exact ⟨hanswers, hc⟩
  | succ n ih =>
      rw [serve, serve, seen_eq_of_mirrored hanswers]
      cases hr : next answers.seen with
      | none => exact ⟨hanswers, hc⟩
      | some r =>
          obtain ⟨hanswer, hchannel⟩ := mirrors_run (M := M) hA hT s (hnext _ r hr) c c' hc
          exact ih (List.rel_append hanswers (.cons hanswer .nil)) hchannel

end

/-- **A sharded executor is the plain one on another table.**  For a model and any name there
is an executor on that table.  Whatever a caller asks of it is answered as on the table of
the model, the statements differ in the name of the table alone, and none of them names
any table but its own. -/
theorem sharded_serves_alike (hM : M.tableName ≠ "") (hT : T ≠ "") (s : Session) {next : Caller}
    (hnext : ∀ answers r, next answers = some r → r.Unqualified) (n : Nat)
    (outcomes : List Outcome) :
    ∃ plain sharded, create (some M) none = .ok plain ∧ create (some M) (some T) = .ok sharded ∧
      ServedAlike s.dialect M.tableName T (plain.serve s next n [] ⟨outcomes, [], []⟩)
        (sharded.serve s next n [] ⟨outcomes, [], []⟩) := by
  have hplain : create (some M) none = .ok ⟨M, M.tableName, hM⟩ := dif_neg hM
  have hsharded : create (some M) (some T) = .ok ⟨M, T, hT⟩ := dif_neg hT
  have hstart : Channel.Moved s.dialect M.tableName T ⟨outcomes, [], []⟩ ⟨outcomes, [], []⟩ :=
    ⟨rfl, .nil⟩
  obtain ⟨hanswers, hchannel⟩ := serve_mirrors (M := M) hM hT s hnext n .nil hstart
  refine ⟨_, _, hplain, hsharded, hanswers, hchannel.sent, hchannel.outcomes, fun z hz => ?_⟩
  obtain ⟨y, -, hy⟩ := exists_of_forall₂ hchannel.sent.flip hz
  rw [hy.moved]
  exact hy.own.moved

/-- A user is created and deleted again, in the table of the model and in a shard whose name
has to be quoted. -/
theorem sharded_serves_alike_users :
    let s : Session := ⟨.sqlite, true⟩
    let email : Column := ⟨.field, "email", none, by decide⟩
    let requests : List Request :=
      [.create (some (.entity ⟨Catalog.user, .ofList [("email", .text "a")]⟩)),
        .deleteByQuery (.condition ⟨email, .eq, [.text "a"]⟩)]
    let next : Caller := fun answers => requests[answers.length]?
    let reply : Reply := ⟨some ⟨["id", "status"], [[.int 1, .text "x"]]⟩, 1, .null⟩
    let texts (x : Answers × Channel) : List String := x.2.sent.map (fun y => y.prepared.sql)
    ∃ plain sharded, create (some Catalog.user) none = .ok plain ∧
      create (some Catalog.user) (some "Users 7") = .ok sharded ∧
      ServedAlike .sqlite "users" "Users 7" (plain.serve s next 2 [] ⟨[.reply reply], [], []⟩)
        (sharded.serve s next 2 [] ⟨[.reply reply], [], []⟩) ∧
      texts (plain.serve s next 2 [] ⟨[.reply reply], [], []⟩) =
        ["INSERT INTO users (email, name, age, deleted) VALUES (?, ?, ?, ?) RETURNING id, status",
          "DELETE FROM users WHERE users.email = ?"] ∧
      texts (sharded.serve s next 2 [] ⟨[.reply reply], [], []⟩) =
        ["INSERT INTO \"Users 7\" (email, name, age, deleted) VALUES (?, ?, ?, ?) " ++
            "RETURNING id, status",
          "DELETE FROM \"Users 7\" WHERE \"Users 7\".email = ?"] := by
  intro s email requests next reply texts
  have hnext : ∀ answers r, next answers = some r → r.Unqualified := by
    intro answers r hr
    have hmem : r ∈ requests := List.mem_of_getElem? hr
    simp only [requests, List.mem_cons, List.not_mem_nil, or_false] at hmem
    rcases hmem with rfl | rfl
    · trivial
    · exact Query.unqualified_condition rfl
  obtain ⟨plain, sharded, hplain, hsharded, halike⟩ :=
    sharded_serves_alike (M := Catalog.user) (T := "Users 7") (by decide) (by decide) s hnext 2
      [.reply reply]
  refine ⟨plain, sharded, hplain, hsharded, halike, ?_⟩
  cases hplain
  cases hsharded
  exact ⟨by decide +kernel, by decide +kernel⟩

end Executor

end TableQuery
