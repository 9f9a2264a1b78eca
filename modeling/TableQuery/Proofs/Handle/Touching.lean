/-
What a partial update touches.

An update by query with something pending asks the driver one thing, and what it asks has three
independent parts.  Which columns are assigned, and what, is what the calls on the updater
left pending, a question of names (`Updater.get?_ofCalls`); the table decides in which order they
stand, which further columns it gives a value whenever a row is updated, and that an unknown one is
refused.  Whether there is a statement at all, and that each value arrives at its own column's
place with those of the query behind, is a question of the statement alone
(`Sql.Update.isHanded_of_prepare`), and of places that are written apart.  And what becomes of the
statement is the same for all questions: `Run.HandsOver`.

A handle that has only a name declares the columns that are pending, so to it none is unknown.
-/
import TableQuery.Proofs.Handle.Plans
import TableQuery.Proofs.Handle.Reading
import TableQuery.Proofs.Pending
import TableQuery.Proofs.Sql.Updating

namespace TableQuery

open Sql

/-! ### One statement -/

/-- What is made of the outcome of a statement that reaches the driver. -/
def answer {α : Type} (read : Reply → Except Error α) : List Outcome → Except Error α
  | .failure kind message :: _ => .error (.driver kind message)
  | outcomes => read (nextReply outcomes)

/-- Whether a computation hands over one statement and nothing else, and reads the reply to it.
One that cannot be prepared is not sent, and neither is any when the caller is cancelled. -/
structure Run.HandsOver {α : Type} (run : Run α) (s : Session) (x : Statement)
    (read : Reply → Except Error α) : Prop where
  sent : ∀ p, x.prepare s.dialect = .ok p → ∀ c, c.outcomes.head? ≠ some .cancel →
    (run c).2.sent = c.sent ++ [⟨x, p⟩] ∧ (run c).1 = answer read c.outcomes
  refused : ∀ e, x.prepare s.dialect = .error e → ∀ c, c.outcomes.head? ≠ some .cancel →
    (run c).2.sent = c.sent ∧ (run c).1 = .error e
  cancelled : ∀ c, c.outcomes.head? = some .cancel →
    (run c).2.sent = c.sent ∧ (run c).1 = .error .cancelled

theorem Session.execute_of_not_cancelled {s : Session} {c : Channel}
    (hc : c.outcomes.head? ≠ some .cancel) (x : Statement) :
    s.execute x c = match x.prepare s.dialect with
      | .error e => (.error e, c)
      | .ok p => Run.send x p c := by
  unfold execute
  split
  · rename_i hcancel
    rw [hcancel] at hc
    exact absurd rfl hc
  · rfl

/-- **A question hands over its statement.** -/
theorem Session.handsOver_ask {α : Type} (s : Session) (x : Statement) (reports : List Event)
    (read : Reply → Except Error α) : (s.ask x reports read).HandsOver s x read := by
  have hask : ∀ c : Channel, s.ask x reports read c =
      Run.bind (s.execute x) (fun reply => Run.lift (read reply))
        ⟨c.outcomes, c.sent, c.events ++ reports⟩ := fun _ => rfl
  have hexecute : ∀ c : Channel, c.outcomes.head? ≠ some .cancel →
      s.execute x ⟨c.outcomes, c.sent, c.events ++ reports⟩ = match x.prepare s.dialect with
        | .error e => (.error e, ⟨c.outcomes, c.sent, c.events ++ reports⟩)
        | .ok p => Run.send x p ⟨c.outcomes, c.sent, c.events ++ reports⟩ :=
    fun c hc => execute_of_not_cancelled (c := ⟨c.outcomes, c.sent, c.events ++ reports⟩) hc x
  refine ⟨fun p hp c hc => ?_, fun e he c hc => ?_, fun c hc => ?_⟩
  · rw [hask, Run.bind, hexecute c hc, hp]
    obtain ⟨outcomes, sent, events⟩ := c
    cases outcomes with
    | nil => exact ⟨rfl, rfl⟩
    | cons o rest =>
        cases o with
        | cancel => exact absurd rfl hc
        | reply r => exact ⟨rfl, rfl⟩
        | failure kind message => exact ⟨rfl, rfl⟩
  · rw [hask, Run.bind, hexecute c hc, he]
    exact ⟨rfl, rfl⟩
  · obtain ⟨outcomes, sent, events⟩ := c
    obtain ⟨rest, rfl⟩ : ∃ rest, outcomes = .cancel :: rest := List.head?_eq_some_iff.mp hc
    exact ⟨rfl, rfl⟩

/-! ### The table that is written to -/

namespace Handle

variable {h : Handle} {t t₀ : Table}

/-- The columns of a table that is written to have different names. -/
theorem columnNames_nodup_of_writable {names : List String} (hnames : names.Nodup)
    (ht : h.writable names = .ok t) : t.columnNames.Nodup := by
  unfold writable at ht
  split at ht
  · cases ht
    simpa [Table.columnNames, Table.named, TableColumn.untyped, Function.comp_def] using hnames
  · exact columnNames_nodup ht

/-- With nothing but a name every pending column is known. -/
theorem unknownColumns_of_name {u : Row} {e : Expr} (hmodel : h.model = none)
    (ht : h.writable u.names = .ok t) :
    (Statement.update ⟨t, u, e⟩).unknownColumns = [] := by
  obtain ⟨name, rfl⟩ : ∃ name, t = .named name u.names := by
    unfold writable table at ht
    rw [hmodel] at ht
    dsimp only at ht
    cases hname : h.ownName? with
    | none => simp [hname] at ht
    | some name =>
        rw [hname] at ht
        exact ⟨name, (Except.ok.inj ht).symm⟩
  refine List.filter_eq_nil_iff.mpr fun n hn => ?_
  have hcolumn : (Table.named name u.names).column? n = some (.untyped n) := by
    rw [column?_named, if_pos hn]
  simp [hcolumn]

/-! ### Updates by query -/

variable {q : Query} {u : Updater} {e : Expr}

/-- **An update by query asks for one statement**, when something is pending and something is
left of the query. -/
theorem updateByQuery_eq (ht : h.writable u.pending.names = .ok t) (hu : u.pending.isEmpty = false)
    (hq : (q.toExpr (some t)).result = .ok (some e)) (s : Session) :
    h.updateByQuery s q u =
      s.ask (.update ⟨t, u.pending, e⟩) (q.toExpr (some t)).events
        (fun reply => .ok reply.rowCount) := by
  funext c
  unfold updateByQuery
  rw [Run.lift_bind_of_ok ht, if_neg (by simp [hu])]
  show Run.bind (writeCondition t q "update") _ c = _
  unfold Run.bind
  rw [writeCondition_apply, hq]
  rfl

/-- Whether an update assigns what calls on an updater left pending: once each column that the
last call on its name set, to the value of that call, and beside these only columns that have a
value of their own for updates. -/
structure AssignsPending (calls : List Updater.Call) (x : Update) : Prop where
  once : (x.assigned.map (·.name)).Nodup
  values : ∀ n v, (∃ a ∈ x.assigned, a.name = n ∧ a.value = v) ↔
    Updater.lastSet calls n = some v ∨
      Updater.lastSet calls n = none ∧ x.table.onUpdate? n = some v

/--
**A partial update touches the pending columns.**

When no call left a column pending, nothing is written and nothing is sent.  Calls can be made in
any order that keeps the marks on each name in theirs, and the same is assigned.  With something
pending and something left of the query, one update is handed over.  Pending names that the table
of a model does not have are refused.  Else the update assigns what is pending, and what columns
have for updates that are not.  Where its places are written apart it can be prepared exactly
when it is accepted, and the values then stand in the order of their columns' places, and the
values of the query come behind.
-/
theorem update_touches_pending (ht : h.table = .ok t₀) (s : Session) (q : Query)
    (calls : List Updater.Call) :
    let u := Updater.ofCalls calls
    ((∀ n, Updater.lastSet calls n = none) → (h.updateByQuery s q u).EndsQuietly (.ok 0)) ∧
    (∀ calls', Updater.SameMarks calls calls' →
      (∀ n, Updater.lastSet calls n = Updater.lastSet calls' n) ∧
      ∀ t e, (Update.mk t u.pending e).assigned =
        (Update.mk t (Updater.ofCalls calls').pending e).assigned) ∧
    ∃ t, h.writable u.pending.names = .ok t ∧ t.name = t₀.name ∧
      (h.model.isSome = true → t = t₀) ∧
      ∀ e, (q.toExpr (some t)).result = .ok (some e) →
        (∃ n v, Updater.lastSet calls n = some v) →
        let x : Update := ⟨t, u.pending, e⟩
        let unknown := (Statement.update x).unknownColumns
        (h.updateByQuery s q u).HandsOver s (.update x) (fun reply => .ok reply.rowCount) ∧
        (∀ n, n ∈ unknown ↔ (Updater.lastSet calls n).isSome = true ∧ t.column? n = none) ∧
        (h.model = none → unknown = []) ∧
        (unknown ≠ [] → (Statement.update x).prepare s.dialect = .error (.unknownColumns unknown)) ∧
        (unknown = [] → AssignsPending calls x ∧ (x.PlacesApart s.dialect →
          ((∃ p, (Statement.update x).prepare s.dialect = .ok p) ↔ x.IsAccepted s.dialect))) ∧
        ∀ p, (Statement.update x).prepare s.dialect = .ok p → x.IsHanded s.dialect p := by
  intro u
  obtain ⟨t, hwritable, hname⟩ := writable_of_table ht u.pending.names
  refine ⟨fun hnone => ?_, fun calls' hsame => ?_, t, hwritable, hname, fun hmodel => ?_,
    fun e hq hsome => ?_⟩
  · exact updateByQuery_of_isEmpty ht (Updater.isEmpty_iff.mpr hnone) s
  · have hget := Updater.get?_ofCalls_of_sameMarks hsame
    refine ⟨fun n => ?_, fun t e => Update.assigned_congr rfl hget⟩
    rw [← Updater.get?_ofCalls, ← Updater.get?_ofCalls, hget]
  · obtain ⟨M, hM⟩ := Option.isSome_iff_exists.mp hmodel
    rw [writable_of_model hM, ht] at hwritable
    exact (Except.ok.inj hwritable).symm
  · intro x unknown
    have hpending : u.pending.isEmpty = false := by
      obtain ⟨n, v, hn⟩ := hsome
      rw [← Bool.not_eq_true]
      intro hempty
      rw [Updater.isEmpty_iff.mp hempty n] at hn
      cases hn
    have hnodup : t.columnNames.Nodup :=
      columnNames_nodup_of_writable u.pending.names_nodup hwritable
    refine ⟨?_, fun n => ?_, fun hmodel => unknownColumns_of_name hmodel hwritable,
      Update.prepare_of_unknown, fun hknown => ⟨⟨?_, fun n v => ?_⟩, fun hplaces =>
        ⟨fun ⟨p, hp⟩ => (Update.isHanded_of_prepare hp).2 hplaces,
          Update.prepare_of_isAccepted hplaces⟩⟩,
      fun p hp => (Update.isHanded_of_prepare hp).1⟩
    · rw [updateByQuery_eq hwritable hpending hq]
      exact s.handsOver_ask _ _ _
    · show n ∈ u.pending.names.filter (fun n => (t.column? n).isNone) ↔ _
      rw [List.mem_filter, Updater.mem_names_iff, Option.isNone_iff_eq_none]
    · exact Update.nodup_assigned hnodup
    · rw [Update.assigns_iff hnodup hknown, ← Updater.get?_ofCalls]

/-- A value that is set to null, one that is removed again by a column of another table, and a
condition on a further table; the first two calls can change places. -/
theorem update_touches_pending_joined :
    let s : Session := ⟨.mysql, true⟩
    let h : Handle := ⟨some Catalog.user, none⟩
    let field (n : String) (hn : n ≠ "") (t : Option String) : Column := ⟨.field, n, t, hn⟩
    let setStatus : Updater.Call := .add (field "status" (by decide) none) (.text "x")
    let setBoth : Updater.Call := .addAll [(field "name" (by decide) none, .null),
      (field "age" (by decide) none, .int 3)]
    let dropAge : Updater.Call := .remove (field "age" (by decide) (some "other"))
    let q : Query := .condition ⟨field "email" (by decide) (some "accounts"), .eq, [.text "a"]⟩
    let calls := [setStatus, setBoth, dropAge]
    let swapped := [setBoth, setStatus, dropAge]
    let x : Update := ⟨(Catalog.user.mapping.get rfl).table, (Updater.ofCalls calls).pending,
      .compare .eq ⟨"email", some "accounts", .unknown⟩ (.text "a")⟩
    let text := "UPDATE users, accounts SET users.name=?, users.status=? WHERE accounts.email = ?"
    Updater.SameMarks calls swapped ∧
      (∀ n, Updater.lastSet calls n = Updater.lastSet swapped n) ∧
      AssignsPending calls x ∧ ∃ p, x.IsHanded .mysql p ∧
        (h.updateByQuery s q (Updater.ofCalls calls) ⟨[], [], []⟩).2.sent = [⟨.update x, p⟩] ∧
        p.sql = text ∧ p.rows.map (List.map Value.render) = [["None", "'x'", "'a'"]] := by
  intro s h field setStatus setBoth dropAge q calls swapped x text
  have hsame : Updater.SameMarks calls swapped := by
    refine Updater.sameMarks_swap (a := setStatus) (b := setBoth) ?_ [] [dropAge]
    unfold Updater.Call.Apart
    decide
  have hknown : (Statement.update x).unknownColumns = [] := by decide +kernel
  have hpending : Updater.lastSet calls "name" = some .null := rfl
  obtain ⟨-, hswap, t, -, -, hmodel, hall⟩ := update_touches_pending (h := h) rfl s q calls
  obtain rfl : t = x.table := hmodel rfl
  obtain ⟨hhands, -, -, -, hassigns, hhanded⟩ := hall x.condition rfl ⟨"name", .null, hpending⟩
  have hshown : ((Statement.update x).prepare .mysql).toOption.map
      (fun p => (p.sql, p.rows.map (List.map Value.render))) =
        some (text, [["None", "'x'", "'a'"]]) := by decide +kernel
  cases hp : (Statement.update x).prepare .mysql with
  | error err => simp [hp, Except.toOption] at hshown
  | ok p =>
      rw [hp] at hshown
      obtain ⟨hsql, hrows⟩ := Prod.mk.inj (Option.some.inj hshown)
      exact ⟨hsame, (hswap _ hsame).1, (hassigns hknown).1, p, hhanded p hp,
        (hhands.sent p hp ⟨[], [], []⟩ (by simp)).1, hsql, hrows⟩

/-- Updates that are refused although every pending name is a column: one whose column has the
name that a place of the query gets, one of a Boolean column to a number, one whose query
cannot be bound, and one that names a second table in a dialect without words for it.  And two
that assign more than is pending: columns with a value for updates, and a column that is handed
the value of another one. -/
theorem update_touches_pending_refused :
    let users : Handle := ⟨some Catalog.user, none⟩
    let logs : Handle := ⟨none, some "logs"⟩
    let age : Column := ⟨.field, "age", none, by decide⟩
    let deleted : Column := ⟨.field, "deleted", none, by decide⟩
    let status : Column := ⟨.field, "status", none, by decide⟩
    let older : Query := .condition ⟨age, .gt, [.int 3]⟩
    let third : Query := .condition ⟨⟨.field, "id", none, by decide⟩, .eq, [.int 3]⟩
    let sent (h : Handle) (calls : List Updater.Call) :=
      (h.updateByQuery ⟨.sqlite, true⟩ third (Updater.ofCalls calls) ⟨[], [], []⟩).2.sent.map
        (fun y => (y.prepared.sql, y.prepared.rows.map (List.map Value.render)))
    let updating (d : Dialect) (h : Handle) (q : Query) (c : Column) (v : Value) :=
      let ran := h.updateByQuery ⟨d, true⟩ q (Updater.ofCalls [.add c v]) ⟨[], [], []⟩
      (match ran.1 with
        | .ok _ => ""
        | .error e => e.message, ran.2.sent.map (·.prepared.sql))
    updating .sqlite logs older ⟨.field, "age_1", none, by decide⟩ (.int 5) =
        ("Bind parameter 'age_1' conflicts with unique bind parameter of the same name", []) ∧
      updating .sqlite users older deleted (.int 5) =
        ("(builtins.ValueError) Value 5 is not None, True, or False", []) ∧
      updating .sqlite users (.condition ⟨deleted, .isIn, [.bool true, .int 5]⟩) status (.text "x") =
        ("(builtins.ValueError) Value 5 is not None, True, or False", []) ∧
      updating (.generic false) users
          (.condition ⟨⟨.field, "email", some "accounts", by decide⟩, .eq, [.text "a"]⟩) status
          (.text "x") =
        ("This backend does not support multiple-table criteria within UPDATE", []) ∧
      sent ⟨some Catalog.draft, none⟩ [.add ⟨.field, "title", none, by decide⟩ (.text "a")] =
        [("UPDATE drafts SET revision=?, title=?, edited=? WHERE drafts.id = ?",
          [["2", "'a'", "1", "3"]])] ∧
      sent logs [.add ⟨.field, "a.b", none, by decide⟩ (.int 1),
          .add ⟨.field, "a_b", none, by decide⟩ (.int 2)] =
        [("UPDATE logs SET \"a.b\"=?, a_b=? WHERE id = ?", [["1", "1", "3"]])] := by
  intro users logs age deleted status older third sent updating
  exact ⟨by decide +kernel, by decide +kernel, by decide +kernel, by decide +kernel,
    by decide +kernel, by decide +kernel⟩

end Handle

end TableQuery
