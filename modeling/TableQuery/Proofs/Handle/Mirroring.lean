/-
The same operation on another table.

A handle of a model under another table name does what the handle under the first one
does, on the other table.  `Run.Mirrors` says so of two computations: on channels with the same
outcomes to come, where what was sent before is moved to the other table, the results are
alike and what is sent next is moved as well.  The rules follow the computations; a statement
keeps the relation because it is prepared alike (`Statement.prepare_moved`).  There is one
lemma for each operation, by the steps of its definition.  Each has to know only that a
statement it builds for the other table is the moved one, since every other part of the two
computations is the same.
-/
import TableQuery.Proofs.Handle.Identity
import TableQuery.Proofs.Handle.Inserting
import TableQuery.Proofs.Query.Moving

namespace TableQuery

/-! ### What is alike -/

/-- Whether errors are the same, or the same but for the table that they are about. -/
inductive Error.Alike (A T : String) : Error → Error → Prop
  | same (e : Error) : Alike A T e e
  | everyRow (action : String) : Alike A T (.everyRow action A) (.everyRow action T)
  | noIdentity : Alike A T (.noIdentity A) (.noIdentity T)

/-- Whether results are related, or failures alike. -/
inductive Mirrored {α β : Type} (A T : String) (R : α → β → Prop) :
    Except Error α → Except Error β → Prop
  | error {e e' : Error} (h : Error.Alike A T e e') : Mirrored A T R (.error e) (.error e')
  | ok {a : α} {b : β} (h : R a b) : Mirrored A T R (.ok a) (.ok b)

/-- Whether one statement reached the driver on one table and the same on another: each as it
is prepared, both with the same values, and the texts differing in the name of the table. -/
structure Sent.Moved (d : Dialect) (A T : String) (y y' : Sent) : Prop where
  own : y.statement.NamesOnly A
  moved : y'.statement = y.statement.moved A T
  prepared : y.statement.prepare d = .ok y.prepared
  preparedMoved : y'.statement.prepare d = .ok y'.prepared
  written : Sql.Prepared.Moved d A T y.prepared y'.prepared

/-- Whether channels have the same outcomes to come, and the same has been sent on another
table. -/
structure Channel.Moved (d : Dialect) (A T : String) (c c' : Channel) : Prop where
  outcomes : c'.outcomes = c.outcomes
  sent : List.Forall₂ (Sent.Moved d A T) c.sent c'.sent

namespace Mirrored

variable {α β : Type} {A T : String} {R : α → β → Prop}

theorem refl (r : Except Error α) : Mirrored A T Eq r r := by
  cases r with
  | error e => exact .error (.same e)
  | ok a => exact .ok rfl

theorem of_together {x : Except Error α} {y : Except Error β} (h : Together R x y) :
    Mirrored A T R x y := by
  cases h with
  | error e => exact .error (.same e)
  | ok h => exact .ok h

end Mirrored

/-! ### Computations -/

namespace Run

variable {α β γ δ : Type} {d : Dialect} {A T : String} {R : α → β → Prop}

/-- Whether two computations keep what is alike alike. -/
def Mirrors (d : Dialect) (A T : String) (R : α → β → Prop) (x : Run α) (y : Run β) : Prop :=
  ∀ c c', Channel.Moved d A T c c' →
    Mirrored A T R (x c).1 (y c').1 ∧ Channel.Moved d A T (x c).2 (y c').2

theorem mirrors_lift {r : Except Error α} {r' : Except Error β} (h : Mirrored A T R r r') :
    Mirrors d A T R (lift r) (lift r') :=
  fun _ _ hc => ⟨h, hc⟩

theorem mirrors_pure {a : α} {b : β} (h : R a b) :
    Mirrors d A T R (Pure.pure a) (Pure.pure b) :=
  mirrors_lift (.ok h)

theorem mirrors_fail {e e' : Error} (h : e.Alike A T e') : Mirrors d A T R (fail e) (fail e') :=
  mirrors_lift (.error h)

theorem mirrors_log (e e' : Event) : Mirrors d A T Eq (log e) (log e') :=
  fun _ _ hc => ⟨.ok rfl, hc.outcomes, hc.sent⟩

theorem mirrors_ofLogged {x : Logged α} {y : Logged β} (h : Mirrored A T R x.result y.result) :
    Mirrors d A T R (ofLogged x) (ofLogged y) :=
  fun _ _ hc => ⟨h, hc.outcomes, hc.sent⟩

/-- One computation after another mirrors another two, part by part. -/
theorem Mirrors.bind {S : γ → δ → Prop} {x : Run γ} {y : Run δ} {f : γ → Run α} {g : δ → Run β}
    (hx : Mirrors d A T S x y) (hf : ∀ a b, S a b → Mirrors d A T R (f a) (g b)) :
    Mirrors d A T R (x >>= f) (y >>= g) := by
  intro c c' hc
  obtain ⟨hresult, hchannel⟩ := hx c c' hc
  show Mirrored A T R (Run.bind x f c).1 (Run.bind y g c').1 ∧
    Channel.Moved d A T (Run.bind x f c).2 (Run.bind y g c').2
  unfold Run.bind
  rcases hxc : x c with ⟨r, c₁⟩
  rcases hyc : y c' with ⟨r', c₁'⟩
  rw [hxc, hyc] at hresult hchannel
  cases hresult with
  | error h => exact ⟨.error h, hchannel⟩
  | ok h => exact hf _ _ h c₁ c₁' hchannel

theorem Mirrors.bind_eq {x y : Run γ} {f : γ → Run α} {g : γ → Run β}
    (hx : Mirrors d A T Eq x y) (hf : ∀ a, Mirrors d A T R (f a) (g a)) :
    Mirrors d A T R (x >>= f) (y >>= g) := by
  refine hx.bind fun a b hab => ?_
  rw [← hab]
  exact hf a

/-- A result that is looked up in the same way is known to be the same. -/
theorem mirrors_lift_bind (r : Except Error γ) {f : γ → Run α} {g : γ → Run β}
    (hf : ∀ a, Mirrors d A T R (f a) (g a)) : Mirrors d A T R (lift r >>= f) (lift r >>= g) :=
  (mirrors_lift (.refl r)).bind_eq hf

theorem mirrors_log_bind (e e' : Event) {f : Unit → Run α} {g : Unit → Run β}
    (hf : Mirrors d A T R (f ()) (g ())) : Mirrors d A T R (log e >>= f) (log e' >>= g) :=
  (mirrors_log e e').bind_eq fun _ => hf

theorem mirrors_send {x : Sql.Statement} {p p' : Sql.Prepared} (hx : x.NamesOnly A)
    (hp : x.prepare d = .ok p) (hp' : (x.moved A T).prepare d = .ok p')
    (h : Sql.Prepared.Moved d A T p p') :
    Mirrors d A T Eq (send x p) (send (x.moved A T) p') := by
  intro c c' hc
  have hsent : List.Forall₂ (Sent.Moved d A T) (c.sent ++ [⟨x, p⟩])
      (c'.sent ++ [⟨x.moved A T, p'⟩]) :=
    List.rel_append hc.sent (.cons ⟨hx, rfl, hp, hp', h⟩ .nil)
  unfold send
  rw [hc.outcomes]
  rcases c.outcomes with _ | ⟨reply | failure | cancel, rest⟩
  · exact ⟨.ok rfl, rfl, hsent⟩
  · exact ⟨.ok rfl, rfl, hsent⟩
  · exact ⟨.error (.same _), rfl, hsent⟩
  · exact ⟨.error (.same _), rfl, hsent⟩

end Run

namespace Session

variable {α β : Type} {A T : String} {R : α → β → Prop}

/-- **A statement and the same on another table have the same outcome.** -/
theorem mirrors_execute (hA : A ≠ "") (hT : T ≠ "") (s : Session) {x : Sql.Statement}
    (hx : x.NamesOnly A) :
    Run.Mirrors s.dialect A T Eq (s.execute x) (s.execute (x.moved A T)) := by
  intro c c' hc
  unfold execute
  rw [hc.outcomes]
  rcases (Sql.Statement.prepare_moved (d := s.dialect) hA hT hx).cases with
    ⟨e, hp, hp'⟩ | ⟨p, p', hp, hp', hmoved⟩
  · rw [hp, hp']
    rcases c.outcomes with _ | ⟨reply | failure | cancel, rest⟩
    · exact ⟨.error (.same e), hc⟩
    · exact ⟨.error (.same e), hc⟩
    · exact ⟨.error (.same e), hc⟩
    · exact ⟨.error (.same _), rfl, hc.sent⟩
  · rw [hp, hp']
    have hsend := Run.mirrors_send hx hp hp' hmoved c c' hc
    rcases c.outcomes with _ | ⟨reply | failure | cancel, rest⟩
    · exact hsend
    · exact hsend
    · exact hsend
    · exact ⟨.error (.same _), rfl, hc.sent⟩

theorem mirrors_execute_bind (hA : A ≠ "") (hT : T ≠ "") (s : Session) {x : Sql.Statement}
    (hx : x.NamesOnly A) {f : Reply → Run α} {g : Reply → Run β}
    (hf : ∀ reply, Run.Mirrors s.dialect A T R (f reply) (g reply)) :
    Run.Mirrors s.dialect A T R (s.execute x >>= f) (s.execute (x.moved A T) >>= g) :=
  (mirrors_execute hA hT s hx).bind_eq hf

end Session

/-! ### Operations -/

namespace Handle

open Run Session

variable {α β : Type} {M : Model} {A T : String} {R : α → β → Prop} {d : Dialect}

/-- The handle of a model under the name of a table. -/
def named (M : Model) (A : String) : Handle := ⟨some M, some A⟩

theorem ownName?_named (hA : A ≠ "") : (named M A).ownName? = some A := by
  simp [named, ownName?, hA]

theorem table_named (hA : A ≠ "") : (named M A).table = match M.mapping with
    | some m => .ok (m.table.rename A)
    | none => .error .notMapped := by
  unfold table
  rw [ownName?_named hA]
  cases h : M.mapping with
  | none => simp [named, h]
  | some m => simp [named, h]

theorem mirrors_table_bind (hA : A ≠ "") (hT : T ≠ "") {f : Table → Run α} {g : Table → Run β}
    (hf : ∀ t, t.name = A → Mirrors d A T R (f t) (g (t.rename T))) :
    Mirrors d A T R (lift (named M A).table >>= f) (lift (named M T).table >>= g) := by
  rw [table_named hA, table_named hT]
  cases M.mapping with
  | none => exact mirrors_lift (.error (.same _))
  | some m => exact hf (m.table.rename A) rfl

/-! #### Parts of operations -/

theorem mirrors_condition_bind {t : Table} (ht : t.name = A) {q : Query} (hq : q.Unqualified)
    {f : Option Sql.Expr → Run α} {g : Option Sql.Expr → Run β}
    (hf : ∀ condition : Option Sql.Expr, (∀ e ∈ condition, e.NamesOnly A) →
      Mirrors d A T R (f condition) (g (condition.map (Sql.Expr.moved A T)))) :
    Mirrors d A T R (ofLogged (q.toExpr (some t)) >>= f)
      (ofLogged (q.toExpr (some (t.rename T))) >>= g) := by
  have hresult : Mirrored A T (fun condition condition' =>
      (∀ e ∈ condition, e.NamesOnly A) ∧ condition' = condition.map (Sql.Expr.moved A T))
      (q.toExpr (some t)).result (q.toExpr (some (t.rename T))).result := by
    rw [Query.toExpr_rename hq, ht]
    cases hresult : (q.toExpr (some t)).result with
    | error e => exact .error (.same e)
    | ok condition =>
        refine .ok ⟨?_, rfl⟩
        rintro e rfl
        rw [← ht]
        exact Query.namesOnly_of_toExpr hq hresult
  refine (mirrors_ofLogged hresult).bind ?_
  rintro condition _ ⟨hnames, rfl⟩
  exact hf condition hnames

theorem mirrors_writeCondition_bind {t : Table} (ht : t.name = A) {q : Query} (hq : q.Unqualified)
    (action : String) {f : Sql.Expr → Run α} {g : Sql.Expr → Run β}
    (hf : ∀ e : Sql.Expr, e.NamesOnly A → Mirrors d A T R (f e) (g (e.moved A T))) :
    Mirrors d A T R (writeCondition t q action >>= f)
      (writeCondition (t.rename T) q action >>= g) := by
  have hcondition : Mirrors d A T (fun e e' => e.NamesOnly A ∧ e' = e.moved A T)
      (writeCondition t q action) (writeCondition (t.rename T) q action) := by
    unfold writeCondition
    refine mirrors_condition_bind ht hq fun condition hnames => ?_
    cases condition with
    | none =>
        rw [ht]
        exact mirrors_fail (.everyRow action)
    | some e => exact mirrors_pure ⟨hnames e rfl, rfl⟩
  refine hcondition.bind ?_
  rintro e _ ⟨hnames, rfl⟩
  exact hf e hnames

theorem paginate_moved {t : Table} (ht : t.name = A) {x : Sql.Select}
    (hx : (Sql.Statement.select x).NamesOnly A) {p : Pagination}
    (hp : ∀ o ∈ p.orders, o.column.table = none) :
    Together (fun y y' => (Sql.Statement.select y).NamesOnly A ∧ y' = y.moved A T)
      (paginate t x p) (paginate (t.rename T) (x.moved A T) p) := by
  have horders : p.orders.map (fun o => (o.column.orderKey (some (t.rename T)), o.descending)) =
      (p.orders.map (fun o => (o.column.orderKey (some t), o.descending))).map
        (fun o => (o.1.moved A T, o.2)) := by
    rw [List.map_map]
    refine List.map_congr_left fun o ho => ?_
    rw [Column.orderKey_rename (hp o ho), ht]
    rfl
  unfold paginate
  cases bound p.limit with
  | error e => exact .error e
  | ok limit =>
      cases bound p.offset with
      | error e => exact .error e
      | ok offset =>
          refine .ok ⟨⟨hx.1, hx.2.1, fun o ho => ?_⟩, ?_⟩
          · obtain ⟨order, horder, rfl⟩ := List.mem_map.mp ho
            rw [← ht]
            exact Column.namesOnly_orderKey (hp order horder)
          · rw [horders]
            rfl

theorem insertion_rename (t : Table) (rows : List Row) (returned : Sql.Returned) (lenient : Bool) :
    insertion (t.rename T) rows returned lenient = (insertion t rows returned lenient).moved T := by
  have huniform : Batch.uniform (t.rename T) rows = Batch.uniform t rows := rfl
  unfold insertion
  rw [huniform]
  cases Batch.uniform t rows <;> rfl

theorem upsertion_rename (t : Table) (first : Row) (rest : List Row) :
    upsertion (t.rename T) first rest = (upsertion t first rest).map (Sql.Insert.moved T) := by
  have hothers : otherColumns (t.rename T) first = otherColumns t first := rfl
  have hcolumn : ∀ n, (t.rename T).column? n = t.column? n := fun _ => rfl
  unfold upsertion
  rw [hothers]
  simp only [hcolumn]
  cases otherColumns t first with
  | nil => rfl
  | cons n ns =>
      dsimp only
      split <;> rfl

theorem table_of_upsertion {t : Table} {first : Row} {rest : List Row} {x : Sql.Insert}
    (h : upsertion t first rest = .ok x) : x.table = t := by
  unfold upsertion at h
  split at h
  · rw [← Except.ok.inj h]
  · split at h
    · cases h
    · rw [← Except.ok.inj h]

section

variable (hA : A ≠ "") (hT : T ≠ "") (s : Session)

include hA hT

/-! #### Reading -/

theorem mirrors_find {q : Query} (hq : q.Unqualified) {p : Pagination}
    (hp : ∀ o ∈ p.orders, o.column.table = none) :
    Mirrors s.dialect A T Eq ((named M A).find s q p) ((named M T).find s q p) := by
  unfold find
  refine mirrors_table_bind hA hT fun t ht => ?_
  refine mirrors_condition_bind ht hq fun condition hcondition => ?_
  have hselection : (Sql.Statement.select ((named M A).selection t condition)).NamesOnly A :=
    ⟨ht, hcondition, by simp [selection]⟩
  refine (mirrors_lift (.of_together (paginate_moved ht hselection hp))).bind ?_
  rintro select _ ⟨hselect, rfl⟩
  refine mirrors_execute_bind hA hT s hselect fun reply => ?_
  exact mirrors_lift (.refl _)

theorem mirrors_count {q : Query} (hq : q.Unqualified) :
    Mirrors s.dialect A T Eq ((named M A).count s q) ((named M T).count s q) := by
  unfold count
  refine mirrors_table_bind hA hT fun t ht => ?_
  refine mirrors_condition_bind ht hq fun condition hcondition => ?_
  have hselect : (Sql.Statement.select ⟨t, .count, condition, [], none, none⟩).NamesOnly A :=
    ⟨ht, hcondition, by simp⟩
  refine mirrors_execute_bind hA hT s hselect fun reply => ?_
  exact mirrors_lift_bind reply.scalar fun value => mirrors_lift (.refl _)

/-! #### Writing one record -/

theorem mirrors_insertion_bind {t : Table} (ht : t.name = A) (rows : List Row)
    (returned : Sql.Returned) (lenient : Bool) {f g : Reply → Run α}
    (hf : ∀ reply, Mirrors s.dialect A T Eq (f reply) (g reply)) :
    Mirrors s.dialect A T Eq (s.execute (.insert (insertion t rows returned lenient)) >>= f)
      (s.execute (.insert (insertion (t.rename T) rows returned lenient)) >>= g) := by
  have hinsert : (Sql.Statement.insert (insertion t rows returned lenient)).NamesOnly A := by
    show (insertion t rows returned lenient).table.name = A
    rw [table_insertion, ht]
  rw [insertion_rename]
  exact mirrors_execute_bind hA hT s hinsert hf

theorem mirrors_create (i : Item) :
    Mirrors s.dialect A T Eq ((named M A).create s i) ((named M T).create s i) := by
  unfold create
  refine mirrors_lift_bind i.toRow fun row => ?_
  refine mirrors_table_bind hA hT fun t ht => ?_
  refine mirrors_insertion_bind hA hT s ht _ _ _ fun reply => ?_
  rw [insertion_rename]
  exact mirrors_lift_bind _ fun returned => mirrors_pure rfl

theorem mirrors_overwrite {t : Table} (ht : t.name = A) (key values : Row) :
    Mirrors s.dialect A T Eq (overwrite s t key values) (overwrite s (t.rename T) key values) := by
  subst ht
  unfold overwrite
  rw [identityTest_rename]
  dsimp only
  split
  · have hselect : (Sql.Statement.select
        ⟨t, .count, some (identityTest t key), [], none, none⟩).NamesOnly t.name := by
      refine ⟨rfl, ?_, by simp⟩
      rintro e ⟨⟩
      exact namesOnly_identityTest t key
    refine mirrors_execute_bind hA hT s hselect fun reply => ?_
    exact mirrors_lift_bind reply.scalar fun n => mirrors_pure rfl
  · have hupdate : (Sql.Statement.update ⟨t, values, identityTest t key⟩).NamesOnly t.name :=
      ⟨rfl, namesOnly_identityTest t key⟩
    exact mirrors_execute_bind hA hT s hupdate fun reply => mirrors_pure rfl

theorem mirrors_save (i : Item) :
    Mirrors s.dialect A T Eq ((named M A).save s i) ((named M T).save s i) := by
  unfold save
  refine mirrors_lift_bind _ fun _ => ?_
  refine mirrors_table_bind hA hT fun t ht => ?_
  refine mirrors_lift_bind (identity t i) fun key? => ?_
  cases key? with
  | none => exact mirrors_create hA hT s i
  | some key =>
      refine mirrors_lift_bind i.toRow fun row => ?_
      refine (mirrors_overwrite hA hT s ht key _).bind_eq fun matched => ?_
      cases matched with
      | true => exact mirrors_pure rfl
      | false =>
          refine mirrors_insertion_bind hA hT s ht _ _ _ fun reply => ?_
          rw [insertion_rename]
          exact mirrors_lift_bind _ fun _ => mirrors_pure rfl

theorem mirrors_update (i : Item) :
    Mirrors s.dialect A T Eq ((named M A).update s i) ((named M T).update s i) := by
  unfold update
  refine mirrors_lift_bind _ fun _ => ?_
  refine mirrors_table_bind hA hT fun t ht => ?_
  subst ht
  refine mirrors_lift_bind (identity t i) fun key? => ?_
  cases key? with
  | none => exact mirrors_fail .noIdentity
  | some key =>
      refine mirrors_lift_bind i.toRow fun row => ?_
      dsimp only
      rw [identityTest_rename]
      split
      · exact mirrors_log_bind _ _ (mirrors_pure rfl)
      · have hupdate : ∀ values, (Sql.Statement.update
            ⟨t, values, identityTest t key⟩).NamesOnly t.name :=
          fun _ => ⟨rfl, namesOnly_identityTest t key⟩
        exact mirrors_execute_bind hA hT s (hupdate _) fun reply => mirrors_pure rfl

theorem mirrors_delete (i : Item) :
    Mirrors s.dialect A T Eq ((named M A).delete s i) ((named M T).delete s i) := by
  unfold delete
  refine mirrors_lift_bind _ fun _ => ?_
  refine mirrors_table_bind hA hT fun t ht => ?_
  subst ht
  refine mirrors_lift_bind (identity t i) fun key? => ?_
  cases key? with
  | none => exact mirrors_fail .noIdentity
  | some key =>
      have hdelete : (Sql.Statement.delete ⟨t, identityTest t key⟩).NamesOnly t.name :=
        ⟨rfl, namesOnly_identityTest t key⟩
      dsimp only
      rw [identityTest_rename]
      exact mirrors_execute_bind hA hT s hdelete fun reply => mirrors_pure rfl

/-! #### Writing by query -/

theorem mirrors_updateByQuery {q : Query} (hq : q.Unqualified) (u : Updater) :
    Mirrors s.dialect A T Eq ((named M A).updateByQuery s q u)
      ((named M T).updateByQuery s q u) := by
  unfold updateByQuery
  refine mirrors_table_bind hA hT fun t ht => ?_
  split
  · exact mirrors_log_bind _ _ (mirrors_pure rfl)
  · refine mirrors_writeCondition_bind ht hq _ fun e hnames => ?_
    have hupdate : (Sql.Statement.update ⟨t, u.pending, e⟩).NamesOnly A := ⟨ht, hnames⟩
    exact mirrors_execute_bind hA hT s hupdate fun reply => mirrors_pure rfl

theorem mirrors_deleteByQuery {q : Query} (hq : q.Unqualified) :
    Mirrors s.dialect A T Eq ((named M A).deleteByQuery s q) ((named M T).deleteByQuery s q) := by
  unfold deleteByQuery
  refine mirrors_table_bind hA hT fun t ht => ?_
  refine mirrors_writeCondition_bind ht hq _ fun e hnames => ?_
  have hdelete : (Sql.Statement.delete ⟨t, e⟩).NamesOnly A := ⟨ht, hnames⟩
  exact mirrors_execute_bind hA hT s hdelete fun reply => mirrors_pure rfl

/-! #### Writing many records -/

theorem mirrors_insertChunks {t : Table} (ht : t.name = A) (total start : Nat)
    (chunks : List (List Row)) :
    Mirrors s.dialect A T Eq (insertChunks s t total start chunks)
      (insertChunks s (t.rename T) total start chunks) := by
  induction chunks generalizing start with
  | nil => exact mirrors_pure rfl
  | cons chunk rest ih =>
      rw [insertChunks, insertChunks]
      refine mirrors_log_bind _ _ ?_
      refine mirrors_insertion_bind hA hT s ht _ _ _ fun reply => ?_
      rw [insertion_rename]
      exact mirrors_lift_bind _ fun _ => ih _

theorem mirrors_batchCreate (items : List Item) (size : Int) :
    Mirrors s.dialect A T Eq ((named M A).batchCreate s items size)
      ((named M T).batchCreate s items size) := by
  unfold batchCreate
  cases items with
  | nil => exact mirrors_log_bind _ _ (mirrors_pure rfl)
  | cons first rest =>
      refine mirrors_lift_bind (collect Item.toRow (first :: rest)) fun rows => ?_
      refine mirrors_table_bind hA hT fun t ht => ?_
      exact (mirrors_insertChunks hA hT s ht _ _ _).bind_eq fun _ => mirrors_pure rfl

theorem mirrors_saveEach (items : List Item) :
    Mirrors s.dialect A T Eq ((named M A).saveEach s items) ((named M T).saveEach s items) := by
  induction items with
  | nil => exact mirrors_pure rfl
  | cons i is ih =>
      rw [saveEach, saveEach]
      exact (mirrors_save hA hT s i).bind_eq fun _ => ih

theorem mirrors_saveChunk {t : Table} (ht : t.name = A) (chunk : List Item) :
    Mirrors s.dialect A T Eq ((named M A).saveChunk s t chunk)
      ((named M T).saveChunk s (t.rename T) chunk) := by
  unfold saveChunk
  refine mirrors_lift_bind (collect Item.toRow chunk) fun rows => ?_
  cases rows with
  | nil => exact mirrors_pure rfl
  | cons first rest =>
      dsimp only
      split
      · rw [upsertion_rename]
        cases hinsert : upsertion t first rest with
        | error e => exact mirrors_lift (.error (.same e))
        | ok insert =>
            have hnames : (Sql.Statement.insert insert).NamesOnly A := by
              show insert.table.name = A
              rw [table_of_upsertion hinsert, ht]
            refine mirrors_execute_bind hA hT s hnames fun reply => ?_
            exact mirrors_lift (.refl _)
      · exact mirrors_log_bind _ _ (mirrors_saveEach hA hT s chunk)

theorem mirrors_saveChunks {t : Table} (ht : t.name = A) (chunks : List (List Item)) :
    Mirrors s.dialect A T Eq ((named M A).saveChunks s t chunks)
      ((named M T).saveChunks s (t.rename T) chunks) := by
  induction chunks with
  | nil => exact mirrors_pure rfl
  | cons chunk rest ih =>
      rw [saveChunks, saveChunks]
      exact (mirrors_saveChunk hA hT s ht chunk).bind_eq fun _ => ih

theorem mirrors_batchSave (items : List Item) (size : Int) :
    Mirrors s.dialect A T Eq ((named M A).batchSave s items size)
      ((named M T).batchSave s items size) := by
  unfold batchSave
  cases items with
  | nil => exact mirrors_log_bind _ _ (mirrors_pure rfl)
  | cons first rest =>
      refine mirrors_lift_bind _ fun _ => ?_
      refine mirrors_table_bind hA hT fun t ht => ?_
      refine mirrors_lift_bind (withIdentity t (first :: rest)) fun marked => ?_
      dsimp only
      split
      · refine (mirrors_batchCreate hA hT s _ size).bind_eq fun _ => ?_
        exact (mirrors_saveChunks hA hT s ht _).bind_eq fun _ => mirrors_pure rfl
      · exact (mirrors_saveChunks hA hT s ht _).bind_eq fun _ => mirrors_pure rfl

end

end Handle

end TableQuery
