/-
Searches with a pagination.

A pagination is built by calls, and what they leave is read off them: the last limit and the last
offset that were given, and all keys of the order.  A search with it hands over the statement of the
search without, apart from what stands behind it (`find_appends_page`), and the reply to either is
read in the same way.  A search that cannot be begun, for want of a table or of a translation of
its query, fails without a pagination as it does with any.
-/
import TableQuery.Proofs.Handle.Touching
import TableQuery.Proofs.Sql.Paging

namespace TableQuery

namespace Pagination

/-! ### Calls -/

/-- A call on a pagination; null imposes nothing. -/
inductive Call where
  | withLimit (n : Option Int)
  | withOffset (n : Option Int)
  | appendOrder (o : Order)

/-- A whole number as an argument, or null. -/
def argument : Option Int → Value
  | some n => .int n
  | none => .null

/-- A pagination after a call. -/
def perform (p : Pagination) : Call → Pagination
  | .withLimit n => p.withLimit (argument n)
  | .withOffset n => p.withOffset (argument n)
  | .appendOrder o => p.appendOrder o

/-- The pagination that calls make of a new one. -/
def ofCalls (calls : List Call) : Pagination := calls.foldl perform .empty

/-- The limit of the last call that gave one, if it was not null. -/
def lastLimit (calls : List Call) : Option Int :=
  (calls.reverse.findSome? (fun
    | .withLimit n => some n
    | _ => none)).join

/-- The offset of the last call that gave one, if it was not null. -/
def lastOffset (calls : List Call) : Option Int :=
  (calls.reverse.findSome? (fun
    | .withOffset n => some n
    | _ => none)).join

/-- The keys of the order, in the order of the calls. -/
def ordersOf (calls : List Call) : List Order :=
  calls.filterMap (fun
    | .appendOrder o => some o
    | _ => none)

/-- **What calls leave**: the last limit, the last offset, and all keys of the order. -/
theorem ofCalls_eq (calls : List Call) : ofCalls calls =
    ⟨argument (lastLimit calls), argument (lastOffset calls), ordersOf calls⟩ := by
  induction calls using List.reverseRecOn with
  | nil => rfl
  | append_singleton calls call ih =>
      have hperform : ofCalls (calls ++ [call]) = (ofCalls calls).perform call := by
        rw [ofCalls, List.foldl_append]
        rfl
      rw [hperform, ih]
      cases call <;>
        simp [perform, withLimit, withOffset, appendOrder, lastLimit, lastOffset, ordersOf]

/-- A whole number imposes itself, and null nothing. -/
theorem bound_argument (n : Option Int) : Handle.bound (argument n) = .ok n := by
  cases n <;> rfl

end Pagination

namespace Handle

open Sql Pagination

variable {h : Handle} {t : Table} {q : Query} {o : Option Expr}

/-- A search with a pagination asks for a page. -/
theorem paginate_ofCalls (t : Table) (x : Select) (hx : x.table = t) (calls : List Call) :
    paginate t x (.ofCalls calls) =
      .ok (x.paged (ordersOf calls) (lastLimit calls) (lastOffset calls)) := by
  rw [ofCalls_eq, paginate, bound_argument, bound_argument, ← hx]
  rfl

/-- A search that cannot be begun fails, with any pagination, and nothing is sent. -/
theorem find_endsQuietly (s : Session) (p : Pagination) {e : Error}
    (h' : h.table = .error e ∨ ∃ t, h.table = .ok t ∧ (q.toExpr (some t)).result = .error e) :
    (h.find s q p).EndsQuietly (.error e) := by
  intro c
  unfold find
  rcases h' with htable | ⟨t, htable, hquery⟩
  · rw [htable]
    exact ⟨rfl, rfl, rfl⟩
  · rw [Run.lift_bind_of_ok htable, Run.ofLogged_bind_of_error hquery]
    exact ⟨rfl, rfl, rfl⟩

/-- Whether a statement is a page of another one, by the calls on a pagination. -/
structure IsPage (d : Dialect) (t : Table) (calls : List Pagination.Call)
    (plain page : Statement) : Prop where
  /-- It is that statement with the order and the limit clause behind its text, and the numbers of
  the clause behind all its values; what cannot be prepared without cannot be with them. -/
  appended : (∀ o ∈ ordersOf calls, o.column.table ≠ some "") → ∃ clause,
    Writes d (Select.limitPieces d (lastLimit calls) (lastOffset calls)) clause ∧
    page.prepare d = (plain.prepare d).map
      (.before (orderText d t (ordersOf calls) ++ clause)
        (limitValues d (lastLimit calls) (lastOffset calls)))
  /-- An order by a table without a name cannot be written. -/
  refused : ∀ o ∈ ordersOf calls, o.column.table = some "" → ∃ e, page.prepare d = .error e
  /-- The limit clause says the last limit, none when there is none, and the last offset. -/
  window : (∀ n ∈ lastLimit calls, 0 ≤ n) →
    readWindow d (tokens (Select.limitPieces d (lastLimit calls) (lastOffset calls))) =
      some (lastLimit calls, (lastOffset calls).getD 0)

theorem isPage_paged (d : Dialect) {x : Select} (hx : x.IsPlain) (ht : x.table = t)
    (calls : List Pagination.Call) :
    IsPage d t calls (.select x)
      (.select (x.paged (ordersOf calls) (lastLimit calls) (lastOffset calls))) := by
  subst ht
  constructor
  case appended => exact Select.prepare_paged hx (lastLimit calls) (lastOffset calls)
  case refused =>
    intro o ho hother
    exact Select.prepare_paged_refused hx _ _ ho hother
  case window => exact readWindow_limitPieces d (lastOffset calls)

/--
**A pagination only appends.**

A search with the pagination that any calls make hands over one statement, as the search
without hands over one, and the reply is read in the same way.  What it hands over is the
statement of the search without, its text and its values unchanged, with the keys of the order
behind it in the order of the calls, and then the limit clause of the dialect for the last limit and
the last offset, whose numbers come behind all values.  When there is no table, or the query
cannot be translated for it, both fail alike.
-/
theorem find_appends_page (h : Handle) (s : Session) (q : Query) (calls : List Pagination.Call) :
    (∀ e, (h.table = .error e ∨ ∃ t, h.table = .ok t ∧ (q.toExpr (some t)).result = .error e) →
      (h.find s q .empty).EndsQuietly (.error e) ∧
        (h.find s q (.ofCalls calls)).EndsQuietly (.error e)) ∧
    ∀ t o, h.table = .ok t → (q.toExpr (some t)).result = .ok o → ∃ plain page read,
      (h.find s q .empty).HandsOver s plain read ∧
      (h.find s q (.ofCalls calls)).HandsOver s page read ∧
      IsPage s.dialect t calls plain page := by
  refine ⟨fun e h' => ⟨find_endsQuietly s _ h', find_endsQuietly s _ h'⟩, fun t o ht hq => ?_⟩
  have hplain := find_eq_ask s ht hq (paginate_ofCalls t (h.selection t o) rfl [])
  have hpage := find_eq_ask s ht hq (paginate_ofCalls t (h.selection t o) rfl calls)
  have hisPage : IsPage s.dialect t calls (.select (h.selection t o)) _ :=
    isPage_paged s.dialect (x := h.selection t o) ⟨rfl, rfl, rfl⟩ rfl calls
  refine ⟨_, _, h.recordsOf s.dialect t, ?_, ?_, hisPage⟩
  · have hnone : ofCalls [] = .empty := rfl
    rw [← hnone, hplain]
    exact s.handsOver_ask _ _ _
  · rw [hpage]
    exact s.handsOver_ask _ _ _

/-- A limit of zero that replaces another one, an offset, and an order by a column of the table, one
of another table and one of none. -/
theorem find_appends_page_users :
    let s : Session := ⟨.mysql, true⟩
    let h : Handle := ⟨some Catalog.user, none⟩
    let field (n : String) (hn : n ≠ "") (t : Option String) : Column := ⟨.field, n, t, hn⟩
    let q : Query := .condition ⟨field "age" (by decide) none, .gt, [.int 17]⟩
    let calls : List Pagination.Call := [.withLimit (some 10),
      .appendOrder ⟨field "name" (by decide) none, true⟩, .withOffset (some 5),
      .appendOrder ⟨field "at" (by decide) (some "Log"), false⟩, .withLimit (some 0),
      .appendOrder ⟨field "total" (by decide) none, true⟩]
    ∃ plain page read clause, (h.find s q .empty).HandsOver s plain read ∧
      (h.find s q (.ofCalls calls)).HandsOver s page read ∧
      page.prepare .mysql = (plain.prepare .mysql).map
        (.before (" ORDER BY users.name DESC, `Log`.at, total DESC" ++ clause)
          [.int 5, .int 0]) ∧
      Writes .mysql (Select.limitPieces .mysql (some 0) (some 5)) clause := by
  intro s h field q calls
  let t : Table := (Catalog.user.mapping.get rfl).table
  obtain ⟨-, hpage⟩ := find_appends_page h s q calls
  obtain ⟨plain, page, read, hplain, hpaged, happended, -, -⟩ := hpage t _ rfl rfl
  have htables : ∀ o ∈ ordersOf calls, o.column.table ≠ some "" := by
    simp [ordersOf, calls, field]
  have htext : orderText .mysql t (ordersOf calls) =
      " ORDER BY users.name DESC, \x60Log\x60.at, total DESC" := by decide +kernel
  obtain ⟨clause, hclause, hprepare⟩ := happended htables
  refine ⟨plain, page, read, clause, hplain, hpaged, ?_, hclause⟩
  rw [← htext]
  exact hprepare

end Handle

end TableQuery
