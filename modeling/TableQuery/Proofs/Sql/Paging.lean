/-
Pages of a query: its order and its limit.

The order and the limit of a query stand behind all the rest of it, and they are words and whole
numbers.  So a query with an order and a limit is the query without, with the clause behind its
text and the numbers behind its values (`pages_of_orders`).  Only a key of the order that is
qualified by a table without a name cannot be written, and such a query is refused.

Each dialect has its own forms for a limit without an offset and the other way round, and some
give the numbers in another order; `readWindow` reads any of them, and reads off the clause of a
dialect the very limit and offset that it was made of.
-/
import TableQuery.Pagination
import TableQuery.Proofs.Sql.Selecting

namespace TableQuery

open Sql

/-! ### The order -/

/-- The column of a key of an order over a table: qualified when it is bound to another table or
the table has it, and else the name as it was given. -/
def Column.keyText (d : Dialect) (t : Table) (c : Column) : String :=
  match c.table.filter (fun own => own != t.name) with
  | some other => d.quoteName other ++ ("." ++ d.quoteName c.name)
  | none =>
    if c.name ∈ t.columnNames then d.quoteName t.name ++ ("." ++ d.quoteName c.name) else c.name

/-- A key of an order over a table. -/
def Order.text (d : Dialect) (t : Table) (o : Order) : String :=
  o.column.keyText d t ++ if o.descending then " DESC" else ""

/-- The order of a query of a table. -/
def orderText (d : Dialect) (t : Table) (orders : List Order) : String :=
  if orders = [] then "" else " ORDER BY " ++ ", ".intercalate (orders.map (Order.text d t))

/-- The key of an order in a query of a table. -/
def Order.key (t : Table) (o : Order) : OrderKey × Bool :=
  (o.column.orderKey (some t), o.descending)

namespace Sql

variable {d : Dialect} {t : Table}

namespace Piece.IsWord

variable {p : Piece}

theorem isClausal (h : p.IsWord) : p.IsClausal := by
  cases p with
  | text s | name s => trivial
  | value slot v | members slot use vs | missing slot => exact h.elim

theorem operands_eq (h : p.IsWord) : p.operands = [] := by
  cases p with
  | text s | name s => rfl
  | value slot v | members slot use vs | missing slot => exact h.elim

end Piece.IsWord

/-- Words are written as they are, wherever they stand. -/
theorem Writes.words_append {ps qs : List Piece} {text : String} (hps : ∀ p ∈ ps, p.IsWord)
    (h : Writes d (ps ++ qs) text) : ∃ rest, text = wording d ps ++ rest ∧ Writes d qs rest := by
  obtain ⟨words, rest, rfl, ⟨naming, placed, taken, written, rs, hplaced, hrs, rfl⟩, hrest⟩ :=
    h.append
  have hconcat := concat_of_isFixed (fun p hp => (hps p hp).isFixed) hplaced hrs
  rw [Rendered.concat, Rendered.mk.injEq] at hconcat
  exact ⟨rest, by rw [hconcat.1], hrest⟩

/-- A column is bound to another table when it is bound, and not to the one of the statement. -/
theorem elsewhere?_eq (c : Column) (t : Table) : c.elsewhere? (some t) =
    (c.table.filter (fun own => own != t.name)).map (fun own => ⟨c.name, some own, .unknown⟩) := by
  unfold Column.elsewhere?
  cases c.table with
  | none => rfl
  | some own =>
      by_cases hown : own = t.name
      · simp [Option.filter, hown]
      · simp [Option.filter, hown, Ne.symm hown]

/-- A key of an order without its direction. -/
def OrderKey.pieces : OrderKey → List Piece
  | .column c => c.pieces
  | .verbatim name => [.text name]

theorem keyPieces_eq (key : OrderKey) (descending : Bool) :
    Select.keyPieces (key, descending) =
      key.pieces ++ if descending then [.text " DESC"] else [] := by
  cases key <;> cases descending <;> simp [Select.keyPieces, OrderKey.pieces]

theorem OrderKey.isWord_pieces (key : OrderKey) : ∀ p ∈ key.pieces, p.IsWord := by
  cases key with
  | verbatim name => simp [OrderKey.pieces, Piece.IsWord]
  | column c =>
      rw [OrderKey.pieces, ColumnRef.pieces]
      split <;> simp [Piece.IsWord]

theorem isWord_orderPieces (keys : List (OrderKey × Bool)) :
    ∀ p ∈ Select.orderPieces keys, p.IsWord := by
  unfold Select.orderPieces
  split
  · simp
  · refine List.forall_mem_cons.mpr ⟨trivial, forall_mem_separated trivial fun ps hps => ?_⟩
    obtain ⟨⟨key, descending⟩, -, rfl⟩ := List.mem_map.mp hps
    rw [keyPieces_eq]
    refine List.forall_mem_append.mpr ⟨key.isWord_pieces, ?_⟩
    split <;> simp [Piece.IsWord]

/-- **A key of an order** is written as the column resolves. -/
theorem wording_orderKey (c : Column) :
    wording d (c.orderKey (some t)).pieces = c.keyText d t := by
  unfold Column.orderKey Column.keyText
  rw [elsewhere?_eq]
  cases c.table.filter (fun own => own != t.name) with
  | some other => simp [OrderKey.pieces, ColumnRef.pieces, wording, Piece.word]
  | none =>
      have hcolumn := Table.column?_isSome t c.name
      unfold Column.within?
      cases hfound : t.column? c.name with
      | some column =>
          have hmem : c.name ∈ t.columnNames := by simpa [hfound] using hcolumn.symm
          simp [hfound, OrderKey.pieces, ColumnRef.pieces, wording, Piece.word, hmem]
      | none =>
          have hmem : c.name ∉ t.columnNames := by simpa [hfound] using hcolumn.symm
          simp [hfound, OrderKey.pieces, wording, Piece.word, hmem]

theorem wording_keyPieces (o : Order) : wording d (Select.keyPieces (o.key t)) = o.text d t := by
  rw [Order.key, keyPieces_eq, wording_append, wording_orderKey, Order.text]
  cases o.descending <;> rfl

/-- **The order of a query** is its keys in order. -/
theorem wording_orderPieces (orders : List Order) :
    wording d (Select.orderPieces (orders.map (Order.key t))) = orderText d t orders := by
  have hkeys : ((orders.map (Order.key t)).map Select.keyPieces).map (wording d) =
      orders.map (Order.text d t) := by
    rw [List.map_map, List.map_map]
    exact List.map_congr_left fun o _ => wording_keyPieces o
  unfold Select.orderPieces orderText
  cases orders with
  | nil => rfl
  | cons o os =>
      rw [if_neg (by simp), if_neg (by simp), wording_cons, wording_separated, hkeys]
      rfl

theorem mem_orderPieces {keys : List (OrderKey × Bool)} {key : OrderKey} {descending : Bool}
    (hkey : (key, descending) ∈ keys) {p : Piece} (hp : p ∈ key.pieces) :
    p ∈ Select.orderPieces keys := by
  have hne : keys.isEmpty = false := by
    cases keys with
    | nil => cases hkey
    | cons => rfl
  rw [Select.orderPieces, hne]
  refine List.mem_cons_of_mem _ (mem_separated (List.mem_map_of_mem hkey) ?_)
  rw [keyPieces_eq]
  exact List.mem_append_left _ hp

/-- An order can be written when the table and all further tables in it have names. -/
theorem named_orderPieces (ht : t.name ≠ "") {orders : List Order}
    (horders : ∀ o ∈ orders, o.column.table ≠ some "") :
    Named (Select.orderPieces (orders.map (Order.key t))) := by
  have hcolumn : ∀ c : Column, c.table ≠ some "" → Named (c.orderKey (some t)).pieces := by
    intro c hc
    unfold Column.orderKey
    rw [elsewhere?_eq]
    cases hother : c.table.filter (fun own => own != t.name) with
    | some other =>
        have htable : c.table = some other := (Option.filter_eq_some_iff.mp hother).1
        have hne : other ≠ "" := by
          intro h
          exact hc (by rw [htable, h])
        simp [Named, OrderKey.pieces, ColumnRef.pieces, hne, c.name_ne_empty]
    | none =>
        unfold Column.within?
        cases hfound : t.column? c.name with
        | some column =>
            simp [hfound, Named, OrderKey.pieces, ColumnRef.pieces, ht, c.name_ne_empty]
        | none => simp [hfound, Named, OrderKey.pieces]
  unfold Select.orderPieces
  split
  · simp [Named]
  · refine List.forall_mem_cons.mpr ⟨by simp, named_separated fun ps hps => ?_⟩
    obtain ⟨key, hkey, rfl⟩ := List.mem_map.mp hps
    obtain ⟨o, ho, rfl⟩ := List.mem_map.mp hkey
    rw [Order.key, keyPieces_eq]
    refine List.forall_mem_append.mpr ⟨hcolumn o.column (horders o ho), ?_⟩
    split <;> simp

/-- A key that is bound to a table without a name names it. -/
theorem not_named_orderPieces (ht : t.name ≠ "") {orders : List Order} {o : Order}
    (ho : o ∈ orders) (hother : o.column.table = some "") :
    ¬Named (Select.orderPieces (orders.map (Order.key t))) := by
  intro hnamed
  have hkey : o.column.orderKey (some t) = .column ⟨o.column.name, some "", .unknown⟩ := by
    rw [Column.orderKey, elsewhere?_eq, hother]
    simp [Option.filter, Ne.symm ht]
  have hmem : (o.column.orderKey (some t), o.descending) ∈ orders.map (Order.key t) :=
    List.mem_map_of_mem ho
  refine hnamed _ (mem_orderPieces hmem (p := .name "") ?_) rfl
  rw [hkey]
  exact List.mem_cons_self

/-! ### The limit clause -/

/-- The numbers of a limit clause, in the order of their places. -/
def limitValues (d : Dialect) (limit offset : Option Int) : List Value :=
  match d with
  | .sqlite =>
    if limit = none ∧ offset = none then [] else [.int (limit.getD (-1)), .int (offset.getD 0)]
  | .mysql | .mariadb => (offset.toList ++ limit.toList).map .int
  | .postgresql | .generic _ => (limit.toList ++ offset.toList).map .int

theorem operands_limitPieces (d : Dialect) (limit offset : Option Int) :
    (Select.limitPieces d limit offset).flatMap Piece.operands = limitValues d limit offset := by
  cases d <;> cases limit <;> cases offset <;> rfl

/-- A word or a number of a clause. -/
inductive Token where
  | word (s : String)
  | number (n : Int)
  deriving DecidableEq

/-- The words of a text, with blanks between them. -/
def words (s : String) : List String :=
  ((s.toList.splitOnP Char.isWhitespace).filter (fun cs => !cs.isEmpty)).map String.ofList

/-- What a clause of words and whole numbers reads as. -/
def tokens (ps : List Piece) : List Token :=
  ps.flatMap (fun
    | .text s => (words s).map .word
    | .value _ (.int n) => [.number n]
    | _ => [])

/-- The limit, none for all rows, and the offset that a dialect takes from a clause; none when the
dialect has no such clause. -/
def readWindow (d : Dialect) : List Token → Option (Option Int × Int)
  | [] => some (none, 0)
  | [.word "LIMIT", .number limit] => some (some limit, 0)
  | [.word "LIMIT", .number limit, .word "OFFSET", .number offset] =>
    some (if d = .sqlite ∧ limit < 0 then none else some limit, offset)
  | [.word "LIMIT", .word "ALL", .word "OFFSET", .number offset] =>
    if d = .postgresql then some (none, offset) else none
  | [.word "LIMIT", .word "-1", .word "OFFSET", .number offset] =>
    if d = .postgresql ∨ d.isMysqlFamily = true then none else some (none, offset)
  | [.word "LIMIT", .number offset, .word ",", .number limit] =>
    if d.isMysqlFamily = true then some (some limit, offset) else none
  | [.word "LIMIT", .number offset, .word ",", .word "18446744073709551615"] =>
    if d.isMysqlFamily = true then some (none, offset) else none
  | _ => none

/-- **A limit clause says what it was made of**: the limit, or that there is none, and the
offset. -/
theorem readWindow_limitPieces (d : Dialect) {limit : Option Int} (offset : Option Int)
    (hlimit : ∀ n ∈ limit, 0 ≤ n) :
    readWindow d (tokens (Select.limitPieces d limit offset)) = some (limit, offset.getD 0) := by
  -- Only where no limit is written as a negative one does the limit have to be compared.
  have hsqlite : ∀ n o : Int, 0 ≤ n → readWindow .sqlite
      [.word "LIMIT", .number n, .word "OFFSET", .number o] = some (some n, o) := by
    intro n o hn
    rw [readWindow, if_neg (by omega)]
  cases d with
  | sqlite =>
      cases limit with
      | none => cases offset <;> rfl
      | some n => exact hsqlite n (offset.getD 0) (hlimit n rfl)
  | postgresql | mysql | mariadb | generic => cases limit <;> cases offset <;> rfl

/-! ### Pages -/

namespace Select

variable {s : Select}

/-- A query with an order, a limit and an offset. -/
def paged (s : Select) (orders : List Order) (limit offset : Option Int) : Select :=
  { s with orders := orders.map (Order.key s.table), limit, offset }

/-- What a page has behind the query that it is one of. -/
def pagePieces (d : Dialect) (s : Select) (orders : List Order) (limit offset : Option Int) :
    List Piece :=
  orderPieces (orders.map (Order.key s.table)) ++ limitPieces d limit offset

theorem pieces_paged (h : s.IsPlain) (orders : List Order) (limit offset : Option Int) :
    (s.paged orders limit offset).pieces d =
      s.pieces d ++ s.pagePieces d orders limit offset := by
  rw [pieces_plain h, pieces_eq, List.append_assoc]
  rfl

theorem isCounted_plain (h : s.IsPlain) : ∀ p ∈ s.pieces d, p.IsCounted := by
  rw [pieces_plain h]
  exact List.forall_mem_append.mpr
    ⟨fun p hp => (s.isWord_head p hp).isCounted, s.isCounted_source⟩

theorem isClausal_pagePieces (s : Select) (orders : List Order) (limit offset : Option Int) :
    ∀ p ∈ s.pagePieces d orders limit offset, p.IsClausal :=
  List.forall_mem_append.mpr
    ⟨fun p hp => (isWord_orderPieces _ p hp).isClausal, (isClausal_limitPieces d limit offset).1⟩

/-- What cannot be placed cannot be prepared, whatever stands behind it. -/
theorem prepareAfter_append_of_error {n : Naming} {ps : List Piece} {e : Error}
    (h : place d n ps = .error e) (qs : List Piece) : prepareAfter d n (ps ++ qs) = .error e := by
  rw [prepareAfter_eq, place_append_eq, h]
  rfl

/-- A query of a table without a name cannot be placed. -/
theorem place_of_nameless (h : s.IsPlain) (ht : s.table.name = "") (n : Naming) :
    ∃ e, place d n (s.pieces d) = .error e := by
  cases hplaced : place d n (s.pieces d) with
  | error e => exact ⟨e, rfl⟩
  | ok xs =>
      have hmem : Piece.name "" ∈ s.pieces d := by
        rw [pieces_plain h]
        refine List.mem_append_right _ (List.mem_append_left _ (List.mem_cons_of_mem _ ?_))
        refine mem_separated (List.mem_map_of_mem (a := "") ?_) List.mem_cons_self
        rw [tables, ht]
        exact List.mem_cons_self
      exact absurd rfl (named_of_place hplaced _ hmem)

/-- **A page is its query with a clause behind it**: the order, the limit clause, and the numbers of
the latter behind all values. -/
theorem prepare_paged (h : s.IsPlain) {orders : List Order} (limit offset : Option Int)
    (horders : ∀ o ∈ orders, o.column.table ≠ some "") :
    ∃ clause, Writes d (limitPieces d limit offset) clause ∧
      (Statement.select (s.paged orders limit offset)).prepare d =
        ((Statement.select s).prepare d).map
          (.before (orderText d s.table orders ++ clause) (limitValues d limit offset)) := by
  show ∃ clause, _ ∧ prepareAfter d s.naming (pieces d _) =
    (prepareAfter d s.naming (s.pieces d)).map _
  rw [pieces_paged h]
  obtain ⟨hlimit, hlimitNamed⟩ := isClausal_limitPieces d limit offset
  by_cases ht : s.table.name = ""
  · obtain ⟨e, he⟩ := place_of_nameless (d := d) h ht s.naming
    have hempty : ∀ p ∈ ([] : List Piece), p.IsCounted := by simp
    obtain ⟨clause, hclause, -⟩ :=
      prepareAfter_append_clause s.own_naming hempty hlimit hlimitNamed
    have hplain := prepareAfter_append_of_error he []
    rw [List.append_nil] at hplain
    exact ⟨clause, hclause, by rw [prepareAfter_append_of_error he, hplain]; rfl⟩
  · have hnamed : Named (s.pagePieces d orders limit offset) :=
      List.forall_mem_append.mpr ⟨named_orderPieces ht horders, hlimitNamed⟩
    obtain ⟨text, htext, hprepare⟩ := prepareAfter_append_clause s.own_naming
      (isCounted_plain (d := d) h) (s.isClausal_pagePieces orders limit offset) hnamed
    obtain ⟨clause, rfl, hclause⟩ := htext.words_append (isWord_orderPieces _)
    have hoperands : (s.pagePieces d orders limit offset).flatMap Piece.operands =
        limitValues d limit offset := by
      have hwords : (orderPieces (orders.map (Order.key s.table))).flatMap Piece.operands = [] :=
        List.flatMap_eq_nil_iff.mpr fun p hp => (isWord_orderPieces _ p hp).operands_eq
      rw [pagePieces, List.flatMap_append, hwords, List.nil_append, operands_limitPieces]
    rw [wording_orderPieces, hoperands] at hprepare
    exact ⟨clause, hclause, hprepare⟩

/-- **A page that is ordered by a table without a name is refused.** -/
theorem prepare_paged_refused (h : s.IsPlain) {orders : List Order} (limit offset : Option Int)
    {o : Order} (ho : o ∈ orders) (hother : o.column.table = some "") :
    ∃ e, (Statement.select (s.paged orders limit offset)).prepare d = .error e := by
  show ∃ e, prepareAfter d s.naming (pieces d _) = _
  rw [pieces_paged h]
  by_cases ht : s.table.name = ""
  · obtain ⟨e, he⟩ := place_of_nameless (d := d) h ht s.naming
    exact ⟨e, prepareAfter_append_of_error he _⟩
  · cases hprepared : prepareAfter d s.naming
        (s.pieces d ++ s.pagePieces d orders limit offset) with
    | error e => exact ⟨e, rfl⟩
    | ok p =>
        have hnamed := (List.forall_mem_append.mp (named_of_prepareAfter hprepared)).2
        exact absurd (List.forall_mem_append.mp hnamed).1 (not_named_orderPieces ht ho hother)

end Select

end Sql

end TableQuery
