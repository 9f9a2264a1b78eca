/-
Queries of a table, clause by clause.

What a query reads from, its tables and its condition, is one stretch of its pieces: the
`source`.  In front of it stand words only, the output, and behind it the order and the limit,
words and whole numbers.  So however the output and the limit of two queries differ, with one
condition over one table they are prepared from one source, `prepare_first` and `prepare_plain`,
and fail where it does.

`ReadsFrom` says what the source is once it is prepared: the names of the tables, and the
condition behind the word WHERE, with nothing of the kind when there is none.
-/
import TableQuery.Proofs.Sql.Taken

namespace TableQuery

namespace Sql

variable {d : Dialect}

theorem Piece.IsWord.isCounted {p : Piece} (h : p.IsWord) : p.IsCounted := by
  cases p with
  | text s | name s => trivial
  | value slot v | members slot use vs | missing slot => exact h.elim

/-- The places of an expression are named by counts. -/
theorem Expr.isCounted_pieces (e : Expr) : ∀ p ∈ e.pieces d, p.IsCounted := by
  intro p hp
  rcases e.covered_pieces d p hp with ⟨s, rfl⟩ | ⟨m, -, hpiece⟩
  · trivial
  · cases hpiece with
    | table | column => trivial
    | value | members => rfl

namespace Select

/-- What a query writes in front of its tables. -/
def head (s : Select) : List Piece := .text "SELECT " :: s.outputPieces

/-- The condition of a query with its word. -/
def filterPieces (d : Dialect) (s : Select) : List Piece :=
  match s.condition with
  | some e => conditionPieces d " \nWHERE " e
  | none => []

/-- What a query reads from: its tables, and its condition. -/
def source (d : Dialect) (s : Select) : List Piece :=
  (.text " \nFROM " :: nameList s.tables) ++ s.filterPieces d

variable {s : Select}

theorem pieces_eq (s : Select) :
    s.pieces d =
      s.head ++ (s.source d ++ (orderPieces s.orders ++ limitPieces d s.limit s.offset)) := by
  unfold pieces coreParts head source filterPieces
  cases s.condition with
  | none => simp
  | some e => simp

theorem isWord_nameList (ns : List String) : ∀ p ∈ nameList ns, p.IsWord := by
  refine forall_mem_separated trivial fun ps hps => ?_
  obtain ⟨n, -, rfl⟩ := List.mem_map.mp hps
  simp [Piece.IsWord]

theorem isWord_head (s : Select) : ∀ p ∈ s.head, p.IsWord := by
  refine List.forall_mem_cons.mpr ⟨trivial, ?_⟩
  unfold outputPieces
  split
  · refine forall_mem_separated trivial fun ps hps => ?_
    obtain ⟨n, -, rfl⟩ := List.mem_map.mp hps
    simp [qualified, Piece.IsWord]
  · simp [Piece.IsWord]
  · simp [Piece.IsWord]

/-- Whether all that the output of a query names has a name. -/
def NamesOutput (s : Select) : Prop :=
  s.output = .columns → s.table.name ≠ "" ∧ ∀ n ∈ s.table.columnNames, n ≠ ""

theorem named_head (h : s.NamesOutput) : Named s.head := by
  refine List.forall_mem_cons.mpr ⟨by simp, ?_⟩
  unfold outputPieces
  split
  · rename_i houtput
    obtain ⟨htable, hcolumns⟩ := h houtput
    refine named_separated fun ps hps => ?_
    obtain ⟨n, hn, rfl⟩ := List.mem_map.mp hps
    simp [Named, qualified, htable, hcolumns n hn]
  · simp
  · simp

theorem isCounted_filterPieces (s : Select) : ∀ p ∈ s.filterPieces d, p.IsCounted := by
  unfold filterPieces
  split
  · rename_i e _
    exact List.forall_mem_cons.mpr ⟨trivial, e.asCondition.isCounted_pieces⟩
  · simp

theorem isCounted_source (s : Select) : ∀ p ∈ s.source d, p.IsCounted := by
  have hnames : ∀ p ∈ nameList s.tables, p.IsCounted :=
    fun p hp => (isWord_nameList _ p hp).isCounted
  exact List.forall_mem_append.mpr
    ⟨List.forall_mem_cons.mpr ⟨trivial, hnames⟩, s.isCounted_filterPieces⟩

/-- A limit clause is made of words and whole numbers. -/
theorem isClausal_limitPieces (d : Dialect) (limit offset : Option Int) :
    (∀ p ∈ limitPieces d limit offset, p.IsClausal) ∧ Named (limitPieces d limit offset) := by
  unfold limitPieces
  split <;> simp [Piece.IsClausal, countPiece, Named]

/-- Whether nothing is imposed on a query but its condition. -/
def IsPlain (s : Select) : Prop := s.orders = [] ∧ s.limit = none ∧ s.offset = none

theorem pieces_plain (h : s.IsPlain) : s.pieces d = s.head ++ s.source d := by
  obtain ⟨horders, hlimit, hoffset⟩ := h
  rw [pieces_eq, horders, hlimit, hoffset]
  simp [orderPieces, limitPieces]

/-- The label of a count takes no name. -/
theorem own_naming (s : Select) : s.naming.own = [] := by
  unfold naming
  split
  · rfl
  · rfl
  · exact Naming.own_next .empty "count"

/-- **A query of all that meets a condition** is its source behind its output. -/
theorem prepare_plain (hnamed : s.NamesOutput) (h : s.IsPlain) :
    (Statement.select s).prepare d =
      (prepareAfter d s.naming (s.source d)).map (Prepared.after (wording d s.head)) := by
  show prepareAfter d s.naming (s.pieces d) = _
  rw [pieces_plain h]
  exact prepareAfter_words_append s.isWord_head (named_head hnamed) _ _

/-- **A query of the first that meets a condition** is that of all with the limit behind. -/
theorem prepare_first (hnamed : s.NamesOutput) (horders : s.orders = []) (n : Int) :
    ∃ text, Writes d (limitPieces d (some n) none) text ∧
      (Statement.select { s with limit := some n, offset := none }).prepare d =
        (prepareAfter d s.naming (s.source d)).map
          (fun p => (p.after (wording d s.head)).before text
            (if d = .sqlite then [.int n, .int 0] else [.int n])) := by
  have hpieces : ({ s with limit := some n, offset := none } : Select).pieces d =
      s.head ++ (s.source d ++ limitPieces d (some n) none) := by
    have horders' : ({ s with limit := some n, offset := none } : Select).orders = [] := horders
    rw [pieces_eq, horders']
    rfl
  have hoperands : (limitPieces d (some n) none).flatMap Piece.operands =
      if d = .sqlite then [.int n, .int 0] else [.int n] := by
    cases d <;> simp [limitPieces, countPiece, Piece.operands]
  obtain ⟨hclausal, hclause⟩ := isClausal_limitPieces d (some n) none
  obtain ⟨text, htext, hprepare⟩ :=
    prepareAfter_append_clause s.own_naming s.isCounted_source hclausal hclause
  refine ⟨text, htext, ?_⟩
  show prepareAfter d s.naming (Select.pieces d _) = _
  rw [hpieces, prepareAfter_words_append s.isWord_head (named_head hnamed), hprepare, map_map,
    hoperands]
  simp only [Prepared.after_before]

/-- What a query reads from, as it is prepared: the tables by their names, and the condition
behind the word WHERE, with its values. -/
structure ReadsFrom (d : Dialect) (s : Select) (p : Prepared) : Prop where
  text : ∃ filter, p.sql = " \nFROM " ++ ", ".intercalate (s.tables.map d.quoteName) ++ filter ∧
    match s.condition with
    | none => filter = "" ∧ p.rows = [[]]
    | some e => ∃ clause, filter = " \nWHERE " ++ clause ∧ Writes d (e.asCondition.pieces d) clause
  rows : ∃ vs, p.rows = [vs]

/-- **The source of a query is its tables and its condition.** -/
theorem readsFrom_of_prepareAfter {n : Naming} {p : Prepared}
    (h : prepareAfter d n (s.source d) = .ok p) : s.ReadsFrom d p := by
  refine ⟨?_, by obtain ⟨sql, vs, rfl⟩ := single_of_prepareAfter h; exact ⟨vs, rfl⟩⟩
  have hwords : ∀ p ∈ .text " \nFROM " :: nameList s.tables, p.IsWord :=
    List.forall_mem_cons.mpr ⟨trivial, isWord_nameList _⟩
  have hnamed : Named (.text " \nFROM " :: nameList s.tables) :=
    (List.forall_mem_append.mp (named_of_prepareAfter h)).1
  rw [source, prepareAfter_words_append hwords hnamed, wording_cons, wording_nameList] at h
  obtain ⟨q, hq, rfl⟩ := map_eq_ok.mp h
  refine ⟨q.sql, rfl, ?_⟩
  unfold filterPieces at hq
  split
  · rename_i hnone
    rw [hnone] at hq
    cases (prepareAfter_nil n).symm.trans hq
    exact ⟨rfl, rfl⟩
  · rename_i e hsome
    rw [hsome] at hq
    exact (writes_of_prepareAfter hq).text_cons

end Select

end Sql

end TableQuery
