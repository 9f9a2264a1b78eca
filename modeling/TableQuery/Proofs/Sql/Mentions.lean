/-
What an expression says about columns, in the order of its text.

A `Mention` is a column with the values that it is compared with there.  Negating an
expression changes relations and keeps mentions, and so does linking, which drops nothing
but constants.  In the text a mention is a few pieces, and the rest is fixed: so the values
of the text are those of the mentions in order (`operands_pieces`), every piece that is not
fixed belongs to a mention (`covered_pieces`), and values that are replaced change no piece but
the places that hold them (`blank_pieces_map`).
-/
import TableQuery.Proofs.Sql.Filling
import TableQuery.Proofs.Sql.Replacing
import TableQuery.Proofs.Sql.Separated

namespace TableQuery

namespace Sql

/-- A column as an expression mentions it, with the values it is compared with. -/
structure Mention where
  column : ColumnRef
  /-- Whether the values are the members of one list. -/
  list : Bool
  operands : List Value

/-- The pieces of a mention. -/
inductive Mention.Has (m : Mention) : Piece → Prop
  | table {t : String} (h : m.column.table = some t) : Has m (.name t)
  | column : Has m (.name m.column.name)
  | value {v : Value} (h : v ∈ m.operands) : Has m (.value (m.column.slot [v]) v)
  | members (use : ListUse) (h : m.list = true) :
      Has m (.members (m.column.slot m.operands) use m.operands)

/-- Whether all pieces are fixed text or belong to some mentions. -/
def Covered (ms : List Mention) (ps : List Piece) : Prop :=
  ∀ p ∈ ps, (∃ s, p = .text s) ∨ ∃ m ∈ ms, m.Has p

namespace Covered

variable {ms : List Mention} {ps qs : List Piece}

theorem nil : Covered ms [] := by simp [Covered]

theorem text_cons (s : String) (h : Covered ms ps) : Covered ms (.text s :: ps) :=
  List.forall_mem_cons.mpr ⟨.inl ⟨s, rfl⟩, h⟩

theorem append (hps : Covered ms ps) (hqs : Covered ms qs) : Covered ms (ps ++ qs) :=
  List.forall_mem_append.mpr ⟨hps, hqs⟩

theorem of_has {m : Mention} {p : Piece} (h : m.Has p) : Covered [m] [p] :=
  List.forall_mem_singleton.mpr (.inr ⟨m, List.mem_singleton_self m, h⟩)

theorem mono {ms' : List Mention} (h : Covered ms ps) (hms : ms ⊆ ms') : Covered ms' ps :=
  fun p hp => (h p hp).imp_right fun ⟨m, hm, hhas⟩ => ⟨m, hms hm, hhas⟩

theorem parenthesised (h : Covered ms ps) : Covered ms (parenthesised ps) :=
  text_cons "(" (h.append (text_cons ")" nil))

end Covered

/-- The name of a column stands in the text as that of the mention, and so does its table. -/
theorem covered_column (m : Mention) : Covered [m] m.column.pieces := by
  unfold ColumnRef.pieces
  split
  · rename_i t ht
    exact (Covered.of_has (.table ht)).append (.text_cons "." (.of_has .column))
  · exact .of_has .column

namespace Expr

/-- What holds of the parts of an expression, and of a junction whenever it holds of each
member, holds of every expression. -/
@[elab_as_elim]
theorem induction {motive : Expr → Prop} (compare : ∀ r c v, motive (compare r c v))
    (truth : ∀ n c b, motive (truth n c b)) (null : ∀ n c, motive (null n c))
    (member : ∀ n c vs, motive (member n c vs)) (column : ∀ c, motive (column c))
    (flag : ∀ c s, motive (flag c s)) (native : ∀ s, motive (native s))
    (nullValue : motive nullValue) (const : ∀ b, motive (const b))
    (constTest : ∀ b, motive (constTest b)) (not : ∀ e, motive e → motive (not e))
    (junction : ∀ j es, (∀ e ∈ es, motive e) → motive (junction j es)) (e : Expr) : motive e :=
  @Expr.rec motive (fun es => ∀ e ∈ es, motive e)
    compare truth null member column flag native nullValue const constTest not
    (fun j es ih => junction j es ih)
    (fun _ he => absurd he List.not_mem_nil)
    (fun _ _ he hes x hx => by
      rcases List.mem_cons.mp hx with rfl | hx
      · exact he
      · exact hes x hx) e

mutual

/-- The mentions of an expression, in the order of its text. -/
def mentions : Expr → List Mention
  | compare _ c v => [⟨c, false, [v]⟩]
  | truth _ c _ | null _ c | column c | flag c _ => [⟨c, false, []⟩]
  | member _ c vs => [⟨c, true, vs⟩]
  | native _ | nullValue | const _ | constTest _ => []
  | not e => mentions e
  | junction _ es => mentionsAll es

/-- The mentions of several expressions. -/
def mentionsAll : List Expr → List Mention
  | [] => []
  | e :: es => mentions e ++ mentionsAll es

end

theorem mentionsAll_eq_flatMap (es : List Expr) : mentionsAll es = es.flatMap mentions := by
  induction es with
  | nil => rw [mentionsAll]; rfl
  | cons e es ih => rw [mentionsAll, ih]; rfl

theorem columnsAll_eq_flatMap (es : List Expr) : columnsAll es = es.flatMap columns := by
  induction es with
  | nil => rw [columnsAll]; rfl
  | cons e es ih => rw [columnsAll, ih]; rfl

theorem columns_map (f : ColumnRef → ColumnRef) (g : Value → Value) (e : Expr) :
    (e.map f g).columns = e.columns.map f := by
  induction e using Expr.induction with
  | not e ih => rw [map, columns, columns, ih]
  | junction j es ih =>
      rw [map, mapAll_eq_map, columns, columns, columnsAll_eq_flatMap, columnsAll_eq_flatMap,
        List.flatMap_map, List.map_flatMap, List.flatMap_def, List.flatMap_def]
      rw [List.map_congr_left ih]
  | _ => simp [map, columns]

/-! ### Mentions of what is built -/

/-- Whether an expression is a constant. -/
def isConstant : Expr → Bool
  | const _ | constTest _ => true
  | _ => false

theorem mentions_negate (e : Expr) : e.negate.mentions = e.mentions := by
  cases e with
  | column c =>
      rw [negate]
      split <;> simp [mentions]
  | _ => simp [negate, mentions]

theorem mentions_asCondition (e : Expr) : e.asCondition.mentions = e.mentions := by
  cases e with
  | column c =>
      rw [asCondition]
      split <;> simp [mentions]
  | _ => simp [asCondition, mentions]

theorem flatMap_mentions_membersOf (j : Junction) (e : Expr) :
    (membersOf j e).flatMap mentions = e.mentions := by
  cases e with
  | junction k es =>
      rw [membersOf, mentions, mentionsAll_eq_flatMap]
      split
      · rfl
      · simp [mentions, mentionsAll_eq_flatMap]
  | _ => simp [membersOf]

theorem isConstant_negate (e : Expr) : e.negate.isConstant = e.isConstant := by
  cases e with
  | column c =>
      rw [negate]
      split <;> rfl
  | _ => rfl

theorem isConstant_asCondition (e : Expr) : e.asCondition.isConstant = e.isConstant := by
  cases e with
  | column c =>
      rw [asCondition]
      split <;> rfl
  | _ => rfl

/-- Linking expressions that are no constants drops none of them. -/
theorem join_of_not_constant (j : Junction) (es : List Expr) :
    (∀ e ∈ es, e.isConstant = false) → join j es = match es with
      | [] => constTest (!absorbing j)
      | [e] => e.asCondition
      | es => junction j (es.flatMap (fun e => membersOf j e.asCondition)) := by
  intro h
  have hconst : ∀ (b : Bool), ∀ e ∈ es, isConst b e = false := by
    intro b e he
    have hne := h e he
    cases e <;> simp_all [isConst, isConstant]
  have hany : es.any (isConst (absorbing j)) = false := by
    rw [List.any_eq_false]
    intro e he
    simp [hconst _ e he]
  have hkept : es.filter (fun e => !isConst (!absorbing j) e) = es := by
    rw [List.filter_eq_self]
    intro e he
    simp [hconst _ e he]
  rw [join, hany, hkept]
  rfl

/-- **Linking keeps every mention.** -/
theorem mentions_join (j : Junction) {es : List Expr} (h : ∀ e ∈ es, e.isConstant = false) :
    (join j es).mentions = es.flatMap mentions := by
  rw [join_of_not_constant j es h]
  match es with
  | [] => simp [mentions]
  | [e] => simp [mentions_asCondition]
  | e :: e' :: rest =>
      simp only [mentions, mentionsAll_eq_flatMap, List.flatMap_assoc, flatMap_mentions_membersOf,
        mentions_asCondition]

theorem isConstant_join (j : Junction) {es : List Expr} (hne : es ≠ [])
    (h : ∀ e ∈ es, e.isConstant = false) : (join j es).isConstant = false := by
  rw [join_of_not_constant j es h]
  match es, hne with
  | [e], _ =>
      rw [isConstant_asCondition]
      exact h e List.mem_cons_self
  | e :: e' :: rest, _ => rfl

/-! ### Mentions in the text -/

variable (d : Dialect)

/-- **Every piece of an expression that is not fixed text belongs to a mention.** -/
theorem covered_pieces (e : Expr) : Covered e.mentions (e.pieces d) := by
  induction e using Expr.induction with
  | compare r c v =>
      rw [mentions, pieces]
      exact (covered_column _).append (.text_cons _ (.of_has (.value List.mem_cons_self)))
  | truth n c b =>
      rw [mentions, pieces]
      exact (covered_column _).append (.text_cons _ .nil)
  | null n c =>
      rw [mentions, pieces]
      exact (covered_column _).append (.text_cons _ .nil)
  | member n c vs =>
      have hmembers : ∀ use, Covered [⟨c, true, vs⟩] [.members (c.slot vs) use vs] :=
        fun use => .of_has (.members use rfl)
      cases n with
      | false =>
          rw [mentions, pieces]
          exact (covered_column _).append (.text_cons _ ((hmembers _).append (.text_cons _ .nil)))
      | true =>
          rw [mentions, pieces]
          exact .text_cons _ ((covered_column _).append
            (.text_cons _ ((hmembers _).append (.text_cons _ .nil))))
  | column c =>
      rw [mentions, pieces]
      exact covered_column _
  | flag c s =>
      rw [mentions, pieces, flagPieces]
      split
      · split
        · exact covered_column _
        · exact .text_cons _ (covered_column _)
      · exact (covered_column _).append (.text_cons _ .nil)
  | native s | nullValue | const b | constTest b =>
      rw [pieces]
      exact .text_cons _ .nil
  | not e ih =>
      rw [mentions, pieces]
      refine .text_cons _ ?_
      split
      · exact ih.parenthesised
      · exact ih
  | junction j es ih =>
      rw [mentions, mentionsAll_eq_flatMap, pieces]
      refine forall_mem_junctionPieces (fun s => .inl ⟨s, rfl⟩) fun e he => ?_
      refine (ih e he).mono fun m hm => ?_
      exact List.mem_flatMap.mpr ⟨e, he, hm⟩

theorem operands_column (c : ColumnRef) : c.pieces.flatMap Piece.operands = [] := by
  unfold ColumnRef.pieces
  split <;> rfl

theorem operands_parenthesised (ps : List Piece) :
    (parenthesised ps).flatMap Piece.operands = ps.flatMap Piece.operands := by
  simp [parenthesised, Piece.operands]

/-- **The values of the text are those of the mentions, in order.** -/
theorem operands_pieces (e : Expr) :
    (e.pieces d).flatMap Piece.operands = e.mentions.flatMap Mention.operands := by
  induction e using Expr.induction with
  | compare r c v => simp [pieces, mentions, operands_column, Piece.operands]
  | truth n c b => simp [pieces, mentions, operands_column, Piece.operands]
  | null n c => simp [pieces, mentions, operands_column, Piece.operands]
  | member n c vs => cases n <;> simp [pieces, mentions, operands_column, Piece.operands]
  | column c => simp [pieces, mentions, operands_column]
  | flag c s =>
      rw [pieces, flagPieces]
      split
      · split <;> simp [mentions, operands_column, Piece.operands]
      · simp [mentions, operands_column, Piece.operands]
  | native s => simp [pieces, mentions, Piece.operands]
  | nullValue => simp [pieces, mentions, Piece.operands]
  | const b => simp [pieces, mentions, Piece.operands]
  | constTest b => simp [pieces, mentions, Piece.operands]
  | not e ih =>
      rw [pieces, mentions, List.flatMap_cons, ← ih]
      split
      · rw [operands_parenthesised]; rfl
      · rfl
  | junction j es ih =>
      rw [pieces, mentions, mentionsAll_eq_flatMap, flatMap_junctionPieces (fun _ => rfl),
        List.flatMap_assoc]
      rw [List.flatMap_def, List.flatMap_def, List.map_congr_left ih]

/-! ### Replaced values in the text -/

variable {f : ColumnRef → ColumnRef} {g : Value → Value}

theorem isGroupedIn_map (j : Junction) (e : Expr) :
    (e.map f g).isGroupedIn j = e.isGroupedIn j := by
  cases e <;> simp [map, isGroupedIn]

theorem isGroupedByNot_map (e : Expr) : (e.map f g).isGroupedByNot = e.isGroupedByNot := by
  cases e <;> simp [map, isGroupedByNot]

theorem blank_parenthesised (ps : List Piece) :
    (parenthesised ps).map Piece.blank = parenthesised (ps.map Piece.blank) := by
  simp [parenthesised, Piece.blank]

/-- **Values that are replaced change nothing but the places that hold them.** -/
theorem blank_pieces_map (e : Expr) :
    ((e.map id g).pieces d).map Piece.blank = (e.pieces d).map Piece.blank := by
  induction e using Expr.induction with
  | member n c vs =>
      cases n <;> simp [map, pieces, Piece.blank, ColumnRef.slot, Function.comp_def]
  | compare r c v => simp [map, pieces, Piece.blank, ColumnRef.slot]
  | truth n c b => simp [map, pieces]
  | null n c => simp [map, pieces]
  | column c => simp [map, pieces]
  | flag c s => simp [map, pieces]
  | native s => simp [map]
  | nullValue => simp [map]
  | const b => simp [map]
  | constTest b => simp [map]
  | not e ih =>
      rw [map, pieces, pieces, isGroupedByNot_map, List.map_cons, List.map_cons]
      split
      · rw [blank_parenthesised, blank_parenthesised, ih]
      · rw [ih]
  | junction j es ih =>
      rw [map, mapAll_eq_map, pieces, pieces]
      refine (map_eq_map_iff_forall₂.mpr (rel_junctionPieces (isGroupedIn_map j) (fun _ => rfl)
        fun e he => ?_)).symm
      exact map_eq_map_iff_forall₂.mp (ih e he).symm

/-- The text of an expression with a hole for each value. -/
def frame (e : Expr) : Frame := (e.pieces d).flatMap (Piece.frame d)

theorem frame_map (e : Expr) : (e.map id g).frame d = e.frame d := by
  have hblank : ∀ ps : List Piece, ps.flatMap (Piece.frame d) =
      (ps.map Piece.blank).flatMap (Piece.frame d) := by
    intro ps
    rw [List.flatMap_map]
    congr 1
    funext p
    cases p <;> simp [Piece.blank, Piece.frame]
  rw [frame, frame, hblank, blank_pieces_map, ← hblank]

end Expr

end Sql

end TableQuery
