/-
Lists of pieces with a text between each two.

The names of a list, its rows, and the members of a junction all stand like this.  What holds of
the text and of every piece of the lists holds of the whole, what is read off pieces is read
off the lists in order, and lists that are related piece by piece stay so.

A member of a junction may stand between parentheses.  Those are fixed text as well, so the same
can be said of junctions: `forall_mem_junctionPieces`, `flatMap_junctionPieces` and
`rel_junctionPieces` are what proofs about the text of expressions go through.
-/
import Mathlib.Data.List.Forall2
import TableQuery.Sql.Statement.Printer

namespace TableQuery

namespace Sql

variable {α : Type} {separator : String} {pss : List (List Piece)}

theorem separated_cons_cons (separator : String) (ps qs : List Piece) (pss : List (List Piece)) :
    separated separator (ps :: qs :: pss) =
      ps ++ .text separator :: separated separator (qs :: pss) := by
  rw [separated]
  simp

/-- What the text between and all pieces of the lists have in common, all pieces have. -/
theorem forall_mem_separated {P : Piece → Prop} (hs : P (.text separator))
    (h : ∀ ps ∈ pss, ∀ p ∈ ps, P p) : ∀ p ∈ separated separator pss, P p := by
  induction pss with
  | nil => simp [separated]
  | cons ps pss ih =>
      obtain ⟨hps, hpss⟩ := List.forall_mem_cons.mp h
      cases pss with
      | nil => exact hps
      | cons qs pss =>
          rw [separated_cons_cons]
          exact List.forall_mem_append.mpr ⟨hps, List.forall_mem_cons.mpr ⟨hs, ih hpss⟩⟩

theorem mem_separated {ps : List Piece} {p : Piece} (hps : ps ∈ pss) (hp : p ∈ ps) :
    p ∈ separated separator pss := by
  induction pss with
  | nil => cases hps
  | cons ps' pss ih =>
      cases pss with
      | nil =>
          rw [separated, ← List.mem_singleton.mp hps]
          exact hp
      | cons qs pss =>
          rw [separated_cons_cons]
          rcases List.mem_cons.mp hps with rfl | hps
          · exact List.mem_append_left _ hp
          · exact List.mem_append_right _ (List.mem_cons_of_mem _ (ih hps))

/-- What is read off pieces is read off lists of them, where the text between gives nothing. -/
theorem flatMap_separated {f : Piece → List α} (hf : f (.text separator) = [])
    (pss : List (List Piece)) :
    (separated separator pss).flatMap f = pss.flatMap (fun ps => ps.flatMap f) := by
  induction pss with
  | nil => rfl
  | cons ps pss ih =>
      cases pss with
      | nil => simp [separated]
      | cons qs pss =>
          rw [separated_cons_cons, List.flatMap_append, List.flatMap_cons, hf, ih]
          rfl

/-- What is put for pieces is put for them in each list, where the text between stays. -/
theorem flatMap_separated_eq {f : Piece → List Piece} (hf : f (.text separator) = [.text separator])
    (pss : List (List Piece)) :
    (separated separator pss).flatMap f = separated separator (pss.map (List.flatMap f)) := by
  induction pss with
  | nil => rfl
  | cons ps pss ih =>
      cases pss with
      | nil => simp [separated]
      | cons qs pss =>
          rw [separated_cons_cons, List.flatMap_append, List.flatMap_cons, hf, ih, List.map_cons,
            List.map_cons, List.map_cons, separated_cons_cons]
          rfl

variable {R : Piece → Piece → Prop}

theorem rel_separated (hs : R (.text separator) (.text separator)) {qss : List (List Piece)}
    (h : List.Forall₂ (List.Forall₂ R) pss qss) :
    List.Forall₂ R (separated separator pss) (separated separator qss) := by
  induction h with
  | nil => exact .nil
  | cons h hrest ih =>
      cases hrest with
      | nil => exact h
      | cons h' hrest' => exact List.rel_append h (.cons hs ih)

/-! ### The members of a junction -/

variable {d : Dialect} {j : Junction} {es : List Expr}

/-- The pieces of a member of a junction. -/
def Expr.memberPieces (d : Dialect) (j : Junction) (e : Expr) : List Piece :=
  if e.isGroupedIn j then parenthesised (e.pieces d) else e.pieces d

theorem junctionPieces_eq (d : Dialect) (j : Junction) (es : List Expr) :
    junctionPieces d j es = separated j.word (es.map (Expr.memberPieces d j)) := by
  induction es with
  | nil => rfl
  | cons e es ih =>
      cases es with
      | nil => rw [junctionPieces]; rfl
      | cons e' es =>
          rw [List.map_cons, List.map_cons, separated_cons_cons, ← List.map_cons, ← ih,
            junctionPieces]
          · rfl
          · simp

theorem forall_mem_junctionPieces {P : Piece → Prop} (htext : ∀ s, P (.text s))
    (h : ∀ e ∈ es, ∀ p ∈ e.pieces d, P p) : ∀ p ∈ junctionPieces d j es, P p := by
  rw [junctionPieces_eq]
  refine forall_mem_separated (htext _) fun ps hps => ?_
  obtain ⟨e, he, rfl⟩ := List.mem_map.mp hps
  unfold Expr.memberPieces
  split
  · exact List.forall_mem_cons.mpr ⟨htext _, List.forall_mem_append.mpr
      ⟨h e he, List.forall_mem_singleton.mpr (htext _)⟩⟩
  · exact h e he

theorem mem_junctionPieces {e : Expr} (he : e ∈ es) {p : Piece} (hp : p ∈ e.pieces d) :
    p ∈ junctionPieces d j es := by
  have hmember : p ∈ e.memberPieces d j := by
    unfold Expr.memberPieces
    split
    · simp [parenthesised, hp]
    · exact hp
  rw [junctionPieces_eq]
  exact mem_separated (List.mem_map_of_mem he) hmember

/-- What is read off a junction is read off its members, where fixed text gives nothing. -/
theorem flatMap_junctionPieces {f : Piece → List α} (hf : ∀ s, f (.text s) = [])
    (es : List Expr) :
    (junctionPieces d j es).flatMap f = es.flatMap (fun e => (e.pieces d).flatMap f) := by
  have hmember : ∀ e : Expr, (e.memberPieces d j).flatMap f = (e.pieces d).flatMap f := by
    intro e
    unfold Expr.memberPieces
    split
    · simp [parenthesised, hf]
    · rfl
  rw [junctionPieces_eq, flatMap_separated (hf _), List.flatMap_map]
  simp only [hmember]

variable {g : Expr → Expr} (hg : ∀ e, (g e).isGroupedIn j = e.isGroupedIn j)

include hg

/-- What is put for the pieces of each member is put for those of the junction. -/
theorem junctionPieces_map {f : Piece → List Piece} (hf : ∀ s, f (.text s) = [.text s])
    (h : ∀ e ∈ es, (g e).pieces d = (e.pieces d).flatMap f) :
    junctionPieces d j (es.map g) = (junctionPieces d j es).flatMap f := by
  rw [junctionPieces_eq, junctionPieces_eq, flatMap_separated_eq (hf _), List.map_map, List.map_map]
  congr 1
  refine List.map_congr_left fun e he => ?_
  show (g e).memberPieces d j = (e.memberPieces d j).flatMap f
  unfold Expr.memberPieces
  rw [hg]
  split
  · simp [parenthesised, hf, h e he]
  · exact h e he

theorem rel_junctionPieces (htext : ∀ s, R (.text s) (.text s))
    (h : ∀ e ∈ es, List.Forall₂ R (e.pieces d) ((g e).pieces d)) :
    List.Forall₂ R (junctionPieces d j es) (junctionPieces d j (es.map g)) := by
  rw [junctionPieces_eq, junctionPieces_eq]
  refine rel_separated (htext _) ?_
  rw [List.map_map, List.forall₂_map_left_iff, List.forall₂_map_right_iff]
  refine List.forall₂_same.mpr fun e he => ?_
  show List.Forall₂ R (e.memberPieces d j) ((g e).memberPieces d j)
  unfold Expr.memberPieces
  rw [hg]
  split
  · exact .cons (htext _) (List.rel_append (h e he) (.cons (htext _) .nil))
  · exact h e he

end Sql

end TableQuery
