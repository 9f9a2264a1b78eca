/-
Statements that differ in the names of their placeholders.

The name of a placeholder depends on what has been named before it, and the names of the members
of a list on what else is taken.  Parts that differ in such names alone (`Placed.Renamed`), where
two lists have one name in one statement exactly when they have in the other, are written as one
text with gaps in which the placeholders stand (`MarkedAlike`), and what a driver is told of a
value, its type and the value, is the same (`stretches_alike`).  For a driver that knows positions
all placeholders are written alike, so to it there is no difference.
-/
import TableQuery.Proofs.Sql.Marks

namespace TableQuery

namespace Sql

variable {d : Dialect}

/-! ### Values without their names -/

/-- What a driver is told of a parameter. -/
def Parameter.bound (p : Parameter) : SqlType × Value := (p.type, p.value)

/-- What a driver is told of the parameters of a stretch. -/
def Rendered.bound (r : Rendered) : List (SqlType × Value) := r.parameters.map Parameter.bound

/-! ### Text without its names -/

/-- Whether texts are one text with gaps, in which placeholders stand, each under one name and
another. -/
def MarkedAlike (d : Dialect) (s s' : String) : Prop :=
  ∃ gaps : List (String ⊕ String × String),
    s = String.join (gaps.map (Sum.elim id (fun names => mark d names.1))) ∧
    s' = String.join (gaps.map (Sum.elim id (fun names => mark d names.2)))

namespace MarkedAlike

variable {s s' t t' : String}

theorem refl (s : String) : MarkedAlike d s s := ⟨[.inl s], by simp, by simp⟩

theorem ofMarks (a b : String) : MarkedAlike d (mark d a) (mark d b) :=
  ⟨[.inr (a, b)], by simp, by simp⟩

theorem append (h : MarkedAlike d s s') (h' : MarkedAlike d t t') :
    MarkedAlike d (s ++ t) (s' ++ t') := by
  obtain ⟨gaps, rfl, rfl⟩ := h
  obtain ⟨gaps', rfl, rfl⟩ := h'
  exact ⟨gaps ++ gaps', by simp, by simp⟩

theorem intercalate (separator : String) {ss ts : List String}
    (h : List.Forall₂ (MarkedAlike d) ss ts) :
    MarkedAlike d (separator.intercalate ss) (separator.intercalate ts) := by
  induction h with
  | nil => exact refl _
  | cons hhead hrest ih =>
      cases hrest with
      | nil => simpa using hhead
      | cons =>
          rw [String.intercalate_cons_cons, String.intercalate_cons_cons]
          exact (hhead.append (refl separator)).append ih

/-- For a driver that knows positions there is no difference. -/
theorem eq_of_isPositional (hd : d.isPositional) (h : MarkedAlike d s s') : s = s' := by
  obtain ⟨gaps, rfl, rfl⟩ := h
  simp only [mark_of_isPositional hd]

end MarkedAlike

/-! ### Lists -/

section Lists

variable {names names' : List String}

theorem markList_alike (h : names.length = names'.length) :
    MarkedAlike d (markList d names) (markList d names') := by
  refine MarkedAlike.intercalate ", " ?_
  rw [List.forall₂_map_left_iff, List.forall₂_map_right_iff, List.forall₂_iff_zip]
  exact ⟨h, fun _ => .ofMarks _ _⟩

theorem groupTexts_alike (h : names.length = names'.length) (i : Nat) (gs : List (List Value)) :
    Together (List.Forall₂ (MarkedAlike d))
      (groupTexts d names i gs) (groupTexts d names' i gs) := by
  induction gs generalizing i with
  | nil => exact .ok .nil
  | cons g gs ih =>
      have hown : ((names.drop (i * g.length)).take g.length).length =
          ((names'.drop (i * g.length)).take g.length).length := by
        simp only [List.length_take, List.length_drop, h]
      rw [groupTexts, groupTexts, hown]
      split
      · exact (ih (i + 1)).map fun _ _ =>
          .cons (((MarkedAlike.refl "(").append (markList_alike hown)).append (.refl ")"))
      · exact .error _

theorem Members.text_alike (h : names.length = names'.length) (m : Members) :
    Together (MarkedAlike d) (m.text d names) (m.text d names') := by
  cases m with
  | single vs => exact .ok (markList_alike h)
  | groups gs =>
      exact (groupTexts_alike h 0 gs).map fun _ _ hts =>
        (MarkedAlike.refl _).append (.intercalate _ hts)

end Lists

/-- Whether stretches differ in the names of their placeholders alone. -/
structure Rendered.Alike (d : Dialect) (r r' : Rendered) : Prop where
  text : MarkedAlike d r.sql r'.sql
  bound : r.bound = r'.bound

theorem Rendered.Alike.refl (r : Rendered) : r.Alike d r := ⟨.refl _, rfl⟩

/-- **A list is written alike under whatever name, and whatever names are taken.** -/
theorem listStretch_alike (taken taken' : List String) (name name' : String) (type : SqlType)
    (use : ListUse) (vs : List Value) :
    Together (Rendered.Alike d) (listStretch d taken name type use vs)
      (listStretch d taken' name' type use vs) := by
  cases vs with
  | nil =>
      rw [listStretch, listStretch]
      cases emptyList d use with
      | error e => exact .error e
      | ok s => exact .ok (.refl _)
  | cons v vs =>
      rw [listStretch, listStretch]
      · cases Members.ofList type (v :: vs) with
        | error e => exact .error e
        | ok m =>
            have hlength : ∀ taken name,
                ((m.names name).map (freshName taken)).length = m.values.length := fun _ _ => by
              rw [List.length_map, m.length_names]
            have hbound : ∀ (names : List String), names.length = m.values.length →
                ((names.zip m.values).map (fun e => (⟨e.1, type, e.2⟩ : Parameter))).map
                  Parameter.bound = m.values.map (fun v => (type, v)) := by
              intro names hnames
              have hsecond : (names.zip m.values).map Prod.snd = m.values :=
                List.map_snd_zip (by omega)
              conv_rhs => rw [← hsecond, List.map_map]
              rw [List.map_map]
              rfl
            refine (Members.text_alike ((hlength _ _).trans (hlength _ _).symm) m).map
              fun s s' hs => ⟨hs, ?_⟩
            exact (hbound _ (hlength _ _)).trans (hbound _ (hlength _ _)).symm
      · simp
      · simp

/-! ### Parts -/

theorem concat_alike {rs rs' : List Rendered} (h : List.Forall₂ (Rendered.Alike d) rs rs') :
    Rendered.Alike d (.concat rs) (.concat rs') := by
  induction h with
  | nil => exact .refl _
  | cons hr _ ih =>
      refine ⟨?_, ?_⟩
      · simpa [Rendered.concat] using hr.text.append ih.text
      · have hbound := congrArg₂ (· ++ ·) hr.bound ih.bound
        simpa [Rendered.bound, Rendered.concat] using hbound

/-- Whether parts are the same under names that are related. -/
inductive Placed.Renamed (N : String → String → Prop) : Placed → Placed → Prop
  | text (s : String) : Renamed N (.text s) (.text s)
  | value {a b : String} (h : N a b) (type : SqlType) (v : Value) :
      Renamed N (.value ⟨a, type, v⟩) (.value ⟨b, type, v⟩)
  | members {a b : String} (h : N a b) (type : SqlType) (use : ListUse) (vs : List Value) :
      Renamed N (.members a type use vs) (.members b type use vs)
  | spread {a b : String} (h : N a b) (type : SqlType) (vs : List Value) :
      Renamed N (.spread a type vs) (.spread b type vs)
  | missing (name : String) : Renamed N (.missing name) (.missing name)

theorem Placed.Renamed.refl (x : Placed) : Placed.Renamed Eq x x := by
  cases x with
  | text s => exact .text s
  | value p => exact .value rfl p.type p.value
  | members name type use vs => exact .members rfl type use vs
  | spread name type vs => exact .spread rfl type vs
  | missing name => exact .missing name

section Parts

variable {N : String → String → Prop}
  (hN : ∀ {a b a' b' : String}, N a b → N a' b' → (a = a' ↔ b = b'))

include hN

/-- A list is found again under its new name, when lists have one name exactly when they had. -/
theorem lookup_alike {written written' : List (String × Rendered)}
    (h : List.Forall₂ (fun w w' => N w.1 w'.1 ∧ w.2.Alike d w'.2) written written') {a b : String}
    (hab : N a b) : (written.lookup a = none ∧ written'.lookup b = none) ∨
      ∃ r r', written.lookup a = some r ∧ written'.lookup b = some r' ∧ r.Alike d r' := by
  induction h with
  | nil => exact .inl ⟨rfl, rfl⟩
  | @cons w w' _ _ hw _ ih =>
      have hname : (a == w.1) = (b == w'.1) := by
        rw [Bool.eq_iff_iff, beq_iff_eq, beq_iff_eq]
        exact hN hab hw.1
      rw [List.lookup_cons, List.lookup_cons, hname]
      cases b == w'.1 with
      | true => exact .inr ⟨_, _, rfl, rfl, hw.2⟩
      | false => exact ih

/-- **Parts under other names are written alike.** -/
theorem stretches_alike {taken taken' : List String} {written written' : List (String × Rendered)}
    (hwritten : List.Forall₂ (fun w w' => N w.1 w'.1 ∧ w.2.Alike d w'.2) written written')
    {xs ys : List Placed} (h : List.Forall₂ (Placed.Renamed N) xs ys) :
    Together (List.Forall₂ (Rendered.Alike d)) (stretches d taken written xs)
      (stretches d taken' written' ys) := by
  induction h generalizing written written' with
  | nil => exact .ok .nil
  | cons hx _ ih =>
      cases hx with
      | text s =>
          rw [stretches, stretches]
          exact (ih hwritten).map fun _ _ => .cons (.refl _)
      | value hab type v =>
          rw [stretches, stretches]
          exact (ih hwritten).map fun _ _ => .cons ⟨.ofMarks _ _, rfl⟩
      | missing name =>
          rw [stretches, stretches]
          exact .error _
      | spread hab type vs =>
          rw [stretches, stretches]
          cases Members.ofList type vs with
          | error e => exact .error e
          | ok m =>
              refine (ih hwritten).map fun _ _ => .cons ⟨.ofMarks _ _, ?_⟩
              simp [Rendered.bound, Parameter.bound, Function.comp_def]
      | @members a b hab type use vs =>
          rw [stretches, stretches]
          rcases lookup_alike hN hwritten hab with ⟨hnone, hnone'⟩ | ⟨r, r', hr, hr', halike⟩
          · rw [hnone, hnone']
            dsimp only
            rcases (listStretch_alike (d := d)
              (taken ++ written.flatMap (fun w => w.2.parameters.map (·.name)))
              (taken' ++ written'.flatMap (fun w => w.2.parameters.map (·.name)))
              a b type use vs).cases with ⟨e, hlist, hlist'⟩ | ⟨r, r', hlist, hlist', halike⟩
            · rw [hlist, hlist']
              exact .error e
            · rw [hlist, hlist']
              exact (ih (.cons ⟨hab, halike⟩ hwritten)).map fun _ _ => .cons halike
          · rw [hr, hr']
            exact (ih hwritten).map fun _ _ => .cons halike

end Parts

theorem firstMissing_renamed {N : String → String → Prop} {xs ys : List Placed}
    (h : List.Forall₂ (Placed.Renamed N) xs ys) : firstMissing xs = firstMissing ys := by
  induction h with
  | nil => rfl
  | cons hx _ ih => cases hx <;> first | rfl | exact ih

theorem expand_alike {N : String → String → Prop}
    (hN : ∀ {a b a' b' : String}, N a b → N a' b' → (a = a' ↔ b = b')) {xs ys : List Placed}
    (h : List.Forall₂ (Placed.Renamed N) xs ys) :
    Together (Rendered.Alike d) (expand d xs) (expand d ys) := by
  unfold expand
  rw [firstMissing_renamed h]
  cases firstMissing ys with
  | some name => exact .error _
  | none => exact (stretches_alike hN .nil h).map fun _ _ => concat_alike

end Sql

end TableQuery
