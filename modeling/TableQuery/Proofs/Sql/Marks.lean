/-
Lists of values for a driver that knows placeholders by position.

Such a driver gets the same mark for every value, so the names that members of a list
are given do not show, and how a list is written depends on its members alone
(`listStretch_of_isPositional`).  What does show is a limit of the names: a group takes its own from
where it would stand if all groups were as long as itself, and one for which there are
too few is refused.  `groupsFit` is that test on the lengths.
-/
import TableQuery.Proofs.Results
import TableQuery.Sql.Piece

namespace TableQuery

namespace Sql

/-- As many marks as there are values, with commas between them. -/
def marks (n : Nat) : String := ", ".intercalate (List.replicate n "?")

/-- Whether groups, the first of which has the number `i` from zero, find their names
among `total` ones. -/
def groupsFit (total : Nat) : Nat → List (List Value) → Bool
  | _, [] => true
  | i, g :: gs => decide ((i + 1) * g.length ≤ total) && groupsFit total (i + 1) gs

/-- How the members of a list are written with one mark for each value. -/
def Members.marked (d : Dialect) : Members → Except ParameterError String
  | .single vs => .ok (marks vs.length)
  | .groups gs =>
    if groupsFit gs.flatten.length 0 gs then
      .ok ((if d = .sqlite then "VALUES " else "")
        ++ ", ".intercalate (gs.map (fun g => "(" ++ marks g.length ++ ")")))
    else .error .outOfNames

variable {d : Dialect}

theorem mark_of_isPositional (hd : d.isPositional) (name : String) : mark d name = "?" := by
  match d with
  | .generic true => exact absurd rfl hd
  | .generic false | .sqlite | .postgresql | .mysql | .mariadb => rfl

theorem markList_of_isPositional (hd : d.isPositional) (names : List String) :
    markList d names = marks names.length := by
  have hmap : names.map (mark d) = List.replicate names.length "?" := by
    rw [List.eq_replicate_iff]
    refine ⟨List.length_map .., ?_⟩
    intro s hs
    obtain ⟨name, -, rfl⟩ := List.mem_map.mp hs
    exact mark_of_isPositional hd name
  rw [markList, hmap, marks]

/-- A group finds its names when there are as many as groups of its length would take. -/
theorem length_own_eq_iff (names : List String) (i n : Nat) :
    ((names.drop (i * n)).take n).length = n ↔ (i + 1) * n ≤ names.length := by
  rw [List.length_take, List.length_drop, Nat.add_mul, Nat.one_mul]
  rcases Nat.eq_zero_or_pos n with rfl | hpos
  · simp
  · omega

theorem groupTexts_of_isPositional (hd : d.isPositional) (names : List String) (i : Nat)
    (gs : List (List Value)) :
    groupTexts d names i gs =
      if groupsFit names.length i gs then
        .ok (gs.map (fun g => "(" ++ marks g.length ++ ")"))
      else .error .outOfNames := by
  induction gs generalizing i with
  | nil => rfl
  | cons g gs ih =>
      rw [groupTexts, groupsFit]
      by_cases hfit : (i + 1) * g.length ≤ names.length
      · have hown := (length_own_eq_iff names i g.length).mpr hfit
        rw [if_pos hown, ih, markList_of_isPositional hd, hown]
        cases groupsFit names.length (i + 1) gs <;> simp [hfit, Except.map]
      · rw [if_neg (fun hown => hfit ((length_own_eq_iff names i g.length).mp hown))]
        simp [hfit]

theorem Members.length_names (name : String) (m : Members) :
    (m.names name).length = m.values.length := by
  have hgroups : ∀ (gs : List (List Value)) (i : Nat),
      (groupNames name i gs).length = gs.flatten.length := by
    intro gs
    induction gs with
    | nil => intro i; rfl
    | cons g gs ih =>
        intro i
        rw [groupNames, List.length_append, ih, List.flatten_cons, List.length_append]
        simp [numbered]
  cases m with
  | single vs => simp [names, numbered, values]
  | groups gs => exact hgroups gs 1

theorem Members.text_of_isPositional (hd : d.isPositional) {names : List String} {m : Members}
    (hnames : names.length = m.values.length) : m.text d names = m.marked d := by
  cases m with
  | single vs => rw [Members.text, markList_of_isPositional hd, hnames]; rfl
  | groups gs =>
      rw [Members.text, groupTexts_of_isPositional hd, hnames]
      show _ = if groupsFit gs.flatten.length 0 gs then _ else _
      rw [Members.values]
      cases groupsFit gs.flatten.length 0 gs <;> rfl

/-- **A list is written as its members say, and hands over their values.** -/
theorem Members.rendered_of_isPositional (hd : d.isPositional) {names : List String}
    {m : Members} (hnames : names.length = m.values.length) (type : SqlType) :
    (m.rendered d type names).map (fun r => (r.sql, r.parameters.map (·.value))) =
      (m.marked d).map (fun s => (s, m.values)) := by
  rw [Members.rendered, Members.text_of_isPositional hd hnames]
  cases m.marked d with
  | error e => rfl
  | ok s =>
      have hvalues : (names.zip m.values).map Prod.snd = m.values :=
        List.map_snd_zip (by omega)
      have hparameters : (names.zip m.values).map
          ((·.value) ∘ fun e : String × Value => (⟨e.1, type, e.2⟩ : Parameter)) = m.values :=
        hvalues
      simp only [Except.map, List.map_map, hparameters]

/-- What a list is written as between its parentheses, and the values that it hands over. -/
def listMarked (d : Dialect) (type : SqlType) (use : ListUse) :
    List Value → Except ParameterError (String × List Value)
  | [] => (emptyList d use).map (·, [])
  | vs => (Members.ofList type vs).bind (fun m => (m.marked d).map (·, m.values))

/-- **Which names are taken makes no difference to a list.** -/
theorem listStretch_of_isPositional (hd : d.isPositional) (taken : List String) (name : String)
    (type : SqlType) (use : ListUse) (vs : List Value) :
    (listStretch d taken name type use vs).map (fun r => (r.sql, r.parameters.map (·.value))) =
      listMarked d type use vs := by
  cases vs with
  | nil =>
      rw [listStretch, listMarked, map_map]
      rfl
  | cons v vs =>
      rw [listStretch, listMarked]
      · cases Members.ofList type (v :: vs) with
        | error e => rfl
        | ok m =>
            have hlength : ((m.names name).map (freshName taken)).length = m.values.length := by
              rw [List.length_map, m.length_names]
            exact Members.rendered_of_isPositional hd hlength type
      · simp
      · simp

end Sql

end TableQuery
