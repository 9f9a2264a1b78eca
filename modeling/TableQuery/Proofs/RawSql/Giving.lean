/-
What giving values to the binds of a template comes to.

Values are given key by key, and a key that names no bind stops it.  Giving never changes the
names that there are (`map_name_give`), so whether it succeeds is a matter of the keys and the
names alone: when every key is one of the names, each name ends with what was given for it last
(`giveAll_of_known`), and otherwise the first key that is none is reported
(`giveAll_of_unknown`).
-/
import TableQuery.RawSql.Binding

namespace TableQuery

namespace RawSql

@[simp] theorem bindOf_name (name : String) (v : Value) : (bindOf name v).name = name := by
  cases v <;> rfl

/-- Whether a key binds one of the names. -/
def Known (names : List String) (key : Value) : Prop :=
  ∃ name, keyName? key = some name ∧ name ∈ names

/-- What an error says of a key that binds none of the names. -/
def reported (key : Value) : Value := (keyName? key).elim key .text

/-- What was given for a name last. -/
def given? (name : String) : List (Value × Value) → Option Value
  | [] => none
  | (key, v) :: entries =>
    (given? name entries).or (if keyName? key = some name then some v else none)

/-- A bind after values have been given. -/
def Bind.given (entries : List (Value × Value)) (b : Bind) : Bind :=
  (given? b.name entries).elim b (bindOf b.name)

/-! ### One key -/

theorem give_of_known {binds : List Bind} {key v : Value} (h : Known (binds.map Bind.name) key) :
    give binds key v = .ok (binds.map (Bind.given [(key, v)])) := by
  obtain ⟨name, hkey, hname⟩ := h
  obtain ⟨b, hb, rfl⟩ := List.mem_map.mp hname
  rw [give, hkey]
  dsimp only
  rw [if_pos (List.any_eq_true.mpr ⟨b, hb, by simp⟩)]
  refine congrArg Except.ok (List.map_congr_left fun other _ => ?_)
  by_cases hsame : other.name = b.name
  · simp [Bind.given, given?, hkey, hsame]
  · simp [Bind.given, given?, hkey, hsame, Ne.symm hsame]

theorem give_of_unknown {binds : List Bind} {key v : Value}
    (h : ¬Known (binds.map Bind.name) key) :
    give binds key v = .error (.unknownBind (reported key)) := by
  rw [give, reported]
  cases hkey : keyName? key with
  | none => rfl
  | some name =>
      dsimp only
      rw [if_neg]
      · rfl
      · intro hany
        obtain ⟨b, hb, hname⟩ := List.any_eq_true.mp hany
        exact h ⟨name, hkey, List.mem_map.mpr ⟨b, hb, eq_of_beq hname⟩⟩

theorem map_name_given (binds : List Bind) (entries : List (Value × Value)) :
    (binds.map (Bind.given entries)).map Bind.name = binds.map Bind.name := by
  rw [List.map_map]
  refine List.map_congr_left fun b _ => ?_
  show (b.given entries).name = b.name
  rw [Bind.given]
  cases given? b.name entries with
  | none => rfl
  | some v => exact bindOf_name b.name v

/-! ### One key after another -/

theorem given_given (b : Bind) (e : Value × Value) (entries : List (Value × Value)) :
    (b.given [e]).given entries = b.given (e :: entries) := by
  have hname : (b.given [e]).name = b.name := by
    have hnames := map_name_given [b] [e]
    simpa using hnames
  rw [Bind.given, hname, Bind.given, Bind.given, given?, given?, given?, Option.none_or]
  cases given? b.name entries with
  | none => rfl
  | some v => rfl

/-- Giving succeeds when every key is one of the names. -/
theorem giveAll_of_known {binds : List Bind} {entries : List (Value × Value)}
    (h : ∀ e ∈ entries, Known (binds.map Bind.name) e.1) :
    giveAll binds entries = .ok (binds.map (Bind.given entries)) := by
  induction entries generalizing binds with
  | nil =>
      rw [giveAll]
      refine congrArg Except.ok ?_
      exact (List.map_id binds).symm
  | cons e entries ih =>
      have hrest : ∀ e' ∈ entries, Known ((binds.map (Bind.given [e])).map Bind.name) e'.1 := by
        intro e' he'
        rw [map_name_given]
        exact h e' (List.mem_cons_of_mem e he')
      rw [giveAll, give_of_known (h e List.mem_cons_self)]
      dsimp only
      rw [ih hrest, List.map_map]
      refine congrArg Except.ok (List.map_congr_left fun b _ => ?_)
      exact given_given b e entries

/-- Giving fails at the first key that is none of the names. -/
theorem giveAll_of_unknown {binds : List Bind} {before after : List (Value × Value)}
    {key v : Value} (hbefore : ∀ e ∈ before, Known (binds.map Bind.name) e.1)
    (hkey : ¬Known (binds.map Bind.name) key) :
    giveAll binds (before ++ (key, v) :: after) = .error (.unknownBind (reported key)) := by
  induction before generalizing binds with
  | nil => rw [List.nil_append, giveAll, give_of_unknown hkey]
  | cons e before ih =>
      rw [List.cons_append, giveAll, give_of_known (hbefore e List.mem_cons_self)]
      dsimp only
      refine ih ?_ ?_
      · intro e' he'
        rw [map_name_given]
        exact hbefore e' (List.mem_cons_of_mem e he')
      · rwa [map_name_given]

/-! ### Templates -/

theorem name_openBinds (template : List Char) :
    (openBinds template).map Bind.name = bindNames (parts template) := by
  rw [openBinds, List.map_map]
  exact List.map_id _

theorem bindTemplate_of_known {template : List Char} {entries : List (Value × Value)}
    (h : ∀ e ∈ entries, Known (bindNames (parts template)) e.1) :
    bindTemplate template entries =
      .ok ⟨template, (openBinds template).map (Bind.given entries)⟩ := by
  rw [bindTemplate, giveAll_of_known (by rwa [name_openBinds])]
  rfl

theorem bindTemplate_of_unknown {template : List Char} {before after : List (Value × Value)}
    {key v : Value} (hbefore : ∀ e ∈ before, Known (bindNames (parts template)) e.1)
    (hkey : ¬Known (bindNames (parts template)) key) :
    bindTemplate template (before ++ (key, v) :: after) =
      .error (.unknownBind (reported key)) := by
  rw [bindTemplate, giveAll_of_unknown (by rwa [name_openBinds]) (by rwa [name_openBinds])]
  rfl

end RawSql

end TableQuery
