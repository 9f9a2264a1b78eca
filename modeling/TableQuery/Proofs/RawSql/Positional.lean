/-
Positional arguments reach the driver as they were given.

`bind_positional_faithful` follows a raw statement from its text to what a driver gets
that knows placeholders by position: the text is the one given, with each placeholder
replaced by what its argument is written as, and the values are those of the arguments
in order.  What an argument is written as is a matter of that argument and the dialect
alone (`written`), so no argument can end up in the place of another.

The names p0, p1 and so on only carry the arguments from one reading to the next.  They
differ and are written as they are, which is why each bind finds its own value, why every place
reads its own bind, and why no list is taken for one that has been written before.
-/
import TableQuery.Proofs.RawSql.Giving
import TableQuery.Proofs.RawSql.Places
import TableQuery.Proofs.Sql.Marks
import TableQuery.Proofs.Sql.Serving

namespace TableQuery

namespace RawSql

/-! ### What is expected -/

/-- The members of an argument that is bound member by member. -/
def expanded? : Value → Option (List Value)
  | .list vs | .tuple vs | .set vs => some vs
  | _ => none

/-- Whether the members of a list are written as groups of their own. -/
def isNested : List Value → Bool
  | .list _ :: _ | .tuple _ :: _ => true
  | _ => false

/-- What an argument is written as, and the values that it hands over: one mark, or
between parentheses one mark for each member, or one group of them for each nested
member; a list without members is the empty set of the dialect. -/
def written (d : Dialect) (v : Value) : Except ParameterError (String × List Value) :=
  match expanded? v with
  | none => .ok ("?", [v])
  | some [] => (Sql.emptyList d .bare).map (fun s => ("(" ++ s ++ ")", []))
  | some vs =>
    if isNested vs then
      (collect Sql.groupMembers vs).bind (fun gs =>
        ((Sql.Members.groups gs).marked d).map (fun s => ("(" ++ s ++ ")", gs.flatten)))
    else .ok ("(" ++ Sql.marks vs.length ++ ")", vs)

/-- The text of places, with texts for the placeholders. -/
def fill : List (Option Char) → List String → String
  | [], _ => ""
  | some c :: xs, ts => String.ofList [c] ++ fill xs ts
  | none :: xs, t :: ts => t ++ fill xs ts
  | none :: xs, [] => fill xs []

/-- The text of a placeholder. -/
def Segment.mark? : Segment → Option String
  | .placeholder percent => some (if percent then "%s" else "?")
  | _ => none

theorem fill_append (cs : List Char) (xs : List (Option Char)) (ts : List String) :
    fill (cs.map some ++ xs) ts = String.ofList cs ++ fill xs ts := by
  induction cs with
  | nil => simp
  | cons c cs ih =>
      rw [List.map_cons, List.cons_append, fill, ih, ← String.append_assoc, ← String.ofList_append]
      rfl

/-- With its own placeholders a text is itself. -/
theorem fill_places (ss : List Segment) :
    fill (places ss) (ss.filterMap Segment.mark?) = String.ofList (ss.flatMap Segment.chars) := by
  induction ss with
  | nil => rfl
  | cons s ss ih =>
      rw [places, List.flatMap_cons, ← places, List.flatMap_cons, String.ofList_append, ← ih]
      cases s with
      | placeholder percent => cases percent <;> rfl
      | ordinary c => exact fill_append [c] _ _
      | shielded cs => exact fill_append cs _ _
      | colon => exact fill_append [':'] _ _

/-! ### Binds -/

/-- The binds of arguments of which the first has the number `i`. -/
def bindsFrom (i : Nat) (vs : List Value) : List Bind :=
  vs.mapIdx (fun j v => bindOf (positionName (i + j)) v)

theorem bindsFrom_cons (i : Nat) (v : Value) (vs : List Value) :
    bindsFrom i (v :: vs) = bindOf (positionName i) v :: bindsFrom (i + 1) vs := by
  rw [bindsFrom, List.mapIdx_cons, bindsFrom, Nat.add_zero]
  simp only [Nat.add_assoc, Nat.add_comm 1]

theorem distinct_of_nodup {names : List String} (h : names.Nodup) : distinct names = names := by
  induction names with
  | nil => rfl
  | cons name names ih =>
      obtain ⟨hmem, hnodup⟩ := List.nodup_cons.mp h
      rw [distinct, ih hnodup, List.filter_eq_self.mpr]
      intro other hother
      exact bne_iff_ne.mpr fun heq => hmem (heq ▸ hother)

theorem bindNames_placeParts (i : Nat) (xs : List (Option Char)) :
    bindNames (placeParts i xs) = (List.range' i (xs.count none)).map positionName := by
  have hnames : (placeParts i xs).filterMap Part.name? =
      (List.range' i (xs.count none)).map positionName := by
    induction xs generalizing i with
    | nil => rfl
    | cons x xs ih =>
        cases x with
        | none =>
            rw [placeParts, List.filterMap_cons_some (b := positionName i)
              (by simp [Part.name?]), ih, List.count_cons_self, List.range'_succ, List.map_cons]
        | some c =>
            rw [placeParts, List.filterMap_cons_none rfl, ih, List.count_cons_of_ne (by simp)]
  rw [bindNames, hnames, distinct_of_nodup]
  refine List.pairwise_map.mpr (List.Pairwise.imp ?_ List.nodup_range')
  intro j k hne heq
  exact hne (positionName_injective heq)

theorem positionName_ne_empty (i : Nat) : positionName i ≠ "" := by
  intro heq
  have hlist := congrArg String.toList heq
  rw [toList_positionName] at hlist
  simp at hlist

theorem keyName?_positionName (i : Nat) :
    keyName? (.text (positionName i)) = some (positionName i) := by
  rw [keyName?, if_neg (positionName_ne_empty i)]

theorem mem_positionalArguments {i : Nat} {vs : List Value} {e : Value × Value}
    (h : e ∈ positionalArguments i vs) :
    ∃ j, i ≤ j ∧ j < i + vs.length ∧ e.1 = .text (positionName j) := by
  induction vs generalizing i with
  | nil => simp [positionalArguments] at h
  | cons v vs ih =>
      rw [List.length_cons]
      rcases List.mem_cons.mp h with rfl | h
      · exact ⟨i, Nat.le_refl i, by omega, rfl⟩
      · obtain ⟨j, hle, hlt, hkey⟩ := ih h
        exact ⟨j, by omega, by omega, hkey⟩

/-- The argument that is given for a number. -/
theorem given?_positionalArguments (j i : Nat) (vs : List Value) :
    given? (positionName j) (positionalArguments i vs) = if j < i then none else vs[j - i]? := by
  induction vs generalizing i with
  | nil => simp [positionalArguments, given?]
  | cons v vs ih =>
      rw [positionalArguments, given?, ih, keyName?_positionName]
      by_cases heq : i = j
      · subst heq
        simp
      · have hne : positionName i ≠ positionName j := fun h => heq (positionName_injective h)
        rw [if_neg (mt Option.some.inj hne), Option.or_none]
        by_cases hlt : j < i
        · rw [if_pos hlt, if_pos (by omega)]
        · rw [if_neg hlt, if_neg (by omega), show j - i = j - (i + 1) + 1 by omega,
            List.getElem?_cons_succ]

/-- Binding as many arguments as there are placeholders is giving them to the template. -/
theorem bind_positional {escapes : Bool} {sql : String} {args : List Value} {ss : List Segment}
    (hscan : Scan escapes sql.toList ss) (hcount : placeholderCount ss = args.length)
    (hargs : ∀ entries, args ≠ [.map entries]) :
    bind escapes sql args =
      bindTemplate (positionalTemplate 0 ss) (positionalArguments 0 args) := by
  unfold bind
  rw [← scan_iff.mp hscan]
  dsimp only
  split
  · rename_i entries
    exact absurd rfl (hargs entries)
  · exact if_pos hcount

/-- Where the placeholders can be told from their neighbours binding succeeds, and gives every
placeholder its argument. -/
theorem bind_of_legible {escapes : Bool} {sql : String} {args : List Value} {ss : List Segment}
    (hscan : Scan escapes sql.toList ss) (hlegible : Legible ss)
    (hcount : placeholderCount ss = args.length) (hargs : ∀ entries, args ≠ [.map entries]) :
    bind escapes sql args = .ok ⟨positionalTemplate 0 ss, bindsFrom 0 args⟩ := by
  have hnames : bindNames (parts (positionalTemplate 0 ss)) =
      (List.range' 0 args.length).map positionName := by
    rw [parts, partsFrom_positionalTemplate nameClass_isWord hscan hlegible, bindNames_placeParts,
      count_places, hcount]
  have hknown : ∀ e ∈ positionalArguments 0 args,
      Known (bindNames (parts (positionalTemplate 0 ss))) e.1 := by
    intro e he
    obtain ⟨j, -, hlt, hkey⟩ := mem_positionalArguments he
    rw [hnames, hkey]
    refine ⟨_, keyName?_positionName j, List.mem_map_of_mem ?_⟩
    exact List.mem_range'_1.mpr ⟨Nat.zero_le j, hlt⟩
  have hbinds : (openBinds (positionalTemplate 0 ss)).map
      (Bind.given (positionalArguments 0 args)) = bindsFrom 0 args := by
    rw [openBinds, hnames, List.map_map, List.map_map]
    refine List.ext_getElem (by simp [bindsFrom]) fun k hk _ => ?_
    have hlt : k < args.length := by simpa using hk
    simp [Bind.given, given?_positionalArguments, hlt, bindsFrom]
  rw [bind_positional hscan hcount hargs, bindTemplate_of_known hknown, hbinds]

/-! ### Parts of the statement -/

/-- What an argument is placed as under a name. -/
def placedOf (name : String) (v : Value) : List Sql.Placed :=
  match expanded? v with
  | some vs => [.text "(", .members name (SqlType.ofParameter .unknown vs) .bare vs, .text ")"]
  | none => [.value ⟨name, SqlType.ofParameter .unknown [v], v⟩]

/-- What places are placed as, with arguments for the placeholders. -/
def placedFrom : Nat → List (Option Char) → List Value → List Sql.Placed
  | _, [], _ => []
  | i, some c :: xs, vs => .text (String.ofList [c]) :: placedFrom i xs vs
  | i, none :: xs, v :: vs => placedOf (positionName i) v ++ placedFrom (i + 1) xs vs
  | i, none :: xs, [] => placedFrom (i + 1) xs []

theorem placeholderChar_of_isWord {c : Char} (h : isWord c = true) : Sql.placeholderChar c = c := by
  have hne : ∀ d, isWord d = false → c ≠ d := by
    rintro d hd rfl
    rw [h] at hd
    simp at hd
  have hpercent := hne '%' (by decide)
  have hopen := hne '(' (by decide)
  have hclose := hne ')' (by decide)
  have hcolon := hne ':' (by decide)
  have hdot := hne '.' (by decide)
  have hleft := hne '[' (by decide)
  have hright := hne ']' (by decide)
  have hblank := hne ' ' (by decide)
  simp [Sql.placeholderChar, hpercent, hopen, hclose, hcolon, hdot, hleft, hright, hblank]

theorem placeholderName_positionName (i : Nat) :
    Sql.placeholderName (positionName i) = positionName i := by
  have hchars : (positionName i).toList.map Sql.placeholderChar = (positionName i).toList := by
    refine (List.map_congr_left fun c hc => ?_).trans (List.map_id _)
    exact placeholderChar_of_isWord (isWord_of_mem_positionName hc)
  rw [Sql.placeholderName, hchars, String.ofList_toList]

/-- A bind is placed under its own name. -/
theorem place_bindOf {d : Dialect} {n : Sql.Naming} {ps : List Sql.Piece}
    {placed : List Sql.Placed} (i : Nat) (v : Value)
    (h : ∀ m, Sql.place d m ps = .ok placed) :
    Sql.place d n ((bindOf (positionName i) v).pieces ++ ps) =
      .ok (placedOf (positionName i) v ++ placed) := by
  have hname : ∀ (vs : List Value) (m : Sql.Naming),
      (bindSlot (positionName i) vs).placeholder m =
        .ok (positionName i, { m with own := positionName i :: m.own }) := by
    intro vs m
    show Except.ok (Sql.placeholderName (positionName i), _) = _
    rw [placeholderName_positionName]
    rfl
  have hpieces : (bindOf (positionName i) v).pieces =
      match expanded? v with
      | some vs => [.text "(", .members (bindSlot (positionName i) vs) .bare vs, .text ")"]
      | none => [.value (bindSlot (positionName i) [v]) v] := by
    cases v <;> rfl
  rw [hpieces, placedOf]
  cases expanded? v with
  | none =>
      rw [List.singleton_append, Sql.place, hname]
      dsimp only
      rw [h]
      rfl
  | some vs =>
      dsimp only
      rw [List.cons_append, List.cons_append, List.singleton_append, Sql.place, Sql.place, hname]
      dsimp only
      rw [Sql.place, h]
      rfl

theorem find?_bindsFrom {vs : List Value} (i : Nat) {j : Nat} {v : Value}
    (h : vs[j]? = some v) :
    (bindsFrom i vs).find? (fun b => b.name == positionName (i + j)) =
      some (bindOf (positionName (i + j)) v) := by
  induction vs generalizing i j with
  | nil => simp at h
  | cons w vs ih =>
      rw [bindsFrom_cons]
      cases j with
      | zero =>
          obtain rfl : w = v := by simpa using h
          rw [Nat.add_zero, List.find?_cons_of_pos (by simp)]
      | succ j =>
          have hne : positionName i ≠ positionName (i + (j + 1)) := by
            intro heq
            have hij := positionName_injective heq
            omega
          rw [List.find?_cons_of_neg (by simpa using hne), show i + (j + 1) = i + 1 + j by omega]
          exact ih (i + 1) (by simpa using h)

/-- The parts of a template are placed as its places say. -/
theorem place_placeParts {d : Dialect} {binds : List Bind} {i : Nat} {xs : List (Option Char)}
    {vs : List Value} (hcount : xs.count none = vs.length)
    (hbinds : ∀ j v, vs[j]? = some v →
      binds.find? (fun b => b.name == positionName (i + j)) =
        some (bindOf (positionName (i + j)) v))
    (n : Sql.Naming) :
    Sql.place d n ((placeParts i xs).flatMap (Part.pieces binds)) = .ok (placedFrom i xs vs) := by
  induction xs generalizing i vs n with
  | nil => rfl
  | cons x xs ih =>
      cases x with
      | some c =>
          have hrest := ih (by simpa using hcount) hbinds
          rw [placeParts, List.flatMap_cons, placedFrom, Part.pieces, List.singleton_append,
            Sql.place, hrest]
          rfl
      | none =>
          rw [List.count_cons_self] at hcount
          obtain ⟨v, vs, rfl⟩ := List.exists_cons_of_length_eq_add_one hcount.symm
          have hlater : ∀ j w, vs[j]? = some w →
              binds.find? (fun b => b.name == positionName (i + 1 + j)) =
                some (bindOf (positionName (i + 1 + j)) w) := by
            intro j w hw
            rw [Nat.add_assoc, Nat.add_comm 1 j]
            exact hbinds (j + 1) w hw
          have hrest := ih (by simpa using hcount) hlater
          have hfound := hbinds 0 v rfl
          rw [Nat.add_zero] at hfound
          rw [placeParts, List.flatMap_cons, placedFrom, Part.pieces, String.ofList_toList, hfound]
          exact place_bindOf i v hrest

/-- The places of parts have the names of the parts. -/
theorem mem_placeNames_parts {binds : List Bind} {ps : List Part} (n : Sql.Naming) :
    ∀ name ∈ Sql.placeNames n (ps.flatMap (Part.pieces binds)), name ∈ bindNames ps := by
  have hbind : ∀ (b : Bind) (n : Sql.Naming),
      ∀ name ∈ Sql.placeNames n b.pieces, name = b.name := by
    intro b n
    obtain ⟨name, value, expanding⟩ := b
    cases value with
    | none => simp [Bind.pieces, Sql.placeNames, Sql.bindNames]
    | some v =>
        cases v with
        | list vs =>
            cases expanding <;>
              simp [Bind.pieces, bindSlot, Sql.placeNames, Sql.bindNames, Sql.Slot.bindName]
        | _ => simp [Bind.pieces, bindSlot, Sql.placeNames, Sql.bindNames, Sql.Slot.bindName]
  have hpart : ∀ (p : Part) (n : Sql.Naming), ∀ name ∈ Sql.placeNames n (p.pieces binds),
      p.name? = some name := by
    intro p n name hname
    cases p with
    | char c => simp [Part.pieces, Sql.placeNames, Sql.bindNames] at hname
    | bind cs =>
        rw [Part.pieces] at hname
        cases hfound : binds.find? (fun b => b.name == String.ofList cs) with
        | none =>
            rw [hfound] at hname
            simp [Sql.placeNames, Sql.bindNames] at hname
        | some b =>
            rw [hfound] at hname
            have hsame : b.name = String.ofList cs := by simpa using List.find?_some hfound
            rw [hbind b n name hname, hsame]
            rfl
  simp only [bindNames, mem_distinct]
  induction ps generalizing n with
  | nil => simp [Sql.placeNames, Sql.bindNames]
  | cons p ps ih =>
      intro name hname
      rw [List.flatMap_cons, Sql.placeNames_append, List.mem_append] at hname
      rcases hname with hname | hname
      · exact List.mem_filterMap.mpr ⟨p, List.mem_cons_self, hpart p n name hname⟩
      · obtain ⟨q, hq, hname⟩ := List.mem_filterMap.mp (ih _ name hname)
        exact List.mem_filterMap.mpr ⟨q, List.mem_cons_of_mem p hq, hname⟩

/-- Placeholders are written apart. -/
theorem writtenApart_placeParts (binds : List Bind) (i : Nat) (xs : List (Option Char))
    (n : Sql.Naming) :
    Sql.WrittenApart (Sql.placeNames n ((placeParts i xs).flatMap (Part.pieces binds))) := by
  have hplain : ∀ name ∈ Sql.placeNames n ((placeParts i xs).flatMap (Part.pieces binds)),
      Sql.placeholderName name = name := by
    intro name hname
    have hmem := mem_placeNames_parts n name hname
    rw [bindNames_placeParts] at hmem
    obtain ⟨j, -, rfl⟩ := List.mem_map.mp hmem
    exact placeholderName_positionName j
  intro a ha b hb hab
  rwa [hplain a ha, hplain b hb] at hab

/-! ### What is handed over -/

/-- The text and the values of a statement's stretches. -/
def handedOver (rs : List Sql.Rendered) : String × List Value :=
  ((Sql.Rendered.concat rs).sql, (Sql.Rendered.concat rs).parameters.map (·.value))

theorem handedOver_cons (r : Sql.Rendered) (rs : List Sql.Rendered) :
    handedOver (r :: rs) =
      (r.sql ++ (handedOver rs).1, r.parameters.map (·.value) ++ (handedOver rs).2) := by
  simp [handedOver, Sql.Rendered.concat]

theorem ofList_ofParameter (vs : List Value) :
    Sql.Members.ofList (SqlType.ofParameter .unknown vs) vs =
      if isNested vs then (collect Sql.groupMembers vs).map .groups else .ok (.single vs) := by
  have hgrouped : Sql.isGrouped (SqlType.ofParameter .unknown vs) vs = isNested vs := by
    cases vs with
    | nil => rfl
    | cons v vs => cases v <;> rfl
  rw [Sql.Members.ofList, hgrouped]

/-- A list is written between parentheses as its members are. -/
theorem written_of_expanded {d : Dialect} {v : Value} {vs : List Value}
    (h : expanded? v = some vs) :
    written d v = (Sql.listMarked d (SqlType.ofParameter .unknown vs) .bare vs).map
      (fun w => ("(" ++ w.1 ++ ")", w.2)) := by
  rw [written, h]
  cases vs with
  | nil =>
      rw [Sql.listMarked, map_map]
  | cons w vs =>
      rw [Sql.listMarked, ofList_ofParameter]
      · dsimp only
        split
        · cases collect Sql.groupMembers (w :: vs) with
          | error e => rfl
          | ok gs =>
              show _ = (((Sql.Members.groups gs).marked d).map _).map _
              rw [map_map]
              rfl
        · rfl
      · simp

/-- What stands between the parentheses of a list is handed over with them. -/
theorem map_handedOver_of_list {d : Dialect} {v : Value} {x : Except ParameterError Sql.Rendered}
    {whole rest : Except ParameterError (List Sql.Rendered)}
    (hwhole : whole = x.bind (fun r => rest.map (fun rs => ⟨"(", []⟩ :: r :: ⟨")", []⟩ :: rs)))
    (hwritten : written d v = x.map (fun r => ("(" ++ r.sql ++ ")", r.parameters.map (·.value)))) :
    whole.map handedOver =
      (written d v).bind (fun w =>
        (rest.map handedOver).map (fun r => (w.1 ++ r.1, w.2 ++ r.2))) := by
  rw [hwhole, hwritten]
  cases x with
  | error e => rfl
  | ok r =>
      cases rest with
      | error e => rfl
      | ok rs => simp [Except.bind, Except.map, handedOver_cons, String.append_assoc]

section Rendering

variable {d : Dialect} (hd : d.isPositional) {taken : List String}
include hd

/-- A bind whose name has not been written is written as its argument says, and leaves
the other names as they are. -/
theorem stretches_placedOf {done : List (String × Sql.Rendered)} {name : String}
    (hname : done.lookup name = none) (v : Value) (ps : List Sql.Placed) :
    ∃ done', (∀ other, other ≠ name → done'.lookup other = done.lookup other) ∧
      (Sql.stretches d taken done (placedOf name v ++ ps)).map handedOver =
        (written d v).bind (fun w => ((Sql.stretches d taken done' ps).map handedOver).map
          (fun r => (w.1 ++ r.1, w.2 ++ r.2))) := by
  cases hv : expanded? v with
  | none =>
      refine ⟨done, fun _ _ => rfl, ?_⟩
      rw [placedOf, written, hv]
      dsimp only
      rw [List.singleton_append, Sql.stretches, map_map, Sql.mark_of_isPositional hd]
      simp only [handedOver_cons, Except.bind, map_map]
      rfl
  | some vs =>
      have hplaced : placedOf name v ++ ps = .text "(" ::
          .members name (SqlType.ofParameter .unknown vs) .bare vs :: .text ")" :: ps := by
        rw [placedOf, hv]
        rfl
      have hwritten := written_of_expanded (d := d) hv
      rw [← Sql.listStretch_of_isPositional hd
        (taken ++ done.flatMap (fun w => w.2.parameters.map (·.name))) name, map_map] at hwritten
      rw [hplaced, Sql.stretches, Sql.stretches, hname]
      dsimp only
      cases hr : Sql.listStretch d (taken ++ done.flatMap (fun w => w.2.parameters.map (·.name)))
          name (SqlType.ofParameter .unknown vs) .bare vs with
      | error e =>
          refine ⟨done, fun _ _ => rfl, ?_⟩
          rw [hwritten, hr]
          rfl
      | ok r =>
          refine ⟨(name, r) :: done, ?_, ?_⟩
          · intro other hother
            rw [List.lookup_cons, beq_false_of_ne hother]
          · refine map_handedOver_of_list (x := .ok r) ?_ (hr ▸ hwritten)
            dsimp only [Except.bind]
            rw [Sql.stretches, map_map, map_map]

/-- The text of places with arguments, and the values of the arguments in order. -/
theorem stretches_placedFrom {done : List (String × Sql.Rendered)} {i : Nat}
    {xs : List (Option Char)} {vs : List Value} (hcount : xs.count none = vs.length)
    (hdone : ∀ j, i ≤ j → done.lookup (positionName j) = none) :
    (Sql.stretches d taken done (placedFrom i xs vs)).map handedOver =
      (collect (written d) vs).map (fun ws =>
        (fill xs (ws.map Prod.fst), ws.flatMap Prod.snd)) := by
  induction xs generalizing i vs done with
  | nil =>
      obtain rfl : vs = [] := List.eq_nil_of_length_eq_zero hcount.symm
      rfl
  | cons x xs ih =>
      cases x with
      | some c =>
          have hrest := congrArg (Except.map (fun r : String × List Value =>
            (String.ofList [c] ++ r.1, r.2))) (ih (by simpa using hcount) hdone)
          rw [map_map, map_map] at hrest
          rw [placedFrom, Sql.stretches, map_map]
          simp only [handedOver_cons, List.map_nil, List.nil_append]
          exact hrest
      | none =>
          rw [List.count_cons_self] at hcount
          obtain ⟨v, vs, rfl⟩ := List.exists_cons_of_length_eq_add_one hcount.symm
          obtain ⟨done', hkept, hfirst⟩ := stretches_placedOf hd (hdone i (Nat.le_refl i)) v
            (placedFrom (i + 1) xs vs)
          have hdone' : ∀ j, i + 1 ≤ j → done'.lookup (positionName j) = none := by
            intro j hj
            have hne : positionName j ≠ positionName i := by
              intro heq
              have hij := positionName_injective heq
              omega
            rw [hkept _ hne]
            exact hdone j (by omega)
          rw [placedFrom, hfirst, ih (by simpa using hcount) hdone', collect]
          cases written d v with
          | error e => rfl
          | ok w =>
              dsimp only [Except.bind]
              rw [map_map, map_map]
              rfl

end Rendering

theorem firstMissing_placedFrom (i : Nat) (xs : List (Option Char)) (vs : List Value) :
    Sql.firstMissing (placedFrom i xs vs) = none := by
  induction xs generalizing i vs with
  | nil => rfl
  | cons x xs ih =>
      cases x with
      | some c => exact ih i vs
      | none =>
          cases vs with
          | nil => exact ih (i + 1) []
          | cons v vs =>
              rw [placedFrom, placedOf]
              cases expanded? v with
              | none => exact ih (i + 1) vs
              | some ws => exact ih (i + 1) vs

/--
**Positional arguments are bound faithfully.**

For a text whose placeholders stand apart, and as many arguments as there are
placeholders, binding succeeds, and its binds are p0, p1 and so on, each with the argument
of its number.  For a driver that knows placeholders by position the statement is the
text given, with every placeholder replaced by what its argument is written as, and the
values are those of the arguments in order.  It fails only when an argument cannot be
written at all, as a list without members where the dialect has no empty set.
-/
theorem bind_positional_faithful {escapes : Bool} {sql : String} {args : List Value}
    {ss : List Segment} (hscan : Scan escapes sql.toList ss) (hapart : Apart ss)
    (hcount : placeholderCount ss = args.length) (hargs : ∀ entries, args ≠ [.map entries]) :
    ∃ b, bind escapes sql args = .ok b ∧
      bindNames (parts b.text) = (List.range args.length).map positionName ∧
      b.binds = args.mapIdx (fun i v => bindOf (positionName i) v) ∧
      fill (places ss) (ss.filterMap Segment.mark?) = sql ∧
      ∀ d : Dialect, d.isPositional →
        (Sql.render d b.pieces).map (fun r => (r.sql, r.parameters.map (·.value))) =
          ((collect (written d) args).map (fun ws =>
            (fill (places ss) (ws.map Prod.fst), ws.flatMap Prod.snd))).mapError .parameter := by
  obtain ⟨hparts, hwritten⟩ := parts_positionalTemplate hscan hapart
  have hplaces : (places ss).count none = args.length := (count_places ss).trans hcount
  refine ⟨_, bind_of_legible hscan hapart.legible hcount hargs, ?_, ?_, ?_, ?_⟩
  · rw [hparts, bindNames_placeParts, hplaces, List.range_eq_range']
  · rw [Bound.binds, List.filter_eq_self.mpr]
    · simp only [bindsFrom, Nat.zero_add]
    · intro b hb
      obtain ⟨j, hj, rfl⟩ := List.mem_mapIdx.mp hb
      rw [hwritten, bindNames_placeParts, hplaces, bindOf_name, List.contains_eq_mem,
        decide_eq_true_eq]
      exact List.mem_map_of_mem (List.mem_range'_1.mpr (by omega))
  · rw [fill_places, hscan.flatMap_chars, String.ofList_toList]
  · intro d hd
    have hpieces : Bound.pieces ⟨positionalTemplate 0 ss, bindsFrom 0 args⟩ =
        (placeParts 0 (places ss)).flatMap (Part.pieces (bindsFrom 0 args)) := by
      rw [Bound.pieces, hwritten]
    have hplaced : Sql.place d .empty (Bound.pieces ⟨positionalTemplate 0 ss, bindsFrom 0 args⟩) =
        .ok (placedFrom 0 (places ss) args) := by
      rw [hpieces]
      exact place_placeParts hplaces (fun j v hj => find?_bindsFrom 0 hj) .empty
    have hnamed := writtenApart_placeParts (bindsFrom 0 args) 0 (places ss) .empty
    rw [← hpieces] at hnamed
    have hstretches : ∀ taken, (Sql.stretches d taken [] (placedFrom 0 (places ss) args)).map
        handedOver = (collect (written d) args).map (fun ws =>
          (fill (places ss) (ws.map Prod.fst), ws.flatMap Prod.snd)) :=
      fun _ => stretches_placedFrom hd hplaces fun _ _ => rfl
    rw [Sql.render, Sql.renderAfter_of_apart _ hnamed, hplaced]
    dsimp only [Except.bind]
    rw [Sql.expand, firstMissing_placedFrom]
    dsimp only
    rw [← hstretches ((placedFrom 0 (places ss) args).filterMap Sql.Placed.name?)]
    cases Sql.stretches d ((placedFrom 0 (places ss) args).filterMap Sql.Placed.name?) []
        (placedFrom 0 (places ss) args) with
    | error e => rfl
    | ok rs => rfl

/-- A placeholder in a literal is part of the text, and a list takes a place of several
marks. -/
theorem bind_positional_faithful_literal :
    let args : List Value := [.int 18, .list [.text "u", .text "v"]]
    ∃ b, bind false "SELECT 'at :x ?' FROM t WHERE a::int = ? AND b IN %s" args = .ok b ∧
      (Sql.render .sqlite b.pieces).map (fun r => (r.sql, r.parameters.map (·.value))) =
        .ok ("SELECT 'at :x ?' FROM t WHERE a::int = ? AND b IN (?, ?)",
          [.int 18, .text "u", .text "v"]) := by
  intro args
  obtain ⟨b, hb, -, -, -, hrender⟩ := bind_positional_faithful
    (scan_segments false "SELECT 'at :x ?' FROM t WHERE a::int = ? AND b IN %s".toList)
    (by decide +kernel) (by decide +kernel : _ = args.length) (by simp [args])
  have hwritten : collect (written .sqlite) args =
      .ok [("?", [.int 18]), ("(?, ?)", [.text "u", .text "v"])] := rfl
  have hfill : fill (places (segments false
      "SELECT 'at :x ?' FROM t WHERE a::int = ? AND b IN %s".toList)) ["?", "(?, ?)"] =
        "SELECT 'at :x ?' FROM t WHERE a::int = ? AND b IN (?, ?)" := by decide +kernel
  refine ⟨b, hb, ?_⟩
  rw [hrender .sqlite (by simp [Dialect.isPositional]), hwritten, ← hfill]
  rfl

end RawSql

end TableQuery
