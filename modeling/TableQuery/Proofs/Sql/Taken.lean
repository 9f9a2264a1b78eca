/-
Names that are taken, and those that take no other name's place.

A member of a list gets a name that no place has.  `freshName` looks for it among as many
candidates as names are taken, and since the candidates differ one of them is free
(`exists_free`); so which one it is depends on what is taken of the candidates and on
nothing else (`freshName_congr`).

A clause behind the condition of a query has places of its own, one for each of its numbers.
Their names have one underscore and those of members have two at least, so the lists before the
clause are written as without it: `prepareAfter_append_clause` says that a statement with
such a clause is the statement without, with the clause behind its text and the numbers
behind its values.
-/
import Mathlib.Data.List.Perm.Subperm
import Mathlib.Data.Nat.Find
import TableQuery.Proofs.Sql.Clauses

namespace TableQuery

namespace Sql

variable {d : Dialect}

/-! ### Fresh names -/

/-- The candidate of a number that is tried in the place of a taken name. -/
def candidate (name : String) (i : Nat) : String := name ++ "__" ++ toString (i + 1)

theorem toList_candidate (name : String) (i : Nat) :
    (candidate name i).toList = name.toList ++ '_' :: '_' :: Nat.toDigits 10 (i + 1) := by
  simp [candidate, Nat.toString_eq_repr]

theorem candidate_injective {name : String} {i j : Nat} (h : candidate name i = candidate name j) :
    i = j := by
  have hlists := congrArg String.toList h
  rw [toList_candidate, toList_candidate, List.append_cancel_left_eq] at hlists
  have hdigits : Nat.toDigits 10 (i + 1) = Nat.toDigits 10 (j + 1) := by simpa using hlists
  have hnumber := congrArg (Nat.ofDigitChars 10 · 0) hdigits
  simp only [Nat.ofDigitChars_ten_toDigits] at hnumber
  omega

theorem candidate_ne (name : String) (i : Nat) : candidate name i ≠ name := by
  intro h
  have hlength := congrArg (·.toList.length) h
  simp [toList_candidate] at hlength

/-- **Of the candidates for a taken name one is free**, for there are as many as taken
names, and the name itself is one of these. -/
theorem exists_free {taken : List String} {name : String} (h : name ∈ taken) :
    ∃ i < taken.length, candidate name i ∉ taken := by
  by_contra hnone
  simp only [not_exists, not_and, not_not] at hnone
  have hnodup : (name :: (List.range taken.length).map (candidate name)).Nodup := by
    refine List.nodup_cons.mpr ⟨fun hmem => ?_, ?_⟩
    · obtain ⟨i, -, hi⟩ := List.mem_map.mp hmem
      exact candidate_ne name i hi
    · exact List.nodup_range.map fun i j hij => candidate_injective hij
  have hsubset : name :: (List.range taken.length).map (candidate name) ⊆ taken := by
    intro x hx
    rcases List.mem_cons.mp hx with rfl | hx
    · exact h
    · obtain ⟨i, hi, rfl⟩ := List.mem_map.mp hx
      exact hnone i (List.mem_range.mp hi)
  have hlength := (List.subperm_of_subset hnodup hsubset).length_le
  simp only [List.length_cons, List.length_map, List.length_range] at hlength
  omega

/-- A taken name is replaced by the first candidate that is free. -/
theorem freshName_eq_candidate {taken : List String} {name : String} (h : name ∈ taken) {i : Nat}
    (hfree : candidate name i ∉ taken) (hfirst : ∀ j < i, candidate name j ∈ taken) :
    freshName taken name = candidate name i := by
  obtain ⟨j, hj, hjfree⟩ := exists_free h
  have hij : i ≤ j := by
    by_contra hlt
    exact hjfree (hfirst j (by omega))
  have hfind : (List.range taken.length).find? (fun k => !taken.contains (candidate name k)) =
      some i := by
    rw [List.find?_range_eq_some]
    refine ⟨by simpa using hfree, List.mem_range.mpr (by omega), fun k hk => ?_⟩
    simpa using hfirst k hk
  have hcontains : taken.contains name = true := by simpa using h
  rw [freshName, if_pos hcontains]
  show (((List.range taken.length).map (candidate name)).find? _).getD name = _
  rw [List.find?_map]
  show ((List.find? (fun k => !taken.contains (candidate name k)) _).map _).getD name = _
  rw [hfind]
  rfl

/-- **Which name is fresh depends on what is taken of it and its candidates.** -/
theorem freshName_congr {taken taken' : List String} {name : String}
    (hname : name ∈ taken ↔ name ∈ taken')
    (hcandidates : ∀ i, candidate name i ∈ taken ↔ candidate name i ∈ taken') :
    freshName taken name = freshName taken' name := by
  by_cases h : name ∈ taken
  · have hexists : ∃ i, candidate name i ∉ taken := by
      obtain ⟨i, -, hi⟩ := exists_free h
      exact ⟨i, hi⟩
    classical
    have hfree := Nat.find_spec hexists
    have hfirst : ∀ j < Nat.find hexists, candidate name j ∈ taken := by
      intro j hj
      exact not_not.mp (Nat.find_min hexists hj)
    rw [freshName_eq_candidate h hfree hfirst, freshName_eq_candidate (hname.mp h)
      (fun hmem => hfree ((hcandidates _).mpr hmem)) (fun j hj => (hcandidates j).mp (hfirst j hj))]
  · have h' : name ∉ taken' := fun hmem => h (hname.mpr hmem)
    rw [freshName, freshName, if_neg (by simpa using h), if_neg (by simpa using h')]

/-! ### Underscores -/

/-- How many underscores a name has. -/
def underscores (name : String) : Nat := name.toList.count '_'

theorem count_toDigits (k : Nat) : (Nat.toDigits 10 k).count '_' = 0 := by
  rw [List.count_eq_zero]
  intro h
  have hdigit := Nat.isDigit_of_mem_toDigits (by decide) (by decide) h
  revert hdigit
  decide

theorem underscores_numbered (name : String) (k : Nat) :
    underscores (name ++ "_" ++ toString k) = underscores name + 1 := by
  simp [underscores, Nat.toString_eq_repr, count_toDigits]

theorem underscores_candidate (name : String) (i : Nat) :
    underscores (candidate name i) = underscores name + 2 := by
  simp [underscores, toList_candidate, count_toDigits]

theorem underscores_countedPlaceholder (base : String) (k : Nat) :
    underscores (countedPlaceholder base k) = underscores (placeholderName base) + 1 := by
  simp [underscores, toList_countedPlaceholder, count_toDigits]

/-- The members of a list have an underscore more than the list. -/
theorem underscores_members {m : Members} {name n : String} (h : n ∈ m.names name) :
    underscores name < underscores n := by
  have hnumbered : ∀ {name : String} {count : Nat}, n ∈ Members.numbered name count →
      underscores n = underscores name + 1 := by
    intro name count hn
    obtain ⟨i, -, rfl⟩ := List.mem_map.mp hn
    exact underscores_numbered name (i + 1)
  have hgroups : ∀ (gs : List (List Value)) (i : Nat), n ∈ Members.groupNames name i gs →
      underscores name < underscores n := by
    intro gs
    induction gs with
    | nil => intro i hn; cases hn
    | cons g gs ih =>
        intro i hn
        rcases List.mem_append.mp hn with hn | hn
        · rw [hnumbered hn, underscores_numbered]
          omega
        · exact ih (i + 1) hn
  cases m with
  | single vs =>
      rw [hnumbered h]
      omega
  | groups gs => exact hgroups gs 1 h

/-! ### Names that are in no member's way -/

/-- Whether names have too few underscores to be those of members. -/
def AreShort (names : List String) : Prop := ∀ n ∈ names, underscores n ≤ 1

variable {taken more : List String}

theorem freshName_of_areShort (hmore : AreShort more) {name : String} (hname : 2 ≤ underscores name)
    (used : List String) :
    freshName (taken ++ more ++ used) name = freshName (taken ++ used) name := by
  have hnot : ∀ n, 2 ≤ underscores n → n ∉ more := by
    intro n hn hmem
    have hshort := hmore n hmem
    omega
  have hmem : ∀ n, 2 ≤ underscores n → (n ∈ taken ++ more ++ used ↔ n ∈ taken ++ used) := by
    intro n hn
    simp [hnot n hn]
  refine freshName_congr (hmem name hname) fun i => hmem _ ?_
  rw [underscores_candidate]
  omega

/-- Such names change nothing about a list that has an underscore in its name. -/
theorem listStretch_of_areShort (hmore : AreShort more) (used : List String) {name : String}
    (hname : 1 ≤ underscores name) (type : SqlType) (use : ListUse) (vs : List Value) :
    listStretch d (taken ++ more ++ used) name type use vs =
      listStretch d (taken ++ used) name type use vs := by
  cases vs with
  | nil => rfl
  | cons v vs =>
      rw [listStretch, listStretch]
      · cases Members.ofList type (v :: vs) with
        | error e => rfl
        | ok m =>
            have hnames : (m.names name).map (freshName (taken ++ more ++ used)) =
                (m.names name).map (freshName (taken ++ used)) := by
              refine List.map_congr_left fun n hn => freshName_of_areShort hmore ?_ used
              have hlonger := underscores_members hn
              omega
            dsimp only
            rw [hnames]
      · simp
      · simp

/-- **Lists are written the same beside short names.** -/
theorem stretches_of_areShort (hmore : AreShort more) (written : List (String × Rendered))
    {xs : List Placed} (hxs : ∀ name ∈ xs.filterMap Placed.listName?, 1 ≤ underscores name) :
    stretches d (taken ++ more) written xs = stretches d taken written xs := by
  induction xs generalizing written with
  | nil => rfl
  | cons x xs ih =>
      cases x with
      | text s | value p =>
          rw [List.filterMap_cons_none (f := Placed.listName?) rfl] at hxs
          rw [stretches, stretches, ih _ hxs]
      | missing name => rfl
      | spread name type vs =>
          rw [List.filterMap_cons_none (f := Placed.listName?) rfl] at hxs
          rw [stretches, stretches]
          cases Members.ofList type vs with
          | error e => rfl
          | ok m =>
              dsimp only
              rw [ih _ hxs]
      | members name type use vs =>
          rw [List.filterMap_cons_some (f := Placed.listName?) rfl] at hxs
          obtain ⟨hname, htail⟩ := List.forall_mem_cons.mp hxs
          rw [stretches, stretches]
          cases written.lookup name with
          | some r =>
              dsimp only
              rw [ih _ htail]
          | none =>
              dsimp only
              rw [listStretch_of_areShort hmore _ hname]
              cases listStretch d (taken ++ written.flatMap (fun w => w.2.parameters.map (·.name)))
                  name type use vs with
              | error e => rfl
              | ok r =>
                  dsimp only
                  rw [ih _ htail]

/-! ### Clauses of words and whole numbers -/

/-- Whether a piece belongs to a clause of words and whole numbers. -/
def Piece.IsClausal : Piece → Prop
  | .text _ | .name _ => True
  | .value slot v => slot = ⟨"param", true, .integer⟩ ∧ ∃ n, v = .int n
  | .members _ _ _ | .missing _ => False

/-- A statement with a clause behind it: the text of the clause, and its values behind those
of each row. -/
def Prepared.before (text : String) (vs : List Value) (p : Prepared) : Prepared :=
  ⟨p.sql ++ text, p.rows.map (· ++ vs), p.many⟩

theorem Prepared.after_before (head text : String) (vs : List Value) (p : Prepared) :
    (p.before text vs).after head = (p.after head).before text vs := by
  simp [Prepared.after, Prepared.before, String.append_assoc]

/-- The parts of such a clause are written alone, their names are short, and their numbers
are handed over as they are. -/
theorem place_clause {n : Naming} (hn : n.own = []) {qs : List Piece}
    (hqs : ∀ q ∈ qs, q.IsClausal) (hnamed : Named qs) :
    ∃ ys, place d n qs = .ok ys ∧ (∀ y ∈ ys, y.IsAlone) ∧ AreShort (ys.filterMap Placed.name?) ∧
      storedAll d (Rendered.concat (ys.map (Placed.alone d))).parameters =
        .ok (qs.flatMap Piece.operands) := by
  induction qs generalizing n with
  | nil => exact ⟨[], rfl, by simp, by simp [AreShort], rfl⟩
  | cons q qs ih =>
      obtain ⟨hq, hrest⟩ := List.forall_mem_cons.mp hqs
      obtain ⟨hname, hnames⟩ := List.forall_mem_cons.mp hnamed
      have hword : ∀ (s : String), q.operands = [] →
          ∃ ys, (place d n qs).map (.text s :: ·) = .ok ys ∧ (∀ y ∈ ys, y.IsAlone) ∧
            AreShort (ys.filterMap Placed.name?) ∧
            storedAll d (Rendered.concat (ys.map (Placed.alone d))).parameters =
              .ok ((q :: qs).flatMap Piece.operands) := by
        intro s hoperands
        obtain ⟨ys, hys, halone, hshort, hstored⟩ := ih hn hrest hnames
        refine ⟨.text s :: ys, by rw [hys]; rfl, List.forall_mem_cons.mpr ⟨trivial, halone⟩,
          hshort, ?_⟩
        rw [List.flatMap_cons, hoperands, List.nil_append, List.map_cons, concat_cons]
        exact hstored
      cases q with
      | text s => exact hword s rfl
      | name s =>
          have hs : s ≠ "" := fun hs => hname (by rw [hs])
          rw [place, writeName, if_neg hs]
          exact hword _ rfl
      | value slot v =>
          obtain ⟨rfl, k, rfl⟩ := hq
          have hown := Naming.own_next n (countedName "param")
          obtain ⟨ys, hys, halone, hshort, hstored⟩ := ih (hown.trans hn) hrest hnames
          rw [place, placeholder_ok rfl hn]
          refine ⟨.value ⟨countedPlaceholder (countedName "param")
              (n.count (countedName "param") + 1), .integer, .int k⟩ :: ys, ?_,
            List.forall_mem_cons.mpr ⟨trivial, halone⟩, ?_, ?_⟩
          · show (place d (n.next (countedName "param")).2 qs).map _ = _
            rw [hys]
            rfl
          · refine List.forall_mem_cons.mpr ⟨?_, hshort⟩
            have hbase : underscores (placeholderName (countedName "param")) = 0 := by
              decide
            rw [underscores_countedPlaceholder, hbase]
          · rw [List.map_cons, concat_cons]
            exact collect_cons_eq_ok.mpr ⟨.int k, _, rfl, hstored, rfl⟩
      | members slot use vs | missing slot => exact hq.elim

/-- What the number of a clause is named after is written like nothing else. -/
theorem base_of_param {base : String}
    (h : placeholderName base = placeholderName (countedName "param")) :
    placeholderName base = base := by
  refine placeholderName_of_plain ?_
  rw [h]
  decide

/-- The names of a clause are numbers of one base that stands as it is. -/
theorem name_of_clause {n : Naming} {qs : List Piece} (hqs : ∀ q ∈ qs, q.IsClausal) :
    ∀ name ∈ placeNames n qs, ∃ k : Nat, name = countedName "param" ++ "_" ++ toString k := by
  have hcounted : ∀ q ∈ qs, q.IsCounted := by
    intro q hq
    have hclausal := hqs q hq
    cases q with
    | text s | name s | missing slot => trivial
    | value slot v =>
        obtain ⟨rfl, -⟩ := hclausal
        rfl
    | members slot use vs => exact hclausal.elim
  intro name hname
  obtain ⟨s, hs, hk⟩ := mem_placeNames hcounted name hname
  obtain ⟨q, hq, hslot⟩ := List.mem_filterMap.mp hs
  have hclausal := hqs q hq
  cases q with
  | value slot v =>
      obtain ⟨rfl, -⟩ := hclausal
      cases hslot
      exact hk
  | members slot use vs => exact hclausal.elim
  | text s | name s | missing slot => cases hslot

/-- **The numbers of a clause are not read by counted places**, and read nothing else. -/
theorem areApart_clause {n m : Naming} {ps qs : List Piece} {xs ys : List Placed}
    (hps : ∀ p ∈ ps, p.IsCounted) (hqs : ∀ q ∈ qs, q.IsClausal) (hxs : place d n ps = .ok xs)
    (hys : place d m qs = .ok ys) :
    AreApart ((bindNames n ps).zip xs) ((bindNames m qs).zip ys) := by
  intro y hy
  cases hname : y.1 with
  | none => exact ⟨isEscaped_of_none hname, readFor_of_none hname⟩
  | some name =>
      have hmem : name ∈ placeNames m qs := by
        rw [← filterMap_fst_of_place hys]
        exact List.mem_filterMap.mpr ⟨y, hy, hname⟩
      obtain ⟨k, rfl⟩ := name_of_clause hqs name hmem
      refine ⟨?_, ?_⟩
      · have hkept := countedPlaceholder_of_plain (base_of_param rfl) k
        rw [countedPlaceholder] at hkept
        rw [isEscaped, hname, Option.any_some, hkept, bne_self_eq_false]
      · -- A place that is written like a number is counted under its base.
        rcases readFor_cases Prod.fst ((bindNames n ps).zip xs) y with
          hself | ⟨x, hx, -, -, hescaped, hwritten⟩
        · exact hself
        · obtain ⟨other, hother, hchanged⟩ := isEscaped_iff.mp hescaped
          have hplace : other ∈ placeNames n ps := by
            rw [← filterMap_fst_of_place hxs]
            exact List.mem_filterMap.mpr ⟨x, hx, hother⟩
          obtain ⟨s, -, l, rfl⟩ := mem_placeNames hps other hplace
          simp only [writtenName?, hother, hname, Option.map_some, Option.some.injEq] at hwritten
          have hbase := base_of_param (countedPlaceholder_inj hwritten).1
          exact absurd (countedPlaceholder_of_plain hbase l) hchanged

/-- What is rendered of parts is rendered of them with further parts behind, where these are
written alone and apart from them, and their names are short. -/
theorem renderParts_append_alone (report : Reporting) {xs ys : List NamedPart}
    (hapart : AreApart xs ys) (halone : ∀ y ∈ ys.map Prod.snd, y.IsAlone)
    (hshort : AreShort ((ys.map Prod.snd).filterMap Placed.name?))
    (hlists : ∀ name ∈ (served d xs).filterMap Placed.listName?, 1 ≤ underscores name) :
    renderParts report d (xs ++ ys) =
      (renderParts report d xs).map (fun r =>
        r.andThen (Rendered.concat ((ys.map Prod.snd).map (Placed.alone d)))) := by
  have hexpand : expand d (served d xs ++ ys.map Prod.snd) =
      (expand d (served d xs)).map (fun r =>
        r.andThen (Rendered.concat ((ys.map Prod.snd).map (Placed.alone d)))) := by
    unfold expand
    rw [firstMissing_append, firstMissing_of_isAlone halone, Option.or_none,
      List.filterMap_append]
    cases firstMissing (served d xs) with
    | some name => rfl
    | none =>
        dsimp only
        rw [stretches_append_alone _ _ _ halone, stretches_of_areShort hshort _ hlists, map_map,
          map_map]
        simp only [concat_append]
  unfold renderParts
  rw [areMerged_append fun y hy => (hapart y hy).1, served_append hapart, unlisted?_append hapart,
    hexpand]
  split
  · rfl
  · cases expand d (served d xs) with
    | error e => rfl
    | ok r => cases unlisted? d xs <;> rfl

/-- The lists of parts that are served have names of lists that were placed. -/
theorem listName_of_served {xs : List NamedPart} {name : String}
    (h : name ∈ (served d xs).filterMap Placed.listName?) :
    name ∈ (xs.map Prod.snd).filterMap Placed.listName? := by
  obtain ⟨part, hpart, hname⟩ := List.mem_filterMap.mp h
  obtain ⟨read, hserved, -, hread⟩ := exists_read d xs
  rw [hserved] at hpart
  obtain ⟨x, hx, rfl⟩ := List.mem_map.mp hpart
  -- A part with a list's name is itself a list, or reads one that stands elsewhere.
  have hcases : ∀ {a b : Placed}, (a.reading b).listName? = some name →
      a.listName? = some name ∨ b.listName? = some name := by
    intro a b hab
    cases a <;> cases b <;> first | exact .inr hab | cases hab
  rcases hcases hname with hself | hother
  · exact List.mem_filterMap.mpr ⟨x.2, List.mem_map_of_mem hx, hself⟩
  · exact List.mem_filterMap.mpr ⟨(read x).2, List.mem_map_of_mem (hread x hx).1, hother⟩

/-- **A clause of words and whole numbers goes behind a statement**, which is prepared as
without it. -/
theorem prepareAfter_append_clause {n : Naming} (hn : n.own = []) {ps qs : List Piece}
    (hps : ∀ p ∈ ps, p.IsCounted) (hqs : ∀ q ∈ qs, q.IsClausal) (hnamed : Named qs) :
    ∃ text, Writes d qs text ∧
      prepareAfter d n (ps ++ qs) =
        (prepareAfter d n ps).map (Prepared.before text (qs.flatMap Piece.operands)) := by
  have hown : (n.after ps).own = [] := (own_after hps).trans hn
  obtain ⟨ys, hys, halone, hshort, hstored⟩ := place_clause (d := d) hown hqs hnamed
  refine ⟨(Rendered.concat (ys.map (Placed.alone d))).sql, ?_, ?_⟩
  · refine ⟨_, ys, [], [], ys.map (Placed.alone d), hys, ?_, rfl⟩
    have hall := stretches_alone_append (d := d) [] [] halone []
    rw [List.append_nil] at hall
    rw [hall, stretches]
    simp [Except.map]
  · rw [prepareAfter_eq, prepareAfter_eq, place_append_eq, hys]
    cases hplaced : place d n ps with
    | error e => rfl
    | ok xs =>
        have hlists : ∀ name ∈ (served d ((bindNames n ps).zip xs)).filterMap Placed.listName?,
            1 ≤ underscores name := by
          intro name hname
          have hplace := listName_of_served hname
          rw [map_snd_of_place hplaced] at hplace
          obtain ⟨s, -, k, -, rfl⟩ := listName_of_place hps hplaced name hplace
          rw [underscores_countedPlaceholder]
          omega
        have hparts := map_snd_of_place hys
        show prepareParts d ((bindNames n (ps ++ qs)).zip (xs ++ ys)) =
          (prepareParts d ((bindNames n ps).zip xs)).map _
        rw [zip_bindNames_append hplaced, prepareParts, prepareParts,
          renderParts_append_alone _ (areApart_clause hps hqs hplaced hys)
            (by rwa [hparts]) (by rwa [hparts]) hlists, hparts]
        cases renderParts whenRun d ((bindNames n ps).zip xs) with
        | error e => rfl
        | ok r =>
            simp only [Except.map, Except.bind, Rendered.andThen, storedAll_append, hstored]
            cases storedAll d r.parameters <;> rfl

end Sql

end TableQuery
