/-
What the neighbours of a placeholder do to it.

`bind_positional_outcome` says what becomes of every raw statement with positional arguments.
A wrong number of them is reported.  With the right number binding succeeds exactly for a text
in which the reading for names keeps every placeholder apart (`Legible`).  Otherwise it is an
argument that is reported, as one whose name the template does not have: in `LIMIT?` no colon
may start a bind behind the word, and in `?1` the digit becomes a part of the name.

That nothing else can happen is an argument about names.  A placeholder is read as nothing, or
as its own name with the word characters behind it, all but the last where they meet another
placeholder (`namesFrom_placeTemplate`).  Reading `p1` with a digit behind it may well give the
name of another placeholder, and so may retreating from the colon of the next.  But there is at most
one name for each placeholder.  So where all names are there, each placeholder gives one, none
stands behind another's word characters, and nothing is left over for the names to be longer than
they are (`legible_of_known`).
-/
import Mathlib.Data.List.Nodup
import Mathlib.Data.List.Perm.Subperm
import Mathlib.Data.Nat.Find
import TableQuery.Proofs.RawSql.Positional

namespace TableQuery

namespace RawSql

/-! ### The names that are read -/

/-- The names in a text after the character `previous`. -/
def namesFrom (previous : Option Char) (cs : List Char) : List String :=
  (partsFrom isWord true previous 0 cs).filterMap Part.name?

theorem namesFrom_char {previous : Option Char} {c : Char} {rest : List Char} (hc : c ≠ ':') :
    namesFrom previous (c :: rest) = namesFrom (some c) rest := by
  unfold namesFrom
  by_cases hescapes : Escapes isWord true c rest
  · rw [partsFrom_escape hescapes]
  · rw [partsFrom_char hc hescapes, List.filterMap_cons_none rfl]

theorem namesFrom_colon {previous : Option Char} {rest : List Char}
    (h : previous.any (blocksBind isWord) = true ∨ (nameAfter? isWord true rest).getD [] = []) :
    namesFrom previous (':' :: rest) = namesFrom (some ':') rest := by
  unfold namesFrom
  rw [partsFrom_colon h, List.filterMap_cons_none rfl]

/-- Whether or not its colon is escaped, a character of the text is no name. -/
theorem namesFrom_escaped (previous : Option Char) (c : Char) (rest : List Char) :
    namesFrom previous (escapeColons [c] ++ rest) = namesFrom (some c) rest := by
  rw [escapeColons_cons]
  by_cases hcolon : c = ':'
  · subst hcolon
    show namesFrom previous ('\\' :: ':' :: rest) = namesFrom (some ':') rest
    rw [namesFrom_char (by decide), namesFrom_colon (Or.inl rfl)]
  · rw [if_neg hcolon]
    exact namesFrom_char hcolon

theorem namesFrom_run {cs : List Char} (hcs : ∀ c ∈ cs, isWord c = true)
    (previous : Option Char) (rest : List Char) :
    namesFrom previous (cs ++ rest) = namesFrom (cs.getLast?.or previous) rest := by
  induction cs generalizing previous with
  | nil => rfl
  | cons c cs ih =>
      have hc : c ≠ ':' := by
        rintro rfl
        exact absurd (hcs ':' List.mem_cons_self) (by decide)
      rw [List.cons_append, namesFrom_char hc, ih fun d hd => hcs d (List.mem_cons_of_mem c hd),
        List.getLast?_cons]
      cases cs.getLast? <;> rfl

theorem namesFrom_bind {previous : Option Char} {name rest : List Char}
    (hprevious : previous.any (blocksBind isWord) = false)
    (hname : nameAfter? isWord true rest = some name) (hne : name ≠ []) :
    namesFrom previous (':' :: rest) = String.ofList name :: namesFrom (some ':') rest := by
  obtain ⟨n, ns, rfl⟩ := List.exists_cons_of_ne_nil hne
  obtain ⟨⟨tail, rfl⟩, hword⟩ := prefix_of_nameAfter? hname
  rw [namesFrom, partsFrom_bind hprevious hname]
  refine congrArg (String.ofList (n :: ns) :: ·) ?_
  rw [namesFrom_run hword, namesFrom, ← partsFrom_append]
  rfl

/-! ### How placeholders are read -/

/-- The word characters behind a placeholder. -/
def trailing : List (Option Char) → List Char
  | some c :: xs => if isWord c = true then c :: trailing xs else []
  | _ => []

/-- Whether they meet another placeholder. -/
def runsOn : List (Option Char) → Bool
  | [] => false
  | none :: _ => true
  | some c :: xs => isWord c && runsOn xs

/-- What a placeholder of a number is read as before other places. -/
def readName (i : Nat) (xs : List (Option Char)) : String :=
  let run := (positionName i).toList ++ trailing xs
  String.ofList (if runsOn xs then run.dropLast else run)

/-- The names that placeholders are read as, the first of which has the number `i`.  No colon
starts a bind at the first place when `blocked` is set. -/
def readNames : Bool → Nat → List (Option Char) → List String
  | _, _, [] => []
  | _, i, some c :: xs => readNames (blocksBind isWord c) i xs
  | blocked, i, none :: xs =>
    (if blocked then [] else [readName i xs]) ++ readNames true (i + 1) xs

theorem takeWhile_placeTemplate (i : Nat) (xs : List (Option Char)) :
    (placeTemplate i xs).takeWhile isWord = trailing xs := by
  induction xs with
  | nil => rfl
  | cons x xs ih =>
      cases x with
      | none => exact List.takeWhile_cons_of_neg (by decide)
      | some c =>
          by_cases hc : c = ':'
          · rw [hc, placeTemplate_colon]
            exact List.takeWhile_cons_of_neg (by decide)
          · rw [placeTemplate_char hc, List.takeWhile_cons, ih]
            rfl

theorem meetsColon_placeholders (i : Nat) (xs : List (Option Char)) :
    meetsColon isWord (placeTemplate i xs) = runsOn xs := by
  induction xs with
  | nil => rfl
  | cons x xs ih =>
      cases x with
      | none => exact meetsColon_cons ':' _
      | some c =>
          by_cases hc : c = ':'
          · rw [hc, placeTemplate_colon]
            exact meetsColon_cons '\\' _
          · rw [placeTemplate_char hc, meetsColon_cons, ih, beq_false_of_ne hc, runsOn]
            cases isWord c <;> rfl

/-- The name of a placeholder has a character left when it retreats from a colon. -/
theorem nameAfter?_placeholder (i : Nat) (xs : List (Option Char)) :
    nameAfter? isWord true ((positionName i).toList ++ placeTemplate (i + 1) xs) =
      some (readName i xs).toList := by
  have hword : ∀ c ∈ (positionName i).toList, isWord c = true :=
    fun c hc => isWord_of_mem_positionName hc
  have hrun : ((positionName i).toList ++ placeTemplate (i + 1) xs).takeWhile isWord =
      (positionName i).toList ++ trailing xs := by
    rw [List.takeWhile_append_of_pos hword, takeWhile_placeTemplate]
  have hmeets := meetsColon_run hword (placeTemplate (i + 1) xs)
  rw [meetsColon_placeholders] at hmeets
  rw [readName, String.toList_ofList]
  cases h : runsOn xs with
  | false => rw [nameAfter?_of_free (hmeets.trans h), hrun, if_neg (by simp)]
  | true =>
      have hlong : 1 < ((positionName i).toList ++ trailing xs).length := by
        have hdigits : 0 < (Nat.toDigits 10 i).length := Nat.length_toDigits_pos
        rw [toList_positionName, List.length_append, List.length_cons]
        omega
      rw [nameAfter?_of_meets (hmeets.trans h), hrun, if_pos (by simpa using hlong), if_pos rfl]

theorem toList_readName_ne_nil (i : Nat) (xs : List (Option Char)) :
    (readName i xs).toList ≠ [] := by
  have hdigits : 0 < (Nat.toDigits 10 i).length := Nat.length_toDigits_pos
  refine List.ne_nil_of_length_pos ?_
  rw [readName, String.toList_ofList, toList_positionName]
  split
  · rw [List.length_dropLast, List.length_append, List.length_cons]
    omega
  · simp

/-- **The names of a template are its placeholders' as they are read.** -/
theorem namesFrom_placeTemplate (previous : Option Char) (i : Nat) (xs : List (Option Char)) :
    namesFrom previous (placeTemplate i xs) =
      readNames (previous.any (blocksBind isWord)) i xs := by
  induction xs generalizing previous i with
  | nil => rfl
  | cons x xs ih =>
      cases x with
      | some c =>
          rw [placeTemplate, namesFrom_escaped, ih]
          rfl
      | none =>
          have hword : ∀ c ∈ (positionName i).toList, isWord c = true :=
            fun c hc => isWord_of_mem_positionName hc
          -- The last character of the name keeps the next colon from starting a bind.
          have hrest : namesFrom (some ':') ((positionName i).toList ++ placeTemplate (i + 1) xs) =
              readNames true (i + 1) xs := by
            have hlast : ((positionName i).toList.getLast?.or (some ':')).any (blocksBind isWord) =
                true := by
              cases hd : (positionName i).toList.getLast? with
              | none => rfl
              | some d =>
                  have hmem := hword d (List.mem_of_getLast? hd)
                  simp [blocksBind, hmem]
            rw [namesFrom_run hword, ih, hlast]
          rw [placeTemplate, List.cons_append, readNames]
          cases hprevious : previous.any (blocksBind isWord) with
          | true =>
              rw [namesFrom_colon (Or.inl hprevious), hrest]
              rfl
          | false =>
              rw [namesFrom_bind hprevious (nameAfter?_placeholder i xs)
                (toList_readName_ne_nil i xs), hrest, String.ofList_toList]
              rfl

/-! ### Names that are all there -/

/-- Whether a colon may start a bind at the second place when it is a placeholder. -/
def Opens : Option Char → Option Char → Prop
  | _, some _ => True
  | some c, none => blocksBind isWord c = false
  | none, none => False

theorem length_readNames_le (blocked : Bool) (i : Nat) (xs : List (Option Char)) :
    (readNames blocked i xs).length ≤ xs.count none := by
  induction xs generalizing blocked i with
  | nil => exact Nat.le_refl 0
  | cons x xs ih =>
      cases x with
      | some c =>
          rw [readNames, List.count_cons_of_ne (by simp)]
          exact ih _ i
      | none =>
          have hrest := ih true (i + 1)
          rw [readNames, List.length_append, List.count_cons_self]
          split
          · exact Nat.le_trans (Nat.le_of_eq (Nat.zero_add _)) (Nat.le_succ_of_le hrest)
          · rw [List.length_singleton]
            omega

/-- Where there are as many names as placeholders, a colon may start a bind at each. -/
theorem isChain_opens (blocked : Bool) (i : Nat) {xs : List (Option Char)}
    (h : xs.count none ≤ (readNames blocked i xs).length) :
    xs.IsChain Opens ∧ (xs.head? = some none → blocked = false) := by
  induction xs generalizing blocked i with
  | nil => exact ⟨List.isChain_nil, by simp⟩
  | cons x xs ih =>
      cases x with
      | some c =>
          rw [readNames, List.count_cons_of_ne (by simp)] at h
          obtain ⟨hchain, hfirst⟩ := ih _ i h
          refine ⟨List.isChain_cons.mpr ⟨fun y hy => ?_, hchain⟩, by simp⟩
          cases y with
          | none => exact hfirst hy
          | some d => trivial
      | none =>
          have hrest := length_readNames_le true (i + 1) xs
          rw [readNames, List.length_append, List.count_cons_self] at h
          cases blocked with
          | true =>
              rw [if_pos rfl, List.length_nil] at h
              omega
          | false =>
              rw [if_neg (by simp), List.length_singleton] at h
              obtain ⟨hchain, hfirst⟩ := ih true (i + 1) (by omega)
              refine ⟨List.isChain_cons.mpr ⟨fun y hy => ?_, hchain⟩, fun _ => rfl⟩
              cases y with
              | none => exact absurd (hfirst hy) (by simp)
              | some d => trivial

/-- Then no word characters behind a placeholder meet another. -/
theorem runsOn_eq_false {x : Option Char} {xs : List (Option Char)}
    (h : (x :: xs).IsChain Opens) (hx : ∀ c, x = some c → isWord c = true) : runsOn xs = false := by
  induction xs generalizing x with
  | nil => rfl
  | cons y xs ih =>
      obtain ⟨hopens, hchain⟩ := List.isChain_cons_cons.mp h
      cases y with
      | some c =>
          rw [runsOn, Bool.and_eq_false_imp]
          exact fun hc => ih hchain (by simp [hc])
      | none =>
          cases x with
          | none => exact hopens.elim
          | some c =>
              have hplain := (blocksBind_eq_false_iff.mp hopens).1
              rw [hx c rfl] at hplain
              cases hplain

/-- Then the names are no shorter than their own, and where they are no longer, nothing is read
as a part of a name that is none. -/
theorem length_readNames (i : Nat) (blocked : Bool) {xs : List (Option Char)}
    (h : xs.IsChain Opens) (hfirst : xs.head? = some none → blocked = false) :
    let own := ((List.range' i (xs.count none)).flatMap fun j => (positionName j).toList).length
    let read := ((readNames blocked i xs).flatMap String.toList).length
    own ≤ read ∧ (read ≤ own → xs.IsChain (FitsIn isWord)) := by
  induction xs generalizing i blocked with
  | nil => exact ⟨Nat.le_refl 0, fun _ => List.isChain_nil⟩
  | cons x xs ih =>
      have hchain : xs.IsChain Opens := List.IsChain.of_cons h
      have hopens : ∀ y, xs.head? = some y → Opens x y := (List.isChain_cons.mp h).1
      cases x with
      | some c =>
          obtain ⟨hle, hfits⟩ := ih i (blocksBind isWord c) hchain (hopens none)
          rw [readNames, List.count_cons_of_ne (by simp)]
          refine ⟨hle, fun hread => List.isChain_cons.mpr ⟨fun y hy => ?_, hfits hread⟩⟩
          cases y with
          | none => exact hopens none hy
          | some d => trivial
      | none =>
          obtain ⟨hle, hfits⟩ := ih (i + 1) true hchain
            fun hnone => (hopens none hnone).elim
          have hname : (readName i xs).toList = (positionName i).toList ++ trailing xs := by
            rw [readName, runsOn_eq_false h (by simp), if_neg (by simp), String.toList_ofList]
          rw [readNames, hfirst rfl, if_neg (by simp), List.count_cons_self, List.range'_succ]
          simp only [List.flatMap_cons, List.singleton_append, List.length_append, hname]
          refine ⟨by omega, fun hread => List.isChain_cons.mpr ⟨fun y hy => ?_, hfits (by omega)⟩⟩
          cases y with
          | none => exact hopens none hy
          | some d =>
              obtain ⟨ys, rfl⟩ := List.head?_eq_some_iff.mp hy
              refine Bool.eq_false_iff.mpr fun hd => ?_
              rw [trailing, if_pos hd, List.length_cons] at hread
              omega

/-- **A text all of whose placeholders have their names in the template is legible.** -/
theorem legible_of_known {escapes : Bool} {cs : List Char} {ss : List Segment}
    (hscan : Scan escapes cs ss)
    (h : ∀ k, k < placeholderCount ss →
      positionName k ∈ bindNames (parts (positionalTemplate 0 ss))) : Legible ss := by
  have hnames : namesFrom none (positionalTemplate 0 ss) = readNames false 0 (places ss) := by
    rw [positionalTemplate_eq hscan.ordinary_ne_colon, namesFrom_placeTemplate]
    rfl
  have hnodup : ((List.range' 0 ((places ss).count none)).map positionName).Nodup :=
    List.Nodup.map (fun _ _ => positionName_injective) List.nodup_range'
  have hsub : (List.range' 0 ((places ss).count none)).map positionName ⊆
      readNames false 0 (places ss) := by
    intro name hname
    obtain ⟨k, hk, rfl⟩ := List.mem_map.mp hname
    rw [← hnames]
    refine mem_distinct.mp (h k ?_)
    have hlt := (List.mem_range'_1.mp hk).2
    rwa [Nat.zero_add, count_places] at hlt
  -- There is no room for a name that is none of a placeholder's own.
  have hperm : ((List.range' 0 ((places ss).count none)).map positionName).Perm
      (readNames false 0 (places ss)) := by
    refine (List.subperm_of_subset hnodup hsub).perm_of_length_le ?_
    rw [List.length_map, List.length_range']
    exact length_readNames_le false 0 (places ss)
  have hcount : (places ss).count none ≤ (readNames false 0 (places ss)).length := by
    rw [← hperm.length_eq, List.length_map, List.length_range']
  obtain ⟨hchain, hfirst⟩ := isChain_opens false 0 hcount
  refine (length_readNames 0 false hchain hfirst).2 ?_
  have hlength := (hperm.flatMap_right String.toList).length_eq
  rw [List.flatMap_map] at hlength
  exact Nat.le_of_eq hlength.symm

/-! ### The outcome -/

/-- The arguments before a number, the one of that number and those after it. -/
theorem positionalArguments_split {vs : List Value} {k : Nat} (hk : k < vs.length) (i : Nat) :
    positionalArguments i vs = positionalArguments i (vs.take k) ++
      (.text (positionName (i + k)), vs[k]) ::
        positionalArguments (i + k + 1) (vs.drop (k + 1)) := by
  induction vs generalizing i k with
  | nil => simp at hk
  | cons v vs ih =>
      cases k with
      | zero => rfl
      | succ k =>
          rw [positionalArguments, ih (by simpa using hk)]
          simp only [List.take_succ_cons, List.drop_succ_cons, positionalArguments,
            List.getElem_cons_succ, List.cons_append]
          rw [show i + 1 + k = i + (k + 1) by omega]

/-- A text that is not legible fails at the first argument whose name the template lacks. -/
theorem bind_of_not_legible {escapes : Bool} {sql : String} {args : List Value}
    {ss : List Segment} (hscan : Scan escapes sql.toList ss) (hlegible : ¬Legible ss)
    (hcount : placeholderCount ss = args.length) (hargs : ∀ entries, args ≠ [.map entries]) :
    ∃ k, k < args.length ∧
      positionName k ∉ bindNames (parts (positionalTemplate 0 ss)) ∧
      (∀ j, j < k → positionName j ∈ bindNames (parts (positionalTemplate 0 ss))) ∧
      bind escapes sql args = .error (.unknownBind (.text (positionName k))) := by
  have hsome : ∃ k, k < args.length ∧
      positionName k ∉ bindNames (parts (positionalTemplate 0 ss)) := by
    obtain ⟨k, hk⟩ := Classical.not_forall.mp (mt (legible_of_known hscan) hlegible)
    rw [hcount, Classical.not_imp] at hk
    exact ⟨k, hk⟩
  obtain ⟨k, ⟨hk, hmissing⟩, hfirst⟩ : ∃ k, (k < args.length ∧
      positionName k ∉ bindNames (parts (positionalTemplate 0 ss))) ∧
      ∀ j, j < k → positionName j ∈ bindNames (parts (positionalTemplate 0 ss)) := by
    refine ⟨Nat.find hsome, Nat.find_spec hsome, fun j hj => Decidable.of_not_not fun hnot => ?_⟩
    exact Nat.find_min hsome hj ⟨Nat.lt_trans hj (Nat.find_spec hsome).1, hnot⟩
  have hbefore : ∀ e ∈ positionalArguments 0 (args.take k),
      Known (bindNames (parts (positionalTemplate 0 ss))) e.1 := by
    intro e he
    obtain ⟨j, -, hj, hkey⟩ := mem_positionalArguments he
    rw [hkey]
    exact ⟨_, keyName?_positionName j, hfirst j (by simp at hj; omega)⟩
  have hunknown : ¬Known (bindNames (parts (positionalTemplate 0 ss)))
      (.text (positionName (0 + k))) := by
    rintro ⟨name, hname, hmem⟩
    rw [Nat.zero_add, keyName?_positionName] at hname
    exact hmissing (Option.some.inj hname ▸ hmem)
  refine ⟨k, hk, hmissing, hfirst, ?_⟩
  rw [bind_positional hscan hcount hargs, positionalArguments_split hk,
    bindTemplate_of_unknown hbefore hunknown, reported, keyName?_positionName, Nat.zero_add]
  rfl

/--
**What becomes of a raw statement with positional arguments.**

When there are not as many arguments as placeholders, both numbers are reported.  When there
are, and the reading for names keeps the placeholders apart from their neighbours, binding
succeeds and every argument is bound to the name of its number.  When they are not kept apart,
the first argument whose name the template lacks is reported as unknown.
-/
theorem bind_positional_outcome {escapes : Bool} {sql : String} {args : List Value}
    {ss : List Segment} (hscan : Scan escapes sql.toList ss)
    (hargs : ∀ entries, args ≠ [.map entries]) :
    (placeholderCount ss ≠ args.length →
      bind escapes sql args = .error (.placeholderCount (placeholderCount ss) args.length) ∧
        (Error.placeholderCount (placeholderCount ss) args.length).message =
          "Statement has " ++ toString (placeholderCount ss) ++ " placeholder(s) but " ++
            toString args.length ++ " argument(s) were given") ∧
    (placeholderCount ss = args.length → Legible ss →
      ∃ b, bind escapes sql args = .ok b ∧
        bindNames (parts b.text) = (List.range args.length).map positionName ∧
        b.defined = args.mapIdx (fun i v => bindOf (positionName i) v)) ∧
    (placeholderCount ss = args.length → ¬Legible ss →
      ∃ k, k < args.length ∧
        positionName k ∉ bindNames (parts (positionalTemplate 0 ss)) ∧
        (∀ j, j < k → positionName j ∈ bindNames (parts (positionalTemplate 0 ss))) ∧
        bind escapes sql args = .error (.unknownBind (.text (positionName k)))) := by
  refine ⟨?_, ?_, fun hcount hlegible => bind_of_not_legible hscan hlegible hcount hargs⟩
  · intro hcount
    refine ⟨?_, rfl⟩
    unfold bind
    rw [← scan_iff.mp hscan]
    dsimp only
    split
    · rename_i entries
      exact absurd rfl (hargs entries)
    · exact if_neg hcount
  · intro hcount hlegible
    refine ⟨_, bind_of_legible hscan hlegible hcount hargs, ?_, ?_⟩
    · rw [parts, partsFrom_positionalTemplate nameClass_isWord hscan hlegible,
        bindNames_placeParts, count_places, hcount, List.range_eq_range']
    · simp only [bindsFrom, Nat.zero_add]

/-- A bracket before a placeholder and a cast behind it do no harm, and a placeholder too few is
counted. -/
theorem bind_positional_outcome_cast :
    (∃ b, bind false "SELECT (?)::int" [.int 5] = .ok b ∧ b.defined = [bindOf "p0" (.int 5)]) ∧
      bind false "SELECT (?)::int" [] = .error (.placeholderCount 1 0) := by
  have hscan := scan_segments false "SELECT (?)::int".toList
  have hone : placeholderCount (segments false "SELECT (?)::int".toList) = 1 := by decide +kernel
  have hargs : ∀ entries, [Value.int 5] ≠ [.map entries] := by simp
  have hnoArgs : ∀ entries, [] ≠ [Value.map entries] := by simp
  obtain ⟨-, hok, -⟩ := bind_positional_outcome hscan hargs
  obtain ⟨herror, -, -⟩ := bind_positional_outcome hscan hnoArgs
  refine ⟨?_, ?_⟩
  · obtain ⟨b, hb, -, hbinds⟩ := hok hone (by decide +kernel)
    exact ⟨b, hb, hbinds⟩
  · have hcounts := (herror (by rw [hone]; simp)).1
    rwa [hone] at hcounts

/-- Behind a word a placeholder is lost: there is one argument for it, and that is reported. -/
theorem bind_positional_outcome_word :
    placeholderCount (segments false "SELECT * FROM users LIMIT?".toList) = [Value.int 5].length ∧
      bind false "SELECT * FROM users LIMIT?" [.int 5] = .error (.unknownBind (.text "p0")) := by
  refine ⟨by decide +kernel, ?_⟩
  have hargs : ∀ entries, [Value.int 5] ≠ [.map entries] := by simp
  obtain ⟨k, hk, -, -, hbind⟩ := bind_of_not_legible
    (scan_segments false "SELECT * FROM users LIMIT?".toList) (by decide +kernel)
    (by decide +kernel) hargs
  obtain rfl : k = 0 := by simpa using hk
  exact hbind

end RawSql

end TableQuery
