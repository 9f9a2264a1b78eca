/-
How the items of a query are grouped leaves no trace in its text.

A `Grouping` is a list of items with brackets: `items` forgets the brackets and `query`
builds what a caller writes, a keyword for each of them.  Linking the expressions of
some neighbours first and putting the result in their place changes no link of the whole
(`link_splice`): one expression stands for itself, none for nothing, and the members of several
are taken in by the junction around them.  So whatever the brackets are, the query
translates as the flat list of its items (`toExpr_query`).

A constant would break this, for a junction that it decides becomes a constant itself
and no list of members any more.  Only a native expression can be one: hence the
hypothesis on the items.
-/
import TableQuery.Proofs.Query.Operands

namespace TableQuery

open Sql

/-- The junction that a keyword links with. -/
def Keyword.junction : Keyword → Junction
  | .or => .disjunction
  | .and | .not => .conjunction

/-- No condition translates to a constant. -/
theorem Condition.isConstant_of_toExpr {c : Condition} {t : Option Table} {e : Expr}
    (h : c.toExpr t = .ok e) : e.isConstant = false := by
  have htest := isTest_of_toExpr h
  cases e with
  | const b | constTest b => simp [Expr.isTest] at htest
  | _ => rfl

namespace Query

variable {t : Option Table} {k : Keyword}

/-! ### Expressions that are no constants -/

/-- Whether none of some expressions is a constant. -/
def NoConstants (es : List Expr) : Prop := ∀ e ∈ es, e.isConstant = false

theorem NoConstants.append {es fs : List Expr} (hes : NoConstants es) (hfs : NoConstants fs) :
    NoConstants (es ++ fs) :=
  List.forall_mem_append.mpr ⟨hes, hfs⟩

theorem NoConstants.link {es : List Expr} (h : NoConstants es) :
    NoConstants (link k es).toList :=
  fun e he => (mentions_link h).2 e (Option.mem_toList.mp he)

/-- A query without native expressions translates to no constant. -/
theorem noConstants_of_toExpr {q : Query} (h : ∀ e, native e ∉ q.leaves) {r : Option Expr}
    (hr : (q.toExpr t).result = .ok r) : NoConstants r.toList := by
  intro e he
  rw [Option.mem_toList.mp he] at hr
  exact forall_of_toExpr (P := fun e => e.isConstant = false)
    (fun _ _ _ => Condition.isConstant_of_toExpr) (fun _ _ => rfl)
    (fun x hx => absurd hx (h x))
    (fun _ _ hes x hx => NoConstants.link hes x (Option.mem_toList.mpr hx)) hr

/-! ### Linking in parts -/

theorem link_of_cons_cons (hk : k ≠ .not) (e e' : Expr) (es : List Expr) :
    link k (e :: e' :: es) = some (Expr.join k.junction (e :: e' :: es)) := by
  cases k with
  | and | or => rfl
  | not => exact absurd rfl hk

/-- Nothing and one expression stand for themselves. -/
theorem toList_link (hk : k ≠ .not) {es : List Expr} (h : es.length ≤ 1) :
    (link k es).toList = es := by
  match es, h with
  | [], _ => cases k <;> rfl
  | [e], _ =>
      cases k with
      | and | or => rfl
      | not => exact absurd rfl hk

theorem link_toList (hk : k ≠ .not) (r : Option Expr) : link k r.toList = r := by
  cases r with
  | none => cases k <;> rfl
  | some e =>
      cases k with
      | and | or => rfl
      | not => exact absurd rfl hk

/-- Several expressions are linked to a junction of all their members. -/
theorem link_of_two_le (hk : k ≠ .not) {es : List Expr} (hes : NoConstants es)
    (h : 2 ≤ es.length) : link k es = some (.junction k.junction
      (es.flatMap (fun e => Expr.membersOf k.junction e.asCondition))) := by
  match es, h with
  | e :: e' :: es, _ => rw [link_of_cons_cons hk, Expr.join_of_not_constant _ _ hes]

/-- **Linking neighbours first changes nothing**: what they are linked to can stand in their
place. -/
theorem link_splice (hk : k ≠ .not) {xs es ys : List Expr} (hxs : NoConstants xs)
    (hes : NoConstants es) (hys : NoConstants ys) :
    link k (xs ++ (link k es).toList ++ ys) = link k (xs ++ es ++ ys) := by
  rcases Nat.lt_or_ge es.length 2 with h | h
  · rw [toList_link hk (by omega)]
  · have hlink := link_of_two_le hk hes h
    -- Alone, the junction of the neighbours is the whole.
    by_cases hnone : xs = [] ∧ ys = []
    · obtain ⟨rfl, rfl⟩ := hnone
      rw [List.nil_append, List.append_nil, List.nil_append, List.append_nil, link_toList hk]
    · have hbeside : 0 < xs.length + ys.length := by
        rcases not_and_or.mp hnone with hne | hne
        · have := List.length_pos_iff.mpr hne
          omega
        · have := List.length_pos_iff.mpr hne
          omega
      rw [link_of_two_le hk ((hxs.append hes.link).append hys) (by simp [hlink]; omega),
        link_of_two_le hk ((hxs.append hes).append hys) (by simp; omega)]
      simp [hlink, Expr.asCondition, Expr.membersOf]

/-! ### Lists that link alike -/

/-- Whether two lists of expressions stand for the same wherever they are linked. -/
structure LinkAlike (k : Keyword) (es fs : List Expr) : Prop where
  left : NoConstants es
  right : NoConstants fs
  link : ∀ {xs ys}, NoConstants xs → NoConstants ys →
    link k (xs ++ es ++ ys) = link k (xs ++ fs ++ ys)

namespace LinkAlike

variable {es fs gs es' fs' : List Expr}

theorem refl (h : NoConstants es) : LinkAlike k es es := ⟨h, h, fun _ _ => rfl⟩

theorem append (h : LinkAlike k es fs) (h' : LinkAlike k es' fs') :
    LinkAlike k (es ++ es') (fs ++ fs') where
  left := h.left.append h'.left
  right := h.right.append h'.right
  link := by
    intro xs ys hxs hys
    calc Query.link k (xs ++ (es ++ es') ++ ys)
        = Query.link k (xs ++ es ++ (es' ++ ys)) := by simp only [List.append_assoc]
      _ = Query.link k (xs ++ fs ++ (es' ++ ys)) := h.link hxs (h'.left.append hys)
      _ = Query.link k (xs ++ fs ++ es' ++ ys) := by simp only [List.append_assoc]
      _ = Query.link k (xs ++ fs ++ fs' ++ ys) := h'.link (hxs.append h.right) hys
      _ = Query.link k (xs ++ (fs ++ fs') ++ ys) := by simp only [List.append_assoc]

/-- A group stands for what its members do. -/
theorem group (hk : k ≠ .not) (h : LinkAlike k es fs) :
    LinkAlike k (Query.link k es).toList fs where
  left := h.left.link
  right := h.right
  link := fun hxs hys => (link_splice hk hxs h.left hys).trans (h.link hxs hys)

theorem link_eq (h : LinkAlike k es fs) : Query.link k es = Query.link k fs := by
  have hnil : NoConstants [] := by simp [NoConstants]
  simpa using h.link hnil hnil

end LinkAlike

/-! ### The expressions of children -/

/-- The expressions of children are those of their parts, one after the other. -/
theorem result_toExprs_append (t : Option Table) (j : Keyword) (ps qs : List Query) :
    (toExprs t j (ps ++ qs)).result = (toExprs t j ps).result.bind (fun es =>
      (toExprs t j qs).result.map (es ++ ·)) := by
  induction ps with
  | nil =>
      rw [result_toExprs_nil, List.nil_append]
      cases (toExprs t j qs).result <;> rfl
  | cons p ps ih =>
      rw [List.cons_append, result_toExprs_cons, result_toExprs_cons, ih]
      cases (p.toExpr t).result with
      | error e => rfl
      | ok r =>
          cases (toExprs t j ps).result with
          | error e => rfl
          | ok es =>
              cases (toExprs t j qs).result with
              | error e => rfl
              | ok fs => simp [Except.bind, Except.map]

/-- No more expressions come from children than there are children. -/
theorem length_of_toExprs {j : Keyword} {cs : List Query} {es : List Expr}
    (h : (toExprs t j cs).result = .ok es) : es.length ≤ cs.length := by
  induction cs generalizing es with
  | nil =>
      rw [result_toExprs_nil] at h
      cases h
      simp
  | cons q qs ih =>
      obtain ⟨r, rs, -, hrs, rfl⟩ := result_toExprs_cons_ok h
      have hrest := ih hrs
      cases r <;> simp <;> omega

/-- Which keyword the children stand under matters to the reports only. -/
theorem result_toExprs_keyword (j k : Keyword) (cs : List Query) :
    (toExprs t j cs).result = (toExprs t k cs).result := by
  induction cs with
  | nil => rw [result_toExprs_nil, result_toExprs_nil]
  | cons q qs ih => rw [result_toExprs_cons, result_toExprs_cons, ih]

end Query

/-! ### Groupings -/

/-- A list of items with brackets, each of them of a keyword. -/
inductive Grouping where
  | item (q : Query)
  | group (k : Keyword) (gs : List Grouping)

namespace Grouping

mutual

/-- The query of a grouping. -/
def query : Grouping → Query
  | item q => q
  | group k gs => .combine k (queries gs)

/-- The queries of several groupings. -/
def queries : List Grouping → List Query
  | [] => []
  | g :: gs => query g :: queries gs

end

mutual

/-- The items of a grouping, without the brackets. -/
def items : Grouping → List Query
  | item q => [q]
  | group _ gs => itemsAll gs

/-- The items of several groupings. -/
def itemsAll : List Grouping → List Query
  | [] => []
  | g :: gs => items g ++ itemsAll gs

end

mutual

/-- Whether all brackets are of one keyword; around one member or none any keyword does
that is no negation. -/
def isOf (k : Keyword) : Grouping → Bool
  | item _ => true
  | group j gs => (j == k || (j != .not && gs.length ≤ 1)) && areOf k gs

/-- Whether all brackets of several groupings are of one keyword. -/
def areOf (k : Keyword) : List Grouping → Bool
  | [] => true
  | g :: gs => isOf k g && areOf k gs

end

/-- What holds of every item, and of a group whenever it holds of each member, holds of
every grouping. -/
@[elab_as_elim]
theorem induction {motive : Grouping → Prop} (item : ∀ q, motive (item q))
    (group : ∀ k gs, (∀ g ∈ gs, motive g) → motive (group k gs)) (g : Grouping) : motive g :=
  @Grouping.rec motive (fun gs => ∀ g ∈ gs, motive g) item (fun k gs ih => group k gs ih)
    (fun _ hg => absurd hg (List.not_mem_nil))
    (fun _ _ hg hgs f hf => by
      rcases List.mem_cons.mp hf with rfl | hf
      · exact hg
      · exact hgs f hf) g

variable {t : Option Table} {k : Keyword}

theorem length_queries (gs : List Grouping) : (queries gs).length = gs.length := by
  induction gs with
  | nil => rw [queries]; rfl
  | cons g gs ih => rw [queries, List.length_cons, List.length_cons, ih]

theorem mem_itemsAll {g : Grouping} {gs : List Grouping} (hg : g ∈ gs) {q : Query}
    (hq : q ∈ g.items) : q ∈ itemsAll gs := by
  induction gs with
  | nil => cases hg
  | cons f gs ih =>
      rw [itemsAll]
      rcases List.mem_cons.mp hg with rfl | hg
      · exact List.mem_append_left _ hq
      · exact List.mem_append_right _ (ih hg)

theorem isOf_of_areOf {g : Grouping} {gs : List Grouping} (h : areOf k gs = true)
    (hg : g ∈ gs) : g.isOf k = true := by
  induction gs with
  | nil => cases hg
  | cons f gs ih =>
      rw [areOf, Bool.and_eq_true] at h
      rcases List.mem_cons.mp hg with rfl | hg
      · exact h.1
      · exact ih h.2 hg

/-- The queries of groupings that are alike to their items, one by one, are so together. -/
theorem together_queries {j : Keyword} {gs : List Grouping}
    (h : ∀ g ∈ gs, Together (Query.LinkAlike k)
      ((g.query.toExpr t).result.map Option.toList) (Query.toExprs t j g.items).result) :
    Together (Query.LinkAlike k) (Query.toExprs t j (queries gs)).result
      (Query.toExprs t j (itemsAll gs)).result := by
  induction gs with
  | nil =>
      rw [queries, itemsAll, Query.result_toExprs_nil]
      exact .ok (.refl (by simp [Query.NoConstants]))
  | cons g gs ih =>
      have hgs := ih (fun f hf => h f (List.mem_cons_of_mem g hf))
      rw [queries, itemsAll, Query.result_toExprs_cons, Query.result_toExprs_append]
      rcases (h g List.mem_cons_self).cases with ⟨e, hx, hy⟩ | ⟨es, fs, hx, hy, hesfs⟩
      · rw [map_eq_error.mp hx, hy]
        exact .error e
      · obtain ⟨r, hr, rfl⟩ := map_eq_ok.mp hx
        rw [hr, hy]
        exact hgs.map fun _ _ => hesfs.append

/-- A grouping and its items fail alike, or link alike wherever they stand. -/
theorem together_query (hk : k ≠ .not) {g : Grouping} (hg : g.isOf k = true)
    (hnative : ∀ q ∈ g.items, ∀ e, Query.native e ∉ q.leaves) :
    Together (Query.LinkAlike k) ((g.query.toExpr t).result.map Option.toList)
      (Query.toExprs t k g.items).result := by
  induction g using Grouping.induction with
  | item q =>
      rw [query, items, Query.result_toExprs_cons, Query.result_toExprs_nil]
      cases hq : (q.toExpr t).result with
      | error e => exact .error e
      | ok r =>
          have hr := Query.noConstants_of_toExpr (hnative q (by simp [items])) hq
          simpa [Except.map, Except.bind] using Together.ok (.refl hr)
  | group j gs ih =>
      rw [isOf, Bool.and_eq_true] at hg
      have hgs : Together (Query.LinkAlike k) (Query.toExprs t k (queries gs)).result
          (Query.toExprs t k (itemsAll gs)).result := by
        refine together_queries fun g hmem => ih g hmem (isOf_of_areOf hg.2 hmem) fun q hq => ?_
        exact hnative q (by rw [items]; exact mem_itemsAll hmem hq)
      rw [query, items, Query.result_toExpr_combine, Query.result_toExprs_keyword j k, map_map]
      rcases hgs.cases with ⟨e, hx, hy⟩ | ⟨es, fs, hx, hy, hesfs⟩
      · rw [hx, hy]
        exact .error e
      · rw [hx, hy]
        refine .ok ?_
        show Query.LinkAlike k (Query.link j es).toList fs
        rcases Bool.or_eq_true _ _ |>.mp hg.1 with hj | hj
        · rw [beq_iff_eq.mp hj]
          exact hesfs.group hk
        · -- A bracket of another keyword holds one member or none, which it leaves as it is.
          simp only [Bool.and_eq_true, bne_iff_ne, ne_eq, decide_eq_true_eq] at hj
          have hlength := Query.length_of_toExprs hx
          rw [length_queries] at hlength
          rw [Query.toList_link hj.1 (by omega)]
          exact hesfs

/-- **A grouping translates as the flat list of its items.** -/
theorem toExpr_query (hk : k ≠ .not) {g : Grouping} (hg : g.isOf k = true)
    (hnative : ∀ q ∈ g.items, ∀ e, Query.native e ∉ q.leaves) :
    (g.query.toExpr t).result = ((Query.combine k g.items).toExpr t).result := by
  rw [Query.result_toExpr_combine]
  rcases (together_query (t := t) hk hg hnative).cases with
    ⟨e, hx, hy⟩ | ⟨es, fs, hx, hy, hesfs⟩
  · rw [hy, map_eq_error.mp hx]
    rfl
  · obtain ⟨r, hr, rfl⟩ := map_eq_ok.mp hx
    rw [hy, hr]
    show _ = Except.ok (Query.link k fs)
    rw [← hesfs.link_eq, Query.link_toList hk]

/--
**Regrouping does not change the statement.**  Two ways of grouping one list of conditions
and queries by AND, or by OR, with groups of any size and depth, translate to the same
expression for every table, or fail alike, and so are written with the same text and
parameters in every dialect.
-/
theorem regrouping_leaves_no_trace {k : Keyword} (hk : k ≠ .not) {g g' : Grouping}
    (hg : g.isOf k = true) (hg' : g'.isOf k = true) (hitems : g.items = g'.items)
    (hnative : ∀ q ∈ g.items, ∀ e, Query.native e ∉ q.leaves) (t : Option Table) :
    (g.query.toExpr t).result = (g'.query.toExpr t).result ∧
      ∀ d, g.query.compiled t d = g'.query.compiled t d := by
  have hsame : (g.query.toExpr t).result = (g'.query.toExpr t).result := by
    rw [toExpr_query hk hg hnative, toExpr_query hk hg' (hitems ▸ hnative), hitems]
  exact ⟨hsame, fun d => by rw [Query.compiled, Query.compiled, hsame]⟩

/-- Four conditions in three pairs of brackets, an empty one among them, are written as the
flat list: `link` adds the parentheses that the inner disjunction needs, and no others. -/
theorem regrouping_leaves_no_trace_pairs :
    let condition (name : String) (h : name ≠ "") : Query :=
      .condition ⟨⟨.field, name, none, h⟩, .gt, [.int 0]⟩
    let a := condition "a" (by decide)
    let b := condition "b" (by decide)
    let c := condition "c" (by decide)
    let q := Query.any [a, b]
    let g : Grouping := .group .and [.group .and [.item a, .group .and [.item q]],
      .group .or [], .group .and [.item c, .item b]]
    let flat : Grouping := .group .and [.item a, .item q, .item c, .item b]
    g.query.compiled none .sqlite = flat.query.compiled none .sqlite ∧
      (flat.query.compiled none .sqlite).toOption.join.map (·.sql) =
        some "a > ? AND (a > ? OR b > ?) AND c > ? AND b > ?" := by
  intro condition a b c q g flat
  have hnative : ∀ p ∈ g.items, ∀ e, Query.native e ∉ p.leaves := by
    simp [g, items, itemsAll, q, a, b, c, condition, Query.any, Query.leaves, Query.leavesAll]
  have hg : g.isOf .and = true := rfl
  have hflat : flat.isOf .and = true := rfl
  have hitems : g.items = flat.items := rfl
  exact ⟨(regrouping_leaves_no_trace (by decide) hg hflat hitems hnative none).2 .sqlite, by
    decide +kernel⟩

end Grouping

end TableQuery
