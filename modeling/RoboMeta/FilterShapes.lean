/-
  Which mandatory filters a query can satisfy.

  The WHERE of a query is taken apart at its ANDs and rendered conjunct by
  conjunct; a filter is rendered whole.

  * `Prints`, `Uppercases`: what is relied on of rendering and of `str.upper`;
  * `canonicalPredicate_eq_bare`: over one table, canonical texts are texts
    without letter case and quotes;
  * `satisfiable_iff`: the filters that are found in every WHERE that has them.
-/
import RoboMeta.FilterScope

namespace RoboMeta

open Expression

/-! ## Conditions -/

/-- An expression as the argument `k`. -/
def hang (k : Arg) : Expression → Expression
  | .node l ts => .node { l with arg := k } ts

def andOf (l r : Expression) : Expression := mk .root .and [hang .this l, hang .expression r]

def parenOf (e : Expression) : Expression := mk .root .paren [hang .this e]

/-- `exp.Or`. -/
def clsOr : Cls := .other "Or"

/-- A filter as an operand of AND, which binds closer than OR. -/
def operand (f : Expression) : Expression := if f.cls = clsOr then parenOf f else f

/-- The filter, combined with further conditions by AND. -/
inductive Combined (f : Expression) : Expression → Prop
  | operand : Combined f (operand f)
  | left {w} (c : Expression) : Combined f w → Combined f (andOf w c)
  | right {w} (c : Expression) : Combined f w → Combined f (andOf c w)

@[simp] theorem copy_hang (k : Arg) (e : Expression) : copy (hang k e) = copy e := by
  cases e with
  | node l ts => rfl

@[simp] theorem cls_hang (k : Arg) (e : Expression) : (hang k e).cls = e.cls := by
  cases e with
  | node l ts => rfl

@[simp] theorem children_hang (k : Arg) (e : Expression) : (hang k e).children = e.children := by
  cases e with
  | node l ts => rfl

theorem copy_eq_hang (e : Expression) : copy e = hang .root e := by
  cases e with
  | node l ts => rfl

/-! ## Conjuncts -/

/-- A value that the first child of a place decides. -/
theorem eq_elim_find? {γ : Type*} {p : Expression → Prop} [DecidablePred p] {f : Expression → γ} {default : γ}
    {g : List Expression → γ} (hnil : g [] = default) (hcons : ∀ t ts, g (t :: ts) = if p t then f t else g ts)
    (ts : List Expression) : g ts = (ts.find? fun t => p t).elim default f := by
  induction ts with
  | nil => exact hnil
  | cons t ts ih =>
    rw [hcons]
    by_cases hp : p t
    · rw [if_pos hp, List.find?_cons_of_pos (by simpa using hp)]
      rfl
    · rw [if_neg hp, ih, List.find?_cons_of_neg (by simpa using hp)]

theorem conjunctsOf_eq (k : Arg) (ts : List Expression) :
    conjunctsOf k ts = (ts.find? fun t => t.label.arg = k).elim [] conjuncts :=
  eq_elim_find? rfl (fun t ts => by rw [conjunctsOf]) ts

theorem conjuncts_of_ne {e : Expression} (h : e.cls ≠ .and) : conjuncts e = [e] := by
  cases e with
  | node l ts =>
    have h : l.cls ≠ .and := h
    rw [conjuncts, if_neg h]

theorem conjuncts_of_and {e : Expression} (h : e.cls = .and) :
    conjuncts e = (e.arg? .this).elim [] conjuncts ++ (e.arg? .expression).elim [] conjuncts := by
  cases e with
  | node l ts =>
    have h : l.cls = .and := h
    rw [conjuncts, if_pos h, conjunctsOf_eq, conjunctsOf_eq]
    rfl

@[simp] theorem arg?_hang (k a : Arg) (e : Expression) : (hang k e).arg? a = e.arg? a := by
  cases e with
  | node l ts => rfl

theorem arg?_andOf_this (l r : Expression) : (andOf l r).arg? .this = some (hang .this l) := by
  cases l with
  | node a ts => rfl

theorem arg?_andOf_expression (l r : Expression) : (andOf l r).arg? .expression = some (hang .expression r) := by
  cases l with
  | node a ts =>
    cases r with
    | node b us => rfl

theorem conjuncts_hang_andOf (k : Arg) (l r : Expression) :
    conjuncts (hang k (andOf l r)) = conjuncts (hang .this l) ++ conjuncts (hang .expression r) := by
  rw [conjuncts_of_and (cls_hang k _), arg?_hang, arg?_hang, arg?_andOf_this, arg?_andOf_expression]
  rfl

theorem mem_walk_of_mem_conjuncts {p : Expression} : ∀ {e : Expression}, p ∈ conjuncts e → p ∈ e.walk := by
  intro e
  induction e using RoseTree.induct with
  | step l ts ih =>
    intro hp
    by_cases hand : Expression.cls (.node l ts) = .and
    · rw [conjuncts_of_and hand, List.mem_append] at hp
      have hchild : ∀ k, p ∈ (arg? k (.node l ts)).elim [] conjuncts → p ∈ (RoseTree.node l ts).walk := by
        intro k hk
        cases hc : arg? k (.node l ts) with
        | none =>
          rw [hc] at hk
          cases hk
        | some c =>
          rw [hc] at hk
          have hmem : c ∈ ts := List.mem_of_find?_eq_some hc
          exact RoseTree.mem_walk_iff.2 (Or.inr ⟨c, hmem, ih c hmem hk⟩)
      exact hp.elim (hchild _) (hchild _)
    · rw [conjuncts_of_ne hand, List.mem_singleton] at hp
      rw [hp]
      exact RoseTree.mem_walk_self _

/-! ## Canonical texts -/

section
variable (U : Unicode) (G : Sqlglot) (dialect : String)

/-- The text without letter case and double quotes. -/
def bare (text : String) : String := String.ofList ((U.upper text).toList.filter (· ≠ '"'))

/-- The labels are the same, but for the letter case and the quotes of the
    qualifier of a column. -/
def CaseVariant (l l' : Label) : Prop :=
  l' = l ∨ ∃ c i j, l.cls = .column c ∧ c.table = some i ∧ U.upper j.name = U.upper i.name ∧
    l' = { l with cls := .column { c with table := some j } }

/-- `str.upper` goes letter by letter. -/
structure Uppercases : Prop where
  append : ∀ s t, U.upper (s ++ t) = U.upper s ++ U.upper t
  idem : ∀ s, U.upper (U.upper s) = U.upper s

/-- What is relied on of the library. -/
structure Prints : Prop where
  /-- AND stands between its operands. -/
  conj : ∀ {e l r}, e.cls = .and → e.arg? .this = some l → e.arg? .expression = some r →
    G.sql dialectPostgres (copy e) = G.sql dialectPostgres (copy l) ++ " AND " ++ G.sql dialectPostgres (copy r)
  paren : ∀ e, G.sql dialectPostgres (parenOf e) = "(" ++ G.sql dialectPostgres (copy e) ++ ")"
  /-- Names are printed as they are, in quotes or not. -/
  qualifier : ∀ (e : Expression) (g : Label → Label), (∀ x ∈ e.walk, CaseVariant U x.label (g x.label)) →
    bare U (G.sql dialectPostgres (e.map g)) = bare U (G.sql dialectPostgres e)
  identifier : ∀ name, (G.toIdentifier name).name = name
  /-- The parser gives every AND two operands. -/
  parsed : ∀ text f, G.parseOne dialect text = .ok f → ∀ e ∈ f.walk, Expression.cls e = .and →
    (arg? .this e).isSome ∧ (arg? .expression e).isSome

/-- Every column of the expression is qualified by `T`. -/
def QualifiedBy (T : String) (f : Expression) : Prop :=
  ∀ c ∈ columns f.walk, ∃ i, c.table = some i ∧ U.upper i.name = T

variable {U G dialect} {T : String} {f e : Expression}

theorem Uppercases.bare_append (hU : Uppercases U) (s t : String) : bare U (s ++ t) = bare U s ++ bare U t := by
  rw [bare, hU.append, String.toList_append, List.filter_append, String.ofList_append]
  rfl

theorem canonicalPredicate_eq_bare (aliases : Dict String String) (default : Option String) :
    canonicalPredicate U G e aliases default =
      bare U (G.sql dialectPostgres ((copy e).map (qualify U G aliases default))) := rfl

theorem mem_walk_hang {k : Arg} {x : Expression} (h : x ∈ (hang k e).walk) :
    ∃ y ∈ e.walk, Expression.cls x = Expression.cls y := by
  rcases RoseTree.mem_walk_iff.1 h with rfl | ⟨c, hc, hx⟩
  · exact ⟨e, RoseTree.mem_walk_self _, cls_hang k e⟩
  · rw [children_hang] at hc
    exact ⟨x, RoseTree.mem_walk_iff.2 (Or.inr ⟨c, hc, hx⟩), rfl⟩

/-- **Canonical texts over one table.**  If the qualifiers stand for themselves,
    the canonical text is the text, but for letter case and quotes. -/
theorem Prints.canonical (hG : Prints U G dialect) (hU : Uppercases U) {aliases : Dict String String}
    {default : Option String} (haliases : ∀ q t, aliases.get? q = some t → t = q) (hf : QualifiedBy U T f)
    (hdefault : aliases.get? T = none → T = "" → default = none) :
    canonicalPredicate U G f aliases default = bare U (G.sql dialectPostgres (copy f)) := by
  rw [canonicalPredicate_eq_bare]
  refine hG.qualifier _ _ fun x hx => ?_
  obtain ⟨y, hy, hcls⟩ := mem_walk_hang (copy_eq_hang f ▸ hx)
  unfold qualify
  split
  · rename_i c hc
    obtain ⟨i, hi, hT⟩ := hf c (mem_columns.2 ⟨y, hy, hcls ▸ hc⟩)
    have hqualifier : c.qualifier U = T := by
      rw [Column.qualifier, hi, identName, Option.map_some, Option.getD_some, hT]
    rw [hqualifier]
    have hvariant : ∀ t, t = T → U.upper (G.toIdentifier t).name = U.upper i.name := by
      rintro t rfl
      rw [hG.identifier, ← hT, hU.idem]
    split
    · rename_i t ht
      exact Or.inr ⟨c, i, _, hc, hi, hvariant t (haliases T t ht), rfl⟩
    · rename_i hnone
      split
      · rename_i t
        split_ifs with hempty
        · exact absurd (hdefault hnone hempty.1) (by simp)
        · exact Or.inl rfl
      · exact Or.inl rfl
  · exact Or.inl rfl

theorem QualifiedBy.hang (hf : QualifiedBy U T f) (k : Arg) : QualifiedBy U T (hang k f) := by
  intro c hc
  obtain ⟨x, hx, hcls⟩ := mem_columns.1 hc
  obtain ⟨y, hy, hxy⟩ := mem_walk_hang hx
  exact hf c (mem_columns.2 ⟨y, hy, hxy ▸ hcls⟩)

theorem QualifiedBy.mono {p : Expression} (hf : QualifiedBy U T f) (h : p ∈ f.walk) : QualifiedBy U T p := by
  intro c hc
  obtain ⟨x, hx, hcls⟩ := mem_columns.1 hc
  exact hf c (mem_columns.2 ⟨x, RoseTree.mem_walk_trans hx h, hcls⟩)

end

/-! ## A SELECT over one table -/

/-- The SELECT reads the table `T` by its name and nothing else, and `w` is its WHERE. -/
structure OverAlone (U : Unicode) (T : String) (s w : Expression) : Prop where
  from_ : ∃ from_ item t, s.arg? .from_ = some from_ ∧ from_.arg? .this = some item ∧ item.cls = .table t ∧
    t.key U = T ∧ U.upper t.aliasOrName.name = T
  joins : s.argList .joins = []
  where_ : ∃ where_, s.arg? .where_ = some where_ ∧ where_.arg? .this = some (hang .this w)

section
variable {U : Unicode} {G : Sqlglot} {dialect filter T : String} {cteNames : List String} {f s w : Expression}

theorem OverAlone.whereConjuncts_eq (h : OverAlone U T s w) : whereConjuncts s = conjuncts (hang .this w) := by
  obtain ⟨where_, hwhere, hthis⟩ := h.where_
  rw [whereConjuncts, hwhere, Option.bind_some, hthis]
  rfl

theorem OverAlone.aliasMap_eq (h : OverAlone U T s w) :
    aliasMap U cteNames s = if T ∈ cteNames then [] else [(T, T)] := by
  obtain ⟨from_, item, t, hfrom, hthis, hcls, rfl, hname⟩ := h.from_
  have htables : scopeTables s = [t] := by
    rw [scopeTables, hfrom, h.joins, List.append_nil, Option.toList_some,
      List.filterMap_cons_some hthis, List.filterMap_nil]
    simp [tables, hcls]
  rw [aliasMap, htables, List.foldl_cons, List.foldl_nil, hname]
  rfl

theorem OverAlone.scopeNames_eq (h : OverAlone U T s w) :
    scopeNames U cteNames s = if T ∈ cteNames then [] else [T] := by
  rw [scopeNames, h.aliasMap_eq]
  split_ifs <;> rfl

theorem OverAlone.canonicalConjuncts_eq (h : OverAlone U T s w) (hcte : T ∉ cteNames) :
    canonicalConjuncts U G cteNames s =
      (conjuncts (hang .this w)).map fun p => canonicalPredicate U G p [(T, T)] (some T) := by
  rw [canonicalConjuncts, h.whereConjuncts_eq, defaultTable, h.aliasMap_eq, h.scopeNames_eq, if_neg hcte, if_neg hcte]

/-- Over `T` alone, both sides of the comparison are bare texts. -/
theorem Prints.canonical_alone (hG : Prints U G dialect) (hU : Uppercases U) (hf : QualifiedBy U T f) :
    canonicalPredicate U G f [(T, T)] (some T) = bare U (G.sql dialectPostgres (copy f)) := by
  refine hG.canonical hU (fun q t ht => ?_) hf (fun hnone => ?_)
  · rw [Dict.get?, List.lookup_cons] at ht
    split at ht
    · rename_i hq
      exact (Option.some.inj ht).symm.trans (eq_of_beq hq).symm
    · cases ht
  · simp [Dict.get?] at hnone

theorem Prints.canonical_filter (hG : Prints U G dialect) (hU : Uppercases U) (hf : QualifiedBy U T f) :
    canonicalPredicate U G f [] none = bare U (G.sql dialectPostgres (copy f)) :=
  hG.canonical hU nofun hf fun _ _ => rfl

end

/-! ## Satisfiable filters -/

/-- The WHERE is the filter, or has it among the conditions it combines. -/
def HasFilter (f w : Expression) : Prop := w = f ∨ Combined f w

/-- No SELECT over `T` alone that has the filter gets a violation for it. -/
def Satisfiable (U : Unicode) (G : Sqlglot) (dialect T filter : String) (f : Expression) : Prop :=
  ∀ tree s w, s ∈ selects tree → OverAlone U T s w → HasFilter f w →
    filterViolation U G dialect (cteNamesOf U tree) s filter = .ok none

section
variable {U : Unicode} {G : Sqlglot} {dialect filter T : String} {cteNames : List String} {f s w : Expression}

/-- A filter without AND and OR at its root is a conjunct of what has it. -/
theorem exists_mem_conjuncts (hand : f.cls ≠ .and) (hor : f.cls ≠ clsOr) (h : HasFilter f w) (k : Arg) :
    ∃ k', hang k' f ∈ conjuncts (hang k w) := by
  have hself : ∀ k, hang k f ∈ conjuncts (hang k f) := fun k => by
    rw [conjuncts_of_ne (by rwa [cls_hang])]
    exact List.mem_singleton_self _
  rcases h with rfl | h
  · exact ⟨k, hself k⟩
  · induction h generalizing k with
    | operand =>
      rw [operand, if_neg hor]
      exact ⟨k, hself k⟩
    | left c _ ih =>
      obtain ⟨k', hk'⟩ := ih .this
      rw [conjuncts_hang_andOf]
      exact ⟨k', List.mem_append_left _ hk'⟩
    | right c _ ih =>
      obtain ⟨k', hk'⟩ := ih .expression
      rw [conjuncts_hang_andOf]
      exact ⟨k', List.mem_append_right _ hk'⟩

theorem satisfiable_of_shape (hG : Prints U G dialect) (hU : Uppercases U)
    (hparse : G.parseOne dialect filter = .ok f) (hf : QualifiedBy U T f) (hand : f.cls ≠ .and)
    (hor : f.cls ≠ clsOr) : Satisfiable U G dialect T filter f := by
  intro tree s w _ hs hw
  refine (filterViolation_eq_none_iff hparse).2 fun ⟨t, _, ht⟩ => ?_
  rw [hs.scopeNames_eq] at ht
  split_ifs at ht with hcte
  · cases ht
  · obtain ⟨k, hk⟩ := exists_mem_conjuncts hand hor hw .this
    rw [Matched, hs.canonicalConjuncts_eq hcte, hG.canonical_filter hU hf]
    refine List.mem_map.2 ⟨hang k f, hk, ?_⟩
    rw [hG.canonical_alone hU (hf.hang k), copy_hang]

/-! ## Filters that are never found -/

theorem bare_ascii {text : String} (h : text.toList.all fun c => c.toNat < 128) : bare U text = bare .ascii text := by
  have hupper : U.upper text = asciiUpper text :=
    U.upper_ascii text (ascii_of_all h)
  rw [bare, hupper]
  rfl

theorem Uppercases.length_conj (hU : Uppercases U) (s t : String) :
    (bare U s).length + (bare U t).length < (bare U (s ++ " AND " ++ t)).length := by
  have hlength : (bare U " AND ").length = 5 := by
    rw [bare_ascii (by decide)]
    decide
  rw [hU.bare_append, hU.bare_append, String.length_append, String.length_append, hlength]
  omega

/-- A conjunct is no longer than the whole, and shorter than an AND. -/
theorem Prints.length_conjunct (hG : Prints U G dialect) (hU : Uppercases U) {e : Expression}
    (he : ∀ x ∈ e.walk, Expression.cls x = .and → (arg? .this x).isSome ∧ (arg? .expression x).isSome)
    {p : Expression} (hp : p ∈ conjuncts e) :
    (bare U (G.sql dialectPostgres (copy p))).length ≤ (bare U (G.sql dialectPostgres (copy e))).length ∧
      (e.cls = .and →
        (bare U (G.sql dialectPostgres (copy p))).length < (bare U (G.sql dialectPostgres (copy e))).length) := by
  induction e using RoseTree.induct generalizing p with
  | step l ts ih =>
    by_cases hand : Expression.cls (.node l ts) = .and
    · obtain ⟨hthis, hexpression⟩ := he _ (RoseTree.mem_walk_self _) hand
      obtain ⟨left, hleft⟩ := Option.isSome_iff_exists.1 hthis
      obtain ⟨right, hright⟩ := Option.isSome_iff_exists.1 hexpression
      have hlength := hU.length_conj (G.sql dialectPostgres (copy left)) (G.sql dialectPostgres (copy right))
      rw [← hG.conj hand hleft hright] at hlength
      have hchild : ∀ k c, arg? k (.node l ts) = some c → p ∈ conjuncts c →
          (bare U (G.sql dialectPostgres (copy p))).length ≤ (bare U (G.sql dialectPostgres (copy c))).length := by
        intro k c hc hpc
        have hmem : c ∈ ts := List.mem_of_find?_eq_some hc
        exact (ih c hmem (fun x hx => he x (RoseTree.mem_walk_iff.2 (Or.inr ⟨c, hmem, hx⟩))) hpc).1
      rw [conjuncts_of_and hand, hleft, hright] at hp
      have hlt : (bare U (G.sql dialectPostgres (copy p))).length <
          (bare U (G.sql dialectPostgres (copy (.node l ts)))).length := by
        rcases List.mem_append.1 hp with hp | hp
        · have := hchild .this left hleft hp
          omega
        · have := hchild .expression right hright hp
          omega
      exact ⟨hlt.le, fun _ => hlt⟩
    · rw [conjuncts_of_ne hand, List.mem_singleton] at hp
      rw [hp]
      exact ⟨le_rfl, fun h => absurd h hand⟩

theorem mem_cteNamesOf_iff {e : Expression} {n : String} :
    n ∈ cteNamesOf U e ↔ ∃ x ∈ e.walk, ∃ a names, Expression.cls x = .cte a names ∧ U.upper a.name = n := by
  simp only [cteNamesOf, List.mem_filterMap]
  refine exists_congr fun x => and_congr_right fun _ => ?_
  split
  · rename_i a names hcls
    simp [hcls]
  · rename_i hnot
    refine iff_of_false nofun ?_
    rintro ⟨a, names, hcls, -⟩
    exact hnot a names hcls

theorem mem_cteNamesOf_node {l : Label} {ts : List Expression} {n : String} (h : ∀ a names, l.cls ≠ .cte a names) :
    n ∈ cteNamesOf U (.node l ts) ↔ ∃ t ∈ ts, n ∈ cteNamesOf U t := by
  rw [mem_cteNamesOf_iff]
  constructor
  · rintro ⟨x, hx, a, names, hcls, hname⟩
    rcases RoseTree.mem_walk_iff.1 hx with rfl | ⟨t, ht, hx⟩
    · exact absurd hcls (h a names)
    · exact ⟨t, ht, mem_cteNamesOf_iff.2 ⟨x, hx, a, names, hcls, hname⟩⟩
  · rintro ⟨t, ht, hn⟩
    obtain ⟨x, hx, hcte⟩ := mem_cteNamesOf_iff.1 hn
    exact ⟨x, RoseTree.mem_walk_iff.2 (Or.inr ⟨t, ht, hx⟩), hcte⟩

theorem mem_cteNamesOf_hang {k : Arg} {e : Expression} {n : String} :
    n ∈ cteNamesOf U (hang k e) ↔ n ∈ cteNamesOf U e := by
  have hsubset : ∀ (k : Arg) (e : Expression), n ∈ cteNamesOf U (hang k e) → n ∈ cteNamesOf U e := by
    intro k e hn
    obtain ⟨x, hx, a, names, hcls, hname⟩ := mem_cteNamesOf_iff.1 hn
    obtain ⟨y, hy, hxy⟩ := mem_walk_hang hx
    exact mem_cteNamesOf_iff.2 ⟨y, hy, a, names, hxy ▸ hcls, hname⟩
  have hback : hang e.label.arg (hang k e) = e := by
    cases e with
    | node l ts => rfl
  exact ⟨hsubset k e, fun hn => hsubset e.label.arg (hang k e) (hback.symm ▸ hn)⟩

theorem cteNamesOf_subset {e e' : Expression} (h : e ∈ e'.walk) : cteNamesOf U e ⊆ cteNamesOf U e' := by
  intro n hn
  obtain ⟨x, hx, hcte⟩ := mem_cteNamesOf_iff.1 hn
  exact mem_cteNamesOf_iff.2 ⟨x, RoseTree.mem_walk_trans hx h, hcte⟩

theorem mem_cteNamesOf_andOf {l r : Expression} {n : String} :
    n ∈ cteNamesOf U (andOf l r) ↔ n ∈ cteNamesOf U l ∨ n ∈ cteNamesOf U r := by
  simp [andOf, mk, mem_cteNamesOf_node, mem_cteNamesOf_hang]

theorem mem_cteNamesOf_parenOf {e : Expression} {n : String} :
    n ∈ cteNamesOf U (parenOf e) ↔ n ∈ cteNamesOf U e := by
  simp [parenOf, mk, mem_cteNamesOf_node, mem_cteNamesOf_hang]

/-- What has the filter has its CTEs. -/
theorem HasFilter.cteNamesOf_subset (h : HasFilter f w) : cteNamesOf U f ⊆ cteNamesOf U w := by
  intro n hn
  rcases h with rfl | h
  · exact hn
  · induction h with
    | operand =>
      rw [operand]
      split_ifs
      · exact mem_cteNamesOf_parenOf.2 hn
      · exact hn
    | left c _ ih => exact mem_cteNamesOf_andOf.2 (Or.inl ih)
    | right c _ ih => exact mem_cteNamesOf_andOf.2 (Or.inr ih)

theorem OverAlone.cteNamesOf_subset (h : OverAlone U T s w) : cteNamesOf U w ⊆ cteNamesOf U s := by
  obtain ⟨where_, hwhere, hthis⟩ := h.where_
  have hwalk : hang .this w ∈ s.walk := RoseTree.mem_walk_child
    (RoseTree.mem_walk_child (RoseTree.mem_walk_self s) (List.mem_of_find?_eq_some hwhere))
    (List.mem_of_find?_eq_some hthis)
  intro n hn
  exact RoboMeta.cteNamesOf_subset hwalk (mem_cteNamesOf_hang.2 hn)

/-- `SELECT * FROM i WHERE w`. -/
def selectWhere (i : Ident) (w : Expression) : Expression :=
  mk .root .select [
    mk .expressions .star,
    mk .from_ .from_ [mk .this (.table { this := i })],
    mk .where_ .where_ [hang .this w]]

theorem overAlone_selectWhere {i : Ident} (hi : U.upper i.name = T) : OverAlone U T (selectWhere i w) w where
  from_ := ⟨_, _, { this := i }, rfl, rfl, rfl, hi, hi⟩
  joins := rfl
  where_ := by
    refine ⟨_, rfl, ?_⟩
    cases w with
    | node l ts => rfl

/-- The CTEs of the query are those of its WHERE. -/
theorem cteNamesOf_selectWhere (i : Ident) : cteNamesOf U (selectWhere i w) ⊆ cteNamesOf U w := by
  intro n hn
  simpa [selectWhere, mk, mem_cteNamesOf_node, mem_cteNamesOf_hang] using hn

theorem QualifiedBy.parenOf (hf : QualifiedBy U T f) : QualifiedBy U T (parenOf f) := by
  intro c hc
  obtain ⟨x, hx, hcls⟩ := mem_columns.1 hc
  rcases RoseTree.mem_walk_iff.1 hx with rfl | ⟨y, hy, hx⟩
  · cases hcls
  · obtain rfl := List.mem_singleton.1 hy
    exact hf.hang .this c (mem_columns.2 ⟨x, hx, hcls⟩)

theorem conjuncts_hang_of_and (h : f.cls = .and) (k : Arg) : conjuncts (hang k f) = conjuncts f := by
  rw [conjuncts_of_and h, conjuncts_of_and (by rwa [cls_hang]), arg?_hang, arg?_hang]

theorem conjuncts_hang_parenOf (k : Arg) (e : Expression) : conjuncts (hang k (parenOf e)) = [hang k (parenOf e)] :=
  conjuncts_of_ne (by rw [cls_hang]; nofun)

theorem Prints.length_paren (hG : Prints U G dialect) (hU : Uppercases U) (e : Expression) :
    (bare U (G.sql dialectPostgres (copy e))).length < (bare U (G.sql dialectPostgres (parenOf e))).length := by
  have hlength : (bare U "(").length = 1 := by
    rw [bare_ascii (by decide)]
    decide
  rw [hG.paren, hU.bare_append, hU.bare_append, String.length_append, String.length_append, hlength]
  omega

/-- Some WHERE has the filter, and no conjunct of it has the filter's text. -/
theorem exists_unmatched (hG : Prints U G dialect) (hU : Uppercases U) (hparse : G.parseOne dialect filter = .ok f)
    (hf : QualifiedBy U T f) (hshape : f.cls = .and ∨ f.cls = clsOr) :
    ∃ w, HasFilter f w ∧ cteNamesOf U w ⊆ cteNamesOf U f ∧ ∀ p ∈ conjuncts (hang .this w),
      canonicalPredicate U G p [(T, T)] (some T) ≠ canonicalPredicate U G f [] none := by
  rw [hG.canonical_filter hU hf]
  rcases hshape with hand | hor
  · refine ⟨f, Or.inl rfl, fun _ h => h, fun p hp heq => ?_⟩
    rw [conjuncts_hang_of_and hand] at hp
    have hlt := (hG.length_conjunct hU (hG.parsed _ _ hparse) hp).2 hand
    rw [hG.canonical_alone hU (hf.mono (mem_walk_of_mem_conjuncts hp))] at heq
    exact hlt.ne (congrArg String.length heq)
  · have hoperand : operand f = parenOf f := if_pos hor
    refine ⟨andOf (parenOf f) (parenOf f), Or.inr (hoperand ▸ .left _ .operand), ?_, fun p hp heq => ?_⟩
    · intro n hn
      rcases mem_cteNamesOf_andOf.1 hn with hn | hn
      · exact mem_cteNamesOf_parenOf.1 hn
      · exact mem_cteNamesOf_parenOf.1 hn
    · have hk : ∃ k, p = hang k (parenOf f) := by
        rw [conjuncts_hang_andOf, conjuncts_hang_parenOf, conjuncts_hang_parenOf] at hp
        rcases List.mem_append.1 hp with hp | hp
        · exact ⟨_, List.mem_singleton.1 hp⟩
        · exact ⟨_, List.mem_singleton.1 hp⟩
      obtain ⟨k, rfl⟩ := hk
      rw [hG.canonical_alone hU (hf.parenOf.hang k), copy_hang] at heq
      exact (hG.length_paren hU f).ne (congrArg String.length heq.symm)

/-- **Satisfiable filters.**  A filter whose columns are those of `T` is found in
    every WHERE that has it iff it has no AND and no OR at its root, or has no
    column, or a CTE of its own takes the name of `T`. -/
theorem satisfiable_iff (hG : Prints U G dialect) (hU : Uppercases U) (hparse : G.parseOne dialect filter = .ok f)
    (hf : QualifiedBy U T f) :
    Satisfiable U G dialect T filter f ↔
      T ∉ mandatoryTables U f ∨ T ∈ cteNamesOf U f ∨ f.cls ≠ .and ∧ f.cls ≠ clsOr := by
  constructor
  · intro h
    by_contra! hnot
    obtain ⟨hcolumn, hcte, hshape⟩ := hnot
    have hshape : f.cls = .and ∨ f.cls = clsOr := or_iff_not_imp_left.2 hshape
    obtain ⟨w, hw, hctes, hunmatched⟩ := exists_unmatched hG hU hparse hf hshape
    -- the query over the table that the columns of the filter name
    obtain ⟨c, hc, -⟩ := List.mem_map.1 hcolumn
    obtain ⟨i, -, hi⟩ := hf c hc
    have halone : OverAlone U T (selectWhere i w) w := overAlone_selectWhere hi
    have hcte : T ∉ cteNamesOf U (selectWhere i w) := fun hT => hcte (hctes (cteNamesOf_selectWhere i hT))
    have hnone := h (selectWhere i w) (selectWhere i w) w (mem_selects.2 ⟨RoseTree.mem_walk_self _, rfl⟩) halone hw
    have hsought : Sought U (cteNamesOf U (selectWhere i w)) f (selectWhere i w) :=
      ⟨T, hcolumn, by rw [halone.scopeNames_eq, if_neg hcte]; exact List.mem_singleton_self T⟩
    have hmatched := (filterViolation_eq_none_iff hparse).1 hnone hsought
    rw [Matched, halone.canonicalConjuncts_eq hcte] at hmatched
    obtain ⟨p, hp, heq⟩ := List.mem_map.1 hmatched
    exact hunmatched p hp heq
  · rintro (hcolumn | hcte | ⟨hand, hor⟩)
    · intro tree s w _ halone _
      refine (filterViolation_eq_none_iff hparse).2 fun ⟨t, ht, hscope⟩ => ?_
      rw [halone.scopeNames_eq] at hscope
      split_ifs at hscope
      · cases hscope
      · exact absurd (List.mem_singleton.1 hscope ▸ ht) hcolumn
    · intro tree s w hs halone hw
      have hcte : T ∈ cteNamesOf U tree := cteNamesOf_subset (mem_selects.1 hs).1
        (halone.cteNamesOf_subset (hw.cteNamesOf_subset hcte))
      refine (filterViolation_eq_none_iff hparse).2 fun ⟨t, _, hscope⟩ => ?_
      rw [halone.scopeNames_eq, if_pos hcte] at hscope
      cases hscope
    · exact satisfiable_of_shape hG hU hparse hf hand hor

end

/-! ## A printer -/

mutual
/-- Text of comparisons, AND and parentheses. -/
def plainText : Expression → String
  | .node l ts => match l.cls with
    | .and => plainArg .this ts ++ " AND " ++ plainArg .expression ts
    | .paren => "(" ++ plainArg .this ts ++ ")"
    | .eq => plainArg .this ts ++ " = " ++ plainArg .expression ts
    | .column c => identName c.table ++ "." ++ c.name
    | .other name => name
    | _ => ""

def plainArg (k : Arg) : List Expression → String
  | [] => ""
  | t :: ts => if t.label.arg = k then plainText t else plainArg k ts
end

/-- The library with this printer. -/
def plainSqlglot (texts : List (String × Expression)) : Sqlglot :=
  { Sqlglot.ofTexts texts with sql := fun _ => plainText }

theorem plainArg_eq (k : Arg) (ts : List Expression) :
    plainArg k ts = (ts.find? fun t => t.label.arg = k).elim "" plainText :=
  eq_elim_find? rfl (fun t ts => by rw [plainArg]) ts

theorem plainText_copy (e : Expression) : plainText (copy e) = plainText e := by
  cases e with
  | node l ts => simp only [copy, plainText]

theorem toUpper_toUpper (c : Char) : c.toUpper.toUpper = c.toUpper := by
  by_cases h : 'a'.val ≤ c.val ∧ c.val ≤ 'z'.val
  · have hletters : ∀ n < 26, (Char.ofNat (97 + n)).toUpper.toUpper = (Char.ofNat (97 + n)).toUpper := by decide
    have hlow : 97 ≤ c.toNat := UInt32.le_iff_toNat_le.1 h.1
    have hhigh : c.toNat ≤ 122 := UInt32.le_iff_toNat_le.1 h.2
    have hc : c = Char.ofNat (97 + (c.toNat - 97)) := by
      rw [Nat.add_sub_cancel' hlow, Char.ofNat_toNat]
    rw [hc]
    exact hletters _ (by omega)
  · have hc : c.toUpper = c := dif_neg h
    rw [hc, hc]

theorem uppercases_ascii : Uppercases .ascii where
  append s t := by
    show asciiUpper _ = asciiUpper _ ++ asciiUpper _
    simp [asciiUpper]
  idem s := by
    show asciiUpper (asciiUpper s) = asciiUpper s
    simp only [asciiUpper, String.toList_ofList, List.map_map, Function.comp_def, toUpper_toUpper]

section
variable {U : Unicode} {g : Label → Label}

theorem CaseVariant.arg_eq {l l' : Label} (h : CaseVariant U l l') : l'.arg = l.arg := by
  rcases h with rfl | ⟨_, _, _, _, _, _, rfl⟩ <;> rfl

theorem bare_plainArg (k : Arg) {ts : List Expression} (harg : ∀ t ∈ ts, (t.map g).label.arg = t.label.arg)
    (htext : ∀ t ∈ ts, bare U (plainText (t.map g)) = bare U (plainText t)) :
    bare U (plainArg k (ts.map (RoseTree.map g))) = bare U (plainArg k ts) := by
  induction ts with
  | nil => rfl
  | cons t ts ih =>
    rw [List.map_cons, plainArg, plainArg, harg t List.mem_cons_self]
    split_ifs
    · exact htext t List.mem_cons_self
    · exact ih (fun u hu => harg u (List.mem_cons_of_mem t hu)) fun u hu => htext u (List.mem_cons_of_mem t hu)

theorem bare_plainText_map (hU : Uppercases U) (e : Expression)
    (h : ∀ x ∈ e.walk, CaseVariant U x.label (g x.label)) :
    bare U (plainText (e.map g)) = bare U (plainText e) := by
  induction e using RoseTree.induct with
  | step l ts ih =>
    have hchild : ∀ t ∈ ts, ∀ x ∈ t.walk, CaseVariant U x.label (g x.label) := fun t ht x hx =>
      h x (RoseTree.mem_walk_iff.2 (Or.inr ⟨t, ht, hx⟩))
    have hargs : ∀ k, bare U (plainArg k (ts.map (RoseTree.map g))) = bare U (plainArg k ts) := fun k =>
      bare_plainArg k (fun t ht => by
        cases t with
        | node a us => exact (hchild _ ht _ (RoseTree.mem_walk_self _)).arg_eq) fun t ht => ih t ht (hchild t ht)
    rw [RoseTree.map_node]
    rcases h _ (RoseTree.mem_walk_self _) with hsame | ⟨c, i, j, hc, hi, hname, hl⟩
    · have hsame : g l = l := hsame
      rw [hsame, plainText, plainText]
      split <;> simp only [hU.bare_append, hargs]
    · have hc : l.cls = .column c := hc
      have hl : g l = { l with cls := .column { c with table := some j } } := hl
      have hbare : bare U j.name = bare U i.name := by rw [bare, bare, hname]
      simp only [hl, plainText, hc, hi, identName, Option.map_some, Option.getD_some, hU.bare_append, hbare]
      rfl

end

/-- The printer prints as it is relied on, for a parser that gives every AND two operands. -/
theorem prints_plainSqlglot {texts : List (String × Expression)} {dialect : String}
    (h : ∀ entry ∈ texts, ∀ e ∈ entry.2.walk, Expression.cls e = .and →
      (arg? .this e).isSome ∧ (arg? .expression e).isSome) :
    Prints .ascii (plainSqlglot texts) dialect where
  conj {e l r} hand hl hr := by
    show plainText (copy e) = plainText (copy l) ++ " AND " ++ plainText (copy r)
    rw [plainText_copy, plainText_copy, plainText_copy]
    cases e with
    | node a ts =>
      have hand : a.cls = .and := hand
      have hl : ts.find? (fun t => t.label.arg = .this) = some l := hl
      have hr : ts.find? (fun t => t.label.arg = .expression) = some r := hr
      simp only [plainText, hand, plainArg_eq, hl, hr, Option.elim_some]
  paren e := by
    show plainText (parenOf e) = "(" ++ plainText (copy e) ++ ")"
    rw [plainText_copy]
    cases e with
    | node a ts => simp only [parenOf, mk, plainText, plainArg, hang, RoseTree.label, if_true]
  qualifier e g hg := bare_plainText_map uppercases_ascii e hg
  identifier _ := rfl
  parsed text f hf e he hand :=
    h (text, f) (Sqlglot.mem_of_parseOne (show (Sqlglot.ofTexts texts).parseOne dialect text = .ok f from hf)) e he hand

/-! ## Two flags -/

def liveFilter : Expression :=
  mk .root .eq [
    mk .this (.column { table := some ⟨"t", false⟩, this := some ⟨"live", false⟩ }),
    mk .expression (.other "'Y'")]

/-- `t.flag = 'Y' AND t.live = 'Y'`. -/
def twoFlags : String × Expression := ("t.flag = 'Y' AND t.live = 'Y'", andOf (flagFilter "t") liveFilter)

/-- The query with the filter verbatim. -/
def verbatim : String × Expression :=
  ("SELECT * FROM t WHERE t.flag = 'Y' AND t.live = 'Y'", selectWhere ⟨"t", false⟩ twoFlags.2)

def twoFlagsPayload : Payload where
  bindings := [{
    bindingType := .filter
    name := "flags"
    spec := {
      sourceColumns := [
        { logicalDatabase := "db", schemaName := "public", objectName := "t", columnName := some "flag" },
        { logicalDatabase := "db", schemaName := "public", objectName := "t", columnName := some "live" }]
      filterIsMandatory := true
      expressionSql := some twoFlags.1 } }]

/-- The filter is not found in its own WHERE. -/
theorem satisfiable_twoFlags :
    QualifiedBy .ascii "T" twoFlags.2 ∧ OverAlone .ascii "T" verbatim.2 twoFlags.2 ∧
      validateSqlAgainstArtifact .ascii (plainSqlglot [verbatim, twoFlags]) dialectPostgres verbatim.1 twoFlagsPayload =
        .ok ["mandatory filter 누락 또는 우회: T.FLAG = 'Y' AND T.LIVE = 'Y'"] := by
  refine ⟨fun c hc => ?_, overAlone_selectWhere rfl, by decide +kernel⟩
  have hcolumns : columns twoFlags.2.walk = [
      { table := some ⟨"t", false⟩, this := some ⟨"flag", false⟩ },
      { table := some ⟨"t", false⟩, this := some ⟨"live", false⟩ }] := rfl
  rw [hcolumns] at hc
  rcases List.mem_cons.1 hc with rfl | hc
  · exact ⟨_, rfl, rfl⟩
  · obtain rfl := List.mem_singleton.1 hc
    exact ⟨_, rfl, rfl⟩

theorem satisfiable_iff_flag :
    Satisfiable .ascii (plainSqlglot [("t.flag = 'Y'", flagFilter "t")]) dialectPostgres "T" "t.flag = 'Y'"
        (flagFilter "t") ↔
      "T" ∉ mandatoryTables .ascii (flagFilter "t") ∨ "T" ∈ cteNamesOf .ascii (flagFilter "t") ∨
        (flagFilter "t").cls ≠ .and ∧ (flagFilter "t").cls ≠ clsOr :=
  satisfiable_iff (prints_plainSqlglot (by decide)) uppercases_ascii rfl fun c hc => by
    obtain rfl := List.mem_singleton.1 (show c ∈ [_] from hc)
    exact ⟨_, rfl, rfl⟩

end RoboMeta
