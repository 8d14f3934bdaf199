/-
  The guard on a query with fresh names.

  Once all sources and CTEs have names that occur nowhere else, a lookup finds
  what a reference is bound to, or nothing.

  * `WellMarked`, `FreshIn`: what is asked of the marks and of the names;
  * `mem_cteNamesOf_renamed`, `aliasMap_renamed`: the CTE names and the alias
    maps of the text;
  * `fault_renamed_iff`: its faults are those by binding.
-/
import RoboMeta.Readings

namespace RoboMeta

open Expression

/-! ## Fresh names -/

def Mark.binders : Mark → List Binder
  | .unmarked => []
  | .source k ref => .source k :: (ref.map Binder.cte).toList
  | .target k | .derived k | .column k => [.source k]
  | .cte n => [.cte n]

def Resolved.binders (A : Resolved) : List Binder := A.walk.flatMap fun (x : Resolved) => x.mark.binders

def Cls.idents : Cls → List Ident
  | .table t => t.catalog.toList ++ t.db.toList ++ t.this :: t.alias_.toList
  | .column c => c.catalog.toList ++ c.db.toList ++ c.table.toList ++ c.this.toList
  | .subquery a columns | .lateral a columns => a.toList ++ columns
  | .cte a columns => a :: columns
  | .alias_ a => [a]
  | _ => []

section
variable (U : Unicode) (G : Sqlglot) (dialect : String) (allow : Allowlist)

/-- The name stands in the text, not as a part of a longer word. -/
def StandsIn (name text : String) : Prop :=
  ∃ u v : Text, text.toList = u ++ name.toList ++ v ∧
    (∀ c ∈ u.getLast?, U.isWord c = false) ∧ ∀ c ∈ v.head?, U.isWord c = false

/-- The printer shows the identifiers of a tree. -/
def PrintsNames : Prop :=
  ∀ e : Expression, ∀ x ∈ e.walk, ∀ i ∈ (Expression.cls x).idents, bare U i.name ≠ "" →
    StandsIn U (bare U i.name) (bare U (G.sql dialectPostgres e))

/-- What is asked of the marks of a query, whatever the rules are by which its
    references were resolved. -/
structure WellMarked (A : Resolved) : Prop where
  fits : ∀ x : Resolved, x ∈ A.walk → x.cls.fits x.mark = true
  from_ : ∀ s ∈ A.selects, ∀ x ∈ s.fromItems, ∀ t, x.cls = .table t → ∃ k ref, x.mark = .source k ref
  reference : ∀ x : Resolved, x ∈ A.walk → ∀ k n, x.mark = .source k (some n) →
    ∃ y : Resolved, y ∈ A.walk ∧ y.mark = .cte n
  distinct : ∀ s ∈ A.selects, (s.sources.map Prod.fst).Nodup

/-- The names occur neither in the query nor in what the guard reads of the payload. -/
structure FreshIn (A : Resolved) (ρ : Binder → Ident) : Prop where
  injective : ∀ b ∈ A.binders, ∀ b' ∈ A.binders, U.upper (ρ b).name = U.upper (ρ b').name → b = b'
  nonempty : ∀ b ∈ A.binders, bare U (ρ b).name ≠ ""
  query : ∀ b ∈ A.binders, ∀ x : Resolved, x ∈ A.walk → ∀ i ∈ x.cls.idents, U.upper (ρ b).name ≠ U.upper i.name
  tables : ∀ b ∈ A.binders, U.upper (ρ b).name ∉ allow.tables
  filters : ∀ b ∈ A.binders, ∀ m ∈ allow.mandatoryFilters, ∀ f, G.parseOne dialect m = .ok f →
    ¬ StandsIn U (bare U (ρ b).name) (canonicalPredicate U G f [] none)

end

section
variable {U : Unicode} {G : Sqlglot} {dialect : String} {allow : Allowlist} {A s p x : Resolved} {ρ : Binder → Ident}

/-- Nodes by their class and mark. -/
@[elab_as_elim]
theorem WellMarked.node_cases (hmarked : WellMarked A) {P : (x : Resolved) → x ∈ A.walk → Prop}
    (source : ∀ arg t k ref ts (h : .node (⟨arg, .table t⟩, .source k ref) ts ∈ A.walk), P _ h)
    (target : ∀ arg t k ts (h : .node (⟨arg, .table t⟩, .target k) ts ∈ A.walk), P _ h)
    (subquery : ∀ arg a columns k ts (h : .node (⟨arg, .subquery (some a) columns⟩, .derived k) ts ∈ A.walk), P _ h)
    (lateral : ∀ arg a columns k ts (h : .node (⟨arg, .lateral (some a) columns⟩, .derived k) ts ∈ A.walk), P _ h)
    (cte : ∀ arg a columns n ts (h : .node (⟨arg, .cte a columns⟩, .cte n) ts ∈ A.walk), P _ h)
    (column : ∀ arg c k ts (h : .node (⟨arg, .column c⟩, .column k) ts ∈ A.walk), P _ h)
    (unmarked : ∀ arg (cls : Cls) ts (h : .node (⟨arg, cls⟩, .unmarked) ts ∈ A.walk),
      (∀ a columns, cls ≠ .cte a columns) → P _ h)
    {x : Resolved} (hx : x ∈ A.walk) : P x hx := by
  have hfit := hmarked.fits x hx
  obtain ⟨⟨⟨arg, cls⟩, mark⟩, ts⟩ := x
  change cls.fits mark = true at hfit
  unfold Cls.fits at hfit
  split at hfit
  · exact source _ _ _ _ _ hx
  · exact target _ _ _ _ hx
  · exact subquery _ _ _ _ _ hx
  · exact lateral _ _ _ _ _ hx
  · exact cte _ _ _ _ _ hx
  · exact column _ _ _ _ hx
  · cases hfit
  · rename_i hcte
    exact unmarked _ _ _ hx hcte
  · cases hfit

theorem mem_binders (hx : x ∈ A.walk) {b : Binder} (hb : b ∈ x.mark.binders) : b ∈ A.binders :=
  List.mem_flatMap.2 ⟨x, hx, hb⟩

theorem source_mem_binders (hs : s ∈ A.selects) {k : ℕ} (hk : k ∈ s.sources.map Prod.fst) :
    Binder.source k ∈ A.binders := by
  obtain ⟨⟨k, t⟩, ho, rfl⟩ := List.mem_map.1 hk
  obtain ⟨x, hitem, -, hmark⟩ := Resolved.mem_sources.1 ho
  refine mem_binders (Resolved.mem_walk_of_mem_fromItems hs hitem) ?_
  rw [hmark]
  exact List.mem_cons_self

theorem upper_empty (U : Unicode) : U.upper "" = "" := U.upper_ascii "" (by simp)

section
variable (hfresh : FreshIn U G dialect allow A ρ) {b : Binder} (hb : b ∈ A.binders)
include hfresh hb

theorem FreshIn.upper_ne_empty : U.upper (ρ b).name ≠ "" := by
  intro hempty
  refine hfresh.nonempty b hb ?_
  rw [bare, hempty]
  rfl

/-- A qualifier that the query itself has is no fresh name. -/
theorem FreshIn.ne_qualifier (hx : x ∈ A.walk) {c : Column} (hc : x.cls = .column c) :
    U.upper (ρ b).name ≠ c.qualifier U := by
  rw [Column.qualifier]
  cases htable : c.table with
  | none =>
    change U.upper (ρ b).name ≠ U.upper ""
    rw [upper_empty]
    exact hfresh.upper_ne_empty hb
  | some q =>
    refine hfresh.query b hb x hx q ?_
    rw [hc, Cls.idents, htable]
    simp

end

/-! ## Canonical texts -/

section
variable {aliases : Dict String String} {default : Option String} {arg : Arg} {c : Column}

theorem qualify_of_some {t : String} (h : aliases.get? (c.qualifier U) = some t) :
    qualify U G aliases default ⟨arg, .column c⟩ = ⟨arg, .column { c with table := some (G.toIdentifier t) }⟩ := by
  simp only [qualify, h]

theorem qualify_of_none (h : aliases.get? (c.qualifier U) = none) :
    qualify U G aliases default ⟨arg, .column c⟩ = qualify U G [] default ⟨arg, .column c⟩ := by
  have hnil : Dict.get? ([] : Dict String String) (c.qualifier U) = none := rfl
  simp only [qualify, h, hnil]

/-- A qualifier that stands for no table is kept. -/
theorem qualify_of_ne_empty (h : aliases.get? (c.qualifier U) = none) (hne : c.qualifier U ≠ "") :
    qualify U G aliases default ⟨arg, .column c⟩ = ⟨arg, .column c⟩ := by
  cases default with
  | none => simp only [qualify, h]
  | some t => simp only [qualify, h, hne, false_and, if_false]

end

theorem copy_map_qualify (aliases : Dict String String) (default : Option String) (e : Expression) :
    (copy e).map (qualify U G aliases default) = copy (e.map (qualify U G aliases default)) := by
  have harg : ∀ l : Label, qualify U G aliases default { l with arg := .root } =
      { qualify U G aliases default l with arg := .root } := by
    rintro ⟨arg, cls⟩
    cases cls with
    | column c =>
      unfold qualify
      dsimp only
      split
      · rfl
      · split
        · split_ifs
          · rfl
          · rfl
        · rfl
    | _ => rfl
  cases e with
  | node l ts => rw [copy, RoseTree.map_node, RoseTree.map_node, copy, harg]

theorem exists_mem_walk_copy {e y : Expression} (hy : y ∈ e.walk) :
    ∃ z ∈ (copy e).walk, Expression.cls z = Expression.cls y := by
  have hback : hang e.label.arg (copy e) = e := by
    cases e with
    | node l ts => rfl
  rw [← hback] at hy
  obtain ⟨z, hz, hcls⟩ := mem_walk_hang hy
  exact ⟨z, hz, hcls.symm⟩

/-- The canonical text of a conjunct of the text `A.map g`. -/
theorem canonicalPredicate_map (g : Label × Mark → Label) (aliases : Dict String String) (default : Option String) :
    canonicalPredicate U G (p.map g) aliases default =
      bare U (G.sql dialectPostgres (copy (p.map (qualify U G aliases default ∘ g)))) := by
  rw [canonicalPredicate_eq_bare, copy_map_qualify, RoseTree.map_map]

/-- The names in a conjunct show in its canonical text. -/
theorem PrintsNames.standsIn (hG : PrintsNames U G) {g : Label × Mark → Label} {aliases : Dict String String}
    {default : Option String} (hx : x ∈ p.walk) {i : Ident}
    (hi : i ∈ (qualify U G aliases default (g x.label)).cls.idents) (hne : bare U i.name ≠ "") :
    StandsIn U (bare U i.name) (canonicalPredicate U G (p.map g) aliases default) := by
  have hmem : x.map (qualify U G aliases default ∘ g) ∈ (p.map (qualify U G aliases default ∘ g)).walk := by
    rw [RoseTree.walk_map]
    exact List.mem_map_of_mem hx
  obtain ⟨z, hz, hcls⟩ := exists_mem_walk_copy hmem
  rw [canonicalPredicate_map]
  refine hG _ z hz i ?_ hne
  rw [hcls, cls_map]
  exact hi

/-! ## CTE names and alias maps -/

/-- Tables under different names all stay in the alias map. -/
theorem aliasMap_eq_map {cteNames : List String} {select : Expression}
    (h : (((scopeTables select).filter fun t => t.key U ∉ cteNames).map fun t => U.upper t.aliasOrName.name).Nodup) :
    aliasMap U cteNames select =
      ((scopeTables select).filter fun t => t.key U ∉ cteNames).map fun t => (U.upper t.aliasOrName.name, t.key U) := by
  have hfold : ∀ (ts : List Table) (d : Dict String String),
      (d.map Prod.fst ++ (ts.filter fun t => t.key U ∉ cteNames).map fun t => U.upper t.aliasOrName.name).Nodup →
      ts.foldl (fun d t => if t.key U ∈ cteNames then d else d.set (U.upper t.aliasOrName.name) (t.key U)) d =
        d ++ (ts.filter fun t => t.key U ∉ cteNames).map fun t => (U.upper t.aliasOrName.name, t.key U) := by
    intro ts
    induction ts with
    | nil => exact fun d _ => (List.append_nil d).symm
    | cons t ts ih =>
      intro d hnodup
      rw [List.foldl_cons]
      by_cases hcte : t.key U ∈ cteNames
      · rw [List.filter_cons_of_neg (by simpa using hcte)] at hnodup ⊢
        rw [if_pos hcte, ih d hnodup]
      · rw [List.filter_cons_of_pos (by simpa using hcte), List.map_cons] at hnodup ⊢
        have hnew : U.upper t.aliasOrName.name ∉ d.map Prod.fst := fun hmem =>
          (List.nodup_append.1 hnodup).2.2 _ hmem _ List.mem_cons_self rfl
        rw [if_neg hcte, Dict.set_of_notMem hnew, ih _ (by simpa using hnodup), List.append_assoc]
        rfl
  exact hfold _ _ h

section
variable (hmarked : WellMarked A)
include hmarked

theorem mem_cteNamesOf_renamed {n : String} :
    n ∈ cteNamesOf U (renamed ρ A) ↔
      ∃ x : Resolved, x ∈ A.walk ∧ ∃ k, x.mark = .cte k ∧ U.upper (ρ (.cte k)).name = n := by
  rw [mem_cteNamesOf_iff, renamed, RoseTree.walk_map]
  simp only [List.mem_map, exists_exists_and_eq_and, cls_map]
  refine exists_congr fun x => and_congr_right fun hx => ?_
  cases hx using hmarked.node_cases with
  | cte => simp [relabel, Cls.renamed, RoseTree.label, Resolved.mark]
  | unmarked arg cls ts hx hcte =>
    refine iff_of_false ?_ (by simp [RoseTree.label, Resolved.mark])
    rintro ⟨a, columns, hcls, -⟩
    exact hcte a columns ((Cls.renamed_unmarked ρ cls).symm.trans hcls)
  | _ => simp [relabel, Cls.renamed, RoseTree.label, Resolved.mark]

theorem notMem_cteNamesOf_renamed {q : String}
    (hq : ∀ n, Binder.cte n ∈ A.binders → U.upper (ρ (.cte n)).name ≠ q) : q ∉ cteNamesOf U (renamed ρ A) := by
  intro hmem
  obtain ⟨x, hx, n, hmark, hname⟩ := (mem_cteNamesOf_renamed hmarked).1 hmem
  refine hq n (mem_binders hx ?_) hname
  rw [hmark]
  exact List.mem_singleton_self _

theorem reference_mem_cteNames (hx : x ∈ A.walk) {k n : ℕ} (hmark : x.mark = .source k (some n)) :
    U.upper (ρ (.cte n)).name ∈ cteNamesOf U (renamed ρ A) := by
  obtain ⟨y, hy, hcte⟩ := hmarked.reference x hx k n hmark
  exact (mem_cteNamesOf_renamed hmarked).2 ⟨y, hy, n, hcte, rfl⟩

variable (hfresh : FreshIn U G dialect allow A ρ)
include hfresh

/-- No name of the query is that of a CTE now. -/
theorem ident_notMem_cteNames (hx : x ∈ A.walk) {i : Ident} (hi : i ∈ x.cls.idents) :
    U.upper i.name ∉ cteNamesOf U (renamed ρ A) :=
  notMem_cteNamesOf_renamed hmarked fun _ hn => hfresh.query _ hn x hx i hi

theorem table_notMem_cteNames (hx : x ∈ A.walk) {t : Table} (ht : x.cls = .table t) :
    t.key U ∉ cteNamesOf U (renamed ρ A) := by
  refine ident_notMem_cteNames hmarked hfresh hx ?_
  rw [ht, Cls.idents]
  simp

theorem source_notMem_cteNames {k : ℕ} (hk : Binder.source k ∈ A.binders) :
    U.upper (ρ (.source k)).name ∉ cteNamesOf U (renamed ρ A) :=
  notMem_cteNamesOf_renamed hmarked fun _ hn hname => nomatch hfresh.injective _ hn _ hk hname

/-- The tables of a FROM clause that bear no CTE's name are its physical sources. -/
theorem scopeTables_renamed (hs : s ∈ A.selects) :
    (scopeTables (renamed ρ s)).filter (fun t => t.key U ∉ cteNamesOf U (renamed ρ A)) =
      s.sources.map fun o => { o.2 with alias_ := some (ρ (.source o.1)) } := by
  have hitems : scopeTables (renamed ρ s) = tables (s.fromItems.map (RoseTree.map (relabel ρ))) :=
    scopeTables_map (keepsKind_relabel ρ) s
  rw [hitems, tables, List.filterMap_map, List.filter_filterMap, Resolved.sources, List.map_filterMap]
  refine List.filterMap_congr fun (x : Resolved) hitem => ?_
  have hfrom := hmarked.from_ s hs x hitem
  have hx := Resolved.mem_walk_of_mem_fromItems hs hitem
  clear hitem
  cases hx using hmarked.node_cases with
  | source arg t k ref ts hx =>
    cases ref with
    | none =>
      have hkey : t.key U ∉ cteNamesOf U (renamed ρ A) := table_notMem_cteNames hmarked hfresh hx rfl
      exact Option.filter_some_pos (decide_eq_true hkey)
    | some n => exact Option.filter_some_neg (decide_eq_false (not_not.2 (reference_mem_cteNames hmarked hx rfl)))
  | target arg t k ts hx =>
    obtain ⟨_, _, hmark⟩ := hfrom t rfl
    cases hmark
  | unmarked arg cls ts hx hcte =>
    have htable : ∀ t, cls ≠ .table t := by
      intro t ht
      obtain ⟨_, _, hmark⟩ := hfrom t ht
      cases hmark
    change (cls.renamed ρ .unmarked).table?.filter _ = _
    rw [Cls.renamed_unmarked, Cls.table?_of_ne htable, Resolved.physical?_of_unmarked rfl]
    rfl
  | _ => rfl

/-- **The alias map** has the physical sources under their fresh names. -/
theorem aliasMap_renamed (hs : s ∈ A.selects) :
    aliasMap U (cteNamesOf U (renamed ρ A)) (renamed ρ s) =
      s.sources.map fun o => (U.upper (ρ (.source o.1)).name, o.2.key U) := by
  have hname : ∀ o ∈ s.sources, ∀ t : Table, ({ t with alias_ := some (ρ (.source o.1)) } : Table).aliasOrName =
      ρ (.source o.1) := by
    intro o ho t
    refine if_neg fun hempty => hfresh.upper_ne_empty (source_mem_binders hs (List.mem_map_of_mem ho)) ?_
    rw [hempty, upper_empty]
  have hnodup : (s.sources.map fun o => U.upper (ρ (.source o.1)).name).Nodup := by
    have hdistinct := hmarked.distinct s hs
    rw [show (fun o : ℕ × Table => U.upper (ρ (.source o.1)).name) =
      (fun k => U.upper (ρ (.source k)).name) ∘ Prod.fst from rfl, ← List.map_map]
    refine List.Nodup.map_on (fun k hk k' hk' hkk' => ?_) hdistinct
    exact Binder.source.inj (hfresh.injective _ (source_mem_binders hs hk) _ (source_mem_binders hs hk') hkk')
  have hkeys : (s.sources.map fun o => { o.2 with alias_ := some (ρ (.source o.1)) }).map
      (fun t : Table => U.upper t.aliasOrName.name) = s.sources.map fun o => U.upper (ρ (.source o.1)).name := by
    rw [List.map_map]
    exact List.map_congr_left fun o ho => by rw [Function.comp_apply, hname o ho]
  rw [aliasMap_eq_map, scopeTables_renamed hmarked hfresh hs, List.map_map]
  · exact List.map_congr_left fun o ho => by rw [Function.comp_apply, hname o ho]; rfl
  · rw [scopeTables_renamed hmarked hfresh hs, hkeys]
    exact hnodup

theorem scopeNames_renamed (hs : s ∈ A.selects) :
    scopeNames U (cteNamesOf U (renamed ρ A)) (renamed ρ s) = boundNames U s := by
  rw [scopeNames, aliasMap_renamed hmarked hfresh hs, List.map_map]
  rfl

/-- The fresh name of a source stands for its table, where the source is one of the SELECT. -/
theorem get?_aliasMap_renamed (hs : s ∈ A.selects) {k : ℕ} (hk : Binder.source k ∈ A.binders) :
    (aliasMap U (cteNamesOf U (renamed ρ A)) (renamed ρ s)).get? (U.upper (ρ (.source k)).name) = boundTable U s k := by
  have hlookup : ∀ os : List (ℕ × Table), (∀ o ∈ os, Binder.source o.1 ∈ A.binders) →
      Dict.get? (os.map fun o => (U.upper (ρ (.source o.1)).name, o.2.key U)) (U.upper (ρ (.source k)).name) =
        (os.lookup k).map (Table.key U) := by
    intro os
    induction os with
    | nil => exact fun _ => rfl
    | cons o os ih =>
      obtain ⟨k', t⟩ := o
      intro hos
      have ih := ih fun o ho => hos o (List.mem_cons_of_mem _ ho)
      rw [Dict.get?] at ih ⊢
      rw [List.map_cons, List.lookup_cons, List.lookup_cons, ih]
      by_cases hkk' : k = k'
      · rw [hkk']
        simp
      · have hne : U.upper (ρ (.source k)).name ≠ U.upper (ρ (.source k')).name := fun heq =>
          hkk' (Binder.source.inj (hfresh.injective _ hk _ (hos _ List.mem_cons_self) heq))
        rw [beq_false_of_ne hkk', beq_false_of_ne hne]
  rw [aliasMap_renamed hmarked hfresh hs]
  exact hlookup _ fun o ho => source_mem_binders hs (List.mem_map_of_mem ho)

/-- Any other name stands for nothing. -/
theorem get?_aliasMap_renamed_of_ne (hs : s ∈ A.selects) {q : String}
    (hq : ∀ b ∈ A.binders, U.upper (ρ b).name ≠ q) :
    (aliasMap U (cteNamesOf U (renamed ρ A)) (renamed ρ s)).get? q = none := by
  rw [← Option.not_isSome_iff_eq_none, Dict.get?_isSome, aliasMap_renamed hmarked hfresh hs, List.map_map]
  intro hmem
  obtain ⟨o, ho, hname⟩ := List.mem_map.1 hmem
  exact hq _ (source_mem_binders hs (List.mem_map_of_mem ho)) hname

theorem boundTable_notMem_cteNames (hs : s ∈ A.selects) {k : ℕ} {t : String} (h : boundTable U s k = some t) :
    t ∉ cteNamesOf U (renamed ρ A) := by
  obtain ⟨table, hlookup, rfl⟩ := Option.map_eq_some_iff.1 h
  obtain ⟨front, back, hsources, -⟩ := List.lookup_eq_some_iff.1 hlookup
  obtain ⟨x, hitem, hcls, -⟩ := (@Resolved.mem_sources s k table).1 (by simp [hsources])
  exact table_notMem_cteNames hmarked hfresh (Resolved.mem_walk_of_mem_fromItems hs hitem) hcls

/-! ## Lookups with fresh names -/

theorem fault_table_renamed (hx : x ∈ A.walk) :
    ((readingOf U G (relabel ρ) A).table x).Fails allow ↔ ((byBinding U G).table x).Fails allow := by
  cases hx using hmarked.node_cases with
  | source arg t k ref ts hx =>
    cases ref with
    | none =>
      have hkey : t.key U ∉ cteNamesOf U (renamed ρ A) := table_notMem_cteNames hmarked hfresh hx rfl
      exact iff_of_eq (congrArg _ (if_neg hkey))
    | some n => exact iff_of_eq (congrArg _ (if_pos (reference_mem_cteNames hmarked hx rfl)))
  | target arg t k ts hx =>
    have hk : Binder.source k ∈ A.binders := mem_binders hx List.mem_cons_self
    refine (iff_of_eq (congrArg _ (if_neg (source_notMem_cteNames hmarked hfresh hk)))).trans ?_
    exact iff_of_true (hfresh.tables _ hk) trivial
  | unmarked arg cls ts hx hcte =>
    change ((cls.renamed ρ .unmarked).table?.elim Lookup.nothing _).Fails allow ↔ _
    rw [Cls.renamed_unmarked]
    cases cls with
    | table t => exact iff_of_eq (congrArg _ (if_neg (table_notMem_cteNames hmarked hfresh hx rfl)))
    | _ => exact Iff.rfl
  | _ => exact Iff.rfl

section
variable (hs : s ∈ A.selects)
include hs

/-- A column with the fresh name of a source. -/
theorem fault_requalified {k : ℕ} (hk : Binder.source k ∈ A.binders) (c : Column) :
    (columnLookup U (cteNamesOf U (renamed ρ A)) (renamed ρ s) (c.requalified (ρ (.source k)))).Fails allow ↔
      ((boundTable U s k).elim Lookup.nothing fun t => .qualified t (c.key U)).Fails allow := by
  have hcte := source_notMem_cteNames hmarked hfresh hk
  have hresolved : resolved U (cteNamesOf U (renamed ρ A)) (renamed ρ s) (c.requalified (ρ (.source k))) =
      (boundTable U s k).getD (U.upper (ρ (.source k)).name) := by
    rw [resolved, Column.qualifier_requalified, get?_aliasMap_renamed hmarked hfresh hs hk]
  rw [columnLookup, Column.qualifier_requalified, if_neg hcte, if_pos (hfresh.upper_ne_empty hk), hresolved]
  cases hbound : boundTable U s k with
  | none =>
    rw [Option.getD_none, if_neg hcte]
    exact iff_of_false (fun h => hfresh.tables _ hk h.1) id
  | some t =>
    rw [Option.getD_some, if_neg (boundTable_notMem_cteNames hmarked hfresh hs hbound)]
    exact Iff.rfl

/-- A column with no qualifier, or with one that stands for no source. -/
theorem columnLookup_renamed {c : Column} (hc : ∀ b ∈ A.binders, U.upper (ρ b).name ≠ c.qualifier U) :
    columnLookup U (cteNamesOf U (renamed ρ A)) (renamed ρ s) c =
      if c.qualifier U ≠ "" then .qualified (c.qualifier U) (c.key U)
      else bareLookup U (boundNames U s) (written s) c := by
  have hcte := notMem_cteNamesOf_renamed (U := U) hmarked fun n hn => hc (.cte n) hn
  have hresolved : resolved U (cteNamesOf U (renamed ρ A)) (renamed ρ s) c = c.qualifier U := by
    rw [resolved, get?_aliasMap_renamed_of_ne hmarked hfresh hs hc, Option.getD_none]
  have hbare : bareLookup U (scopeNames U (cteNamesOf U (renamed ρ A)) (renamed ρ s)) (renamed ρ s) c =
      bareLookup U (boundNames U s) (written s) c := by
    unfold bareLookup
    rw [scopeNames_renamed hmarked hfresh hs, renamed, selectAliases_map (keepsKind_relabel ρ)]
  rw [columnLookup, if_neg hcte, hresolved, if_neg hcte, hbare]

theorem fault_column_renamed (hx : x ∈ A.walk) :
    ((readingOf U G (relabel ρ) A).column s x).Fails allow ↔ ((byBinding U G).column s x).Fails allow := by
  cases hx using hmarked.node_cases with
  | column arg c k ts hx =>
    exact fault_requalified hmarked hfresh hs (mem_binders hx List.mem_cons_self) c
  | unmarked arg cls ts hx hcte =>
    change ((cls.renamed ρ .unmarked).column?.elim Lookup.nothing _).Fails allow ↔ _
    rw [Cls.renamed_unmarked]
    cases cls with
    | column c =>
      have hc : ∀ b ∈ A.binders, U.upper (ρ b).name ≠ c.qualifier U := fun b hb => hfresh.ne_qualifier hb hx rfl
      exact iff_of_eq (congrArg _ (columnLookup_renamed hmarked hfresh hs hc))
    | _ => exact Iff.rfl
  | _ => exact Iff.rfl

theorem sideOf_renamed (hx : x ∈ A.walk) :
    sideOf U (cteNamesOf U (renamed ρ A)) (renamed ρ s) (renamed ρ x) = boundSide U s x := by
  rw [sideOf, columnOf?, show Expression.cls (renamed ρ x) = (relabel ρ x.label).cls from cls_map _ x]
  cases hx using hmarked.node_cases with
  | column arg c k ts hx =>
    have hk : Binder.source k ∈ A.binders := mem_binders hx List.mem_cons_self
    have hside : sideTable U (cteNamesOf U (renamed ρ A)) (renamed ρ s) (c.requalified (ρ (.source k))) =
        (boundTable U s k).filter (· ≠ "") := by
      rw [sideTable, Column.qualifier_requalified, get?_aliasMap_renamed hmarked hfresh hs hk]
    exact congrArg (Option.map fun t => (t, c.key U)) hside
  | unmarked arg cls ts hx hcte =>
    change (cls.renamed ρ .unmarked).column?.bind _ = _
    rw [Cls.renamed_unmarked]
    cases cls with
    | column c =>
      have hc : ∀ b ∈ A.binders, U.upper (ρ b).name ≠ c.qualifier U := fun b hb => hfresh.ne_qualifier hb hx rfl
      have hside : sideTable U (cteNamesOf U (renamed ρ A)) (renamed ρ s) c = none := by
        rw [sideTable, get?_aliasMap_renamed_of_ne hmarked hfresh hs hc, Option.filter_none]
      exact congrArg (Option.map fun t => (t, c.key U)) hside
    | _ => rfl
  | _ => rfl

theorem join_renamed {e : Resolved} (he : e ∈ A.walk) :
    (readingOf U G (relabel ρ) A).join s e = (byBinding U G).join s e := by
  have hside : ∀ k, ((renamed ρ e).arg? k).bind (sideOf U (cteNamesOf U (renamed ρ A)) (renamed ρ s)) =
      (e.arg? k).bind (boundSide U s) := by
    intro k
    rw [renamed, arg?_map (keepsKind_relabel ρ)]
    cases hc : e.arg? k with
    | none => rfl
    | some c => exact sideOf_renamed hmarked hfresh hs (Resolved.mem_walk_of_arg? he hc)
  change joinLookup U (cteNamesOf U (renamed ρ A)) (renamed ρ s) (renamed ρ e) = _
  rw [joinLookup_eq, hside, hside]
  rfl

/-! ## Conjuncts with fresh names -/

/-- A node with a name of the query's own has a fresh name in the text. -/
theorem exists_fresh_ident (hx : x ∈ A.walk) (hfails : ¬ LocalMark U s x.mark = true) :
    ∃ b ∈ A.binders, ρ b ∈ (qualify U G (aliasMap U (cteNamesOf U (renamed ρ A)) (renamed ρ s))
      (defaultTable U (cteNamesOf U (renamed ρ A)) (renamed ρ s)) (relabel ρ x.label)).cls.idents := by
  cases hx using hmarked.node_cases with
  | source arg t k ref ts hx =>
    refine ⟨.source k, mem_binders hx List.mem_cons_self, ?_⟩
    simp [relabel, Cls.renamed, RoseTree.label, qualify, Cls.idents]
  | target arg t k ts hx =>
    refine ⟨.source k, mem_binders hx List.mem_cons_self, ?_⟩
    simp [relabel, Cls.renamed, RoseTree.label, qualify, Cls.idents]
  | subquery arg a columns k ts hx =>
    refine ⟨.source k, mem_binders hx List.mem_cons_self, ?_⟩
    simp [relabel, Cls.renamed, RoseTree.label, qualify, Cls.idents]
  | lateral arg a columns k ts hx =>
    refine ⟨.source k, mem_binders hx List.mem_cons_self, ?_⟩
    simp [relabel, Cls.renamed, RoseTree.label, qualify, Cls.idents]
  | cte arg a columns n ts hx =>
    refine ⟨.cte n, mem_binders hx List.mem_cons_self, ?_⟩
    simp [relabel, Cls.renamed, RoseTree.label, qualify, Cls.idents]
  | column arg c k ts hx =>
    have hk : Binder.source k ∈ A.binders := mem_binders hx List.mem_cons_self
    have hget : (aliasMap U (cteNamesOf U (renamed ρ A)) (renamed ρ s)).get?
        ((c.requalified (ρ (.source k))).qualifier U) = none :=
      (get?_aliasMap_renamed hmarked hfresh hs hk).trans (Option.not_isSome_iff_eq_none.1 hfails)
    refine ⟨.source k, hk, ?_⟩
    change ρ (.source k) ∈ (qualify U G _ _ ⟨arg, .column (c.requalified (ρ (.source k)))⟩).cls.idents
    rw [qualify_of_ne_empty hget (hfresh.upper_ne_empty hk)]
    simp [Cls.idents, Column.requalified]
  | unmarked => exact absurd rfl hfails

section
variable (hp : p ∈ s.whereConjuncts)
include hp

theorem canonicalPredicate_of_local (hlocal : Local U s p = true) :
    canonicalPredicate U G (renamed ρ p) (aliasMap U (cteNamesOf U (renamed ρ A)) (renamed ρ s))
      (defaultTable U (cteNamesOf U (renamed ρ A)) (renamed ρ s)) = boundText U G s p := by
  rw [renamed, canonicalPredicate_map, boundText]
  congr 3
  refine RoseTree.map_congr fun (x : Resolved) hwalk => ?_
  have hbound := List.all_eq_true.1 hlocal x hwalk
  have hx := Resolved.mem_walk_of_mem_whereConjuncts hs hp hwalk
  clear hwalk
  cases hx using hmarked.node_cases with
  | column arg c k ts hx =>
    have hk : Binder.source k ∈ A.binders := mem_binders hx List.mem_cons_self
    obtain ⟨t, ht⟩ := Option.isSome_iff_exists.1 hbound
    have hget : (aliasMap U (cteNamesOf U (renamed ρ A)) (renamed ρ s)).get?
        ((c.requalified (ρ (.source k))).qualifier U) = some t :=
      (get?_aliasMap_renamed hmarked hfresh hs hk).trans ht
    refine (qualify_of_some hget).trans ?_
    change _ = (⟨arg, .column { table := (boundTable U s k).map G.toIdentifier, this := c.this }⟩ : Label)
    rw [ht]
    rfl
  | unmarked arg cls ts hx hcte =>
    change qualify U G _ _ (relabel ρ (⟨arg, cls⟩, .unmarked)) = boundLabel U G s (⟨arg, cls⟩, .unmarked)
    rw [relabel_unmarked]
    cases cls with
    | column c =>
      have hc : ∀ b ∈ A.binders, U.upper (ρ b).name ≠ c.qualifier U := fun b hb => hfresh.ne_qualifier hb hx rfl
      have hdefault : defaultTable U (cteNamesOf U (renamed ρ A)) (renamed ρ s) = only? (boundNames U s) :=
        congrArg only? (scopeNames_renamed hmarked hfresh hs)
      rw [qualify_of_none (get?_aliasMap_renamed_of_ne hmarked hfresh hs hc), hdefault]
      rfl
    | _ => rfl
  | _ => cases hbound

/-- A conjunct that is not local shows a fresh name. -/
theorem exists_standsIn_of_not_local (hG : PrintsNames U G) (hlocal : Local U s p = false) :
    ∃ b ∈ A.binders, StandsIn U (bare U (ρ b).name)
      (canonicalPredicate U G (renamed ρ p) (aliasMap U (cteNamesOf U (renamed ρ A)) (renamed ρ s))
        (defaultTable U (cteNamesOf U (renamed ρ A)) (renamed ρ s))) := by
  obtain ⟨(x : Resolved), hwalk, hfails⟩ := List.all_eq_false.1 hlocal
  have hx := Resolved.mem_walk_of_mem_whereConjuncts hs hp hwalk
  obtain ⟨b, hb, hident⟩ := exists_fresh_ident hmarked hfresh hs hx hfails
  exact ⟨b, hb, hG.standsIn hwalk hident (hfresh.nonempty b hb)⟩

end

/-- The canonical text of a filter is that of a conjunct with fresh names iff it
    is that of a local one. -/
theorem mem_texts_renamed (hG : PrintsNames U G) {m : String} (hm : m ∈ allow.mandatoryFilters)
    {f : Expression} (hf : G.parseOne dialect m = .ok f) :
    canonicalPredicate U G f [] none ∈ (readingOf U G (relabel ρ) A).texts s ↔
      canonicalPredicate U G f [] none ∈ (byBinding U G).texts s := by
  have htexts : (readingOf U G (relabel ρ) A).texts s = s.whereConjuncts.map fun p =>
      canonicalPredicate U G (renamed ρ p) (aliasMap U (cteNamesOf U (renamed ρ A)) (renamed ρ s))
        (defaultTable U (cteNamesOf U (renamed ρ A)) (renamed ρ s)) := by
    change (whereConjuncts (s.map (relabel ρ))).map _ = _
    rw [whereConjuncts_map (keepsKind_relabel ρ), List.map_map]
    rfl
  rw [htexts]
  change _ ↔ _ ∈ (s.whereConjuncts.filter (Local U s)).map (boundText U G s)
  simp only [List.mem_map, List.mem_filter]
  constructor
  · rintro ⟨p, hp, htext⟩
    by_cases hlocal : Local U s p = true
    · exact ⟨p, ⟨hp, hlocal⟩, (canonicalPredicate_of_local hmarked hfresh hs hp hlocal).symm.trans htext⟩
    · obtain ⟨b, hb, hstands⟩ :=
        exists_standsIn_of_not_local hmarked hfresh hs hp hG (Bool.eq_false_of_not_eq_true hlocal)
      rw [htext] at hstands
      exact absurd hstands (hfresh.filters b hb m hm f hf)
  · rintro ⟨p, ⟨hp, hlocal⟩, htext⟩
    exact ⟨p, hp, (canonicalPredicate_of_local hmarked hfresh hs hp hlocal).trans htext⟩

end

/-- **With fresh names, bindings are looked up.** -/
theorem fault_renamed_iff (hG : PrintsNames U G) {i : Site} (hi : i.In allow A) :
    Fault U G dialect allow (readingOf U G (relabel ρ) A) i ↔ Fault U G dialect allow (byBinding U G) i := by
  cases i with
  | table x => exact fault_table_renamed hmarked hfresh hi
  | column s x => exact fault_column_renamed hmarked hfresh hi.1 (Resolved.mem_walk_of_mem_own hi.1 hi.2)
  | join s e =>
    obtain ⟨hs, he, -⟩ := hi
    rw [Fault, join_renamed hmarked hfresh hs (Resolved.mem_walk_of_mem_own hs he)]
    rfl
  | filter s m =>
    obtain ⟨hs, hm⟩ := hi
    have hnames : (readingOf U G (relabel ρ) A).names s = (byBinding U G).names s :=
      scopeNames_renamed hmarked hfresh hs
    rw [Fault, Fault, FilterFault, FilterFault, hnames]
    refine and_congr_right fun _ => forall_congr' fun f => forall_congr' fun hf => and_congr_right fun _ => ?_
    exact not_congr (mem_texts_renamed hmarked hfresh hs hG hm hf)

end

end

end RoboMeta
