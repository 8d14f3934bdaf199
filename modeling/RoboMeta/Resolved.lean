/-
  Queries with their references resolved.

  Name resolution numbers the sources and the CTEs of a query and marks every
  reference with the number of what it refers to.  The marks are those of one
  text; another text of the same query has other names at the same nodes.

  * `Resolved`: trees with marks, `written` the text they were taken from and
    `renamed` the one in which sources and CTEs go by new names, every table
    under an alias;
  * `KeepsKind`: what the guard reads off the shape of a tree is the same in
    both (`walk_map`, `selects_map`, `whereConjuncts_map`, ...).
-/
import RoboMeta.FilterShapes

namespace RoboMeta

open Expression

/-! ## Marks -/

/-- A source of a FROM clause or a CTE, by its number. -/
inductive Binder where
  | source (k : ℕ)
  | cte (n : ℕ)
deriving DecidableEq

inductive Mark where
  | unmarked
  /-- A table of a FROM clause, and the CTE that it refers to. -/
  | source (k : ℕ) (cte : Option ℕ)
  /-- A table that stands for a source, as in FOR UPDATE OF. -/
  | target (k : ℕ)
  /-- The alias of a derived table. -/
  | derived (k : ℕ)
  | cte (n : ℕ)
  /-- A column with the qualifier of the source `k`. -/
  | column (k : ℕ)
deriving DecidableEq

abbrev Resolved := RoseTree (Label × Mark)

def written (A : Resolved) : Expression := A.map Prod.fst

/-- The column with another qualifier. -/
def Column.requalified (i : Ident) (c : Column) : Column := { table := some i, this := c.this }

@[simp] theorem Column.qualifier_requalified (U : Unicode) (i : Ident) (c : Column) :
    (c.requalified i).qualifier U = U.upper i.name := rfl

/-- The class of a node in the text with the names `ρ`. -/
def Cls.renamed (ρ : Binder → Ident) : Cls → Mark → Cls
  | .table t, .source k ref =>
    .table { t with this := (ref.map fun n => ρ (.cte n)).getD t.this, alias_ := some (ρ (.source k)) }
  | .table _, .target k => .table { this := ρ (.source k) }
  | .subquery (some _) columns, .derived k => .subquery (some (ρ (.source k))) columns
  | .lateral (some _) columns, .derived k => .lateral (some (ρ (.source k))) columns
  | .cte _ columns, .cte n => .cte (ρ (.cte n)) columns
  | .column c, .column k => .column (c.requalified (ρ (.source k)))
  | cls, _ => cls

/-- The mark is one for a node of the class. -/
def Cls.fits : Cls → Mark → Bool
  | .table _, .source _ _ | .table _, .target _ | .subquery (some _) _, .derived _ | .lateral (some _) _, .derived _
  | .cte _ _, .cte _ | .column _, .column _ => true
  | .cte _ _, .unmarked => false
  | _, .unmarked => true
  | _, _ => false

theorem Cls.renamed_unmarked (ρ : Binder → Ident) (cls : Cls) : cls.renamed ρ .unmarked = cls := by
  unfold renamed
  split
  all_goals
    first
    | rfl
    | contradiction

def relabel (ρ : Binder → Ident) (l : Label × Mark) : Label := ⟨l.1.arg, l.1.cls.renamed ρ l.2⟩

def renamed (ρ : Binder → Ident) (A : Resolved) : Expression := A.map (relabel ρ)

theorem relabel_unmarked (ρ : Binder → Ident) (l : Label) : relabel ρ (l, .unmarked) = l := by
  rw [relabel, Cls.renamed_unmarked]

namespace Resolved

def cls (A : Resolved) : Cls := A.label.1.cls

def mark (A : Resolved) : Mark := A.label.2

def arg? (k : Arg) (A : Resolved) : Option Resolved := A.children.find? fun c => c.label.1.arg = k

def argList (k : Arg) (A : Resolved) : List Resolved := A.children.filter fun c => c.label.1.arg = k

def selects (A : Resolved) : List Resolved := A.walk.filter fun s => isSelect s.label.1

def own (s : Resolved) : List Resolved := s.under fun l => isSelect l.1

/-- What stands in the FROM clause and the joins. -/
def fromItems (s : Resolved) : List Resolved := ((s.arg? .from_).toList ++ s.argList .joins).filterMap (arg? .this)

/-- The number and the table of a source that is a physical table. -/
def physical? (x : Resolved) : Option (ℕ × Table) :=
  match x.label with
  | (⟨_, .table t⟩, .source k none) => some (k, t)
  | _ => none

def sources (s : Resolved) : List (ℕ × Table) := s.fromItems.filterMap physical?

mutual
def conjuncts : Resolved → List Resolved
  | .node l ts =>
    if l.1.cls = .and then conjunctsOf .this ts ++ conjunctsOf .expression ts else [.node l ts]

def conjunctsOf (k : Arg) : List Resolved → List Resolved
  | [] => []
  | t :: ts => if t.label.1.arg = k then conjuncts t else conjunctsOf k ts
end

def whereConjuncts (s : Resolved) : List Resolved := ((s.arg? .where_).bind (arg? .this)).elim [] conjuncts

theorem physical?_eq_some_iff {x : Resolved} {k : ℕ} {t : Table} :
    x.physical? = some (k, t) ↔ x.cls = .table t ∧ x.mark = .source k none := by
  obtain ⟨⟨⟨arg, cls⟩, mark⟩, ts⟩ := x
  change (match ((⟨arg, cls⟩, mark) : Label × Mark) with
    | (⟨_, .table t⟩, .source k none) => some (k, t)
    | _ => none) = some (k, t) ↔ cls = .table t ∧ mark = .source k none
  split
  · rename_i heq
    cases heq
    simp [and_comm]
  · rename_i hno
    refine iff_of_false nofun ?_
    rintro ⟨rfl, rfl⟩
    exact hno _ _ _ rfl

theorem physical?_of_unmarked {x : Resolved} (h : x.mark = .unmarked) : x.physical? = none := by
  cases hx : x.physical? with
  | none => rfl
  | some o => exact nomatch h.symm.trans (physical?_eq_some_iff.1 hx).2

theorem mem_sources {s : Resolved} {k : ℕ} {t : Table} :
    (k, t) ∈ s.sources ↔ ∃ x ∈ s.fromItems, x.cls = .table t ∧ x.mark = .source k none := by
  simp only [sources, List.mem_filterMap, physical?_eq_some_iff]

theorem mem_walk_of_mem_conjuncts {p : Resolved} : ∀ {e : Resolved}, p ∈ e.conjuncts → p ∈ e.walk := by
  intro e
  induction e using RoseTree.induct with
  | step l ts ih =>
    intro hp
    have hof : ∀ k, ∀ us ⊆ ts, p ∈ conjunctsOf k us → p ∈ (RoseTree.node l ts).walk := by
      intro k us hus hp
      induction us with
      | nil => cases hp
      | cons u us ihus =>
        obtain ⟨hu, hus⟩ := List.cons_subset.1 hus
        rw [conjunctsOf] at hp
        split_ifs at hp
        · exact RoseTree.mem_walk_iff.2 (Or.inr ⟨u, hu, ih u hu hp⟩)
        · exact ihus hus hp
    rw [conjuncts] at hp
    split_ifs at hp
    · exact (List.mem_append.1 hp).elim (hof _ ts (List.Subset.refl ts)) (hof _ ts (List.Subset.refl ts))
    · rw [List.mem_singleton.1 hp]
      exact RoseTree.mem_walk_self _

theorem mem_walk_of_arg? {k : Arg} {c e A : Resolved} (he : e ∈ A.walk) (hc : e.arg? k = some c) : c ∈ A.walk :=
  RoseTree.mem_walk_child he (List.mem_of_find?_eq_some hc)

section
variable {A s x : Resolved} (hs : s ∈ A.selects)
include hs

theorem mem_walk_of_mem_own (hx : x ∈ s.own) : x ∈ A.walk :=
  RoseTree.mem_walk_trans (RoseTree.mem_walk_of_mem_under hx) (List.mem_filter.1 hs).1

theorem mem_walk_of_mem_fromItems (hx : x ∈ s.fromItems) : x ∈ A.walk := by
  obtain ⟨item, hitem, hthis⟩ := List.mem_filterMap.1 hx
  have hchild : item ∈ s.children := by
    rcases List.mem_append.1 hitem with hfrom | hjoin
    · exact List.mem_of_find?_eq_some (Option.mem_toList.1 hfrom)
    · exact (List.mem_filter.1 hjoin).1
  exact mem_walk_of_arg? (RoseTree.mem_walk_child (List.mem_filter.1 hs).1 hchild) hthis

theorem mem_walk_of_mem_whereConjuncts {p : Resolved} (hp : p ∈ s.whereConjuncts) (hx : x ∈ p.walk) :
    x ∈ A.walk := by
  rw [whereConjuncts] at hp
  cases hthis : (s.arg? .where_).bind (arg? .this) with
  | none =>
    rw [hthis] at hp
    cases hp
  | some w =>
    rw [hthis] at hp
    obtain ⟨e, hwhere, he⟩ := Option.bind_eq_some_iff.1 hthis
    have hwalk := mem_walk_of_arg? (mem_walk_of_arg? (List.mem_filter.1 hs).1 hwhere) he
    exact RoseTree.mem_walk_trans hx (RoseTree.mem_walk_trans (mem_walk_of_mem_conjuncts hp) hwalk)

end

end Resolved

/-! ## Names in a class -/

def Cls.table? : Cls → Option Table
  | .table t => some t
  | _ => none

def Cls.column? : Cls → Option Column
  | .column c => some c
  | _ => none

theorem Cls.table?_eq_some {cls : Cls} {t : Table} : cls.table? = some t ↔ cls = .table t := by
  cases cls <;> simp [table?]

theorem Cls.column?_eq_some {cls : Cls} {c : Column} : cls.column? = some c ↔ cls = .column c := by
  cases cls <;> simp [column?]

theorem Cls.table?_of_ne {cls : Cls} (h : ∀ t, cls ≠ .table t) : cls.table? = none :=
  Option.eq_none_iff_forall_ne_some.2 fun t ht => h t (table?_eq_some.1 ht)

/-! ## Relabellings -/

/-- The class without its names. -/
def Cls.kind : Cls → Cls
  | .table _ => .table { this := ⟨"", false⟩ }
  | .column _ => .column { this := none }
  | .cte _ _ => .cte ⟨"", false⟩ []
  | .subquery _ _ => .subquery none []
  | .lateral _ _ => .lateral none []
  | c => c

/-- The relabelling changes names only. -/
structure KeepsKind (g : Label × Mark → Label) : Prop where
  arg : ∀ l, (g l).arg = l.1.arg
  kind : ∀ l, (g l).cls.kind = l.1.cls.kind

theorem keepsKind_written : KeepsKind Prod.fst := ⟨fun _ => rfl, fun _ => rfl⟩

theorem keepsKind_relabel (ρ : Binder → Ident) : KeepsKind (relabel ρ) where
  arg _ := rfl
  kind l := by
    change (l.1.cls.renamed ρ l.2).kind = l.1.cls.kind
    unfold Cls.renamed
    split
    all_goals
      first
      | rfl
      | simp_all [Cls.kind]

/-- The class has no names. -/
def Cls.Nameless (d : Cls) : Prop := ∀ c : Cls, c.kind = d.kind → c = d

theorem nameless_of_kind {d : Cls} (hd : d.kind = d) (hnames : d ≠ .table { this := ⟨"", false⟩ } ∧
    d ≠ .column { this := none } ∧ d ≠ .cte ⟨"", false⟩ [] ∧ d ≠ .subquery none [] ∧ d ≠ .lateral none []) :
    d.Nameless := by
  intro c hc
  rw [hd] at hc
  obtain ⟨htable, hcolumn, hcte, hsubquery, hlateral⟩ := hnames
  cases c with
  | table t => exact absurd hc.symm htable
  | column c => exact absurd hc.symm hcolumn
  | cte a columns => exact absurd hc.symm hcte
  | subquery a columns => exact absurd hc.symm hsubquery
  | lateral a columns => exact absurd hc.symm hlateral
  | _ => exact hc

section
variable {g : Label × Mark → Label} (hg : KeepsKind g)
include hg

theorem KeepsKind.cls_iff {d : Cls} (hd : d.Nameless) (l : Label × Mark) : (g l).cls = d ↔ l.1.cls = d := by
  constructor
  · rintro h
    exact hd _ ((hg.kind l).symm.trans (congrArg Cls.kind h))
  · rintro h
    exact hd _ ((hg.kind l).trans (congrArg Cls.kind h))

theorem KeepsKind.isSelect (l : Label × Mark) : isSelect (g l) = isSelect l.1 := by
  have hselect : (g l).cls = .select ↔ l.1.cls = .select :=
    hg.cls_iff (nameless_of_kind rfl (by simp)) l
  simp only [Expression.isSelect, hselect]

theorem selects_map (A : Resolved) : selects (A.map g) = A.selects.map (RoseTree.map g) := by
  rw [Expression.selects, RoseTree.walk_map, List.filter_map, Resolved.selects]
  congr 1
  refine List.filter_congr fun s _ => ?_
  rw [Function.comp_apply, RoseTree.label_map, hg.isSelect]

theorem own_map (s : Resolved) : own (s.map g) = s.own.map (RoseTree.map g) := by
  have hstop : (isSelect ∘ g) = fun l : Label × Mark => isSelect l.1 := funext hg.isSelect
  rw [Expression.own, RoseTree.under_map, hstop, Resolved.own]

theorem arg?_map (k : Arg) (A : Resolved) : arg? k (A.map g) = (A.arg? k).map (RoseTree.map g) := by
  have hpred : (fun c : Expression => decide (c.label.arg = k)) ∘ RoseTree.map g =
      fun c : Resolved => decide (c.label.1.arg = k) := by
    funext c
    rw [Function.comp_apply, RoseTree.label_map, hg.arg]
  rw [Expression.arg?, RoseTree.children_map, List.find?_map, hpred, Resolved.arg?]

theorem argList_map (k : Arg) (A : Resolved) : argList k (A.map g) = (A.argList k).map (RoseTree.map g) := by
  rw [Expression.argList, RoseTree.children_map, List.filter_map, Resolved.argList]
  congr 1
  refine List.filter_congr fun c _ => ?_
  rw [Function.comp_apply, RoseTree.label_map, hg.arg]

theorem conjuncts_map (A : Resolved) : conjuncts (A.map g) = A.conjuncts.map (RoseTree.map g) := by
  have hand : ∀ l, (g l).cls = .and ↔ l.1.cls = .and := hg.cls_iff (nameless_of_kind rfl (by simp))
  induction A using RoseTree.induct with
  | step l ts ih =>
    have hof : ∀ k, ∀ us ⊆ ts,
        conjunctsOf k (us.map (RoseTree.map g)) = (Resolved.conjunctsOf k us).map (RoseTree.map g) := by
      intro k us hus
      induction us with
      | nil => rfl
      | cons u us ihus =>
        obtain ⟨hu, hus⟩ := List.cons_subset.1 hus
        rw [List.map_cons, conjunctsOf, Resolved.conjunctsOf, RoseTree.label_map, hg.arg]
        split_ifs
        · exact ih u hu
        · exact ihus hus
    rw [RoseTree.map_node, conjuncts, Resolved.conjuncts]
    simp only [hand]
    split_ifs
    · rw [hof _ ts (List.Subset.refl ts), hof _ ts (List.Subset.refl ts), List.map_append]
    · rw [List.map_singleton, RoseTree.map_node]

theorem whereConjuncts_map (s : Resolved) : whereConjuncts (s.map g) = s.whereConjuncts.map (RoseTree.map g) := by
  have hthis : ((s.arg? .where_).map (RoseTree.map g)).bind (arg? .this) =
      ((s.arg? .where_).bind (Resolved.arg? .this)).map (RoseTree.map g) := by
    cases s.arg? .where_ with
    | none => rfl
    | some w => exact arg?_map hg .this w
  rw [whereConjuncts, arg?_map hg, hthis, Resolved.whereConjuncts]
  cases (s.arg? .where_).bind (Resolved.arg? .this) with
  | none => rfl
  | some w => exact conjuncts_map hg w

theorem scopeTables_map (s : Resolved) : scopeTables (s.map g) = tables (s.fromItems.map (RoseTree.map g)) := by
  have hitems : ∀ es : List Resolved, (es.map (RoseTree.map g)).filterMap (arg? .this) =
      (es.filterMap (Resolved.arg? .this)).map (RoseTree.map g) := by
    intro es
    induction es with
    | nil => rfl
    | cons e es ih =>
      rw [List.map_cons, List.filterMap_cons, List.filterMap_cons, arg?_map hg, ih]
      cases e.arg? .this with
      | none => rfl
      | some x => rfl
  have hfrom : (arg? .from_ (s.map g)).toList = (s.arg? .from_).toList.map (RoseTree.map g) := by
    rw [arg?_map hg]
    cases s.arg? .from_ with
    | none => rfl
    | some x => rfl
  rw [scopeTables, hfrom, argList_map hg, ← List.map_append, hitems, Resolved.fromItems]

theorem selectAliases_map (U : Unicode) (s : Resolved) : selectAliases U (s.map g) = selectAliases U (written s) := by
  have halias : ∀ a l, (g l).cls = .alias_ a ↔ l.1.cls = .alias_ a := fun a =>
    hg.cls_iff (nameless_of_kind rfl (by simp))
  rw [selectAliases, selectAliases, written, argList_map hg, argList_map keepsKind_written, List.filterMap_map,
    List.filterMap_map]
  refine List.filterMap_congr fun x _ => ?_
  have hcls : ∀ f : Label × Mark → Label, Expression.cls (x.map f) = (f x.label).cls := fun f => by
    rw [Expression.cls, RoseTree.label_map]
  simp only [Function.comp_apply, hcls]
  by_cases h : ∃ a, x.label.1.cls = .alias_ a
  · obtain ⟨a, ha⟩ := h
    rw [(halias a _).2 ha, ha]
  · split
    · rename_i a ha
      exact absurd ⟨a, (halias a _).1 ha⟩ h
    · split
      · rename_i a ha
        exact absurd ⟨a, ha⟩ h
      · rfl

end

end RoboMeta
