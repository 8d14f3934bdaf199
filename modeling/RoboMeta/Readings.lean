/-
  What the checks look up at the places of a query.

  * `Reading`: a lookup for each place; `Fault`: where one fails;
  * `readingOf`, `accepted_map_iff`: a text is accepted iff no lookup of its
    names fails;
  * `byBinding`: the lookups of what the references are bound to.
-/
import RoboMeta.Lookups
import RoboMeta.Resolved

namespace RoboMeta

open Expression

/-! ## Readings -/

/-- A place in a query where a check may find a fault. -/
inductive Site where
  | table (x : Resolved)
  | column (s x : Resolved)
  | join (s e : Resolved)
  | filter (s : Resolved) (m : String)

/-- What is looked up at the places of a query: the tables in the FROM clause
    of a SELECT and the texts of its conjuncts for the filters. -/
structure Reading where
  table : Resolved → Lookup
  column : Resolved → Resolved → Lookup
  join : Resolved → Resolved → Lookup
  names : Resolved → List String
  texts : Resolved → List String

section
variable (U : Unicode) (G : Sqlglot) (dialect : String) (allow : Allowlist)

def Site.In (A : Resolved) : Site → Prop
  | table x => x ∈ A.walk
  | column s x => s ∈ A.selects ∧ x ∈ s.own
  | join s e => s ∈ A.selects ∧ e ∈ s.own ∧ e.cls = .eq
  | filter s m => s ∈ A.selects ∧ m ∈ allow.mandatoryFilters

/-- The filter `m` is wanted of a SELECT with the tables `names`, and `texts`
    has not its canonical text. -/
def FilterFault (names texts : List String) (m : String) : Prop :=
  names ≠ [] ∧ ∀ f, G.parseOne dialect m = .ok f →
    (∃ t ∈ mandatoryTables U f, t ∈ names) ∧ canonicalPredicate U G f [] none ∉ texts

def Fault (R : Reading) : Site → Prop
  | .table x => (R.table x).Fails allow
  | .column s x => (R.column s x).Fails allow
  | .join s e => (R.join s e).Fails allow
  | .filter s m => FilterFault U G dialect (R.names s) (R.texts s) m

/-- The reading of the text `A.map g` by its names. -/
def readingOf (g : Label × Mark → Label) (A : Resolved) : Reading where
  table x := (g x.label).cls.table?.elim .nothing (tableLookup U (cteNamesOf U (A.map g)))
  column s x := (g x.label).cls.column?.elim .nothing (columnLookup U (cteNamesOf U (A.map g)) (s.map g))
  join s e := joinLookup U (cteNamesOf U (A.map g)) (s.map g) (e.map g)
  names s := scopeNames U (cteNamesOf U (A.map g)) (s.map g)
  texts s := canonicalConjuncts U G (cteNamesOf U (A.map g)) (s.map g)

/-- The reading of the text as it is written. -/
def byName (A : Resolved) : Reading := readingOf U G Prod.fst A

end

section
variable {U : Unicode} {G : Sqlglot} {dialect : String} {allow : Allowlist} {A : Resolved} {g : Label × Mark → Label}

theorem cls_map (g : Label × Mark → Label) (x : Resolved) : Expression.cls (x.map g) = (g x.label).cls := by
  rw [Expression.cls, RoseTree.label_map]

theorem filterViolation_eq_none_iff_not {cteNames : List String} {select : Expression} {m : String} :
    (scopeNames U cteNames select ≠ [] → filterViolation U G dialect cteNames select m = .ok none) ↔
      ¬ FilterFault U G dialect (scopeNames U cteNames select) (canonicalConjuncts U G cteNames select) m := by
  rw [FilterFault, not_and]
  refine forall_congr' fun _ => ?_
  cases hparse : G.parseOne dialect m with
  | error e =>
    refine iff_of_false (fun h => ?_) fun h => h fun f hf => nomatch hf
    obtain ⟨f, hf⟩ := filterViolation_ok_iff.1 ⟨_, h⟩
    cases hparse.symm.trans hf
  | ok f =>
    rw [filterViolation_eq_none_iff hparse, Sought, Matched]
    constructor
    · intro h hfault
      obtain ⟨hsought, hmissing⟩ := hfault f rfl
      exact hmissing (h hsought)
    · intro h hsought
      by_contra hmissing
      exact h fun f' hf' => Except.ok.inj hf' ▸ ⟨hsought, hmissing⟩

theorem fault_table_iff {x : Resolved} :
    ¬ Fault U G dialect allow (readingOf U G g A) (.table x) ↔
      ∀ t, (g x.label).cls = .table t → tableViolation U allow (cteNamesOf U (A.map g)) t = none := by
  change ¬ ((g x.label).cls.table?.elim Lookup.nothing (tableLookup U (cteNamesOf U (A.map g)))).Fails allow ↔ _
  simp only [← Cls.table?_eq_some, tableViolation_eq_none_iff]
  cases (g x.label).cls.table? with
  | none => exact iff_of_true id nofun
  | some t => simp

theorem fault_column_iff {s x : Resolved} :
    ¬ Fault U G dialect allow (readingOf U G g A) (.column s x) ↔
      ∀ c, (g x.label).cls = .column c → columnViolation U allow (cteNamesOf U (A.map g)) (s.map g) c = none := by
  change ¬ ((g x.label).cls.column?.elim Lookup.nothing
    (columnLookup U (cteNamesOf U (A.map g)) (s.map g))).Fails allow ↔ _
  simp only [← Cls.column?_eq_some, columnViolation_eq_none_iff]
  cases (g x.label).cls.column? with
  | none => exact iff_of_true id nofun
  | some c => simp

theorem forall_mem_tables_map {P : Table → Prop} :
    (∀ t ∈ tables (RoseTree.walk (A.map g)), P t) ↔
      ∀ x : Resolved, x ∈ A.walk → ∀ t, (g x.label).cls = .table t → P t := by
  simp only [mem_tables, RoseTree.walk_map, List.mem_map, exists_exists_and_eq_and, cls_map]
  constructor
  · intro h x hx t ht
    exact h t ⟨x, hx, ht⟩
  · rintro h t ⟨x, hx, ht⟩
    exact h x hx t ht

section
variable (hg : KeepsKind g)
include hg

theorem forall_mem_columns_map {s : Resolved} {P : Column → Prop} :
    (∀ c ∈ columns (own (s.map g)), P c) ↔ ∀ x ∈ s.own, ∀ c, (g x.label).cls = .column c → P c := by
  simp only [mem_columns, own_map hg, List.mem_map, exists_exists_and_eq_and, cls_map]
  constructor
  · intro h x hx c hc
    exact h c ⟨x, hx, hc⟩
  · rintro h c ⟨x, hx, hc⟩
    exact h x hx c hc

theorem forall_mem_selects_map {P : Expression → Prop} :
    (∀ s ∈ selects (A.map g), P s) ↔ ∀ s ∈ A.selects, P (s.map g) := by
  rw [selects_map hg, List.forall_mem_map]

theorem forall_mem_equalities_map {s : Resolved} {P : Expression → Prop} :
    (∀ e ∈ own (s.map g), Expression.cls e = .eq → P e) ↔ ∀ e ∈ s.own, e.cls = .eq → P (e.map g) := by
  rw [own_map hg, List.forall_mem_map]
  refine forall_congr' fun e => forall_congr' fun _ => ?_
  rw [cls_map, hg.cls_iff (nameless_of_kind rfl (by simp))]
  rfl

/-- **Acceptance by lookups.** -/
theorem accepted_map_iff :
    Accepted U G dialect allow (A.map g) ↔
      ∀ i : Site, i.In allow A → ¬ Fault U G dialect allow (readingOf U G g A) i := by
  constructor
  · rintro ⟨htables, hcolumns, hjoins, hfilters⟩ i hi
    cases i with
    | table x => exact fault_table_iff.2 (forall_mem_tables_map.1 htables x hi)
    | column s x =>
      have hselect := (forall_mem_selects_map hg).1 hcolumns s hi.1
      exact fault_column_iff.2 ((forall_mem_columns_map hg).1 hselect x hi.2)
    | join s e =>
      obtain ⟨hs, he, hcls⟩ := hi
      have hselect := (forall_mem_selects_map hg).1 hjoins s hs
      exact joinViolation_eq_none_iff.1 ((forall_mem_equalities_map hg).1 hselect e he hcls)
    | filter s m =>
      exact filterViolation_eq_none_iff_not.1 fun hnames =>
        (forall_mem_selects_map hg).1 hfilters s hi.1 hnames m hi.2
  · intro h
    exact {
      tables := forall_mem_tables_map.2 fun x hx => fault_table_iff.1 (h (.table x) hx)
      columns := (forall_mem_selects_map hg).2 fun s hs => (forall_mem_columns_map hg).2 fun x hx =>
        fault_column_iff.1 (h (.column s x) ⟨hs, hx⟩)
      joins := (forall_mem_selects_map hg).2 fun s hs => (forall_mem_equalities_map hg).2 fun e he hcls =>
        joinViolation_eq_none_iff.2 (h (.join s e) ⟨hs, he, hcls⟩)
      filters := (forall_mem_selects_map hg).2 fun s hs hnames m hm =>
        filterViolation_eq_none_iff_not.2 (h (.filter s m) ⟨hs, hm⟩) hnames }

end

end

/-! ## Bindings -/

section
variable (U : Unicode) (G : Sqlglot)

/-- The table of a source of the SELECT, if it is a physical one. -/
def boundTable (s : Resolved) (k : ℕ) : Option String := (s.sources.lookup k).map (Table.key U)

def boundNames (s : Resolved) : List String := (s.sources.map fun o => o.2.key U).dedup

/-- A side of an equality that is bound to a source of the SELECT. -/
def boundSide (s x : Resolved) : Option (String × String) :=
  match x.cls, x.mark with
  | .column c, .column k => ((boundTable U s k).filter (· ≠ "")).map fun t => (t, c.key U)
  | _, _ => none

def LocalMark (s : Resolved) : Mark → Bool
  | .unmarked => true
  | .column k => (boundTable U s k).isSome
  | _ => false

/-- All names in the conjunct that are the query's own are those of sources of
    the SELECT itself. -/
def Local (s p : Resolved) : Bool := p.walk.all fun (x : Resolved) => LocalMark U s x.mark

def only? : List String → Option String
  | [only] => some only
  | _ => none

/-- The table of its source for the qualifier of a column, the only table where
    there is none. -/
def boundLabel (s : Resolved) (l : Label × Mark) : Label :=
  match l.1.cls, l.2 with
  | .column c, .column k => ⟨l.1.arg, .column { table := (boundTable U s k).map G.toIdentifier, this := c.this }⟩
  | _, _ => qualify U G [] (only? (boundNames U s)) l.1

def boundText (s p : Resolved) : String := bare U (G.sql dialectPostgres (copy (p.map (boundLabel U G s))))

/-- The reading by what the references are bound to. -/
def byBinding : Reading where
  table x := match x.cls, x.mark with
    | .table _, .source _ (some _) => .nothing
    | .table _, .target _ => .unknown
    | .table t, _ => .table (t.key U)
    | _, _ => .nothing
  column s x := match x.cls, x.mark with
    | .column c, .column k => (boundTable U s k).elim .nothing fun t => .qualified t (c.key U)
    | .column c, _ =>
      if c.qualifier U ≠ "" then .qualified (c.qualifier U) (c.key U)
      else bareLookup U (boundNames U s) (written s) c
    | _, _ => .nothing
  join s e := edgeLookup ((e.arg? .this).bind (boundSide U s)) ((e.arg? .expression).bind (boundSide U s))
  names s := boundNames U s
  texts s := (s.whereConjuncts.filter (Local U s)).map (boundText U G s)

end

end RoboMeta
