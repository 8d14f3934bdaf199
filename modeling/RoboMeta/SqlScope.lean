/-
  Scoping of SQL: what the names of a query refer to.

  This is the reference the AST guards are compared with; nothing of it is in
  the source.  A `Scope` holds what is visible at a node: the CTEs, and for each
  enclosing SELECT (innermost first) the `Block` that its FROM clause makes.

  * a CTE is visible behind its definition in the same WITH and in the query
    the WITH belongs to; a recursive WITH shows its CTEs everywhere in it;
  * an unqualified table name is the innermost visible CTE of that name, any
    other table name is a physical table (`Physical`);
  * a column qualified by `q` belongs to the source called `q` of the innermost
    SELECT that has one, an unqualified one to the innermost SELECT in which
    it is visible, if one column only bears the name there (`resolve`);
  * a column merged by USING or NATURAL is the column of both sides, and a
    parenthesised join under an alias passes the columns of its tables on;
    what a query returns are columns of its own;
  * an item of ORDER BY that names an output column is that output column, an
    item of GROUP BY if no source has a column of the name;
  * a join condition sees the sources that are joined with each other so far,
    LATERAL all in front of it, a derived table none of its siblings.
-/
import RoboMeta.Sqlglot

namespace RoboMeta

/-- How identifiers are read (folded to their normal form) and which columns
    the physical tables have. -/
structure Database where
  fold : Ident → String
  columns : Table → List String

/-- Identifiers that are not quoted are read in lower case. -/
def Database.postgres (columns : Table → List String) : Database where
  fold i := if i.quoted then i.name else asciiLower i.name
  columns := columns

/-- A physical table in a FROM clause; `path` are the names that it is reached
    through, from the outside in. -/
structure Occurrence where
  path : List Ident
  table : Table
deriving DecidableEq

/-- The occurrence as part of a join that goes by the name `a`. -/
def Occurrence.within (a : Ident) (o : Occurrence) : Occurrence := { o with path := a :: o.path }

/-- A column under the name that it is visible by, and the columns of physical
    tables that it is. -/
structure VisibleColumn where
  name : String
  origins : List (Occurrence × String) := []

def VisibleColumn.within (a : Ident) (v : VisibleColumn) : VisibleColumn :=
  { v with origins := v.origins.map fun g => (g.1.within a, g.2) }

structure Cte where
  name : Ident
  columns : List VisibleColumn

/-- A source of a FROM clause under the name it goes by; `table` is there if the
    name stands for a physical table, `occurrences` are the physical tables whose
    columns it has. -/
structure Source where
  name : Option Ident := none
  table : Option Table := none
  occurrences : List Occurrence := []
  columns : List VisibleColumn

/-- Sources side by side, and the columns that are visible without qualifier. -/
structure Block where
  sources : List Source := []
  columns : List VisibleColumn := []

def Source.block (s : Source) : Block := ⟨[s], s.columns⟩

def Block.occurrences (b : Block) : List Occurrence := b.sources.flatMap Source.occurrences

/-- The physical columns behind a name, if one column only bears it. -/
def originsOf (columns : List VisibleColumn) (n : String) : List (Occurrence × String) :=
  match columns.filter fun v => v.name = n with
  | [v] => v.origins
  | _ => []

/-- The join of two blocks in which the columns `names` of both sides are one. -/
def Block.merge (names : List String) (l r : Block) : Block where
  sources := l.sources ++ r.sources
  columns := (names.map fun n => ⟨n, originsOf l.columns n ++ originsOf r.columns n⟩) ++
    (l.columns ++ r.columns).filter fun v => v.name ∉ names

/-- The items of a FROM clause: the last one, which joins attach to, and those
    in front of it. -/
structure FromItems where
  front : Block := {}
  last : Block := {}

def FromItems.block (items : FromItems) : Block := items.front.merge [] items.last

section
variable (D : Database)

def lookupCte (ctes : List Cte) (t : Table) : Option Cte :=
  if t.catalog.isSome || t.db.isSome then none else ctes.find? fun c => D.fold c.name == D.fold t.this

/-- Columns under the names given with an alias, as far as these go. -/
def rename : List Ident → List VisibleColumn → List VisibleColumn
  | [], columns => columns
  | name :: names, [] => { name := D.fold name } :: rename names []
  | name :: names, v :: columns => { v with name := D.fold name } :: rename names columns

/-- The source that a table name stands for. -/
def tableSource (ctes : List Cte) (t : Table) : Source :=
  match lookupCte D ctes t with
  | some c => { name := some t.aliasOrName, columns := rename D t.aliasColumns c.columns }
  | none => {
      name := some t.aliasOrName
      table := some t
      occurrences := [⟨[t.aliasOrName], t⟩]
      columns := rename D t.aliasColumns ((D.columns t).map fun n => ⟨n, [(⟨[t.aliasOrName], t⟩, n)]⟩) }

/-- The block as one source, if it is given an alias. -/
def Block.named (b : Block) (alias_ : Option Ident) (names : List Ident) : Block :=
  match alias_ with
  | none => b
  | some a => Source.block {
      name := some a
      occurrences := b.occurrences.map (Occurrence.within a)
      columns := rename D names (b.columns.map (VisibleColumn.within a)) }

/-- Join a further item. -/
def FromItems.add (items : FromItems) (kind : JoinKind) (item : Block) : FromItems :=
  match kind with
  | .comma => ⟨items.block, item⟩
  | .on => { items with last := items.last.merge [] item }
  | .natural =>
    let common := (items.last.columns.map VisibleColumn.name).filter fun n => n ∈ item.columns.map VisibleColumn.name
    { items with last := items.last.merge common item }
  | .using_ names => { items with last := items.last.merge (names.map D.fold) item }

/-- How an item is joined; the first one is like one behind a comma. -/
def joinKind (item : Expression) : JoinKind :=
  match item.cls with
  | .join kind => kind
  | _ => .comma

/-- The column names that an item of a select list contributes. -/
def itemColumns (block : Block) (item : Expression) : List String :=
  match item.cls with
  | .alias_ a => [D.fold a]
  | .star => block.columns.map VisibleColumn.name
  | .column c => match c.this, c.table with
    | some n, _ => [D.fold n]
    | none, some q => (block.sources.filter fun s => s.name.any fun a => D.fold a == D.fold q).flatMap fun s =>
      s.columns.map VisibleColumn.name
    | none, none => block.columns.map VisibleColumn.name
  | _ => []

mutual
/-- The column names that a query returns. -/
def outputs (ctes : List Cte) : Expression → List String
  | .node l ts => match l.cls with
    | .select =>
      (ts.filter fun t => t.label.arg = .expressions).flatMap
        (itemColumns D (joined (ctesOf ctes ts ++ ctes) {} ts).block)
    | .table t => (joined ctes ⟨{}, (tableSource D ctes t).block⟩ ts).block.columns.map VisibleColumn.name
    | _ => outputsOfThis (ctesOf ctes ts ++ ctes) ts

def outputsOfThis (ctes : List Cte) : List Expression → List String
  | [] => []
  | t :: ts => if t.label.arg = .this then outputs ctes t else outputsOfThis ctes ts

/-- The arguments `from_` and `joins`, joined to the items in front of them. -/
def joined (ctes : List Cte) (items : FromItems) : List Expression → FromItems
  | [] => items
  | t :: ts =>
    if t.label.arg = .from_ ∨ t.label.arg = .joins then
      joined ctes (items.add D (joinKind t) (itemBlock ctes t)) ts
    else joined ctes items ts

/-- The block that an item of a FROM clause makes. -/
def itemBlock (ctes : List Cte) : Expression → Block
  | .node l ts => match l.cls with
    | .from_ | .join _ => thisBlock ctes ts
    | .table t => (joined ctes ⟨{}, (tableSource D ctes t).block⟩ ts).block
    | .subquery a names | .lateral a names =>
      (joined (ctesOf ctes ts ++ ctes) ⟨{}, (thisBlock (ctesOf ctes ts ++ ctes) ts).named D a names⟩ ts).block
    | .select => Source.block {
        columns := ((ts.filter fun t => t.label.arg = .expressions).flatMap
          (itemColumns D (joined (ctesOf ctes ts ++ ctes) {} ts).block)).map fun n => { name := n } }
    | _ => Source.block { columns := (outputsOfThis (ctesOf ctes ts ++ ctes) ts).map fun n => { name := n } }

def thisBlock (ctes : List Cte) : List Expression → Block
  | [] => {}
  | t :: ts => if t.label.arg = .this then itemBlock ctes t else thisBlock ctes ts

/-- The CTEs that the WITH among the arguments defines, innermost first. -/
def ctesOf (ctes : List Cte) : List Expression → List Cte
  | [] => []
  | .node l us :: ts => match l.cls with
    | .with_ _ => cteList ctes us
    | _ => ctesOf ctes ts

/-- The CTEs of a WITH, each defined in sight of the ones before it. -/
def cteList (ctes : List Cte) : List Expression → List Cte
  | [] => []
  | .node l us :: ts => match l.cls with
    | .cte a names =>
      let c : Cte := ⟨a, rename D names ((outputsOfThis ctes us).map fun n => { name := n })⟩
      cteList (c :: ctes) ts ++ [c]
    | _ => cteList ctes ts
end

end

/-! ## Scopes -/

/-- What is visible at a node. -/
structure Scope where
  ctes : List Cte := []
  /-- The blocks of the enclosing SELECTs, innermost first. -/
  blocks : List Block := []
  /-- The items in front of the FROM item under way. -/
  pending : FromItems := {}
  /-- The nearest SELECT above. -/
  select : Option Expression := none
  /-- The output columns that an item of ORDER BY or GROUP BY may name. -/
  outputNames : List String := []

section
variable (D : Database)

/-- The CTEs visible in the arguments of `e` other than its WITH. -/
def innerCtes (sc : Scope) (e : Expression) : List Cte := ctesOf D sc.ctes e.children ++ sc.ctes

/-- The block of the FROM clause of `e`. -/
def blockOf (sc : Scope) (e : Expression) : Block := (joined D (innerCtes D sc e) {} e.children).block

/-- What is visible in a child of `e`, the nearest SELECT left aside. -/
def enter (sc : Scope) (e : Expression) (i : ℕ) (child : Expression) : Scope :=
  let inside := { sc with ctes := innerCtes D sc e, outputNames := [] }
  let before items := joined D (innerCtes D sc e) items (e.children.take i)
  match e.cls, child.label.arg with
  -- a CTE sees the ones in front of it, in a recursive WITH all of them
  | .with_ recursive, _ =>
    { sc with ctes := cteList D sc.ctes (if recursive then e.children else e.children.take i) ++ sc.ctes }
  | _, .with_ => sc
  -- the items of a FROM clause do not see each other; `pending` is for ON, USING and LATERAL
  | .select, .from_ | .select, .joins => { inside with pending := before {} }
  | .select, .order =>
    { inside with blocks := blockOf D sc e :: sc.blocks, outputNames := outputs D sc.ctes e }
  | .select, .group => { inside with
      blocks := blockOf D sc e :: sc.blocks
      outputNames := (outputs D sc.ctes e).filter fun n => n ∉ (blockOf D sc e).columns.map VisibleColumn.name }
  | .select, _ => { inside with blocks := blockOf D sc e :: sc.blocks }
  | .union, .order | .otherSetOp, .order => { inside with blocks := [], outputNames := outputs D sc.ctes e }
  | .group, _ | .order, _ | .ordered, _ => sc
  | .table t, .joins => { inside with pending := before ⟨sc.pending.block, (tableSource D sc.ctes t).block⟩ }
  | .subquery a names, .joins => { inside with
      pending := before ⟨sc.pending.block, (thisBlock D (innerCtes D sc e) e.children).named D a names⟩ }
  | .join kind, .on => { inside with blocks := (sc.pending.add D kind (itemBlock D sc.ctes e)).last :: sc.blocks }
  | .lateral _ _, _ => { inside with blocks := sc.pending.block :: sc.blocks }
  | _, _ => inside

def down (sc : Scope) (e : Expression) (i : ℕ) : Scope :=
  match e.children[i]? with
  | none => sc
  | some child =>
    { enter D sc e i child with select := if Expression.isSelect e.label then some e else sc.select }

/-- The node `e` of `tree` is read in scope `sc`. -/
abbrev Reads (tree : Expression) (sc : Scope) (e : Expression) : Prop :=
  RoseTree.Occurs (down D) {} tree sc e

/-- The name denotes a physical table. -/
def Physical (sc : Scope) (t : Table) : Prop := lookupCte D sc.ctes t = none

/-- A table reference of the query denotes the physical table `t`. -/
def PhysicalRef (tree : Expression) (t : Table) : Prop :=
  ∃ sc e, Reads D tree sc e ∧ e.cls = .table t ∧ Physical D sc t

/-- The source goes by the qualifier of the column. -/
def Source.answers (s : Source) (c : Column) (q : Ident) : Bool :=
  s.name.any (fun a => D.fold a == D.fold q) &&
    match c.db with
    | none => true
    | some db => s.table.any fun t => t.alias_.isNone && t.db.any fun d => D.fold d == D.fold db

/-- The source of the innermost SELECT that has one for the qualifier. -/
def sourceFor (blocks : List Block) (c : Column) (q : Ident) : Option Source :=
  blocks.findSome? fun b => b.sources.find? fun s => s.answers D c q

/-- The columns of physical tables that a column reference is bound to. -/
def resolve (sc : Scope) (c : Column) : List (Occurrence × String) :=
  match c.this, c.table with
  | none, _ => []
  | some n, some q => (sourceFor D sc.blocks c q).elim [] fun s => originsOf s.columns (D.fold n)
  | some n, none =>
    if D.fold n ∈ sc.outputNames then [] else
    (sc.blocks.find? fun b => b.columns.any fun v => v.name == D.fold n).elim [] fun b =>
      originsOf b.columns (D.fold n)

/-- The column reference is bound to the column `n` of the physical table `t`. -/
def BoundTo (sc : Scope) (c : Column) (t : Table) (n : String) : Prop :=
  ∃ o : Occurrence, (o, n) ∈ resolve D sc c ∧ o.table = t

/-- The columns that a name in the USING clause of the join `e` merges. -/
def mergedBy (sc : Scope) (e : Expression) (i : Ident) : List (Occurrence × String) :=
  originsOf sc.pending.last.columns (D.fold i) ++ originsOf (itemBlock D sc.ctes e).columns (D.fold i)

end

theorem down_select (D : Database) (sc : Scope) (e : Expression) (i : ℕ) (c : Expression)
    (hc : e.children[i]? = some c) :
    (down D sc e i).select = if Expression.isSelect e.label then some e else sc.select := by
  simp only [down, hc]

theorem PhysicalRef.mem_tables {D : Database} {tree : Expression} {t : Table} (h : PhysicalRef D tree t) :
    t ∈ Expression.tables tree.walk := by
  obtain ⟨_, e, hreads, he, _⟩ := h
  exact Expression.mem_tables.2 ⟨e, hreads.mem_walk, he⟩

/-- The nearest SELECT of a node is a SELECT of the tree that owns the node. -/
theorem Reads.own {D : Database} {tree e s : Expression} {sc : Scope} (h : Reads D tree sc e)
    (hs : sc.select = some s) : s ∈ tree.selects ∧ e ∈ s.own := by
  obtain ⟨hwalk, hsel, hunder⟩ := h.nearest Scope.select rfl (down_select D) hs
  exact ⟨List.mem_filter.2 ⟨hwalk, hsel⟩, hunder⟩

/-- `(t JOIN u USING (id)) AS j`. -/
def joinedPair : Expression :=
  .mk .this (.subquery (some ⟨"j", false⟩) []) [
    .mk .this (.table { this := ⟨"t", false⟩ }) [
      .mk .joins (.join (.using_ [⟨"id", false⟩])) [.mk .this (.table { this := ⟨"u", false⟩ })]]]

-- the column `id` of the join is that of both tables
example : (resolve (.postgres fun _ => ["id"]) { blocks := [itemBlock (.postgres fun _ => ["id"]) [] joinedPair] }
    { table := some ⟨"j", false⟩, this := some ⟨"id", false⟩ }).map (fun g => (g.1.table.this.name, g.2)) =
      [("t", "id"), ("u", "id")] := by
  decide

end RoboMeta
