/-
  Syntax trees as `sqlglot` returns them, and the calls the guards make.

  A node is labelled with its class and with the argument of its parent that it
  hangs in; identifiers are part of the label.  Only the classes that the
  guards ask for, or that decide what a name refers to, are told apart.  The
  library itself is a parameter (`Sqlglot`).
-/
import RoboMeta.Lib.RoseTree
import RoboMeta.Artifact

namespace RoboMeta

structure Ident where
  name : String
  quoted : Bool := false
deriving DecidableEq, Repr

/-- The name of an optional identifier, empty if it is absent. -/
def identName (i : Option Ident) : String := (i.map Ident.name).getD ""

structure Table where
  catalog : Option Ident := none
  db : Option Ident := none
  this : Ident
  alias_ : Option Ident := none
  /-- The names that the alias gives to the columns. -/
  aliasColumns : List Ident := []
deriving DecidableEq, Repr

/-- The names of an `exp.Column`; `this` is absent for a star. -/
structure Column where
  catalog : Option Ident := none
  db : Option Ident := none
  table : Option Ident := none
  this : Option Ident
deriving DecidableEq, Repr

/-- `column.name`. -/
def Column.name (c : Column) : String := (c.this.map Ident.name).getD "*"

/-- `table.alias or table.name`. -/
def Table.aliasOrName (t : Table) : Ident :=
  match t.alias_ with
  | some a => if a.name = "" then t.this else a
  | none => t.this

/-- How an `exp.Join` joins; an item behind a comma is one, too. -/
inductive JoinKind where
  | comma
  /-- `CROSS JOIN`, and `JOIN` with `ON` -/
  | on
  | natural
  | using_ (names : List Ident)
deriving DecidableEq, Repr

inductive Cls where
  | select
  | union
  /-- `exp.Intersect`, `exp.Except` -/
  | otherSetOp
  /-- `exp.Subquery`, `exp.Values` -/
  | subquery (alias_ : Option Ident) (columns : List Ident)
  /-- `exp.Lateral`, `exp.Unnest` -/
  | lateral (alias_ : Option Ident) (columns : List Ident)
  | with_ (recursive : Bool)
  | cte (alias_ : Ident) (columns : List Ident)
  | from_
  | join (kind : JoinKind)
  | where_
  | group
  | order
  | ordered
  | table (t : Table)
  | column (c : Column)
  | star
  | alias_ (a : Ident)
  | and
  | eq
  | paren
  /-- `exp.Insert`, `exp.Update`, `exp.Delete`, `exp.Drop`, `exp.Create`, `exp.Alter`, `exp.Command` -/
  | forbidden (name : String)
  | other (name : String)
deriving DecidableEq, Repr

inductive Arg where
  | root
  | with_
  | expressions
  | from_
  | joins
  | on
  | where_
  | group
  | order
  | this
  | expression
  | other (name : String)
deriving DecidableEq, Repr

structure Label where
  arg : Arg
  cls : Cls
deriving DecidableEq, Repr

abbrev Expression := RoseTree Label

namespace Expression

def mk (k : Arg) (c : Cls) (args : List Expression := []) : Expression := .node ⟨k, c⟩ args

def cls (e : Expression) : Cls := e.label.cls

/-- `e.args.get(k)`. -/
def arg? (k : Arg) (e : Expression) : Option Expression := e.children.find? fun c => c.label.arg = k

/-- `e.args.get(k) or []`. -/
def argList (k : Arg) (e : Expression) : List Expression := e.children.filter fun c => c.label.arg = k

def isSelect (l : Label) : Bool := l.cls = .select

/-- The tables among the nodes. -/
def tables (es : List Expression) : List Table :=
  es.filterMap fun e => match e.cls with | .table t => some t | _ => none

def columns (es : List Expression) : List Column :=
  es.filterMap fun e => match e.cls with | .column c => some c | _ => none

/-- `e.find_all(exp.Select)`. -/
def selects (e : Expression) : List Expression := e.walk.filter fun s => isSelect s.label

/-- The nodes under a SELECT that `_belongs_to` it: it is their nearest one. -/
def own (select : Expression) : List Expression := select.under isSelect

theorem mem_selects {s e : Expression} : s ∈ e.selects ↔ s ∈ e.walk ∧ s.cls = .select := by
  simp [selects, isSelect, cls]

theorem mem_tables {t : Table} {es : List Expression} :
    t ∈ tables es ↔ ∃ e ∈ es, e.cls = .table t := by
  simp only [tables, List.mem_filterMap]
  refine exists_congr fun e => and_congr_right fun _ => ?_
  split <;> simp_all

theorem mem_columns {c : Column} {es : List Expression} :
    c ∈ columns es ↔ ∃ e ∈ es, e.cls = .column c := by
  simp only [columns, List.mem_filterMap]
  refine exists_congr fun e => and_congr_right fun _ => ?_
  split <;> simp_all

end Expression

/-- The entry points of `sqlglot`: `parse`, `parse_one`, `Expression.sql` and
    `exp.to_identifier`, the first three for a dialect. -/
structure Sqlglot where
  parse : String → String → Except PyError (List (Option Expression))
  parseOne : String → String → Except PyError Expression
  sql : String → Expression → String
  toIdentifier : String → Ident

/-- The library on finitely many texts. -/
def Sqlglot.ofTexts (texts : List (String × Expression)) : Sqlglot where
  parse _ text := match texts.lookup text with
    | some tree => .ok [some tree]
    | none => .error (.parseError text)
  parseOne _ text := match texts.lookup text with
    | some tree => .ok tree
    | none => .error (.parseError text)
  sql _ tree := ((texts.find? fun entry => entry.2 = tree).map Prod.fst).getD ""
  toIdentifier name := { name }

theorem Sqlglot.mem_of_parseOne {texts : List (String × Expression)} {dialect text : String}
    {tree : Expression} (h : (Sqlglot.ofTexts texts).parseOne dialect text = .ok tree) :
    (text, tree) ∈ texts := by
  simp only [Sqlglot.ofTexts] at h
  split at h
  · rename_i tree' hlookup
    cases h
    obtain ⟨front, back, rfl, -⟩ := List.lookup_eq_some_iff.1 hlookup
    simp
  · cases h

end RoboMeta
