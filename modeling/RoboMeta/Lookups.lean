/-
  What the checks of the artifact guard look up.

  Each check turns the names at its place of the query into a question to the
  allowlist, and finds a fault if the answer is no.

  * `Lookup`: the questions, and when they fail;
  * `tableLookup`, `columnLookup`, `joinLookup`: what the names of a tree are
    turned into;
  * `tableViolation_eq_none_iff` and so on: a check passes iff its lookup does.
-/
import RoboMeta.ArtifactGuard

namespace RoboMeta

open Expression

/-! ## Questions -/

inductive Lookup where
  | nothing
  | table (t : String)
  /-- A column of a table, asked for if the table is allowed. -/
  | qualified (t c : String)
  /-- A bare column, in the only table in sight. -/
  | only (t c : String)
  /-- A bare column, in any table. -/
  | anywhere (c : String)
  | edge (l r : String × String)
  /-- A name that is in no allowlist. -/
  | unknown
deriving DecidableEq

def Lookup.Fails (allow : Allowlist) : Lookup → Prop
  | nothing => False
  | table t => t ∉ allow.tables
  | qualified t c => t ∈ allow.tables ∧ c ≠ "*" ∧ (t, c) ∉ allow.columns
  | only t c => (t, c) ∉ allow.columns
  | anywhere c => c ∉ allow.columns.map Prod.snd
  | edge l r => {l, r} ∉ allow.joinEdges
  | unknown => True

section
variable (U : Unicode) (cteNames names : List String) (select : Expression)

def tableLookup (t : Table) : Lookup := if t.key U ∈ cteNames then .nothing else .table (t.key U)

/-- A column without qualifier, with `names` the tables of its SELECT. -/
def bareLookup (c : Column) : Lookup :=
  if c.key U = "*" ∨ c.key U ∈ selectAliases U select then .nothing
  else match names with
    | [] => .nothing
    | [only] => .only only (c.key U)
    | _ :: _ :: _ => .anywhere (c.key U)

def columnLookup (c : Column) : Lookup :=
  if c.qualifier U ∈ cteNames then .nothing
  else if c.qualifier U ≠ "" then
    if resolved U cteNames select c ∈ cteNames then .nothing
    else .qualified (resolved U cteNames select c) (c.key U)
  else bareLookup U (scopeNames U cteNames select) select c

/-- The edge between two sides of an equality, if both have a table and not the same one. -/
def edgeLookup : Option (String × String) → Option (String × String) → Lookup
  | some l, some r => if l.1 = r.1 then .nothing else .edge l r
  | _, _ => .nothing

def sideOf (side : Expression) : Option (String × String) :=
  (columnOf? side).bind fun c => (sideTable U cteNames select c).map fun t => (t, c.key U)

def joinLookup (eq : Expression) : Lookup :=
  match checkedSides U cteNames select eq with
  | none => .nothing
  | some (l, r) => .edge l r

end

/-! ## Checks -/

section
variable {U : Unicode} {allow : Allowlist} {cteNames names : List String} {select : Expression}

/-- A check returns its violation under one condition. -/
theorem violation_eq_none_iff {p : Prop} [Decidable p] {message : String} :
    (if p then some message else none) = none ↔ ¬ p := by
  rw [ite_eq_right_iff]
  exact forall_congr' fun _ => iff_of_false (Option.some_ne_none _) id

theorem tableViolation_eq_none_iff {t : Table} :
    tableViolation U allow cteNames t = none ↔ ¬ (tableLookup U cteNames t).Fails allow := by
  unfold tableViolation tableLookup
  by_cases hcte : t.key U ∈ cteNames
  · rw [if_pos hcte, if_pos hcte]
    exact iff_of_true rfl id
  · rw [if_neg hcte, if_neg hcte]
    exact violation_eq_none_iff

theorem bareLookup_ne_qualified {c : Column} {t name : String} :
    bareLookup U names select c ≠ .qualified t name := by
  unfold bareLookup
  split_ifs
  · exact Lookup.noConfusion
  · split
    · exact Lookup.noConfusion
    · exact Lookup.noConfusion
    · exact Lookup.noConfusion

theorem columnViolation_of_qualified {c : Column} (hcte : c.qualifier U ∉ cteNames)
    (hqual : c.qualifier U ≠ "") :
    columnViolation U allow cteNames select c = none ↔
      resolved U cteNames select c ∈ cteNames ∨ resolved U cteNames select c ∉ allow.tables ∨ c.key U = "*" ∨
        (resolved U cteNames select c, c.key U) ∈ allow.columns := by
  rw [columnViolation, if_neg hcte, if_pos hqual, ← or_assoc]
  by_cases hskip : resolved U cteNames select c ∈ cteNames ∨ resolved U cteNames select c ∉ allow.tables
  · exact iff_of_true (if_pos hskip) (Or.inl hskip)
  · rw [if_neg hskip, or_iff_right hskip]
    by_cases hmissing : c.key U ≠ "*" ∧ (resolved U cteNames select c, c.key U) ∉ allow.columns
    · rw [if_pos hmissing]
      exact iff_of_false (Option.some_ne_none _) fun h => h.elim hmissing.1 hmissing.2
    · rw [if_neg hmissing]
      exact iff_of_true rfl (or_iff_not_imp_left.2 fun hstar => not_not.1 fun hnot => hmissing ⟨hstar, hnot⟩)

theorem columnViolation_eq_none_iff {c : Column} :
    columnViolation U allow cteNames select c = none ↔ ¬ (columnLookup U cteNames select c).Fails allow := by
  by_cases hcte : c.qualifier U ∈ cteNames
  · rw [columnLookup, if_pos hcte]
    exact iff_of_true (if_pos hcte) id
  by_cases hqual : c.qualifier U = ""
  · rw [columnViolation, columnLookup, if_neg hcte, if_neg hcte, if_neg (not_not.2 hqual), if_neg (not_not.2 hqual)]
    unfold bareLookup
    by_cases hexempt : c.key U = "*" ∨ c.key U ∈ selectAliases U select
    · rw [if_pos hexempt, if_pos hexempt]
      exact iff_of_true rfl id
    · rw [if_neg hexempt, if_neg hexempt]
      cases scopeNames U cteNames select with
      | nil => exact iff_of_true rfl id
      | cons only rest => cases rest with
        | nil => exact violation_eq_none_iff
        | cons => exact violation_eq_none_iff
  · rw [columnViolation_of_qualified hcte hqual, columnLookup, if_neg hcte, if_pos hqual]
    by_cases hresolved : resolved U cteNames select c ∈ cteNames
    · rw [if_pos hresolved]
      exact iff_of_true (Or.inl hresolved) id
    · rw [if_neg hresolved, or_iff_right hresolved]
      simp only [Lookup.Fails, not_and_or, not_not]

theorem joinViolation_eq_none_iff {e : Expression} :
    joinViolation U allow cteNames select e = none ↔ ¬ (joinLookup U cteNames select e).Fails allow := by
  unfold joinViolation joinLookup
  cases checkedSides U cteNames select e with
  | none => exact iff_of_true rfl id
  | some sides => exact violation_eq_none_iff

theorem joinLookup_eq (e : Expression) :
    joinLookup U cteNames select e =
      edgeLookup ((e.arg? .this).bind (sideOf U cteNames select))
        ((e.arg? .expression).bind (sideOf U cteNames select)) := by
  have hside : ∀ k, (e.arg? k).bind (sideOf U cteNames select) =
      ((e.arg? k).bind columnOf?).bind fun c => (sideTable U cteNames select c).map fun t => (t, c.key U) := fun k => by
    rw [Option.bind_assoc]
    rfl
  rw [joinLookup, checkedSides, hside, hside]
  cases (e.arg? .this).bind columnOf? with
  | none => rfl
  | some l => cases (e.arg? .expression).bind columnOf? with
    | none => cases hl : sideTable U cteNames select l <;> simp [edgeLookup, hl]
    | some r => cases hl : sideTable U cteNames select l with
      | none => simp [edgeLookup, hl]
      | some lt => cases hr : sideTable U cteNames select r with
        | none => simp [edgeLookup, hl, hr]
        | some rt =>
          by_cases heq : lt = rt
          · simp [edgeLookup, hl, hr, heq]
          · simp [edgeLookup, hl, hr, heq]

end

end RoboMeta
