/-
  Matches of a graph query, as lists of rows.

  * `GraphEdge`: a relationship of the graph; `ends`: the nodes at its ends;
  * `optionalMatch`: a row without a match stays, with a null; a condition on the
    match is part of what is matched;
  * `mem_optionalMatch`, `exists_mem_optionalMatch`: its rows.
-/
import Mathlib.Data.List.Basic

universe u v

structure GraphEdge where
  id : ℕ
  source : ℕ
  target : ℕ
deriving DecidableEq, Repr

variable {α : Type u} {β : Type v}

/-- The nodes at the ends of the relationships. -/
def ends (source : ℕ → Option α) (target : ℕ → Option β) (rels : List GraphEdge) : List (α × β) :=
  rels.filterMap fun r => (source r.source).bind fun a => (target r.target).map fun b => (a, b)

/-- `OPTIONAL MATCH`, with its `WHERE`. -/
def optionalMatch (pattern : α → List β) (rows : List α) : List (α × Option β) :=
  rows.flatMap fun row => if pattern row = [] then [(row, none)] else (pattern row).map fun b => (row, some b)

section
variable {pattern : α → List β} {rows : List α} {row : α} {b : Option β}

theorem mem_optionalMatch : (row, b) ∈ optionalMatch pattern rows ↔
    row ∈ rows ∧ ((∃ x ∈ pattern row, b = some x) ∨ pattern row = [] ∧ b = none) := by
  unfold optionalMatch
  rw [List.mem_flatMap]
  constructor
  · rintro ⟨row', hrow', hmem⟩
    split_ifs at hmem with hnil
    · obtain ⟨rfl, rfl⟩ := Prod.mk.inj (List.mem_singleton.1 hmem)
      exact ⟨hrow', Or.inr ⟨hnil, rfl⟩⟩
    · obtain ⟨x, hx, heq⟩ := List.mem_map.1 hmem
      obtain ⟨rfl, rfl⟩ := Prod.mk.inj heq
      exact ⟨hrow', Or.inl ⟨x, hx, rfl⟩⟩
  · rintro ⟨hrow, ⟨x, hx, rfl⟩ | ⟨hnil, rfl⟩⟩
    · refine ⟨row, hrow, ?_⟩
      rw [if_neg (List.ne_nil_of_mem hx)]
      exact List.mem_map.2 ⟨x, hx, rfl⟩
    · refine ⟨row, hrow, ?_⟩
      rw [if_pos hnil]
      exact List.mem_singleton.2 rfl

/-- No row is lost. -/
theorem exists_mem_optionalMatch (h : row ∈ rows) : ∃ b, (row, b) ∈ optionalMatch pattern rows := by
  cases hpattern : pattern row with
  | nil => exact ⟨none, mem_optionalMatch.2 ⟨h, Or.inr ⟨hpattern, rfl⟩⟩⟩
  | cons x xs => exact ⟨some x, mem_optionalMatch.2 ⟨h, Or.inl ⟨x, by simp [hpattern], rfl⟩⟩⟩

end
