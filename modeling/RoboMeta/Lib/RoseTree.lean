/-
  Rose trees and walks over them.

  * `walk` lists the nodes of a tree breadth first; `under stop` lists the nodes
    under the root that are reached without passing a node marked by `stop`;
  * `Occurs down e₀ root e t` says that the node `t` occurs in `root` and that
    `e` is the environment it is read in, when `down e t i` is the environment
    of the `i`-th child of `t`;
  * `Occurs.nearest`: if the environment records the nearest marked ancestor,
    then the node is one of those below it.
-/
import Mathlib.Data.List.Basic

universe u v

/-- Ordered trees with labelled nodes. -/
inductive RoseTree (α : Type u) where
  | node (label : α) (children : List (RoseTree α))

namespace RoseTree

variable {α : Type u} {ε : Type v}

def label : RoseTree α → α
  | node a _ => a

def children : RoseTree α → List (RoseTree α)
  | node _ ts => ts

theorem induct {P : RoseTree α → Prop} (step : ∀ a ts, (∀ t ∈ ts, P t) → P (node a ts)) : ∀ t, P t
  | node a ts => step a ts fun t _ => induct step t

mutual
def decEq [DecidableEq α] : (s t : RoseTree α) → Decidable (s = t)
  | node a ss, node b ts =>
    match (inferInstance : Decidable (a = b)), decEqAll ss ts with
    | isTrue ha, isTrue hs => isTrue (by rw [ha, hs])
    | isFalse ha, _ => isFalse fun h => ha (node.inj h).1
    | _, isFalse hs => isFalse fun h => hs (node.inj h).2

def decEqAll [DecidableEq α] : (ss ts : List (RoseTree α)) → Decidable (ss = ts)
  | [], [] => isTrue rfl
  | [], _ :: _ => isFalse nofun
  | _ :: _, [] => isFalse nofun
  | s :: ss, t :: ts =>
    match decEq s t, decEqAll ss ts with
    | isTrue hs, isTrue hss => isTrue (by rw [hs, hss])
    | isFalse hs, _ => isFalse fun h => hs (List.cons.inj h).1
    | _, isFalse hss => isFalse fun h => hss (List.cons.inj h).2
end

instance [DecidableEq α] : DecidableEq (RoseTree α) := decEq

/-! ## Walks -/

/-- Append two lists of levels level by level. -/
def zipLevels {β : Type*} : List (List β) → List (List β) → List (List β)
  | [], bs => bs
  | a :: as, [] => a :: as
  | a :: as, b :: bs => (a ++ b) :: zipLevels as bs

mutual
/-- The nodes of a tree level by level; the walk does not go below a node
    whose label satisfies `stop`. -/
def levels (stop : α → Bool) : RoseTree α → List (List (RoseTree α))
  | node a ts => [node a ts] :: (if stop a then [] else levelsAll stop ts)

def levelsAll (stop : α → Bool) : List (RoseTree α) → List (List (RoseTree α))
  | [] => []
  | t :: ts => zipLevels (levels stop t) (levelsAll stop ts)
end

/-- All nodes, breadth first. -/
def walk (t : RoseTree α) : List (RoseTree α) := (levels (fun _ => false) t).flatten

/-- The nodes under the root whose nearest marked ancestor is the root, breadth
    first. -/
def under (stop : α → Bool) (t : RoseTree α) : List (RoseTree α) := (levelsAll stop t.children).flatten

theorem mem_flatten_zipLevels {β : Type*} {x : β} (as bs : List (List β)) :
    x ∈ (zipLevels as bs).flatten ↔ x ∈ as.flatten ∨ x ∈ bs.flatten := by
  fun_induction zipLevels as bs with
  | case1 | case2 => simp
  | case3 a as b bs ih =>
    simp only [List.flatten_cons, List.mem_append, ih]
    tauto

theorem mem_levelsAll {stop : α → Bool} {x : RoseTree α} (ts : List (RoseTree α)) :
    x ∈ (levelsAll stop ts).flatten ↔ ∃ t ∈ ts, x ∈ (levels stop t).flatten := by
  induction ts with
  | nil => simp [levelsAll]
  | cons t ts ih => rw [levelsAll, mem_flatten_zipLevels, ih]; simp

theorem mem_levels {stop : α → Bool} {x : RoseTree α} (t : RoseTree α) :
    x ∈ (levels stop t).flatten ↔ x = t ∨ stop t.label = false ∧ x ∈ under stop t := by
  cases t with
  | node a ts =>
    rw [levels, List.flatten_cons, List.mem_append, List.mem_singleton, under, label, children]
    cases stop a <;> simp

theorem mem_under_of_child {stop : α → Bool} {t c : RoseTree α} (h : c ∈ t.children) :
    c ∈ under stop t :=
  (mem_levelsAll _).2 ⟨c, h, (mem_levels c).2 (Or.inl rfl)⟩

/-- A node that is not marked passes the walk on to its children. -/
theorem mem_under_step {stop : α → Bool} {s c : RoseTree α} (hs : stop s.label = false)
    (hc : c ∈ s.children) (t : RoseTree α) : s ∈ under stop t → c ∈ under stop t := by
  -- on the tree the walk starts from: `s` is a child of the root or lies under one
  induction t using induct with
  | step a ts ih =>
    intro h
    obtain ⟨u, hu, hsu⟩ := (mem_levelsAll _).1 h
    refine (mem_levelsAll _).2 ⟨u, hu, (mem_levels u).2 (Or.inr ?_)⟩
    rcases (mem_levels u).1 hsu with rfl | ⟨hstop, hunder⟩
    · exact ⟨hs, mem_under_of_child hc⟩
    · exact ⟨hstop, ih u hu hunder⟩

theorem mem_walk {x t : RoseTree α} : x ∈ walk t ↔ x = t ∨ x ∈ under (fun _ => false) t := by
  rw [walk, mem_levels]; simp

theorem mem_walk_iff {x t : RoseTree α} : x ∈ walk t ↔ x = t ∨ ∃ c ∈ t.children, x ∈ walk c := by
  rw [mem_walk, under, mem_levelsAll]
  rfl

theorem mem_walk_self (t : RoseTree α) : t ∈ walk t := mem_walk.2 (Or.inl rfl)

theorem mem_walk_child {s c t : RoseTree α} (hs : s ∈ walk t) (hc : c ∈ s.children) : c ∈ walk t := by
  rcases mem_walk.1 hs with rfl | hs
  · exact mem_walk.2 (Or.inr (mem_under_of_child hc))
  · exact mem_walk.2 (Or.inr (mem_under_step rfl hc t hs))

theorem mem_walk_trans {x s t : RoseTree α} (hx : x ∈ walk s) (hs : s ∈ walk t) : x ∈ walk t := by
  induction t using induct with
  | step a ts ih =>
    rcases mem_walk_iff.1 hs with rfl | ⟨c, hc, hs⟩
    · exact hx
    · exact mem_walk_iff.2 (Or.inr ⟨c, hc, ih c hc hs⟩)

theorem mem_walk_of_mem_under {stop : α → Bool} {x t : RoseTree α} (hx : x ∈ under stop t) : x ∈ walk t := by
  induction t using induct with
  | step a ts ih =>
    obtain ⟨c, hc, hx⟩ := (mem_levelsAll _).1 hx
    refine mem_walk_iff.2 (Or.inr ⟨c, hc, ?_⟩)
    rcases (mem_levels c).1 hx with rfl | ⟨-, hunder⟩
    · exact mem_walk_self _
    · exact ih c hc hunder

/-! ## Occurrences -/

/-- `Occurs down e₀ root e t`: the node `t` occurs in `root`, in environment `e`. -/
inductive Occurs (down : ε → RoseTree α → ℕ → ε) (e₀ : ε) (root : RoseTree α) : ε → RoseTree α → Prop
  | root : Occurs down e₀ root e₀ root
  | child {e t i c} : Occurs down e₀ root e t → t.children[i]? = some c →
      Occurs down e₀ root (down e t i) c

section
variable {down : ε → RoseTree α → ℕ → ε} {e₀ e : ε} {root t : RoseTree α}

theorem Occurs.mem_walk (h : Occurs down e₀ root e t) : t ∈ walk root := by
  induction h with
  | root => exact mem_walk_self _
  | child _ hc ih => exact mem_walk_child ih (List.mem_of_getElem? hc)

/-- **The nearest marked ancestor.**  If `near` is set at every marked node and
    passed on at the others, an occurrence lies below the node it names. -/
theorem Occurs.nearest {stop : α → Bool} (near : ε → Option (RoseTree α)) (h₀ : near e₀ = none)
    (hdown : ∀ e t i c, t.children[i]? = some c →
      near (down e t i) = if stop t.label then some t else near e)
    (h : Occurs down e₀ root e t) {s : RoseTree α} (hs : near e = some s) :
    s ∈ walk root ∧ stop s.label = true ∧ t ∈ under stop s := by
  induction h with
  | root => rw [h₀] at hs; cases hs
  | @child e t i c ht hc ih =>
    rw [hdown e t i c hc] at hs
    have hmem := List.mem_of_getElem? hc
    split_ifs at hs with hstop
    · cases hs
      exact ⟨ht.mem_walk, hstop, mem_under_of_child hmem⟩
    · obtain ⟨hwalk, hmark, hunder⟩ := ih hs
      exact ⟨hwalk, hmark, mem_under_step (by simpa using hstop) hmem s hunder⟩

end

/-! ## Relabelling -/

mutual
def map {β : Type*} (f : α → β) : RoseTree α → RoseTree β
  | node a ts => node (f a) (mapAll f ts)

def mapAll {β : Type*} (f : α → β) : List (RoseTree α) → List (RoseTree β)
  | [] => []
  | t :: ts => map f t :: mapAll f ts
end

theorem mapAll_eq_map {β : Type*} (f : α → β) (ts : List (RoseTree α)) : mapAll f ts = ts.map (map f) := by
  induction ts with
  | nil => rfl
  | cons t ts ih => rw [mapAll, ih, List.map_cons]

theorem map_node {β : Type*} (f : α → β) (a : α) (ts : List (RoseTree α)) :
    map f (node a ts) = node (f a) (ts.map (map f)) := by
  rw [map, mapAll_eq_map]

section
variable {β : Type*} (f : α → β)

@[simp] theorem label_map (t : RoseTree α) : (map f t).label = f t.label := by
  cases t with
  | node a ts => rw [map_node]; rfl

@[simp] theorem children_map (t : RoseTree α) : (map f t).children = t.children.map (map f) := by
  cases t with
  | node a ts => rw [map_node]; rfl

theorem map_map {γ : Type*} (g : β → γ) (t : RoseTree α) : map g (map f t) = map (g ∘ f) t := by
  induction t using induct with
  | step a ts ih =>
    rw [map_node, map_node, map_node, List.map_map]
    exact congrArg (node _) (List.map_congr_left ih)

theorem zipLevels_map {γ δ : Type*} (h : γ → δ) (as bs : List (List γ)) :
    zipLevels (as.map (List.map h)) (bs.map (List.map h)) = (zipLevels as bs).map (List.map h) := by
  fun_induction zipLevels as bs with
  | case1 bs | case2 => rfl
  | case3 a as b bs ih =>
    simp only [List.map_cons, zipLevels, ih, List.map_append]

mutual
theorem levels_map (stop : β → Bool) :
    ∀ t : RoseTree α, levels stop (map f t) = (levels (stop ∘ f) t).map (List.map (map f))
  | node a ts => by
    rw [map, levels, levels, levelsAll_map]
    by_cases h : stop (f a) = true
    · simp [h, map]
    · simp [h, map]

theorem levelsAll_map (stop : β → Bool) :
    ∀ ts : List (RoseTree α), levelsAll stop (mapAll f ts) = (levelsAll (stop ∘ f) ts).map (List.map (map f))
  | [] => rfl
  | t :: ts => by rw [mapAll, levelsAll, levelsAll, levels_map, levelsAll_map, zipLevels_map]
end

theorem walk_map (t : RoseTree α) : walk (map f t) = (walk t).map (map f) := by
  rw [walk, levels_map, ← List.map_flatten]
  rfl

theorem under_map (stop : β → Bool) (t : RoseTree α) :
    under stop (map f t) = (under (stop ∘ f) t).map (map f) := by
  rw [under, children_map, ← mapAll_eq_map, levelsAll_map, ← List.map_flatten]
  rfl

/-- Relabellings that agree on the labels of a tree. -/
theorem map_congr {f g : α → β} {t : RoseTree α} (h : ∀ x ∈ walk t, f x.label = g x.label) : map f t = map g t := by
  induction t using induct with
  | step a ts ih =>
    have hroot : f a = g a := h _ (mem_walk_self _)
    have hchildren : ts.map (map f) = ts.map (map g) := List.map_congr_left fun t ht =>
      ih t ht fun x hx => h x (mem_walk_iff.2 (Or.inr ⟨t, ht, hx⟩))
    rw [map_node, map_node, hroot, hchildren]

end

end RoseTree
