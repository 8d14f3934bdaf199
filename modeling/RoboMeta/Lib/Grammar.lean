/-
  Derivation trees of a context-free grammar.

  An inner node carries a nonterminal and has the symbols of one of its rules
  below it, in their order; a leaf carries a token of the terminal it stands
  for.  Terminals are classes of tokens: `fits a k` says that the token `k` is
  one of the terminal `a`.

  * `Derivation` and `yield`: the trees and the tokens they are made of;
  * `Derivation.exists_rule`: the rule at an inner node has its terminals among
    these tokens, however deep the node stands.
-/
import RoboMeta.Lib.RoseTree
import Mathlib.Computability.ContextFreeGrammar

namespace Grammar

variable {T N K : Type*}

abbrev Tree (K N : Type*) := RoseTree (Symbol K N)

/-! ## Derivations -/

section
variable (rules : List (ContextFreeRule T N)) (fits : T → K → Prop)

/-- The tree stands for the symbol. -/
def Heads : Symbol T N → Tree K N → Prop
  | .terminal a, .node (.terminal k) ts => fits a k ∧ ts = []
  | .nonterminal n, .node (.nonterminal m) _ => m = n
  | _, _ => False

/-- The nodes below an inner node stand for the symbols of a rule. -/
def Licensed : Tree K N → Prop
  | .node (.terminal _) _ => True
  | .node (.nonterminal n) ts => ∃ r ∈ rules, r.input = n ∧ List.Forall₂ (Heads fits) r.output ts

@[mk_iff]
structure Derivation (start : N) (t : Tree K N) : Prop where
  heads : Heads fits (.nonterminal start) t
  licensed : ∀ x ∈ t.walk, Licensed rules fits x

end

section
variable {rules : List (ContextFreeRule T N)} {fits : T → K → Prop} [DecidableEq N] [∀ a k, Decidable (fits a k)]

instance (s : Symbol T N) (t : Tree K N) : Decidable (Heads fits s t) :=
  match s, t with
  | .terminal a, .node (.terminal k) [] => decidable_of_iff (fits a k) (by simp [Heads])
  | .terminal _, .node (.terminal _) (_ :: _) => isFalse (by simp [Heads])
  | .nonterminal n, .node (.nonterminal m) _ => inferInstanceAs (Decidable (m = n))
  | .terminal _, .node (.nonterminal _) _ => isFalse id
  | .nonterminal _, .node (.terminal _) _ => isFalse id

instance : (t : Tree K N) → Decidable (Licensed rules fits t)
  | .node (.terminal _) _ => isTrue trivial
  | .node (.nonterminal n) ts =>
    inferInstanceAs (Decidable (∃ r ∈ rules, r.input = n ∧ List.Forall₂ (Heads fits) r.output ts))

instance (start : N) (t : Tree K N) : Decidable (Derivation rules fits start t) :=
  decidable_of_iff' _ (derivation_iff rules fits start t)

end

/-! ## The yield -/

mutual
/-- The tokens at the leaves, from left to right. -/
def yield : Tree K N → List K
  | .node (.terminal k) ts => k :: yieldAll ts
  | .node (.nonterminal _) ts => yieldAll ts

def yieldAll : List (Tree K N) → List K
  | [] => []
  | t :: ts => yield t ++ yieldAll ts
end

theorem mem_yieldAll {k : K} {ts : List (Tree K N)} : k ∈ yieldAll ts ↔ ∃ t ∈ ts, k ∈ yield t := by
  induction ts with
  | nil => simp [yieldAll]
  | cons t ts ih => simp [yieldAll, ih]

theorem mem_yield_of_child {k : K} {t c : Tree K N} (hc : c ∈ t.children) (hk : k ∈ yield c) : k ∈ yield t := by
  have hall : ∀ ts : List (Tree K N), c ∈ ts → k ∈ yieldAll ts := fun ts h => mem_yieldAll.2 ⟨c, h, hk⟩
  match t, hc with
  | .node (.terminal _) ts, hc => exact List.mem_cons_of_mem _ (hall ts hc)
  | .node (.nonterminal _) ts, hc => exact hall ts hc

theorem yield_subset {s t : Tree K N} (h : s ∈ t.walk) : yield s ⊆ yield t := by
  induction t using RoseTree.induct with
  | step a ts ih =>
    rcases RoseTree.mem_walk_iff.1 h with rfl | ⟨c, hc, hs⟩
    · exact List.Subset.refl _
    · exact fun k hk => mem_yield_of_child (t := .node a ts) hc (ih c hc hs hk)

/-- **The rule at an inner node** and its terminals in the yield. -/
theorem Derivation.exists_rule {rules : List (ContextFreeRule T N)} {fits : T → K → Prop} {start n : N}
    {t x : Tree K N} (h : Derivation rules fits start t) (hx : x ∈ t.walk) (hn : x.label = .nonterminal n) :
    ∃ r ∈ rules, r.input = n ∧ ∀ a, .terminal a ∈ r.output → ∃ k ∈ yield t, fits a k := by
  match x, hn with
  | .node _ ts, rfl =>
    obtain ⟨r, hr, hinput, hchildren⟩ := h.licensed _ hx
    refine ⟨r, hr, hinput, fun a ha => ?_⟩
    obtain ⟨i, hi, hai⟩ := List.getElem_of_mem ha
    have hlength : i < ts.length := hchildren.length_eq ▸ hi
    have hheads : Heads fits (.terminal a) ts[i] := hai ▸ (List.forall₂_iff_get.1 hchildren).2 i hi hlength
    have hchild : ts[i] ∈ ts := List.getElem_mem hlength
    generalize ts[i] = c at hheads hchild
    match c, hheads with
    | .node (.terminal k) _, ⟨hfits, _⟩ =>
      refine ⟨k, yield_subset hx (mem_yield_of_child (t := .node _ ts) hchild ?_), hfits⟩
      exact List.mem_cons_self

end Grammar
