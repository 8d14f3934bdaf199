/-
  Paths in a graph that is given by the list of its edges.

  * `Linked es x y`: a path of edges, each taken in either direction;
  * `Linked.transfer`: items that go by two names, linked by the one and so by the other;
  * `linked_concat`: what one more edge links.
-/
import Mathlib.Logic.Relation

universe u

variable {κ : Type u}

/-- A path of edges leads from `x` to `y`. -/
def Linked (es : List (κ × κ)) : κ → κ → Prop :=
  Relation.ReflTransGen fun x y => (x, y) ∈ es ∨ (y, x) ∈ es

namespace Linked

variable {es es' : List (κ × κ)} {x y z : κ}

theorem refl (es : List (κ × κ)) (x : κ) : Linked es x x := Relation.ReflTransGen.refl

theorem of_mem (h : (x, y) ∈ es) : Linked es x y := Relation.ReflTransGen.single (Or.inl h)

theorem trans (hxy : Linked es x y) (hyz : Linked es y z) : Linked es x z :=
  Relation.ReflTransGen.trans hxy hyz

theorem symm (h : Linked es x y) : Linked es y x := by
  induction h with
  | refl => exact refl es x
  | tail _ he ih => exact Relation.ReflTransGen.head he.symm ih

theorem mono (hes : ∀ e ∈ es, e ∈ es') (h : Linked es x y) : Linked es' x y :=
  Relation.ReflTransGen.mono (fun _ _ he => he.imp (hes _) (hes _)) _ _ h

/-- A property that no edge changes is the same at both ends of a path. -/
theorem invariant {P : κ → Prop} (hP : ∀ e ∈ es, P e.1 ↔ P e.2) (h : Linked es x y) : P x ↔ P y := by
  induction h with
  | refl => exact Iff.rfl
  | tail _ he ih =>
    rcases he with he | he
    · exact ih.trans (hP _ he)
    · exact ih.trans (hP _ he).symm

/-- Without edges to other nodes a node is linked with itself alone. -/
theorem eq_of_isolated (hx : ∀ e ∈ es, (e.1 = x ↔ e.2 = x)) (h : Linked es x y) : y = x :=
  (invariant (P := fun z => z = x) hx h).1 rfl

/-- Items are named in two ways, `f` and `g`.  Names `f` that are linked come with names `g` that are linked,
if the edges do and items of one name `f` have one name `g`. -/
theorem transfer {β κ' : Type*} {S : List β} {f : β → κ} {g : β → κ'} {es' : List (κ' × κ')}
    (hname : ∀ s ∈ S, ∀ s' ∈ S, f s = f s' → g s = g s')
    (hedge : ∀ e ∈ es, ∃ s ∈ S, ∃ s' ∈ S, f s = e.1 ∧ f s' = e.2 ∧ Linked es' (g s) (g s')) {t t' : β}
    (ht : t ∈ S) (ht' : t' ∈ S) (h : Linked es (f t) (f t')) : Linked es' (g t) (g t') := by
  have hclosed : ∀ e ∈ es, (∀ s ∈ S, f s = e.1 → Linked es' (g t) (g s)) ↔
      ∀ s ∈ S, f s = e.2 → Linked es' (g t) (g s) := by
    intro e he
    obtain ⟨s, hs, s', hs', hfrom, hto, hlink⟩ := hedge e he
    constructor
    · intro hall u hu hname'
      rw [← hname s' hs' u hu (hto.trans hname'.symm)]
      exact (hall s hs hfrom).trans hlink
    · intro hall u hu hname'
      rw [← hname s hs u hu (hfrom.trans hname'.symm)]
      exact (hall s' hs' hto).trans hlink.symm
  have hself : ∀ s ∈ S, f s = f t → Linked es' (g t) (g s) := by
    intro s hs heq
    rw [hname s hs t ht heq]
    exact refl es' (g t)
  exact (invariant (P := fun k => ∀ s ∈ S, f s = k → Linked es' (g t) (g s)) hclosed h).1 hself t' ht' rfl

end Linked

theorem linked_nil {x y : κ} : Linked [] x y ↔ x = y := by
  refine ⟨fun h => (Linked.eq_of_isolated (by simp) h).symm, ?_⟩
  rintro rfl
  exact Linked.refl [] x

theorem linked_concat {es : List (κ × κ)} {u v x y : κ} :
    Linked (es ++ [(u, v)]) x y ↔
      Linked es x y ∨ Linked es x u ∧ Linked es v y ∨ Linked es x v ∧ Linked es u y := by
  have hold : ∀ {a b}, Linked es a b → Linked (es ++ [(u, v)]) a b :=
    Linked.mono fun _ he => List.mem_append_left _ he
  have hnew : Linked (es ++ [(u, v)]) u v := Linked.of_mem (by simp)
  constructor
  · intro h
    induction h with
    | refl => exact Or.inl (Linked.refl es x)
    | @tail b c _ he ih =>
      have hedge : Linked es b c ∨ (b = u ∧ c = v) ∨ (b = v ∧ c = u) := by
        simp only [List.mem_append, List.mem_singleton, Prod.mk.injEq] at he
        rcases he with (he | he) | (he | ⟨rfl, rfl⟩)
        · exact Or.inl (Linked.of_mem he)
        · exact Or.inr (Or.inl he)
        · exact Or.inl (Linked.of_mem he).symm
        · exact Or.inr (Or.inr ⟨rfl, rfl⟩)
      rcases hedge with hbc | ⟨rfl, rfl⟩ | ⟨rfl, rfl⟩
      · rcases ih with hb | ⟨hu, hb⟩ | ⟨hv, hb⟩
        · exact Or.inl (hb.trans hbc)
        · exact Or.inr (Or.inl ⟨hu, hb.trans hbc⟩)
        · exact Or.inr (Or.inr ⟨hv, hb.trans hbc⟩)
      · rcases ih with hb | ⟨hu, -⟩ | ⟨hv, -⟩
        · exact Or.inr (Or.inl ⟨hb, Linked.refl es c⟩)
        · exact Or.inr (Or.inl ⟨hu, Linked.refl es c⟩)
        · exact Or.inl hv
      · rcases ih with hb | ⟨hu, -⟩ | ⟨hv, -⟩
        · exact Or.inr (Or.inr ⟨hb, Linked.refl es c⟩)
        · exact Or.inl hu
        · exact Or.inr (Or.inr ⟨hv, Linked.refl es c⟩)
  · rintro (h | ⟨hu, hv⟩ | ⟨hv, hu⟩)
    · exact hold h
    · exact ((hold hu).trans hnew).trans (hold hv)
    · exact ((hold hv).trans hnew.symm).trans (hold hu)
