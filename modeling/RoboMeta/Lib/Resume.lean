/-
  Work that can be interrupted and taken up again.

  A run goes over a list of elements and replaces some of those that are to be
  done, each on its own; `done a b` says that `b` is what `a` is replaced by.  A
  run that is interrupted has replaced some (`Between`), one that succeeds all
  (`Finished`).

  * `finished_of_runs`: a success after any number of interruptions has done
    what one success does;
  * `flatten_slices`: the slices of a list, one after the other.
-/
import Mathlib.Data.List.Forall2
import Mathlib.Logic.Relation

universe u v

variable {α : Type u} {todo : α → Prop} {done : α → α → Prop} {xs ys zs : List α}

/-- Some of the elements that are to be done are done. -/
def Between (todo : α → Prop) (done : α → α → Prop) : List α → List α → Prop :=
  List.Forall₂ fun a b => b = a ∨ todo a ∧ done a b

/-- All elements that are to be done are done, and no others. -/
def Finished (todo : α → Prop) (done : α → α → Prop) : List α → List α → Prop :=
  List.Forall₂ fun a b => (todo a → done a b) ∧ (¬ todo a → b = a)

theorem Between.refl (xs : List α) : Between todo done xs xs := List.forall₂_same.2 fun _ _ => Or.inl rfl

/-- Along two lists of pairs. -/
theorem forall₂_comp {r s t : α → α → Prop} (h : ∀ a b c, r a b → s b c → t a c) (hr : List.Forall₂ r xs ys)
    (hs : List.Forall₂ s ys zs) : List.Forall₂ t xs zs := by
  induction hr generalizing zs with
  | nil =>
    cases hs
    exact .nil
  | cons hab _ ih =>
    cases hs with
    | cons hbc hs => exact .cons (h _ _ _ hab hbc) (ih hs)

section
variable (hdone : ∀ a b, done a b → ¬ todo b)
include hdone

/-- What is done stays as it is. -/
theorem Between.trans (h : Between todo done xs ys) (h' : Between todo done ys zs) : Between todo done xs zs := by
  refine forall₂_comp (fun a b c hab hbc => ?_) h h'
  rcases hab with rfl | ⟨ha, hab⟩
  · exact hbc
  · rcases hbc with rfl | ⟨hb, -⟩
    · exact Or.inr ⟨ha, hab⟩
    · exact absurd hb (hdone a b hab)

theorem Between.finish (h : Between todo done xs ys) (h' : Finished todo done ys zs) : Finished todo done xs zs := by
  refine forall₂_comp (fun a b c hab hbc => ?_) h h'
  rcases hab with rfl | ⟨ha, hab⟩
  · exact hbc
  · obtain rfl : c = b := hbc.2 (hdone a b hab)
    exact ⟨fun _ => hab, fun hnot => absurd ha hnot⟩

variable {σ : Type v} {content : σ → List α} {failed success : σ → σ → Prop} {s s₁ s₂ : σ}

theorem between_of_runs (hfailed : ∀ s s', failed s s' → Between todo done (content s) (content s'))
    (hruns : Relation.ReflTransGen failed s s₁) : Between todo done (content s) (content s₁) := by
  induction hruns with
  | refl => exact .refl _
  | tail _ hrun ih => exact ih.trans hdone (hfailed _ _ hrun)

/-- **Resuming**: any number of interrupted runs, and then one that succeeds. -/
theorem finished_of_runs (hfailed : ∀ s s', failed s s' → Between todo done (content s) (content s'))
    (hsuccess : ∀ s s', success s s' → Finished todo done (content s) (content s'))
    (hruns : Relation.ReflTransGen failed s s₁) (hlast : success s₁ s₂) :
    Finished todo done (content s) (content s₂) :=
  (between_of_runs hdone hfailed hruns).finish hdone (hsuccess _ _ hlast)

end

/-! ## Slices -/

/-- `xs[i : i + size]` for every `i` of `range(0, len(xs), size)`. -/
def slices (size : ℕ) (xs : List α) : List (List α) :=
  (List.range ((xs.length + (size - 1)) / size)).map fun i => (xs.drop (i * size)).take size

theorem flatten_range_slices (size n : ℕ) (xs : List α) :
    ((List.range n).map fun i => (xs.drop (i * size)).take size).flatten = xs.take (n * size) := by
  induction n with
  | zero => simp
  | succ n ih =>
    rw [List.range_succ, List.map_append, List.flatten_append, ih, Nat.succ_mul, List.take_add]
    simp

/-- The last slice reaches the end. -/
theorem flatten_slices {size : ℕ} (h : 0 < size) (xs : List α) : (slices size xs).flatten = xs := by
  have hdiv := Nat.div_add_mod (xs.length + (size - 1)) size
  have hmod := Nat.mod_lt (xs.length + (size - 1)) h
  rw [slices, flatten_range_slices, Nat.mul_comm]
  exact List.take_of_length_le (by omega)
