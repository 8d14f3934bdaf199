/-
  Computations that return or raise: what a successful run went through.
-/
import Mathlib.Data.List.Forall2
import Mathlib.Data.List.Perm.Basic

universe u v

/-! ## Lists side by side -/

section
variable {α : Type u} {β : Type v} {R : α → β → Prop} {xs : List α} {ys : List β} (h : List.Forall₂ R xs ys)
include h

theorem exists_of_mem_right {y : β} (hy : y ∈ ys) : ∃ x ∈ xs, R x y := by
  induction h with
  | nil => cases hy
  | cons hxy _ ih =>
    rcases List.mem_cons.1 hy with rfl | hy
    · exact ⟨_, List.mem_cons_self, hxy⟩
    · obtain ⟨x, hx, h⟩ := ih hy
      exact ⟨x, List.mem_cons_of_mem _ hx, h⟩

theorem exists_of_mem_left {x : α} (hx : x ∈ xs) : ∃ y ∈ ys, R x y := exists_of_mem_right h.flip hx

end

/-- A list has one beside it iff each of its elements has something beside it. -/
theorem exists_forall₂_iff {α : Type u} {β : Type v} {R : α → β → Prop} {xs : List α} :
    (∃ ys, List.Forall₂ R xs ys) ↔ ∀ x ∈ xs, ∃ y, R x y := by
  constructor
  · rintro ⟨ys, h⟩ x hx
    obtain ⟨y, -, hxy⟩ := exists_of_mem_left h hx
    exact ⟨y, hxy⟩
  · intro h
    induction xs with
    | nil => exact ⟨[], .nil⟩
    | cons x xs ih =>
      obtain ⟨y, hxy⟩ := h x List.mem_cons_self
      obtain ⟨ys, hys⟩ := ih fun z hz => h z (List.mem_cons_of_mem x hz)
      exact ⟨y :: ys, .cons hxy hys⟩

/-- Where every element gives one or nothing, what is given counts the elements that give. -/
theorem length_flatMap_of_forall₂ {α : Type u} {β : Type v} {γ : Type*} {p : α → Bool} {f : β → List γ} {xs : List α}
    {ys : List β} (h : List.Forall₂ (fun x y => (f y).length = if p x then 1 else 0) xs ys) :
    (ys.flatMap f).length = xs.countP p := by
  induction h with
  | nil => rfl
  | cons hxy _ ih => rw [List.flatMap_cons, List.length_append, hxy, ih, List.countP_cons, Nat.add_comm]

/-- The stronger of two conditions that as many elements meet is no stronger. -/
theorem of_countP_eq {α : Type u} {p q : α → Bool} {xs : List α} (himp : ∀ x ∈ xs, q x → p x)
    (h : xs.countP p = xs.countP q) : ∀ x ∈ xs, p x → q x := by
  induction xs with
  | nil => simp
  | cons x xs ih =>
    have htail : ∀ y ∈ xs, q y → p y := fun y hy => himp y (List.mem_cons_of_mem x hy)
    have hle := List.countP_mono_left htail
    have hx := himp x List.mem_cons_self
    rw [List.countP_cons, List.countP_cons] at h
    rw [List.forall_mem_cons]
    by_cases hq : q x
    · rw [if_pos hq, if_pos (hx hq)] at h
      exact ⟨fun _ => hq, ih htail (by omega)⟩
    · rw [if_neg hq] at h
      by_cases hp : p x
      · rw [if_pos hp] at h
        omega
      · rw [if_neg hp] at h
        exact ⟨fun hp' => absurd hp' hp, ih htail h⟩

/-! ## Computations -/

namespace Except

variable {ε : Type u} {α β : Type v}

theorem bind_eq_ok {x : Except ε α} {f : α → Except ε β} {b : β} :
    (x >>= f) = .ok b ↔ ∃ a, x = .ok a ∧ f a = .ok b := by
  cases x with
  | error e => simp [bind, Except.bind]
  | ok a => simp [bind, Except.bind]

theorem map_eq_ok {x : Except ε α} {f : α → β} {b : β} : x.map f = .ok b ↔ ∃ a, x = .ok a ∧ f a = b := by
  cases x with
  | error e => simp [Except.map]
  | ok a => simp [Except.map]

/-- Mapping over a list succeeds iff it does on every element. -/
theorem mapM_eq_ok {f : α → Except ε β} {xs : List α} {ys : List β} :
    xs.mapM f = .ok ys ↔ List.Forall₂ (fun x y => f x = .ok y) xs ys := by
  induction xs generalizing ys with
  | nil =>
    rw [List.mapM_nil, List.forall₂_nil_left_iff]
    exact ⟨fun h => (Except.ok.inj h).symm, fun h => by rw [h]; rfl⟩
  | cons x xs ih =>
    simp only [List.mapM_cons, bind_eq_ok, List.forall₂_cons_left_iff]
    constructor
    · rintro ⟨y, hy, ys', hys, h⟩
      exact ⟨y, ys', hy, ih.1 hys, (Except.ok.inj h).symm⟩
    · rintro ⟨y, ys', hy, hys, rfl⟩
      exact ⟨y, hy, ys', ih.2 hys, rfl⟩

theorem exists_of_mapM_eq_ok {f : α → Except ε β} {xs : List α} {ys : List β}
    (h : xs.mapM f = .ok ys) {x : α} (hx : x ∈ xs) : ∃ y ∈ ys, f x = .ok y :=
  exists_of_mem_left (mapM_eq_ok.1 h) hx

/-- What a successful map returns comes from the elements. -/
theorem exists_of_mem_mapM_eq_ok {f : α → Except ε β} {xs : List α} {ys : List β}
    (h : xs.mapM f = .ok ys) {y : β} (hy : y ∈ ys) : ∃ x ∈ xs, f x = .ok y :=
  exists_of_mem_right (mapM_eq_ok.1 h) hy

/-- What all results have in common, in terms of the elements. -/
theorem forall_mem_mapM_iff {f : α → Except ε β} {P : β → Prop} {Q : α → Prop}
    (hf : ∀ {x y}, f x = .ok y → (P y ↔ Q x)) {xs : List α} {ys : List β} (h : xs.mapM f = .ok ys) :
    (∀ y ∈ ys, P y) ↔ ∀ x ∈ xs, Q x := by
  constructor
  · intro hP x hx
    obtain ⟨y, hy, hxy⟩ := exists_of_mapM_eq_ok h hx
    exact (hf hxy).1 (hP y hy)
  · intro hQ y hy
    obtain ⟨x, hx, hxy⟩ := exists_of_mem_mapM_eq_ok h hy
    exact (hf hxy).2 (hQ x hx)

/-- Mapping over a list succeeds if it does on every element. -/
theorem exists_mapM_eq_ok {f : α → Except ε β} {xs : List α} :
    (∃ ys, xs.mapM f = .ok ys) ↔ ∀ x ∈ xs, ∃ y, f x = .ok y := by
  simp only [mapM_eq_ok, exists_forall₂_iff]

/-- Mapping over the same elements in another order returns the same results in another order. -/
theorem exists_mapM_eq_ok_of_perm {f : α → Except ε β} {xs xs' : List α} {ys : List β} (h : xs.mapM f = .ok ys)
    (hperm : xs'.Perm xs) : ∃ ys', xs'.mapM f = .ok ys' ∧ ys'.Perm ys := by
  obtain ⟨ys', hys', hperm'⟩ := List.perm_comp_forall₂ hperm (mapM_eq_ok.1 h)
  exact ⟨ys', mapM_eq_ok.2 hys', hperm'⟩

/-- One map after the other is the map of the two steps. -/
theorem mapM_bind_eq_ok {γ : Type v} {f : α → Except ε β} {g : β → Except ε γ} {xs : List α} {zs : List γ} :
    (xs.mapM fun x => f x >>= g) = .ok zs ↔ ∃ ys, xs.mapM f = .ok ys ∧ ys.mapM g = .ok zs := by
  simp only [mapM_eq_ok, bind_eq_ok]
  constructor
  · intro h
    induction h with
    | nil => exact ⟨[], .nil, .nil⟩
    | cons hxz _ ih =>
      obtain ⟨y, hxy, hyz⟩ := hxz
      obtain ⟨ys, hxs, hys⟩ := ih
      exact ⟨y :: ys, .cons hxy hxs, .cons hyz hys⟩
  · rintro ⟨ys, hxs, hys⟩
    induction hxs generalizing zs with
    | nil =>
      cases hys
      exact .nil
    | cons hxy _ ih =>
      cases hys with
      | cons hyz hys => exact .cons ⟨_, hxy, hyz⟩ (ih hys)

theorem mapM_eq_ok_map {f : α → Except ε β} {g : α → β} {xs : List α} (h : ∀ x ∈ xs, f x = .ok (g x)) :
    xs.mapM f = .ok (xs.map g) := by
  rw [mapM_eq_ok, List.forall₂_map_right_iff]
  exact List.forall₂_same.2 h

theorem mapM_map_eq_ok {γ : Type v} {f : β → Except ε γ} {enc : α → β} {g : α → γ} (h : ∀ x, f (enc x) = .ok (g x))
    (xs : List α) : (xs.map enc).mapM f = .ok (xs.map g) := by
  rw [mapM_eq_ok, List.forall₂_map_left_iff, List.forall₂_map_right_iff]
  exact List.forall₂_same.2 fun x _ => h x

/-- A loop whose body adds to an accumulator what it computes from an element alone. -/
theorem foldlM_eq_map {σ : Type v} {step : σ → α → Except ε σ} {delta : α → Except ε β}
    {combine : σ → β → σ} (h : ∀ acc x, step acc x = (delta x).map (combine acc)) (acc : σ) (xs : List α) :
    xs.foldlM step acc = (xs.mapM delta).map fun ds => ds.foldl combine acc := by
  induction xs generalizing acc with
  | nil => rfl
  | cons x xs ih =>
    rw [List.foldlM_cons, List.mapM_cons, h]
    cases hx : delta x with
    | error e => rfl
    | ok d =>
      have hmap : (Except.ok d >>= fun d => xs.mapM delta >>= fun ds => pure (d :: ds)) =
          (xs.mapM delta).map (d :: ·) := by
        cases xs.mapM delta <;> rfl
      rw [hmap]
      refine (ih _).trans ?_
      cases xs.mapM delta <;> rfl

section
variable {ε' : Type u} {γ : Type v} {f : α → Except ε β} {xs : List α}

/-- Two maps that agree but for the errors. -/
theorem mapM_mapError {e : ε → ε'} {f' : α → Except ε' β} (h : ∀ x ∈ xs, f' x = (f x).mapError e) :
    xs.mapM f' = (xs.mapM f).mapError e := by
  induction xs with
  | nil => rfl
  | cons x xs ih =>
    rw [List.mapM_cons, List.mapM_cons, h x List.mem_cons_self, ih fun y hy => h y (List.mem_cons_of_mem x hy)]
    cases f x with
    | error _ => rfl
    | ok y => cases xs.mapM f <;> rfl

/-- Two maps that agree but for what they make of the results. -/
theorem mapM_zipWith {g : α → β → γ} {f' : α → Except ε γ} (h : ∀ x ∈ xs, f' x = (f x).map (g x)) :
    xs.mapM f' = (xs.mapM f).map (List.zipWith g xs) := by
  induction xs with
  | nil => rfl
  | cons x xs ih =>
    rw [List.mapM_cons, List.mapM_cons, h x List.mem_cons_self, ih fun y hy => h y (List.mem_cons_of_mem x hy)]
    cases f x with
    | error _ => rfl
    | ok y => cases xs.mapM f <;> rfl

theorem mapM_map {g : β → γ} {f' : α → Except ε γ} (h : ∀ x ∈ xs, f' x = (f x).map g) :
    xs.mapM f' = (xs.mapM f).map (List.map g) := by
  rw [mapM_zipWith h]
  cases hys : xs.mapM f with
  | error _ => rfl
  | ok ys =>
    have hlength := (mapM_eq_ok.1 hys).length_eq
    have hmap : List.zipWith (fun _ y => g y) xs ys = ys.map g := by
      rw [← List.map_uncurry_zip_eq_zipWith]
      change (xs.zip ys).map (g ∘ Prod.snd) = _
      rw [← List.map_map, List.map_snd_zip (Nat.le_of_eq hlength.symm)]
    exact congrArg ok hmap

end

theorem length_of_mapM_eq_ok {f : α → Except ε β} {xs : List α} {ys : List β} (h : xs.mapM f = .ok ys) :
    xs.length = ys.length := (mapM_eq_ok.1 h).length_eq

end Except
