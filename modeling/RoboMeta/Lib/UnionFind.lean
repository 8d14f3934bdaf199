/-
  Union-find without ranks.

  The forest is a partial map from elements to their parents: a root is its own
  parent, and an element without a parent is none of the forest's.  `find`
  follows the parents and hangs what it passed under the root; since it would
  not come back on a cycle, it counts its steps.

  * `RootAt p n x r`: from `x` the root `r` is `n` steps up;
  * `Forest p keys`: every key has a root;
  * `find_eq_some`, `union_eq_some`: with as many steps as there are keys both
    return, and what they leave of the roots;
  * `Partitions p keys es`: keys have the same root iff edges of `es` link
    them; `partitions_unions` is the run lemma.
-/
import Mathlib.Data.List.Perm.Subperm
import Mathlib.Logic.Function.Basic
import RoboMeta.Lib.Linked

universe u

namespace UnionFind

variable {κ : Type u}

/-- The parents of the elements of a forest. -/
abbrev Parents (κ : Type u) := κ → Option κ

section
variable [DecidableEq κ]

/-- The root of an element, and the forest with the path to it compressed. -/
def find : ℕ → Parents κ → κ → Option (κ × Parents κ)
  | 0, _, _ => none
  | fuel + 1, p, x => do
    let y ← p x
    if y = x then return (x, p)
    let (r, p) ← find fuel p y
    return (r, Function.update p x (some r))

def union (fuel : ℕ) (p : Parents κ) (x y : κ) : Option (Parents κ) := do
  let (rx, p) ← find fuel p x
  let (ry, p) ← find fuel p y
  return if rx = ry then p else Function.update p rx (some ry)

def unions (fuel : ℕ) (p : Parents κ) (es : List (κ × κ)) : Option (Parents κ) :=
  es.foldlM (fun p e => union fuel p e.1 e.2) p

/-- Every key is a root. -/
def singletons (keys : List κ) : Parents κ := fun x => if x ∈ keys then some x else none

end

/-! ## Roots -/

inductive RootAt (p : Parents κ) : ℕ → κ → κ → Prop
  | root {r : κ} : p r = some r → RootAt p 0 r r
  | up {n : ℕ} {x y r : κ} : p x = some y → y ≠ x → RootAt p n y r → RootAt p (n + 1) x r

def Root (p : Parents κ) (x r : κ) : Prop := ∃ n, RootAt p n x r

variable {p p' : Parents κ} {n m : ℕ} {x y r s : κ}

theorem RootAt.unique (h : RootAt p n x r) (h' : RootAt p m x s) : n = m ∧ r = s := by
  induction h generalizing m s with
  | root hr =>
    cases h' with
    | root _ => exact ⟨rfl, rfl⟩
    | up hx hne _ => exact absurd (Option.some.inj (hx.symm.trans hr)) hne
  | up hx hne _ ih =>
    cases h' with
    | root hs => exact absurd (Option.some.inj (hx.symm.trans hs)) hne
    | up hx' _ h' =>
      obtain rfl := Option.some.inj (hx.symm.trans hx')
      obtain ⟨rfl, rfl⟩ := ih h'
      exact ⟨rfl, rfl⟩

theorem Root.unique (h : Root p x r) (h' : Root p x s) : r = s := by
  obtain ⟨n, h⟩ := h
  obtain ⟨m, h'⟩ := h'
  exact (h.unique h').2

theorem root_self (h : p r = some r) : Root p r r := ⟨0, .root h⟩

theorem Root.up (hx : p x = some y) (h : Root p y r) : Root p x r := by
  by_cases hxy : y = x
  · exact hxy ▸ h
  · obtain ⟨n, h⟩ := h
    exact ⟨n + 1, .up hx hxy h⟩

/-- A root is its own parent. -/
theorem Root.self (h : Root p x r) : p r = some r := by
  obtain ⟨n, h⟩ := h
  induction h with
  | root hr => exact hr
  | up _ _ _ ih => exact ih

/-- The two forests have the same roots. -/
def SameRoots (p p' : Parents κ) : Prop := ∀ x r, Root p' x r ↔ Root p x r

theorem SameRoots.refl (p : Parents κ) : SameRoots p p := fun _ _ => Iff.rfl

theorem SameRoots.trans {p'' : Parents κ} (h : SameRoots p p') (h' : SameRoots p' p'') :
    SameRoots p p'' := fun x r => (h' x r).trans (h x r)

/-! ## Two updates -/

section
variable [DecidableEq κ]

/-- What has a root after the update of an element with a root had one before. -/
theorem exists_root_of_update (hx : Root p x r) {parent : Option κ} {z : κ}
    (hz : Root (Function.update p x parent) z s) : ∃ r, Root p z r := by
  obtain ⟨n, hn⟩ := hz
  induction hn with
  | @root s hs =>
    by_cases hsx : s = x
    · exact ⟨r, hsx ▸ hx⟩
    · rw [Function.update_of_ne hsx] at hs
      exact ⟨s, root_self hs⟩
  | @up _ a b _ hab _ _ ih =>
    by_cases hax : a = x
    · exact ⟨r, hax ▸ hx⟩
    · rw [Function.update_of_ne hax] at hab
      exact ih.imp fun r => Root.up hab

/-- Hanging an element under its root changes no root. -/
theorem sameRoots_compress (h : Root p x r) : SameRoots p (Function.update p x (some r)) := by
  by_cases hxr : x = r
  · subst hxr
    rw [← h.self, Function.update_eq_self]
    exact SameRoots.refl p
  have hr : Root (Function.update p x (some r)) r r := by
    refine root_self ?_
    rw [Function.update_of_ne (Ne.symm hxr), h.self]
  have hx : Root (Function.update p x (some r)) x r := Root.up (Function.update_self ..) hr
  have hkept : ∀ {z s}, Root p z s → Root (Function.update p x (some r)) z s := by
    rintro z s ⟨n, hz⟩
    induction hz with
    | @root s hs =>
      refine root_self ?_
      rw [Function.update_of_ne ?_, hs]
      rintro rfl
      exact hxr (Root.unique (root_self hs) h)
    | @up _ a b _ hab _ hb ih =>
      by_cases hax : a = x
      · subst hax
        rwa [← h.unique (Root.up hab ⟨_, hb⟩)]
      · exact Root.up (by rwa [Function.update_of_ne hax]) ih
  refine fun z s => ⟨fun hz => ?_, hkept⟩
  obtain ⟨r', hr'⟩ := exists_root_of_update h hz
  rwa [hz.unique (hkept hr')]

/-- Hanging a root under another root sends the elements of the one to the
    other. -/
theorem root_link {rx ry : κ} (hrx : p rx = some rx) (hry : p ry = some ry) (hne : rx ≠ ry) {z : κ} :
    Root (Function.update p rx (some ry)) z s ↔
      ∃ r, Root p z r ∧ s = if r = rx then ry else r := by
  have hroot : Root (Function.update p rx (some ry)) ry ry :=
    root_self (by rw [Function.update_of_ne (Ne.symm hne), hry])
  have hmoved : ∀ {r}, Root p z r → Root (Function.update p rx (some ry)) z (if r = rx then ry else r) := by
    rintro r ⟨n, hz⟩
    induction hz with
    | @root r hr =>
      split_ifs with hrrx
      · subst hrrx
        exact Root.up (Function.update_self ..) hroot
      · exact root_self (by rw [Function.update_of_ne hrrx, hr])
    | @up _ a b _ hab hba _ ih =>
      refine Root.up ?_ ih
      rw [Function.update_of_ne ?_, hab]
      rintro rfl
      exact hba (Option.some.inj (hab.symm.trans hrx))
  constructor
  · intro hz
    obtain ⟨r, hr⟩ := exists_root_of_update (root_self hrx) hz
    exact ⟨r, hr, hz.unique (hmoved hr)⟩
  · rintro ⟨r, hr, rfl⟩
    exact hmoved hr

end

/-! ## Forests -/

structure Forest (p : Parents κ) (keys : List κ) : Prop where
  mem : ∀ {x y}, p x = some y → x ∈ keys
  rooted : ∀ x ∈ keys, ∃ r, Root p x r

variable {keys : List κ}

theorem Forest.isSome_iff (hp : Forest p keys) : (p x).isSome ↔ x ∈ keys := by
  constructor
  · intro h
    obtain ⟨y, hy⟩ := Option.isSome_iff_exists.1 h
    exact hp.mem hy
  · intro h
    obtain ⟨r, n, hr⟩ := hp.rooted x h
    cases hr with
    | root hx => rw [hx]; rfl
    | up hx _ _ => rw [hx]; rfl

theorem Root.mem (h : Root p x r) (hp : Forest p keys) : x ∈ keys := by
  obtain ⟨n, h⟩ := h
  cases h with
  | root hr => exact hp.mem hr
  | up hx _ _ => exact hp.mem hx

/-- The path to a root passes no key twice. -/
theorem RootAt.lt_length (h : RootAt p n x r) (hp : Forest p keys) : n < keys.length := by
  have hpath : ∃ path : List κ, path.length = n + 1 ∧ path.Nodup ∧
      ∀ y ∈ path, ∃ m ≤ n, RootAt p m y r := by
    induction h with
    | root hr => exact ⟨[_], rfl, by simp, by simpa using .root hr⟩
    | @up n a b r hab hba hb ih =>
      obtain ⟨path, hlen, hnodup, hpath⟩ := ih
      refine ⟨a :: path, by rw [List.length_cons, hlen], List.nodup_cons.2 ⟨fun ha => ?_, hnodup⟩, ?_⟩
      · obtain ⟨m, hm, ha⟩ := hpath a ha
        have := (ha.unique (.up hab hba hb)).1
        omega
      · intro y hy
        rcases List.mem_cons.1 hy with rfl | hy
        · exact ⟨n + 1, Nat.le_refl _, .up hab hba hb⟩
        · obtain ⟨m, hm, hy⟩ := hpath y hy
          exact ⟨m, by omega, hy⟩
  obtain ⟨path, hlen, hnodup, hpath⟩ := hpath
  have hsub : path ⊆ keys := fun y hy => by
    obtain ⟨m, -, hy⟩ := hpath y hy
    exact Root.mem ⟨m, hy⟩ hp
  have := (hnodup.subperm hsub).length_le
  omega

section
variable [DecidableEq κ]

theorem Forest.compress (hp : Forest p keys) (h : Root p x r) : Forest (Function.update p x (some r)) keys where
  mem {z y} hz := by
    by_cases hzx : z = x
    · exact hzx ▸ h.mem hp
    · rw [Function.update_of_ne hzx] at hz
      exact hp.mem hz
  rooted z hz := by
    obtain ⟨s, hs⟩ := hp.rooted z hz
    exact ⟨s, (sameRoots_compress h z s).2 hs⟩

theorem RootAt.find_eq_some {fuel : ℕ} (h : RootAt p n x r) (hfuel : n < fuel) (hp : Forest p keys) :
    ∃ p', find fuel p x = some (r, p') ∧ Forest p' keys ∧ SameRoots p p' := by
  induction h generalizing fuel with
  | @root r hr =>
    obtain ⟨fuel, rfl⟩ := Nat.exists_eq_add_of_lt hfuel
    exact ⟨p, by simp [find, hr], hp, SameRoots.refl p⟩
  | @up n x y r hx hne h ih =>
    obtain ⟨fuel, rfl⟩ : ∃ k, fuel = k + 1 := ⟨fuel - 1, by omega⟩
    obtain ⟨p', hfind, hp', hsame⟩ := ih (show n < fuel by omega)
    have hx' : Root p' x r := (hsame x r).2 ⟨n + 1, .up hx hne h⟩
    refine ⟨Function.update p' x (some r), ?_, hp'.compress hx', hsame.trans (sameRoots_compress hx')⟩
    simp [find, hx, hne, hfind]

/-- **`find` returns the root of every key, and moves no root.** -/
theorem find_eq_some {fuel : ℕ} (hp : Forest p keys) (hx : x ∈ keys) (hfuel : keys.length ≤ fuel) :
    ∃ r p', find fuel p x = some (r, p') ∧ Root p x r ∧ Forest p' keys ∧ SameRoots p p' := by
  obtain ⟨r, n, h⟩ := hp.rooted x hx
  obtain ⟨p', hfind⟩ := h.find_eq_some (Nat.lt_of_lt_of_le (h.lt_length hp) hfuel) hp
  exact ⟨r, p', hfind.1, ⟨n, h⟩, hfind.2⟩

end

/-! ## Unions -/

/-- The two elements have the same root. -/
def Joined (p : Parents κ) (x y : κ) : Prop := ∃ r, Root p x r ∧ Root p y r

theorem SameRoots.joined (h : SameRoots p p') : Joined p' x y ↔ Joined p x y :=
  exists_congr fun r => and_congr (h x r) (h y r)

theorem joined_iff (hx : Root p x r) (hy : Root p y s) : Joined p x y ↔ r = s := by
  constructor
  · rintro ⟨t, hxt, hyt⟩
    rw [hx.unique hxt, hy.unique hyt]
  · rintro rfl
    exact ⟨r, hx, hy⟩

/-- Keys have the same root iff edges link them. -/
structure Partitions (p : Parents κ) (keys : List κ) (es : List (κ × κ)) : Prop where
  forest : Forest p keys
  joined_iff : ∀ x ∈ keys, ∀ y ∈ keys, Joined p x y ↔ Linked es x y

variable {es : List (κ × κ)}

theorem Partitions.of_sameRoots (h : Partitions p keys es) (hp' : Forest p' keys) (hsame : SameRoots p p') :
    Partitions p' keys es where
  forest := hp'
  joined_iff x hx y hy := hsame.joined.trans (h.joined_iff x hx y hy)

section
variable [DecidableEq κ]

theorem Forest.link {rx ry : κ} (hp : Forest p keys) (hrx : p rx = some rx) (hry : p ry = some ry)
    (hne : rx ≠ ry) : Forest (Function.update p rx (some ry)) keys where
  mem {z y} hz := by
    by_cases hzx : z = rx
    · exact hzx ▸ hp.mem hrx
    · rw [Function.update_of_ne hzx] at hz
      exact hp.mem hz
  rooted z hz := by
    obtain ⟨s, hs⟩ := hp.rooted z hz
    exact ⟨_, (root_link hrx hry hne).2 ⟨s, hs, rfl⟩⟩

/-- What `union` joins: what was joined, and all of `x`'s with all of `y`'s. -/
def JoinedBy (p p' : Parents κ) (x y : κ) : Prop :=
  ∀ a b, Joined p' a b ↔ Joined p a b ∨ Joined p a x ∧ Joined p y b ∨ Joined p a y ∧ Joined p x b

theorem joinedBy_of_link {rx ry : κ} (hx : Root p x rx) (hy : Root p y ry) (hne : rx ≠ ry) :
    JoinedBy p (Function.update p rx (some ry)) x y := by
  have hlink : ∀ {z r}, Root p z r → Root (Function.update p rx (some ry)) z (if r = rx then ry else r) :=
    fun hz => (root_link hx.self hy.self hne).2 ⟨_, hz, rfl⟩
  intro a b
  by_cases hkeys : (∃ ra, Root p a ra) ∧ ∃ rb, Root p b rb
  · obtain ⟨⟨ra, ha⟩, rb, hb⟩ := hkeys
    rw [joined_iff (hlink ha) (hlink hb), joined_iff ha hb, joined_iff ha hx, joined_iff hy hb,
      joined_iff ha hy, joined_iff hx hb]
    split_ifs with hra hrb hrb <;> grind
  · -- elements outside the forest are joined with nothing, before and after
    have hout : ∀ {z r}, Root (Function.update p rx (some ry)) z r → ∃ s, Root p z s := fun hz => by
      obtain ⟨s, hs, -⟩ := (root_link hx.self hy.self hne).1 hz
      exact ⟨s, hs⟩
    constructor
    · rintro ⟨r, ha, hb⟩
      exact absurd ⟨hout ha, hout hb⟩ hkeys
    · rintro (⟨r, ha, hb⟩ | ⟨⟨r, ha, -⟩, s, -, hb⟩ | ⟨⟨r, ha, -⟩, s, -, hb⟩)
      all_goals exact absurd ⟨⟨_, ha⟩, _, hb⟩ hkeys

theorem union_eq_some {fuel : ℕ} (hp : Forest p keys) (hx : x ∈ keys) (hy : y ∈ keys)
    (hfuel : keys.length ≤ fuel) :
    ∃ p', union fuel p x y = some p' ∧ Forest p' keys ∧ JoinedBy p p' x y := by
  obtain ⟨rx, p₁, hfind₁, hx, hp₁, hsame₁⟩ := find_eq_some hp hx hfuel
  obtain ⟨ry, p₂, hfind₂, hy, hp₂, hsame₂⟩ := find_eq_some hp₁ hy hfuel
  have hsame := hsame₁.trans hsame₂
  have hx₂ : Root p₂ x rx := (hsame x rx).2 hx
  have hy₂ : Root p₂ y ry := (hsame₂ y ry).2 hy
  have hunion : union fuel p x y = some (if rx = ry then p₂ else Function.update p₂ rx (some ry)) := by
    simp [union, hfind₁, hfind₂]
  have hjoined : ∀ {p'}, JoinedBy p₂ p' x y → JoinedBy p p' x y := fun h a b => by
    simpa only [hsame.joined] using h a b
  refine ⟨_, hunion, ?_⟩
  split_ifs with heq
  · subst heq
    refine ⟨hp₂, hjoined fun a b => ?_⟩
    constructor
    · exact Or.inl
    · rintro (h | ⟨⟨r, ha, hr⟩, s, hs, hb⟩ | ⟨⟨r, ha, hr⟩, s, hs, hb⟩)
      · exact h
      · rw [hx₂.unique hr] at hy₂
        exact ⟨r, ha, by rwa [hy₂.unique hs]⟩
      · rw [hy₂.unique hr] at hx₂
        exact ⟨r, ha, by rwa [hx₂.unique hs]⟩
  · exact ⟨hp₂.link hx₂.self hy₂.self heq, hjoined (joinedBy_of_link hx₂ hy₂ heq)⟩

theorem partitions_singletons (keys : List κ) : Partitions (singletons keys) keys [] := by
  have hself : ∀ x ∈ keys, Root (singletons keys) x x := fun x hx => root_self (by simp [singletons, hx])
  refine ⟨⟨fun h => ?_, fun x hx => ⟨x, hself x hx⟩⟩, fun x hx y hy => ?_⟩
  · by_contra hn
    simp [singletons, hn] at h
  · rw [UnionFind.joined_iff (hself x hx) (hself y hy), linked_nil]

/-- The step lemma: a union adds its edge. -/
theorem Partitions.union {fuel : ℕ} (h : Partitions p keys es) (hx : x ∈ keys) (hy : y ∈ keys)
    (hfuel : keys.length ≤ fuel) :
    ∃ p', UnionFind.union fuel p x y = some p' ∧ Partitions p' keys (es ++ [(x, y)]) := by
  obtain ⟨p', hunion, hp', hjoined⟩ := union_eq_some h.forest hx hy hfuel
  refine ⟨p', hunion, hp', fun a ha b hb => ?_⟩
  rw [hjoined, linked_concat, h.joined_iff a ha b hb, h.joined_iff a ha x hx, h.joined_iff y hy b hb,
    h.joined_iff a ha y hy, h.joined_iff x hx b hb]

/-- **After any unions of keys, keys have the same root iff the unions link
    them.** -/
theorem partitions_unions {fuel : ℕ} (hfuel : keys.length ≤ fuel) (es' : List (κ × κ))
    (hkeys : ∀ e ∈ es', e.1 ∈ keys ∧ e.2 ∈ keys) (h : Partitions p keys es) :
    ∃ p', unions fuel p es' = some p' ∧ Partitions p' keys (es ++ es') := by
  induction es' generalizing p es with
  | nil => exact ⟨p, rfl, by rwa [List.append_nil]⟩
  | cons e es' ih =>
    obtain ⟨hx, hy⟩ := hkeys e List.mem_cons_self
    obtain ⟨p₁, hunion, h₁⟩ := h.union hx hy hfuel
    obtain ⟨p', hunions, h'⟩ := ih (fun e' he' => hkeys e' (List.mem_cons_of_mem e he')) h₁
    refine ⟨p', ?_, by simpa using h'⟩
    simp only [unions, List.foldlM_cons, hunion]
    exact hunions

end

end UnionFind
