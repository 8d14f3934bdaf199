/-
  LIKE patterns.

  `%` stands for any text, `_` for any character, and a character behind `\`
  stands for itself; a pattern must not end in a single `\`.

  * `like_contains`: without these three signs `%k%` is containment;
  * `like_sample`, `plain_of_infix_sample`: with one of them it is not: the text that
    takes nothing for `%`, the character `x` for `_` and no `\` matches `%k%`
    and does not contain `k`.
-/
import Mathlib.Data.List.Infix

namespace Like

inductive Item where
  | many
  | one
  | char (c : Char)
deriving DecidableEq, Repr

/-- The signs of a pattern that do not stand for themselves. -/
def Special (c : Char) : Prop := c = '%' ∨ c = '_' ∨ c = '\\'

instance : DecidablePred Special := fun _ => inferInstanceAs (Decidable (_ ∨ _ ∨ _))

/-- The items of a pattern; none if the escape has nothing behind it. -/
def parse : List Char → Option (List Item)
  | [] => some []
  | ['\\'] => none
  | '\\' :: c :: p => (parse p).map (.char c :: ·)
  | '%' :: p => (parse p).map (.many :: ·)
  | '_' :: p => (parse p).map (.one :: ·)
  | c :: p => (parse p).map (.char c :: ·)

def like : List Item → List Char → Bool
  | [], s => s.isEmpty
  | .many :: p, s => s.tails.any (like p)
  | .one :: p, s => match s with
    | [] => false
    | _ :: s => like p s
  | .char c :: p, s => match s with
    | [] => false
    | d :: s => d = c && like p s

variable {c x : Char} {k p s : List Char} {items : List Item}

/-! ## Matching -/

theorem like_many : like (.many :: items) s ↔ ∃ s', s' <:+ s ∧ like items s' := by
  rw [like, List.any_eq_true]
  simp only [List.mem_tails]

theorem like_many_of_like (h : like items s) : like (.many :: items) s := like_many.2 ⟨s, List.suffix_rfl, h⟩

theorem like_all : like [.many] s := like_many.2 ⟨[], List.nil_suffix, rfl⟩

theorem like_chars : like (k.map .char ++ [.many]) s ↔ k <+: s := by
  induction k generalizing s with
  | nil => simp [like_all]
  | cons c k ih =>
    cases s with
    | nil => simp [like]
    | cons d s =>
      rw [List.map_cons, List.cons_append, like, List.cons_prefix_cons, Bool.and_eq_true, ih, decide_eq_true_eq]
      exact and_congr_left' eq_comm

theorem like_many_chars : like (.many :: (k.map .char ++ [.many])) s ↔ k <:+: s := by
  rw [like_many]
  constructor
  · rintro ⟨s', hs', hlike⟩
    exact (List.IsPrefix.isInfix (like_chars.1 hlike)).trans hs'.isInfix
  · intro h
    obtain ⟨s', hpre, hsuf⟩ := List.infix_iff_prefix_suffix.1 h
    exact ⟨s', hsuf, like_chars.2 hpre⟩

/-! ## Reading a pattern -/

theorem parse_cons (h : ¬ Special c) : parse (c :: p) = (parse p).map (.char c :: ·) := by
  simp only [Special, not_or] at h
  rw [parse]
  · exact fun hc => absurd hc h.2.2
  · exact fun _ _ hc => absurd hc h.2.2
  · exact fun hc => absurd hc h.1
  · exact fun hc => absurd hc h.2.1

theorem parse_plain (h : ∀ c ∈ k, ¬ Special c) (p : List Char) :
    parse (k ++ p) = (parse p).map (k.map .char ++ ·) := by
  induction k with
  | nil => simp
  | cons c k ih =>
    rw [List.cons_append, parse_cons (h c List.mem_cons_self), ih fun d hd => h d (List.mem_cons_of_mem c hd),
      Option.map_map]
    rfl

/-- **A pattern of plain characters** between two `%` is containment. -/
theorem like_contains (h : ∀ c ∈ k, ¬ Special c) :
    ∃ items, parse ('%' :: (k ++ ['%'])) = some items ∧ ∀ s, like items s ↔ k <:+: s := by
  refine ⟨.many :: (k.map .char ++ [.many]), ?_, fun s => like_many_chars⟩
  rw [parse, parse_plain h]
  rfl

/-! ## A text that shows the difference -/

/-- The text that `k` and a `%` behind it match with nothing for `%` and `x` for `_`. -/
def sample (x : Char) : List Char → List Char
  | [] => []
  | ['\\'] => ['%']
  | '\\' :: c :: k => c :: sample x k
  | '%' :: k => sample x k
  | '_' :: k => x :: sample x k
  | c :: k => c :: sample x k

theorem sample_cons (h : ¬ Special c) : sample x (c :: k) = c :: sample x k := by
  simp only [Special, not_or] at h
  rw [sample]
  · exact fun hc => absurd hc h.2.2
  · exact fun _ _ hc => absurd hc h.2.2
  · exact fun hc => absurd hc h.1
  · exact fun hc => absurd hc h.2.1

theorem not_special_of_cases (hlast : c = '\\' → k = [] → False) (hescape : ∀ d k', c = '\\' → k = d :: k' → False)
    (hmany : c = '%' → False) (hone : c = '_' → False) : ¬ Special c := by
  rintro (hc | hc | hc)
  · exact hmany hc
  · exact hone hc
  · cases k with
    | nil => exact hlast hc rfl
    | cons d k' => exact hescape d k' hc rfl

theorem like_sample (x : Char) (k : List Char) :
    ∃ items, parse (k ++ ['%']) = some items ∧ like items (sample x k) := by
  induction k using sample.induct with
  | case1 => exact ⟨[.many], rfl, like_all⟩
  | case2 => exact ⟨[.char '%'], rfl, rfl⟩
  | case3 c k ih =>
    obtain ⟨items, hparse, hlike⟩ := ih
    refine ⟨.char c :: items, ?_, by simp [sample, like, hlike]⟩
    rw [List.cons_append, List.cons_append, parse, hparse]
    rfl
  | case4 k ih =>
    obtain ⟨items, hparse, hlike⟩ := ih
    refine ⟨.many :: items, ?_, like_many_of_like hlike⟩
    rw [List.cons_append, parse, hparse]
    rfl
  | case5 k ih =>
    obtain ⟨items, hparse, hlike⟩ := ih
    refine ⟨.one :: items, ?_, hlike⟩
    rw [List.cons_append, parse, hparse]
    rfl
  | case6 c k hlast hescape hmany hone ih =>
    obtain ⟨items, hparse, hlike⟩ := ih
    have hc : ¬ Special c := not_special_of_cases hlast hescape hmany hone
    refine ⟨.char c :: items, ?_, by simp [sample_cons hc, like, hlike]⟩
    rw [List.cons_append, parse_cons hc, hparse]
    rfl

theorem length_sample_le (x : Char) (k : List Char) : (sample x k).length ≤ k.length := by
  induction k using sample.induct with
  | case1 | case2 => exact le_rfl
  | case3 c k ih => exact Nat.succ_le_succ (ih.trans (Nat.le_succ _))
  | case4 k ih => exact ih.trans (Nat.le_succ _)
  | case5 k ih => exact Nat.succ_le_succ ih
  | case6 c k hlast hescape hmany hone ih =>
    rw [sample_cons (not_special_of_cases hlast hescape hmany hone)]
    exact Nat.succ_le_succ ih

/-- The text is another one than `k`, if `k` has a special sign. -/
theorem plain_of_sample_eq (hx : x ≠ '_') (h : sample x k = k) : ∀ c ∈ k, ¬ Special c := by
  induction k using sample.induct with
  | case1 => simp
  | case2 => exact absurd (List.cons.inj h).1 (by decide)
  | case3 c k ih =>
    have hlength := congrArg List.length h
    have hle := length_sample_le x k
    simp only [sample, List.length_cons] at hlength
    omega
  | case4 k ih =>
    have hlength := congrArg List.length h
    have hle := length_sample_le x k
    simp only [sample, List.length_cons] at hlength
    omega
  | case5 k ih => exact absurd (List.cons.inj h).1 hx
  | case6 c k hlast hescape hmany hone ih =>
    have hc : ¬ Special c := not_special_of_cases hlast hescape hmany hone
    rw [sample_cons hc, List.cons.injEq] at h
    exact List.forall_mem_cons.2 ⟨hc, ih h.2⟩

/-- **With a special sign** the text does not contain `k`. -/
theorem plain_of_infix_sample (hx : x ≠ '_') (h : k <:+: sample x k) : ∀ c ∈ k, ¬ Special c :=
  plain_of_sample_eq hx (h.eq_of_length (le_antisymm h.length_le (length_sample_le x k))).symm

/-- The text has the characters of `k`, `x` and `%`. -/
theorem mem_sample {d : Char} (h : d ∈ sample x k) : d ∈ k ∨ d = x ∨ d = '%' := by
  induction k using sample.induct with
  | case1 => simp [sample] at h
  | case2 => exact Or.inr (Or.inr (List.mem_singleton.1 h))
  | case3 c k ih =>
    simp only [sample, List.mem_cons] at h ⊢
    tauto
  | case4 k ih =>
    simp only [sample, List.mem_cons] at h ⊢
    tauto
  | case5 k ih =>
    simp only [sample, List.mem_cons] at h ⊢
    tauto
  | case6 c k hlast hescape hmany hone ih =>
    rw [sample_cons (not_special_of_cases hlast hescape hmany hone)] at h
    simp only [List.mem_cons] at h ⊢
    tauto

/-- A change of characters that leaves the special signs alone. -/
theorem map_sample {f : Char → Char} (hf : ∀ c, Special c ∨ Special (f c) → f c = c) (x : Char) (k : List Char) :
    (sample x k).map f = sample (f x) (k.map f) := by
  have hspecial : ∀ c, Special c → f c = c := fun c hc => hf c (Or.inl hc)
  have hmany := hspecial '%' (Or.inl rfl)
  have hone := hspecial '_' (Or.inr (Or.inl rfl))
  have hescape := hspecial '\\' (Or.inr (Or.inr rfl))
  induction k using sample.induct with
  | case1 => rfl
  | case2 => simp [sample, hmany, hescape]
  | case3 c k ih => simp [sample, hescape, ih]
  | case4 k ih => simp [sample, hmany, ih]
  | case5 k ih => simp [sample, hone, ih]
  | case6 c k hlast hescape hmany hone ih =>
    have hc : ¬ Special c := not_special_of_cases hlast hescape hmany hone
    have hfc : ¬ Special (f c) := fun h => hc (hf c (Or.inr h) ▸ h)
    rw [sample_cons hc, List.map_cons, ih, List.map_cons, sample_cons hfc]

end Like
