/-
  Scanning a word from left to right with a matcher.

  A matcher looks at the rest of a word and answers how many symbols a match
  starting here takes.  `replace` substitutes the matches and copies the other
  symbols (the substitution of a regular expression without empty matches);
  `mark` keeps every symbol and records whether it lies outside the matches (a
  lexer whose matches are hidden regions).  Both resume behind the match, so
  matches never overlap and the leftmost one wins.
-/
import Mathlib.Data.List.Basic

namespace Scan

variable {α : Type*}

/-- How many symbols a match at the head of the word takes, if there is one. -/
abbrev Matcher (α : Type*) := List α → Option ℕ

/-- Replace the matches of `m` by `r`; the counter is the number of symbols of
    the current match that are still to be dropped. -/
def replaceFrom (m : Matcher α) (r : List α) : ℕ → List α → List α
  | _, [] => []
  | k + 1, _ :: s => replaceFrom m r k s
  | 0, a :: s => match m (a :: s) with
    | some (n + 1) => r ++ replaceFrom m r n s
    | _ => a :: replaceFrom m r 0 s

def replace (m : Matcher α) (r s : List α) : List α := replaceFrom m r 0 s

/-- Mark the symbols outside the matches of `m`; the counter is the number of
    symbols of the current match that are still to come. -/
def markFrom (m : Matcher α) : ℕ → List α → List (α × Bool)
  | _, [] => []
  | k + 1, a :: s => (a, false) :: markFrom m k s
  | 0, a :: s => match m (a :: s) with
    | some (n + 1) => (a, false) :: markFrom m n s
    | _ => (a, true) :: markFrom m 0 s

def mark (m : Matcher α) (s : List α) : List (α × Bool) := markFrom m 0 s

theorem map_fst_markFrom (m : Matcher α) (k : ℕ) (s : List α) : (markFrom m k s).map Prod.fst = s := by
  induction s generalizing k with
  | nil => cases k <;> rfl
  | cons a s ih =>
    cases k with
    | succ k => rw [markFrom, List.map_cons, ih]
    | zero =>
      rw [markFrom]
      split <;> rw [List.map_cons, ih]

/-- The symbols outside the matches of `m`, and the matches, in their order;
    the length of the word is fuel enough. -/
def pieces (m : Matcher α) : ℕ → List α → List (α ⊕ List α)
  | 0, _ => []
  | _, [] => []
  | k + 1, a :: s => match m (a :: s) with
    | some (n + 1) => .inr (a :: s.take n) :: pieces m k (s.drop n)
    | _ => .inl a :: pieces m k s

theorem flatMap_pieces (m : Matcher α) {k : ℕ} {s : List α} (h : s.length ≤ k) :
    (pieces m k s).flatMap (Sum.elim (fun a => [a]) id) = s := by
  induction k generalizing s with
  | zero =>
    obtain rfl := List.eq_nil_of_length_eq_zero (Nat.le_zero.1 h)
    rfl
  | succ k ih =>
    cases s with
    | nil => rfl
    | cons a s =>
      have hs : s.length ≤ k := Nat.le_of_succ_le_succ h
      rw [pieces]
      split
      · rename_i n _
        have hdrop : (s.drop n).length ≤ k := Nat.le_trans (List.drop_suffix n s).length_le hs
        rw [List.flatMap_cons, ih hdrop]
        exact congrArg (a :: ·) (List.take_append_drop n s)
      · rw [List.flatMap_cons, ih hs]
        rfl

/-- No match of `m` starts at a symbol of `p`, whatever follows it. -/
def Inert (m : Matcher α) (p : List α) : Prop := ∀ a ∈ p, ∀ s, m (a :: s) = none

/-- No match of `m` starts in `p`, which stands before `s`. -/
def Silent (m : Matcher α) : List α → List α → Prop
  | [], _ => True
  | a :: p, s => m (a :: (p ++ s)) = none ∧ Silent m p s

theorem Inert.silent {m : Matcher α} {p : List α} (hp : Inert m p) (s : List α) : Silent m p s := by
  induction p with
  | nil => trivial
  | cons a p ih =>
    exact ⟨hp a List.mem_cons_self _, ih fun b hb => hp b (List.mem_cons_of_mem _ hb)⟩

theorem replace_cons_of_none {m : Matcher α} {a : α} {s : List α} (h : m (a :: s) = none) (r : List α) :
    replace m r (a :: s) = a :: replace m r s := by
  simp only [replace, replaceFrom, h]

theorem replace_append_of_silent {m : Matcher α} {p s : List α} (hp : Silent m p s) (r : List α) :
    replace m r (p ++ s) = p ++ replace m r s := by
  induction p with
  | nil => rfl
  | cons a p ih => rw [List.cons_append, replace_cons_of_none hp.1, ih hp.2, List.cons_append]

theorem replace_append_of_inert {m : Matcher α} {p : List α} (hp : Inert m p) (r s : List α) :
    replace m r (p ++ s) = p ++ replace m r s :=
  replace_append_of_silent (hp.silent s) r

theorem replaceFrom_length (m : Matcher α) (r u s : List α) :
    replaceFrom m r u.length (u ++ s) = replaceFrom m r 0 s := by
  induction u with
  | nil => rfl
  | cons a u ih => exact ih

theorem replace_append_of_match {m : Matcher α} {a : α} {u s : List α}
    (h : m (a :: u ++ s) = some (u.length + 1)) (r : List α) :
    replace m r (a :: u ++ s) = r ++ replace m r s := by
  rw [List.cons_append] at h ⊢
  simp only [replace, replaceFrom, h, replaceFrom_length]

/-- The symbol `x` is not followed by `y`. -/
def Apart (x y : α) (p : List α) : Prop := p.IsChain fun a b => ¬ (a = x ∧ b = y)

instance [DecidableEq α] (x y : α) (p : List α) : Decidable (Apart x y p) :=
  inferInstanceAs (Decidable (List.IsChain _ p))

@[simp] theorem apart_singleton (x y a : α) : Apart x y [a] := .singleton a

@[simp] theorem apart_cons_cons {x y a b : α} {p : List α} :
    Apart x y (a :: b :: p) ↔ ¬ (a = x ∧ b = y) ∧ Apart x y (b :: p) := List.isChain_cons_cons

/-- The matches of `m` begin with the symbols `x` and `y`. -/
def OpensWith (m : Matcher α) (x y : α) : Prop := ∀ s, m s ≠ none → ∃ t, s = x :: y :: t

theorem OpensWith.inert {m : Matcher α} {x y : α} (hm : OpensWith m x y) {p : List α}
    (hp : ∀ a ∈ p, a ≠ x) : Inert m p := by
  intro a ha s
  by_contra hsome
  obtain ⟨t, ht⟩ := hm _ hsome
  cases ht
  exact hp x ha rfl

/-- A stretch without the two symbols in a row holds no match, unless it ends
    in the first of them. -/
theorem OpensWith.silent {m : Matcher α} {x y : α} (hm : OpensWith m x y) {p : List α}
    (hp : Apart x y p) (hlast : p.getLast? ≠ some x) (s : List α) : Silent m p s := by
  induction p with
  | nil => trivial
  | cons a p ih =>
    cases p with
    | nil =>
      refine ⟨?_, trivial⟩
      by_contra hsome
      obtain ⟨t, ht⟩ := hm _ hsome
      cases ht
      exact hlast rfl
    | cons b p =>
      rw [apart_cons_cons] at hp
      refine ⟨?_, ih hp.2 (by simpa using hlast)⟩
      by_contra hsome
      obtain ⟨t, ht⟩ := hm _ hsome
      cases ht
      exact hp.1 ⟨rfl, rfl⟩

theorem mark_cons_of_none {m : Matcher α} {a : α} {s : List α} (h : m (a :: s) = none) :
    mark m (a :: s) = (a, true) :: mark m s := by
  simp only [mark, markFrom, h]

theorem markFrom_length (m : Matcher α) (u s : List α) :
    markFrom m u.length (u ++ s) = (u.map fun a => (a, false)) ++ markFrom m 0 s := by
  induction u with
  | nil => rfl
  | cons a u ih => simp only [List.length_cons, List.cons_append, markFrom, ih, List.map_cons]

theorem mark_append_of_match {m : Matcher α} {a : α} {u s : List α}
    (h : m (a :: u ++ s) = some (u.length + 1)) :
    mark m (a :: u ++ s) = ((a :: u).map fun b => (b, false)) ++ mark m s := by
  rw [List.cons_append] at h ⊢
  simp only [mark, markFrom, h, markFrom_length, List.map_cons, List.cons_append]

theorem mark_append_of_inert {m : Matcher α} {p : List α} (hp : Inert m p) (s : List α) :
    mark m (p ++ s) = (p.map fun a => (a, true)) ++ mark m s := by
  induction p with
  | nil => rfl
  | cons a p ih =>
    rw [List.cons_append, mark_cons_of_none (hp a List.mem_cons_self _), List.map_cons, List.cons_append,
      ih fun b hb => hp b (List.mem_cons_of_mem _ hb)]

theorem markFrom_eq (m : Matcher α) (k : ℕ) (s : List α) :
    markFrom m k s = ((s.take k).map fun a => (a, false)) ++ mark m (s.drop k) := by
  induction s generalizing k with
  | nil => cases k <;> rfl
  | cons a s ih =>
    cases k with
    | zero => rfl
    | succ k => rw [markFrom, ih, List.take_succ_cons, List.map_cons, List.drop_succ_cons, List.cons_append]

theorem mark_cons_of_match {m : Matcher α} {a : α} {s : List α} {n : ℕ} (h : m (a :: s) = some (n + 1)) :
    mark m (a :: s) = (a, false) :: (((s.take n).map fun b => (b, false)) ++ mark m (s.drop n)) := by
  rw [← markFrom_eq]
  simp only [mark, markFrom, h]

/-- `m` turns the prefix `p` into `q`, whatever follows it. -/
def Rewrites (m : Matcher α) (r p q : List α) : Prop := ∀ s, replace m r (p ++ s) = q ++ replace m r s

theorem Rewrites.append {m : Matcher α} {r p q p' q' : List α} (h : Rewrites m r p q)
    (h' : Rewrites m r p' q') : Rewrites m r (p ++ p') (q ++ q') := by
  intro s
  rw [List.append_assoc, h, h', List.append_assoc]

theorem Inert.rewrites {m : Matcher α} {p : List α} (hp : Inert m p) (r : List α) : Rewrites m r p p :=
  replace_append_of_inert hp r

/-- A match that is settled by the symbol behind it. -/
theorem rewrites_of_match {m : Matcher α} {a c : α} {u : List α}
    (h : ∀ s, m (a :: u ++ c :: s) = some (u.length + 1)) (hc : Inert m [c]) (r : List α) :
    Rewrites m r (a :: u ++ [c]) (r ++ [c]) := by
  intro s
  have hs := replace_append_of_match (h s) r
  have hcs := replace_append_of_inert hc r s
  simp only [List.append_assoc, List.singleton_append] at hs hcs ⊢
  rw [hs, hcs]

/-! ## Behind the text -/

/-- What `t` adds behind a text changes no match of `m`, but that a match which
    goes on to the end of the text may take some of it. -/
structure Unmoved (m : Matcher α) (t : List α) : Prop where
  inert : Inert m t
  bounded : ∀ {s n}, m s = some n → n ≤ s.length
  step : ∀ a s, m (a :: (s ++ t)) = m (a :: s) ∨
    m (a :: s) = some (s.length + 1) ∧ ∃ e ≤ t.length, m (a :: (s ++ t)) = some (s.length + e + 1)

theorem Inert.mono {m : Matcher α} {p q : List α} (h : Inert m p) (hq : q ⊆ p) : Inert m q :=
  fun a ha => h a (hq ha)

theorem replaceFrom_eq_drop (m : Matcher α) (r : List α) (k : ℕ) (s : List α) :
    replaceFrom m r k s = replace m r (s.drop k) := by
  induction s generalizing k with
  | nil => cases k <;> rfl
  | cons a s ih =>
    cases k with
    | zero => rfl
    | succ k => exact ih k

theorem replace_cons_of_match {m : Matcher α} {a : α} {s : List α} {n : ℕ} (h : m (a :: s) = some (n + 1))
    (r : List α) : replace m r (a :: s) = r ++ replace m r (s.drop n) := by
  rw [← replaceFrom_eq_drop]
  simp only [replace, replaceFrom, h]

/-- The occurrences of a word. -/
def occurrence [DecidableEq α] (p : List α) : Matcher α := fun s => if p.isPrefixOf s then some p.length else none

/-- To replace a symbol by nothing is to leave it out. -/
theorem replace_occurrence_nil [DecidableEq α] (a : α) (s : List α) :
    replace (occurrence [a]) [] s = s.filter (· ≠ a) := by
  induction s with
  | nil => rfl
  | cons b s ih =>
    by_cases hb : b = a
    · have hmatch : occurrence [a] (b :: s) = some (0 + 1) := by simp [occurrence, hb]
      rw [replace_cons_of_match hmatch, List.drop_zero, ih, List.filter_cons_of_neg (by simpa using hb)]
      rfl
    · have hnone : occurrence [a] (b :: s) = none := by simp [occurrence, Ne.symm hb]
      rw [replace_cons_of_none hnone, ih, List.filter_cons_of_pos (by simpa using hb)]

theorem replace_of_inert {m : Matcher α} {p : List α} (hp : Inert m p) (r : List α) : replace m r p = p := by
  have happend := replace_append_of_inert hp r []
  rw [List.append_nil] at happend
  exact happend.trans (List.append_nil p)

/-- At the head of the text nothing is matched. -/
def Copies (m : Matcher α) (s : List α) : Prop := m s = none ∨ m s = some 0

theorem Copies.replace_cons {m : Matcher α} {a : α} {s : List α} (h : Copies m (a :: s)) (r : List α) :
    replace m r (a :: s) = a :: replace m r s := by
  rcases h with h | h <;> simp only [replace, replaceFrom, h]

theorem Copies.mark_cons {m : Matcher α} {a : α} {s : List α} (h : Copies m (a :: s)) :
    mark m (a :: s) = (a, true) :: mark m s := by
  rcases h with h | h <;> simp only [mark, markFrom, h]

/-- A scan of the text, beside that of the text with `t` behind it. -/
theorem Unmoved.induct {m : Matcher α} {t : List α} (h : Unmoved m t) {motive : List α → Prop} (nil : motive [])
    (copied : ∀ a s, Copies m (a :: s) → Copies m (a :: (s ++ t)) → motive s → motive (a :: s))
    (matched : ∀ a s k, k ≤ s.length → m (a :: s) = some (k + 1) → m (a :: (s ++ t)) = some (k + 1) →
      motive (s.drop k) → motive (a :: s))
    (ending : ∀ a s e, m (a :: s) = some (s.length + 1) → m (a :: (s ++ t)) = some (s.length + e + 1) →
      motive (a :: s)) (s : List α) : motive s := by
  -- on the length of the text, for a match takes more than one symbol
  induction hn : s.length using Nat.strongRecOn generalizing s with
  | ind n ih =>
    cases s with
    | nil => exact nil
    | cons a s =>
      have hlength : s.length < n := by
        rw [← hn]
        exact Nat.lt_succ_self _
      rcases h.step a s with hsame | ⟨hend, e, he, hmore⟩
      · rcases hm : m (a :: s) with _ | _ | k
        · exact copied a s (Or.inl hm) (Or.inl (hsame.trans hm)) (ih s.length hlength s rfl)
        · exact copied a s (Or.inr hm) (Or.inr (hsame.trans hm)) (ih s.length hlength s rfl)
        · have hdrop : (s.drop k).length < n := Nat.lt_of_le_of_lt (s.drop_suffix k).length_le hlength
          exact matched a s k (Nat.le_of_succ_le_succ (h.bounded hm)) hm (hsame.trans hm) (ih _ hdrop _ rfl)
      · exact ending a s e hend hmore

/-- **Behind the text** a replacement leaves what it does not swallow. -/
theorem Unmoved.replace_append {m : Matcher α} {t : List α} (h : Unmoved m t) (r s : List α) :
    ∃ t', t' <:+ t ∧ replace m r (s ++ t) = replace m r s ++ t' := by
  induction s using h.induct with
  | nil => exact ⟨t, List.suffix_refl t, replace_of_inert h.inert r⟩
  | copied a s hcopy hcopy' ih =>
    obtain ⟨t', ht', heq⟩ := ih
    exact ⟨t', ht', by rw [List.cons_append, hcopy'.replace_cons, hcopy.replace_cons, heq, List.cons_append]⟩
  | matched a s k hk hmatch hmatch' ih =>
    obtain ⟨t', ht', heq⟩ := ih
    refine ⟨t', ht', ?_⟩
    rw [List.cons_append, replace_cons_of_match hmatch', replace_cons_of_match hmatch,
      List.drop_append_of_le_length hk, heq, List.append_assoc]
  | ending a s e hmatch hmatch' =>
    refine ⟨t.drop e, List.drop_suffix e t, ?_⟩
    rw [List.cons_append, replace_cons_of_match hmatch', replace_cons_of_match hmatch,
      List.drop_length_add_append, List.drop_length, replace_of_inert (h.inert.mono (List.drop_subset e t))]
    simp [replace, replaceFrom]

/-- A matcher that is another one for every symbol it begins at. -/
theorem Unmoved.of_head {m : Matcher α} {t : List α} (f : α → Matcher α) (h : ∀ a, Unmoved (f a) t)
    (hnil : m [] = none) (hcons : ∀ a s, m (a :: s) = f a (a :: s)) : Unmoved m t where
  inert a ha s := (hcons a s).trans ((h a).inert a ha s)
  bounded {s n} hs := by
    cases s with
    | nil => cases hnil.symm.trans hs
    | cons a s => exact (h a).bounded ((hcons a s).symm.trans hs)
  step a s := by
    rw [hcons, hcons]
    exact (h a).step a s

/-- **Behind the text** marks are added, and none is changed. -/
theorem Unmoved.mark_append {m : Matcher α} {t : List α} (h : Unmoved m t) (s : List α) :
    mark m s <+: mark m (s ++ t) := by
  induction s using h.induct with
  | nil => exact List.nil_prefix
  | copied a s hcopy hcopy' ih =>
    rw [List.cons_append, hcopy'.mark_cons, hcopy.mark_cons]
    exact (List.prefix_cons_inj _).2 ih
  | matched a s k hk hmatch hmatch' ih =>
    rw [List.cons_append, mark_cons_of_match hmatch', mark_cons_of_match hmatch,
      List.take_append_of_le_length hk, List.drop_append_of_le_length hk, List.prefix_cons_inj,
      List.prefix_append_right_inj]
    exact ih
  | ending a s e hmatch hmatch' =>
    -- the match takes all of the text, and some of what is behind it
    rw [List.cons_append, mark_cons_of_match hmatch', mark_cons_of_match hmatch, List.prefix_cons_inj,
      List.take_length_add_append, List.take_length, List.drop_length, List.map_append, List.append_assoc,
      List.prefix_append_right_inj]
    exact List.nil_prefix

end Scan
