/-
  The words of a text and the pieces between its separators.

  `words start cont` are the maximal runs that begin with a `start` symbol and
  go on with `cont` symbols, read from left to right (`findall` of a regular
  expression `[start][cont]*`).  A symbol that is neither cuts the text: the
  words of the whole are the words of the two sides.
-/
import Mathlib.Data.List.DropRight
import Mathlib.Data.List.Basic

namespace Words

variable {α : Type*}

/-- The words of the text, the first argument being the word under way. -/
def wordsFrom (start cont : α → Bool) : Option (List α) → List α → List (List α)
  | none, [] => []
  | some w, [] => [w]
  | none, a :: s => if start a then wordsFrom start cont (some [a]) s else wordsFrom start cont none s
  | some w, a :: s =>
    if cont a then wordsFrom start cont (some (w ++ [a])) s else w :: wordsFrom start cont none s

def words (start cont : α → Bool) (s : List α) : List (List α) := wordsFrom start cont none s

variable {start cont : α → Bool}

/-- A separator ends the word under way and starts none. -/
theorem wordsFrom_append_sep {a : α} (hs : start a = false) (hc : cont a = false) (v : List α) :
    ∀ (w : Option (List α)) (u : List α),
      wordsFrom start cont w (u ++ a :: v) = wordsFrom start cont w u ++ words start cont v
  | none, [] => by simp [wordsFrom, words, hs]
  | some w, [] => by simp [wordsFrom, words, hc]
  | none, b :: u => by
    simp only [List.cons_append, wordsFrom]
    split
    · exact wordsFrom_append_sep hs hc v _ u
    · exact wordsFrom_append_sep hs hc v _ u
  | some w, b :: u => by
    simp only [List.cons_append, wordsFrom]
    split
    · exact wordsFrom_append_sep hs hc v _ u
    · rw [wordsFrom_append_sep hs hc v _ u, List.cons_append]

theorem words_append_sep {a : α} (hs : start a = false) (hc : cont a = false) (u v : List α) :
    words start cont (u ++ a :: v) = words start cont u ++ words start cont v :=
  wordsFrom_append_sep hs hc v none u

theorem words_of_sep {s : List α} (h : ∀ a ∈ s, start a = false) : words start cont s = [] := by
  induction s with
  | nil => rfl
  | cons a s ih =>
    rw [words, wordsFrom, if_neg (by simp [h a List.mem_cons_self])]
    exact ih fun b hb => h b (List.mem_cons_of_mem _ hb)

/-- A stretch of separators ends the word under way. -/
theorem wordsFrom_sep_append {x : List α} (hx : ∀ a ∈ x, start a = false ∧ cont a = false) (hne : x ≠ [])
    (w : Option (List α)) (u : List α) : wordsFrom start cont w (x ++ u) = w.toList ++ words start cont u := by
  induction x generalizing w with
  | nil => exact absurd rfl hne
  | cons a x ih =>
    obtain ⟨hs, hc⟩ := hx a List.mem_cons_self
    have hend : wordsFrom start cont w (a :: (x ++ u)) = w.toList ++ words start cont (x ++ u) := by
      have happend := wordsFrom_append_sep hs hc (x ++ u) w []
      cases w <;> exact happend
    rw [List.cons_append, hend]
    cases x with
    | nil => rfl
    | cons b x => rw [words, ih (fun c h => hx c (List.mem_cons_of_mem _ h)) (by simp) none]; rfl

theorem words_append_of_not_start {u : List α} (hu : ∀ a ∈ u, start a = false) (s : List α) :
    words start cont (u ++ s) = words start cont s := by
  induction u with
  | nil => rfl
  | cons a u ih =>
    rw [List.cons_append, words, wordsFrom, if_neg (by simp [hu a List.mem_cons_self])]
    exact ih fun b hb => hu b (List.mem_cons_of_mem _ hb)

theorem wordsFrom_append_cont {u : List α} (hu : ∀ a ∈ u, cont a = true) (w s : List α) :
    wordsFrom start cont (some w) (u ++ s) = wordsFrom start cont (some (w ++ u)) s := by
  induction u generalizing w with
  | nil => rw [List.nil_append, List.append_nil]
  | cons a u ih =>
    rw [List.cons_append, wordsFrom, if_pos (hu a List.mem_cons_self), ih fun b hb => hu b (List.mem_cons_of_mem _ hb),
      List.append_assoc]
    rfl

/-- A word that nothing continues. -/
theorem words_append_word (hstart : ∀ a, start a = true → cont a = true) {a : α} {u s : List α} (ha : start a = true)
    (hu : ∀ b ∈ u, cont b = true) (hs : s.head?.any cont = false) :
    words start cont (a :: u ++ s) = (a :: u) :: words start cont s := by
  rw [words, List.cons_append, wordsFrom, if_pos ha, wordsFrom_append_cont hu]
  cases s with
  | nil => rfl
  | cons b s =>
    have hb : cont b = false := hs
    have hnot : start b = false := by
      by_contra h
      rw [hstart b (by simpa using h)] at hb
      cases hb
    rw [wordsFrom, if_neg (by simp [hb]), words, wordsFrom, if_neg (by simp [hnot])]
    rfl

/-- The word under way goes on as long as `cont` holds. -/
theorem head?_wordsFrom_some (s : List α) :
    ∀ w, (wordsFrom start cont (some w) s).head? = some (w ++ s.takeWhile cont) := by
  induction s with
  | nil => simp [wordsFrom]
  | cons a s ih =>
    intro w
    by_cases ha : cont a = true
    · rw [wordsFrom, if_pos ha, ih, List.takeWhile_cons_of_pos ha, List.append_assoc]; rfl
    · rw [wordsFrom, if_neg ha, List.takeWhile_cons_of_neg ha]; simp

theorem head?_words_cons {a : α} (ha : start a = true) (s : List α) :
    (words start cont (a :: s)).head? = some (a :: s.takeWhile cont) := by
  rw [words, wordsFrom, if_pos ha, head?_wordsFrom_some]; rfl

section
variable {p : α → Bool} (hp : ∀ a, p a = true → start a = false ∧ cont a = false)
include hp

theorem words_dropWhile (s : List α) : words start cont (s.dropWhile p) = words start cont s := by
  induction s with
  | nil => rfl
  | cons a s ih =>
    by_cases ha : p a = true
    · rw [List.dropWhile_cons_of_pos ha, ih, words, words, wordsFrom, if_neg (by simp [hp a ha])]
    · rw [List.dropWhile_cons_of_neg ha]

theorem words_rdropWhile (s : List α) : words start cont (s.rdropWhile p) = words start cont s := by
  induction s using List.reverseRecOn with
  | nil => rfl
  | append_singleton s a ih =>
    by_cases ha : p a = true
    · rw [List.rdropWhile_concat_pos _ _ _ ha, ih, words_append_sep (hp a ha).1 (hp a ha).2]
      simp [words, wordsFrom]
    · rw [List.rdropWhile_concat_neg _ _ _ ha]

end

/-- Reading a text piece by piece: it is free of `a`, or a piece free of `a`
    stands before the first `a`. -/
theorem pieces_induction [DecidableEq α] {a : α} {P : List α → Prop} (last : ∀ s, a ∉ s → P s)
    (step : ∀ u v, a ∉ u → P v → P (u ++ a :: v)) (s : List α) : P s := by
  induction hn : s.length using Nat.strong_induction_on generalizing s with
  | _ n ih =>
    by_cases h : a ∈ s
    · obtain ⟨u, v, rfl, hu⟩ := List.eq_append_cons_of_mem h
      refine step u v hu (ih v.length ?_ v rfl)
      simp only [List.length_append, List.length_cons] at hn
      omega
    · exact last s h

variable [DecidableEq α] {a : α}

theorem splitOn_of_notMem {s : List α} (h : a ∉ s) : s.splitOn a = [s] := by
  rw [List.splitOn_eq_splitOnP]
  exact List.splitOnP_eq_singleton fun b hb => by simpa using fun e : b = a => h (e ▸ hb)

theorem splitOn_append_cons {u : List α} (h : a ∉ u) (v : List α) :
    (u ++ a :: v).splitOn a = u :: v.splitOn a := by
  rw [List.splitOn_eq_splitOnP, List.splitOnP_append_cons u v (by simp), ← List.splitOn_eq_splitOnP,
    splitOn_of_notMem h]
  rfl

theorem forall_mem_splitOn {P : α → Prop} (s : List α) :
    (∀ p ∈ s.splitOn a, ∀ c ∈ p, P c) ↔ ∀ c ∈ s, P c ∨ c = a := by
  induction s using pieces_induction (a := a) with
  | last s h =>
    simp only [splitOn_of_notMem h, List.mem_singleton, forall_eq]
    exact forall₂_congr fun c hc => by simp [ne_of_mem_of_not_mem hc h]
  | step u v hu ih =>
    simp only [splitOn_append_cons hu, List.forall_mem_cons, ih, List.forall_mem_append, or_true,
      true_and]
    exact and_congr_left' (forall₂_congr fun c hc => by simp [ne_of_mem_of_not_mem hc hu])

/-- Nothing but `P` and further separators stands behind a separator iff the
    pieces after the first are all made of `P`. -/
theorem forall_behind_iff {P : α → Prop} (s : List α) :
    (∀ u v, s = u ++ a :: v → ∀ c ∈ v, P c ∨ c = a) ↔ ∀ p ∈ (s.splitOn a).tail, ∀ c ∈ p, P c := by
  induction s using pieces_induction (a := a) with
  | last s h =>
    simp only [splitOn_of_notMem h, List.tail_cons, List.not_mem_nil, false_imp_iff, implies_true,
      iff_true]
    rintro u v rfl
    simp at h
  | step u v hu =>
    rw [splitOn_append_cons hu, List.tail_cons, forall_mem_splitOn]
    constructor
    · exact fun h => h u v rfl
    · intro h u' v' he c hc
      rcases List.append_eq_append_iff.1 he with ⟨w, rfl, hw⟩ | ⟨w, rfl, hw⟩
      · cases w with
        | nil => cases hw; exact h c hc
        | cons b w => cases hw; exact h c (by simp [hc])
      · cases w with
        | nil => cases hw; exact h c hc
        | cons b w => cases hw; simp at hu

theorem flatMap_words_splitOn (hs : start a = false) (hc : cont a = false) (s : List α) :
    (s.splitOn a).flatMap (words start cont) = words start cont s := by
  induction s using pieces_induction (a := a) with
  | last s h => simp [splitOn_of_notMem h]
  | step u v hu ih => simp [splitOn_append_cons hu, ih, words_append_sep hs hc]

/-- The number of pieces between the separators `a` that hold a symbol of `p`,
    the flag telling whether the piece under way does. -/
def countFrom (p : α → Bool) (a : α) : Bool → List α → ℕ
  | b, [] => b.toNat
  | b, c :: s => if c = a then b.toNat + countFrom p a false s else countFrom p a (b || p c) s

theorem countFrom_append {p : α → Bool} {u : List α} (hu : a ∉ u) (b : Bool) (v : List α) :
    countFrom p a b (u ++ v) = countFrom p a (b || u.any p) v := by
  induction u generalizing b with
  | nil => simp
  | cons c u ih =>
    obtain ⟨hne, hu⟩ := not_or.1 (mt List.mem_cons.2 hu)
    rw [List.cons_append, countFrom, if_neg (Ne.symm hne), ih hu, List.any_cons, Bool.or_assoc]

theorem countFrom_le_append (p : α → Bool) (b : Bool) (u v : List α) :
    countFrom p a b u ≤ countFrom p a b (u ++ v) := by
  have htoNat : ∀ {b : Bool} {s : List α}, b.toNat ≤ countFrom p a b s := by
    intro b s
    induction s generalizing b with
    | nil => exact le_rfl
    | cons c s ih =>
      rw [countFrom]
      split_ifs
      · exact Nat.le_add_right _ _
      · have hor : b.toNat ≤ (b || p c).toNat := by
          cases b with
          | false => exact Nat.zero_le _
          | true => exact le_rfl
        exact hor.trans ih
  induction u generalizing b with
  | nil => exact htoNat
  | cons c u ih =>
    rw [List.cons_append, countFrom, countFrom]
    split_ifs
    · exact Nat.add_le_add_left (ih false) _
    · exact ih _

/-- Counting goes on alike under a map that keeps the separators apart. -/
theorem countFrom_map {β : Type*} [DecidableEq β] {f : β → α} {d : β} (hf : ∀ x, f x = a ↔ x = d) (p : α → Bool)
    (b : Bool) (s : List β) : countFrom p a b (s.map f) = countFrom (p ∘ f) d b s := by
  induction s generalizing b with
  | nil => rfl
  | cons x s ih => simp only [List.map_cons, countFrom, hf, ih, Function.comp_apply]

theorem length_filter_splitOn (p : α → Bool) (s : List α) :
    ((s.splitOn a).filter fun u => u.any p).length = countFrom p a false s := by
  induction s using pieces_induction (a := a) with
  | last s h =>
    have hcount := countFrom_append (p := p) h false []
    rw [List.append_nil] at hcount
    rw [splitOn_of_notMem h, hcount]
    cases hs : s.any p <;> simp [countFrom, hs]
  | step u v hu ih =>
    rw [splitOn_append_cons hu, countFrom_append hu, countFrom, if_pos rfl, ← ih]
    cases hs : u.any p <;> simp [hs, Nat.add_comm]

end Words
