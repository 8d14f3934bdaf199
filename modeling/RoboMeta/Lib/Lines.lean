/-
  The lines of a text.

  A line ends at one of many characters (`isBreak`), at a line feed and the
  carriage return before it once.  Lines joined again have line feeds only
  (`normal`), up to one at the end.
-/
import Mathlib.Data.List.Basic

namespace Lines

/-- Does the character end a line? -/
def isBreak (c : Char) : Bool :=
  let n := c.toNat
  (10 ≤ n && n ≤ 13) || (28 ≤ n && n ≤ 30) || n == 0x85 || n == 0x2028 || n == 0x2029

/-- A character in front of the first line. -/
def prepend (c : Char) : List (List Char) → List (List Char)
  | [] => [[c]]
  | line :: lines => (c :: line) :: lines

/-- The lines behind a carriage return, or behind another character. -/
def splitFrom : Bool → List Char → List (List Char)
  | _, [] => []
  | cr, c :: s =>
    if cr ∧ c = '\n' then splitFrom false s
    else if isBreak c then [] :: splitFrom (c == '\r') s
    else prepend c (splitFrom false s)

def splitlines (s : List Char) : List (List Char) := splitFrom false s

/-- The text with a line feed for each end of a line. -/
def normalFrom : Bool → List Char → List Char
  | _, [] => []
  | cr, c :: s =>
    if cr ∧ c = '\n' then normalFrom false s
    else if isBreak c then '\n' :: normalFrom (c == '\r') s
    else c :: normalFrom false s

def normal (s : List Char) : List Char := normalFrom false s

/-- A line feed behind every line. -/
def unlines (lines : List (List Char)) : List Char := lines.flatMap (· ++ ['\n'])

/-- A line feed between the lines. -/
def join (lines : List (List Char)) : List Char := List.intercalate ['\n'] lines

@[simp]
theorem unlines_append (ls ls' : List (List Char)) : unlines (ls ++ ls') = unlines ls ++ unlines ls' :=
  List.flatMap_append

@[simp]
theorem unlines_cons (l : List Char) (ls : List (List Char)) : unlines (l :: ls) = l ++ '\n' :: unlines ls := by
  simp [unlines]

@[simp]
theorem unlines_nil : unlines [] = [] := rfl

theorem unlines_eq_join {ls : List (List Char)} (h : ls ≠ []) : unlines ls = join ls ++ ['\n'] := by
  induction ls with
  | nil => exact absurd rfl h
  | cons l ls ih =>
    rcases eq_or_ne ls [] with rfl | hls
    · simp [join]
    · rw [unlines_cons, ih hls, join, join, List.intercalate_cons_of_ne_nil hls]
      simp

theorem unlines_splitFrom (cr : Bool) (s : List Char) :
    unlines (splitFrom cr s) = normalFrom cr s ∨ unlines (splitFrom cr s) = normalFrom cr s ++ ['\n'] := by
  induction s generalizing cr with
  | nil => exact .inl rfl
  | cons c s ih =>
    rw [splitFrom, normalFrom]
    split_ifs with hcr hc
    · exact ih false
    · rw [unlines_cons, List.nil_append]
      exact (ih _).imp (congrArg _) (congrArg _)
    · cases hl : splitFrom false s with
      | nil =>
        have hs : normalFrom false s = [] := by
          rcases hl ▸ ih false with h | h
          · exact h.symm
          · exact absurd h (by simp)
        exact .inr (by rw [hs]; rfl)
      | cons line lines =>
        have h : unlines ((c :: line) :: lines) = c :: unlines (line :: lines) := rfl
        rw [prepend, h, ← hl]
        exact (ih false).imp (congrArg _) (congrArg _)

/-- Splitting and joining loses the kinds of the line ends, and says nothing of
    one at the end of the text. -/
theorem unlines_splitlines (s : List Char) :
    unlines (splitlines s) = normal s ∨ unlines (splitlines s) = normal s ++ ['\n'] :=
  unlines_splitFrom false s

theorem normalFrom_append_cons (cr : Bool) (s : List Char) {c : Char} (hc : isBreak c = false) (t : List Char) :
    normalFrom cr (s ++ c :: t) = normalFrom cr s ++ c :: normalFrom false t := by
  induction s generalizing cr with
  | nil =>
    have hn : c ≠ '\n' := fun h => by subst h; cases hc
    have hstep : normalFrom cr (c :: t) = c :: normalFrom false t := by
      rw [normalFrom, if_neg fun h => hn h.2, if_neg (by simp [hc])]
    exact hstep
  | cons d s ih =>
    rw [List.cons_append, normalFrom, normalFrom]
    split_ifs
    · exact ih _
    · rw [ih, List.cons_append]
    · rw [ih, List.cons_append]

theorem normal_append_cons (s : List Char) {c : Char} (hc : isBreak c = false) (t : List Char) :
    normal (s ++ c :: t) = normal s ++ c :: normal t := normalFrom_append_cons false s hc t

theorem mem_normalFrom {cr : Bool} {s : List Char} {c : Char} (h : c ∈ normalFrom cr s) :
    c = '\n' ∨ c ∈ s ∧ isBreak c = false := by
  induction s generalizing cr with
  | nil => cases h
  | cons d s ih =>
    rw [normalFrom] at h
    split_ifs at h with hcr hd
    · exact (ih h).imp_right fun hs => ⟨List.mem_cons_of_mem _ hs.1, hs.2⟩
    · rcases List.mem_cons.1 h with heq | h
      · exact .inl heq
      · exact (ih h).imp_right fun hs => ⟨List.mem_cons_of_mem _ hs.1, hs.2⟩
    · rcases List.mem_cons.1 h with rfl | h
      · exact .inr ⟨List.mem_cons_self, Bool.eq_false_iff.2 hd⟩
      · exact (ih h).imp_right fun hs => ⟨List.mem_cons_of_mem _ hs.1, hs.2⟩

theorem countP_normalFrom {p : Char → Bool} (hp : ∀ c, isBreak c = true → p c = false) (cr : Bool) (s : List Char) :
    (normalFrom cr s).countP p = s.countP p := by
  induction s generalizing cr with
  | nil => rfl
  | cons d s ih =>
    have hn : p '\n' = false := hp '\n' rfl
    rw [normalFrom]
    split_ifs with hcr hd
    · rw [ih, hcr.2, List.countP_cons_of_neg (by simp [hn])]
    · rw [List.countP_cons_of_neg (by simp [hn]), List.countP_cons_of_neg (by simp [hp d hd]), ih]
    · rw [List.countP_cons, List.countP_cons, ih]

theorem splitFrom_line {l : List Char} (hl : ∀ c ∈ l, isBreak c = false) (s : List Char) :
    splitFrom false (l ++ '\n' :: s) = l :: splitFrom false s := by
  induction l with
  | nil => rfl
  | cons c l ih =>
    rw [List.cons_append, splitFrom, if_neg (by simp), if_neg (by simp [hl c List.mem_cons_self]),
      ih fun d hd => hl d (List.mem_cons_of_mem _ hd)]
    rfl

/-- A last line, and the lines of the text before it. -/
theorem splitFrom_last {last : List Char} (hlast : splitFrom false last = [last]) (cr : Bool) (s : List Char) :
    ∃ lines, splitFrom cr (s ++ '\n' :: last) = lines ++ [last] ∧ (cr = false → lines ≠ []) ∧
      (unlines lines = normalFrom cr s ∨ unlines lines = normalFrom cr s ++ ['\n']) := by
  induction s generalizing cr with
  | nil =>
    cases cr with
    | true => exact ⟨[], hlast, fun h => absurd h (by decide), .inl rfl⟩
    | false => exact ⟨[[]], congrArg (List.cons []) hlast, fun _ => List.cons_ne_nil _ _, .inr rfl⟩
  | cons c s ih =>
    rw [List.cons_append, splitFrom, normalFrom]
    split_ifs with hcr hc
    · obtain ⟨lines, heq, -, hun⟩ := ih false
      exact ⟨lines, heq, fun h => absurd hcr.1 (by simp [h]), hun⟩
    · obtain ⟨lines, heq, -, hun⟩ := ih (c == '\r')
      exact ⟨[] :: lines, congrArg _ heq, fun _ => List.cons_ne_nil _ _, hun.imp (congrArg _) (congrArg _)⟩
    · obtain ⟨lines, heq, hne, hun⟩ := ih false
      obtain ⟨line, lines, rfl⟩ := List.exists_cons_of_ne_nil (hne rfl)
      exact ⟨(c :: line) :: lines, congrArg _ heq, fun _ => List.cons_ne_nil _ _,
        hun.imp (congrArg _) (congrArg _)⟩

end Lines
