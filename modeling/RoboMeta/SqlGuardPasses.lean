/-
  The matchers of the text guard on the regions they are made for.

  * `inertChar`: the characters at which nothing opens; `Lone`: a character at
    which nothing opens in view of the next one;
  * `upTo_pair`, `closingQuote_append`, `dollarQuoted_append`: where a region
    ends, and that the passes agree with the reference lexer on it
    (`quotedTail_of_closingQuote`).
-/
import RoboMeta.ReferenceLexer

namespace RoboMeta

/-! ## Openers -/

/-- A character that opens none of the regions. -/
def inertChar (c : Char) : Bool := c != '-' && c != '/' && c != '\'' && c != '"' && c != '$'

theorem inertChar_iff {c : Char} :
    inertChar c = true ↔ (c ≠ '-' ∧ c ≠ '/' ∧ c ≠ '\'') ∧ c ≠ '"' ∧ c ≠ '$' := by
  simp only [inertChar, Bool.and_eq_true, bne_iff_ne, and_assoc]

theorem inertChar_of_wordCont {c : Char} (h : wordCont c = true) : inertChar c = true := by
  refine inertChar_iff.2 ⟨⟨?_, ?_, ?_⟩, ?_, ?_⟩ <;> (rintro rfl; exact absurd h (by decide))

theorem inert_quoted {q : Char} {p : Text} (hp : ∀ c ∈ p, c ≠ q) : Scan.Inert (quoted q) p := by
  intro c hc s
  simp [quoted, hp c hc]

theorem opensWith_lineComment : Scan.OpensWith lineComment '-' '-' := by
  intro s hs
  unfold lineComment at hs
  split at hs
  · exact ⟨_, rfl⟩
  · exact absurd rfl hs

theorem opensWith_blockComment : Scan.OpensWith blockComment '/' '*' := by
  intro s hs
  unfold blockComment at hs
  split at hs
  · exact ⟨_, rfl⟩
  · exact absurd rfl hs

theorem inert_lineComment {p : Text} (hp : ∀ c ∈ p, c ≠ '-') : Scan.Inert lineComment p :=
  opensWith_lineComment.inert hp

theorem inert_blockComment {p : Text} (hp : ∀ c ∈ p, c ≠ '/') : Scan.Inert blockComment p :=
  opensWith_blockComment.inert hp

theorem inert_dollarQuoted {p : Text} (hp : ∀ c ∈ p, c ≠ '$') : Scan.Inert dollarQuoted p := by
  intro c hc s
  have hne := hp c hc
  unfold dollarQuoted dollarTag
  split
  · rename_i heq; exact absurd (List.cons.inj heq).1 hne
  · rfl

/-- Nothing opens at `c` when `next` follows. -/
@[mk_iff]
structure Lone (c : Char) (next : Option Char) : Prop where
  single : c ≠ '\''
  double : c ≠ '"'
  line : c = '-' → next ≠ some '-'
  block : c = '/' → next ≠ some '*'
  dollar : c = '$' → next ≠ some '$' ∧ next.any wordStart = false

instance (c : Char) (next : Option Char) : Decidable (Lone c next) := decidable_of_iff' _ (lone_iff c next)

section
variable {c : Char} {s : Text} (h : Lone c s.head?)
include h

theorem Lone.lineComment_eq_none : lineComment (c :: s) = none := by
  by_contra hsome
  obtain ⟨t, ht⟩ := opensWith_lineComment _ hsome
  cases ht
  exact h.line rfl rfl

theorem Lone.blockComment_eq_none : blockComment (c :: s) = none := by
  by_contra hsome
  obtain ⟨t, ht⟩ := opensWith_blockComment _ hsome
  cases ht
  exact h.block rfl rfl

theorem Lone.dollarQuoted_eq_none : dollarQuoted (c :: s) = none := by
  by_cases hc : c = '$'
  · subst hc
    obtain ⟨hdollar, hstart⟩ := h.dollar rfl
    simp [dollarQuoted, dollarTag, hstart, hdollar]
  · exact inert_dollarQuoted (p := [c]) (by simpa using hc) c List.mem_cons_self s

theorem Lone.hiddenRegion_eq_none : hiddenRegion (c :: s) = none := by
  unfold hiddenRegion
  split
  · rename_i heq; cases heq; exact absurd rfl (h.line rfl)
  · rename_i heq; cases heq; exact absurd rfl (h.block rfl)
  · rename_i heq; cases heq; exact absurd rfl h.single
  · rename_i heq; cases heq; exact absurd rfl h.double
  · exact h.dollarQuoted_eq_none

end

/-! ## Terminators -/

def lineEnd (c : Char) : Bool := c == '\n' || c == '\r'

/-- A line comment ends in front of the end of the line. -/
theorem lineComment_append {body s : Text} (hbody : body.any lineEnd = false) (hs : s.head?.all lineEnd = true) :
    lineComment ('-' :: '-' :: (body ++ s)) = some (body.length + 2) := by
  have hin : ∀ c ∈ body, (c != '\n' && c != '\r') = true := fun c hc => by
    simpa [lineEnd] using List.any_eq_false.1 hbody c hc
  have hend : s.takeWhile (fun c => c != '\n' && c != '\r') = [] := by
    cases s with
    | nil => rfl
    | cons c s => exact List.takeWhile_cons_of_neg (by simpa [lineEnd, or_iff_not_imp_left] using hs)
  rw [lineComment, List.takeWhile_append_of_pos hin, hend, List.append_nil, Nat.add_comm]

/-- The first `xy` is the one behind a stretch without it. -/
theorem upTo_pair {x y : Char} {u : Text} (hu : Scan.Apart x y (u ++ [x])) (s : Text) :
    upTo [x, y] (u ++ x :: y :: s) = some (u.length + 2) := by
  induction u with
  | nil => simp [upTo]
  | cons a u ih =>
    cases u with
    | nil =>
      simp only [List.cons_append, List.nil_append, Scan.apart_cons_cons] at hu
      have hne : ¬ (x = a ∧ y = x) := fun h => hu.1 ⟨h.1.symm, h.2.symm⟩
      have ih := ih (by simp)
      rw [List.cons_append, upTo, ih]
      simp [hne]
    | cons b u =>
      simp only [List.cons_append, Scan.apart_cons_cons] at hu ih
      have hne : ¬ (x = a ∧ y = b) := fun h => hu.1 ⟨h.1.symm, h.2.symm⟩
      rw [List.cons_append, List.cons_append, upTo, ih hu.2]
      simp [hne]

/-- The first `a :: pat` is the one behind a stretch without `a`. -/
theorem upTo_append {a : Char} {u : Text} (hu : a ∉ u) (pat s : Text) :
    upTo (a :: pat) (u ++ (a :: pat ++ s)) = some (u.length + (pat.length + 1)) := by
  induction u with
  | nil => simp [upTo]
  | cons b u ih =>
    obtain ⟨hne, hu⟩ := not_or.1 (mt List.mem_cons.2 hu)
    rw [List.cons_append, upTo, ih hu]
    simp [hne]
    omega

/-- Quotes `q` come in pairs. -/
def Doubled (q : Char) : Text → Bool
  | [] => true
  | [c] => c != q
  | c :: d :: s => if c = q then d == q && Doubled q s else Doubled q (d :: s)

theorem doubled_of_notMem {q : Char} {u : Text} (h : q ∉ u) : Doubled q u = true := by
  fun_induction Doubled q u with
  | case1 => rfl
  | case2 c =>
    have hc : c ≠ q := (List.ne_of_not_mem_cons h).symm
    simpa using hc
  | case3 d u ih => exact absurd List.mem_cons_self h
  | case4 c d u hc ih => exact ih fun hmem => h (List.mem_cons_of_mem _ hmem)

/-- A quote closes behind paired quotes, unless another one follows. -/
theorem closingQuote_append {q : Char} {u s : Text} (hu : Doubled q u = true) (hs : s.head? ≠ some q) :
    closingQuote q (u ++ q :: s) = some (u.length + 1) := by
  fun_induction Doubled q u with
  | case1 =>
    cases s with
    | nil => simp [closingQuote]
    | cons d s => simpa [closingQuote] using hs
  | case2 c =>
    have hc : c ≠ q := by simpa using hu
    cases s with
    | nil => simp [closingQuote, hc]
    | cons d s => simpa [closingQuote, hc] using hs
  | case3 d u ih =>
    obtain ⟨hd, hu⟩ : d = q ∧ Doubled q u = true := by simpa using hu
    subst hd
    simp [closingQuote, ih hu]
  | case4 c d u hc ih =>
    have ih := ih hu
    rw [List.cons_append] at ih
    simp [closingQuote, hc, ih]

/-- Where the lexer sees a quote close, the pass does. -/
theorem quotedTail_of_closingQuote {q : Char} {s : Text} {n : ℕ} (h : closingQuote q s = some n) :
    quotedTail q s = some n := by
  fun_induction closingQuote q s generalizing n with
  | case1 => cases h
  | case2 => simpa [quotedTail] using h
  | case3 => cases h
  | case4 s ih =>
    obtain ⟨k, hk, rfl⟩ := Option.map_eq_some_iff.1 h
    simp [quotedTail, ih hk]
  | case5 d s hd => simpa [quotedTail, hd] using h
  | case6 c d s hc ih =>
    obtain ⟨k, hk, rfl⟩ := Option.map_eq_some_iff.1 h
    simp [quotedTail, hc, ih hk]

theorem quoted_append {q : Char} {u s : Text} (hu : Doubled q u = true) (hs : s.head? ≠ some q) :
    quoted q (q :: (u ++ q :: s)) = some (u.length + 2) := by
  simp [quoted, quotedTail_of_closingQuote (closingQuote_append hu hs)]

/-! ## Dollar tags -/

/-- What may stand between the dollars of a tag. -/
def TagName (name : Text) : Bool := name.all wordCont && name.head?.all wordStart

/-- `$name$`. -/
def tagOf (name : Text) : Text := '$' :: name ++ ['$']

theorem inertChar_of_mem_tagOf {name : Text} (h : TagName name = true) {c : Char} (hc : c ∈ tagOf name)
    (hne : c ≠ '$') : inertChar c = true := by
  have hname : c ∈ name := by simpa [tagOf, hne] using hc
  exact inertChar_of_wordCont (List.all_eq_true.1 (Bool.and_eq_true_iff.1 h).1 c hname)

theorem dollarTag_append {name : Text} (h : TagName name = true) (s : Text) :
    dollarTag (tagOf name ++ s) = some (tagOf name) := by
  obtain ⟨hcont, hstart⟩ := Bool.and_eq_true_iff.1 h
  have htake : (name ++ '$' :: s).takeWhile wordCont = name := by
    rw [List.takeWhile_append_of_pos (by simpa using hcont), List.takeWhile_cons_of_neg (by decide),
      List.append_nil]
  cases name with
  | nil => simp [tagOf, dollarTag, show wordStart '$' = false by decide]
  | cons c name =>
    have hc : wordStart c = true := by simpa using hstart
    rw [List.cons_append] at htake
    simp [tagOf, dollarTag, hc, htake]

/-- A dollar-quoted text ends at the next tag. -/
theorem dollarQuoted_append {name body : Text} (hname : TagName name = true) (hbody : '$' ∉ body) (s : Text) :
    dollarQuoted (tagOf name ++ (body ++ tagOf name) ++ s) =
      some (tagOf name ++ (body ++ tagOf name)).length := by
  have htag := dollarTag_append hname (body ++ (tagOf name ++ s))
  have hend := upTo_append hbody (name ++ ['$']) s
  simp only [List.append_assoc, dollarQuoted, htag, Option.map_some, List.drop_left]
  rw [show upTo (tagOf name) (body ++ (tagOf name ++ s)) = _ from hend]
  simp only [tagOf, Option.map_some, Option.getD_some, List.length_append, List.length_cons, List.length_nil]

end RoboMeta
