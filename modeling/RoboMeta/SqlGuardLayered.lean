/-
  Texts on which the text guard is sound.

  The five passes run one after the other over the whole text, so a hidden
  region reaches its own pass as it was written iff no earlier pass finds an
  opener in it.  A text is layered if this holds of all its regions: no `--` in
  any but line comments, no `/*` in a literal, no single quote in a quoted
  identifier, no quote of either kind in a dollar-quoted text.

  * `Piece`, `Fits`, `Layered`: layered texts as lists of pieces;
  * `scan_after`, `visible_after`: on them the passes and the lexer cut alike;
  * `Masks`: the visible text and the scan agree outside the regions;
  * `sound_iff_of_layered`: on them the guard is sound, unless the text begins
    with a semicolon.
-/
import RoboMeta.SqlGuardPasses
import RoboMeta.SqlGuardSound

namespace RoboMeta

/-! ## Pieces -/

/-- A visible character or a hidden region. -/
inductive Piece where
  | char (c : Char)
  | line (body : Text)
  | block (body : Text)
  | single (body : Text)
  | double (body : Text)
  | dollar (name body : Text)

/-- What the first `k` passes make of a piece. -/
def Piece.after (k : ℕ) : Piece → Text
  | char c => [c]
  | line body => if k < 1 then '-' :: '-' :: body else [' ']
  | block body => if k < 2 then '/' :: '*' :: (body ++ ['*', '/']) else [' ']
  | single body => if k < 3 then '\'' :: (body ++ ['\'']) else ['\'', ' ', '\'']
  | double body => if k < 4 then '"' :: (body ++ ['"']) else ['"', 'i', 'd', '"']
  | dollar name body => if k < 5 then tagOf name ++ (body ++ tagOf name) else [' ', ' ']

/-- A region without openers of the two comment passes. -/
def Uncommented (region : Text) : Prop := Scan.Apart '-' '-' region ∧ Scan.Apart '/' '*' region

instance (region : Text) : Decidable (Uncommented region) := inferInstanceAs (Decidable (_ ∧ _))

/-- The piece is layered, and `next` behind it leaves it as it is. -/
def Piece.Fits (next : Option Char) : Piece → Prop
  | char c => Lone c next
  | line body => body.any lineEnd = false ∧ next.all lineEnd = true
  | block body => Scan.Apart '*' '/' (body ++ ['*']) ∧ Scan.Apart '-' '-' (block body |>.after 0)
  | single body => Doubled '\'' body ∧ next ≠ some '\'' ∧ Uncommented (single body |>.after 0)
  | double body =>
    Doubled '"' body ∧ next ≠ some '"' ∧ Uncommented (double body |>.after 0) ∧ '\'' ∉ body
  | dollar name body =>
    TagName name ∧ Uncommented (dollar name body |>.after 0) ∧ '$' ∉ body ∧ '\'' ∉ body ∧ '"' ∉ body

instance (next : Option Char) : (p : Piece) → Decidable (p.Fits next)
  | .char c => inferInstanceAs (Decidable (Lone c next))
  | .line _ => inferInstanceAs (Decidable (_ ∧ _))
  | .block _ => inferInstanceAs (Decidable (_ ∧ _))
  | .single _ => inferInstanceAs (Decidable (_ ∧ _))
  | .double _ => inferInstanceAs (Decidable (_ ∧ _))
  | .dollar _ _ => inferInstanceAs (Decidable (_ ∧ _))

/-- The text of the pieces after the first `k` passes. -/
def after (k : ℕ) (ps : List Piece) : Text := ps.flatMap (Piece.after k)

/-- Every piece fits where it stands. -/
def Fit : List Piece → Prop
  | [] => True
  | p :: ps => p.Fits (after 0 ps).head? ∧ Fit ps

instance : (ps : List Piece) → Decidable (Fit ps)
  | [] => isTrue trivial
  | _ :: ps =>
    have : Decidable (Fit ps) := instDecidableFit ps
    inferInstanceAs (Decidable (_ ∧ _))

/-- The text is made of pieces that fit. -/
def Layered (sql : Text) : Prop := ∃ ps, Fit ps ∧ after 0 ps = sql

example : Layered "SELECT a/2 FROM t WHERE d = '2026-07-01'; -- it's \"t\"".toList :=
  ⟨"SELECT a/2 FROM t WHERE d = ".toList.map .char ++ .single "2026-07-01".toList ::
    "; ".toList.map .char ++ [.line " it's \"t\"".toList], by decide +kernel, by decide +kernel⟩

/-! ## The five passes -/

/-- The passes change the first character of a piece to a blank, if at all. -/
theorem head?_after (k : ℕ) (ps : List Piece) :
    (after k ps).head? = (after 0 ps).head? ∨ 0 < k ∧ (after k ps).head? = some ' ' := by
  cases ps with
  | nil => exact Or.inl rfl
  | cons p ps =>
    simp only [after, List.flatMap_cons]
    cases p with
    | char c => exact Or.inl rfl
    | line body => by_cases hk : k < 1 <;> simp [Piece.after, hk]; omega
    | block body => by_cases hk : k < 2 <;> simp [Piece.after, hk]; omega
    | single body => by_cases hk : k < 3 <;> simp [Piece.after, hk]
    | double body => by_cases hk : k < 4 <;> simp [Piece.after, hk]
    | dollar name body => by_cases hk : k < 5 <;> simp [Piece.after, tagOf, hk]; omega

/-- What stands behind a piece after `k` passes. -/
def Behind (k : ℕ) (next : Option Char) (s : Text) : Prop :=
  s.head? = next ∨ 0 < k ∧ s.head? = some ' '

/-- A pass over the text of the pieces is a pass over each of them. -/
theorem replace_after {m : Scan.Matcher Char} {r : Text} {k : ℕ}
    (step : ∀ {p : Piece} {next s}, p.Fits next → Behind k next s →
      Scan.replace m r (p.after k ++ s) = p.after (k + 1) ++ Scan.replace m r s)
    {ps : List Piece} (h : Fit ps) : Scan.replace m r (after k ps) = after (k + 1) ps := by
  induction ps with
  | nil => rfl
  | cons p ps ih =>
    obtain ⟨hp, hps⟩ := h
    have hstep := step hp (head?_after k ps)
    rw [ih hps] at hstep
    simpa [after] using hstep

theorem Lone.blank {c : Char} {next : Option Char} (h : Lone c next) : Lone c (some ' ') where
  single := h.single
  double := h.double
  line _ := by decide
  block _ := by decide
  dollar _ := by decide

theorem Lone.behind {c : Char} {next : Option Char} {k : ℕ} {s : Text} (h : Lone c next)
    (hs : Behind k next s) : Lone c s.head? := by
  rcases hs with hs | ⟨-, hs⟩
  · rwa [hs]
  · rw [hs]; exact h.blank

theorem Behind.ne {next : Option Char} {k : ℕ} {s : Text} {q : Char} (hs : Behind k next s)
    (hnext : next ≠ some q) (hq : q ≠ ' ') : s.head? ≠ some q := by
  rcases hs with hs | ⟨-, hs⟩
  · rwa [hs]
  · rw [hs]
    exact fun he => hq (Option.some.inj he).symm

/-- The last character of a region that has a terminator. -/
def Piece.closer : Piece → Option Char
  | char _ | line _ => none
  | block _ => some '/'
  | single _ => some '\''
  | double _ => some '"'
  | dollar _ _ => some '$'

theorem Piece.getLast?_after {p : Piece} {c : Char} (h : p.closer = some c) : (p.after 0).getLast? = some c := by
  have hlast (u : Text) (d : Char) : (u ++ [d]).getLast? = some d := by simp
  cases p with
  | char _ | line _ => cases h
  | block body => cases h; simpa [after] using hlast ('/' :: '*' :: (body ++ ['*'])) '/'
  | single body => cases h; exact hlast ('\'' :: body) '\''
  | double body => cases h; exact hlast ('"' :: body) '"'
  | dollar name body => cases h; simpa [after, tagOf] using hlast (tagOf name ++ (body ++ '$' :: name)) '$'

/-- A pass without an opener in a region leaves it as it is. -/
theorem Piece.replace_silent {m : Scan.Matcher Char} {x y c : Char} (hm : Scan.OpensWith m x y) {p : Piece}
    (hp : Scan.Apart x y (p.after 0)) (hc : p.closer = some c) (hne : c ≠ x) (r s : Text) :
    Scan.replace m r (p.after 0 ++ s) = p.after 0 ++ Scan.replace m r s := by
  refine Scan.replace_append_of_silent (hm.silent hp ?_ s) r
  simpa [Piece.getLast?_after hc] using hne

theorem ne_of_mem_dollar {name body : Text} {q : Char} (hname : TagName name = true)
    (hq : inertChar q = false) (hdollar : q ≠ '$') (hbody : q ∉ body) :
    ∀ c ∈ tagOf name ++ (body ++ tagOf name), c ≠ q := by
  rintro c hc rfl
  have htag : c ∉ tagOf name := fun hmem => by
    simp [inertChar_of_mem_tagOf hname hmem hdollar] at hq
  rcases List.mem_append.1 hc with hc | hc
  · exact htag hc
  · rcases List.mem_append.1 hc with hc | hc
    · exact hbody hc
    · exact htag hc

section
variable {p : Piece} {next : Option Char} {s : Text}

theorem replace_lineComment (h : p.Fits next) (hs : Behind 0 next s) :
    Scan.replace lineComment [' '] (p.after 0 ++ s) = p.after 1 ++ Scan.replace lineComment [' '] s := by
  cases p with
  | char c => exact Scan.replace_cons_of_none (h.behind hs).lineComment_eq_none _
  | line body =>
    obtain ⟨hbody, hnext⟩ := h
    have hend : s.head?.all lineEnd = true := by
      rcases hs with hs | ⟨hk, -⟩
      · rwa [hs]
      · exact absurd hk (by decide)
    exact Scan.replace_append_of_match (lineComment_append hbody hend) [' ']
  | block body =>
    obtain ⟨-, hline⟩ := h
    exact Piece.replace_silent opensWith_lineComment hline rfl (by decide) _ _
  | single body =>
    obtain ⟨-, -, hline, -⟩ := h
    exact Piece.replace_silent opensWith_lineComment hline rfl (by decide) _ _
  | double body =>
    obtain ⟨-, -, ⟨hline, -⟩, -⟩ := h
    exact Piece.replace_silent opensWith_lineComment hline rfl (by decide) _ _
  | dollar name body =>
    obtain ⟨-, ⟨hline, -⟩, -⟩ := h
    exact Piece.replace_silent opensWith_lineComment hline rfl (by decide) _ _

theorem replace_blockComment (h : p.Fits next) (hs : Behind 1 next s) :
    Scan.replace blockComment [' '] (p.after 1 ++ s) = p.after 2 ++ Scan.replace blockComment [' '] s := by
  cases p with
  | char c => exact Scan.replace_cons_of_none (h.behind hs).blockComment_eq_none _
  | line body => exact Scan.replace_append_of_inert (inert_blockComment (by simp [Piece.after])) [' '] s
  | block body =>
    obtain ⟨hbody, -⟩ := h
    refine Scan.replace_append_of_match (u := '*' :: (body ++ ['*', '/'])) ?_ [' ']
    simp [blockComment, upTo_pair hbody s]
  | single body =>
    obtain ⟨-, -, -, hblock⟩ := h
    exact Piece.replace_silent opensWith_blockComment hblock rfl (by decide) _ _
  | double body =>
    obtain ⟨-, -, ⟨-, hblock⟩, -⟩ := h
    exact Piece.replace_silent opensWith_blockComment hblock rfl (by decide) _ _
  | dollar name body =>
    obtain ⟨-, ⟨-, hblock⟩, -⟩ := h
    exact Piece.replace_silent opensWith_blockComment hblock rfl (by decide) _ _

theorem replace_singleQuoted (h : p.Fits next) (hs : Behind 2 next s) :
    Scan.replace singleQuoted ['\'', ' ', '\''] (p.after 2 ++ s) =
      p.after 3 ++ Scan.replace singleQuoted ['\'', ' ', '\''] s := by
  -- the placeholders of the comment passes are blanks
  have inert {q : Text} (hq : ∀ c ∈ q, c ≠ '\'') := Scan.replace_append_of_inert (inert_quoted hq) ['\'', ' ', '\''] s
  cases p with
  | char c => exact inert (q := [c]) (by simpa using h.single)
  | line body => exact inert (by simp [Piece.after])
  | block body => exact inert (by simp [Piece.after])
  | single body =>
    obtain ⟨hpaired, hnext, -⟩ := h
    refine Scan.replace_append_of_match (u := body ++ ['\'']) ?_ _
    simpa [singleQuoted] using quoted_append hpaired (hs.ne hnext (by decide))
  | double body =>
    obtain ⟨-, -, -, hsingle⟩ := h
    refine inert fun c hc => ?_
    rintro rfl
    simp [Piece.after, hsingle] at hc
  | dollar name body =>
    obtain ⟨hname, -, -, hsingle, -⟩ := h
    exact inert (ne_of_mem_dollar hname (by decide) (by decide) hsingle)

theorem replace_doubleQuoted (h : p.Fits next) (hs : Behind 3 next s) :
    Scan.replace doubleQuoted ['"', 'i', 'd', '"'] (p.after 3 ++ s) =
      p.after 4 ++ Scan.replace doubleQuoted ['"', 'i', 'd', '"'] s := by
  have inert {q : Text} (hq : ∀ c ∈ q, c ≠ '"') :=
    Scan.replace_append_of_inert (inert_quoted hq) ['"', 'i', 'd', '"'] s
  cases p with
  | char c => exact inert (q := [c]) (by simpa using h.double)
  | line body => exact inert (by simp [Piece.after])
  | block body => exact inert (by simp [Piece.after])
  | single body => exact inert (by simp [Piece.after])
  | double body =>
    obtain ⟨hpaired, hnext, -⟩ := h
    refine Scan.replace_append_of_match (u := body ++ ['"']) ?_ _
    simpa [doubleQuoted] using quoted_append hpaired (hs.ne hnext (by decide))
  | dollar name body =>
    obtain ⟨hname, -, -, -, hdouble⟩ := h
    exact inert (ne_of_mem_dollar hname (by decide) (by decide) hdouble)

theorem replace_dollarQuoted (h : p.Fits next) (hs : Behind 4 next s) :
    Scan.replace dollarQuoted [' ', ' '] (p.after 4 ++ s) =
      p.after 5 ++ Scan.replace dollarQuoted [' ', ' '] s := by
  have inert {q : Text} (hq : ∀ c ∈ q, c ≠ '$') :=
    Scan.replace_append_of_inert (inert_dollarQuoted hq) [' ', ' '] s
  cases p with
  | char c => exact Scan.replace_cons_of_none (h.behind hs).dollarQuoted_eq_none _
  | line body => exact inert (by simp [Piece.after])
  | block body => exact inert (by simp [Piece.after])
  | single body => exact inert (by simp [Piece.after])
  | double body => exact inert (by simp [Piece.after])
  | dollar name body =>
    obtain ⟨hname, -, hdollar, -⟩ := h
    exact Scan.replace_append_of_match (dollarQuoted_append hname hdollar s) [' ', ' ']

end

/-- **The scan of a layered text.** -/
theorem scan_after {ps : List Piece} (h : Fit ps) : stripLiteralsForScan (after 0 ps) = after 5 ps := by
  simp only [stripLiteralsForScan, replace_after replace_lineComment h, replace_after replace_blockComment h,
    replace_after replace_singleQuoted h, replace_after replace_doubleQuoted h,
    replace_after replace_dollarQuoted h]

/-! ## The lexer -/

/-- What the lexer shows of a piece. -/
def Piece.shown : Piece → Text
  | char c => [c]
  | p => List.replicate (p.after 0).length ' '

theorem visible_cons_of_none {c : Char} {s : Text} (h : hiddenRegion (c :: s) = none) :
    visible (c :: s) = c :: visible s := by
  simp [visible, Scan.mark_cons_of_none h]

theorem visible_append_of_match {c : Char} {u s : Text}
    (h : hiddenRegion (c :: u ++ s) = some (u.length + 1)) :
    visible (c :: u ++ s) = List.replicate (c :: u).length ' ' ++ visible s := by
  rw [visible, Scan.mark_append_of_match h, List.map_append, List.map_map, visible]
  congr 1
  exact List.map_const'

theorem visible_piece {p : Piece} {s : Text} (h : p.Fits s.head?) :
    visible (p.after 0 ++ s) = p.shown ++ visible s := by
  cases p with
  | char c => exact visible_cons_of_none h.hiddenRegion_eq_none
  | line body =>
    obtain ⟨hbody, hnext⟩ := h
    exact visible_append_of_match (lineComment_append hbody hnext)
  | block body =>
    obtain ⟨hbody, -⟩ := h
    refine visible_append_of_match (u := '*' :: (body ++ ['*', '/'])) ?_
    simp [hiddenRegion, upTo_pair hbody s]
  | single body =>
    obtain ⟨hpaired, hnext, -⟩ := h
    refine visible_append_of_match (u := body ++ ['\'']) ?_
    simp [hiddenRegion, closingQuote_append hpaired hnext]
  | double body =>
    obtain ⟨hpaired, hnext, -⟩ := h
    refine visible_append_of_match (u := body ++ ['"']) ?_
    simp [hiddenRegion, closingQuote_append hpaired hnext]
  | dollar name body =>
    obtain ⟨hname, -, hdollar, -⟩ := h
    have hregion : hiddenRegion (tagOf name ++ (body ++ tagOf name) ++ s) =
        dollarQuoted (tagOf name ++ (body ++ tagOf name) ++ s) := rfl
    exact visible_append_of_match (hregion.trans (dollarQuoted_append hname hdollar s))

/-- **The visible part of a layered text.** -/
theorem visible_after {ps : List Piece} (h : Fit ps) : visible (after 0 ps) = ps.flatMap Piece.shown := by
  induction ps with
  | nil => rfl
  | cons p ps ih => rw [after, List.flatMap_cons, List.flatMap_cons, ← ih h.2]; exact visible_piece h.1

/-! ## Masks -/

/-- What the passes put in the place of a region. -/
def placeholders : List Text := [[' '], ['\'', ' ', '\''], ['"', 'i', 'd', '"'], [' ', ' ']]

/-- The texts agree, but for stretches that are blank in the first and a
    placeholder in the second. -/
inductive Masks : Text → Text → Prop
  | nil : Masks [] []
  | keep (c : Char) {u v : Text} : Masks u v → Masks (c :: u) (c :: v)
  | hide {x y u v : Text} : x ≠ [] → Blank x → y ∈ placeholders → Masks u v → Masks (x ++ u) (y ++ v)

/-- The texts agree, but for stretches of spaces in the first and a placeholder in the second. -/
inductive Shows : Text → Text → Prop
  | nil : Shows [] []
  | keep (c : Char) {u v : Text} : Shows u v → Shows (c :: u) (c :: v)
  | hide (n : ℕ) {y u v : Text} : y ∈ placeholders → Shows u v → Shows (List.replicate (n + 1) ' ' ++ u) (y ++ v)

theorem Shows.masks {u v : Text} (h : Shows u v) : Masks u v := by
  induction h with
  | nil => exact .nil
  | keep c _ ih => exact .keep c ih
  | hide n hy _ ih =>
    refine .hide (by simp) (fun c hc => ?_) hy ih
    rw [(List.mem_replicate.1 hc).2]
    decide

theorem shows_pieces (ps : List Piece) : Shows (ps.flatMap Piece.shown) (after 5 ps) := by
  induction ps with
  | nil => exact .nil
  | cons p ps ih =>
    have hide {n : ℕ} {y : Text} (hn : 0 < n) (hy : y ∈ placeholders) :
        Shows (List.replicate n ' ' ++ ps.flatMap Piece.shown) (y ++ after 5 ps) := by
      obtain ⟨n, rfl⟩ := Nat.exists_eq_succ_of_ne_zero hn.ne'
      exact .hide n hy ih
    cases p with
    | char c => exact .keep c ih
    | line body => exact hide (by simp [Piece.after]) (by simp [Piece.after, placeholders])
    | block body => exact hide (by simp [Piece.after]) (by simp [Piece.after, placeholders])
    | single body => exact hide (by simp [Piece.after]) (by simp [Piece.after, placeholders])
    | double body => exact hide (by simp [Piece.after]) (by simp [Piece.after, placeholders])
    | dollar name body => exact hide (by simp [Piece.after, tagOf]) (by simp [Piece.after, placeholders])

theorem masks_pieces (ps : List Piece) : Masks (ps.flatMap Piece.shown) (after 5 ps) := (shows_pieces ps).masks

/-- What the words make of a placeholder. -/
theorem wordsFrom_placeholder {y : Text} (hy : y ∈ placeholders) (w : Option Text) (v : Text) :
    ∃ ws, (ws = [] ∨ ws = [['i', 'd']]) ∧
      Words.wordsFrom wordStart wordCont w (y ++ v) = w.toList ++ (ws ++ words v) := by
  -- the only placeholder with a word in it is that of a quoted identifier
  by_cases hid : y = ['"', 'i', 'd', '"']
  · subst hid
    refine ⟨[['i', 'd']], Or.inr rfl, ?_⟩
    have hopen : Words.wordsFrom wordStart wordCont w (['"'] ++ (['i', 'd'] ++ '"' :: v)) =
        w.toList ++ words (['i', 'd'] ++ '"' :: v) :=
      Words.wordsFrom_sep_append (fun c hc => by rw [List.mem_singleton.1 hc]; decide) (by simp) w _
    have hclose : words (['i', 'd'] ++ '"' :: v) = [['i', 'd']] ++ words v :=
      Words.words_append_sep (by decide) (by decide) ['i', 'd'] v
    rw [hclose] at hopen
    exact hopen
  · refine ⟨[], Or.inl rfl, Words.wordsFrom_sep_append (fun c hc => ?_) ?_ w v⟩
    · have hsep : y.all (fun c => !wordStart c && !wordCont c) = true := by
        simp only [placeholders, List.mem_cons, List.not_mem_nil, or_false, hid, false_or] at hy
        rcases hy with rfl | rfl | rfl <;> decide
      simpa using List.all_eq_true.1 hsep c hc
    · rintro rfl
      exact absurd hy (by decide)

section
variable {u v : Text} (h : Masks u v)
include h

/-- The words of the visible text are words of the scan. -/
theorem Masks.words_sublist (w : Option Text) :
    (Words.wordsFrom wordStart wordCont w u).Sublist (Words.wordsFrom wordStart wordCont w v) := by
  induction h generalizing w with
  | nil => exact .refl _
  | keep c _ ih =>
    cases w with
    | none =>
      simp only [Words.wordsFrom]
      split_ifs
      · exact ih _
      · exact ih _
    | some w =>
      simp only [Words.wordsFrom]
      split_ifs
      · exact ih _
      · exact (ih _).cons_cons w
  | @hide x y u v hx hb hy _ ih =>
    obtain ⟨ws, -, hwords⟩ := wordsFrom_placeholder hy w v
    rw [Words.wordsFrom_sep_append (fun c hc => not_word_of_isSpace c (hb c hc)) hx, hwords]
    exact (List.Sublist.refl _).append ((ih none).trans (List.sublist_append_right ws _))

/-- The words of the scan are words of the visible text or a placeholder's. -/
theorem Masks.mem_words {w : Option Text} {x : Text} (hx : x ∈ Words.wordsFrom wordStart wordCont w v) :
    x ∈ Words.wordsFrom wordStart wordCont w u ∨ x = ['i', 'd'] := by
  induction h generalizing w with
  | nil => exact Or.inl hx
  | keep c _ ih =>
    cases w with
    | none =>
      simp only [Words.wordsFrom] at hx ⊢
      split_ifs at hx ⊢
      · exact ih hx
      · exact ih hx
    | some w =>
      simp only [Words.wordsFrom] at hx ⊢
      split_ifs at hx ⊢
      · exact ih hx
      · rcases List.mem_cons.1 hx with rfl | hx
        · exact Or.inl List.mem_cons_self
        · exact (ih hx).imp_left (List.mem_cons_of_mem w)
  | @hide z y u v hne hb hy _ ih =>
    obtain ⟨ws, hws, hwords⟩ := wordsFrom_placeholder hy w v
    rw [Words.wordsFrom_sep_append (fun c hc => not_word_of_isSpace c (hb c hc)) hne, List.mem_append]
    rw [hwords, List.mem_append, List.mem_append] at hx
    rcases hx with hx | hx | hx
    · exact Or.inl (Or.inl hx)
    · rcases hws with rfl | rfl
      · cases hx
      · exact Or.inr (List.mem_singleton.1 hx)
    · exact (ih hx).imp_left Or.inr

/-- The first word of the scan is that of the visible text or a placeholder's. -/
theorem Masks.head?_words (w : Option Text) :
    (Words.wordsFrom wordStart wordCont w v).head? = (Words.wordsFrom wordStart wordCont w u).head? ∨
      (Words.wordsFrom wordStart wordCont w v).head? = some ['i', 'd'] := by
  induction h generalizing w with
  | nil => exact Or.inl rfl
  | keep c _ ih =>
    cases w with
    | none =>
      simp only [Words.wordsFrom]
      split_ifs
      · exact ih _
      · exact ih _
    | some w =>
      simp only [Words.wordsFrom]
      split_ifs
      · exact ih _
      · exact Or.inl rfl
  | @hide x y u v hx hb hy _ ih =>
    obtain ⟨ws, hws, hwords⟩ := wordsFrom_placeholder hy w v
    rw [Words.wordsFrom_sep_append (fun c hc => not_word_of_isSpace c (hb c hc)) hx, hwords]
    cases w with
    | some w => exact Or.inl rfl
    | none =>
      rcases hws with rfl | rfl
      · exact ih none
      · exact Or.inr rfl

/-- The scan falls into no fewer statements than the visible text. -/
theorem Masks.countFrom_le {b b' : Bool} (hb : b ≤ b') :
    Words.countFrom (fun c => !isSpace c) ';' b u ≤ Words.countFrom (fun c => !isSpace c) ';' b' v := by
  induction h generalizing b b' with
  | nil => exact Bool.toNat_le_toNat hb
  | keep c _ ih =>
    simp only [Words.countFrom]
    split_ifs
    · exact Nat.add_le_add (Bool.toNat_le_toNat hb) (ih le_rfl)
    · exact ih (sup_le_sup_right hb _)
  | @hide x y u v hx hblank hy _ ih =>
    have hxs : ';' ∉ x := fun hmem => absurd (hblank _ hmem) (by decide)
    have hys : ';' ∉ y := by
      simp only [placeholders, List.mem_cons, List.not_mem_nil, or_false] at hy
      rcases hy with rfl | rfl | rfl | rfl <;> decide
    have hany : x.any (fun c => !isSpace c) = false := by simpa [Blank] using hblank
    rw [Words.countFrom_append hxs, Words.countFrom_append hys, hany, Bool.or_false]
    exact ih (hb.trans le_sup_left)

end

/-! ## Soundness -/

theorem splitStatements_length (s : Text) :
    (splitStatements s).length = Words.countFrom (fun c => !isSpace c) ';' false s := by
  have hfilter (ps : List Text) : ((ps.map strip).filter fun p => !p.isEmpty).length =
      (ps.filter fun p => p.any fun c => !isSpace c).length := by
    rw [List.filter_map, List.length_map]
    congr 1
    refine List.filter_congr fun p _ => ?_
    cases hp : p.any fun c => !isSpace c with
    | false =>
      have hblank : strip p = [] := strip_eq_nil.2 (by simpa [Blank] using hp)
      simp [hblank]
    | true =>
      have hvisible : strip p ≠ [] := fun hnil => by
        have hblank := strip_eq_nil.1 hnil
        simp [Blank] at hblank hp
        obtain ⟨c, hc, hne⟩ := hp
        simp [hblank c hc] at hne
      simpa using hvisible
  rw [splitStatements, hfilter, Words.length_filter_splitOn]

/-- The scan of a layered text falls into no fewer statements than the visible text. -/
theorem Layered.length_splitStatements_le {sql : Text} (h : Layered sql) :
    (splitStatements (visible sql)).length ≤ (splitStatements (stripLiteralsForScan sql)).length := by
  obtain ⟨ps, hfit, rfl⟩ := h
  rw [splitStatements_length, splitStatements_length, scan_after hfit, visible_after hfit]
  exact (masks_pieces ps).countFrom_le le_rfl

/-- The scan of a layered text shows what the lexer shows, unless a quoted
    identifier stands in front of all words. -/
theorem scanFaithful_of_layered {sql : Text} (h : Layered sql)
    (hstart : StartsWithText sql)
    (hfirst : (words (stripLiteralsForScan sql)).head? ≠ some ['i', 'd']) : ScanFaithful sql := by
  have hstatements := h.length_splitStatements_le
  obtain ⟨ps, hfit, rfl⟩ := h
  rw [scan_after hfit] at hfirst
  have hmasks := masks_pieces ps
  rw [← visible_after hfit] at hmasks
  refine { startsWithText := hstart, statements := hstatements, firstWord := ?_, denied := ?_ }
  · rw [scan_after hfit]
    rcases hmasks.head?_words none with hsame | hid
    · exact (congrArg _ hsame).symm
    · exact absurd hid hfirst
  · intro w hw _
    rw [scan_after hfit]
    exact Or.inl (List.mem_map_of_mem ((hmasks.words_sublist none).mem hw))

end RoboMeta
