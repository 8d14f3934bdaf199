/-
  When the text guard lets an innocent text pass.

  A text is `Innocent` if the reference lexer finds every region terminated and
  nothing to object to in the visible text.  The guard looks at the scan that its
  five passes leave, and a region that an earlier pass cuts into may show there:
  in `SELECT '--'⏎, 'drop'` the comment pass takes a closing quote away, and the
  next literal is read inside out.

  * `accepts_iff`: an innocent text is accepted iff its scan is admitted;
  * `splitStatements_frame`: what stands idle around a statement is not read;
  * `explainAnalyze_shown`, `deniedHits_shown`: the scan of layered regions shows
    no more than the visible text;
  * `Enclosed.scanAdmitted`: the scan of a layered text is admitted, if no quoted
    region stands in front of the statement or behind its semicolon;
  * `layeredStatement_of_scanAdmitted`: and only then;
  * `innocent_accepted`: when an innocent text with layered regions is accepted.
-/
import RoboMeta.SqlGuardLayered

namespace RoboMeta

/-! ## Innocent texts -/

/-- The length of the region that opens at the head of the text, if it has its terminator. -/
def closedRegion : Scan.Matcher Char
  | '-' :: '-' :: s => lineComment ('-' :: '-' :: s)
  | '/' :: '*' :: s => (upTo ['*', '/'] s).map (· + 2)
  | '\'' :: s => (closingQuote '\'' s).map (· + 1)
  | '"' :: s => (closingQuote '"' s).map (· + 1)
  | s => (dollarTag s).bind fun tag => (upTo tag (s.drop tag.length)).map (tag.length + ·)

/-- Every region has its terminator; that of a line comment is the end of the line or of the text. -/
def Terminated (sql : Text) : Prop := Scan.mark closedRegion sql = Scan.mark hiddenRegion sql

instance (sql : Text) : Decidable (Terminated sql) := inferInstanceAs (Decidable (_ = _))

/-- A text of one statement that begins with an allowed keyword and explains without analyzing; of the
denied words it holds those that `exempt` lets pass. -/
def Admitted (U : Unicode) (exempt : String → List String → Prop) (text : Text) : Prop :=
  ∃ stmt token, splitStatements text = [stmt] ∧ firstToken stmt = some token ∧
    upperWord token ∈ allowedStarts ∧ explainAnalyze U none stmt = false ∧
      (deniedHits stmt = [] ∨ exempt (upperWord token) (deniedHits stmt))

/-- The lexer finds nothing to object to. -/
structure Innocent (U : Unicode) (sql : Text) : Prop where
  terminated : Terminated sql
  admitted : Admitted U (fun _ _ => False) (visible sql)

/-- `SET` is let pass under `EXPLAIN`. -/
def explainSet (first : String) (hit : List String) : Prop := first = "EXPLAIN" ∧ hit = ["SET"]

/-- The scan passes the checks of the guard. -/
def ScanAdmitted (U : Unicode) (sql : Text) : Prop := Admitted U explainSet (stripLiteralsForScan sql)

/-! ## The checks of the guard -/

theorem accepts_of_scanAdmitted {U : Unicode} {sql : String}
    (hexec : dropSemicolons sql.toList.length (strip sql.toList) ≠ []) (h : ScanAdmitted U sql.toList) :
    Accepts U sql := by
  obtain ⟨stmt, token, hstmt, htoken, hstart, hanalyze, hhit⟩ := h
  exact ⟨_, check_eq_ok_iff.2 ⟨hexec, stmt, token, hstmt, htoken, hstart, hanalyze, hhit, rfl⟩⟩

theorem scanAdmitted_of_accepts {U : Unicode} {sql : String} (h : Accepts U sql) : ScanAdmitted U sql.toList := by
  obtain ⟨r, h⟩ := h
  obtain ⟨-, stmt, token, hstmt, htoken, hstart, hanalyze, hhit, -⟩ := check_eq_ok_iff.1 h
  exact ⟨stmt, token, hstmt, htoken, hstart, hanalyze, hhit⟩

/-! ## Innocent texts that the guard lets pass -/

theorem mem_of_mem_splitStatements {s stmt : Text} (h : stmt ∈ splitStatements s) {c : Char} (hc : c ∈ stmt) :
    c ∈ s := by
  obtain ⟨p, hp, rfl⟩ := List.mem_map.1 (List.mem_of_mem_filter h)
  exact (Words.forall_mem_splitOn (P := fun c => c ∈ s) s).2 (fun c hc => Or.inl hc) p hp c (mem_of_mem_strip hc)

theorem exists_isAlpha_of_firstToken {s token : Text} (h : firstToken s = some token) :
    ∃ c ∈ s, c.isAlpha = true := by
  unfold firstToken at h
  split at h
  · cases h
  · rename_i c t hs
    split_ifs at h with hc
    exact ⟨c, (List.dropWhile_suffix _).subset (hs ▸ List.mem_cons_self), hc⟩

theorem isAlpha_not_space {c : Char} (h : c.isAlpha = true) : isSpace c = false ∧ c ≠ ';' := by
  have hstart : wordStart c = true := by simp [wordStart, h]
  constructor
  · by_contra hspace
    rw [(not_word_of_isSpace c (Bool.eq_true_of_not_eq_false hspace)).1] at hstart
    cases hstart
  · rintro rfl
    exact absurd h (by decide)

/-- A letter stands in an innocent text. -/
theorem exists_isAlpha_of_innocent {U : Unicode} {sql : Text} (h : Innocent U sql) :
    ∃ c ∈ sql, c.isAlpha = true := by
  obtain ⟨stmt, token, hstmt, htoken, -⟩ := h.admitted
  obtain ⟨c, hc, halpha⟩ := exists_isAlpha_of_firstToken htoken
  have hvisible : c ∈ visible sql := mem_of_mem_splitStatements (hstmt ▸ List.mem_cons_self) hc
  refine ⟨c, (mem_visible hvisible).resolve_right ?_, halpha⟩
  rintro rfl
  exact absurd halpha (by decide)

theorem dropSemicolons_ne_nil {c : Char} (hspace : isSpace c = false) (hc : c ≠ ';') {n : ℕ} {s : Text}
    (hmem : c ∈ s) : dropSemicolons n s ≠ [] := by
  induction n generalizing s with
  | zero => exact List.ne_nil_of_mem hmem
  | succ n ih =>
    rw [dropSemicolons]
    split_ifs with hlast
    · obtain ⟨t, rfl⟩ := List.getLast?_eq_some_iff.1 hlast
      refine ih (mem_rstrip hspace ?_)
      rw [List.dropLast_concat]
      exact (List.mem_append.1 hmem).resolve_right (by simpa using hc)
    · exact List.ne_nil_of_mem hmem

/-- **Innocent texts are accepted** iff their scan is admitted. -/
theorem accepts_iff {U : Unicode} {sql : String} (h : Innocent U sql.toList) :
    Accepts U sql ↔ ScanAdmitted U sql.toList := by
  obtain ⟨c, hc, halpha⟩ := exists_isAlpha_of_innocent h
  obtain ⟨hspace, hne⟩ := isAlpha_not_space halpha
  have hstrip : c ∈ strip sql.toList := mem_strip hspace hc
  exact ⟨scanAdmitted_of_accepts, accepts_of_scanAdmitted
    (dropSemicolons_ne_nil hspace hne hstrip)⟩

/-! ## A statement in its frame -/

/-- White space and semicolons. -/
def Idling (s : Text) : Prop := ∀ c ∈ s, isSpace c = true ∨ c = ';'

theorem splitStatements_idle_cons {c : Char} (hc : isSpace c = true ∨ c = ';') (s : Text) :
    splitStatements (c :: s) = splitStatements s := by
  rcases hc with hc | rfl
  · have hne : c ≠ ';' := by
      rintro rfl
      exact absurd hc (by decide)
    have hstrip : ∀ u : Text, strip (c :: u) = strip u := fun u => by
      rw [strip, List.dropWhile_cons_of_pos hc, strip]
    unfold splitStatements
    induction s using Words.pieces_induction (a := ';') with
    | last s h =>
      rw [Words.splitOn_of_notMem h, Words.splitOn_of_notMem (by simp [h, Ne.symm hne])]
      simp [hstrip]
    | step u v hu =>
      rw [← List.cons_append, Words.splitOn_append_cons hu, Words.splitOn_append_cons (by simp [hu, Ne.symm hne])]
      simp [hstrip]
  · have hsplit := Words.splitOn_append_cons (a := ';') (u := []) (by simp) s
    rw [List.nil_append] at hsplit
    rw [splitStatements, hsplit]
    simp [strip, rstrip, splitStatements]

theorem splitStatements_idle_append {a : Text} (ha : Idling a) (s : Text) :
    splitStatements (a ++ s) = splitStatements s := by
  induction a with
  | nil => rfl
  | cons c a ih =>
    rw [List.cons_append, splitStatements_idle_cons (ha c List.mem_cons_self)]
    exact ih fun d hd => ha d (List.mem_cons_of_mem c hd)

section
variable {c : Char} (hspace : isSpace c = false) (hne : c ≠ ';')
include hspace

theorem exists_strip_cons (s : Text) : ∃ t, strip (c :: s) = c :: t := by
  have hdrop : strip (c :: s) = rstrip (c :: s) := by
    rw [strip, List.dropWhile_cons_of_neg (by simp [hspace])]
  have hmem : c ∈ rstrip (c :: s) := mem_rstrip hspace List.mem_cons_self
  obtain ⟨d, t, ht⟩ := List.exists_cons_of_ne_nil (List.ne_nil_of_mem hmem)
  have hprefix : d :: t <+: c :: s := ht ▸ List.rdropWhile_prefix isSpace (c :: s)
  obtain ⟨rfl, -⟩ := List.cons_prefix_cons.1 hprefix
  exact ⟨t, hdrop.trans ht⟩

include hne

/-- What stands before the first semicolon is a statement, if it does not begin with a blank. -/
theorem splitStatements_append_semicolon {u : Text} (hu : ';' ∉ u) (v : Text) :
    splitStatements (c :: u ++ ';' :: v) = strip (c :: u) :: splitStatements v := by
  obtain ⟨t, ht⟩ := exists_strip_cons hspace u
  rw [splitStatements, Words.splitOn_append_cons (by simp [hu, Ne.symm hne]), List.map_cons,
    List.filter_cons_of_pos (by simp [ht]), splitStatements]

theorem splitStatements_cons (s : Text) : ∃ t rest, splitStatements (c :: s) = (c :: t) :: rest := by
  by_cases hmem : ';' ∈ s
  · obtain ⟨u, v, rfl, hu⟩ := List.eq_append_cons_of_mem hmem
    obtain ⟨t, ht⟩ := exists_strip_cons hspace u
    exact ⟨t, splitStatements v, ht ▸ splitStatements_append_semicolon hspace hne hu v⟩
  · obtain ⟨t, ht⟩ := exists_strip_cons hspace s
    refine ⟨t, [], ?_⟩
    rw [splitStatements, Words.splitOn_of_notMem (by simp [hmem, Ne.symm hne]), List.map_singleton, ht,
      List.filter_cons_of_pos (by simp), List.filter_nil]

end

/-- Of a text that is idle but for one statement the guard reads this statement. -/
theorem splitStatements_frame {a b s : Text} (ha : Idling a) (hb : Idling b) (hs : ';' ∉ s) {c : Char}
    {t : Text} (hcons : s = c :: t) (hc : isSpace c = false) : splitStatements (a ++ (s ++ b)) = [rstrip s] := by
  have hstrip : ∀ w : Text, strip (s ++ w) = rstrip (s ++ w) := fun w => by
    rw [hcons, strip, List.cons_append, List.dropWhile_cons_of_neg (by simp [hc])]
  have hne : c ≠ ';' := ne_of_mem_of_not_mem (hcons ▸ List.mem_cons_self) hs
  rw [splitStatements_idle_append ha]
  by_cases hmem : ';' ∈ b
  · obtain ⟨u, v, rfl, hu⟩ := List.eq_append_cons_of_mem hmem
    have hblank : Blank u := fun d hd =>
      (hb d (List.mem_append_left _ hd)).resolve_right (ne_of_mem_of_not_mem hd hu)
    have hrest : splitStatements v = [] := by
      have happend := splitStatements_idle_append (a := v)
        (fun d hd => hb d (List.mem_append_right _ (List.mem_cons_of_mem _ hd))) []
      rw [List.append_nil] at happend
      exact happend
    have hsemi : ';' ∉ t ++ u := by
      rw [hcons] at hs
      simp [hu, List.not_mem_of_not_mem_cons hs]
    have hsplit := splitStatements_append_semicolon hc hne hsemi v
    rw [← List.cons_append, ← hcons, hstrip, rstrip_append_blank s hblank, hrest] at hsplit
    rw [← List.append_assoc]
    exact hsplit
  · have hblank : Blank b := fun d hd => (hb d hd).resolve_right (ne_of_mem_of_not_mem hd hmem)
    have hnonempty : rstrip s ≠ [] := List.ne_nil_of_mem (mem_rstrip hc (hcons ▸ List.mem_cons_self))
    rw [splitStatements, Words.splitOn_of_notMem (by simp [hs, hmem]), List.map_singleton, hstrip,
      rstrip_append_blank s hblank, List.filter_cons_of_pos (by simpa using hnonempty), List.filter_nil]

theorem firstToken_cons {c : Char} (hc : c.isAlpha = true) (t : Text) :
    firstToken (c :: t) = some (c :: t.takeWhile wordCont) := by
  rw [firstToken, List.dropWhile_cons_of_neg (by simp [(isAlpha_not_space hc).1])]
  exact if_pos hc

theorem firstToken_rstrip {c : Char} (hc : c.isAlpha = true) (t : Text) :
    firstToken (rstrip (c :: t)) = some (c :: t.takeWhile wordCont) := by
  obtain ⟨u, hu⟩ : ∃ u, rstrip (c :: t) = c :: u := by
    have hmem : c ∈ rstrip (c :: t) := mem_rstrip (isAlpha_not_space hc).1 List.mem_cons_self
    obtain ⟨w, hw⟩ := List.rdropWhile_prefix isSpace (c :: t)
    rw [← rstrip] at hw
    cases hcase : rstrip (c :: t) with
    | nil => simp [hcase] at hmem
    | cons d u =>
      rw [hcase, List.cons_append] at hw
      exact ⟨u, by rw [(List.cons.inj hw).1]⟩
  have hstart : wordStart c = true := by simp [wordStart, hc]
  have hwords : words (c :: u) = words (c :: t) := by
    rw [← hu, rstrip]
    exact Words.words_rdropWhile not_word_of_isSpace _
  have hhead := congrArg List.head? hwords
  rw [words, words, Words.head?_words_cons hstart, Words.head?_words_cons hstart, Option.some.injEq] at hhead
  rw [hu, firstToken_cons hc, hhead]

/-! ## EXPLAIN ANALYZE in a scan -/

theorem isWord_space (U : Unicode) : U.isWord ' ' = false := by
  rw [Unicode.isWord, U.isAlnum_ascii ' ' (by decide)]
  decide

/-- The letters of the two words. -/
def letters : Text := ['e', 'x', 'p', 'l', 'a', 'i', 'n', 'y', 'z']

theorem explain_subset : ∀ l ∈ "explain".toList, l ∈ letters := by simp [letters]

theorem analyze_subset : ∀ l ∈ "analyze".toList, l ∈ letters := by simp [letters]

theorem dropWord_eq_none {l c : Char} (h : eqIgnoreCase l c = false) (w s : Text) :
    dropWord (l :: w) (c :: s) = none := by
  rw [dropWord, if_neg (by simp [h])]

/-- Neither word begins in a placeholder, nor goes on into one. -/
theorem placeholder_cases {y : Text} (hy : y ∈ placeholders) :
    (∃ c z, y = c :: z ∧ wordCont c = false ∧ ∀ l ∈ letters, eqIgnoreCase l c = false) ∧
      ∀ c ∈ y, eqIgnoreCase 'e' c = false ∧ eqIgnoreCase 'a' c = false := by
  simp only [placeholders, List.mem_cons, List.not_mem_nil, or_false] at hy
  have hhead {c : Char} (h : letters.all (fun l => !eqIgnoreCase l c) = true) :
      ∀ l ∈ letters, eqIgnoreCase l c = false := by simpa using h
  have hchars {y : Text} (h : y.all (fun c => !eqIgnoreCase 'e' c && !eqIgnoreCase 'a' c) = true) :
      ∀ c ∈ y, eqIgnoreCase 'e' c = false ∧ eqIgnoreCase 'a' c = false := by simpa using h
  rcases hy with rfl | rfl | rfl | rfl
  · exact ⟨⟨_, _, rfl, by decide, hhead (by decide)⟩, hchars (by decide)⟩
  · exact ⟨⟨_, _, rfl, by decide, hhead (by decide)⟩, hchars (by decide)⟩
  · exact ⟨⟨_, _, rfl, by decide, hhead (by decide)⟩, hchars (by decide)⟩
  · exact ⟨⟨_, _, rfl, by decide, hhead (by decide)⟩, hchars (by decide)⟩

theorem analyzeAt_cons_of_ne {c : Char} (h : eqIgnoreCase 'a' c = false) (U : Unicode) (p : Option Char) (s : Text) :
    analyzeAt U p (c :: s) = false := by
  have hdrop : dropWord "analyze".toList (c :: s) = none := dropWord_eq_none h _ s
  rw [analyzeAt, hdrop]
  simp

section
variable {U : Unicode} {u v : Text}

theorem dropWord_shown (h : Shows u v) {w r : Text} (hw : ∀ l ∈ w, l ∈ letters)
    (hr : dropWord w v = some r) : ∃ t, dropWord w u = some t ∧ Shows t r := by
  induction w generalizing u v with
  | nil =>
    obtain rfl := Option.some.inj hr
    exact ⟨u, rfl, h⟩
  | cons l w ih =>
    cases h with
    | nil => cases hr
    | keep c h =>
      rw [dropWord] at hr ⊢
      split_ifs at hr ⊢
      exact ih h (fun m hm => hw m (List.mem_cons_of_mem l hm)) hr
    | hide n hy h =>
      obtain ⟨⟨c, z, rfl, -, hhead⟩, -⟩ := placeholder_cases hy
      rw [List.cons_append, dropWord_eq_none (hhead l (hw l List.mem_cons_self))] at hr
      cases hr

theorem head?_shown (h : Shows u v) (hv : v.head?.any U.isWord = false) : u.head?.any U.isWord = false := by
  cases h with
  | nil => rfl
  | keep c h => exact hv
  | hide n hy h => exact isWord_space U

theorem analyzeAt_shown {p q : Option Char} (h : Shows u v) (hp : p.any U.isWord = false → q.any U.isWord = false)
    (hv : analyzeAt U p v = true) : analyzeAt U q u = true := by
  simp only [analyzeAt, Bool.and_eq_true, Bool.not_eq_true', Option.any_eq_true] at hv ⊢
  obtain ⟨hword, r, hr, hend⟩ := hv
  obtain ⟨t, ht, hshows⟩ := dropWord_shown h analyze_subset hr
  exact ⟨hp hword, t, ht, head?_shown hshows hend⟩

/-- White space in front of the scan stands in front of the visible text. -/
theorem dropWhile_isSpace_shown (h : Shows u v) :
    (v.dropWhile isSpace).head? = some '\'' ∨ (v.dropWhile isSpace).head? = some '"' ∨
      Shows (u.dropWhile isSpace) (v.dropWhile isSpace) ∧
        ((v.dropWhile isSpace).length < v.length → (u.dropWhile isSpace).length < u.length) := by
  induction h with
  | nil => exact Or.inr (Or.inr ⟨.nil, id⟩)
  | @keep c u v h ih =>
    by_cases hc : isSpace c = true
    · rw [List.dropWhile_cons_of_pos hc, List.dropWhile_cons_of_pos hc]
      refine ih.imp_right (Or.imp_right fun hsame => ⟨hsame.1, fun _ => ?_⟩)
      exact Nat.lt_succ_of_le (List.dropWhile_suffix isSpace).length_le
    · rw [List.dropWhile_cons_of_neg hc, List.dropWhile_cons_of_neg hc]
      exact Or.inr (Or.inr ⟨.keep c h, fun hlt => absurd hlt (lt_irrefl _)⟩)
  | @hide n y u v hy h ih =>
    have hblank : (List.replicate (n + 1) ' ' ++ u).dropWhile isSpace = u.dropWhile isSpace := by
      rw [List.dropWhile_append_of_pos]
      intro c hc
      rw [(List.mem_replicate.1 hc).2]
      decide
    have hlength : (u.dropWhile isSpace).length < (List.replicate (n + 1) ' ' ++ u).length := by
      have hle := (List.dropWhile_suffix isSpace (l := u)).length_le
      simp only [List.length_append, List.length_replicate]
      omega
    rw [hblank]
    simp only [placeholders, List.mem_cons, List.not_mem_nil, or_false] at hy
    rcases hy with rfl | rfl | rfl | rfl
    · exact ih.imp_right (Or.imp_right fun hsame => ⟨hsame.1, fun _ => hlength⟩)
    · exact Or.inl rfl
    · exact Or.inr (Or.inl rfl)
    · exact ih.imp_right (Or.imp_right fun hsame => ⟨hsame.1, fun _ => hlength⟩)

theorem analyzeBeforeParen_blanks {q : Option Char} {n : ℕ} {s : Text}
    (hs : ∀ p, p.any U.isWord = false → analyzeBeforeParen U p s = true) :
    analyzeBeforeParen U q (List.replicate (n + 1) ' ' ++ s) = true := by
  induction n generalizing q with
  | zero =>
    rw [List.replicate_succ, List.cons_append, analyzeBeforeParen, Bool.or_eq_true]
    exact Or.inr (by simpa using hs (some ' ') (isWord_space U))
  | succ n ih =>
    rw [List.replicate_succ, List.cons_append, analyzeBeforeParen, Bool.or_eq_true]
    exact Or.inr (by simpa using ih)

theorem analyzeBeforeParen_of_append {p : Option Char} {y s : Text} (hy : ∀ c ∈ y, eqIgnoreCase 'a' c = false)
    (h : analyzeBeforeParen U p (y ++ s) = true) : ∃ q, analyzeBeforeParen U q s = true := by
  induction y generalizing p with
  | nil => exact ⟨p, h⟩
  | cons c y ih =>
    rw [List.cons_append, analyzeBeforeParen, analyzeAt_cons_of_ne (hy c List.mem_cons_self), Bool.false_or,
      Bool.and_eq_true] at h
    exact ih (fun d hd => hy d (List.mem_cons_of_mem c hd)) h.2

theorem analyzeBeforeParen_shown (h : Shows u v) {p q : Option Char}
    (hp : p.any U.isWord = false → q.any U.isWord = false) (hv : analyzeBeforeParen U p v = true) :
    analyzeBeforeParen U q u = true := by
  induction h generalizing p q with
  | nil => cases hv
  | keep c h ih =>
    rw [analyzeBeforeParen, Bool.or_eq_true, Bool.and_eq_true] at hv ⊢
    exact hv.imp (analyzeAt_shown (.keep c h) hp) (And.imp_right (ih id))
  | hide n hy h ih =>
    obtain ⟨r, hr⟩ := analyzeBeforeParen_of_append (fun c hc => ((placeholder_cases hy).2 c hc).2) hv
    exact analyzeBeforeParen_blanks fun q hq => ih (fun _ => hq) hr

theorem paren_shown (h : Shows u ('(' :: v)) : ∃ t, u = '(' :: t ∧ Shows t v := by
  generalize hw : '(' :: v = w at h
  cases h with
  | nil => cases hw
  | keep c h =>
    obtain ⟨rfl, rfl⟩ := List.cons.inj hw
    exact ⟨_, rfl, h⟩
  | hide n hy h =>
    have hparen : ∀ y ∈ placeholders, y.head? ≠ none ∧ y.head? ≠ some '(' := by decide
    obtain ⟨hnone, hne⟩ := hparen _ hy
    have hhead := congrArg List.head? hw
    rw [List.head?_append_of_ne_nil _ (by simpa using hnone)] at hhead
    exact absurd hhead.symm hne

theorem analyzeBehind_shown (h : Shows u v) (hv : analyzeBehind U v = true) : analyzeBehind U u = true := by
  have hquote {c : Char} (hc : eqIgnoreCase 'a' c = false) (hparen : c ≠ '(') :
      (v.dropWhile isSpace).head? ≠ some c := fun hhead => by
    obtain ⟨t, ht⟩ := List.head?_eq_some_iff.1 hhead
    rw [analyzeBehind, ht, analyzeAt_cons_of_ne hc] at hv
    simp [hparen] at hv
  simp only [analyzeBehind, Bool.or_eq_true, Bool.and_eq_true, decide_eq_true_eq, beq_iff_eq] at hv ⊢
  obtain ⟨hshows, hlength⟩ := ((dropWhile_isSpace_shown h).resolve_left (hquote (by decide) (by decide))).resolve_left
    (hquote (by decide) (by decide))
  refine hv.imp (And.imp hlength (analyzeAt_shown hshows id)) ?_
  rintro ⟨hhead, hparen⟩
  obtain ⟨s, hs⟩ := List.head?_eq_some_iff.1 hhead
  rw [hs] at hshows hparen
  obtain ⟨t, ht, hshows⟩ := paren_shown hshows
  rw [ht]
  exact ⟨rfl, analyzeBeforeParen_shown hshows id hparen⟩

theorem explainAnalyze_blanks {q : Option Char} {n : ℕ} {s : Text}
    (hs : ∀ p, p.any U.isWord = false → explainAnalyze U p s = true) :
    explainAnalyze U q (List.replicate (n + 1) ' ' ++ s) = true := by
  induction n generalizing q with
  | zero =>
    rw [List.replicate_succ, List.cons_append, explainAnalyze, Bool.or_eq_true]
    exact Or.inr (hs (some ' ') (isWord_space U))
  | succ n ih =>
    rw [List.replicate_succ, List.cons_append, explainAnalyze, Bool.or_eq_true]
    exact Or.inr ih

theorem explainAnalyze_of_append {p : Option Char} {y s : Text} (hy : ∀ c ∈ y, eqIgnoreCase 'e' c = false)
    (h : explainAnalyze U p (y ++ s) = true) : ∃ q, explainAnalyze U q s = true := by
  induction y generalizing p with
  | nil => exact ⟨p, h⟩
  | cons c y ih =>
    have hnone : dropWord "explain".toList (c :: (y ++ s)) = none := dropWord_eq_none (hy c List.mem_cons_self) _ _
    rw [List.cons_append, explainAnalyze, hnone, Option.any_none, Bool.and_false, Bool.false_or] at h
    exact ih (fun d hd => hy d (List.mem_cons_of_mem c hd)) h

/-- The scan explains with analyzing only where the visible text does. -/
theorem explainAnalyze_shown (h : Shows u v) {p q : Option Char}
    (hp : p.any U.isWord = false → q.any U.isWord = false) (hv : explainAnalyze U p v = true) :
    explainAnalyze U q u = true := by
  induction h generalizing p q with
  | nil => cases hv
  | keep c h ih =>
    simp only [explainAnalyze, Bool.or_eq_true, Bool.and_eq_true, Bool.not_eq_true', Option.any_eq_true] at hv ⊢
    rcases hv with ⟨hword, r, hr, hanalyze⟩ | hv
    · obtain ⟨t, ht, hshows⟩ := dropWord_shown (.keep c h) explain_subset hr
      exact Or.inl ⟨hp hword, t, ht, analyzeBehind_shown hshows hanalyze⟩
    · exact Or.inr (ih id hv)
  | hide n hy h ih =>
    obtain ⟨r, hr⟩ := explainAnalyze_of_append (fun c hc => ((placeholder_cases hy).2 c hc).1) hv
    exact explainAnalyze_blanks fun q hq => ih (fun _ => hq) hr

end

/-! ## White space behind the text -/

theorem eqIgnoreCase_of_isSpace {l c : Char} (hl : l ∈ letters) (hc : isSpace c = true) :
    eqIgnoreCase l c = false := by
  have hlower : c.toLower = c := by
    change (if h : c.val ≥ 'A'.val ∧ c.val ≤ 'Z'.val then _ else c) = c
    refine dif_neg ?_
    rintro ⟨hA, hZ⟩
    have h65 : 65 ≤ c.toNat := UInt32.le_iff_toNat_le.1 hA
    have h90 : c.toNat ≤ 90 := UInt32.le_iff_toNat_le.1 hZ
    simp only [isSpace, Bool.or_eq_true, Bool.and_eq_true, decide_eq_true_eq, beq_iff_eq] at hc
    omega
  have hletters : letters.all (fun l => !isSpace l) = true := by decide
  have hne {d : Char} (hd : isSpace d = false) : c ≠ d := by
    rintro rfl
    rw [hc] at hd
    cases hd
  have hl' : c ≠ l := hne (by simpa using List.all_eq_true.1 hletters l hl)
  simp [eqIgnoreCase, hlower, hl', hne (d := 'ı') (by decide), hne (d := 'İ') (by decide)]

section
variable {U : Unicode} {c : Char} (hc : isSpace c = true)
include hc

theorem dropWord_concat {w s r : Text} (hw : ∀ l ∈ w, l ∈ letters)
    (h : dropWord w (s ++ [c]) = some r) : ∃ t, dropWord w s = some t ∧ r = t ++ [c] := by
  induction w generalizing s with
  | nil => exact ⟨s, rfl, (Option.some.inj h).symm⟩
  | cons l w ih =>
    cases s with
    | nil =>
      rw [List.nil_append, dropWord_eq_none (eqIgnoreCase_of_isSpace (hw l List.mem_cons_self) hc)] at h
      cases h
    | cons d s =>
      rw [List.cons_append, dropWord] at h
      rw [dropWord]
      split_ifs at h ⊢
      exact ih (fun m hm => hw m (List.mem_cons_of_mem l hm)) h

theorem analyzeAt_of_concat {p : Option Char} {s : Text} (h : analyzeAt U p (s ++ [c]) = true) :
    analyzeAt U p s = true := by
  simp only [analyzeAt, Bool.and_eq_true, Option.any_eq_true] at h ⊢
  obtain ⟨hword, r, hr, hend⟩ := h
  obtain ⟨t, ht, rfl⟩ := dropWord_concat hc analyze_subset hr
  refine ⟨hword, t, ht, ?_⟩
  cases t with
  | nil => rfl
  | cons d t => exact hend

theorem analyzeBeforeParen_of_concat {p : Option Char} {s : Text} (h : analyzeBeforeParen U p (s ++ [c]) = true) :
    analyzeBeforeParen U p s = true := by
  induction s generalizing p with
  | nil =>
    rw [List.nil_append, analyzeBeforeParen, analyzeAt_cons_of_ne (eqIgnoreCase_of_isSpace (by decide) hc)] at h
    simp [analyzeBeforeParen] at h
  | cons d s ih =>
    rw [List.cons_append, analyzeBeforeParen, Bool.or_eq_true, Bool.and_eq_true] at h
    rw [analyzeBeforeParen, Bool.or_eq_true, Bool.and_eq_true]
    exact h.imp (fun hat => analyzeAt_of_concat hc hat) (And.imp_right ih)

theorem analyzeBehind_of_concat {s : Text} (h : analyzeBehind U (s ++ [c]) = true) : analyzeBehind U s = true := by
  simp only [analyzeBehind, List.dropWhile_append] at h
  split_ifs at h with hempty
  · rw [List.dropWhile_cons_of_pos hc, List.dropWhile_nil] at h
    simp [analyzeAt, dropWord] at h
  · obtain ⟨d, t, ht⟩ := List.exists_cons_of_ne_nil (l := s.dropWhile isSpace) (by simpa using hempty)
    simp only [analyzeBehind, ht, Bool.or_eq_true, Bool.and_eq_true, decide_eq_true_eq, beq_iff_eq] at h ⊢
    refine h.imp (And.imp (fun hlt => ?_) (analyzeAt_of_concat hc)) (And.imp_right (analyzeBeforeParen_of_concat hc))
    simpa using hlt

theorem explainAnalyze_of_concat {p : Option Char} {s : Text} (h : explainAnalyze U p (s ++ [c]) = true) :
    explainAnalyze U p s = true := by
  induction s generalizing p with
  | nil =>
    have hnone : dropWord "explain".toList [c] = none := dropWord_eq_none (eqIgnoreCase_of_isSpace (by decide) hc) _ _
    rw [List.nil_append, explainAnalyze, hnone] at h
    simp [explainAnalyze] at h
  | cons d s ih =>
    rw [List.cons_append, explainAnalyze, Bool.or_eq_true, Bool.and_eq_true, Option.any_eq_true] at h
    rw [explainAnalyze, Bool.or_eq_true, Bool.and_eq_true, Option.any_eq_true]
    rcases h with ⟨hword, r, hr, hanalyze⟩ | h
    · obtain ⟨t, ht, rfl⟩ := dropWord_concat (s := d :: s) hc explain_subset hr
      exact Or.inl ⟨hword, t, ht, analyzeBehind_of_concat hc hanalyze⟩
    · exact Or.inr (ih h)

end

theorem explainAnalyze_rstrip {U : Unicode} {p : Option Char} {s : Text} (h : explainAnalyze U p s = true) :
    explainAnalyze U p (rstrip s) = true := by
  induction s using List.reverseRecOn with
  | nil => exact h
  | append_singleton s c ih =>
    rw [rstrip]
    by_cases hc : isSpace c = true
    · rw [List.rdropWhile_concat_pos _ _ _ hc]
      exact ih (explainAnalyze_of_concat hc h)
    · rw [List.rdropWhile_concat_neg _ _ _ hc]
      exact h

/-! ## Layered statements -/

/-- White space, a semicolon, a comment or a dollar-quoted text. -/
def Piece.idle : Piece → Bool
  | char c => isSpace c || c == ';'
  | single _ | double _ => false
  | line _ | block _ | dollar _ _ => true

/-- A piece of a statement. -/
def Piece.inner : Piece → Bool
  | char c => c != ';'
  | _ => true

/-- A piece that may end a statement: no blank, nor what the passes make one. -/
def Piece.solid : Piece → Bool
  | char c => !isSpace c
  | single _ | double _ => true
  | line _ | block _ | dollar _ _ => false

/-- A layered text of one statement, which begins with a letter and is idle around it. -/
structure Enclosed (sql : Text) (front : List Piece) (c : Char) (stmt back : List Piece) : Prop where
  fit : Fit (front ++ .char c :: (stmt ++ back))
  text : after 0 (front ++ .char c :: (stmt ++ back)) = sql
  front_idle : front.all Piece.idle = true
  letter : c.isAlpha = true
  inner : stmt.all Piece.inner = true
  last_solid : stmt.getLast?.all Piece.solid = true
  back_idle : back.all Piece.idle = true

/-- The regions of the text are layered, and none that is quoted stands in front of the statement or
behind its semicolon. -/
def LayeredStatement (sql : Text) : Prop := ∃ front c stmt back, Enclosed sql front c stmt back

theorem Piece.idling {p : Piece} (h : p.idle = true) : Idling p.shown ∧ Idling (p.after 5) := by
  have hspaces {n : ℕ} : Idling (List.replicate n ' ') := fun c hc => by
    rw [(List.mem_replicate.1 hc).2]
    exact Or.inl (by decide)
  cases p with
  | char c =>
    have hc : isSpace c = true ∨ c = ';' := by simpa [idle] using h
    exact ⟨fun d hd => by rwa [List.mem_singleton.1 hd], fun d hd => by rwa [List.mem_singleton.1 hd]⟩
  | single _ | double _ => cases h
  | line _ | block _ => exact ⟨hspaces, hspaces (n := 1)⟩
  | dollar _ _ => exact ⟨hspaces, hspaces (n := 2)⟩

theorem Piece.notMem_inner {p : Piece} (h : p.inner = true) : ';' ∉ p.shown ∧ ';' ∉ p.after 5 := by
  have hspaces {n : ℕ} : ';' ∉ List.replicate n ' ' := fun hmem => by
    have heq := (List.mem_replicate.1 hmem).2
    exact absurd heq (by decide)
  cases p with
  | char c =>
    have hc : c ≠ ';' := by simpa [inner] using h
    exact ⟨fun hmem => hc (List.mem_singleton.1 hmem).symm, fun hmem => hc (List.mem_singleton.1 hmem).symm⟩
  | line _ | block _ | single _ | double _ | dollar _ _ => exact ⟨hspaces, by simp [Piece.after]⟩

theorem Piece.getLast?_solid {p : Piece} (h : p.solid = true) :
    ∃ c, (p.after 5).getLast? = some c ∧ isSpace c = false := by
  cases p with
  | char c => exact ⟨c, rfl, by simpa [solid] using h⟩
  | single _ => exact ⟨'\'', rfl, by decide⟩
  | double _ => exact ⟨'"', rfl, by decide⟩
  | line _ | block _ | dollar _ _ => cases h

theorem idling_flatMap {f : Piece → Text} {ps : List Piece} (h : ps.all Piece.idle = true)
    (hf : ∀ p : Piece, p.idle = true → Idling (f p)) : Idling (ps.flatMap f) := by
  intro c hc
  obtain ⟨p, hp, hc⟩ := List.mem_flatMap.1 hc
  exact hf p (List.all_eq_true.1 h p hp) c hc

theorem notMem_flatMap {f : Piece → Text} {ps : List Piece} (h : ps.all Piece.inner = true)
    (hf : ∀ p : Piece, p.inner = true → ';' ∉ f p) : ';' ∉ ps.flatMap f := by
  intro hc
  obtain ⟨p, hp, hc⟩ := List.mem_flatMap.1 hc
  exact hf p (List.all_eq_true.1 h p hp) hc

theorem takeWhile_shown {u v : Text} (h : Shows u v) : u.takeWhile wordCont = v.takeWhile wordCont := by
  induction h with
  | nil => rfl
  | keep c h ih => rw [List.takeWhile_cons, List.takeWhile_cons, ih]
  | hide n hy h =>
    obtain ⟨⟨c, z, rfl, hword, -⟩, -⟩ := placeholder_cases hy
    rw [List.replicate_succ, List.cons_append, List.cons_append, List.takeWhile_cons_of_neg (by decide),
      List.takeWhile_cons_of_neg (by simp [hword])]

/-- The words of the scan are words of the visible text or a placeholder's, none of which is denied. -/
theorem deniedHits_shown {u v : Text} (h : Shows u v) (hu : deniedHits u = []) : deniedHits v = [] := by
  refine List.eq_nil_iff_forall_not_mem.2 fun d hd => ?_
  obtain ⟨hdeny, hword⟩ := mem_deniedHits.1 hd
  obtain ⟨x, hx, rfl⟩ := List.mem_map.1 hword
  rcases h.masks.mem_words hx with hx | rfl
  · have hmem : upperWord x ∈ deniedHits u := mem_deniedHits.2 ⟨hdeny, List.mem_map_of_mem hx⟩
    rw [hu] at hmem
    cases hmem
  · exact absurd hdeny (by decide)

section
variable {sql : Text} {front back stmt : List Piece} {c : Char} (h : Enclosed sql front c stmt back)
include h

/-- The statement that the guard reads in a text of framed pieces. -/
theorem Enclosed.splitStatements {f : Piece → Text} (hchar : f (.char c) = [c])
    (hidle : ∀ p : Piece, p.idle = true → Idling (f p)) (hinner : ∀ p : Piece, p.inner = true → ';' ∉ f p) :
    splitStatements ((front ++ .char c :: (stmt ++ back)).flatMap f) = [rstrip (c :: stmt.flatMap f)] := by
  obtain ⟨hspace, hne⟩ := isAlpha_not_space h.letter
  have hsemi : ';' ∉ c :: stmt.flatMap f := by
    rw [List.mem_cons, not_or]
    exact ⟨Ne.symm hne, notMem_flatMap h.inner hinner⟩
  have hsplit := splitStatements_frame (idling_flatMap h.front_idle hidle) (idling_flatMap h.back_idle hidle)
    hsemi rfl hspace
  simpa [hchar] using hsplit

theorem Enclosed.rstrip_scan : rstrip (c :: stmt.flatMap (Piece.after 5)) = c :: stmt.flatMap (Piece.after 5) := by
  have hlast := h.last_solid
  rcases List.eq_nil_or_concat' stmt with rfl | ⟨init, p, rfl⟩
  · exact List.rdropWhile_concat_neg isSpace [] c (by simp [(isAlpha_not_space h.letter).1])
  · rw [List.getLast?_concat, Option.all_some] at hlast
    obtain ⟨d, hd, hspace⟩ := p.getLast?_solid hlast
    obtain ⟨t, ht⟩ := List.getLast?_eq_some_iff.1 hd
    have hconcat : c :: (init ++ [p]).flatMap (Piece.after 5) = (c :: init.flatMap (Piece.after 5) ++ t) ++ [d] := by
      simp [ht]
    rw [hconcat]
    exact List.rdropWhile_concat_neg _ _ _ (by simp [hspace])

theorem Enclosed.scanAdmitted {U : Unicode} (hinnocent : Innocent U sql) : ScanAdmitted U sql := by
  obtain ⟨u, token, hstmt, htoken, hstart, hanalyze, hhit⟩ := hinnocent.admitted
  have hvisible := h.splitStatements (f := Piece.shown) rfl (fun p hp => (p.idling hp).1)
    fun p hp => (p.notMem_inner hp).1
  have hscan := h.splitStatements (f := Piece.after 5) rfl (fun p hp => (p.idling hp).2)
    fun p hp => (p.notMem_inner hp).2
  rw [← visible_after h.fit, h.text, hstmt] at hvisible
  obtain rfl := List.singleton_injective hvisible
  rw [h.rstrip_scan] at hscan
  have hshows : Shows (c :: stmt.flatMap Piece.shown) (c :: stmt.flatMap (Piece.after 5)) := .keep c (shows_pieces stmt)
  refine ⟨_, token, ?_, ?_, hstart, ?_, Or.inl (deniedHits_shown hshows ?_)⟩
  · rw [← h.text, scan_after h.fit]
    exact hscan
  · rw [firstToken_rstrip h.letter, takeWhile_shown (shows_pieces stmt)] at htoken
    rw [← htoken]
    exact firstToken_cons h.letter _
  · by_contra hscanAnalyze
    have hshown := explainAnalyze_shown hshows (p := none) id (Bool.eq_true_of_not_eq_false hscanAnalyze)
    rw [explainAnalyze_rstrip hshown] at hanalyze
    cases hanalyze
  · have hnone := hhit.resolve_right id
    rwa [deniedHits, words, rstrip, Words.words_rdropWhile not_word_of_isSpace] at hnone

end

/-! ## Accepted texts of layered regions -/

/-- The scan of a piece that is not idle begins with a character that is not. -/
theorem Piece.after_of_not_idle {p : Piece} (h : p.idle = false) :
    ∃ c s, p.after 5 = c :: s ∧ isSpace c = false ∧ c ≠ ';' ∧ (c.isAlpha = true → p = .char c) := by
  cases p with
  | char c =>
    obtain ⟨hspace, hne⟩ : isSpace c = false ∧ c ≠ ';' := by simpa [idle] using h
    exact ⟨c, [], rfl, hspace, hne, fun _ => rfl⟩
  | single _ => exact ⟨'\'', [' ', '\''], rfl, by decide, by decide, fun halpha => absurd halpha (by decide)⟩
  | double _ => exact ⟨'"', ['i', 'd', '"'], rfl, by decide, by decide, fun halpha => absurd halpha (by decide)⟩
  | line _ | block _ | dollar _ _ => cases h

/-- Only idle pieces leave no statement. -/
theorem idle_of_splitStatements_eq_nil {ps : List Piece} (h : splitStatements (after 5 ps) = []) :
    ps.all Piece.idle = true := by
  induction ps with
  | nil => rfl
  | cons p ps ih =>
    rw [after, List.flatMap_cons] at h
    cases hidle : p.idle with
    | true =>
      rw [splitStatements_idle_append (p.idling hidle).2] at h
      rw [List.all_cons, hidle, ih h, Bool.and_true]
    | false =>
      obtain ⟨c, s, hcons, hspace, hne, -⟩ := Piece.after_of_not_idle hidle
      obtain ⟨t, rest, hsplit⟩ := splitStatements_cons hspace hne (s ++ after 5 ps)
      rw [hcons, List.cons_append] at h
      cases hsplit.symm.trans h

/-- A statement that begins with a word follows idle pieces. -/
theorem exists_front {ps : List Piece} {stmt token : Text} (h : splitStatements (after 5 ps) = [stmt])
    (htoken : firstToken stmt = some token) :
    ∃ front c rest, ps = front ++ .char c :: rest ∧ front.all Piece.idle = true ∧ c.isAlpha = true := by
  induction ps with
  | nil => cases h
  | cons p ps ih =>
    rw [after, List.flatMap_cons] at h
    cases hidle : p.idle with
    | true =>
      rw [splitStatements_idle_append (p.idling hidle).2] at h
      obtain ⟨front, c, rest, rfl, hfront, hc⟩ := ih h
      exact ⟨p :: front, c, rest, rfl, by rw [List.all_cons, hidle, hfront, Bool.and_true], hc⟩
    | false =>
      obtain ⟨c, s, hcons, hspace, hne, hchar⟩ := Piece.after_of_not_idle hidle
      obtain ⟨t, rest, hsplit⟩ := splitStatements_cons hspace hne (s ++ after 5 ps)
      rw [hcons, List.cons_append] at h
      obtain ⟨rfl, -⟩ := List.cons_eq_cons.1 (hsplit.symm.trans h)
      have hc : c.isAlpha = true := by
        by_contra hc
        have hnone : firstToken (c :: t) = none := by
          rw [firstToken, List.dropWhile_cons_of_neg (by simp [hspace])]
          exact if_neg hc
        cases hnone.symm.trans htoken
      exact ⟨[], c, ps, by rw [hchar hc, List.nil_append], rfl, hc⟩

/-- Pieces of a statement end with a solid one and idle pieces behind it. -/
theorem exists_solid {ps : List Piece} (h : ps.all Piece.inner = true) :
    ∃ stmt tail, ps = stmt ++ tail ∧ stmt.all Piece.inner = true ∧ stmt.getLast?.all Piece.solid = true ∧
      tail.all Piece.idle = true := by
  induction ps using List.reverseRecOn with
  | nil => exact ⟨[], [], rfl, rfl, rfl, rfl⟩
  | append_singleton ps p ih =>
    cases hsolid : p.solid with
    | true => exact ⟨ps ++ [p], [], by simp, h, by simp [hsolid], rfl⟩
    | false =>
      rw [List.all_append, Bool.and_eq_true] at h
      obtain ⟨stmt, tail, rfl, hinner, hlast, htail⟩ := ih h.1
      have hidle : p.idle = true := by
        cases p with
        | char c => simpa [Piece.idle, Piece.solid] using Or.inl hsolid
        | single _ | double _ => cases hsolid
        | line _ | block _ | dollar _ _ => rfl
      exact ⟨stmt, tail ++ [p], by simp, hinner, hlast, by simp [List.all_append, htail, hidle]⟩

/-- Behind the semicolon of the only statement all pieces are idle. -/
theorem exists_back {rest : List Piece} {c : Char} {stmt : Text} (hc : c.isAlpha = true)
    (h : splitStatements (c :: after 5 rest) = [stmt]) :
    ∃ body back, rest = body ++ back ∧ body.all Piece.inner = true ∧ back.all Piece.idle = true := by
  obtain ⟨hspace, hne⟩ := isAlpha_not_space hc
  have hinner : (rest.takeWhile Piece.inner).all Piece.inner = true := List.all_takeWhile
  refine ⟨rest.takeWhile Piece.inner, rest.dropWhile Piece.inner, List.takeWhile_append_dropWhile.symm, hinner, ?_⟩
  cases hback : rest.dropWhile Piece.inner with
  | nil => rfl
  | cons p back =>
    have hp : p.inner = false := by
      have hhead := List.head?_dropWhile_not Piece.inner rest
      rwa [hback] at hhead
    obtain rfl : p = .char ';' := by
      cases p with
      | char d => rw [show d = ';' by simpa [Piece.inner] using hp]
      | line _ | block _ | single _ | double _ | dollar _ _ => cases hp
    have hrest : after 5 rest = after 5 (rest.takeWhile Piece.inner) ++ ';' :: after 5 back := by
      conv_lhs => rw [← List.takeWhile_append_dropWhile (p := Piece.inner) (l := rest), hback]
      simp [after, Piece.after]
    have hsemi : ';' ∉ after 5 (rest.takeWhile Piece.inner) := notMem_flatMap hinner fun p hp => (p.notMem_inner hp).2
    rw [hrest, ← List.cons_append, splitStatements_append_semicolon hspace hne hsemi] at h
    rw [List.all_cons, idle_of_splitStatements_eq_nil (List.cons_eq_cons.1 h).2]
    rfl

theorem layeredStatement_of_scanAdmitted {U : Unicode} {sql : Text} (hlayered : Layered sql)
    (h : ScanAdmitted U sql) : LayeredStatement sql := by
  obtain ⟨ps, hfit, rfl⟩ := hlayered
  obtain ⟨stmt, token, hstmt, htoken, -⟩ := h
  rw [scan_after hfit] at hstmt
  obtain ⟨front, c, rest, rfl, hfront, hc⟩ := exists_front hstmt htoken
  rw [after, List.flatMap_append, splitStatements_idle_append
    (idling_flatMap hfront fun p hp => (p.idling hp).2), List.flatMap_cons] at hstmt
  obtain ⟨body, back, rfl, hbody, hback⟩ := exists_back hc hstmt
  obtain ⟨inner, tail, rfl, hinner, hlast, htail⟩ := exists_solid hbody
  rw [List.append_assoc] at hfit ⊢
  have hbehind : (tail ++ back).all Piece.idle = true := by rw [List.all_append, htail, hback, Bool.and_true]
  exact ⟨front, c, inner, tail ++ back, hfit, rfl, hfront, hc, hinner, hlast, hbehind⟩

end RoboMeta
