/-
  When the text guard is sound.

  `Sound` is what an accepted text owes its reader: read by the reference
  lexer it is one statement, begins with the keyword reported and holds no
  denied word.  The guard does not lex, and `SELECT '--'; DROP TABLE x` passes
  it (`not_forall_sound`): the comment pass runs first and takes the opener
  inside the literal for a comment.

  * `ScanFaithful` compares the scan with the visible text: nothing the lexer
    shows and `check` looks for is lost in the five passes;
  * `sound_of_scanFaithful`: on accepted texts this is all soundness takes;
  * `StartsWithText.of_sound`: a sound text does not begin with a semicolon.
-/
import RoboMeta.ReferenceLexer

namespace RoboMeta

/-- What the report `r` promises of the visible text `vis`. -/
structure Sound (vis : Text) (r : GuardReport) : Prop where
  /-- No semicolon is followed by further text. -/
  oneStatement : ∀ u v, vis = u ++ ';' :: v → ∀ c ∈ v, isSpace c = true ∨ c = ';'
  firstWord : (words vis).head?.map upperWord = some r.leadingKeyword ∧ r.leadingKeyword ∈ allowedStarts
  noDenied : ∀ w ∈ words vis, upperWord w ∈ denyTokens →
    r.leadingKeyword = "EXPLAIN" ∧ upperWord w = "SET"

/-- The text does not begin with a visible semicolon. -/
def StartsWithText (sql : Text) : Prop := ∀ p ∈ ((visible sql).splitOn ';').head?, ¬ Blank p

/-- The scan shows what the lexer shows: `sql` does not begin with a visible
    semicolon, the scan falls into no fewer statements than the visible text,
    begins with the same word and has kept every denied word. -/
structure ScanFaithful (sql : Text) : Prop where
  startsWithText : StartsWithText sql
  statements : (splitStatements (visible sql)).length ≤
    (splitStatements (stripLiteralsForScan sql)).length
  firstWord : (words (visible sql)).head?.map upperWord =
    (words (stripLiteralsForScan sql)).head?.map upperWord
  denied : ∀ w ∈ words (visible sql), upperWord w ∈ denyTokens →
    upperWord w ∈ (words (stripLiteralsForScan sql)).map upperWord ∨
      (words (visible sql)).head?.map upperWord = some "EXPLAIN" ∧ upperWord w = "SET"

/-! ## One statement -/

theorem filter_strip_eq_nil {ps : List Text} :
    ((ps.map strip).filter fun p => !p.isEmpty) = [] ↔ ∀ p ∈ ps, Blank p := by
  simp [List.filter_eq_nil_iff, strip_eq_nil]

/-- Behind a first piece with text in it, one statement means that only blank
    pieces follow. -/
theorem splitStatements_length_le_one {s : Text} (h : ∀ p ∈ (s.splitOn ';').head?, ¬ Blank p) :
    (splitStatements s).length ≤ 1 ↔ ∀ p ∈ (s.splitOn ';').tail, Blank p := by
  rw [splitStatements]
  cases hps : s.splitOn ';' with
  | nil => exact absurd hps (by simp)
  | cons p ps =>
    have hp : strip p ≠ [] := mt strip_eq_nil.1 (h p (by simp [hps]))
    rw [List.map_cons, List.filter_cons_of_pos (by simpa using hp), List.tail_cons,
      ← filter_strip_eq_nil]
    simp

theorem startsWithText_of_word {s w : Text} (hw : (words s).head? = some w)
    (h : ∀ p ∈ (s.splitOn ';').tail, Blank p) : ∀ p ∈ (s.splitOn ';').head?, ¬ Blank p := by
  have hblank : ∀ p, Blank p → words p = [] := fun p hp =>
    Words.words_of_sep fun c hc => (not_word_of_isSpace c (hp c hc)).1
  intro p hp hb
  have hnil : words s = [] := by
    rw [words, ← Words.flatMap_words_splitOn (a := ';') (by decide) (by decide),
      List.flatMap_eq_nil_iff]
    intro q hq
    cases hps : s.splitOn ';' with
    | nil => rw [hps] at hq; cases hq
    | cons p' ps =>
      simp only [hps, List.head?_cons, Option.mem_def, Option.some.injEq, List.tail_cons] at hp h
      subst hp
      rw [hps] at hq
      rcases List.mem_cons.1 hq with rfl | hq
      · exact hblank _ hb
      · exact hblank _ (h q hq)
  rw [hnil] at hw
  cases hw

theorem oneStatement_iff (s : Text) :
    (∀ u v, s = u ++ ';' :: v → ∀ c ∈ v, isSpace c = true ∨ c = ';') ↔
      ∀ p ∈ (s.splitOn ';').tail, Blank p :=
  Words.forall_behind_iff s

/-! ## Soundness -/

section
variable {U : Unicode} {sql : String} {r : GuardReport}

theorem sound_of_scanFaithful (h : check U sql = .ok r) (hfaithful : ScanFaithful sql.toList) :
    Sound (visible sql.toList) r := by
  obtain ⟨hone, hfirst, hstart, hdeny⟩ := scan_of_check h
  obtain ⟨htext, hst, hf, hd⟩ := hfaithful
  have hf := hf.trans hfirst
  rw [hone] at hst
  refine ⟨(oneStatement_iff _).2 ((splitStatements_length_le_one htext).1 hst), ⟨hf, hstart⟩,
    fun w hw hden => ?_⟩
  rcases hd w hw hden with hkept | ⟨hexp, hset⟩
  · exact hdeny _ hden hkept
  · rw [hf] at hexp; exact ⟨Option.some.inj hexp, hset⟩

theorem StartsWithText.of_sound (h : Sound (visible sql.toList) r) : StartsWithText sql.toList := by
  obtain ⟨w, hw, -⟩ := Option.map_eq_some_iff.1 h.firstWord.1
  exact startsWithText_of_word hw ((oneStatement_iff _).1 h.oneStatement)

end

end RoboMeta
