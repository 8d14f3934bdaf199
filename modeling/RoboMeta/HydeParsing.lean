/-
  The answer of the language model (`_strip_code_fences`,
  `_try_parse_hyde_json`).

  A code fence around the answer is dropped line by line, and what is left is
  read as JSON: in whole or, if that raises, from the first to the last brace.

  * `jsonLoads`: the value of a text, given by the text without its blanks;
  * `Unharmed`: the lines of the fence hold no brace, no line of the object
    ends where only `splitlines` sees an end, and what is left is no other
    JSON value;
  * `parsesAlike_iff`: the object is read from the wrapped text as from its own
    iff the text is unharmed.
-/
import RoboMeta.Lib.JsonText
import RoboMeta.Lib.Lines
import RoboMeta.Python

namespace RoboMeta

open JsonText Lines

/-! ## The parser -/

section
variable (readable : Text → Bool)

/-- `json.loads`, the value given by its text without blanks; `readable` are
    the values within the limits of the interpreter, in depth and in digits. -/
def jsonLoads (s : Text) : Option Text := (compact s).filter readable

def fence : Text := "```".toList

/-- `len(lines) >= 2 and lines[-1].strip().startswith("```")` -/
def fenceCloses (lines : List Text) : Bool :=
  2 ≤ lines.length && fence.isPrefixOf (strip (lines.getLastD []))

/-- `lines[1:-1]`, or `lines[1:]` where the fence does not close. -/
def fenceBody (lines : List Text) : List Text :=
  if fenceCloses lines then lines.tail.dropLast else lines.tail

/-- `_strip_code_fences` -/
def stripCodeFences (text : Text) : Text :=
  let s := strip text
  if s = [] then []
  else if fence.isPrefixOf s then strip (join (fenceBody (splitlines s)))
  else s

/-- `s[left: right + 1]` for the first `{` and the last `}`, if the one stands
    before the other. -/
def braceSpan (s : Text) : Option Text :=
  let span := (s.dropWhile (· != '{')).rdropWhile (· != '}')
  if span = [] then none else some span

/-- The `dict` that is read. -/
def loadObject (s : Text) : Option Text :=
  ((jsonLoads readable s).or ((braceSpan s).bind (jsonLoads readable))).filter (IsObject ·)

/-- `_try_parse_hyde_json`, with `validate` for `HydeSchemaOut.model_validate`. -/
def tryParseHydeJson {H : Type} (validate : Text → Option H) (text : Text) : Option H :=
  let s := stripCodeFences text
  if s = [] then none else (loadObject readable s).bind validate

end

/-! ## The span of the braces -/

theorem braceSpan_eq_some {s x : Text} :
    braceSpan s = some x ↔
      ∃ a t b, x = '{' :: t ++ ['}'] ∧ '{' ∉ a ∧ '}' ∉ b ∧ s = a ++ '{' :: t ++ '}' :: b := by
  constructor
  · intro h
    simp only [braceSpan] at h
    split_ifs at h with hne
    obtain ⟨c, u, hu⟩ := List.exists_cons_of_ne_nil hne
    have hrest : (s.dropWhile (· != '{')).rdropWhile (· != '}') ++ (s.dropWhile (· != '{')).rtakeWhile (· != '}') =
        s.dropWhile (· != '{') := List.rdropWhile_append_rtakeWhile
    have hc : c = '{' := by
      have hnot := List.head?_dropWhile_not (· != '{') s
      rw [← hrest, hu] at hnot
      simpa using hnot
    have hlast := List.rdropWhile_last_not (· != '}') _ hne
    have hunil : u ≠ [] := by
      rintro rfl
      simp only [hu] at hlast
      simp [hc] at hlast
    have hend : u.getLast hunil = '}' := by
      simp only [hu] at hlast
      rw [List.getLast_cons hunil] at hlast
      simpa using hlast
    have hspan : c :: u = '{' :: u.dropLast ++ ['}'] := by
      rw [hc, List.cons_append, ← hend, List.dropLast_append_getLast]
    refine ⟨s.takeWhile (· != '{'), u.dropLast, (s.dropWhile (· != '{')).rtakeWhile (· != '}'), ?_, ?_, ?_, ?_⟩
    · rw [← Option.some.inj h, hu, hspan]
    · exact fun hmem => absurd (List.mem_takeWhile_imp hmem) (by decide)
    · exact fun hmem => absurd (List.mem_rtakeWhile_imp hmem) (by decide)
    · conv_lhs => rw [← List.takeWhile_append_dropWhile (p := (· != '{')) (l := s), ← hrest, hu, hspan]
      simp
  · rintro ⟨a, t, b, rfl, ha, hb, rfl⟩
    have hdrop : (a ++ '{' :: t ++ '}' :: b).dropWhile (· != '{') = '{' :: t ++ ['}'] ++ b := by
      rw [List.append_assoc, List.dropWhile_append_of_pos fun c hc => by simpa using ne_of_mem_of_not_mem hc ha]
      simp
    have hspan : ('{' :: t ++ ['}'] ++ b).rdropWhile (· != '}') = '{' :: t ++ ['}'] := by
      rw [rdropWhile_append_of_forall _ fun c hc => by simpa using ne_of_mem_of_not_mem hc hb]
      exact List.rdropWhile_concat_neg _ _ _ (by decide)
    simp only [braceSpan, hdrop, hspan]
    exact if_neg (List.cons_ne_nil _ _)

theorem infix_of_braceSpan {s x : Text} (h : braceSpan s = some x) : x <:+: s := by
  obtain ⟨a, t, b, rfl, -, -, rfl⟩ := braceSpan_eq_some.1 h
  exact ⟨a, b, by simp⟩

def isBrace (c : Char) : Bool := c == '{' || c == '}'

theorem isBrace_eq_false {p : Char → Bool} (hopen : p '{' = false) (hclose : p '}' = false) {c : Char}
    (hc : p c = true) : isBrace c = false := by
  cases h : isBrace c with
  | false => rfl
  | true =>
    rw [isBrace, Bool.or_eq_true, beq_iff_eq, beq_iff_eq] at h
    rcases h with rfl | rfl
    · rw [hopen] at hc
      cases hc
    · rw [hclose] at hc
      cases hc

/-- Without a brace. -/
def Bare (s : Text) : Prop := ∀ c ∈ s, isBrace c = false

instance (s : Text) : Decidable (Bare s) := List.decidableBAll (fun c => isBrace c = false) s

theorem braceSpan_append {a b : Text} (ha : Bare a) (hb : Bare b) (s : Text) :
    braceSpan (a ++ s ++ b) = braceSpan s := by
  have hb' : ∀ c ∈ b, (c != '{') = true ∧ (c != '}') = true := fun c hc => by
    have h := hb c hc
    rw [isBrace, Bool.or_eq_false_iff] at h
    exact ⟨by simpa using h.1, by simpa using h.2⟩
  have hdrop : (a ++ s ++ b).dropWhile (· != '{') = (s ++ b).dropWhile (· != '{') := by
    rw [List.append_assoc, List.dropWhile_append_of_pos fun c hc => ?_]
    have h := ha c hc
    rw [isBrace, Bool.or_eq_false_iff] at h
    simpa using h.1
  have hspan : ((s ++ b).dropWhile (· != '{')).rdropWhile (· != '}') =
      (s.dropWhile (· != '{')).rdropWhile (· != '}') := by
    rw [List.dropWhile_append]
    split_ifs with hs
    · rw [List.isEmpty_iff.1 hs, List.dropWhile_eq_nil_iff.2 fun c hc => (hb' c hc).1]
    · exact rdropWhile_append_of_forall _ fun c hc => (hb' c hc).2
  simp only [braceSpan, hdrop, hspan]

theorem Blank.bare {s : Text} (hs : Blank s) : Bare s := fun c hc => isBrace_eq_false rfl rfl (hs c hc)

theorem braceSpan_strip (s : Text) : braceSpan (strip s) = braceSpan s := by
  obtain ⟨a, b, ha, hb, hs⟩ := exists_append_strip s
  conv_rhs => rw [hs]
  exact (braceSpan_append ha.bare hb.bare _).symm

theorem braceSpan_join {lines : List Text} : braceSpan (join lines) = braceSpan (unlines lines) := by
  rcases eq_or_ne lines [] with rfl | hne
  · rfl
  · rw [unlines_eq_join hne]
    exact (braceSpan_append (a := []) (fun _ => List.not_mem_nil.elim) (by simp [Bare, isBrace]) _).symm

theorem normal_braces (a t b : Text) :
    normal (a ++ '{' :: t ++ '}' :: b) = normal a ++ '{' :: normal t ++ '}' :: normal b := by
  rw [normal_append_cons _ rfl, normal_append_cons _ rfl]

theorem braceSpan_normal {s x : Text} (h : braceSpan s = some x) : braceSpan (normal s) = some (normal x) := by
  obtain ⟨a, t, b, rfl, ha, hb, rfl⟩ := braceSpan_eq_some.1 h
  have hmem {c : Char} {w : Text} (hc : c ≠ '\n') (hw : c ∉ w) : c ∉ normal w := fun hin =>
    (mem_normalFrom hin).elim hc fun hin => hw hin.1
  exact braceSpan_eq_some.2 ⟨normal a, normal t, normal b, normal_braces [] t [],
    hmem (by decide) ha, hmem (by decide) hb, normal_braces a t b⟩

/-! ## The object that is read -/

/-- `json.loads` reads the line ends of a text alike, if they are line feeds
    and carriage returns. -/
theorem run_normalFrom {s : Text} (hs : ∀ c ∈ s, isBreak c = true → c = '\n' ∨ c = '\r') {cr : Bool} {σ : State}
    (hσ : cr = true → step σ '\n' = some σ) : run σ (normalFrom cr s) = run σ s := by
  induction s generalizing cr σ with
  | nil => rfl
  | cons c s ih =>
    have hrest : ∀ d ∈ s, isBreak d = true → d = '\n' ∨ d = '\r' := fun d hd => hs d (List.mem_cons_of_mem _ hd)
    rw [normalFrom]
    split_ifs with hcr hc
    · rw [run_cons, hcr.2, hσ hcr.1]
      exact ih hrest fun h => absurd h (by decide)
    · have hstep : step σ c = step σ '\n' := by
        rcases hs c List.mem_cons_self hc with rfl | rfl
        · rfl
        · exact step_lineFeed σ
      rw [run_cons, run_cons, hstep]
      cases hτ : step σ '\n' with
      | none => rfl
      | some τ => exact ih hrest fun _ => step_blank rfl (quiet_of_step_lineFeed hτ)
    · rw [run_cons, run_cons]
      cases step σ c with
      | none => rfl
      | some τ => exact ih hrest fun h => absurd h (by decide)

theorem compact_normal {s : Text} (hs : ∀ c ∈ s, isBreak c = true → c = '\n' ∨ c = '\r') :
    compact (normal s) = compact s := by
  rw [compact, normal, run_normalFrom hs fun h => absurd h (by decide), compact]

section
variable {readable : Text → Bool}

theorem jsonLoads_eq_some {s v : Text} : jsonLoads readable s = some v ↔ compact s = some v ∧ readable v = true :=
  Option.filter_eq_some_iff

theorem isSpace_of_isBlank {c : Char} (hc : JsonText.isBlank c = true) : isSpace c = true := by
  simp only [JsonText.isBlank, Bool.or_eq_true, beq_iff_eq] at hc
  rcases hc with ((rfl | rfl) | rfl) | rfl <;> rfl

theorem blank_of_jsonBlank {s : Text} (hs : JsonText.Blank s) : Blank s := fun c hc => isSpace_of_isBlank (hs c hc)

theorem strip_eq {a b t : Text} {c d : Char} (ha : Blank a) (hb : Blank b) (hc : isSpace c = false)
    (hd : isSpace d = false) : strip (a ++ (c :: t ++ [d]) ++ b) = c :: t ++ [d] := by
  have hdrop : (a ++ (c :: t ++ [d]) ++ b).dropWhile isSpace = c :: t ++ [d] ++ b := by
    rw [List.append_assoc, List.dropWhile_append_of_pos ha]
    exact List.dropWhile_cons_of_neg (by simp [hc])
  rw [strip, hdrop, rstrip, rdropWhile_append_of_forall _ hb]
  exact List.rdropWhile_concat_neg _ _ _ (by simp [hd])

/-- An object that is read in whole stands between the first and the last brace,
    in white space. -/
theorem span_of_jsonLoads {s v : Text} (h : jsonLoads readable s = some v) (hv : IsObject v) :
    braceSpan s = some (strip s) ∧ jsonLoads readable (strip s) = some v := by
  obtain ⟨hcompact, hreadable⟩ := jsonLoads_eq_some.1 h
  obtain ⟨a, t, b, ha, hb, rfl, hspan⟩ := braces_of_compact hcompact hv
  have hstrip : strip (a ++ '{' :: t ++ '}' :: b) = '{' :: t ++ ['}'] := by
    have hsplit : a ++ '{' :: t ++ '}' :: b = a ++ ('{' :: t ++ ['}']) ++ b := by simp
    rw [hsplit, strip_eq (blank_of_jsonBlank ha) (blank_of_jsonBlank hb) rfl rfl]
  rw [hstrip]
  refine ⟨braceSpan_eq_some.2 ⟨a, t, b, rfl, ?_, ?_, rfl⟩, jsonLoads_eq_some.2 ⟨hspan, hreadable⟩⟩
  · exact fun hmem => absurd (ha _ hmem) (by decide)
  · exact fun hmem => absurd (hb _ hmem) (by decide)

theorem strip_normal {s v : Text} (h : jsonLoads readable s = some v) (hv : IsObject v) :
    strip (normal s) = normal (strip s) := by
  obtain ⟨a, t, b, ha, hb, rfl, -⟩ := braces_of_compact (jsonLoads_eq_some.1 h).1 hv
  have hblank {w : Text} (hw : JsonText.Blank w) : Blank (normal w) := fun c hc => by
    rcases mem_normalFrom hc with rfl | ⟨hc, -⟩
    · rfl
    · exact blank_of_jsonBlank hw c hc
  have hsplit (a t b : Text) : a ++ '{' :: t ++ '}' :: b = a ++ ('{' :: t ++ ['}']) ++ b := by simp
  rw [normal_braces, hsplit, hsplit, strip_eq (blank_of_jsonBlank ha) (blank_of_jsonBlank hb) rfl rfl,
    strip_eq (hblank ha) (hblank hb) rfl rfl]
  exact (normal_braces [] t []).symm

theorem loadObject_of_span {s x v : Text} (hx : braceSpan s = some x) (hload : jsonLoads readable x = some v)
    (hv : IsObject v) (hwhole : ∀ w, jsonLoads readable s = some w → IsObject w) : loadObject readable s = some v := by
  have hor : (jsonLoads readable s).or ((braceSpan s).bind (jsonLoads readable)) = some v := by
    cases hs : jsonLoads readable s with
    | none => rw [Option.none_or, hx, Option.bind_some, hload]
    | some w =>
      obtain ⟨hspan, hw⟩ := span_of_jsonLoads hs (hwhole w hs)
      rw [hx] at hspan
      cases hspan
      rw [Option.some_or, ← hw, hload]
  rw [loadObject, hor, Option.filter_some, if_pos (by simpa using hv)]

/-- What is read is part of the text. -/
theorem infix_of_loadObject {s v : Text} (h : loadObject readable s = some v) :
    IsObject v ∧ ∃ x, x <:+: s ∧ compact x = some v := by
  obtain ⟨hor, hv⟩ := Option.filter_eq_some_iff.1 h
  refine ⟨by simpa using hv, ?_⟩
  rcases Option.or_eq_some_iff.1 hor with hs | ⟨-, hs⟩
  · exact ⟨s, List.infix_rfl, (jsonLoads_eq_some.1 hs).1⟩
  · obtain ⟨x, hx, hload⟩ := Option.bind_eq_some_iff.1 hs
    exact ⟨x, infix_of_braceSpan hx, (jsonLoads_eq_some.1 hload).1⟩

end

/-! ## The fence -/

/-- The lines that are dropped. -/
def fenceLines (lines : List Text) : List Text :=
  lines.head?.toList ++ if fenceCloses lines then lines.getLast?.toList else []

theorem fenceLines_body (lines : List Text) :
    ∃ first last, fenceLines lines = first ++ last ∧ lines = first ++ fenceBody lines ++ last := by
  refine ⟨lines.head?.toList, if fenceCloses lines then lines.getLast?.toList else [], rfl, ?_⟩
  rw [fenceBody]
  split_ifs with hcloses
  · rw [fenceCloses, Bool.and_eq_true, decide_eq_true_eq] at hcloses
    match lines, hcloses with
    | l :: l' :: ls, _ =>
      have hne : l' :: ls ≠ [] := List.cons_ne_nil _ _
      have hlast : (l' :: ls).dropLast ++ [(l' :: ls).getLast hne] = l' :: ls := List.dropLast_append_getLast hne
      rw [List.getLast?_cons_cons, List.getLast?_eq_some_getLast hne, List.append_assoc]
      exact congrArg (l :: ·) hlast.symm
  · cases lines with
    | nil => rfl
    | cons l ls => exact (List.append_nil _).symm

/-- Wrapping does no harm: a fence leaves the object and its lines alone, and
    what is left of the text is not another value. -/
structure Unharmed (readable : Text → Bool) (j text : Text) : Prop where
  fenceBare : fence <+: strip text → ∀ line ∈ fenceLines (splitlines (strip text)), Bare line
  lineEnds : fence <+: strip text → ∀ c ∈ j, isBreak c = true → c = '\n' ∨ c = '\r'
  whole : ∀ v, jsonLoads readable (stripCodeFences text) = some v → IsObject v

theorem stripCodeFences_of_fence {text : Text} (h : fence <+: strip text) :
    stripCodeFences text = strip (join (fenceBody (splitlines (strip text)))) := by
  have hne : strip text ≠ [] := by
    intro hnil
    rw [hnil] at h
    exact absurd (List.prefix_nil.1 h) (by decide)
  simp only [stripCodeFences]
  rw [if_neg hne, if_pos (List.isPrefixOf_iff_prefix.2 h)]

theorem stripCodeFences_of_no_fence {text : Text} (h : ¬ fence <+: strip text) :
    stripCodeFences text = strip text := by
  simp only [stripCodeFences]
  split_ifs with hnil hfence
  · exact hnil.symm
  · exact absurd (List.isPrefixOf_iff_prefix.1 hfence) h
  · rfl

theorem bare_unlines {lines : List Text} : Bare (unlines lines) ↔ ∀ line ∈ lines, Bare line := by
  constructor
  · exact fun h line hline c hc => h c (List.mem_flatMap.2 ⟨line, hline, List.mem_append_left _ hc⟩)
  · intro h c hc
    obtain ⟨line, hline, hc⟩ := List.mem_flatMap.1 hc
    rcases List.mem_append.1 hc with hc | hc
    · exact h line hline c hc
    · rw [List.mem_singleton.1 hc]
      rfl

/-- Where the fence holds no brace, the object is left with other line ends. -/
theorem braceSpan_fenceBody {s x : Text} (hx : braceSpan s = some x)
    (h : ∀ line ∈ fenceLines (splitlines s), Bare line) :
    braceSpan (join (fenceBody (splitlines s))) = some (normal x) := by
  obtain ⟨first, last, hfence, hlines⟩ := fenceLines_body (splitlines s)
  rw [hfence] at h
  have hfirst : Bare (unlines first) := bare_unlines.2 fun l hl => h l (List.mem_append_left _ hl)
  have hlast : Bare (unlines last) := bare_unlines.2 fun l hl => h l (List.mem_append_right _ hl)
  have hnil : Bare [] := fun _ => List.not_mem_nil.elim
  calc braceSpan (join (fenceBody (splitlines s)))
      = braceSpan (unlines (fenceBody (splitlines s))) := braceSpan_join
    _ = braceSpan (unlines (splitlines s)) := by
        conv_rhs => rw [hlines, unlines_append, unlines_append]
        exact (braceSpan_append hfirst hlast _).symm
    _ = braceSpan (normal s) := by
        rcases unlines_splitlines s with heq | heq
        · rw [heq]
        · rw [heq]
          exact braceSpan_append hnil (by simp [Bare, isBrace]) _
    _ = some (normal x) := braceSpan_normal hx

/-- Nothing that is not blank is gained between the fence. -/
theorem countP_of_fence {readable : Text → Bool} {text v : Text} {p : Char → Bool}
    (hp : ∀ c, JsonText.isBlank c = true → p c = false) (hfence : fence <+: strip text)
    (h : loadObject readable (stripCodeFences text) = some v) :
    v.countP p ≤ (unlines (fenceBody (splitlines (strip text)))).countP p := by
  obtain ⟨-, x, hx, hv⟩ := infix_of_loadObject h
  rw [stripCodeFences_of_fence hfence] at hx
  set lines := fenceBody (splitlines (strip text))
  have hjoin : join lines <+: unlines lines := by
    rcases eq_or_ne lines [] with hnil | hne
    · rw [hnil]
      exact List.prefix_rfl
    · exact unlines_eq_join hne ▸ List.prefix_append _ _
  calc v.countP p = x.countP p := countP_compact hp hv
    _ ≤ (strip (join lines)).countP p := hx.sublist.countP_le
    _ ≤ (join lines).countP p := ((List.rdropWhile_prefix _ _).sublist.trans (List.dropWhile_sublist _)).countP_le
    _ ≤ (unlines lines).countP p := hjoin.sublist.countP_le

theorem bare_iff_countP {s : Text} : Bare s ↔ s.countP isBrace = 0 := by
  rw [List.countP_eq_zero]
  exact forall₂_congr fun _ _ => Bool.eq_false_iff

theorem countP_isBrace_splitlines (s : Text) : (unlines (splitlines s)).countP isBrace = s.countP isBrace := by
  have hnormal : (normal s).countP isBrace = s.countP isBrace :=
    countP_normalFrom (fun c hc => isBrace_eq_false rfl rfl hc) false s
  rcases unlines_splitlines s with heq | heq
  · rw [heq, hnormal]
  · rw [heq, List.countP_append, hnormal]
    rfl

theorem countP_isBrace_strip (s : Text) : (strip s).countP isBrace = s.countP isBrace := by
  obtain ⟨a, b, ha, hb, hs⟩ := exists_append_strip s
  have hcount := congrArg (List.countP isBrace) hs
  rw [List.countP_append, List.countP_append, bare_iff_countP.1 ha.bare, bare_iff_countP.1 hb.bare] at hcount
  omega

/-- If all braces are left between the fence, it holds none. -/
theorem bare_of_countP {lines : List Text}
    (h : (unlines lines).countP isBrace ≤ (unlines (fenceBody lines)).countP isBrace) :
    ∀ line ∈ fenceLines lines, Bare line := by
  obtain ⟨first, last, hfence, hlines⟩ := fenceLines_body lines
  have hall : (unlines lines).countP isBrace = (unlines first).countP isBrace +
      (unlines (fenceBody lines)).countP isBrace + (unlines last).countP isBrace := by
    conv_lhs => rw [hlines, unlines_append, unlines_append, List.countP_append, List.countP_append]
  have hfirst : Bare (unlines first) := bare_iff_countP.2 (by omega)
  have hlast : Bare (unlines last) := bare_iff_countP.2 (by omega)
  intro line hline
  rw [hfence] at hline
  exact (List.mem_append.1 hline).elim (bare_unlines.1 hfirst line) (bare_unlines.1 hlast line)

/-- Ends a line, but no line of JSON. -/
def isOtherBreak (c : Char) : Bool := isBreak c && c != '\n' && c != '\r'

theorem isOtherBreak_eq_false {c : Char} (hc : JsonText.isBlank c = true) : isOtherBreak c = false := by
  simp only [JsonText.isBlank, Bool.or_eq_true, beq_iff_eq] at hc
  rcases hc with ((rfl | rfl) | rfl) | rfl <;> rfl

/-- Between the fence only line feeds are left of the line ends. -/
theorem countP_isOtherBreak_fenceBody (s : Text) : (unlines (fenceBody (splitlines s))).countP isOtherBreak = 0 := by
  obtain ⟨first, last, -, hlines⟩ := fenceLines_body (splitlines s)
  refine List.countP_eq_zero.2 fun c hc hother => ?_
  rw [isOtherBreak, Bool.and_eq_true, Bool.and_eq_true, bne_iff_ne] at hother
  have hmem : c ∈ unlines (splitlines s) := by
    rw [hlines, unlines_append, unlines_append]
    exact List.mem_append_left _ (List.mem_append_right _ hc)
  have hnormal : c ∉ normal s := fun hmem => (mem_normalFrom hmem).elim hother.1.2 fun hno => by
    rw [hother.1.1] at hno
    cases hno.2
  rcases unlines_splitlines s with heq | heq
  · exact hnormal (heq ▸ hmem)
  · rw [heq] at hmem
    exact (List.mem_append.1 hmem).elim hnormal fun hfeed => hother.1.2 (List.mem_singleton.1 hfeed)

/-! ## The answer -/

section
variable {readable : Text → Bool}

theorem tryParseHydeJson_eq {H : Type} (validate : Text → Option H) (text : Text) :
    tryParseHydeJson readable validate text = (loadObject readable (stripCodeFences text)).bind validate := by
  simp only [tryParseHydeJson]
  split_ifs with hnil
  · have hnone : loadObject readable [] = none := by
      cases h : loadObject readable [] with
      | none => rfl
      | some v =>
        obtain ⟨-, x, hx, hcompact⟩ := infix_of_loadObject h
        rw [List.infix_nil.1 hx] at hcompact
        cases hcompact
    rw [hnil, hnone]
    rfl
  · rfl

theorem tryParseHydeJson_object {j v : Text} (hj : jsonLoads readable j = some v) (hv : IsObject v) {H : Type}
    (validate : Text → Option H) : tryParseHydeJson readable validate j = validate v := by
  obtain ⟨hspan, hload⟩ := span_of_jsonLoads hj hv
  have hfence : ¬ fence <+: strip j := by
    obtain ⟨a, t, b, heq, -, -, -⟩ := braceSpan_eq_some.1 hspan
    rw [heq]
    exact fun h => absurd (List.cons_prefix_cons.1 h).1 (by decide)
  have hstrip : braceSpan (strip j) = some (strip j) := by rw [braceSpan_strip, hspan]
  have hobject : loadObject readable (strip j) = some v :=
    loadObject_of_span hstrip hload hv fun w hw => by
      rw [hload] at hw
      cases hw
      exact hv
  rw [tryParseHydeJson_eq, stripCodeFences_of_no_fence hfence, hobject]
  rfl

end

/-- Whatever `validate` makes of the object, it is made of the text, too. -/
def ParsesAlike (readable : Text → Bool) (j v text : Text) : Prop :=
  ∀ (H : Type) (validate : Text → Option H), (validate v).isSome →
    tryParseHydeJson readable validate text = tryParseHydeJson readable validate j ∧
      tryParseHydeJson readable validate text ≠ none

section
variable {readable : Text → Bool} {j v pre post : Text} (hj : jsonLoads readable j = some v) (hv : IsObject v)
  (hpre : Bare pre) (hpost : Bare post)
include hj hv hpre hpost

theorem loadObject_of_unharmed (h : Unharmed readable j (pre ++ j ++ post)) :
    loadObject readable (stripCodeFences (pre ++ j ++ post)) = some v := by
  obtain ⟨hx, hload⟩ := span_of_jsonLoads hj hv
  have hspan : braceSpan (strip (pre ++ j ++ post)) = some (strip j) := by
    rw [braceSpan_strip, braceSpan_append hpre hpost, hx]
  by_cases hfence : fence <+: strip (pre ++ j ++ post)
  · have hnormal : jsonLoads readable (normal (strip j)) = some v := by
      rw [jsonLoads, compact_normal fun c hc => h.lineEnds hfence c (mem_of_mem_strip hc)]
      exact hload
    refine loadObject_of_span ?_ hnormal hv h.whole
    rw [stripCodeFences_of_fence hfence, braceSpan_strip]
    exact braceSpan_fenceBody hspan (h.fenceBare hfence)
  · refine loadObject_of_span ?_ hload hv h.whole
    rw [stripCodeFences_of_no_fence hfence, hspan]

omit hv in
theorem unharmed_of_loadObject (h : loadObject readable (stripCodeFences (pre ++ j ++ post)) = some v) :
    Unharmed readable j (pre ++ j ++ post) := by
  have hcompact := (jsonLoads_eq_some.1 hj).1
  refine ⟨fun hfence => bare_of_countP ?_, fun hfence c hc hbreak => ?_, fun w hw => ?_⟩
  · -- The braces of the text are those of the object, and all of them are read.
    have hblank : ∀ c, JsonText.isBlank c = true → isBrace c = false := fun c hc => isBrace_eq_false rfl rfl hc
    have hread := countP_of_fence hblank hfence h
    rw [countP_compact hblank hcompact] at hread
    rw [countP_isBrace_splitlines, countP_isBrace_strip, List.countP_append, List.countP_append,
      bare_iff_countP.1 hpre, bare_iff_countP.1 hpost]
    omega
  · have hread := countP_of_fence (fun _ => isOtherBreak_eq_false) hfence h
    rw [countP_compact (fun _ => isOtherBreak_eq_false) hcompact, countP_isOtherBreak_fenceBody] at hread
    have hno := List.countP_eq_zero.1 (Nat.le_zero.1 hread) c hc
    by_contra hne
    rw [not_or] at hne
    exact hno (by simp [isOtherBreak, hbreak, hne])
  · rw [loadObject, hw, Option.some_or] at h
    obtain ⟨heq, hobject⟩ := Option.filter_eq_some_iff.1 h
    cases heq
    simpa using hobject

/-- The object is read from the text around it as from its own iff the text is
    unharmed. -/
theorem parsesAlike_iff : ParsesAlike readable j v (pre ++ j ++ post) ↔ Unharmed readable j (pre ++ j ++ post) := by
  constructor
  · intro h
    obtain ⟨halike, -⟩ := h Text some rfl
    rw [tryParseHydeJson_object hj hv, tryParseHydeJson_eq, Option.bind_fun_some] at halike
    exact unharmed_of_loadObject hj hpre hpost halike
  · intro h H validate hsome
    rw [tryParseHydeJson_object hj hv, tryParseHydeJson_eq, loadObject_of_unharmed hj hv hpre hpost h, Option.bind_some]
    exact ⟨rfl, fun hnone => by rw [hnone] at hsome; cases hsome⟩

end

theorem strip_fenced (s : Text) : strip (fence ++ s ++ fence) = fence ++ s ++ fence := by
  obtain ⟨tick, hfence, htick⟩ : ∃ tick, fence = [tick, tick, tick] ∧ isSpace tick = false :=
    ⟨Char.ofNat 96, rfl, rfl⟩
  have hnil : Blank [] := fun _ => List.not_mem_nil.elim
  have hends := strip_eq (t := tick :: tick :: s ++ [tick, tick]) hnil hnil htick htick
  rw [hfence]
  simpa using hends

/-- The lines of an answer in a fence on lines of its own. -/
theorem splitlines_block {tag : Text} (htag : ∀ c ∈ tag, isBreak c = false) (j : Text) :
    ∃ lines, splitlines (fence ++ (tag ++ '\n' :: j ++ ['\n']) ++ fence) = (fence ++ tag) :: (lines ++ [fence]) ∧
      strip (join lines) = strip (normal j) := by
  have hone : splitFrom false fence = [fence] := by decide
  obtain ⟨lines, hsplit, hne, hun⟩ := splitFrom_last hone false j
  have hfence : ∀ c ∈ fence, isBreak c = false := fun c hc => by
    rw [List.eq_of_mem_replicate (show c ∈ List.replicate 3 (Char.ofNat 96) from hc)]
    rfl
  have htext : fence ++ (tag ++ '\n' :: j ++ ['\n']) ++ fence = fence ++ tag ++ '\n' :: (j ++ '\n' :: fence) := by
    simp
  refine ⟨lines, ?_, ?_⟩
  · rw [htext, splitlines, splitFrom_line fun c hc => (List.mem_append.1 hc).elim (hfence c) (htag c), hsplit]
  · have hfeed : Blank ['\n'] := fun c hc => by
      rw [List.mem_singleton.1 hc]
      rfl
    calc strip (join lines) = strip (unlines lines) := by
          rw [unlines_eq_join (hne rfl), strip_append_blank _ hfeed]
      _ = strip (normal j) := by
          rcases hun with heq | heq
          · rw [heq, normal]
          · rw [heq, strip_append_blank _ hfeed, normal]

/-- A fence on lines of its own does no harm. -/
theorem unharmed_block {readable : Text → Bool} {j v tag : Text} (hj : jsonLoads readable j = some v) (hv : IsObject v)
    (htag : ∀ c ∈ tag, isBreak c = false) (hbare : Bare tag)
    (hlines : ∀ c ∈ j, isBreak c = true → c = '\n' ∨ c = '\r') :
    Unharmed readable j (fence ++ (tag ++ '\n' :: j ++ ['\n']) ++ fence) := by
  obtain ⟨lines, hsplit, hread⟩ := splitlines_block htag j
  have hlast : ((fence ++ tag) :: (lines ++ [fence])).getLast? = some fence := by
    rw [← List.cons_append]
    exact List.getLast?_concat
  have hcloses : fenceCloses ((fence ++ tag) :: (lines ++ [fence])) = true := by
    rw [fenceCloses, List.getLastD_eq_getLast?, hlast, Bool.and_eq_true]
    exact ⟨by simp, by decide⟩
  refine ⟨fun _ => ?_, fun _ => hlines, fun w hw => ?_⟩
  · have hfence : Bare fence := by decide
    rw [strip_fenced, hsplit, fenceLines, if_pos hcloses, hlast]
    intro line hline
    rcases List.mem_pair.1 hline with rfl | rfl
    · exact fun c hc => (List.mem_append.1 hc).elim (hfence c) (hbare c)
    · exact hfence
  · have hbody : fenceBody ((fence ++ tag) :: (lines ++ [fence])) = lines := by
      rw [fenceBody, if_pos hcloses]
      exact List.dropLast_concat
    have hfence : fence <+: strip (fence ++ (tag ++ '\n' :: j ++ ['\n']) ++ fence) := by
      rw [strip_fenced, List.append_assoc]
      exact List.prefix_append _ _
    have hload := (span_of_jsonLoads hj hv).2
    rw [stripCodeFences_of_fence hfence, strip_fenced, hsplit, hbody, hread, strip_normal hj hv, jsonLoads,
      compact_normal fun c hc => hlines c (mem_of_mem_strip hc), ← jsonLoads, hload] at hw
    cases hw
    exact hv

def emptyAnswer : Text := ['{', '}']

/-- An answer as a model writes it, with line ends of two kinds. -/
def flowAnswer : Text :=
  '{' :: "\n  \"rewritten_query\": \"flow, by hour\",\r\n  \"keywords\": [\"flow\", \"dam\"]\n".toList ++ ['}']

def flowValue : Text := '{' :: "\"rewritten_query\":\"flow, by hour\",\"keywords\":[\"flow\",\"dam\"]".toList ++ ['}']

/-- An answer in a fence on lines of its own. -/
theorem fencedAnswer_parsesAlike :
    ParsesAlike (fun _ => true) flowAnswer flowValue ("```json\n".toList ++ flowAnswer ++ "\n```".toList) := by
  have hload : jsonLoads (fun _ => true) flowAnswer = some flowValue := by decide +kernel
  have hobject : IsObject flowValue := by decide +kernel
  have hbreaks : (flowAnswer.all fun c => !isBreak c || c == '\n' || c == '\r') = true := by decide +kernel
  have htag : ∀ c ∈ "json".toList, isBreak c = false := by simp [isBreak]
  refine (parsesAlike_iff hload hobject (by decide) (by decide)).2
    (unharmed_block hload hobject htag (by decide) fun c hc hend => ?_)
  have hall := List.all_eq_true.1 hbreaks c hc
  simpa [hend] using hall

/-- A fence on one line is dropped with the answer in it. -/
theorem not_forall_parsesAlike :
    ¬ ∀ (readable : Text → Bool) (j v pre post : Text), jsonLoads readable j = some v → IsObject v →
      Bare pre → Bare post → ParsesAlike readable j v (pre ++ j ++ post) := by
  intro h
  have halike := h (fun _ => true) emptyAnswer emptyAnswer "```json ".toList " ```".toList (by decide +kernel)
    (by decide) (by decide) (by decide) Text some rfl
  exact halike.2 (by decide +kernel)

end RoboMeta
