/-
  Hints of the language model and the texts made of them
  (`services/neo4j_client/hyde.py`).

  The lists of a hint are cleaned twice, when it is generated and when the text
  is made of it, and each time without blanks, without repeated words and up to
  a limit.

  * `normList_eq`: what the loop over a list keeps;
  * `buildHydeEmbeddingText_sanitize`: the text of a cleaned hint is that of the
    hint, up to the three texts that are cut;
  * `sanitized_text`: cleaning again changes nothing, unless a text was cut behind a
    blank;
  * `generate_some`: a hint that is generated is clean and has a text;
  * `extractKeywords_eq`, `mem_extractKeywords_iff`: the keywords of a question.
-/
import RoboMeta.HydeParsing
import RoboMeta.Lib.Firsts
import RoboMeta.Lib.Words

namespace RoboMeta

/-! ## Hints -/

structure HydeEntities where
  include_ : List String := []
  exclude : List String := []
deriving DecidableEq, Repr

structure HydeMeasurement where
  aggregation : String := ""
  metricMeaning : String := ""
  storageTypeHint : String := ""
deriving DecidableEq, Repr

structure HydeJoinFilterHints where
  joinKeys : List String := []
  filterColumnMeanings : List String := []
  needsTimeRange : Option Bool := none
deriving DecidableEq, Repr

structure HydeSearchKeywords where
  tables : List String := []
  columns : List String := []
deriving DecidableEq, Repr

structure HydeSchemaOut where
  intent : String := ""
  entities : HydeEntities := {}
  measurement : HydeMeasurement := {}
  schemaRoles : List String := []
  joinFilterHints : HydeJoinFilterHints := {}
  searchKeywords : HydeSearchKeywords := {}
deriving DecidableEq, Repr

/-! ## Cleaning -/

/-- `s[:n]`. -/
def takeString (n : ℕ) (s : String) : String := String.ofList (s.toList.take n)

def rstripString (s : String) : String := String.ofList (rstrip s.toList)

section
variable (U : Unicode)

/-- The loop of `_norm_list` and of `_join_list`, with what is in `uniq` so far. -/
def normLoop (limit : ℕ) (uniq : List String) : List String → List String
  | [] => uniq
  | x :: xs =>
    let s := stripString x
    if s = "" then normLoop limit uniq xs
    else if U.lower s ∈ uniq.map U.lower then normLoop limit uniq xs
    else if limit ≤ (uniq ++ [s]).length then uniq ++ [s]
    else normLoop limit (uniq ++ [s]) xs

/-- `_norm_list`. -/
def normList (limit : ℕ) (xs : List String) : List String := normLoop U limit [] xs

/-- `_join_list`. -/
def joinList (limit : ℕ) (xs : List String) : String := ", ".intercalate (normList U limit xs)

/-- `_sanitize_hyde_structured`. -/
def sanitizeHydeStructured (out : HydeSchemaOut) : HydeSchemaOut where
  intent := stripString out.intent
  entities := {
    include_ := normList U 15 out.entities.include_
    exclude := normList U 15 out.entities.exclude }
  measurement := {
    aggregation := takeString 40 (stripString out.measurement.aggregation)
    metricMeaning := takeString 200 (stripString out.measurement.metricMeaning)
    storageTypeHint := takeString 200 (stripString out.measurement.storageTypeHint) }
  schemaRoles := normList U 10 out.schemaRoles
  joinFilterHints := {
    joinKeys := normList U 10 out.joinFilterHints.joinKeys
    filterColumnMeanings := normList U 10 out.joinFilterHints.filterColumnMeanings
    needsTimeRange := out.joinFilterHints.needsTimeRange }
  searchKeywords := {
    tables := normList U 10 out.searchKeywords.tables
    columns := normList U 10 out.searchKeywords.columns }

/-! ## The text -/

/-- `parts`. -/
def embeddingParts (out : HydeSchemaOut) : List String :=
  [joinList U 10 out.searchKeywords.tables, joinList U 10 out.searchKeywords.columns,
    joinList U 15 out.entities.include_, joinList U 15 out.entities.exclude, stripString out.intent,
    stripString out.measurement.aggregation, stripString out.measurement.metricMeaning,
    stripString out.measurement.storageTypeHint, joinList U 10 out.schemaRoles,
    joinList U 10 out.joinFilterHints.joinKeys,
    joinList U 10 out.joinFilterHints.filterColumnMeanings].filter (· ≠ "") ++
  if out.joinFilterHints.needsTimeRange = some true then ["예"] else []

def buildHydeEmbeddingText (out : HydeSchemaOut) (maxChars : ℕ) : String :=
  let text := stripString ("\n".intercalate (((embeddingParts U out).map stripString).filter (· ≠ "")))
  if text = "" then "" else rstripString (takeString maxChars text)

/-- `generate`: `llm` is the content of the model's answer or the text of the exception, `elapsed` the time that is
printed. -/
def generate (readable : Text → Bool) (validate : Text → Option HydeSchemaOut) (llm : String → Except String String)
    (elapsed question : String) : Option HydeSchemaOut × String :=
  let q := stripString question
  if q = "" then (none, "empty_question")
  else match llm q with
    | .error exc => (none, "llm_error: " ++ exc)
    | .ok content => match tryParseHydeJson readable validate (strip content.toList) with
      | none => (none, "llm_empty")
      | some parsed =>
        let out := sanitizeHydeStructured U parsed
        if (buildHydeEmbeddingText U out 8000).length < 20 then (none, "llm_empty")
        else (some out, "llm_ok (" ++ elapsed ++ "ms)")

end

/-! ## Keywords -/

/-- `[가-힣a-zA-Z0-9_]`. -/
def tokenChar (c : Char) : Bool :=
  (0xAC00 ≤ c.toNat && c.toNat ≤ 0xD7A3) || c.isAlphanum || c == '_'

/-- `re.findall(r"[가-힣a-zA-Z0-9_]{2,}", question)`. -/
def questionTokens (question : String) : List String :=
  ((Words.words tokenChar tokenChar question.toList).filter fun w => 2 ≤ w.length).map String.ofList

def stopwords : List String := ["알려줘", "보여줘", "검색", "조회", "해줘", "어떻게", "얼마나", "무엇", "뭐야"]

section
variable (U : Unicode)

/-- The body of the loop of `_add`; `seen` are the keywords in lower case. -/
def addHydeWord (keywords : List String) (x : String) : List String :=
  let s := stripString x
  if s ≠ "" ∧ U.lower s ∉ keywords.map U.lower ∧ 2 ≤ s.length then keywords ++ [s] else keywords

/-- The body of the loop over the tokens. -/
def addToken (keywords : List String) (t : String) : List String :=
  if U.lower t ∉ keywords.map U.lower ∧ t ∉ stopwords then keywords ++ [t] else keywords

/-- The words of a hint, in the order they are added in. -/
def hydeWords (out : HydeSchemaOut) : List String :=
  out.entities.include_ ++ out.searchKeywords.tables ++ out.searchKeywords.columns ++
    out.joinFilterHints.filterColumnMeanings

/-- `_extract_keywords`. -/
def extractKeywords (hydeOut : Option HydeSchemaOut) (question : String) : List String :=
  ((questionTokens question).foldl (addToken U)
    (((hydeOut.map hydeWords).getD []).foldl (addHydeWord U) [])).take 20

end

/-! ## What cleaning keeps -/

section
variable (U : Unicode)

/-- The words of a list that are not blank. -/
def cleanWords (xs : List String) : List String := (xs.map stripString).filter (· ≠ "")

variable {U} {limit : ℕ} {xs : List String}

theorem normLoop_eq {uniq : List String} (huniq : (uniq.map U.lower).Nodup) (hlimit : uniq.length < limit) :
    normLoop U limit uniq xs = (firsts U.lower (uniq ++ cleanWords xs)).take limit := by
  induction xs generalizing uniq with
  | nil =>
    rw [normLoop, cleanWords, List.map_nil, List.filter_nil, List.append_nil, firsts_of_nodup huniq,
      List.take_of_length_le hlimit.le]
  | cons x xs ih =>
    rw [normLoop]
    by_cases hblank : stripString x = ""
    · rw [if_pos hblank, ih huniq hlimit, cleanWords, cleanWords, List.map_cons,
        List.filter_cons_of_neg (by simpa using hblank)]
    · have hclean : cleanWords (x :: xs) = stripString x :: cleanWords xs := by
        rw [cleanWords, cleanWords, List.map_cons, List.filter_cons_of_pos (by simpa using hblank)]
      rw [if_neg hblank, hclean]
      by_cases hseen : U.lower (stripString x) ∈ uniq.map U.lower
      · rw [if_pos hseen, ih huniq hlimit, firsts_append_cons_of_mem hseen]
      · have huniq' : ((uniq ++ [stripString x]).map U.lower).Nodup := by
          rw [List.map_append, List.map_singleton, ← List.concat_eq_append]
          exact huniq.concat hseen
        have happend : uniq ++ stripString x :: cleanWords xs = (uniq ++ [stripString x]) ++ cleanWords xs := by simp
        rw [if_neg hseen, happend]
        split_ifs with hfull
        · have hlength : (uniq ++ [stripString x]).length = limit := by
            rw [List.length_append, List.length_singleton] at hfull ⊢
            omega
          rw [firsts_append, firsts_of_nodup huniq', ← hlength, List.take_left]
        · exact ih huniq' (by omega)

/-- What the loop keeps: the first words of every spelling, up to the limit. -/
theorem normList_eq (hlimit : 0 < limit) : normList U limit xs = (firsts U.lower (cleanWords xs)).take limit :=
  normLoop_eq List.nodup_nil hlimit

/-- A list that cleaning leaves as it is. -/
def Clean (U : Unicode) (limit : ℕ) (xs : List String) : Prop :=
  (∀ x ∈ xs, stripString x = x ∧ x ≠ "") ∧ (xs.map U.lower).Nodup ∧ xs.length ≤ limit

theorem clean_normList (hlimit : 0 < limit) : Clean U limit (normList U limit xs) := by
  rw [normList_eq hlimit]
  refine ⟨fun x hx => ?_, ?_, List.length_take_le limit _⟩
  · obtain ⟨hx, hne⟩ := List.mem_filter.1 (mem_of_mem_firsts (List.mem_of_mem_take hx))
    obtain ⟨y, -, rfl⟩ := List.mem_map.1 hx
    exact ⟨stripString_stripString y, by simpa using hne⟩
  · exact (nodup_map_firsts U.lower _).sublist ((List.take_sublist limit _).map U.lower)

theorem Clean.normList_eq_self (h : Clean U limit xs) (hlimit : 0 < limit) : normList U limit xs = xs := by
  have hclean : cleanWords xs = xs := by
    rw [cleanWords, List.map_congr_left (g := id) fun x hx => (h.1 x hx).1, List.map_id,
      List.filter_eq_self.2 fun x hx => by simpa using (h.1 x hx).2]
  rw [normList_eq hlimit, hclean, firsts_of_nodup h.2.1, List.take_of_length_le h.2.2]

theorem normList_normList (hlimit : 0 < limit) : normList U limit (normList U limit xs) = normList U limit xs :=
  (clean_normList hlimit).normList_eq_self hlimit

theorem joinList_normList (hlimit : 0 < limit) : joinList U limit (normList U limit xs) = joinList U limit xs := by
  rw [joinList, normList_normList hlimit, joinList]

end

/-! ## Cleaning twice -/

theorem stripString_takeString {n : ℕ} {s : String} (h : s.length ≤ n) :
    takeString n (stripString s) = stripString s := by
  have hlength : (stripString s).toList.length ≤ n := by
    rw [stripString, String.toList_ofList]
    refine le_trans ?_ h
    exact le_trans (List.rdropWhile_prefix _ _).length_le (List.dropWhile_suffix _).length_le
  rw [takeString, List.take_of_length_le hlength, String.ofList_toList]

theorem length_takeString_le (n : ℕ) (s : String) : (takeString n s).length ≤ n := by
  rw [takeString, String.length_ofList]
  exact List.length_take_le n _

/-- Of a text that was cut, only a blank at its end is lost. -/
theorem takeString_takeString (n : ℕ) (s : String) :
    takeString n (stripString (takeString n s)) = stripString (takeString n s) :=
  stripString_takeString (length_takeString_le n s)

/-- The hint with its three texts cut. -/
def HydeSchemaOut.cut (out : HydeSchemaOut) : HydeSchemaOut := { out with
  measurement := {
    aggregation := takeString 40 (stripString out.measurement.aggregation)
    metricMeaning := takeString 200 (stripString out.measurement.metricMeaning)
    storageTypeHint := takeString 200 (stripString out.measurement.storageTypeHint) } }

/-- The three texts without blanks at their ends. -/
def HydeMeasurement.stripped (m : HydeMeasurement) : HydeMeasurement where
  aggregation := stripString m.aggregation
  metricMeaning := stripString m.metricMeaning
  storageTypeHint := stripString m.storageTypeHint

section
variable (U : Unicode) (out : HydeSchemaOut) (maxChars : ℕ)

theorem buildHydeEmbeddingText_sanitize :
    buildHydeEmbeddingText U (sanitizeHydeStructured U out) maxChars = buildHydeEmbeddingText U out.cut maxChars := by
  have hparts : embeddingParts U (sanitizeHydeStructured U out) = embeddingParts U out.cut := by
    simp only [embeddingParts, sanitizeHydeStructured, HydeSchemaOut.cut, stripString_stripString,
      joinList_normList (U := U) (show 0 < 10 by decide), joinList_normList (U := U) (show 0 < 15 by decide)]
    rfl
  rw [buildHydeEmbeddingText, hparts, buildHydeEmbeddingText]

theorem measurement_sanitize : (sanitizeHydeStructured U out).measurement = out.cut.measurement := rfl

theorem sanitize_sanitize : sanitizeHydeStructured U (sanitizeHydeStructured U out) =
    { sanitizeHydeStructured U out with measurement := out.cut.measurement.stripped } := by
  simp only [sanitizeHydeStructured, HydeSchemaOut.cut, HydeMeasurement.stripped, stripString_stripString,
    takeString_takeString, normList_normList (U := U) (show 0 < 10 by decide),
    normList_normList (U := U) (show 0 < 15 by decide)]

theorem embeddingParts_stripped : embeddingParts U { out with measurement := out.measurement.stripped } =
    embeddingParts U out := by
  simp only [embeddingParts, HydeMeasurement.stripped, stripString_stripString]

/-- **Cleaning a hint** changes its text only by the cut, and doing it again changes neither the text nor, unless a text
was cut behind a blank, the hint. -/
theorem sanitized_text :
    buildHydeEmbeddingText U (sanitizeHydeStructured U out) maxChars = buildHydeEmbeddingText U out.cut maxChars ∧
    (sanitizeHydeStructured U (sanitizeHydeStructured U out) = sanitizeHydeStructured U out ↔
      out.cut.measurement.stripped = out.cut.measurement) ∧
    buildHydeEmbeddingText U (sanitizeHydeStructured U (sanitizeHydeStructured U out)) maxChars =
      buildHydeEmbeddingText U (sanitizeHydeStructured U out) maxChars := by
  refine ⟨buildHydeEmbeddingText_sanitize U out maxChars, ?_, ?_⟩
  · rw [sanitize_sanitize, ← measurement_sanitize U]
    cases sanitizeHydeStructured U out
    simp
  · have hparts : embeddingParts U (sanitizeHydeStructured U (sanitizeHydeStructured U out)) =
        embeddingParts U (sanitizeHydeStructured U out) := by
      rw [sanitize_sanitize, ← measurement_sanitize U, embeddingParts_stripped]
    rw [buildHydeEmbeddingText, hparts, buildHydeEmbeddingText]

/-- A hint that is generated is clean, and its text is no shorter than twenty characters. -/
theorem generate_some {readable : Text → Bool} {validate : Text → Option HydeSchemaOut}
    {llm : String → Except String String} {elapsed question status : String} {out : HydeSchemaOut}
    (h : generate U readable validate llm elapsed question = (some out, status)) :
    (∃ parsed, out = sanitizeHydeStructured U parsed) ∧ 20 ≤ (buildHydeEmbeddingText U out 8000).length := by
  unfold generate at h
  simp only at h
  split_ifs at h
  · exact absurd (Prod.mk.inj h).1 (by simp)
  · split at h
    · exact absurd (Prod.mk.inj h).1 (by simp)
    · split at h
      · exact absurd (Prod.mk.inj h).1 (by simp)
      · rename_i parsed _
        split_ifs at h with hshort
        · exact absurd (Prod.mk.inj h).1 (by simp)
        · obtain rfl := Option.some.inj (Prod.mk.inj h).1
          exact ⟨⟨parsed, rfl⟩, not_lt.1 hshort⟩

end

/-! ## Which keywords there are -/

section
variable {U : Unicode}

/-- A loop that appends what passes a test and is new in lower case. -/
theorem foldl_append_new (f : String → String) (p : String → Bool) {step : List String → String → List String}
    (hadd : ∀ ks x, U.lower (f x) ∉ ks.map U.lower → p (f x) = true → step ks x = ks ++ [f x])
    (hskip : ∀ ks x, U.lower (f x) ∈ ks.map U.lower ∨ p (f x) = false → step ks x = ks)
    (xs : List String) {ks : List String} (hks : (ks.map U.lower).Nodup) :
    xs.foldl step ks = firsts U.lower (ks ++ (xs.map f).filter p) := by
  induction xs generalizing ks with
  | nil => rw [List.map_nil, List.filter_nil, List.append_nil, firsts_of_nodup hks, List.foldl_nil]
  | cons x xs ih =>
    rw [List.foldl_cons, List.map_cons]
    cases hp : p (f x) with
    | true =>
      rw [List.filter_cons_of_pos hp]
      by_cases hseen : U.lower (f x) ∈ ks.map U.lower
      · rw [hskip ks x (Or.inl hseen), ih hks, firsts_append_cons_of_mem hseen]
      · have hks' : ((ks ++ [f x]).map U.lower).Nodup := by
          rw [List.map_append, List.map_singleton, ← List.concat_eq_append]
          exact hks.concat hseen
        rw [hadd ks x hseen hp, ih hks', List.append_assoc, List.singleton_append]
    | false => rw [List.filter_cons_of_neg (by simp [hp]), hskip ks x (Or.inr hp), ih hks]

/-- The keys of what is new among `ys` do not depend on what is repeated in `xs`. -/
theorem firsts_append_firsts (xs ys : List String) :
    firsts U.lower (firsts U.lower xs ++ ys) = firsts U.lower (xs ++ ys) := by
  rw [firsts_append, firsts_append, firsts_of_nodup (nodup_map_firsts U.lower _)]
  congr 1
  refine List.filter_congr fun y _ => decide_eq_decide.2 (not_congr ⟨fun h => ?_, fun h => ?_⟩)
  · obtain ⟨x, hx, hxy⟩ := List.mem_map.1 h
    exact List.mem_map.2 ⟨x, mem_of_mem_firsts hx, hxy⟩
  · obtain ⟨x, hx, hxy⟩ := List.mem_map.1 h
    obtain ⟨x', hx', hkey⟩ := exists_mem_firsts U.lower hx
    exact List.mem_map.2 ⟨x', hx', hkey.trans hxy⟩

def longWord (s : String) : Bool := decide (s ≠ "") && decide (2 ≤ s.length)

def telling (t : String) : Bool := decide (t ∉ stopwords)

variable (U) (hydeOut : Option HydeSchemaOut) (question : String)

/-- The words of the hint of two characters or more, without the blanks around them. -/
def longHydeWords : List String := (((hydeOut.map hydeWords).getD []).map stripString).filter longWord

/-- The words of the question that tell something. -/
def tellingTokens : List String := (questionTokens question).filter telling

/-- The keywords are the first twenty words of the hint and of the question that differ in lower case. -/
theorem extractKeywords_eq : extractKeywords U hydeOut question =
    (firsts U.lower (longHydeWords hydeOut ++ tellingTokens question)).take 20 := by
  have hhyde : ((hydeOut.map hydeWords).getD []).foldl (addHydeWord U) [] =
      firsts U.lower (longHydeWords hydeOut) := by
    refine foldl_append_new stripString longWord (fun ks x hnew hlong => ?_) (fun ks x hor => ?_) _
      List.nodup_nil
    · obtain ⟨hne, hlong⟩ := Bool.and_eq_true_iff.1 hlong
      exact if_pos ⟨of_decide_eq_true hne, hnew, of_decide_eq_true hlong⟩
    · refine if_neg fun h => ?_
      rcases hor with hseen | hshort
      · exact h.2.1 hseen
      · rw [longWord, decide_eq_true h.1, decide_eq_true h.2.2] at hshort
        cases hshort
  have htokens : (questionTokens question).foldl (addToken U) (firsts U.lower (longHydeWords hydeOut)) =
      firsts U.lower (firsts U.lower (longHydeWords hydeOut) ++
        ((questionTokens question).map fun t => t).filter telling) := by
    refine foldl_append_new (fun t => t) telling (fun ks x hnew htelling => ?_) (fun ks x hor => ?_) _
      (nodup_map_firsts U.lower (longHydeWords hydeOut))
    · exact if_pos ⟨hnew, of_decide_eq_true htelling⟩
    · exact if_neg fun h => hor.elim h.1 fun hstop => of_decide_eq_false hstop h.2
  rw [extractKeywords, hhyde, htokens, List.map_id', firsts_append_firsts, tellingTokens]

/-- **A word of the question** is a keyword iff it stands among the first ones: those of the hint and those before it
in the question that differ in lower case are less than twenty. -/
theorem mem_extractKeywords_iff (before after : List String) {t : String}
    (hsplit : tellingTokens question = before ++ t :: after)
    (hnew : U.lower t ∉ (longHydeWords hydeOut ++ before).map U.lower) :
    t ∈ extractKeywords U hydeOut question ↔
      (firsts U.lower (longHydeWords hydeOut ++ before)).length < 20 := by
  have hwords : longHydeWords hydeOut ++ tellingTokens question =
      (longHydeWords hydeOut ++ before) ++ t :: after := by rw [hsplit, List.append_assoc]
  rw [extractKeywords_eq, hwords, firsts_append, firsts, List.filter_cons_of_pos (by simpa using hnew)]
  rcases lt_or_ge (firsts U.lower (longHydeWords hydeOut ++ before)).length 20 with hlt | hge
  · refine iff_of_true ?_ hlt
    rw [List.take_append, List.take_cons (by omega)]
    exact List.mem_append_right _ List.mem_cons_self
  · refine iff_of_false (fun ht => hnew ?_) (not_lt.2 hge)
    rw [List.take_append_of_le_length hge] at ht
    exact List.mem_map_of_mem (mem_of_mem_firsts (List.mem_of_mem_take ht))

end

/-- A hint with a word twice, one with blanks around it and one that is too short. -/
def damHint : HydeSchemaOut where
  entities := { include_ := ["dam", " Flow rate "] }
  searchKeywords := { columns := ["DAM", "q"] }

theorem mem_extractKeywords_iff_flow :
    "flow" ∈ extractKeywords .ascii (some damHint) "hourly flow of the dam" ↔
      (firsts asciiLower (longHydeWords (some damHint) ++ ["hourly"])).length < 20 :=
  mem_extractKeywords_iff .ascii (some damHint) "hourly flow of the dam" ["hourly"] ["of", "the", "dam"]
    (by decide +kernel) (by decide +kernel)

example : extractKeywords .ascii (some damHint) "hourly flow of the dam" =
    ["dam", "Flow rate", "hourly", "flow", "of", "the"] := by decide +kernel

end RoboMeta
