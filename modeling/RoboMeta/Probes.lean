/-
  Suggested probes and the text guard.

  Every suggested probe calls the function `replace` in front of the first
  literal, and the text guard denies the word.  Up to that call the SQL holds
  quoted identifiers and plain text only, which the five passes of the scan
  leave in place (`Framed`), so the word is in the scan whatever the mention is.

  * `framed_skeleton`: what the scan makes of a probe up to the call;
  * `not_accepts_probeSql`: the guard rejects the probe;
  * `probes_accepted_iff`.
-/
import RoboMeta.EntityResolution
import RoboMeta.SqlGuardPasses

namespace RoboMeta

/-! ## Prefixes that the scan keeps -/

/-- Whatever follows, the scan of the prefix `p` is `q`. -/
structure Framed (p q : Text) : Prop where
  plain : ∀ c ∈ p, c ≠ '-' ∧ c ≠ '/' ∧ c ≠ '\''
  rewrites : Scan.Rewrites doubleQuoted ['"', 'i', 'd', '"'] p q
  noDollar : ∀ c ∈ q, c ≠ '$'

theorem Framed.append {p q p' q' : Text} (h : Framed p q) (h' : Framed p' q') :
    Framed (p ++ p') (q ++ q') where
  plain c hc := (List.mem_append.1 hc).elim (h.plain c) (h'.plain c)
  rewrites := h.rewrites.append h'.rewrites
  noDollar c hc := (List.mem_append.1 hc).elim (h.noDollar c) (h'.noDollar c)

theorem framed_of_inertChar {p : Text} (hp : ∀ c ∈ p, inertChar c = true) : Framed p p where
  plain c hc := (inertChar_iff.1 (hp c hc)).1
  rewrites := (inert_quoted fun c hc => (inertChar_iff.1 (hp c hc)).2.1).rewrites _
  noDollar c hc := (inertChar_iff.1 (hp c hc)).2.2

/-- The condition of `framed_of_inertChar` in a form that can be computed. -/
theorem framed_of_all {p : Text} (hp : p.all inertChar = true) : Framed p p :=
  framed_of_inertChar (List.all_eq_true.1 hp)

/-- The five passes on a text with a framed prefix. -/
theorem Framed.scan {p q : Text} (h : Framed p q) (s : Text) :
    ∃ s', stripLiteralsForScan (p ++ s) = q ++ s' := by
  simp only [stripLiteralsForScan, singleQuoted]
  rw [Scan.replace_append_of_inert (inert_lineComment fun c hc => (h.plain c hc).1),
    Scan.replace_append_of_inert (inert_blockComment fun c hc => (h.plain c hc).2.1),
    Scan.replace_append_of_inert (inert_quoted fun c hc => (h.plain c hc).2.2), h.rewrites,
    Scan.replace_append_of_inert (inert_dollarQuoted h.noDollar)]
  exact ⟨_, rfl⟩

/-! ## Identifiers -/

/-- A quoted identifier, settled by an inert character behind it. -/
theorem framed_quotedIdent (part : String) {c : Char} (hc : inertChar c = true) :
    ∃ q, Framed ((quotedIdent part).toList ++ [c]) q := by
  have hident : ∀ d ∈ part.toList.filter identChar, inertChar d = true := fun d hd =>
    inertChar_of_wordCont (List.mem_filter.1 hd).2
  simp only [quotedIdent]
  split_ifs with hempty
  · exact ⟨[c], framed_of_inertChar (by simpa using hc)⟩
  · generalize part.toList.filter identChar = ident at hident
    refine ⟨['"', 'i', 'd', '"'] ++ [c], ?_, ?_, ?_⟩
    · intro d hd
      have hd : d = '"' ∨ inertChar d = true := by
        simp only [String.toList_ofList, List.mem_append, List.mem_cons, List.not_mem_nil, or_false] at hd
        rcases hd with ((rfl | hd) | rfl) | rfl
        · exact Or.inl rfl
        · exact Or.inr (hident d hd)
        · exact Or.inl rfl
        · exact Or.inr hc
      rcases hd with rfl | hd
      · decide
      · exact (inertChar_iff.1 hd).1
    · have hquote : ∀ d, inertChar d = true → d ≠ '"' := fun d hd => (inertChar_iff.1 hd).2.1
      have hmatch : ∀ s, doubleQuoted ('"' :: (ident ++ ['"']) ++ c :: s) =
          some ((ident ++ ['"']).length + 1) := by
        intro s
        have hpaired : Doubled '"' ident = true := doubled_of_notMem fun hmem => hquote _ (hident _ hmem) rfl
        simpa [doubleQuoted] using quoted_append (s := c :: s) hpaired (by simpa using hquote c hc)
      have hinert : Scan.Inert doubleQuoted [c] :=
        inert_quoted fun d hd => by rw [List.mem_singleton.1 hd]; exact hquote c hc
      simpa using Scan.rewrites_of_match hmatch hinert ['"', 'i', 'd', '"']
    · simpa using (inertChar_iff.1 hc).2.2

/-! ## The skeleton of a probe -/

section
variable (U : Unicode) (sourcePgSchema : String)

theorem framed_qualifiedTableRef (tableName pgSchema : String) :
    ∃ q, Framed ((qualifiedTableRef U sourcePgSchema tableName pgSchema).toList ++ [' ']) q := by
  unfold qualifiedTableRef
  split_ifs
  · exact ⟨[' '], framed_of_all (by decide)⟩
  · exact framed_quotedIdent tableName (by decide)
  · obtain ⟨q, hq⟩ := framed_quotedIdent (resolvePgSchema U sourcePgSchema tableName pgSchema)
      (c := '.') (by decide)
    obtain ⟨q', hq'⟩ := framed_quotedIdent tableName (c := ' ') (by decide)
    exact ⟨q ++ q', by simpa using hq.append hq'⟩

/-- **The prefix of a probe.**  Up to its first literal the scan keeps a probe,
    and with it the call of `replace`. -/
theorem framed_skeleton (kw : String) (col : ColumnCandidate) (codeCol pgSchema : String) :
    ∃ p q s, (probeSql U sourcePgSchema kw col codeCol pgSchema).toList = p ++ s ∧
      Framed p (q ++ " replace(".toList) := by
  obtain ⟨code, hcode⟩ := framed_quotedIdent codeCol (c := ':') (by decide)
  obtain ⟨name, hname⟩ := framed_quotedIdent col.name (c := ':') (by decide)
  obtain ⟨table, htable⟩ := framed_qualifiedTableRef U sourcePgSchema col.tableName pgSchema
  have h₁ : Framed "SELECT rtrim(".toList "SELECT rtrim(".toList := framed_of_all (by decide)
  have h₂ : Framed ":text) AS code, ".toList ":text) AS code, ".toList := framed_of_all (by decide)
  have h₃ : Framed ":text AS label FROM ".toList ":text AS label FROM ".toList := framed_of_all (by decide)
  have h₄ : Framed "WHERE".toList "WHERE".toList := framed_of_all (by decide)
  have h₅ : Framed " replace(".toList " replace(".toList := framed_of_all (by decide)
  have hframed :=
    ((((((h₁.append hcode).append h₂).append hname).append h₃).append htable).append h₄).append h₅
  -- a quoted identifier is settled by the character behind it, so that character
  -- is counted to the identifier
  have hsplit₁ : "::text) AS code, ".toList = [':'] ++ ":text) AS code, ".toList := by decide
  have hsplit₂ : "::text AS label FROM ".toList = [':'] ++ ":text AS label FROM ".toList := by decide
  have hsplit₃ : " WHERE ".toList ++ "replace(".toList = [' '] ++ ("WHERE".toList ++ " replace(".toList) := by
    decide
  have hsql : ∃ s : Text, (probeSql U sourcePgSchema kw col codeCol pgSchema).toList =
      "SELECT rtrim(".toList ++ (quotedIdent codeCol).toList ++ "::text) AS code, ".toList ++
        (quotedIdent col.name).toList ++ "::text AS label FROM ".toList ++
        (qualifiedTableRef U sourcePgSchema col.tableName pgSchema).toList ++
        (" WHERE ".toList ++ "replace(".toList) ++ s := by
    unfold probeSql spaceInsensitiveMatchSql
    simp only [String.toList_append, List.append_assoc]
    exact ⟨_, rfl⟩
  obtain ⟨s, hsql⟩ := hsql
  refine ⟨_, _, s, ?_, hframed⟩
  rw [hsql, hsplit₁, hsplit₂, hsplit₃]
  simp only [List.append_assoc]

/-- The scan of a probe has the word `replace`. -/
theorem replace_mem_words (kw : String) (col : ColumnCandidate) (codeCol pgSchema : String) :
    "replace".toList ∈
      words (stripLiteralsForScan (probeSql U sourcePgSchema kw col codeCol pgSchema).toList) := by
  obtain ⟨p, q, s, hsql, hframed⟩ := framed_skeleton U sourcePgSchema kw col codeCol pgSchema
  obtain ⟨s', hscan⟩ := hframed.scan s
  have hq : q ++ " replace(".toList ++ s' = q ++ ' ' :: ("replace".toList ++ '(' :: s') := by
    rw [List.append_assoc]; rfl
  have hcall : words "replace".toList = ["replace".toList] := by decide
  rw [hsql, hscan, hq, words, Words.words_append_sep (by decide) (by decide),
    Words.words_append_sep (by decide) (by decide)]
  refine List.mem_append_right _ (List.mem_append_left _ ?_)
  rw [words] at hcall
  rw [hcall]
  exact List.mem_singleton.2 rfl

/-- **No probe is executable.**  The text guard rejects it for `replace`. -/
theorem not_accepts_probeSql (V : Unicode) (kw : String) (col : ColumnCandidate) (codeCol pgSchema : String) :
    ¬ Accepts V (probeSql U sourcePgSchema kw col codeCol pgSchema) := by
  rintro ⟨r, h⟩
  obtain ⟨-, -, -, hdenied⟩ := scan_of_check h
  have hword : "REPLACE" ∈ (words (stripLiteralsForScan
      (probeSql U sourcePgSchema kw col codeCol pgSchema).toList)).map upperWord :=
    List.mem_map.2 ⟨_, replace_mem_words U sourcePgSchema kw col codeCol pgSchema, by decide⟩
  exact absurd (hdenied "REPLACE" (by decide) hword).2 (by decide)

/-- **Executable probes.**  The probes appended for a mention are accepted by the
    text guard iff the mention has exactly one code, and then there are none. -/
theorem probes_accepted_iff {resolved resolved' : List ResolvedEntity} {probes added : List SuggestedProbe}
    {kw codeCol pgSchema : String} {col : ColumnCandidate} {spec : Option ProbeSpec}
    {codeValues : List ResolvedValue}
    (h : appendResolution U sourcePgSchema resolved probes kw col spec codeCol codeValues pgSchema =
      .ok (resolved', probes ++ added)) :
    (∀ probe ∈ added, Accepts U probe.sql) ↔ codeValues.length = 1 := by
  have hadded := appendResolution_probes U sourcePgSchema h
  constructor
  · intro haccepted
    by_contra hlen
    rw [if_neg hlen] at hadded
    obtain ⟨reason, rfl⟩ := hadded
    have hprobe := haccepted _ List.mem_cons_self
    rw [suggestedProbe_sql] at hprobe
    exact not_accepts_probeSql U sourcePgSchema U kw col codeCol pgSchema hprobe
  · intro hlen
    rw [if_pos hlen] at hadded
    rw [hadded]
    exact fun _ hp => absurd hp List.not_mem_nil

end

def turbidity : List ResolvedValue := [⟨"10", some "탁도"⟩, ⟨"11", some "탁 도"⟩]

def turbidityColumn : ColumnCandidate := ⟨"rwis", "RDITAG_TB", "TAG_DESC"⟩

theorem turbidity_appended : ∃ resolved, appendResolution .ascii "RWIS" [] [] "탁도" turbidityColumn none
    "TAGSN" turbidity "RWIS" = .ok (resolved, [] ++ [suggestedProbe .ascii "RWIS" "탁도" turbidityColumn
      "TAGSN" "RWIS" "multiple matches (2) for mention=탁도"]) :=
  ⟨_, rfl⟩

theorem probes_accepted_iff_turbidity :
    (∀ probe ∈ [suggestedProbe .ascii "RWIS" "탁도" turbidityColumn "TAGSN" "RWIS"
      "multiple matches (2) for mention=탁도"], Accepts .ascii probe.sql) ↔ turbidity.length = 1 :=
  probes_accepted_iff .ascii "RWIS" turbidity_appended.choose_spec

theorem not_forall_probes_accepted :
    ¬ ∀ (U : Unicode) (sourcePgSchema : String) (resolved resolved' : List ResolvedEntity)
      (probes added : List SuggestedProbe) (kw codeCol pgSchema : String) (col : ColumnCandidate)
      (spec : Option ProbeSpec) (codeValues : List ResolvedValue),
      appendResolution U sourcePgSchema resolved probes kw col spec codeCol codeValues pgSchema =
        .ok (resolved', probes ++ added) → ∀ probe ∈ added, Accepts U probe.sql := by
  intro h
  obtain ⟨resolved, happended⟩ := turbidity_appended
  have hprobe := h .ascii "RWIS" [] resolved [] _ "탁도" "TAGSN" "RWIS" turbidityColumn none turbidity
    happended _ List.mem_cons_self
  rw [suggestedProbe_sql] at hprobe
  exact not_accepts_probeSql .ascii "RWIS" .ascii "탁도" turbidityColumn "TAGSN" "RWIS" hprobe

end RoboMeta
