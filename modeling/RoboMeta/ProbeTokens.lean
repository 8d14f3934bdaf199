/-
  The tokens of the probe statements (`services/entity_resolution.py`,
  `services/neo4j_client/db_probe.py`).

  The statements are put together from fixed parts, identifiers reduced to
  letters, digits and underscores, and literals with their quotes doubled.

  * `labelProbe`, `codeLookup`, `valueLookup`: the statements that are sent;
  * `labelTokens`, `lookupTokens`, `suggestedTokens`: their tokens, with every
    keyword and value as one literal;
  * `lex_probes`: PostgreSQL reads the statements as these tokens.
-/
import RoboMeta.Lib.PgLex
import RoboMeta.ResolveEntities

namespace RoboMeta

open PgLex

/-! ## The statements -/

section
variable (U : Unicode) (settings : ProbeSettings)

/-- What `limited_db_probe` sends, if it sends anything. -/
def labelProbe (keyword : String) (col : ColumnCandidate) : Option String :=
  if stripString keyword = "" ∨ safeIdent col.tableName = "" ∨ safeIdent col.name = "" then none
  else some (labelProbeSql U settings (stripString keyword) col)

theorem limitedDbProbe_eq (db : SourceDb) (keyword : String) (col : ColumnCandidate) :
    limitedDbProbe U settings db keyword col =
      (((labelProbe U settings keyword col).bind (db.values (stripString keyword) col)).map fun rows =>
        (rows.take settings.dbProbeValueLimit).filterMap fun v =>
          v.bind fun s => nonempty (some (stripString s))).getD [] := by
  unfold limitedDbProbe labelProbe
  by_cases hkw : stripString keyword = ""
  · simp [hkw]
  · by_cases hident : safeIdent col.tableName = "" ∨ safeIdent col.name = ""
    · simp [hkw, hident]
    · simp only [hkw, hident, if_false, or_self, Option.bind_some]
      cases db.values (stripString keyword) col (labelProbeSql U settings (stripString keyword) col) <;> rfl

def codeLookup (kw : String) (col : ColumnCandidate) (codeCol pgSchema : String) (limit : ℕ) : Option String :=
  if lookupIdents U settings col codeCol pgSchema then
    some (lookupSql U settings col codeCol pgSchema (quotedIdent col.name ++ " IS NOT NULL AND " ++
      spaceInsensitiveMatchSql (quotedIdent col.name) (doubleQuotes kw)) limit)
  else none

theorem lookupCodeLabelPairs_eq (db : SourceDb) (kw : String) (col : ColumnCandidate) (codeCol pgSchema : String)
    (limit : ℕ) : lookupCodeLabelPairs U settings db kw col codeCol pgSchema limit =
      ((codeLookup U settings kw col codeCol pgSchema limit).map (fetchPairs db kw col)).getD [] := by
  unfold lookupCodeLabelPairs codeLookup
  split_ifs <;> rfl

/-- The values that the value lookup looks for. -/
def keptValues (names : List String) (limit : ℕ) : List String :=
  (names.filterMap fun n => nonempty (some (stripString n))).take limit

def valueLookup (col : ColumnCandidate) (codeCol pgSchema : String) (names : List String) (limit : ℕ) : Option String :=
  if lookupIdents U settings col codeCol pgSchema ∧ (names.filterMap fun n => nonempty (some (stripString n))) ≠ [] then
    some (lookupSql U settings col codeCol pgSchema (quotedIdent col.name ++ "::text IN (" ++
      ", ".intercalate ((keptValues names limit).map fun n => "'" ++ doubleQuotes n ++ "'") ++ ")") limit)
  else none

theorem lookupCodeLabelPairsForValues_eq (db : SourceDb) (kw : String) (col : ColumnCandidate)
    (codeCol pgSchema : String) (names : List String) (limit : ℕ) :
    lookupCodeLabelPairsForValues U settings db kw col codeCol pgSchema names limit =
      ((valueLookup U settings col codeCol pgSchema names limit).map (fetchPairs db kw col)).getD [] := by
  unfold lookupCodeLabelPairsForValues valueLookup keptValues
  dsimp only
  split_ifs <;> rfl

/-- The schema of the table of a label probe. -/
def labelSchema (tableName : String) : String :=
  if "fct_".toList.isPrefixOf (U.lower tableName).toList then "mart"
  else if safeIdent ((nonempty settings.envPgSchema).getD "RWIS") = "" then "RWIS"
  else safeIdent ((nonempty settings.envPgSchema).getD "RWIS")

end

/-! ## Their tokens -/

/-- The identifier of a part, if it has one. -/
def identTokens (part : String) : List Token :=
  if safeIdent part = "" then [] else [.quoted (safeIdent part)]

def tableTokens (schema table : String) : List Token :=
  if safeIdent table = "" then []
  else if safeIdent schema = "" then [.quoted (safeIdent table)]
  else [.quoted (safeIdent schema), .op ".", .quoted (safeIdent table)]

/-- `replace(column::text, ' ', '') ILIKE '%' || replace('kw', ' ', '') || '%'`. -/
def matchTokens (column : List Token) (kw : String) : List Token :=
  [.word "replace", .op "("] ++ column ++
    [.op "::", .word "text", .op ",", .literal " ", .op ",", .literal "", .op ")", .word "ILIKE", .literal "%",
      .op "||", .word "replace", .op "("] ++ [.literal kw] ++
    [.op ",", .literal " ", .op ",", .literal "", .op ")", .op "||", .literal "%"]

/-- `column IS NOT NULL AND` the match. -/
def keywordTokens (column : List Token) (kw : String) : List Token :=
  column ++ [.word "IS", .word "NOT", .word "NULL", .word "AND"] ++ matchTokens column kw

def labelTokens (table column : List Token) (kw : String) (limit : ℕ) : List Token :=
  [.word "SELECT", .word "DISTINCT"] ++ column ++ [.word "AS", .word "value", .word "FROM"] ++ table ++
    [.word "WHERE"] ++ keywordTokens column kw ++ [.word "LIMIT"] ++ [.number (toString limit)]

/-- `column::text IN ('v₁', …, 'vₙ')`. -/
def valueTokens (column : List Token) (values : List String) : List Token :=
  column ++ [.op "::", .word "text", .word "IN", .op "("] ++ (values.map .literal).intersperse (.op ",") ++ [.op ")"]

def selectTokens (table column code condition : List Token) : List Token :=
  [.word "SELECT", .word "rtrim", .op "("] ++ code ++
    [.op "::", .word "text", .op ")", .word "AS", .word "code", .op ","] ++ column ++
    [.op "::", .word "text", .word "AS", .word "label", .word "FROM"] ++ table ++ [.word "WHERE"] ++ condition

def lookupTokens (table column code condition : List Token) (limit : ℕ) : List Token :=
  selectTokens table column code condition ++ [.word "ORDER", .word "BY"] ++ code ++ [.word "LIMIT"] ++
    [.number (toString limit)]

def suggestedTokens (table column code : List Token) (kw : String) : List Token :=
  selectTokens table column code (matchTokens column kw) ++ [.word "LIMIT", .number "10"]

/-! ## Reading the parts -/

theorem quotedIdent_eq (part : String) :
    quotedIdent part = if safeIdent part = "" then "" else "\"" ++ safeIdent part ++ "\"" := by
  unfold quotedIdent safeIdent
  by_cases h : part.toList.filter identChar = []
  · simp [h]
  · have hne : String.ofList (part.toList.filter identChar) ≠ "" := by simpa using h
    rw [if_neg h, if_neg hne]
    apply String.toList_injective
    simp

theorem quotedIdent_eq_empty {part : String} : quotedIdent part = "" ↔ safeIdent part = "" := by
  rw [quotedIdent_eq]
  split_ifs with h
  · simp [h]
  · simp [h]

theorem identChar_of_mem {part : String} : ∀ c ∈ (safeIdent part).toList, identChar c := by
  intro c hc
  rw [safeIdent, String.toList_ofList] at hc
  exact (List.mem_filter.1 hc).2

theorem quote_not_mem {part : String} : '"' ∉ (safeIdent part).toList :=
  fun h => absurd (identChar_of_mem _ h) (by decide)

theorem reads_quotedIdent (part : String) : Reads (fun c => c ≠ '"') (quotedIdent part) (identTokens part) := by
  rw [quotedIdent_eq, identTokens]
  split_ifs with h
  · exact reads_empty
  · exact reads_quoted h quote_not_mem

theorem tableTokens_eq {table : String} (htable : safeIdent table ≠ "") (schema : String) :
    tableTokens schema table =
      if safeIdent schema = "" then [.quoted (safeIdent table)]
      else [.quoted (safeIdent schema), .op ".", .quoted (safeIdent table)] := if_neg htable

/-- A schema, a dot and a table. -/
theorem reads_qualified {schema table : String} (hschema : safeIdent schema ≠ "") (htable : safeIdent table ≠ "") :
    Reads (fun c => c ≠ '"') (quotedIdent schema ++ "." ++ quotedIdent table) (tableTokens schema table) := by
  have hdot : Reads (fun c => c = '"') "." ([] ++ [.op "."]) := reads_before rfl rfl rfl
  have hquote : (quotedIdent table).toList = '"' :: ((safeIdent table).toList ++ ['"']) := by
    rw [quotedIdent_eq, if_neg htable]
    simp
  have hread := ((reads_quotedIdent schema).append_cons hdot rfl (by decide)).append_cons (reads_quotedIdent table)
    hquote rfl
  rw [identTokens, identTokens, if_neg hschema, if_neg htable] at hread
  rw [tableTokens_eq htable, if_neg hschema]
  exact hread

theorem reads_qualifiedTableRef (U : Unicode) (sourcePgSchema tableName pgSchema : String) :
    Reads (fun c => c ≠ '"') (qualifiedTableRef U sourcePgSchema tableName pgSchema)
      (tableTokens (resolvePgSchema U sourcePgSchema tableName pgSchema) tableName) := by
  unfold qualifiedTableRef
  simp only [quotedIdent_eq_empty]
  split_ifs with htable hschema
  · rw [tableTokens, if_pos htable]
    exact reads_empty
  · rw [tableTokens_eq htable, if_pos hschema]
    have hread := reads_quotedIdent tableName
    rwa [identTokens, if_neg htable] at hread
  · exact reads_qualified hschema htable

section
variable (U : Unicode) (settings : ProbeSettings) (tableName : String)

@[simp] theorem safeIdent_safeIdent (part : String) : safeIdent (safeIdent part) = safeIdent part := by
  simp [safeIdent, List.filter_filter]

/-- The schema of a label probe is an identifier. -/
theorem safeIdent_labelSchema : safeIdent (labelSchema U settings tableName) = labelSchema U settings tableName ∧
    labelSchema U settings tableName ≠ "" := by
  unfold labelSchema
  split_ifs with hfct henv
  · exact ⟨by decide, by decide⟩
  · exact ⟨by decide, by decide⟩
  · exact ⟨safeIdent_safeIdent _, henv⟩

theorem qualifiedTableIdent_eq (htable : safeIdent tableName ≠ "") : qualifiedTableIdent U settings tableName =
    quotedIdent (labelSchema U settings tableName) ++ "." ++ quotedIdent tableName := by
  have hschema := safeIdent_labelSchema U settings tableName
  have hunfold : qualifiedTableIdent U settings tableName =
      "\"" ++ labelSchema U settings tableName ++ "\".\"" ++ safeIdent tableName ++ "\"" := by
    unfold qualifiedTableIdent labelSchema
    simp only [htable, if_false]
  rw [hunfold, quotedIdent_eq, quotedIdent_eq, if_neg htable, hschema.1, if_neg hschema.2]
  apply String.toList_injective
  simp

end

/-! ## Reading the statements -/

theorem reads_doubleQuotes (s : String) : Reads (fun c => c ≠ '\'') ("'" ++ doubleQuotes s ++ "'") [.literal s] :=
  reads_literal s

/-- The match, with the literal of the keyword cut out. -/
theorem spaceInsensitiveMatchSql_eq (colIdent kw : String) : spaceInsensitiveMatchSql colIdent (doubleQuotes kw) =
    "replace(" ++ colIdent ++ "::text, ' ', '') ILIKE '%' || replace(" ++ ("'" ++ doubleQuotes kw ++ "'") ++
      ", ' ', '') || '%'" := by
  unfold spaceInsensitiveMatchSql
  apply String.toList_injective
  simp

theorem reads_match {colIdent : String} {column : List Token} (hcolumn : Reads (fun c => c ≠ '"') colIdent column)
    (kw : String) :
    Reads (fun c => c = ' ') (spaceInsensitiveMatchSql colIdent (doubleQuotes kw)) (matchTokens column kw) := by
  have hopen : Reads (fun _ => True) "replace(" [.word "replace", .op "("] := reads_of_run_start rfl
  have hmiddle : Reads (fun _ => True) "::text, ' ', '') ILIKE '%' || replace("
      [.op "::", .word "text", .op ",", .literal " ", .op ",", .literal "", .op ")", .word "ILIKE", .literal "%",
        .op "||", .word "replace", .op "("] := reads_of_run_start rfl
  have hclose : Reads (fun c => c = ' ') ", ' ', '') || '%'"
      ([.op ",", .literal " ", .op ",", .literal "", .op ")", .op "||"] ++ [.literal "%"]) := reads_before rfl rfl rfl
  rw [spaceInsensitiveMatchSql_eq]
  exact (((hopen.append_any hcolumn).append_cons hmiddle rfl (by decide)).append_any
    (reads_doubleQuotes kw)).append_cons hclose rfl (by decide)

section
variable {columnIdent codeIdent tableRef condition : String} {column code table ts : List Token}
  (hcolumn : Reads (fun c => c ≠ '"') columnIdent column) (hcode : Reads (fun c => c ≠ '"') codeIdent code)
  (htable : Reads (fun c => c ≠ '"') tableRef table)
include hcolumn

theorem reads_keyword (kw : String) :
    Reads (fun c => c = ' ') (columnIdent ++ " IS NOT NULL AND " ++
      spaceInsensitiveMatchSql columnIdent (doubleQuotes kw)) (keywordTokens column kw) := by
  have hand : Reads (fun _ => True) " IS NOT NULL AND " [.word "IS", .word "NOT", .word "NULL", .word "AND"] :=
    reads_of_run_start rfl
  exact (hcolumn.append_cons hand rfl (by decide)).append_any (reads_match hcolumn kw)

omit hcolumn in
theorem reads_values : (values : List String) →
    Reads (fun c => c ≠ '\'') (", ".intercalate (values.map fun n => "'" ++ doubleQuotes n ++ "'"))
      ((values.map Token.literal).intersperse (.op ","))
  | [] => reads_empty
  | [v] => reads_doubleQuotes v
  | v :: v' :: values => by
    have hcomma : Reads (fun _ => True) ", " [.op ","] := reads_of_run_start rfl
    have hread := ((reads_doubleQuotes v).append_cons hcomma rfl (by decide)).append_any (reads_values (v' :: values))
    rw [List.map_cons, List.map_cons, String.intercalate_cons_cons]
    exact hread

theorem reads_in (values : List String) :
    Reads (fun c => c = ' ') (columnIdent ++ "::text IN (" ++
      ", ".intercalate (values.map fun n => "'" ++ doubleQuotes n ++ "'") ++ ")") (valueTokens column values) := by
  have hin : Reads (fun _ => True) "::text IN (" [.op "::", .word "text", .word "IN", .op "("] := reads_of_run_start rfl
  have hclose : Reads (fun _ => True) ")" [.op ")"] := reads_of_run_start rfl
  exact (((hcolumn.append_cons hin rfl (by decide)).append_any (reads_values values)).append_cons hclose rfl
    (by decide)).mono fun _ _ => trivial

include hcode htable

theorem reads_select (hcondition : Reads (fun c => c = ' ') condition ts) :
    Reads (fun c => c = ' ') ("SELECT rtrim(" ++ codeIdent ++ "::text) AS code, " ++ columnIdent ++
      "::text AS label FROM " ++ tableRef ++ " WHERE " ++ condition) (selectTokens table column code ts) := by
  have hselect : Reads (fun _ => True) "SELECT rtrim(" [.word "SELECT", .word "rtrim", .op "("] :=
    reads_of_run_start rfl
  have has : Reads (fun _ => True) "::text) AS code, "
      [.op "::", .word "text", .op ")", .word "AS", .word "code", .op ","] := reads_of_run_start rfl
  have hfrom : Reads (fun _ => True) "::text AS label FROM "
      [.op "::", .word "text", .word "AS", .word "label", .word "FROM"] := reads_of_run_start rfl
  have hwhere : Reads (fun _ => True) " WHERE " [.word "WHERE"] := reads_of_run_start rfl
  exact ((((((hselect.append_any hcode).append_cons has rfl (by decide)).append_any hcolumn).append_cons hfrom rfl
    (by decide)).append_any htable).append_cons hwhere rfl (by decide)).append_any hcondition

theorem reads_suggested (kw : String) :
    Reads (fun c => c = ' ') ("SELECT rtrim(" ++ codeIdent ++ "::text) AS code, " ++ columnIdent ++
      "::text AS label FROM " ++ tableRef ++ " WHERE " ++ spaceInsensitiveMatchSql columnIdent (doubleQuotes kw) ++
      " LIMIT 10") (suggestedTokens table column code kw) := by
  have hlimit : Reads (fun c => c = ' ') " LIMIT 10" ([.word "LIMIT"] ++ [.number "10"]) := reads_before rfl rfl rfl
  exact (reads_select hcolumn hcode htable (reads_match hcolumn kw)).append_cons hlimit rfl rfl

omit hcode in
theorem reads_label (kw : String) (limit : ℕ) :
    Reads (fun c => c = ' ') ("SELECT DISTINCT " ++ columnIdent ++ " AS value FROM " ++ tableRef ++ " WHERE " ++
      (columnIdent ++ " IS NOT NULL AND " ++ spaceInsensitiveMatchSql columnIdent (doubleQuotes kw)) ++ " LIMIT " ++
      toString limit) (labelTokens table column kw limit) := by
  have hselect : Reads (fun _ => True) "SELECT DISTINCT " [.word "SELECT", .word "DISTINCT"] := reads_of_run_start rfl
  have has : Reads (fun _ => True) " AS value FROM " [.word "AS", .word "value", .word "FROM"] := reads_of_run_start rfl
  have hwhere : Reads (fun _ => True) " WHERE " [.word "WHERE"] := reads_of_run_start rfl
  have hlimit : Reads (fun _ => True) " LIMIT " [.word "LIMIT"] := reads_of_run_start rfl
  exact ((((((hselect.append_any hcolumn).append_cons has rfl (by decide)).append_any htable).append_cons hwhere rfl
    (by decide)).append_any (reads_keyword hcolumn kw)).append_cons hlimit rfl rfl).append_any (reads_toString limit)

theorem reads_lookup (hcondition : Reads (fun c => c = ' ') condition ts) (limit : ℕ) :
    Reads (fun c => c = ' ') ("SELECT rtrim(" ++ codeIdent ++ "::text) AS code, " ++ columnIdent ++
      "::text AS label FROM " ++ tableRef ++ " WHERE " ++ condition ++ " ORDER BY " ++ codeIdent ++ " LIMIT " ++
      toString limit) (lookupTokens table column code ts limit) := by
  have horder : Reads (fun _ => True) " ORDER BY " [.word "ORDER", .word "BY"] := reads_of_run_start rfl
  have hlimit : Reads (fun _ => True) " LIMIT " [.word "LIMIT"] := reads_of_run_start rfl
  exact ((((reads_select hcolumn hcode htable hcondition).append_cons horder rfl rfl).append_any hcode).append_cons
    hlimit rfl (by decide)).append_any (reads_toString limit)

end

/-! ## Reading the statements -/

/-- A quoted identifier is a name of letters, digits and underscores. -/
def SafeToken : Token → Prop
  | .quoted w => w ≠ "" ∧ ∀ c ∈ w.toList, identChar c
  | _ => True

/-- A text is read as these tokens, and every identifier in quotes is a name. -/
structure ReadsAs (sql : String) (ts : List Token) : Prop where
  lex : lex sql = some ts
  safe : ∀ t ∈ ts, SafeToken t

theorem safe_quoted {part : String} (h : safeIdent part ≠ "") : SafeToken (.quoted (safeIdent part)) :=
  ⟨h, identChar_of_mem⟩

theorem safe_identTokens (part : String) : ∀ t ∈ identTokens part, SafeToken t := by
  unfold identTokens
  split_ifs with h
  · simp
  · simp [safe_quoted h]

theorem safe_tableTokens (schema table : String) : ∀ t ∈ tableTokens schema table, SafeToken t := by
  unfold tableTokens
  split_ifs with htable hschema
  · simp
  · simp [safe_quoted htable]
  · simpa [SafeToken] using ⟨safe_quoted hschema, safe_quoted htable⟩

section
variable {table column code ts : List Token} (htable : ∀ t ∈ table, SafeToken t) (hcolumn : ∀ t ∈ column, SafeToken t)
  (hcode : ∀ t ∈ code, SafeToken t)
include hcolumn

theorem safe_matchTokens (kw : String) : ∀ t ∈ matchTokens column kw, SafeToken t := by
  simp only [matchTokens, List.forall_mem_append, List.forall_mem_cons]
  exact ⟨⟨⟨⟨⟨trivial, trivial, by simp⟩, hcolumn⟩, by simp [SafeToken]⟩, trivial, by simp⟩, by simp [SafeToken]⟩

theorem safe_keywordTokens (kw : String) : ∀ t ∈ keywordTokens column kw, SafeToken t := by
  simp only [keywordTokens, List.forall_mem_append]
  exact ⟨⟨hcolumn, by simp [SafeToken]⟩, safe_matchTokens hcolumn kw⟩

omit hcolumn in
theorem safe_literals : (values : List String) →
    ∀ t ∈ (values.map Token.literal).intersperse (.op ","), SafeToken t
  | [] => by simp
  | [v] => by simp [SafeToken]
  | v :: v' :: values => by
    have hrest := safe_literals (v' :: values)
    rw [List.map_cons, List.map_cons, List.intersperse_cons_cons]
    exact List.forall_mem_cons.2 ⟨trivial, List.forall_mem_cons.2 ⟨trivial, hrest⟩⟩

theorem safe_valueTokens (values : List String) : ∀ t ∈ valueTokens column values, SafeToken t := by
  simp only [valueTokens, List.forall_mem_append]
  exact ⟨⟨⟨hcolumn, by simp [SafeToken]⟩, safe_literals values⟩, by simp [SafeToken]⟩

include htable

theorem safe_labelTokens (kw : String) (limit : ℕ) : ∀ t ∈ labelTokens table column kw limit, SafeToken t := by
  simp only [labelTokens, List.forall_mem_append]
  exact ⟨⟨⟨⟨⟨⟨⟨by simp [SafeToken], hcolumn⟩, by simp [SafeToken]⟩, htable⟩, by simp [SafeToken]⟩,
    safe_keywordTokens hcolumn kw⟩, by simp [SafeToken]⟩, by simp [SafeToken]⟩

include hcode

theorem safe_selectTokens (hts : ∀ t ∈ ts, SafeToken t) : ∀ t ∈ selectTokens table column code ts, SafeToken t := by
  simp only [selectTokens, List.forall_mem_append]
  exact ⟨⟨⟨⟨⟨⟨⟨by simp [SafeToken], hcode⟩, by simp [SafeToken]⟩, hcolumn⟩, by simp [SafeToken]⟩, htable⟩,
    by simp [SafeToken]⟩, hts⟩

theorem safe_lookupTokens (hts : ∀ t ∈ ts, SafeToken t) (limit : ℕ) :
    ∀ t ∈ lookupTokens table column code ts limit, SafeToken t := by
  simp only [lookupTokens, List.forall_mem_append]
  exact ⟨⟨⟨⟨safe_selectTokens htable hcolumn hcode hts, by simp [SafeToken]⟩, hcode⟩, by simp [SafeToken]⟩,
    by simp [SafeToken]⟩

theorem safe_suggestedTokens (kw : String) : ∀ t ∈ suggestedTokens table column code kw, SafeToken t := by
  simp only [suggestedTokens, List.forall_mem_append]
  exact ⟨safe_selectTokens htable hcolumn hcode (safe_matchTokens hcolumn kw), by simp [SafeToken]⟩

end

section
variable (U : Unicode) (settings : ProbeSettings) (keyword : String) (names : List String) (col : ColumnCandidate)
  (codeCol pgSchema reason : String) (limit : ℕ)

theorem identTokens_of_ne {part : String} (h : safeIdent part ≠ "") : identTokens part = [.quoted (safeIdent part)] :=
  if_neg h

theorem readsAs_labelProbe {sql : String} (h : sql ∈ labelProbe U settings keyword col) :
    ReadsAs sql (labelTokens (tableTokens (labelSchema U settings col.tableName) col.tableName)
      [.quoted (safeIdent col.name)] (stripString keyword) settings.dbProbeValueLimit) := by
  unfold labelProbe at h
  split_ifs at h with hskip
  · exact absurd h (by simp)
  · push Not at hskip
    obtain ⟨-, htable, hname⟩ := hskip
    have hschema := safeIdent_labelSchema U settings col.tableName
    have hsql : labelProbeSql U settings (stripString keyword) col = "SELECT DISTINCT " ++ quotedIdent col.name ++
        " AS value FROM " ++ (quotedIdent (labelSchema U settings col.tableName) ++ "." ++ quotedIdent col.tableName) ++
        " WHERE " ++ (quotedIdent col.name ++ " IS NOT NULL AND " ++
          spaceInsensitiveMatchSql (quotedIdent col.name) (doubleQuotes (stripString keyword))) ++ " LIMIT " ++
        toString settings.dbProbeValueLimit := by
      have hquote : quotedIdent col.name = "\"" ++ safeIdent col.name ++ "\"" := (quotedIdent_eq _).trans (if_neg hname)
      unfold labelProbeSql
      rw [← hquote, qualifiedTableIdent_eq _ _ _ htable]
      simp only [String.append_assoc]
    have hread := reads_label (reads_quotedIdent col.name)
      (reads_qualified (hschema.1.symm ▸ hschema.2) htable) (stripString keyword) settings.dbProbeValueLimit
    obtain rfl := Option.mem_some_iff.1 h
    rw [hsql, ← identTokens_of_ne hname]
    exact ⟨hread.lex, safe_labelTokens (safe_tableTokens _ _) (safe_identTokens _) _ _⟩

theorem readsAs_lookup (h : lookupIdents U settings col codeCol pgSchema) {condition : String} {ts : List Token}
    (hcondition : Reads (fun c => c = ' ') condition ts) (hts : ∀ t ∈ ts, SafeToken t) :
    ReadsAs (lookupSql U settings col codeCol pgSchema condition limit)
      (lookupTokens (tableTokens (resolvePgSchema U settings.sourcePgSchema col.tableName pgSchema) col.tableName)
        [.quoted (safeIdent col.name)] [.quoted (safeIdent codeCol)] ts limit) := by
  obtain ⟨-, hname, hcode⟩ := h
  rw [ne_eq, quotedIdent_eq_empty] at hname hcode
  rw [← identTokens_of_ne hname, ← identTokens_of_ne hcode]
  exact ⟨(reads_lookup (reads_quotedIdent col.name) (reads_quotedIdent codeCol)
    (reads_qualifiedTableRef U settings.sourcePgSchema col.tableName pgSchema) hcondition limit).lex,
    safe_lookupTokens (safe_tableTokens _ _) (safe_identTokens _) (safe_identTokens _) hts limit⟩

theorem readsAs_codeLookup {sql : String} (h : sql ∈ codeLookup U settings keyword col codeCol pgSchema limit) :
    ReadsAs sql (lookupTokens
      (tableTokens (resolvePgSchema U settings.sourcePgSchema col.tableName pgSchema) col.tableName)
      [.quoted (safeIdent col.name)] [.quoted (safeIdent codeCol)]
      (keywordTokens [.quoted (safeIdent col.name)] keyword) limit) := by
  unfold codeLookup at h
  split_ifs at h with hidents
  · obtain rfl := Option.mem_some_iff.1 h
    have hname : safeIdent col.name ≠ "" := fun hname => hidents.2.1 (quotedIdent_eq_empty.2 hname)
    refine readsAs_lookup U settings col codeCol pgSchema limit hidents ?_ ?_
    · rw [← identTokens_of_ne hname]
      exact reads_keyword (reads_quotedIdent col.name) keyword
    · rw [← identTokens_of_ne hname]
      exact safe_keywordTokens (safe_identTokens _) keyword
  · exact absurd h (by simp)

theorem readsAs_valueLookup {sql : String} (h : sql ∈ valueLookup U settings col codeCol pgSchema names limit) :
    ReadsAs sql (lookupTokens
      (tableTokens (resolvePgSchema U settings.sourcePgSchema col.tableName pgSchema) col.tableName)
      [.quoted (safeIdent col.name)] [.quoted (safeIdent codeCol)]
      (valueTokens [.quoted (safeIdent col.name)] (keptValues names limit)) limit) := by
  unfold valueLookup at h
  split_ifs at h with hidents
  · obtain rfl := Option.mem_some_iff.1 h
    have hname : safeIdent col.name ≠ "" := fun hname => hidents.1.2.1 (quotedIdent_eq_empty.2 hname)
    refine readsAs_lookup U settings col codeCol pgSchema limit hidents.1 ?_ ?_
    · rw [← identTokens_of_ne hname]
      exact reads_in (reads_quotedIdent col.name) (keptValues names limit)
    · rw [← identTokens_of_ne hname]
      exact safe_valueTokens (safe_identTokens _) (keptValues names limit)
  · exact absurd h (by simp)

theorem readsAs_suggestedProbe :
    ReadsAs (suggestedProbe U settings.sourcePgSchema keyword col codeCol pgSchema reason).sql (suggestedTokens
      (tableTokens (resolvePgSchema U settings.sourcePgSchema col.tableName pgSchema) col.tableName)
      (identTokens col.name) (identTokens codeCol) keyword) := by
  rw [suggestedProbe_sql]
  exact ⟨(reads_suggested (reads_quotedIdent col.name) (reads_quotedIdent codeCol)
    (reads_qualifiedTableRef U settings.sourcePgSchema col.tableName pgSchema) keyword).lex,
    safe_suggestedTokens (safe_tableTokens _ _) (safe_identTokens _) (safe_identTokens _) keyword⟩

/-- **The statements are read as their tokens**, with the keyword and every value as one literal. -/
theorem lex_probes :
    (∀ sql ∈ labelProbe U settings keyword col,
      ReadsAs sql (labelTokens (tableTokens (labelSchema U settings col.tableName) col.tableName)
        [.quoted (safeIdent col.name)] (stripString keyword) settings.dbProbeValueLimit)) ∧
    (∀ sql ∈ codeLookup U settings keyword col codeCol pgSchema limit,
      ReadsAs sql (lookupTokens
        (tableTokens (resolvePgSchema U settings.sourcePgSchema col.tableName pgSchema) col.tableName)
        [.quoted (safeIdent col.name)] [.quoted (safeIdent codeCol)]
        (keywordTokens [.quoted (safeIdent col.name)] keyword) limit)) ∧
    (∀ sql ∈ valueLookup U settings col codeCol pgSchema names limit,
      ReadsAs sql (lookupTokens
        (tableTokens (resolvePgSchema U settings.sourcePgSchema col.tableName pgSchema) col.tableName)
        [.quoted (safeIdent col.name)] [.quoted (safeIdent codeCol)]
        (valueTokens [.quoted (safeIdent col.name)] (keptValues names limit)) limit)) ∧
    ReadsAs (suggestedProbe U settings.sourcePgSchema keyword col codeCol pgSchema reason).sql
      (suggestedTokens (tableTokens (resolvePgSchema U settings.sourcePgSchema col.tableName pgSchema) col.tableName)
        (identTokens col.name) (identTokens codeCol) keyword) :=
  ⟨fun _ h => readsAs_labelProbe U settings keyword col h,
    fun _ h => readsAs_codeLookup U settings keyword col codeCol pgSchema limit h,
    fun _ h => readsAs_valueLookup U settings names col codeCol pgSchema limit h,
    readsAs_suggestedProbe U settings keyword col codeCol pgSchema reason⟩

/-- The same with the keyword and every name as they are given, and every part as an identifier. -/
def VerbatimProbes : Prop :=
  (∀ sql ∈ labelProbe U settings keyword col,
    ReadsAs sql (labelTokens
      [.quoted (labelSchema U settings col.tableName), .op ".", .quoted (safeIdent col.tableName)]
      [.quoted (safeIdent col.name)] keyword settings.dbProbeValueLimit)) ∧
  (∀ sql ∈ codeLookup U settings keyword col codeCol pgSchema limit,
    ReadsAs sql (lookupTokens
      [.quoted (safeIdent (resolvePgSchema U settings.sourcePgSchema col.tableName pgSchema)), .op ".",
        .quoted (safeIdent col.tableName)]
      [.quoted (safeIdent col.name)] [.quoted (safeIdent codeCol)]
      (keywordTokens [.quoted (safeIdent col.name)] keyword) limit)) ∧
  (∀ sql ∈ valueLookup U settings col codeCol pgSchema names limit,
    ReadsAs sql (lookupTokens
      [.quoted (safeIdent (resolvePgSchema U settings.sourcePgSchema col.tableName pgSchema)), .op ".",
        .quoted (safeIdent col.tableName)]
      [.quoted (safeIdent col.name)] [.quoted (safeIdent codeCol)]
      (valueTokens [.quoted (safeIdent col.name)] names) limit)) ∧
  ReadsAs (suggestedProbe U settings.sourcePgSchema keyword col codeCol pgSchema reason).sql
    (suggestedTokens
      [.quoted (safeIdent (resolvePgSchema U settings.sourcePgSchema col.tableName pgSchema)), .op ".",
        .quoted (safeIdent col.tableName)]
      [.quoted (safeIdent col.name)] [.quoted (safeIdent codeCol)] keyword)

end

/-- A blank before the keyword is not looked for. -/
theorem not_forall_verbatimProbes : ¬ ∀ (U : Unicode) (settings : ProbeSettings) (keyword : String)
    (names : List String) (col : ColumnCandidate) (codeCol pgSchema reason : String) (limit : ℕ),
    VerbatimProbes U settings keyword names col codeCol pgSchema reason limit := by
  intro h
  obtain ⟨hlabel, -⟩ := h .ascii {} " Dam" ["Dam A", " "] ⟨"rwis", "RDISAUP_TB", "SUJ_NAME"⟩ "SUJ_CODE" "-" "" 10
  -- the statement has the literal of the stripped keyword
  have htokens := (readsAs_labelProbe .ascii {} " Dam" ⟨"rwis", "RDISAUP_TB", "SUJ_NAME"⟩ rfl).lex
  have heq := Option.some.inj (htokens.symm.trans (hlabel _ rfl).lex)
  exact absurd heq (by decide +kernel)

end RoboMeta
