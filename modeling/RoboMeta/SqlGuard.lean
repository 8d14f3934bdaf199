/-
  The SQL text guard (`services/sql_guard.py`).

  `check` decides on a copy of the text, the scan, from which five passes have
  removed line comments, block comments, single quotes, double quotes and
  dollar quotes, one kind after the other over the whole text; what it returns
  for execution is the text itself without its outer white space and trailing
  semicolons.

  * `lineComment` .. `dollarQuoted` are the matchers of the five passes, and
    `stripLiteralsForScan` runs them in the source's order;
  * `check` is the guard, `check_eq_ok_iff` everything an accepted text went through.
-/
import RoboMeta.Lib.Scan
import RoboMeta.Lib.Words
import RoboMeta.Python

namespace RoboMeta

/-! ## Policy -/

def allowedStarts : List String := ["SELECT", "WITH", "VALUES", "TABLE", "SHOW", "EXPLAIN"]

def denyTokens : List String :=
  ["INSERT", "UPDATE", "DELETE", "MERGE", "UPSERT", "REPLACE",
   "DROP", "CREATE", "ALTER", "TRUNCATE", "COMMENT", "RENAME",
   "GRANT", "REVOKE", "SECURITY", "POLICY",
   "LOCK", "UNLOCK", "VACUUM", "REINDEX", "CLUSTER",
   "COPY", "CALL", "DO", "LISTEN", "NOTIFY", "PREPARE", "EXECUTE", "DEALLOCATE",
   "SET", "RESET", "DISCARD", "BEGIN", "COMMIT", "ROLLBACK", "SAVEPOINT",
   "PG_READ_FILE", "PG_READ_BINARY_FILE", "PG_LS_DIR",
   "LO_EXPORT", "LO_IMPORT", "DBLINK", "DBLINK_EXEC"]

structure GuardError where
  message : String
deriving DecidableEq, Repr

structure GuardReport where
  normalizedSql : String
  leadingKeyword : String
  statementCount : ℕ
deriving DecidableEq, Repr

/-! ## The five passes -/

/-- The symbols up to and including the first occurrence of `pat`. -/
def upTo (pat : Text) : Text → Option ℕ
  | [] => none
  | c :: s => if pat.isPrefixOf (c :: s) then some pat.length else (upTo pat s).map (· + 1)

/-- `--[^\n\r]*`. -/
def lineComment : Scan.Matcher Char
  | '-' :: '-' :: s => some (2 + (s.takeWhile fun c => c != '\n' && c != '\r').length)
  | _ => none

/-- `/\*.*?\*/`, where `.` matches line ends as well. -/
def blockComment : Scan.Matcher Char
  | '/' :: '*' :: s => (upTo ['*', '/'] s).map (· + 2)
  | _ => none

/-- `(?:qq|[^q])*q`: a doubled quote is taken as a pair, unless the text has no
    other quote to close with and the match gives the pair up. -/
def quotedTail (q : Char) : Text → Option ℕ
  | [] => none
  | [c] => if c = q then some 1 else none
  | c :: d :: s =>
    if c = q then
      if d = q then some ((quotedTail q s).elim 1 (· + 2)) else some 1
    else (quotedTail q (d :: s)).map (· + 1)

/-- `q(?:qq|[^q])*q`. -/
def quoted (q : Char) : Scan.Matcher Char
  | [] => none
  | c :: s => if c = q then (quotedTail q s).map (· + 1) else none

/-- `'(?:''|[^'])*'`. -/
def singleQuoted : Scan.Matcher Char := quoted '\''

/-- `"(?:""|[^"])*"`. -/
def doubleQuoted : Scan.Matcher Char := quoted '"'

/-- `[A-Za-z_]`. -/
def wordStart (c : Char) : Bool := c.isAlpha || c == '_'

/-- `[A-Za-z_0-9]`. -/
def wordCont (c : Char) : Bool := c.isAlphanum || c == '_'

/-- `\$([A-Za-z_][A-Za-z0-9_]*)?\$`: the tag at the head of the text. -/
def dollarTag : Text → Option Text
  | '$' :: s =>
    let name := if (s.head?.any wordStart) then s.takeWhile wordCont else []
    if (s.drop name.length).head? = some '$' then some ('$' :: name ++ ['$']) else none
  | _ => none

/-- The step of `_strip_dollar`: a tag and everything up to its next
    occurrence, or up to the end of the text if it never occurs again. -/
def dollarQuoted : Scan.Matcher Char := fun s =>
  (dollarTag s).map fun tag =>
    ((upTo tag (s.drop tag.length)).map (tag.length + ·)).getD s.length

def stripLiteralsForScan (sql : Text) : Text :=
  let s := Scan.replace lineComment [' '] sql
  let s := Scan.replace blockComment [' '] s
  let s := Scan.replace singleQuoted ['\'', ' ', '\''] s
  let s := Scan.replace doubleQuoted ['"', 'i', 'd', '"'] s
  Scan.replace dollarQuoted [' ', ' '] s

/-! ## Statements and words -/

def splitStatements (scanSql : Text) : List Text :=
  ((scanSql.splitOn ';').map strip).filter fun p => !p.isEmpty

/-- `re.findall(r"[A-Za-z_][A-Za-z_0-9]*", s)`. -/
def words (s : Text) : List Text := Words.words wordStart wordCont s

/-- `str.upper` of a word of ASCII letters. -/
def upperWord (w : Text) : String := String.ofList (w.map Char.toUpper)

/-- `re.match(r"\s*([A-Za-z][A-Za-z0-9_]*)", s)`. -/
def firstToken (s : Text) : Option Text :=
  match s.dropWhile isSpace with
  | [] => none
  | c :: t => if c.isAlpha then some (c :: t.takeWhile wordCont) else none

/-- The loop that cuts trailing semicolons; each round drops at least one
    character, so the length of the text is fuel enough. -/
def dropSemicolons : ℕ → Text → Text
  | 0, s => s
  | n + 1, s => if s.getLast? = some ';' then dropSemicolons n (rstrip s.dropLast) else s

theorem dropSemicolons_nil (n : ℕ) : dropSemicolons n [] = [] := by
  cases n <;> rfl

/-! ## EXPLAIN ANALYZE -/

/-- A letter of a pattern under `IGNORECASE`; `i` matches the two dotted and
    dotless letters of the Turkic alphabets as well. -/
def eqIgnoreCase (l c : Char) : Bool :=
  c.toLower == l || (l == 'i' && (c == 'ı' || c == 'İ'))

/-- The rest of the text behind the (lower-case) word `w`. -/
def dropWord : Text → Text → Option Text
  | [], s => some s
  | _ :: _, [] => none
  | l :: w, c :: s => if eqIgnoreCase l c then dropWord w s else none

/-- `\bANALYZE\b` at the head of the text, `prev` standing before it. -/
def analyzeAt (U : Unicode) (prev : Option Char) (s : Text) : Bool :=
  !(prev.any U.isWord) && ((dropWord "analyze".toList s).any fun r => !(r.head?.any U.isWord))

/-- `[^)]*\bANALYZE\b`. -/
def analyzeBeforeParen (U : Unicode) : Option Char → Text → Bool
  | _, [] => false
  | prev, c :: s => analyzeAt U prev (c :: s) || (c != ')' && analyzeBeforeParen U (some c) s)

/-- What `_EXPLAIN_ANALYZE_SIMPLE_RE` and `_EXPLAIN_ANALYZE_RE` ask for behind
    the word `EXPLAIN`. -/
def analyzeBehind (U : Unicode) (s : Text) : Bool :=
  let t := s.dropWhile isSpace
  (t.length < s.length && analyzeAt U (some ' ') t) ||
    (t.head? == some '(' && analyzeBeforeParen U (some '(') t.tail)

/-- Either expression is found in the text, `prev` standing before it. -/
def explainAnalyze (U : Unicode) : Option Char → Text → Bool
  | _, [] => false
  | prev, c :: s =>
    (!(prev.any U.isWord) && (dropWord "explain".toList (c :: s)).any (analyzeBehind U)) ||
      explainAnalyze U (some c) s

/-! ## The guard -/

def deniedHits (s : Text) : List String :=
  denyTokens.filter fun d => d ∈ (words s).map upperWord

def check (U : Unicode) (sqlRaw : String) : Except GuardError GuardReport :=
  let sql := sqlRaw.toList
  if (strip sql).isEmpty then .error ⟨"빈 SQL은 허용되지 않습니다."⟩ else
  match splitStatements (stripLiteralsForScan sql) with
  | [] => .error ⟨"유효한 SQL 문장이 없습니다."⟩
  | _ :: _ :: _ => .error ⟨"다중 쿼리는 허용되지 않습니다 — 세미콜론으로 분리된 2개 이상의 문장이 감지됨. " ++
      "한 번에 하나의 SELECT만 보낼 수 있습니다."⟩
  | [stmtScan] =>
    -- what is executed is cut from the text itself, not from the scan
    let stmtExec := dropSemicolons sql.length (strip sql)
    if stmtExec.isEmpty then .error ⟨"유효한 SQL 문장이 없습니다."⟩ else
    match firstToken stmtScan with
    | none => .error ⟨"SQL에서 시작 키워드를 식별할 수 없습니다."⟩
    | some token =>
      let first := upperWord token
      if first ∉ allowedStarts then
        .error ⟨"조회 이외에는 사용 불가 — '" ++ first ++ "'로 시작하는 문은 허용되지 않습니다. " ++
          "허용 시작 키워드: " ++ reprStrings (sortedStrings allowedStarts) ++ "."⟩
      else if explainAnalyze U none stmtScan then
        .error ⟨"조회 이외에는 사용 불가 — EXPLAIN ANALYZE는 실제 실행을 수반하므로 차단됩니다."⟩
      else
        let hit := deniedHits stmtScan
        if hit ≠ [] ∧ ¬ (first = "EXPLAIN" ∧ hit = ["SET"]) then
          .error ⟨"조회 이외에는 사용 불가 — 금지된 키워드 포함: " ++ ", ".intercalate (sortedStrings hit)⟩
        else
          .ok { normalizedSql := String.ofList stmtExec, leadingKeyword := first, statementCount := 1 }

def Accepts (U : Unicode) (sql : String) : Prop := ∃ r, check U sql = .ok r

/-- **What an accepted text went through.** -/
theorem check_eq_ok_iff {U : Unicode} {sql : String} {r : GuardReport} :
    check U sql = .ok r ↔ dropSemicolons sql.toList.length (strip sql.toList) ≠ [] ∧ ∃ stmtScan token,
      splitStatements (stripLiteralsForScan sql.toList) = [stmtScan] ∧ firstToken stmtScan = some token ∧
        upperWord token ∈ allowedStarts ∧ explainAnalyze U none stmtScan = false ∧
          (deniedHits stmtScan = [] ∨ upperWord token = "EXPLAIN" ∧ deniedHits stmtScan = ["SET"]) ∧
            r = ⟨String.ofList (dropSemicolons sql.toList.length (strip sql.toList)), upperWord token, 1⟩ := by
  constructor
  · intro h
    unfold check at h
    simp only at h
    split_ifs at h with hblank hexec
    · split at h <;> cases h
    · split at h
      · cases h
      · cases h
      · rename_i stmtScan hstmt
        split at h
        · cases h
        · rename_i token htoken
          split_ifs at h with hstart hanalyze hhit
          cases h
          refine ⟨by simpa using hexec, stmtScan, token, hstmt, htoken, hstart, by simpa using hanalyze, ?_, rfl⟩
          exact (em (deniedHits stmtScan = [])).imp_right fun hne => not_not.1 fun hn => hhit ⟨hne, hn⟩
  · rintro ⟨hexec, stmtScan, token, hstmt, htoken, hstart, hanalyze, hhit, rfl⟩
    have hblank : strip sql.toList ≠ [] := fun h => by
      rw [h] at hexec
      exact hexec (dropSemicolons_nil _)
    have hdenied : ¬ (deniedHits stmtScan ≠ [] ∧
        ¬ (upperWord token = "EXPLAIN" ∧ deniedHits stmtScan = ["SET"])) := by
      rintro ⟨hne, hnot⟩
      exact hnot (hhit.resolve_left hne)
    simp only [check, List.isEmpty_iff, hblank, hstmt, hexec, htoken, hanalyze, if_false]
    rw [if_neg (not_not.2 hstart), if_neg (by simp), if_neg hdenied]

theorem mem_deniedHits {d : String} {s : Text} :
    d ∈ deniedHits s ↔ d ∈ denyTokens ∧ d ∈ (words s).map upperWord := by
  simp [deniedHits]

/-! ## Words and white space -/

theorem not_word_of_isSpace (c : Char) (h : isSpace c = true) :
    wordStart c = false ∧ wordCont c = false := by
  have halnum := isAlphanum_of_isSpace h
  have hne : c ≠ '_' := by
    rintro rfl
    exact absurd h (by decide)
  simp only [Char.isAlphanum, Bool.or_eq_false_iff] at halnum
  simp [wordStart, wordCont, Char.isAlphanum, halnum, hne]

theorem words_strip (s : Text) : words (strip s) = words s := by
  rw [strip, rstrip, words, Words.words_rdropWhile not_word_of_isSpace,
    Words.words_dropWhile not_word_of_isSpace, words]

theorem flatMap_words_splitStatements (s : Text) : (splitStatements s).flatMap words = words s := by
  have hsplit : words s = ((s.splitOn ';').map strip).flatMap words := by
    rw [words, ← Words.flatMap_words_splitOn (a := ';') (by decide) (by decide), List.flatMap_map]
    simp only [words_strip]; rfl
  rw [hsplit, splitStatements]
  generalize (s.splitOn ';').map strip = ps
  induction ps with
  | nil => rfl
  | cons p ps ih => cases p <;> simp [ih, words, Words.words, Words.wordsFrom]

theorem head?_words_of_firstToken {s token : Text} (h : firstToken s = some token) :
    (words s).head? = some token := by
  unfold firstToken at h
  split at h
  · cases h
  · rename_i c t hs
    split_ifs at h with hc
    cases h
    rw [words, ← Words.words_dropWhile not_word_of_isSpace, hs]
    exact Words.head?_words_cons (by simp [wordStart, hc]) t

/-! ## The scan of an accepted text -/

/-- The scan of an accepted text is one statement that begins with the keyword
    reported and has no denied word, `SET` under `EXPLAIN` excepted. -/
theorem scan_of_check {U : Unicode} {sql : String} {r : GuardReport} (h : check U sql = .ok r) :
    (splitStatements (stripLiteralsForScan sql.toList)).length = 1 ∧
      (words (stripLiteralsForScan sql.toList)).head?.map upperWord = some r.leadingKeyword ∧
      r.leadingKeyword ∈ allowedStarts ∧
      ∀ d ∈ denyTokens, d ∈ (words (stripLiteralsForScan sql.toList)).map upperWord →
        r.leadingKeyword = "EXPLAIN" ∧ d = "SET" := by
  obtain ⟨-, stmtScan, token, hstmt, htoken, hstart, -, hhit, rfl⟩ := check_eq_ok_iff.1 h
  have hwords : words (stripLiteralsForScan sql.toList) = words stmtScan := by
    rw [← flatMap_words_splitStatements, hstmt]; simp
  refine ⟨by rw [hstmt]; rfl, ?_, hstart, fun d hd hw => ?_⟩
  · rw [hwords, head?_words_of_firstToken htoken]; rfl
  · rw [hwords] at hw
    have hmem : d ∈ deniedHits stmtScan := mem_deniedHits.2 ⟨hd, hw⟩
    rcases hhit with hhit | ⟨hexp, hhit⟩
    · rw [hhit] at hmem; cases hmem
    · rw [hhit] at hmem; exact ⟨hexp, List.mem_singleton.1 hmem⟩

end RoboMeta
