/-
  What the match of a probe means (`_space_insensitive_match_sql` of
  `services/entity_resolution.py` and `services/neo4j_client/db_probe.py`).

  The text is read as PostgreSQL reads it: its tokens are those of two text
  expressions with `ILIKE` between them, `||` binding closer, and `ILIKE` is
  `LIKE` on both sides in small letters.

  * `evalSql_match`: the expressions of a match;
  * `matches_iff`: a match is containment without blanks, ignoring case, iff the
    keyword has none of the signs `%`, `_` and `\`.
-/
import RoboMeta.Lib.Like
import RoboMeta.Lib.Scan
import RoboMeta.ProbeTokens

namespace RoboMeta

open PgLex

/-! ## Expressions -/

inductive TextExpr where
  /-- `"ident"::text`. -/
  | column (ident : String)
  | literal (s : String)
  /-- `replace(e, 'what', 'put')`. -/
  | replace (e : TextExpr) (what put : String)
  /-- `e || e'`. -/
  | concat (e e' : TextExpr)
deriving DecidableEq, Repr

/-- `text ILIKE pattern`. -/
structure IlikeExpr where
  text : TextExpr
  pattern : TextExpr
deriving DecidableEq, Repr

/-- An expression without `||` outside brackets, and what follows it. -/
def readAtom : ℕ → List Token → Option (TextExpr × List Token)
  | _, .quoted ident :: .op "::" :: .word "text" :: ts => some (.column ident, ts)
  | _, .literal s :: ts => some (.literal s, ts)
  | n + 1, .word "replace" :: .op "(" :: ts => do
    let (e, ts) ← readAtom n ts
    match ts with
    | .op "," :: .literal what :: .op "," :: .literal put :: .op ")" :: ts => some (.replace e what put, ts)
    | _ => none
  | _, _ => none

/-- The operands of `||` behind the first. -/
def readConcat : ℕ → TextExpr → List Token → Option (TextExpr × List Token)
  | n + 1, e, .op "||" :: ts => do
    let (e', ts) ← readAtom n ts
    readConcat n (.concat e e') ts
  | _, e, ts => some (e, ts)

def readText (ts : List Token) : Option (TextExpr × List Token) := do
  let (e, rest) ← readAtom ts.length ts
  readConcat ts.length e rest

def readIlike (ts : List Token) : Option IlikeExpr := do
  let (text, rest) ← readText ts
  match rest with
  | .word "ILIKE" :: rest => do
    let (pattern, rest) ← readText rest
    if rest = [] then some ⟨text, pattern⟩ else none
  | _ => none

/-! ## Their values -/

/-- The small letters of a collation that maps the characters one by one. -/
structure CharCollation where
  lower : Char → Char
  special : ∀ c, Like.Special c ∨ Like.Special (lower c) → lower c = c

/-- The value in a row, given by the texts of its columns. -/
def TextExpr.eval (row : String → String) : TextExpr → String
  | .column ident => row ident
  | .literal s => s
  | .replace e what put =>
    String.ofList (Scan.replace (Scan.occurrence what.toList) put.toList (e.eval row).toList)
  | .concat e e' => e.eval row ++ e'.eval row

/-- Nothing, if the pattern ends in an escape. -/
def ilike (C : CharCollation) (text pattern : String) : Option Bool :=
  (Like.parse (pattern.toList.map C.lower)).map fun items => Like.like items (text.toList.map C.lower)

def IlikeExpr.eval (C : CharCollation) (row : String → String) (e : IlikeExpr) : Option Bool :=
  ilike C (e.text.eval row) (e.pattern.eval row)

/-- What an SQL text says of a row. -/
def evalSql (C : CharCollation) (sql : String) (row : String → String) : Option Bool := do
  let ts ← lex sql
  let e ← readIlike ts
  e.eval C row

/-! ## The match -/

def matchExpr (ident kw : String) : IlikeExpr where
  text := .replace (.column ident) " " ""
  pattern := .concat (.concat (.literal "%") (.replace (.literal kw) " " "")) (.literal "%")

theorem readIlike_matchTokens (ident kw : String) :
    readIlike (matchTokens [.quoted ident] kw) = some (matchExpr ident kw) := rfl

/-- The expressions of a match. -/
theorem evalSql_match (C : CharCollation) {col : String} (hcol : safeIdent col ≠ "") (kw : String)
    (row : String → String) :
    evalSql C (spaceInsensitiveMatchSql (quotedIdent col) (doubleQuotes kw)) row =
      (matchExpr (safeIdent col) kw).eval C row := by
  have hlex := (reads_match (reads_quotedIdent col) kw).lex
  rw [identTokens_of_ne hcol] at hlex
  simp only [evalSql, hlex, Option.bind_eq_bind, Option.bind_some, readIlike_matchTokens]

section
variable (C : CharCollation)

/-- A text without blanks in small letters. -/
def unspaced (s : String) : List Char := (s.toList.filter (· ≠ ' ')).map C.lower

/-- The label contains the keyword, but for blanks and case. -/
def ContainsKeyword (label kw : String) : Prop := unspaced C kw <:+: unspaced C label

variable {C}

theorem lower_special {c : Char} (h : Like.Special c) : C.lower c = c := C.special c (Or.inl h)

theorem lower_ne_underscore : C.lower 'a' ≠ '_' := fun h => by
  have hfix := C.special 'a' (Or.inr (Or.inr (Or.inl h)))
  exact absurd (hfix.symm.trans h) (by decide)

/-- The keyword has no special sign iff what is matched has none. -/
theorem unspaced_plain_iff {kw : String} :
    (∀ c ∈ unspaced C kw, ¬ Like.Special c) ↔ ∀ c ∈ kw.toList, ¬ Like.Special c := by
  constructor
  · intro h c hc hspecial
    have hblank : c ≠ ' ' := by
      rintro rfl
      exact absurd hspecial (by decide)
    refine h (C.lower c) (List.mem_map_of_mem (List.mem_filter.2 ⟨hc, by simpa using hblank⟩)) ?_
    rwa [lower_special hspecial]
  · intro h d hd hspecial
    obtain ⟨c, hc, rfl⟩ := List.mem_map.1 hd
    refine h c (List.mem_filter.1 hc).1 ?_
    rwa [C.special c (Or.inr hspecial)] at hspecial

/-- Both sides of a match, in small letters. -/
theorem matchExpr_eval (ident kw : String) (row : String → String) :
    (matchExpr ident kw).eval C row =
      (Like.parse ('%' :: (unspaced C kw ++ ['%']))).map fun items => Like.like items (unspaced C (row ident)) := by
  have hpercent : C.lower '%' = '%' := lower_special (Or.inl rfl)
  have htext : (((matchExpr ident kw).text.eval row).toList.map C.lower) = unspaced C (row ident) := by
    simp only [matchExpr, TextExpr.eval, String.toList_ofList]
    rw [show " ".toList = [' '] from rfl, show "".toList = [] from rfl, Scan.replace_occurrence_nil]
    rfl
  have hpattern : (((matchExpr ident kw).pattern.eval row).toList.map C.lower) = '%' :: (unspaced C kw ++ ['%']) := by
    simp only [matchExpr, TextExpr.eval, String.toList_append, String.toList_ofList]
    rw [show " ".toList = [' '] from rfl, show "".toList = [] from rfl, show "%".toList = ['%'] from rfl,
      Scan.replace_occurrence_nil]
    simp [unspaced, hpercent]
  rw [IlikeExpr.eval, ilike, htext, hpattern]

/-- The text of a label that shows the difference. -/
theorem unspaced_sample (kw : String) : unspaced C (String.ofList (Like.sample 'a' (kw.toList.filter (· ≠ ' ')))) =
    Like.sample (C.lower 'a') (unspaced C kw) := by
  have hblank : ∀ c ∈ Like.sample 'a' (kw.toList.filter (· ≠ ' ')), decide (c ≠ ' ') = true := by
    intro c hc
    rw [decide_eq_true_eq]
    obtain hc | rfl | rfl := Like.mem_sample hc
    · simpa using (List.mem_filter.1 hc).2
    · decide
    · decide
  rw [unspaced, String.toList_ofList, List.filter_eq_self.2 hblank, Like.map_sample C.special]
  rfl

/-- **A match is containment** without blanks, ignoring case, iff the keyword has no `%`, `_` or `\`. -/
theorem matches_iff {col : String} (hcol : safeIdent col ≠ "") (kw : String) :
    (∀ row, evalSql C (spaceInsensitiveMatchSql (quotedIdent col) (doubleQuotes kw)) row = some true ↔
      ContainsKeyword C (row (safeIdent col)) kw) ↔ ∀ c ∈ kw.toList, ¬ Like.Special c := by
  simp only [evalSql_match C hcol, matchExpr_eval]
  rw [← unspaced_plain_iff (C := C)]
  constructor
  · intro h
    obtain ⟨items, hparse, hlike⟩ := Like.like_sample (C.lower 'a') (unspaced C kw)
    have hcontains := (h fun _ => String.ofList (Like.sample 'a' (kw.toList.filter (· ≠ ' ')))).1 (by
      rw [Like.parse, hparse, unspaced_sample]
      simpa using Like.like_many_of_like hlike)
    rw [ContainsKeyword, unspaced_sample] at hcontains
    exact Like.plain_of_infix_sample lower_ne_underscore hcontains
  · intro h row
    obtain ⟨items, hparse, hlike⟩ := Like.like_contains h
    rw [hparse, Option.map_some, Option.some.injEq, hlike]
    rfl

end

theorem toLower_of_special {c : Char} (h : Like.Special c.toLower) : c.toLower = c := by
  by_cases hc : c.val ≥ 'A'.val ∧ c.val ≤ 'Z'.val
  · -- a small letter is none of the signs
    obtain ⟨hge, hval⟩ := toNat_toLower hc
    have hspecial : c.toLower.val.toNat ≤ 95 := by
      rcases h with h | h | h <;> rw [h] <;> decide
    omega
  · exact dif_neg hc

/-- The letters of ASCII. -/
def asciiLetters : CharCollation where
  lower := Char.toLower
  special c h := by
    rcases h with (rfl | rfl | rfl) | h
    · rfl
    · rfl
    · rfl
    · exact toLower_of_special h

theorem matches_iff_dam :
    (∀ row, evalSql asciiLetters (spaceInsensitiveMatchSql (quotedIdent "SUJ_NAME") (doubleQuotes "Dam A")) row =
      some true ↔ ContainsKeyword asciiLetters (row (safeIdent "SUJ_NAME")) "Dam A") ↔
      ∀ c ∈ "Dam A".toList, ¬ Like.Special c :=
  matches_iff (by decide) "Dam A"

/-- The keyword `TN%` matches the label `TN`. -/
theorem not_forall_matches : ¬ ∀ (C : CharCollation) (col kw : String) (row : String → String), safeIdent col ≠ "" →
    (evalSql C (spaceInsensitiveMatchSql (quotedIdent col) (doubleQuotes kw)) row = some true ↔
      ContainsKeyword C (row (safeIdent col)) kw) := by
  intro h
  have hiff := h asciiLetters "ITEM_NAME" "TN%" (fun _ => "TN") (by decide)
  have hmatch : evalSql asciiLetters (spaceInsensitiveMatchSql (quotedIdent "ITEM_NAME") (doubleQuotes "TN%"))
      (fun _ => "TN") = some true := by
    rw [evalSql_match _ (by decide)]
    decide +kernel
  have hnot : ¬ unspaced asciiLetters "TN%" <:+: unspaced asciiLetters "TN" := by decide +kernel
  exact hnot (hiff.1 hmatch)

end RoboMeta
