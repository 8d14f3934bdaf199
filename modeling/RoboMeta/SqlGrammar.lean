/-
  A reference grammar of the statements the text guard lets begin.

  It has SELECT with common table expressions, set operations, subqueries, the
  INTO targets and the locking clauses of PostgreSQL and MySQL, VALUES, TABLE,
  SHOW and EXPLAIN.  Every clause that creates, changes or locks a table or
  writes a file has a nonterminal of its own.

  * `Token`, `Terminal.fits`: what stands for the terminals in a statement;
  * `grammar`: the rules, by what they are rules for;
  * `WrittenAs`: the texts a list of tokens is written as, and `spaced`, one of
    them.
-/
import RoboMeta.Lib.Grammar
import RoboMeta.SqlGuardComplete

namespace RoboMeta

/-! ## Tokens -/

/-- `[A-Za-z_][A-Za-z_0-9]*`. -/
def isWord (w : Text) : Bool := w.head?.any wordStart && w.all wordCont

inductive Token where
  | word (w : Text) (valid : isWord w = true)
  /-- `"body"`. -/
  | quoted (body : Text)
  /-- The quoted names of MySQL. -/
  | backquoted (body : Text)
  /-- `'body'`. -/
  | literal (body : Text)
  /-- An operator, a punctuation mark or the digits of a number. -/
  | sign (s : Text) (valid : s.any wordStart = false)
deriving DecidableEq

inductive Terminal where
  | key (k : String)
  | sign (s : String)
  | operator
  | number
  | literal
  | name

def operators : List String := ["+", "-", "*", "/", "%", "=", "<>", "!=", "<", "<=", ">", ">=", "||"]

/-- The keywords that are no names in either dialect. -/
def reserved : List String :=
  ["SELECT", "FROM", "WHERE", "GROUP", "HAVING", "ORDER", "LIMIT", "FETCH", "INTO", "FOR", "UNION", "INTERSECT",
   "EXCEPT", "WITH", "AS", "ON", "USING", "JOIN", "INNER", "LEFT", "RIGHT", "CROSS", "NATURAL", "LATERAL", "TABLE",
   "AND", "OR", "NOT", "IS", "NULL", "IN", "LIKE", "BETWEEN", "EXISTS", "ALL", "DISTINCT", "CASE", "WHEN", "THEN",
   "ELSE", "ASC", "DESC", "CREATE"]

def Terminal.fits : Terminal → Token → Bool
  | .key k, .word w _ => upperWord w == k
  | .sign s, .sign s' _ => s' == s.toList
  | .operator, .sign s _ => operators.contains (String.ofList s)
  | .number, .sign s _ => !s.isEmpty && s.all Char.isDigit
  | .literal, .literal _ => true
  | .name, .word w _ => !reserved.contains (upperWord w)
  | .name, .quoted _ => true
  | .name, .backquoted _ => true
  | _, _ => false

/-! ## Rules -/

/-- The clauses that create, change or lock a table or write a file. -/
inductive Clause where
  | selectInto | outfile | dumpfile
  | insert | update | delete | merge | createTable
  | forUpdate | forNoKeyUpdate | forShare | forKeyShare | lockInShareMode
deriving DecidableEq

inductive Phrase where
  | statement | explainOptions | explainOption | explained
  | query | withClause | ctes | cte | materialized | cteBody | change
  | body | setOperation | quantifier | select | distinct | items | item
  | into | temporary | tableWord | targets
  | fromClause | tables | table | lateral | join | joinCondition | aliasClause
  | whereClause | groupClause | havingClause | orderClause | orderItems | direction | limitClause
  | locks | lock | lockedTables | lockWait
  | rows | row | exprs | expr | column | call | partition | whens | elseClause
  | settings | names | columns | tableName | assignments | returning | matched | mergeAction
  | clause (c : Clause)
deriving DecidableEq

abbrev SqlTree := Grammar.Tree Token Phrase

abbrev Rule := ContextFreeRule Terminal Phrase

instance : Coe String (Symbol Terminal Phrase) := ⟨fun k => .terminal (.key k)⟩

instance : Coe Terminal (Symbol Terminal Phrase) := ⟨.terminal⟩

instance : Coe Phrase (Symbol Terminal Phrase) := ⟨.nonterminal⟩

def alternatives (p : Phrase) (bodies : List (List (Symbol Terminal Phrase))) : List Rule :=
  bodies.map fun body => ⟨p, body⟩

section
open Phrase Terminal

def lparen : Terminal := .sign "("
def rparen : Terminal := .sign ")"
def comma : Terminal := .sign ","
def dot : Terminal := .sign "."
def star : Terminal := .sign "*"

def statementRules : List Rule :=
  alternatives statement
    [[query], ["SHOW", settings], ["SHOW", "ALL"], ["SHOW", settings, "FROM", tableName],
     ["EXPLAIN", explainOptions, explained]] ++
  alternatives explainOptions
    [[], ["ANALYZE"], ["VERBOSE"], ["ANALYZE", "VERBOSE"], ["FORMAT", Terminal.sign "=", name],
     [lparen, explainOption, rparen], [lparen, explainOption, comma, explainOption, rparen]] ++
  alternatives explainOption [["ANALYZE"], [name], [name, name]] ++
  alternatives explained [[query], [change], [clause .createTable]]

def queryRules : List Rule :=
  alternatives query
    [[withClause, body, orderClause, limitClause, locks, into], [withClause, body, orderClause, locks, limitClause]] ++
  alternatives withClause [[], ["WITH", ctes], ["WITH", "RECURSIVE", ctes]] ++
  alternatives ctes [[cte], [cte, comma, ctes]] ++
  alternatives cte [[name, columns, "AS", materialized, lparen, cteBody, rparen]] ++
  alternatives materialized [[], ["MATERIALIZED"], ["NOT", "MATERIALIZED"]] ++
  alternatives cteBody [[query], [change]] ++
  alternatives body
    [[select], ["VALUES", rows], ["TABLE", tableName], [lparen, query, rparen],
     [body, setOperation, quantifier, body]] ++
  alternatives setOperation [["UNION"], ["INTERSECT"], ["EXCEPT"]] ++
  alternatives quantifier [[], ["ALL"], ["DISTINCT"]] ++
  alternatives select [["SELECT", distinct, items, into, fromClause, whereClause, groupClause, havingClause]] ++
  alternatives distinct [[quantifier], ["DISTINCT", "ON", lparen, exprs, rparen]] ++
  alternatives items [[item], [item, comma, items]] ++
  alternatives item [[star], [name, dot, star], [expr], [expr, "AS", name], [expr, name]]

def intoRules : List Rule :=
  alternatives into [[], [clause .selectInto], [clause .outfile], [clause .dumpfile], ["INTO", targets]] ++
  alternatives (clause .selectInto) [["INTO", temporary, tableWord, tableName]] ++
  alternatives temporary [[], ["TEMPORARY"], ["TEMP"], ["UNLOGGED"]] ++
  alternatives tableWord [[], ["TABLE"]] ++
  alternatives (clause .outfile) [["INTO", "OUTFILE", Terminal.literal], ["INTO", "OUTFILE", name]] ++
  alternatives (clause .dumpfile) [["INTO", "DUMPFILE", Terminal.literal], ["INTO", "DUMPFILE", name]] ++
  alternatives targets [[Terminal.sign "@", name], [Terminal.sign "@", name, comma, targets]]

def tableRules : List Rule :=
  alternatives fromClause [[], ["FROM", tables]] ++
  alternatives tables [[table], [table, comma, tables]] ++
  alternatives table
    [[tableName, aliasClause], [lateral, lparen, query, rparen, aliasClause], [lateral, call, aliasClause],
     [lparen, table, rparen], [table, join, table, joinCondition]] ++
  alternatives lateral [[], ["LATERAL"]] ++
  alternatives join
    [["JOIN"], ["INNER", "JOIN"], ["LEFT", "JOIN"], ["LEFT", "OUTER", "JOIN"], ["RIGHT", "JOIN"],
     ["RIGHT", "OUTER", "JOIN"], ["FULL", "JOIN"], ["FULL", "OUTER", "JOIN"], ["CROSS", "JOIN"],
     ["NATURAL", "JOIN"]] ++
  alternatives joinCondition [[], ["ON", expr], ["USING", lparen, names, rparen]] ++
  alternatives aliasClause [[], [name, columns], ["AS", name, columns]] ++
  alternatives whereClause [[], ["WHERE", expr]] ++
  alternatives groupClause [[], ["GROUP", "BY", exprs]] ++
  alternatives havingClause [[], ["HAVING", expr]] ++
  alternatives orderClause [[], ["ORDER", "BY", orderItems]] ++
  alternatives orderItems [[expr, direction], [expr, direction, comma, orderItems]] ++
  alternatives direction [[], ["ASC"], ["DESC"]] ++
  alternatives limitClause
    [[], ["LIMIT", expr], ["LIMIT", "ALL"], ["LIMIT", expr, comma, expr], ["LIMIT", expr, "OFFSET", expr],
     ["OFFSET", expr], ["FETCH", "FIRST", number, "ROWS", "ONLY"]]

def lockRules : List Rule :=
  alternatives locks [[], [lock, locks]] ++
  alternatives lock
    [[clause .forUpdate], [clause .forNoKeyUpdate], [clause .forShare], [clause .forKeyShare],
     [clause .lockInShareMode]] ++
  alternatives (clause .forUpdate) [["FOR", "UPDATE", lockedTables, lockWait]] ++
  alternatives (clause .forNoKeyUpdate) [["FOR", "NO", "KEY", "UPDATE", lockedTables, lockWait]] ++
  alternatives (clause .forShare) [["FOR", "SHARE", lockedTables, lockWait]] ++
  alternatives (clause .forKeyShare) [["FOR", "KEY", "SHARE", lockedTables, lockWait]] ++
  alternatives (clause .lockInShareMode) [["LOCK", "IN", "SHARE", "MODE"]] ++
  alternatives lockedTables [[], ["OF", names]] ++
  alternatives lockWait [[], ["NOWAIT"], ["SKIP", "LOCKED"]]

def exprRules : List Rule :=
  alternatives rows [[row], [row, comma, rows]] ++
  alternatives row [[lparen, exprs, rparen], ["ROW", lparen, exprs, rparen]] ++
  alternatives exprs [[expr], [expr, comma, exprs]] ++
  alternatives expr
    [[column], [number], [Terminal.literal], ["NULL"], [call], [lparen, expr, rparen], [lparen, query, rparen],
     ["EXISTS", lparen, query, rparen], [operator, expr], [expr, operator, expr],
     [expr, operator, "ANY", lparen, query, rparen], [expr, operator, "ALL", lparen, query, rparen],
     ["NOT", expr], [expr, "AND", expr], [expr, "OR", expr], [expr, "IS", "NULL"], [expr, "IS", "NOT", "NULL"],
     [expr, "LIKE", expr], [expr, "NOT", "LIKE", expr], [expr, "BETWEEN", expr, "AND", expr],
     [expr, "IN", lparen, exprs, rparen], [expr, "NOT", "IN", lparen, exprs, rparen],
     [expr, "IN", lparen, query, rparen], [expr, "NOT", "IN", lparen, query, rparen],
     ["CASE", whens, elseClause, "END"], ["CASE", expr, whens, elseClause, "END"],
     ["CAST", lparen, expr, "AS", name, rparen]] ++
  alternatives column [[name], [name, dot, name], [name, dot, name, dot, name]] ++
  alternatives call
    [[name, lparen, rparen], [name, lparen, star, rparen], [name, lparen, quantifier, exprs, rparen],
     [call, "OVER", lparen, partition, orderClause, rparen]] ++
  alternatives partition [[], ["PARTITION", "BY", exprs]] ++
  alternatives whens [["WHEN", expr, "THEN", expr], ["WHEN", expr, "THEN", expr, whens]] ++
  alternatives elseClause [[], ["ELSE", expr]] ++
  alternatives settings [[name], [name, settings]] ++
  alternatives names [[name], [name, comma, names]] ++
  alternatives columns [[], [lparen, names, rparen]] ++
  alternatives tableName [[name], [name, dot, name], [name, dot, name, dot, name]]

def changeRules : List Rule :=
  alternatives change [[clause .insert], [clause .update], [clause .delete], [clause .merge]] ++
  alternatives (clause .insert) [["INSERT", "INTO", tableName, columns, query, returning]] ++
  alternatives (clause .update)
    [["UPDATE", tableName, aliasClause, "SET", assignments, fromClause, whereClause, returning]] ++
  alternatives (clause .delete) [["DELETE", "FROM", tableName, aliasClause, whereClause, returning],
    ["DELETE", "FROM", tableName, aliasClause, "USING", tables, whereClause, returning]] ++
  alternatives (clause .merge) [["MERGE", "INTO", tableName, aliasClause, "USING", table, "ON", expr, matched]] ++
  alternatives (clause .createTable) [["CREATE", temporary, "TABLE", tableName, columns, "AS", query]] ++
  alternatives assignments
    [[column, Terminal.sign "=", expr], [column, Terminal.sign "=", expr, comma, assignments]] ++
  alternatives returning [[], ["RETURNING", items]] ++
  alternatives matched
    [["WHEN", "MATCHED", "THEN", mergeAction], ["WHEN", "NOT", "MATCHED", "THEN", mergeAction],
     ["WHEN", "MATCHED", "THEN", mergeAction, matched], ["WHEN", "NOT", "MATCHED", "THEN", mergeAction, matched]] ++
  alternatives mergeAction
    [["DELETE"], ["DO", "NOTHING"], ["UPDATE", "SET", assignments], ["INSERT", columns, "VALUES", row]]

end

def grammar : List Rule :=
  statementRules ++ queryRules ++ intoRules ++ tableRules ++ lockRules ++ exprRules ++ changeRules

/-- The tree is a derivation of a statement. -/
def IsStatement (t : SqlTree) : Prop := Grammar.Derivation grammar (fun a k => a.fits k = true) .statement t

/-- The statement has the clause, at any depth. -/
def HasClause (t : SqlTree) (c : Clause) : Prop := ∃ x ∈ t.walk, x.label = .nonterminal (.clause c)

/-! ## Texts -/

def Token.pieces : Token → List Piece
  | .word w _ => w.map .char
  | .quoted body => [.double body]
  | .backquoted body => .char '`' :: body.map .char ++ [.char '`']
  | .literal body => [.single body]
  | .sign s _ => s.map .char

/-- The token is not taken further by what follows. -/
def Token.Ends (next : Option Char) : Token → Prop
  | .word _ _ => next.any wordCont = false
  | _ => True

/-- The tokens with white space between them, and semicolons behind. -/
inductive Written : List Token → List Piece → Prop
  | done {gap : Text} : Idling gap → Written [] (gap.map .char)
  | token {gap : Text} {t : Token} {ts : List Token} {ps : List Piece} : Blank gap → t.Ends (after 0 ps).head? →
      Written ts ps → Written (t :: ts) (gap.map .char ++ t.pieces ++ ps)

/-- The text is made of the tokens; no comment stands between them, and nothing
    in them opens one or is taken for a literal. -/
def WrittenAs (ts : List Token) (sql : Text) : Prop := ∃ ps, Written ts ps ∧ Fit ps ∧ after 0 ps = sql

/-- A blank before each token. -/
def spaced (ts : List Token) : List Piece := ts.flatMap fun t => .char ' ' :: t.pieces

theorem written_spaced (ts : List Token) : Written ts (spaced ts) := by
  induction ts with
  | nil => exact @Written.done [] nofun
  | cons t ts ih =>
    refine @Written.token [' '] t ts (spaced ts) (by simp [Blank, isSpace]) ?_ ih
    cases t with
    | word w valid => cases ts <;> rfl
    | _ => trivial

theorem writtenAs_spaced {ts : List Token} (h : Fit (spaced ts)) : WrittenAs ts (after 0 (spaced ts)) :=
  ⟨spaced ts, written_spaced ts, h, rfl⟩

/-! ## Words -/

theorem words_of_isWord {w s : Text} (hw : isWord w = true) (hs : s.head?.any wordCont = false) :
    words (w ++ s) = w :: words s := by
  obtain ⟨hhead, hall⟩ := Bool.and_eq_true_iff.1 hw
  cases w with
  | nil => cases hhead
  | cons a w =>
    have hcont : ∀ c, wordStart c = true → wordCont c = true := fun c h => by
      simp only [wordStart, wordCont, Char.isAlphanum, Bool.or_eq_true] at h ⊢
      exact h.imp_left Or.inl
    exact Words.words_append_word hcont hhead
      (fun b hb => List.all_eq_true.1 hall b (List.mem_cons_of_mem _ hb)) hs

theorem after_chars (k : ℕ) (w : Text) : after k (w.map .char) = w := by
  induction w with
  | nil => rfl
  | cons c w ih => exact congrArg (c :: ·) ih

theorem after_append (k : ℕ) (ps qs : List Piece) : after k (ps ++ qs) = after k ps ++ after k qs :=
  List.flatMap_append

/-- What stands in a token is read apart from what follows. -/
theorem words_token (t : Token) {s : Text} (hs : t.Ends s.head?) :
    ∃ ws, words (after 5 t.pieces ++ s) = ws ++ words s ∧ ∀ w valid, t = .word w valid → w ∈ ws := by
  have hclosed : ∀ (u : Text) (q : Char), wordStart q = false → wordCont q = false →
      words (u ++ [q] ++ s) = words u ++ words s := fun u q hstart hcont => by
    rw [List.append_assoc]
    exact Words.words_append_sep hstart hcont u s
  cases t with
  | word w valid =>
    refine ⟨[w], ?_, fun w' _ h => ?_⟩
    · rw [Token.pieces, after_chars]
      exact words_of_isWord valid hs
    · cases h
      exact List.mem_singleton_self w
  | quoted body => exact ⟨_, hclosed ['"', 'i', 'd'] '"' (by decide) (by decide), nofun⟩
  | backquoted body =>
    refine ⟨words ('`' :: body), ?_, nofun⟩
    rw [Token.pieces, after_append]
    have hafter : after 5 (.char '`' :: body.map .char) = '`' :: body := congrArg ('`' :: ·) (after_chars 5 body)
    rw [hafter]
    exact hclosed ('`' :: body) '`' (by decide) (by decide)
  | literal body => exact ⟨_, hclosed ['\'', ' '] '\'' (by decide) (by decide), nofun⟩
  | sign u valid =>
    refine ⟨[], ?_, nofun⟩
    rw [Token.pieces, after_chars]
    exact Words.words_append_of_not_start (fun c hc => Bool.eq_false_of_not_eq_true (List.any_eq_false.1 valid c hc)) s

/-- A blank put for a region does not continue a word either. -/
theorem Token.Ends.after {t : Token} {ps : List Piece} (h : t.Ends (after 0 ps).head?) (k : ℕ) :
    t.Ends (RoboMeta.after k ps).head? := by
  rcases head?_after k ps with hhead | ⟨-, hhead⟩
  · rwa [hhead]
  · rw [hhead]
    cases t with
    | word w valid => rfl
    | _ => trivial

/-- The words of a statement are words of its scan. -/
theorem Written.mem_words {ts : List Token} {ps : List Piece} (h : Written ts ps) {w : Text} {valid : isWord w = true}
    (hw : .word w valid ∈ ts) : w ∈ words (after 5 ps) := by
  induction h with
  | done hgap => cases hw
  | @token gap t ts ps hgap hends _ ih =>
    obtain ⟨ws, hwords, hmem⟩ := words_token t (hends.after 5)
    have hskip : words (after 5 (gap.map .char ++ t.pieces ++ ps)) = ws ++ words (after 5 ps) := by
      rw [after_append, after_append, after_chars, List.append_assoc, ← hwords]
      exact Words.words_append_of_not_start (fun c hc => (not_word_of_isSpace c (hgap c hc)).1) _
    rw [hskip]
    rcases List.mem_cons.1 hw with hhead | htail
    · exact List.mem_append_left _ (hmem w valid hhead.symm)
    · exact List.mem_append_right _ (ih htail)

theorem WrittenAs.mem_words {ts : List Token} {sql : Text} (h : WrittenAs ts sql) {w : Text} {valid : isWord w = true}
    (hw : .word w valid ∈ ts) : w ∈ words (stripLiteralsForScan sql) := by
  obtain ⟨ps, hwritten, hfit, rfl⟩ := h
  rw [scan_after hfit]
  exact hwritten.mem_words hw

end RoboMeta
