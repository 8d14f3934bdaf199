/-
  The reference lexer of SQL text.

  It reads the text once from left to right: whichever of `--`, `/*`, a single
  quote, a double quote or a `$tag$` opens first hides everything up to its own
  terminator (end of line, `*/`, a quote that is not doubled, the same tag), or
  up to the end of the text if the terminator never comes.

  * `visible` is the text with every hidden character blanked;
  * `statements` are the pieces of the text between its visible semicolons.
-/
import RoboMeta.SqlGuard

namespace RoboMeta

/-- The symbols up to and including the closing quote, doubled quotes being
    part of the region. -/
def closingQuote (q : Char) : Text → Option ℕ
  | [] => none
  | [c] => if c = q then some 1 else none
  | c :: d :: s =>
    if c = q then
      if d = q then (closingQuote q s).map (· + 2) else some 1
    else (closingQuote q (d :: s)).map (· + 1)

/-- The length of the hidden region that opens at the head of the text. -/
def hiddenRegion : Scan.Matcher Char
  | '-' :: '-' :: s => lineComment ('-' :: '-' :: s)
  | '/' :: '*' :: s => some (((upTo ['*', '/'] s).getD s.length) + 2)
  | '\'' :: s => some (((closingQuote '\'' s).getD s.length) + 1)
  | '"' :: s => some (((closingQuote '"' s).getD s.length) + 1)
  | s => dollarQuoted s

/-- The text with every hidden character blanked. -/
def visible (sql : Text) : Text := (Scan.mark hiddenRegion sql).map fun m => if m.2 then m.1 else ' '

theorem mem_visible {c : Char} {sql : Text} (h : c ∈ visible sql) : c ∈ sql ∨ c = ' ' := by
  obtain ⟨m, hm, rfl⟩ := List.mem_map.1 h
  by_cases hshown : m.2 = true
  · rw [if_pos hshown, ← Scan.map_fst_markFrom hiddenRegion 0 sql]
    exact Or.inl (List.mem_map_of_mem hm)
  · exact Or.inr (if_neg hshown)

/-- The statements of a text: its pieces between visible semicolons that hold
    some visible text. -/
def statements (sql : Text) : List Text :=
  (((Scan.mark hiddenRegion sql).splitOn (';', true)).filter fun p => p.any fun m => m.2 && !isSpace m.1).map
    (List.map Prod.fst)

end RoboMeta
