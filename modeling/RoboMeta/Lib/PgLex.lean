/-
  A part of the lexical rules of PostgreSQL (standard strings).

  The text is read from left to right.  A quoted identifier and a literal go on to
  a quote that is not doubled, and stand for what is between, the doubled quotes
  single; words, numbers and operators are as long as they can be.  What begins
  with another sign than these tokens do is not read at all: comments, dollar
  quotes, parameters, the operators with `-`, `/`, `+` or `&`, and line breaks
  outside quotes, which could join two literals.  Nor are a literal or a quoted
  identifier right behind a word (the prefixes of other kinds of literals) and a
  number with a point.  So where this lexer reads a text, it reads what PostgreSQL
  does.  (The null character, which no text of PostgreSQL has, is not told apart.)

  * `Reads ends s ts`: before the end of the text or a character that `ends` it,
    `s` is read as the tokens `ts`; `Reads.append`: such texts are joined;
  * `reads_literal`, `reads_quoted`, `reads_toString`, `reads_of_run`.
-/
import Mathlib.Data.List.Basic

namespace PgLex

inductive Token where
  /-- A keyword or an identifier without quotes. -/
  | word (w : String)
  | quoted (w : String)
  | literal (s : String)
  | number (n : String)
  /-- An operator or a punctuation sign. -/
  | op (o : String)
deriving DecidableEq, Repr

/-- What is read so far of a token. -/
inductive State where
  | start
  | word (w : List Char)
  | number (n : List Char)
  | op (o : List Char)
  | colon
  | dot
  | literal (s : List Char)
  /-- A quote in a literal: it ends the literal unless another one follows. -/
  | literalQuote (s : List Char)
  | quoted (w : List Char)
  | quotedQuote (w : List Char)
deriving DecidableEq, Repr

def wordStart (c : Char) : Bool := c.isAlpha || c == '_' || 128 ≤ c.toNat

def wordChar (c : Char) : Bool := wordStart c || c.isDigit

def opChar (c : Char) : Bool := c ∈ ['*', '<', '>', '=', '~', '!', '@', '#', '%', '^', '|', '?']

/-- The first character of a token, or a blank. -/
def enter (c : Char) : Option (State × List Token) :=
  if c = ' ' then some (.start, [])
  else if c = '\'' then some (.literal [], [])
  else if c = '"' then some (.quoted [], [])
  else if wordStart c then some (.word [c], [])
  else if c.isDigit then some (.number [c], [])
  else if c = ':' then some (.colon, [])
  else if c = '.' then some (.dot, [])
  else if c ∈ ['(', ')', ',', ';', '[', ']'] then some (.start, [.op (String.ofList [c])])
  else if opChar c then some (.op [c], [])
  else none

/-- The token that a text may end in. -/
def finish : State → Option (List Token)
  | .start => some []
  | .word w => some [.word (String.ofList w)]
  | .number n => some [.number (String.ofList n)]
  | .op o => some [.op (String.ofList o)]
  | .dot => some [.op "."]
  | .literalQuote s => some [.literal (String.ofList s)]
  | .quotedQuote w => if w = [] then none else some [.quoted (String.ofList w)]
  | .colon | .literal _ | .quoted _ => none

/-- With these tokens before. -/
def after (ts : List Token) (r : Option (State × List Token)) : Option (State × List Token) :=
  r.map fun r => (r.1, ts ++ r.2)

/-- The token ends, and the character is the first one of another. -/
def close (st : State) (c : Char) : Option (State × List Token) := do
  let ts ← finish st
  after ts (enter c)

def step : State → Char → Option (State × List Token)
  | .start, c => enter c
  | .word w, c =>
    if wordChar c then some (.word (w ++ [c]), [])
    else if c ∈ ['\'', '"', '$'] then none
    else close (.word w) c
  | .number n, c =>
    if c.isDigit then some (.number (n ++ [c]), [])
    else if wordStart c ∨ c = '.' then none
    else close (.number n) c
  | .op o, c => if opChar c then some (.op (o ++ [c]), []) else close (.op o) c
  | .colon, c => if c = ':' then some (.start, [.op "::"]) else none
  | .dot, c => if c.isDigit ∨ c = '.' then none else close .dot c
  | .literal s, c => if c = '\'' then some (.literalQuote s, []) else some (.literal (s ++ [c]), [])
  | .literalQuote s, c => if c = '\'' then some (.literal (s ++ [c]), []) else close (.literalQuote s) c
  | .quoted w, c => if c = '"' then some (.quotedQuote w, []) else some (.quoted (w ++ [c]), [])
  | .quotedQuote w, c => if c = '"' then some (.quoted (w ++ [c]), []) else close (.quotedQuote w) c

/-- The tokens of a text, and what is read of the one that it ends in. -/
def run : State → List Char → Option (State × List Token)
  | st, [] => some (st, [])
  | st, c :: s => do
    let (st', ts) ← step st c
    after ts (run st' s)

def lexFrom (st : State) (s : List Char) : Option (List Token) := do
  let (st', ts) ← run st s
  let last ← finish st'
  return ts ++ last

def lex (s : String) : Option (List Token) := lexFrom .start s.toList

variable {st st' : State} {c : Char} {s t w : List Char} {ts ts' last : List Token}

/-! ## Running -/

@[simp] theorem after_nil (r : Option (State × List Token)) : after [] r = r := by
  cases r <;> rfl

@[simp] theorem after_some (ts : List Token) (r : State × List Token) :
    after ts (some r) = some (r.1, ts ++ r.2) := rfl

@[simp] theorem run_nil : run st [] = some (st, []) := rfl

theorem run_cons (h : step st c = some (st', ts)) (s : List Char) : run st (c :: s) = after ts (run st' s) := by
  rw [run, h]
  rfl

/-- **A text is run part by part.** -/
theorem run_append : run st (s ++ t) = (run st s).bind fun r => after r.2 (run r.1 t) := by
  induction s generalizing st with
  | nil => simp
  | cons c s ih =>
    rw [List.cons_append, run, run]
    cases hstep : step st c with
    | none => rfl
    | some r =>
      obtain ⟨st', ts⟩ := r
      change after ts (run st' (s ++ t)) = (after ts (run st' s)).bind _
      rw [ih]
      cases run st' s with
      | none => rfl
      | some r => cases hrun : run r.1 t <;> simp [after, hrun]

theorem run_append_of (h : run st s = some (st', ts)) (t : List Char) : run st (s ++ t) = after ts (run st' t) := by
  rw [run_append, h]
  rfl

theorem lexFrom_append_of (h : run st s = some (st', ts)) (t : List Char) :
    lexFrom st (s ++ t) = (lexFrom st' t).map (ts ++ ·) := by
  rw [lexFrom, run_append_of h, lexFrom]
  cases run st' t with
  | none => rfl
  | some r => cases hlast : finish r.1 <;> simp [hlast]

/-- Where the next character ends a token, the rest is read from the start. -/
theorem lexFrom_close (hfinish : finish st = some last) (hclose : ∀ c ∈ t.head?, step st c = close st c) :
    lexFrom st t = (lexFrom .start t).map (last ++ ·) := by
  cases t with
  | nil => simp [lexFrom, hfinish, show finish .start = some [] from rfl]
  | cons c t =>
    have hstart : step .start c = enter c := rfl
    rw [lexFrom, lexFrom, run, run, hclose c rfl, hstart, close, hfinish]
    cases enter c with
    | none => rfl
    | some r =>
      simp only [Option.bind_eq_bind, Option.bind_some, after_some]
      cases run r.1 t with
      | none => rfl
      | some r' => cases hlast : finish r'.1 <;> simp [hlast]

/-! ## Texts that are whole tokens -/

/-- Before the end, or before a character that `ends` the text, it is these tokens. -/
def Reads (ends : Char → Prop) (s : String) (ts : List Token) : Prop :=
  ∀ t : List Char, (∀ c ∈ t.head?, ends c) → lexFrom .start (s.toList ++ t) = (lexFrom .start t).map (ts ++ ·)

variable {ends ends' : Char → Prop} {u v : String}

theorem Reads.lex (h : Reads ends u ts) : lex u = some ts := by
  have hnil := h [] (by simp)
  rwa [List.append_nil, show lexFrom .start [] = some [] from rfl, Option.map_some, List.append_nil] at hnil

theorem Reads.mono (h : Reads ends u ts) (hends : ∀ c, ends' c → ends c) : Reads ends' u ts :=
  fun t ht => h t fun c hc => hends c (ht c hc)

theorem reads_empty : Reads ends "" [] := fun t _ => by
  cases ht : lexFrom .start t <;> simp [ht]

/-- **Texts are joined** where the second begins with a character that ends the first. -/
theorem Reads.append (h : Reads ends u ts) (h' : Reads ends' v ts')
    (hends : ∀ t : List Char, (∀ c ∈ t.head?, ends' c) → ∀ c ∈ (v.toList ++ t).head?, ends c) :
    Reads ends' (u ++ v) (ts ++ ts') := by
  intro t ht
  rw [String.toList_append, List.append_assoc, h _ (hends t ht), h' t ht, Option.map_map]
  simp [Function.comp_def]

/-- A text that needs no end. -/
theorem Reads.append_any (h : Reads (fun _ => True) u ts) (h' : Reads ends' v ts') :
    Reads ends' (u ++ v) (ts ++ ts') :=
  h.append h' fun _ _ _ _ => trivial

theorem Reads.append_cons (h : Reads ends u ts) (h' : Reads ends' v ts') {rest : List Char}
    (hv : v.toList = c :: rest) (hc : ends c) : Reads ends' (u ++ v) (ts ++ ts') := by
  refine h.append h' fun t _ d hd => ?_
  rw [hv, List.cons_append, List.head?_cons, Option.mem_def, Option.some.injEq] at hd
  exact hd ▸ hc

/-- A text that is run. -/
theorem reads_of_run (h : run .start u.toList = some (st, ts)) (hfinish : finish st = some last) :
    Reads (fun c => step st c = close st c) u (ts ++ last) := by
  intro t ht
  rw [lexFrom_append_of h, lexFrom_close hfinish ht, Option.map_map]
  simp [Function.comp_def]

theorem reads_before {d : Char} (h : run .start u.toList = some (st, ts)) (hfinish : finish st = some last)
    (hclose : step st d = close st d) : Reads (fun c => c = d) u (ts ++ last) :=
  (reads_of_run h hfinish).mono fun _ hc => hc ▸ hclose

/-- A text that ends between two tokens. -/
theorem reads_of_run_start (h : run .start u.toList = some (.start, ts)) : Reads (fun _ => True) u ts := by
  intro t _
  rw [lexFrom_append_of h]

/-! ## Between quotes -/

/-- The quotes doubled. -/
def escape (s : List Char) : List Char := s.flatMap fun c => if c = '\'' then ['\'', '\''] else [c]

/-- What is between the quotes of a literal is the text before its quotes were doubled. -/
theorem run_escape (w s : List Char) : run (.literal w) (escape s) = some (.literal (w ++ s), []) := by
  induction s generalizing w with
  | nil => simp [escape]
  | cons c s ih =>
    have htail : escape (c :: s) = (if c = '\'' then ['\'', '\''] else [c]) ++ escape s := List.flatMap_cons
    rw [htail]
    by_cases hc : c = '\''
    · subst hc
      have hstep : run (.literal w) ['\'', '\''] = some (.literal (w ++ ['\'']), []) := rfl
      rw [if_pos rfl, run_append_of hstep, after_nil, ih]
      simp
    · have hstep : run (.literal w) [c] = some (.literal (w ++ [c]), []) := by simp [run, step, hc]
      rw [if_neg hc, run_append_of hstep, after_nil, ih]
      simp

/-- **A literal** stands for the text whose quotes were doubled. -/
theorem reads_literal (s : String) :
    Reads (fun c => c ≠ '\'') ("'" ++ String.ofList (escape s.toList) ++ "'") [.literal s] := by
  have hrun : run .start ("'" ++ String.ofList (escape s.toList) ++ "'").toList =
      some (.literalQuote s.toList, []) := by
    have hopen : run .start ['\''] = some (.literal [], []) := rfl
    simp only [String.toList_append, String.toList_ofList, List.append_assoc]
    rw [show "'".toList = ['\''] from rfl, run_append_of hopen, run_append_of (run_escape [] s.toList)]
    rfl
  have hreads := reads_of_run hrun rfl
  rw [String.ofList_toList] at hreads
  exact hreads.mono fun c hc => by simp [step, hc]

theorem run_quoted_chars (w : List Char) (hs : '"' ∉ s) : run (.quoted w) s = some (.quoted (w ++ s), []) := by
  induction s generalizing w with
  | nil => simp
  | cons c s ih =>
    have hc : c ≠ '"' := fun h => hs (h ▸ List.mem_cons_self)
    have hstep : step (.quoted w) c = some (.quoted (w ++ [c]), []) := by simp [step, hc]
    rw [run_cons hstep, after_nil, ih _ fun h => hs (List.mem_cons_of_mem c h)]
    simp

/-- **A quoted identifier** without quotes in it. -/
theorem reads_quoted (hne : u ≠ "") (hu : '"' ∉ u.toList) :
    Reads (fun c => c ≠ '"') ("\"" ++ u ++ "\"") [.quoted u] := by
  have hrun : run .start ("\"" ++ u ++ "\"").toList = some (.quotedQuote u.toList, []) := by
    have hopen : run .start ['"'] = some (.quoted [], []) := rfl
    simp only [String.toList_append, List.append_assoc]
    rw [show "\"".toList = ['"'] from rfl, run_append_of hopen, run_append_of (run_quoted_chars [] hu)]
    rfl
  have hfinish : finish (.quotedQuote u.toList) = some [.quoted u] := by simp [finish, hne]
  exact (reads_of_run hrun hfinish).mono fun c hc => by simp [step, hc]

/-! ## Numbers -/

theorem enter_of_isDigit (hc : c.isDigit) : enter c = some (.number [c], []) := by
  have hval : 48 ≤ c.toNat ∧ c.toNat ≤ 57 := by
    simpa [Char.isDigit, UInt32.le_iff_toNat_le] using hc
  have hne : ∀ d : Char, d.isDigit = false → c ≠ d := fun d hd h => by simp [h, hd] at hc
  have halpha : c.isAlpha = false := by
    change (decide (c.val ≥ 'A'.val ∧ c.val ≤ 'Z'.val) || (c.val ≥ 'a'.val && c.val ≤ 'z'.val)) = false
    simp only [Bool.or_eq_false_iff, ge_iff_le, Bool.and_eq_false_iff, decide_eq_false_iff_not,
      UInt32.le_iff_toNat_le, Char.toNat_val, Char.reduceToNat]
    omega
  have hword : wordStart c = false := by
    simp only [wordStart, halpha, beq_eq_false_iff_ne.2 (hne '_' rfl), Bool.false_or, decide_eq_false_iff_not]
    omega
  simp [enter, hne ' ' rfl, hne '\'' rfl, hne '"' rfl, hword, hc]

theorem run_number_chars (n : List Char) (hs : ∀ c ∈ s, c.isDigit) :
    run (.number n) s = some (.number (n ++ s), []) := by
  induction s generalizing n with
  | nil => simp
  | cons c s ih =>
    have hc : c.isDigit := hs c List.mem_cons_self
    have hstep : step (.number n) c = some (.number (n ++ [c]), []) := by simp [step, hc]
    rw [run_cons hstep, after_nil, ih _ fun d hd => hs d (List.mem_cons_of_mem c hd)]
    simp

/-- **A number in decimals** is one token. -/
theorem reads_toString (n : ℕ) : Reads (fun c => c = ' ') (toString n) [.number (toString n)] := by
  have hchars : (toString n).toList = Nat.toDigits 10 n := Nat.toList_repr
  have hrun : run .start (toString n).toList = some (.number (toString n).toList, []) := by
    have hdigits : ∀ c ∈ (toString n).toList, c.isDigit := fun c hc =>
      Nat.isDigit_of_mem_toDigits (by decide) (by decide) (hchars ▸ hc)
    cases hn : (toString n).toList with
    | nil => exact absurd (hchars.symm.trans hn) Nat.toDigits_ne_nil
    | cons c s =>
      rw [hn] at hdigits
      have hstep : step .start c = some (.number [c], []) := enter_of_isDigit (hdigits c List.mem_cons_self)
      rw [run_cons hstep, after_nil, run_number_chars _ fun d hd => hdigits d (List.mem_cons_of_mem c hd)]
      rfl
  have hfinish : finish (.number (toString n).toList) = some [.number (toString n)] := by
    rw [finish, String.ofList_toList]
  exact reads_before hrun hfinish rfl

end PgLex
