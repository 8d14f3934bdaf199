/-
  The texts of JSON values.

  A machine with a stack of open brackets reads a text character by character
  and copies it without the blanks between the tokens (`compact`): two texts
  with one copy denote the same value.  The grammar is that of the common
  readers: no control character in a string, `NaN` and the infinities among
  the numbers, one value and nothing else but blanks.
-/
import Mathlib.Data.List.Basic
import Mathlib.Data.List.DropRight

namespace JsonText

/-! ## The machine -/

def isBlank (c : Char) : Bool := c == ' ' || c == '\t' || c == '\n' || c == '\r'

/-- An open bracket. -/
inductive Bracket where
  | array
  | object
deriving DecidableEq, Repr

/-- What of an escape sequence is still to come. -/
inductive Escape where
  | none
  /-- behind the backslash -/
  | letter
  /-- one more hexadecimal digit than the number says -/
  | digits (n : ℕ)
deriving DecidableEq, Repr

/-- What is expected next. -/
inductive Mode where
  | value
  /-- a value or the end of the array -/
  | firstValue
  | key
  /-- a key or the end of the object -/
  | firstKey
  | colon
  /-- a comma, the end of what is open, or the end of the text -/
  | after
  | string (isKey : Bool) (e : Escape)
  /-- inside a number or one of the words -/
  | atom (raw : List Char)
deriving DecidableEq, Repr

structure State where
  mode : Mode
  stack : List Bracket
  out : List Char
deriving DecidableEq, Repr

def start : State := ⟨.value, [], []⟩

def isHex (c : Char) : Bool :=
  c.isDigit || "abcdefABCDEF".toList.contains c

/-- The characters of numbers and words. -/
def isAtomChar (c : Char) : Bool := c.isAlphanum || c == '+' || c == '-' || c == '.'

section Atoms

/-- `[0-9]+` -/
def isDigits (s : List Char) : Bool := !s.isEmpty && s.all Char.isDigit

/-- `([eE][-+]?[0-9]+)?` -/
def isExponent : List Char → Bool
  | [] => true
  | e :: sign :: s => (e == 'e' || e == 'E') &&
    if sign == '-' || sign == '+' then isDigits s else isDigits (sign :: s)
  | _ => false

/-- `(\.[0-9]+)?([eE][-+]?[0-9]+)?` -/
def isFraction : List Char → Bool
  | '.' :: s => isDigits (s.takeWhile Char.isDigit) && isExponent (s.dropWhile Char.isDigit)
  | s => isExponent s

/-- `(0|[1-9][0-9]*)(\.[0-9]+)?([eE][-+]?[0-9]+)?` -/
def isUnsigned : List Char → Bool
  | '0' :: s => isFraction s
  | c :: s => c.isDigit && isFraction (s.dropWhile Char.isDigit)
  | [] => false

def isNumber : List Char → Bool
  | '-' :: s => isUnsigned s
  | s => isUnsigned s

def isAtom (raw : List Char) : Bool :=
  isNumber raw || ["true", "false", "null", "NaN", "Infinity", "-Infinity"].any fun w => w.toList == raw

end Atoms

/-- A character of a string. -/
def inString (isKey : Bool) : Escape → Char → Option Mode
  | .none, c =>
    if c = '"' then some (if isKey then .colon else .after)
    else if c = '\\' then some (.string isKey .letter)
    else if c.toNat < 32 then none else some (.string isKey .none)
  | .letter, c =>
    if c = 'u' then some (.string isKey (.digits 3))
    else if "\"\\/bfnrt".toList.contains c then some (.string isKey .none) else none
  | .digits n, c =>
    if isHex c then some (.string isKey (if n = 0 then .none else .digits (n - 1))) else none

/-- The start of a value. -/
def openValue (st : List Bracket) (c : Char) : Option (Mode × List Bracket) :=
  if c = '[' then some (.firstValue, .array :: st)
  else if c = '{' then some (.firstKey, .object :: st)
  else if c = '"' then some (.string false .none, st)
  else if isAtomChar c then some (.atom [c], st) else none

def openKey (st : List Bracket) (c : Char) : Option (Mode × List Bracket) :=
  if c = '"' then some (.string true .none, st) else none

def close (b : Bracket) : List Bracket → Option (Mode × List Bracket)
  | b' :: st => if b' = b then some (.after, st) else none
  | [] => none

def comma : List Bracket → Option (Mode × List Bracket)
  | .array :: st => some (.value, .array :: st)
  | .object :: st => some (.key, .object :: st)
  | [] => none

/-- A character that is no blank, outside strings and atoms. -/
def token : Mode → List Bracket → Char → Option (Mode × List Bracket)
  | .value, st, c => openValue st c
  | .firstValue, st, c => if c = ']' then close .array st else openValue st c
  | .key, st, c => openKey st c
  | .firstKey, st, c => if c = '}' then close .object st else openKey st c
  | .colon, st, c => if c = ':' then some (.value, st) else none
  | .after, st, c =>
    if c = ']' then close .array st
    else if c = '}' then close .object st
    else if c = ',' then comma st else none
  | _, _, _ => none

def between (m : Mode) (st : List Bracket) (c : Char) : Option (Mode × List Bracket) :=
  if isBlank c then some (m, st) else token m st c

def next : Mode → List Bracket → Char → Option (Mode × List Bracket)
  | .string isKey e, st, c => (inString isKey e c).map (·, st)
  | .atom raw, st, c =>
    if isAtomChar c then some (.atom (raw ++ [c]), st)
    else if isAtom raw then between .after st c else none
  | m, st, c => between m st c

/-- Is the character copied? -/
def copied : Mode → Char → Bool
  | .string _ _, _ => true
  | _, c => !isBlank c

def step (σ : State) (c : Char) : Option State :=
  (next σ.mode σ.stack c).map fun r =>
    ⟨r.1, r.2, if copied σ.mode c then σ.out ++ [c] else σ.out⟩

def run (σ : State) (s : List Char) : Option State := s.foldlM step σ

/-- The text is complete. -/
def complete : Mode → Bool
  | .after => true
  | .atom raw => isAtom raw
  | _ => false

def finish (σ : State) : Option (List Char) :=
  if complete σ.mode ∧ σ.stack = [] then some σ.out else none

/-- The text without the blanks between its tokens, if it is one of a JSON value. -/
def compact (s : List Char) : Option (List Char) := (run start s).bind finish

/-! ## Blanks -/

theorem run_append (σ : State) (s t : List Char) : run σ (s ++ t) = (run σ s).bind (run · t) :=
  List.foldlM_append

theorem run_cons (σ : State) (c : Char) (s : List Char) : run σ (c :: s) = (step σ c).bind (run · s) :=
  List.foldlM_cons

/-- Between two tokens. -/
def Mode.quiet : Mode → Bool
  | .string _ _ | .atom _ => false
  | _ => true

theorem next_of_quiet {m : Mode} (hm : m.quiet = true) (st : List Bracket) (c : Char) :
    next m st c = between m st c ∧ copied m c = !isBlank c := by
  cases m with
  | string isKey e => cases hm
  | atom raw => cases hm
  | _ => exact ⟨rfl, rfl⟩

theorem step_blank {σ : State} {c : Char} (hc : isBlank c = true) (hm : σ.mode.quiet = true) :
    step σ c = some σ := by
  obtain ⟨hnext, hcopied⟩ := next_of_quiet hm σ.stack c
  rw [step, hnext, hcopied, between, if_pos hc, hc]
  rfl

/-- The two characters that end a line outside strings do the same. -/
theorem step_lineFeed (σ : State) : step σ '\r' = step σ '\n' := by
  obtain ⟨m, st, out⟩ := σ
  cases m with
  | string isKey e => cases e <;> simp [step, next, inString, isHex]
  | atom raw => simp [step, next, between, copied, isBlank, isAtomChar]
  | _ => simp [step, next, between, copied, isBlank]

theorem quiet_of_step_lineFeed {σ τ : State} (h : step σ '\n' = some τ) : τ.mode.quiet = true := by
  obtain ⟨m, st, out⟩ := σ
  obtain ⟨⟨m', st'⟩, hnext, rfl⟩ := Option.map_eq_some_iff.1 h
  cases m with
  | string isKey e => cases e <;> simp [next, inString, isHex] at hnext
  | atom raw =>
    rw [next, if_neg (by decide)] at hnext
    split_ifs at hnext
    obtain ⟨rfl, rfl⟩ := Prod.mk.inj (Option.some.inj hnext)
    rfl
  | _ =>
    obtain ⟨rfl, rfl⟩ := Prod.mk.inj (Option.some.inj hnext)
    rfl

/-! ## What a step does -/

def closing : Bracket → Char
  | .array => ']'
  | .object => '}'

theorem close_eq_some {b : Bracket} {st st' : List Bracket} {m : Mode} (h : close b st = some (m, st')) :
    st = b :: st' ∧ m = .after := by
  cases st with
  | nil => cases h
  | cons b' st =>
    rw [close] at h
    split_ifs at h with hb
    obtain ⟨rfl, rfl⟩ := Prod.mk.inj (Option.some.inj h)
    exact ⟨by rw [hb], rfl⟩

theorem comma_eq_some {st st' : List Bracket} {m : Mode} (h : comma st = some (m, st')) : st' = st := by
  cases st with
  | nil => cases h
  | cons b st =>
    cases b <;> exact (Prod.mk.inj (Option.some.inj h)).2.symm

theorem openValue_eq_some {st st' : List Bracket} {c : Char} {m : Mode} (h : openValue st c = some (m, st')) :
    st' = st ∨ ∃ b, st' = b :: st := by
  rw [openValue] at h
  split_ifs at h <;> obtain ⟨-, rfl⟩ := Prod.mk.inj (Option.some.inj h)
  · exact .inr ⟨_, rfl⟩
  · exact .inr ⟨_, rfl⟩
  · exact .inl rfl
  · exact .inl rfl

theorem openKey_eq_some {st st' : List Bracket} {c : Char} {m : Mode} (h : openKey st c = some (m, st')) :
    st' = st := by
  rw [openKey] at h
  split_ifs at h
  exact (Prod.mk.inj (Option.some.inj h)).2.symm

/-- What a step does to the stack: it leaves it, opens a bracket or closes the
    innermost one. -/
def Moves (st : List Bracket) (c : Char) (m' : Mode) (st' : List Bracket) : Prop :=
  st' = st ∨ (∃ b, st' = b :: st) ∨ ∃ b, st = b :: st' ∧ m' = .after ∧ c = closing b

theorem token_moves {m m' : Mode} {st st' : List Bracket} {c : Char} (h : token m st c = some (m', st')) :
    Moves st c m' st' := by
  have hclose : ∀ b, c = closing b → close b st = some (m', st') → Moves st c m' st' := fun b hc hb =>
    .inr (.inr ⟨b, (close_eq_some hb).1, (close_eq_some hb).2, hc⟩)
  have hopen : openValue st c = some (m', st') → Moves st c m' st' := fun ho =>
    (openValue_eq_some ho).imp_right .inl
  cases m with
  | value => exact hopen h
  | firstValue =>
    rw [token] at h
    split_ifs at h with hc
    · exact hclose .array hc h
    · exact hopen h
  | key => exact .inl (openKey_eq_some h)
  | firstKey =>
    rw [token] at h
    split_ifs at h with hc
    · exact hclose .object hc h
    · exact .inl (openKey_eq_some h)
  | colon =>
    rw [token] at h
    split_ifs at h
    exact .inl (Prod.mk.inj (Option.some.inj h)).2.symm
  | after =>
    rw [token] at h
    split_ifs at h with harray hobject
    · exact hclose .array harray h
    · exact hclose .object hobject h
    · exact .inl (comma_eq_some h)
  | string isKey e => cases h
  | atom raw => cases h

theorem between_moves {m m' : Mode} {st st' : List Bracket} {c : Char} (h : between m st c = some (m', st')) :
    Moves st c m' st' := by
  rw [between] at h
  split_ifs at h
  · exact .inl (Prod.mk.inj (Option.some.inj h)).2.symm
  · exact token_moves h

theorem next_moves {m m' : Mode} {st st' : List Bracket} {c : Char} (h : next m st c = some (m', st')) :
    Moves st c m' st' := by
  cases m with
  | string isKey e =>
    obtain ⟨m, -, heq⟩ := Option.map_eq_some_iff.1 h
    exact .inl (Prod.mk.inj heq).2.symm
  | atom raw =>
    rw [next] at h
    split_ifs at h
    · exact .inl (Prod.mk.inj (Option.some.inj h)).2.symm
    · exact between_moves h
  | _ => exact between_moves h

/-- What is not a blank is copied. -/
theorem out_of_step {σ τ : State} {c : Char} (h : step σ c = some τ) :
    τ.out = σ.out ++ [c] ∨ τ.out = σ.out ∧ isBlank c = true := by
  obtain ⟨r, -, rfl⟩ := Option.map_eq_some_iff.1 h
  by_cases hc : copied σ.mode c = true
  · exact .inl (if_pos hc)
  · refine .inr ⟨if_neg hc, ?_⟩
    revert hc
    cases σ.mode <;> simp [copied]

theorem countP_run {p : Char → Bool} (hp : ∀ c, isBlank c = true → p c = false) {s : List Char} {σ τ : State}
    (h : run σ s = some τ) : τ.out.countP p = σ.out.countP p + s.countP p := by
  induction s generalizing σ with
  | nil =>
    cases h
    rfl
  | cons c s ih =>
    rw [run_cons] at h
    obtain ⟨ρ, hstep, hrun⟩ := Option.bind_eq_some_iff.1 h
    rw [ih hrun, List.countP_cons]
    rcases out_of_step hstep with hout | ⟨hout, hc⟩
    · rw [hout, List.countP_append, List.countP_singleton]
      omega
    · rw [hout, hp c hc]
      simp

theorem compact_eq_some {s v : List Char} :
    compact s = some v ↔ ∃ σ, run start s = some σ ∧ complete σ.mode = true ∧ σ.stack = [] ∧ σ.out = v := by
  rw [compact, Option.bind_eq_some_iff]
  refine exists_congr fun σ => and_congr_right fun _ => ?_
  rw [finish]
  split_ifs with h
  · simp [h]
  · simpa using fun hm hst => absurd ⟨hm, hst⟩ h

/-- The copy has all characters that are no blanks. -/
theorem countP_compact {p : Char → Bool} (hp : ∀ c, isBlank c = true → p c = false) {s v : List Char}
    (h : compact s = some v) : v.countP p = s.countP p := by
  obtain ⟨σ, hrun, -, -, rfl⟩ := compact_eq_some.1 h
  rw [countP_run hp hrun]
  simp [start]

/-! ## Objects -/

def Blank (s : List Char) : Prop := ∀ c ∈ s, isBlank c = true

/-- How far the text of an object is read. -/
inductive Reading : List Char → State → Prop where
  | blank {a} (ha : Blank a) : Reading a start
  | open_ {a t σ} (ha : Blank a) (hrun : run start ('{' :: t) = some σ)
      (hstack : σ.stack.getLast? = some .object) : Reading (a ++ '{' :: t) σ
  | closed {a t b σ} (ha : Blank a) (hb : Blank b) (hrun : run start ('{' :: t ++ ['}']) = some σ)
      (hstack : σ.stack = []) (hmode : σ.mode = .after) : Reading (a ++ '{' :: t ++ '}' :: b) σ
  /-- of something else -/
  | other {s σ} (hout : σ.out ≠ []) (hhead : σ.out.head? ≠ some '{') : Reading s σ

/-- Behind the value only blanks may follow. -/
theorem isBlank_of_closed {σ τ : State} {c : Char} (hmode : σ.mode = .after) (hstack : σ.stack = [])
    (h : step σ c = some τ) : isBlank c = true := by
  obtain ⟨r, hnext, -⟩ := Option.map_eq_some_iff.1 h
  by_contra hc
  rw [hmode, hstack] at hnext
  have htoken : token .after [] c = none := by
    rw [token]
    split_ifs <;> rfl
  rw [next_of_quiet rfl [] c |>.1, between, if_neg hc, htoken] at hnext
  cases hnext

theorem Reading.step {s : List Char} {σ τ : State} {c : Char} (hs : Reading s σ) (h : step σ c = some τ) :
    Reading (s ++ [c]) τ := by
  cases hs with
  | blank ha =>
    by_cases hc : isBlank c = true
    · rw [step_blank hc rfl] at h
      cases h
      exact .blank fun d hd => (List.mem_append.1 hd).elim (ha d) fun hd => List.mem_singleton.1 hd ▸ hc
    · by_cases hbrace : c = '{'
      · subst hbrace
        exact .open_ ha (by rw [run_cons, h]; rfl) (by cases h; rfl)
      · have hout : τ.out = [c] := by
          rcases out_of_step h with hout | ⟨-, hblank⟩
          · exact hout
          · exact absurd hblank hc
        refine .other (by simp [hout]) ?_
        simpa [hout] using hbrace
  | @open_ a t _ ha hrun hstack =>
    have hmore : run start ('{' :: t ++ [c]) = some τ := by
      rw [run_append, hrun, Option.bind_some, run_cons, h]
      rfl
    have hopen (hbottom : τ.stack.getLast? = some .object) : Reading (a ++ '{' :: t ++ [c]) τ := by
      rw [List.append_assoc]
      exact .open_ ha hmore hbottom
    obtain ⟨r, hnext, hτ⟩ := Option.map_eq_some_iff.1 h
    have hto : τ.stack = r.2 ∧ τ.mode = r.1 := by rw [← hτ]; exact ⟨rfl, rfl⟩
    rcases next_moves hnext with heq | ⟨b, heq⟩ | ⟨b, heq, hafter, hc⟩
    · exact hopen (by rw [hto.1, heq, hstack])
    · exact hopen (by rw [hto.1, heq, List.getLast?_cons, hstack]; rfl)
    · by_cases hempty : r.2 = []
      · rw [heq, hempty] at hstack
        cases hstack
        subst hc
        exact .closed ha (fun _ => List.not_mem_nil.elim) hmore (by rw [hto.1, hempty]) (by rw [hto.2, hafter])
      · rw [heq, List.getLast?_cons, List.getLast?_eq_some_getLast hempty] at hstack
        exact hopen (by rw [hto.1, List.getLast?_eq_some_getLast hempty]; exact hstack)
  | @closed a t b _ ha hb hrun hstack hmode =>
    have hc := isBlank_of_closed hmode hstack h
    rw [step_blank hc (by rw [hmode]; rfl)] at h
    cases h
    rw [List.append_assoc, List.cons_append]
    exact .closed ha
      (fun d hd => (List.mem_append.1 hd).elim (hb d) fun hd => List.mem_singleton.1 hd ▸ hc) hrun hstack hmode
  | other hout hhead =>
    rcases out_of_step h with heq | ⟨heq, -⟩
    · refine .other (by simp [heq]) ?_
      rwa [heq, List.head?_append_of_ne_nil _ hout]
    · exact .other (heq ▸ hout) (heq ▸ hhead)

theorem reading_of_run {s : List Char} {σ : State} (h : run start s = some σ) : Reading s σ := by
  induction s using List.reverseRecOn generalizing σ with
  | nil =>
    cases h
    exact .blank fun _ => List.not_mem_nil.elim
  | append_singleton s c ih =>
    rw [run_append] at h
    obtain ⟨ρ, hrun, hstep⟩ := Option.bind_eq_some_iff.1 h
    rw [run_cons] at hstep
    obtain ⟨τ, hstep, hnil⟩ := Option.bind_eq_some_iff.1 hstep
    cases hnil
    exact (ih hrun).step hstep

/-- The copy is one of an object. -/
def IsObject (v : List Char) : Prop := v.head? = some '{'

instance (v : List Char) : Decidable (IsObject v) := inferInstanceAs (Decidable (_ = _))

/-- The text of an object stands between braces, and blanks around them do not
    count. -/
theorem braces_of_compact {s v : List Char} (h : compact s = some v) (hv : IsObject v) :
    ∃ a t b, Blank a ∧ Blank b ∧ s = a ++ '{' :: t ++ '}' :: b ∧ compact ('{' :: t ++ ['}']) = some v := by
  obtain ⟨σ, hrun, hcomplete, hstack, rfl⟩ := compact_eq_some.1 h
  cases reading_of_run hrun with
  | blank ha => cases hv
  | open_ ha hrun hbottom =>
    rw [hstack] at hbottom
    cases hbottom
  | @closed a t b _ ha hb hrun hstack hmode =>
    exact ⟨a, t, b, ha, hb, rfl, compact_eq_some.2 ⟨σ, hrun, hcomplete, hstack, rfl⟩⟩
  | other hout hhead => exact absurd hv hhead

/-! ## The ends of lines -/

end JsonText
