/-
  Which predicates have the same canonical text.

  A canonical text is the SQL of a predicate in upper case and without double
  quotes.  Letter case and quotes do not matter to names, but they do inside a
  string literal, and quotes do around a name that is not a plain word.

  * `reading`: the text as SQL reads it, literals exactly and names without
    letter case; `Evaluation`: a meaning of predicates that rests on it;
  * `placed`: the literals and the names that need their quotes, with their
    places in the canonical text;
  * `reading_eq_iff`: of texts with one canonical text these tell the readings;
  * `identified_iff`: so predicates with one canonical text mean the same iff
    they have the same literals and quoted names at the same places.
-/
import RoboMeta.FilterShapes
import RoboMeta.ReferenceLexer

namespace RoboMeta

open Expression

/-! ## Readings -/

/-- What SQL reads in a text: characters without letter case, string literals as
    they stand, and names that need their quotes. -/
inductive Lexeme where
  | char (c : Char)
  | literal (text : Text)
  | name (text : String)
deriving DecidableEq

section
variable (U : Unicode)

/-- `bare` on characters. -/
def bareText (t : Text) : Text := (bare U (String.ofList t)).toList

def Lexeme.bare : Lexeme → Text
  | char c => [c]
  | literal t => bareText U t
  | name n => n.toList.filter (· ≠ '"')

variable (special : String → Bool)

/-- The quotes around the word make no difference: it is no special word, and
    does not run into what stands before and behind it. -/
def plainName (prev next : Option Char) (body : Text) : Bool :=
  !body.isEmpty && body.all U.isWord && !body.head?.any Char.isDigit && !special (U.upper (String.ofList body)) &&
    !prev.any U.isWord && !next.any U.isWord

def foldedText (t : Text) : List Lexeme := (bareText U t).map .char

/-- A hidden region: a literal, a quoted name or a comment. -/
def readRegion (prev next : Option Char) (region : Text) : List Lexeme :=
  match region.head? with
  | some '\'' | some '$' => [.literal region]
  | some '"' =>
    if plainName U special prev next region.tail.dropLast then foldedText U region
    else [.name (U.upper (String.ofList region))]
  | _ => foldedText U region

def firstChar : List (Char ⊕ Text) → Option Char
  | .inl c :: _ => some c
  | .inr region :: _ => region.head?
  | [] => none

/-- The pieces of a text, `prev` standing before them. -/
def readPieces (prev : Option Char) : List (Char ⊕ Text) → List Lexeme
  | [] => []
  | .inl c :: ps => foldedText U [c] ++ readPieces (some c) ps
  | .inr region :: ps => readRegion U special prev (firstChar ps) region ++ readPieces region.getLast? ps

def reading (text : String) : List Lexeme :=
  readPieces U special none (Scan.pieces hiddenRegion text.toList.length text.toList)

/-- The lexemes whose letter case or quotes matter, with the places where they
    stand in the canonical text. -/
def placedFrom : ℕ → List Lexeme → List (ℕ × Lexeme)
  | _, [] => []
  | k, .char _ :: ls => placedFrom (k + 1) ls
  | k, l :: ls => (k, l) :: placedFrom (k + (l.bare U).length) ls

def placed (text : String) : List (ℕ × Lexeme) := placedFrom U 0 (reading U special text)

end

/-! ## Canonical texts and readings -/

section
variable {U : Unicode} {special : String → Bool}

theorem bareText_nil : bareText U [] = [] := by
  rw [bareText, bare_ascii (by decide)]
  decide

theorem flatMap_bare_foldedText (t : Text) : (foldedText U t).flatMap (Lexeme.bare U) = bareText U t := by
  rw [foldedText, List.flatMap_map]
  exact List.flatMap_singleton' _

theorem flatMap_bare_readRegion (prev next : Option Char) (region : Text) :
    (readRegion U special prev next region).flatMap (Lexeme.bare U) = bareText U region := by
  have hname : Lexeme.bare U (.name (U.upper (String.ofList region))) = bareText U region := by
    rw [Lexeme.bare, bareText, bare, String.toList_ofList]
  unfold readRegion
  split
  · exact List.append_nil _
  · exact List.append_nil _
  · split_ifs
    · exact flatMap_bare_foldedText region
    · exact (List.append_nil _).trans hname
  · exact flatMap_bare_foldedText region

theorem Uppercases.bareText_append (hU : Uppercases U) (s t : Text) :
    bareText U (s ++ t) = bareText U s ++ bareText U t := by
  rw [bareText, String.ofList_append, hU.bare_append, String.toList_append]
  rfl

/-- A reading has the characters of the canonical text. -/
theorem Uppercases.flatMap_bare_reading (hU : Uppercases U) (text : String) :
    (reading U special text).flatMap (Lexeme.bare U) = (bare U text).toList := by
  have hpieces : ∀ (ps : List (Char ⊕ Text)) (prev : Option Char),
      (readPieces U special prev ps).flatMap (Lexeme.bare U) =
        bareText U (ps.flatMap (Sum.elim (fun c => [c]) id)) := by
    intro ps
    induction ps with
    | nil => exact fun _ => bareText_nil.symm
    | cons p ps ih =>
      intro prev
      rw [List.flatMap_cons, hU.bareText_append]
      cases p with
      | inl c =>
        rw [readPieces, List.flatMap_append, flatMap_bare_foldedText, ih]
        rfl
      | inr region =>
        rw [readPieces, List.flatMap_append, flatMap_bare_readRegion, ih]
        rfl
  rw [reading, hpieces, Scan.flatMap_pieces hiddenRegion le_rfl, bareText, String.ofList_toList]

theorem placedFrom_cons {k : ℕ} {l : Lexeme} (hl : ∀ c, l ≠ .char c) (ls : List Lexeme) :
    placedFrom U k (l :: ls) = (k, l) :: placedFrom U (k + (l.bare U).length) ls := by
  cases l with
  | char c => exact absurd rfl (hl c)
  | literal | name => rfl

theorem le_of_mem_placedFrom {k : ℕ} {ls : List Lexeme} {x : ℕ × Lexeme} (h : x ∈ placedFrom U k ls) : k ≤ x.1 := by
  induction ls generalizing k with
  | nil => cases h
  | cons l ls ih =>
    by_cases hl : ∀ c, l ≠ .char c
    · rw [placedFrom_cons hl] at h
      rcases List.mem_cons.1 h with rfl | h
      · exact le_rfl
      · exact (Nat.le_add_right k _).trans (ih h)
    · push Not at hl
      obtain ⟨c, rfl⟩ := hl
      exact (Nat.le_succ k).trans (ih h)

/-- Behind a character nothing is placed where it stands. -/
theorem placedFrom_char_ne {k : ℕ} {c : Char} {l : Lexeme} (ls ls' : List Lexeme) (hl : ∀ d, l ≠ .char d) :
    placedFrom U k (.char c :: ls) ≠ placedFrom U k (l :: ls') := by
  intro h
  rw [placedFrom_cons hl] at h
  have hmem : (k, l) ∈ placedFrom U (k + 1) ls := h ▸ List.mem_cons_self
  exact absurd (le_of_mem_placedFrom hmem) (Nat.not_succ_le_self k)

/-- The characters and the placed lexemes make up the list. -/
theorem eq_of_placedFrom_eq {k : ℕ} {ls ls' : List Lexeme}
    (hbare : ls.flatMap (Lexeme.bare U) = ls'.flatMap (Lexeme.bare U)) (h : placedFrom U k ls = placedFrom U k ls') :
    ls = ls' := by
  have hnil : ∀ {k l ls}, [] = List.flatMap (Lexeme.bare U) (l :: ls) → placedFrom U k (l :: ls) ≠ [] := by
    intro k l ls hempty
    have hl : ∀ c, l ≠ .char c := by
      rintro c rfl
      cases hempty
    rw [placedFrom_cons hl]
    exact List.cons_ne_nil _ _
  induction ls generalizing k ls' with
  | nil =>
    cases ls' with
    | nil => rfl
    | cons l' ls' => exact absurd h.symm (hnil hbare)
  | cons l ls ih =>
    cases ls' with
    | nil => exact absurd h (hnil hbare.symm)
    | cons l' ls' =>
      by_cases hl : ∀ c, l ≠ .char c
      · by_cases hl' : ∀ c, l' ≠ .char c
        · rw [placedFrom_cons hl, placedFrom_cons hl'] at h
          obtain ⟨hhead, htail⟩ := List.cons.inj h
          obtain rfl := (Prod.mk.inj hhead).2
          rw [List.flatMap_cons, List.flatMap_cons] at hbare
          rw [ih (List.append_cancel_left hbare) htail]
        · push Not at hl'
          obtain ⟨c, rfl⟩ := hl'
          exact absurd h.symm (placedFrom_char_ne ls' ls hl)
      · push Not at hl
        obtain ⟨c, rfl⟩ := hl
        by_cases hl' : ∀ c, l' ≠ .char c
        · exact absurd h (placedFrom_char_ne ls ls' hl')
        · push Not at hl'
          obtain ⟨d, rfl⟩ := hl'
          obtain ⟨rfl, htail⟩ := List.cons.inj hbare
          rw [ih htail h]

/-- **Texts with one canonical text** read the same iff the literals and quoted
    names in them are the same, at the same places. -/
theorem reading_eq_iff (hU : Uppercases U) {s t : String} (h : bare U s = bare U t) :
    reading U special s = reading U special t ↔ placed U special s = placed U special t := by
  refine ⟨fun heq => by rw [placed, placed, heq], fun hplaced => eq_of_placedFrom_eq ?_ hplaced⟩
  rw [hU.flatMap_bare_reading, hU.flatMap_bare_reading, h]

end

/-! ## Meanings -/

section
variable (U : Unicode) (G : Sqlglot) (special : String → Bool)

/-- Truth values of predicates on rows: a predicate means what its SQL is read as. -/
structure Evaluation (Row : Type) where
  truth : Expression → Row → Option Bool
  reads : ∀ e f, reading U special (G.sql dialectPostgres e) = reading U special (G.sql dialectPostgres f) →
    truth e = truth f

/-- The predicates have one truth value on every row. -/
def Equivalent (e f : Expression) : Prop :=
  ∀ (Row : Type) (E : Evaluation U G special Row) (row : Row), E.truth e row = E.truth f row

/-- The predicate with tables for aliases, and the default table where there is no qualifier. -/
def tabled (aliases : Dict String String) (default : Option String) (e : Expression) : Expression :=
  (copy e).map (qualify U G aliases default)

variable {U G special}

theorem equivalent_iff {e f : Expression} :
    Equivalent U G special e f ↔
      reading U special (G.sql dialectPostgres e) = reading U special (G.sql dialectPostgres f) := by
  refine ⟨fun h => ?_, fun h Row E row => by rw [E.reads e f h]⟩
  -- on the predicates that are read as `f`
  let E : Evaluation U G special Unit := {
    truth := fun g _ =>
      some (decide (reading U special (G.sql dialectPostgres g) = reading U special (G.sql dialectPostgres f)))
    reads := fun g g' hg => by rw [hg] }
  have htrue : E.truth e () = some true := (h Unit E ()).trans (congrArg some (decide_eq_true rfl))
  exact of_decide_eq_true (Option.some.inj htrue)

theorem canonicalPredicate_eq_bare_tabled (e : Expression) (aliases : Dict String String) (default : Option String) :
    canonicalPredicate U G e aliases default = bare U (G.sql dialectPostgres (tabled U G aliases default e)) := rfl

/-- **Predicates with one canonical text** are equivalent iff they have the same
    string literals and the same names that need quotes at the same places. -/
theorem identified_iff (hU : Uppercases U) {p m : Expression} {aliases : Dict String String} {default : Option String}
    (h : canonicalPredicate U G p aliases default = canonicalPredicate U G m [] none) :
    Equivalent U G special (tabled U G aliases default p) (tabled U G [] none m) ↔
      placed U special (G.sql dialectPostgres (tabled U G aliases default p)) =
        placed U special (G.sql dialectPostgres (tabled U G [] none m)) := by
  rw [canonicalPredicate_eq_bare_tabled, canonicalPredicate_eq_bare_tabled] at h
  rw [equivalent_iff]
  exact reading_eq_iff hU h

end

/-! ## Letter case in a literal -/

/-- `a.flag = literal`. -/
def flagIs (a literal : String) : Expression :=
  mk .root .eq
    [mk .this (.column { table := some ⟨a, false⟩, this := some ⟨"flag", false⟩ }), mk .expression (.other literal)]

theorem identified_iff_flag :
    Equivalent .ascii (plainSqlglot []) (fun _ => false)
        (tabled .ascii (plainSqlglot []) [("A", "T")] none (flagIs "a" "'Y'"))
        (tabled .ascii (plainSqlglot []) [] none (flagIs "t" "'Y'")) ↔
      placed .ascii (fun _ => false) ((plainSqlglot []).sql dialectPostgres
          (tabled .ascii (plainSqlglot []) [("A", "T")] none (flagIs "a" "'Y'"))) =
        placed .ascii (fun _ => false) ((plainSqlglot []).sql dialectPostgres
          (tabled .ascii (plainSqlglot []) [] none (flagIs "t" "'Y'"))) :=
  identified_iff uppercases_ascii (by decide +kernel)

/-- The value is the only literal. -/
def isOnly (row : String) (parts : List (ℕ × Lexeme)) : Bool :=
  parts.map Prod.snd = [.literal ('\'' :: row.toList ++ ['\''])]

/-- The value of the column, compared with the literal of the predicate. -/
def comparison : Evaluation .ascii (plainSqlglot []) (fun _ => false) String where
  truth e row := some (isOnly row (placed .ascii (fun _ => false) ((plainSqlglot []).sql dialectPostgres e)))
  reads e f h := by
    funext row
    rw [placed, placed, h]

/-- `'y'` is taken for `'Y'`. -/
theorem identified_lowercase :
    ¬ ∀ p m aliases default, canonicalPredicate .ascii (plainSqlglot []) p aliases default =
        canonicalPredicate .ascii (plainSqlglot []) m [] none →
      Equivalent .ascii (plainSqlglot []) (fun _ => false) (tabled .ascii (plainSqlglot []) aliases default p)
        (tabled .ascii (plainSqlglot []) [] none m) := by
  intro h
  have hequivalent := h (flagIs "a" "'y'") (flagIs "t" "'Y'") [("A", "T")] none (by decide +kernel) String comparison
    "Y"
  exact absurd hequivalent (by decide +kernel)

end RoboMeta
