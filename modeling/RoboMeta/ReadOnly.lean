/-
  Which clauses that write get past the text guard.

  The guard knows such a clause by a word of it on the deny list, at any depth
  of the statement.  INTO and FOR SHARE are made of words that are not on it.

  * `overlooked`: the clauses without a denied word;
  * `grammar_recognized`: the rules of every other one have a denied word, and
    `exists_denied_of_hasClause`: so has a statement with such a clause;
  * `readsOnly_iff`: an accepted statement only reads iff it has no clause that
    is overlooked.
-/
import RoboMeta.SqlGrammar

namespace RoboMeta

/-- The statement creates, changes and locks no table and writes no file. -/
def ReadsOnly (t : SqlTree) : Prop := ∀ c, ¬ HasClause t c

def overlooked : List Clause := [.selectInto, .outfile, .dumpfile, .forShare, .forKeyShare]

/-- The keyword is denied, and the guard makes no exception for it. -/
def denies : Symbol Terminal Phrase → Bool
  | .terminal (.key k) => denyTokens.contains k && k != "SET"
  | _ => false

def recognized (r : Rule) : Bool :=
  match r.input with
  | .clause c => overlooked.contains c || r.output.any denies
  | _ => true

theorem grammar_recognized : grammar.all recognized = true := by decide +kernel

theorem exists_key_of_denies {body : List (Symbol Terminal Phrase)} (h : body.any denies = true) :
    ∃ k, .terminal (.key k) ∈ body ∧ k ∈ denyTokens ∧ k ≠ "SET" := by
  obtain ⟨x, hx, hdenies⟩ := List.any_eq_true.1 h
  unfold denies at hdenies
  split at hdenies
  · rename_i k
    obtain ⟨hdeny, hset⟩ := Bool.and_eq_true_iff.1 hdenies
    exact ⟨k, hx, List.contains_iff_mem.1 hdeny, bne_iff_ne.1 hset⟩
  · cases hdenies

theorem exists_word_of_fits {k : String} {token : Token} (h : (Terminal.key k).fits token = true) :
    ∃ w valid, token = .word w valid ∧ upperWord w = k := by
  cases token with
  | word w valid => exact ⟨w, valid, rfl, beq_iff_eq.1 h⟩
  | quoted | backquoted | literal | sign => cases h

/-- A clause that is not overlooked leaves a denied word in the statement. -/
theorem exists_denied_of_hasClause {t : SqlTree} (ht : IsStatement t) {c : Clause} (hc : HasClause t c)
    (hnot : c ∉ overlooked) :
    ∃ w valid, .word w valid ∈ Grammar.yield t ∧ upperWord w ∈ denyTokens ∧ upperWord w ≠ "SET" := by
  obtain ⟨x, hx, hlabel⟩ := hc
  obtain ⟨r, hr, hinput, hyield⟩ := ht.exists_rule hx hlabel
  have hrecognized := List.all_eq_true.1 grammar_recognized r hr
  rw [recognized, hinput] at hrecognized
  have hdenies : r.output.any denies = true :=
    (Bool.or_eq_true_iff.1 hrecognized).resolve_left fun h => hnot (List.contains_iff_mem.1 h)
  obtain ⟨k, hk, hdeny, hset⟩ := exists_key_of_denies hdenies
  obtain ⟨token, htoken, hfits⟩ := hyield _ hk
  obtain ⟨w, valid, rfl, rfl⟩ := exists_word_of_fits hfits
  exact ⟨w, valid, htoken, hdeny, hset⟩

/-- **What an accepted statement can do.** -/
theorem readsOnly_iff {U : Unicode} {t : SqlTree} {sql : String} (ht : IsStatement t)
    (hw : WrittenAs (Grammar.yield t) sql.toList) (h : Accepts U sql) :
    ReadsOnly t ↔ ∀ c ∈ overlooked, ¬ HasClause t c := by
  refine ⟨fun hreads c _ => hreads c, fun hover c hc => ?_⟩
  by_cases hmem : c ∈ overlooked
  · exact hover c hmem hc
  · obtain ⟨w, valid, hyield, hdenied, hset⟩ := exists_denied_of_hasClause ht hc hmem
    obtain ⟨r, hr⟩ := h
    obtain ⟨-, -, -, hscan⟩ := scan_of_check hr
    exact hset (hscan _ hdenied (List.mem_map_of_mem (hw.mem_words hyield))).2

/-! ## SELECT INTO -/

def wordLeaf (w : Text) (valid : isWord w = true) : SqlTree := .node (.terminal (.word w valid)) []

def phrase (p : Phrase) (ts : List SqlTree) : SqlTree := .node (.nonterminal p) ts

/-- `SELECT a INTO t FROM b`. -/
def selectIntoStatement : SqlTree :=
  phrase .statement
    [phrase .query
      [phrase .withClause [],
       phrase .body
        [phrase .select
          [wordLeaf "SELECT".toList (by decide),
           phrase .distinct [phrase .quantifier []],
           phrase .items [phrase .item [phrase .expr [phrase .column [wordLeaf "a".toList (by decide)]]]],
           phrase .into
            [phrase (.clause .selectInto)
              [wordLeaf "INTO".toList (by decide), phrase .temporary [], phrase .tableWord [],
               phrase .tableName [wordLeaf "t".toList (by decide)]]],
           phrase .fromClause
            [wordLeaf "FROM".toList (by decide),
             phrase .tables
              [phrase .table [phrase .tableName [wordLeaf "b".toList (by decide)], phrase .aliasClause []]]],
           phrase .whereClause [], phrase .groupClause [], phrase .havingClause []]],
       phrase .orderClause [], phrase .limitClause [], phrase .locks [], phrase .into []]]

theorem isStatement_selectInto : IsStatement selectIntoStatement := by
  unfold IsStatement
  decide +kernel

theorem writtenAs_selectInto : WrittenAs (Grammar.yield selectIntoStatement) " SELECT a INTO t FROM b".toList := by
  have htext : after 0 (spaced (Grammar.yield selectIntoStatement)) = " SELECT a INTO t FROM b".toList := by decide
  exact htext ▸ writtenAs_spaced (by decide)

theorem accepts_selectInto : Accepts .ascii " SELECT a INTO t FROM b" :=
  ⟨⟨"SELECT a INTO t FROM b", "SELECT", 1⟩, by decide⟩

theorem readsOnly_iff_selectInto :
    ReadsOnly selectIntoStatement ↔ ∀ c ∈ overlooked, ¬ HasClause selectIntoStatement c :=
  readsOnly_iff isStatement_selectInto writtenAs_selectInto accepts_selectInto

/-- INTO creates a table and is not denied. -/
theorem readsOnly_selectInto :
    ¬ ∀ U t sql, IsStatement t → WrittenAs (Grammar.yield t) (String.toList sql) → Accepts U sql → ReadsOnly t := by
  intro h
  have hreads := h _ _ _ isStatement_selectInto writtenAs_selectInto accepts_selectInto
  refine hreads .selectInto ?_
  unfold HasClause
  decide +kernel

end RoboMeta
