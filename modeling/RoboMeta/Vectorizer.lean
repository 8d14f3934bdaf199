/-
  `run_vectorizer` (`services/neo4j_client/vectorizer.py`).

  A run reads the tables that have a text and no vector, embeds the texts in
  batches of a hundred and writes the vectors of every batch.  It may end early,
  where the embedding or the write of a batch raises; a write is one transaction,
  which may have been committed before the error is seen.

  * `vectorizeBatches_holds`: what a loop over batches has written, by induction
    over the batches;
  * `finished_of_successfulRun`, `between_of_failedRun`: the runs;
  * `resumed_vectorizer`: runs that fail, and then one that succeeds.
-/
import Mathlib.Data.Prod.Lex
import Mathlib.Data.String.Basic
import RoboMeta.Lib.Resume
import RoboMeta.Python

namespace RoboMeta

/-! ## The graph -/

/-- What the run reads and writes of a node; `V` are the numbers of a vector, `T` points of time. -/
structure VectorNode (V T : Type*) where
  elementId : String
  /-- The label `Table`. -/
  isTable : Bool
  schema : Option String
  name : Option String
  /-- `text_to_sql_embedding_text`. -/
  embeddingText : Option String
  /-- `text_to_sql_vector`. -/
  vector : Option (List V)
  /-- `text_to_sql_updated_at`. -/
  updatedAt : Option T

structure VectorGraph (V T : Type*) where
  nodes : List (VectorNode V T)
  /-- Whether there is an index `text_to_sql_table_vec_index`. -/
  vectorIndex : Bool
  nodup : (nodes.map VectorNode.elementId).Nodup

/-- A row of the query. -/
structure MissingRow where
  tid : String
  schema : String
  name : String
  embeddingText : String

def MissingRow.key (row : MissingRow) : String ×ₗ String := toLex (row.schema, row.name)

/-- `ORDER BY schema ASC, name ASC`. -/
def MissingRow.Before (a b : MissingRow) : Prop := a.key ≤ b.key

instance : DecidableRel MissingRow.Before := fun a b => inferInstanceAs (Decidable (a.key ≤ b.key))

instance : Std.Total MissingRow.Before := ⟨fun a b => le_total a.key b.key⟩

instance : IsTrans MissingRow MissingRow.Before :=
  ⟨fun a b c (hab : a.key ≤ b.key) (hbc : b.key ≤ c.key) => (hab.trans hbc : a.key ≤ c.key)⟩

/-- `substring(text, 0, 8000)`. -/
def embeddingCut (text : String) : String := String.ofList (text.toList.take 8000)

section
variable {V T : Type*}

/-- The row of a table that has a text and no vector. -/
def VectorNode.missingRow (n : VectorNode V T) : Option MissingRow :=
  match n.embeddingText with
  | none => none
  | some text =>
    if n.isTable ∧ text ≠ "" ∧ (n.vector.getD []).length = 0 then
      some ⟨n.elementId, n.schema.getD "", n.name.getD "", embeddingCut text⟩
    else none

/-- `_fetch_tables_missing_vector`; rows of equal names come in any order. -/
structure FetchesMissing (g : VectorGraph V T) (rows : List MissingRow) : Prop where
  perm : rows.Perm (g.nodes.filterMap VectorNode.missingRow)
  sorted : rows.Pairwise MissingRow.Before

/-- An element of `$items`. -/
structure VectorItem (V : Type*) where
  tid : String
  vector : List V

/-- `MATCH (t) WHERE elementId(t) = item.tid SET …` -/
def writeItem (time : T) (item : VectorItem V) (n : VectorNode V T) : VectorNode V T :=
  if n.elementId = item.tid then { n with vector := some item.vector, updatedAt := some time } else n

theorem writeItem_elementId (time : T) (item : VectorItem V) (n : VectorNode V T) :
    (writeItem time item n).elementId = n.elementId := by
  unfold writeItem
  split_ifs
  · rfl
  · rfl

/-- All items on a node. -/
def writeItems (time : T) (items : List (VectorItem V)) (n : VectorNode V T) : VectorNode V T :=
  items.foldl (fun n item => writeItem time item n) n

theorem writeItems_elementId (time : T) (items : List (VectorItem V)) (n : VectorNode V T) :
    (writeItems time items n).elementId = n.elementId := by
  induction items generalizing n with
  | nil => rfl
  | cons item items ih => exact (ih _).trans (writeItem_elementId time item n)

/-- `_write_vectors`. -/
def writeVectors (time : T) (items : List (VectorItem V)) (g : VectorGraph V T) : VectorGraph V T where
  nodes := g.nodes.map (writeItems time items)
  vectorIndex := g.vectorIndex
  nodup := by
    rw [List.map_map]
    simpa only [Function.comp_def, writeItems_elementId] using g.nodup

/-- `_ensure_vector_index`: an index that is there stays, and an error is only printed. -/
def ensureVectorIndex (created : Bool) (g : VectorGraph V T) : VectorGraph V T :=
  { g with vectorIndex := g.vectorIndex || created }

/-! ## The run -/

/-- One vector that is not empty for every text, in order, by the text alone. -/
structure EmbeddingClient (V : Type*) where
  embedBatch : List String → List (List V)
  embed : String → List V
  embedBatch_eq : ∀ texts, embedBatch texts = texts.map embed
  embed_ne_nil : ∀ text, embed text ≠ []

/-- What happens to a batch. -/
inductive BatchOutcome (T : Type*) where
  | embeddingRaises
  /-- The write raises; `committed` is the time if it was committed all the same. -/
  | writeRaises (committed : Option T)
  | written (time : T)

variable (E : EmbeddingClient V)

def batchPayload (batch : List MissingRow) : List (VectorItem V) :=
  (batch.zip (E.embedBatch (batch.map MissingRow.embeddingText))).filterMap fun p =>
    if p.2 ≠ [] then some ⟨p.1.tid, p.2⟩ else none

/-- The loop over the batches, with the number of the next one; whether it comes to its end. -/
def vectorizeBatches (outcome : ℕ → BatchOutcome T) :
    ℕ → List (List MissingRow) → VectorGraph V T → VectorGraph V T × Bool
  | _, [], g => (g, true)
  | i, batch :: batches, g =>
    let items := batchPayload E batch
    match outcome i with
    | .embeddingRaises => (g, false)
    | .writeRaises committed =>
      if items = [] then vectorizeBatches outcome (i + 1) batches g
      else match committed with
        | none => (g, false)
        | some time => (writeVectors time items g, false)
    | .written time => vectorizeBatches outcome (i + 1) batches (if items = [] then g else writeVectors time items g)

/-- `run_vectorizer` with the rows that were read; whether it succeeds. -/
def runVectorizer (rows : List MissingRow) (outcome : ℕ → BatchOutcome T) (created : Bool) (g : VectorGraph V T) :
    VectorGraph V T × Bool :=
  if rows = [] then (ensureVectorIndex created g, true)
  else match vectorizeBatches E outcome 0 (slices 100 rows) g with
    | (g', true) => (ensureVectorIndex created g', true)
    | (g', false) => (g', false)

/-- A run that raises; the query itself may raise. -/
def FailedRun (g g' : VectorGraph V T) : Prop :=
  g' = g ∨ ∃ rows outcome created, FetchesMissing g rows ∧ runVectorizer E rows outcome created g = (g', false)

/-- A run that succeeds; `created` is whether the index can be created. -/
def SuccessfulRun (created : Bool) (g g' : VectorGraph V T) : Prop :=
  ∃ rows outcome, FetchesMissing g rows ∧ runVectorizer E rows outcome created g = (g', true)

end

/-! ## What is missing and what is done -/

section
variable {V T : Type*} (E : EmbeddingClient V) {n n' : VectorNode V T} {row : MissingRow} {text : String}

/-- A table that has a text and no vector. -/
structure VectorNode.Missing (n : VectorNode V T) (text : String) : Prop where
  isTable : n.isTable = true
  text_eq : n.embeddingText = some text
  text_ne : text ≠ ""
  vector_eq : n.vector.getD [] = []

/-- The node with a vector. -/
def VectorNode.withVector (n : VectorNode V T) (vector : List V) (time : T) : VectorNode V T :=
  { n with vector := some vector, updatedAt := some time }

/-- The table has the vector of its own text. -/
def Embedded (n n' : VectorNode V T) : Prop :=
  ∃ text time, n.Missing text ∧ n' = n.withVector (E.embed (embeddingCut text)) time

theorem missingRow_eq_some_iff : n.missingRow = some row ↔
    ∃ text, n.Missing text ∧ row = ⟨n.elementId, n.schema.getD "", n.name.getD "", embeddingCut text⟩ := by
  unfold VectorNode.missingRow
  constructor
  · intro h
    cases htext : n.embeddingText with
    | none =>
      rw [htext] at h
      cases h
    | some text =>
      rw [htext] at h
      dsimp only at h
      split_ifs at h with hmissing
      obtain ⟨htable, hne, hvector⟩ := hmissing
      exact ⟨text, ⟨htable, htext, hne, List.eq_nil_of_length_eq_zero hvector⟩, (Option.some.inj h).symm⟩
  · rintro ⟨text, hmissing, rfl⟩
    rw [hmissing.text_eq]
    dsimp only
    rw [if_pos ⟨hmissing.isTable, hmissing.text_ne, by rw [hmissing.vector_eq]; rfl⟩]

theorem Embedded.not_missing (h : Embedded E n n') : ¬ ∃ text, n'.Missing text := by
  obtain ⟨text, time, -, rfl⟩ := h
  rintro ⟨text', hmissing⟩
  exact E.embed_ne_nil _ hmissing.vector_eq

/-! ## A write -/

theorem batchPayload_eq (batch : List MissingRow) :
    batchPayload E batch = batch.map fun row => ⟨row.tid, E.embed row.embeddingText⟩ := by
  rw [batchPayload, E.embedBatch_eq, List.map_map, ← List.map_prod_left_eq_zip, List.filterMap_map]
  refine List.filterMap_eq_map_iff_forall_eq_some.2 fun row _ => ?_
  exact if_pos (E.embed_ne_nil row.embeddingText)

/-- Of rows of one node that have one text, the vector of this text is written. -/
theorem writeItems_batch (time : T) {batch : List MissingRow} {vector : List V} (n : VectorNode V T)
    (h : ∀ row ∈ batch, row.tid = n.elementId → E.embed row.embeddingText = vector) :
    writeItems time (batchPayload E batch) n =
      if n.elementId ∈ batch.map MissingRow.tid then n.withVector vector time else n := by
  rw [batchPayload_eq]
  induction batch generalizing n with
  | nil => rfl
  | cons row batch ih =>
    have hrest : ∀ row ∈ batch, row.tid = n.elementId → E.embed row.embeddingText = vector := fun row hrow =>
      h row (List.mem_cons_of_mem _ hrow)
    rw [List.map_cons, writeItems, List.foldl_cons, ← writeItems, writeItem]
    by_cases hrow : n.elementId = row.tid
    · rw [if_pos hrow, h row List.mem_cons_self hrow.symm, List.map_cons, if_pos (List.mem_cons.2 (Or.inl hrow))]
      refine (ih (n.withVector vector time) hrest).trans ?_
      split_ifs
      · rfl
      · rfl
    · rw [if_neg hrow, ih n hrest, List.map_cons]
      simp only [List.mem_cons, hrow, false_or]

/-- Two nodes of one id. -/
theorem VectorGraph.eq_of_elementId_eq (g : VectorGraph V T) (hn : n ∈ g.nodes) (hn' : n' ∈ g.nodes)
    (h : n.elementId = n'.elementId) : n = n' := List.inj_on_of_nodup_map g.nodup hn hn' h

/-- A row with the id of a node is that of its own text. -/
theorem VectorGraph.exists_missing (g : VectorGraph V T) (hrow : row ∈ g.nodes.filterMap VectorNode.missingRow)
    (hn : n ∈ g.nodes) (htid : row.tid = n.elementId) :
    ∃ text, n.Missing text ∧ row.embeddingText = embeddingCut text := by
  obtain ⟨m, hm, hmissingRow⟩ := List.mem_filterMap.1 hrow
  obtain ⟨text, hmissing, heq⟩ := missingRow_eq_some_iff.1 hmissingRow
  subst heq
  obtain rfl := g.eq_of_elementId_eq hm hn htid
  exact ⟨text, hmissing, rfl⟩

/-- The nodes of `g` with the vectors of the tables `ids` written. -/
def Holds (g : VectorGraph V T) (ids : List String) : List (VectorNode V T) → Prop :=
  List.Forall₂ (fun n n' => n ∈ g.nodes ∧ (n.elementId ∈ ids ∧ Embedded E n n' ∨ n.elementId ∉ ids ∧ n' = n)) g.nodes

theorem holds_nil (g : VectorGraph V T) : Holds E g [] g.nodes :=
  List.forall₂_same.2 fun _ hn => ⟨hn, Or.inr ⟨List.not_mem_nil, rfl⟩⟩

/-- **A write** of rows that were missing. -/
theorem Holds.write {g : VectorGraph V T} {ids : List String} {nodes : List (VectorNode V T)} (h : Holds E g ids nodes)
    (time : T) {batch : List MissingRow} (hbatch : ∀ row ∈ batch, row ∈ g.nodes.filterMap VectorNode.missingRow) :
    Holds E g (ids ++ batch.map MissingRow.tid) (nodes.map (writeItems time (batchPayload E batch))) := by
  refine List.forall₂_map_right_iff.2 (h.imp ?_)
  rintro n n' ⟨hn, hstate⟩
  refine ⟨hn, ?_⟩
  have hid : n'.elementId = n.elementId := by
    rcases hstate with ⟨-, text, time, -, rfl⟩ | ⟨-, rfl⟩
    · rfl
    · rfl
  by_cases hmem : n.elementId ∈ batch.map MissingRow.tid
  · obtain ⟨row, hrowMem, htid⟩ := List.mem_map.1 hmem
    obtain ⟨text, hmissing, htext⟩ := g.exists_missing (hbatch row hrowMem) hn htid
    have hvector : ∀ row ∈ batch, row.tid = n'.elementId → E.embed row.embeddingText = E.embed (embeddingCut text) := by
      intro row' hrow' htid'
      obtain ⟨text', hmissing', htext'⟩ := g.exists_missing (hbatch row' hrow') hn (htid'.trans hid)
      rw [htext', Option.some.inj (hmissing'.text_eq.symm.trans hmissing.text_eq)]
    refine Or.inl ⟨List.mem_append_right ids hmem, text, time, hmissing, ?_⟩
    rw [writeItems_batch E time n' hvector, hid, if_pos hmem]
    rcases hstate with ⟨-, text', time', -, rfl⟩ | ⟨-, rfl⟩
    · rfl
    · rfl
  · have hnone : ∀ row ∈ batch, row.tid = n'.elementId → E.embed row.embeddingText = [] := by
      intro row hrowMem htid
      exact absurd (List.mem_map.2 ⟨row, hrowMem, htid.trans hid⟩) hmem
    rw [writeItems_batch E time n' hnone, hid, if_neg hmem]
    rcases hstate with ⟨hin, hdone⟩ | ⟨hout, rfl⟩
    · exact Or.inl ⟨List.mem_append_left _ hin, hdone⟩
    · exact Or.inr ⟨fun hin => (List.mem_append.1 hin).elim hout hmem, rfl⟩

/-! ## The loop -/

/-- **The loop**: it writes vectors of tables that were missing, all of them if it comes to its end. -/
theorem vectorizeBatches_holds {g : VectorGraph V T} (outcome : ℕ → BatchOutcome T) {batches : List (List MissingRow)}
    (hbatches : ∀ batch ∈ batches, ∀ row ∈ batch, row ∈ g.nodes.filterMap VectorNode.missingRow) (i : ℕ)
    {ids : List String} {g' : VectorGraph V T} (h : Holds E g ids g'.nodes) :
    ∃ ids', Holds E g ids' (vectorizeBatches E outcome i batches g').1.nodes ∧
      (vectorizeBatches E outcome i batches g').1.vectorIndex = g'.vectorIndex ∧
      ((vectorizeBatches E outcome i batches g').2 = true →
        ∀ id, id ∈ ids ∨ id ∈ batches.flatten.map MissingRow.tid → id ∈ ids') := by
  induction batches generalizing i ids g' with
  | nil => exact ⟨ids, h, rfl, fun _ id hid => hid.resolve_right List.not_mem_nil⟩
  | cons batch batches ih =>
    have hbatch := hbatches batch List.mem_cons_self
    have hrest : ∀ batch ∈ batches, ∀ row ∈ batch, row ∈ g.nodes.filterMap VectorNode.missingRow := fun b hb =>
      hbatches b (List.mem_cons_of_mem batch hb)
    have hempty : batchPayload E batch = [] → batch = [] := by
      rw [batchPayload_eq]
      exact List.map_eq_nil_iff.1
    -- the rest of the loop, behind a batch that is written
    have hgo : ∀ next : VectorGraph V T, Holds E g (ids ++ batch.map MissingRow.tid) next.nodes →
        next.vectorIndex = g'.vectorIndex →
          ∃ ids', Holds E g ids' (vectorizeBatches E outcome (i + 1) batches next).1.nodes ∧
            (vectorizeBatches E outcome (i + 1) batches next).1.vectorIndex = g'.vectorIndex ∧
            ((vectorizeBatches E outcome (i + 1) batches next).2 = true →
              ∀ id, id ∈ ids ∨ id ∈ (batch :: batches).flatten.map MissingRow.tid → id ∈ ids') := by
      intro next hnext hindex
      obtain ⟨ids', hholds, hindex', hall⟩ := ih hrest (i + 1) hnext
      refine ⟨ids', hholds, hindex'.trans hindex, fun hok id hid => hall hok id ?_⟩
      rw [List.flatten_cons, List.map_append, List.mem_append] at hid
      rw [List.mem_append, or_assoc]
      exact hid
    have hskip (hnil : batchPayload E batch = []) := hgo g' (by rwa [hempty hnil, List.map_nil, List.append_nil]) rfl
    rw [vectorizeBatches]
    cases outcome i with
    | embeddingRaises => exact ⟨ids, h, rfl, fun hok => absurd hok Bool.false_ne_true⟩
    | writeRaises committed =>
      by_cases hnil : batchPayload E batch = []
      · simp only [if_pos hnil]
        exact hskip hnil
      · simp only [if_neg hnil]
        cases committed with
        | none => exact ⟨ids, h, rfl, fun hok => absurd hok Bool.false_ne_true⟩
        | some time => exact ⟨_, h.write E time hbatch, rfl, fun hok => absurd hok Bool.false_ne_true⟩
    | written time =>
      by_cases hnil : batchPayload E batch = []
      · simp only [if_pos hnil]
        exact hskip hnil
      · simp only [if_neg hnil]
        exact hgo _ (h.write E time hbatch) rfl

/-! ## The runs -/

/-- The tables that are to be vectorised. -/
def VectorNode.Todo (n : VectorNode V T) : Prop := ∃ text, n.Missing text

theorem Holds.between {g : VectorGraph V T} {ids : List String} {nodes : List (VectorNode V T)}
    (h : Holds E g ids nodes) : Between VectorNode.Todo (Embedded E) g.nodes nodes := by
  refine h.imp ?_
  rintro n n' ⟨-, ⟨-, hdone⟩ | ⟨-, rfl⟩⟩
  · obtain ⟨text, time, hmissing, heq⟩ := hdone
    exact Or.inr ⟨⟨text, hmissing⟩, text, time, hmissing, heq⟩
  · exact Or.inl rfl

theorem Holds.finished {g : VectorGraph V T} {ids : List String} {nodes : List (VectorNode V T)}
    (h : Holds E g ids nodes) (hall : ∀ row ∈ g.nodes.filterMap VectorNode.missingRow, row.tid ∈ ids) :
    Finished VectorNode.Todo (Embedded E) g.nodes nodes := by
  refine h.imp ?_
  rintro n n' ⟨hn, hstate⟩
  constructor
  · rintro ⟨text, hmissing⟩
    have hin : n.elementId ∈ ids :=
      hall _ (List.mem_filterMap.2 ⟨n, hn, missingRow_eq_some_iff.2 ⟨text, hmissing, rfl⟩⟩)
    rcases hstate with ⟨-, hdone⟩ | ⟨hout, -⟩
    · exact hdone
    · exact absurd hin hout
  · intro hnot
    rcases hstate with ⟨-, text, -, hmissing, -⟩ | ⟨-, heq⟩
    · exact absurd ⟨text, hmissing⟩ hnot
    · exact heq

theorem runVectorizer_eq (rows : List MissingRow) (outcome : ℕ → BatchOutcome T) (created : Bool)
    (g : VectorGraph V T) : runVectorizer E rows outcome created g =
      match vectorizeBatches E outcome 0 (slices 100 rows) g with
      | (g', true) => (ensureVectorIndex created g', true)
      | (g', false) => (g', false) := by
  unfold runVectorizer
  split_ifs with hnil
  · subst hnil
    rfl
  · rfl

theorem mem_missing_of_mem_slices {g : VectorGraph V T} {rows : List MissingRow} (h : FetchesMissing g rows)
    {batch : List MissingRow} (hbatch : batch ∈ slices 100 rows) {row : MissingRow} (hrow : row ∈ batch) :
    row ∈ g.nodes.filterMap VectorNode.missingRow := by
  have hmem : row ∈ (slices 100 rows).flatten := List.mem_flatten.2 ⟨batch, hbatch, hrow⟩
  rw [flatten_slices (by omega)] at hmem
  exact h.perm.mem_iff.1 hmem

variable {E} {g g' : VectorGraph V T} {created : Bool}

theorem between_of_failedRun (h : FailedRun E g g') :
    Between VectorNode.Todo (Embedded E) g.nodes g'.nodes ∧ g'.vectorIndex = g.vectorIndex := by
  rcases h with rfl | ⟨rows, outcome, created, hrows, hrun⟩
  · exact ⟨.refl _, rfl⟩
  · obtain ⟨ids, hholds, hindex, -⟩ := vectorizeBatches_holds E outcome
      (fun _ hbatch _ hrow => mem_missing_of_mem_slices hrows hbatch hrow) 0 (holds_nil E g)
    rw [runVectorizer_eq] at hrun
    rcases hloop : vectorizeBatches E outcome 0 (slices 100 rows) g with ⟨g'', ok⟩
    rw [hloop] at hholds hindex hrun
    cases ok with
    | true => cases hrun
    | false =>
      obtain rfl : g'' = g' := (Prod.mk.inj hrun).1
      exact ⟨hholds.between, hindex⟩

theorem finished_of_successfulRun (h : SuccessfulRun E created g g') :
    Finished VectorNode.Todo (Embedded E) g.nodes g'.nodes ∧ g'.vectorIndex = (g.vectorIndex || created) := by
  obtain ⟨rows, outcome, hrows, hrun⟩ := h
  obtain ⟨ids, hholds, hindex, hall⟩ := vectorizeBatches_holds E outcome
    (fun _ hbatch _ hrow => mem_missing_of_mem_slices hrows hbatch hrow) 0 (holds_nil E g)
  rw [runVectorizer_eq] at hrun
  rcases hloop : vectorizeBatches E outcome 0 (slices 100 rows) g with ⟨g'', ok⟩
  rw [hloop] at hholds hindex hall hrun
  cases ok with
  | false => cases hrun
  | true =>
    obtain rfl : ensureVectorIndex created g'' = g' := (Prod.mk.inj hrun).1
    refine ⟨hholds.finished E fun row hrow => hall rfl row.tid (Or.inr ?_), congrArg (· || created) hindex⟩
    rw [flatten_slices (by omega)]
    exact List.mem_map_of_mem (hrows.perm.mem_iff.2 hrow)

/-- A run in which nothing raises. -/
theorem exists_successfulRun (E : EmbeddingClient V) (created : Bool) (time : T) (g : VectorGraph V T) :
    ∃ g', SuccessfulRun E created g g' := by
  have hall : ∀ (i : ℕ) (batches : List (List MissingRow)) (g : VectorGraph V T),
      (vectorizeBatches E (fun _ => .written time) i batches g).2 = true := by
    intro i batches
    induction batches generalizing i with
    | nil => intro g; rfl
    | cons batch batches ih => intro g; exact ih _ _
  let rows := (g.nodes.filterMap VectorNode.missingRow).insertionSort MissingRow.Before
  have hrows : FetchesMissing g rows := ⟨List.perm_insertionSort _ _, List.pairwise_insertionSort _ _⟩
  refine ⟨(runVectorizer E rows (fun _ => .written time) created g).1, rows, fun _ => .written time, hrows,
    Prod.ext rfl ?_⟩
  rw [runVectorizer_eq]
  have hloop := hall 0 (slices 100 rows) g
  rcases hpair : vectorizeBatches E (fun _ => .written time) 0 (slices 100 rows) g with ⟨g'', ok⟩
  rw [hpair] at hloop
  obtain rfl : ok = true := hloop
  rfl

/-! ## Resuming -/

def VectorNode.unstamped (n : VectorNode V T) : VectorNode V T := { n with updatedAt := none }

/-- The graph without the times of the writes. -/
def VectorGraph.unstamped (g : VectorGraph V T) : List (VectorNode V T) × Bool :=
  (g.nodes.map VectorNode.unstamped, g.vectorIndex)

theorem unstamped_eq_of_finished {nodes nodes₁ nodes₂ : List (VectorNode V T)}
    (h₁ : Finished VectorNode.Todo (Embedded E) nodes nodes₁)
    (h₂ : Finished VectorNode.Todo (Embedded E) nodes nodes₂) :
    nodes₁.map VectorNode.unstamped = nodes₂.map VectorNode.unstamped := by
  induction h₁ generalizing nodes₂ with
  | nil =>
    cases h₂
    rfl
  | @cons n a _ _ hna _ ih =>
    cases h₂ with
    | @cons _ b _ _ hnb h₂ =>
      rw [List.map_cons, List.map_cons, ih h₂]
      refine congrArg (· :: _) ?_
      by_cases htodo : n.Todo
      · obtain ⟨text, time, hmissing, rfl⟩ := hna.1 htodo
        obtain ⟨text', time', hmissing', rfl⟩ := hnb.1 htodo
        rw [Option.some.inj (hmissing.text_eq.symm.trans hmissing'.text_eq)]
        rfl
      · rw [hna.2 htodo, hnb.2 htodo]

/-- **Resuming**: runs that fail, and then one that succeeds. -/
theorem resumed_vectorizer {g₁ g₂ : VectorGraph V T} (hfailed : Relation.ReflTransGen (FailedRun E) g g₁)
    (hlast : SuccessfulRun E created g₁ g₂) :
    Finished VectorNode.Todo (Embedded E) g.nodes g₂.nodes ∧
      ∀ g₃, SuccessfulRun E created g g₃ → g₂.unstamped = g₃.unstamped := by
  have hfinished : Finished VectorNode.Todo (Embedded E) g.nodes g₂.nodes :=
    finished_of_runs (fun _ _ h => Embedded.not_missing E h) (fun _ _ h => (between_of_failedRun h).1)
      (fun _ _ h => (finished_of_successfulRun h).1) hfailed hlast
  have hindex : g₁.vectorIndex = g.vectorIndex := by
    clear hlast hfinished
    induction hfailed with
    | refl => rfl
    | tail _ hrun ih => exact (between_of_failedRun hrun).2.trans ih
  refine ⟨hfinished, fun g₃ hrun => ?_⟩
  obtain ⟨hfinished', hindex'⟩ := finished_of_successfulRun hrun
  refine Prod.ext (unstamped_eq_of_finished hfinished hfinished') ?_
  show g₂.vectorIndex = g₃.vectorIndex
  rw [(finished_of_successfulRun hlast).2, hindex', hindex]

end

/-! ### More tables than a batch has -/

/-- A client that embeds a text as its length. -/
def lengthClient : EmbeddingClient ℕ where
  embedBatch texts := texts.map fun text => [text.length]
  embed text := [text.length]
  embedBatch_eq _ := rfl
  embed_ne_nil _ := List.cons_ne_nil _ _

/-- All of them are missing. -/
def manyTables : VectorGraph ℕ ℕ where
  nodes := (List.range 101).map fun i =>
    ⟨String.ofList ['g', Char.ofNat (256 + i)], true, some "RWIS", some "FLOW_DAY", some "flow", none, none⟩
  vectorIndex := false
  nodup := by
    refine List.Nodup.of_map (fun id => id.toList.map Char.toNat) ?_
    have hcodes : ((List.range 101).map fun i => [103, 256 + i]).Nodup :=
      List.nodup_range.map fun i j h => by simpa using h
    exact List.Perm.nodup (List.Perm.of_eq (by decide +kernel)) hcodes

def manyRows : List MissingRow := (manyTables.nodes.filterMap VectorNode.missingRow).insertionSort MissingRow.Before

/-- One batch is written, and the embedding of the next one raises. -/
def interrupted : VectorGraph ℕ ℕ × Bool :=
  runVectorizer lengthClient manyRows (fun i => if i = 0 then .written 1 else .embeddingRaises) true manyTables

theorem manyTables_resumed : interrupted.1.nodes ≠ manyTables.nodes ∧
    ∃ g₂, SuccessfulRun lengthClient true interrupted.1 g₂ ∧
      Finished VectorNode.Todo (Embedded lengthClient) manyTables.nodes g₂.nodes ∧
      ∀ g₃, SuccessfulRun lengthClient true manyTables g₃ → g₂.unstamped = g₃.unstamped := by
  have hrows : FetchesMissing manyTables manyRows := ⟨List.perm_insertionSort _ _, List.pairwise_insertionSort _ _⟩
  have hraised : interrupted.2 = false := by decide +kernel
  have hfailed : FailedRun lengthClient manyTables interrupted.1 :=
    Or.inr ⟨manyRows, _, true, hrows, Prod.ext rfl hraised⟩
  have hwritten : (interrupted.1.nodes.head?.bind VectorNode.vector) = some [4] := by decide +kernel
  obtain ⟨g₂, hrun⟩ := exists_successfulRun lengthClient true 2 interrupted.1
  refine ⟨fun hsame => ?_, g₂, hrun, resumed_vectorizer (.single hfailed) hrun⟩
  rw [hsame] at hwritten
  cases hwritten

/-- A graph with one table, which has a text and no vector. -/
def oneTable (text : String) : VectorGraph ℕ ℕ where
  nodes := [⟨"4:g:1", true, some "RWIS", some "FLOW_DAY", some text, none, none⟩]
  vectorIndex := false
  nodup := List.nodup_singleton _

def oneRow (text : String) : MissingRow := ⟨"4:g:1", "RWIS", "FLOW_DAY", embeddingCut text⟩

theorem oneTable_missing {text : String} (h : text ≠ "") : ∀ n ∈ (oneTable text).nodes, n.Missing text := by
  intro n hn
  obtain rfl := List.mem_singleton.1 hn
  exact ⟨rfl, rfl, h, rfl⟩

/-- Of a long text, only the beginning is embedded. -/
theorem resumed_vectorizer_long :
    ¬ ∀ (E : EmbeddingClient ℕ) (g g₁ g₂ : VectorGraph ℕ ℕ) (created : Bool),
      Relation.ReflTransGen (FailedRun E) g g₁ → SuccessfulRun E created g₁ g₂ →
        List.Forall₂ (fun n n' => ∀ text, n.Missing text → n'.vector = some (E.embed text)) g.nodes g₂.nodes := by
  intro h
  let text : String := String.ofList (List.replicate 8001 'a')
  have hlength : text.length = 8001 := by
    rw [String.length_ofList, List.length_replicate]
  have hcut : (embeddingCut text).length = 8000 := by
    rw [embeddingCut, String.length_ofList, List.length_take, String.toList_ofList, List.length_replicate]
    rfl
  have hne : text ≠ "" := by
    intro hempty
    rw [hempty] at hlength
    exact absurd hlength (by decide)
  obtain ⟨g₂, hrun⟩ := exists_successfulRun lengthClient true 0 (oneTable text)
  have hclaim := h lengthClient (oneTable text) (oneTable text) g₂ true .refl hrun
  have hfinished := (finished_of_successfulRun hrun).1
  have hmissing := oneTable_missing hne _ (List.mem_singleton.2 rfl)
  obtain ⟨n', rest, hnode, hrest, hnodes⟩ := List.forall₂_cons_left_iff.1 hfinished
  rw [hnodes] at hclaim
  have hvector := (List.forall₂_cons.1 hclaim).1 text hmissing
  obtain ⟨text', time, hmissing', heq⟩ := hnode.1 ⟨text, hmissing⟩
  obtain rfl := Option.some.inj (hmissing'.text_eq.symm.trans hmissing.text_eq)
  rw [heq] at hvector
  have hlengths : (embeddingCut text).length = text.length := (List.cons.inj (Option.some.inj hvector)).1
  rw [hcut, hlength] at hlengths
  exact absurd hlengths (by decide)

end RoboMeta
