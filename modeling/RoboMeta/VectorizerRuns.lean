/-
  Runs of the vectorizer while others run and texts are edited
  (`services/neo4j_client/vectorizer.py`, `POST /vectorize`).

  Nothing keeps a second run from being started while a first one awaits its
  embeddings, and nothing keeps the text of a table as it was read until its
  vector is written.

  * `vectorizer_alone` says that the steps of a run that is left alone are
    `runVectorizer`;
  * `overlapping_finished`: runs that overlap do to tables and index what one run
    does, as soon as one of them succeeds;
  * `upToDate_of_unheld`: tables that are edited only while no run has read them have
    no vector but that of their text;
  * `edit_lost`: the vector of a text that was edited meanwhile stays.
-/
import RoboMeta.Lib.Tasks
import RoboMeta.Vectorizer

namespace RoboMeta

namespace Vectorizers

/-! ## Runs and edits -/

/-- A run, with what it meets: the rows its query reads, if it reads them, and how its batches and the index go. -/
structure Run (V T : Type*) where
  fetch : VectorGraph V T → Option (List MissingRow)
  fetches : ∀ g, ∀ rows ∈ fetch g, FetchesMissing g rows
  outcome : ℕ → BatchOutcome T
  created : Bool

/-- What a run awaits, or how it has ended. -/
inductive Phase where
  | fetching
  | embedding (i : ℕ) (batch : List MissingRow) (batches : List (List MissingRow))
  | writing (i : ℕ) (batch : List MissingRow) (batches : List (List MissingRow))
  | indexing
  | finished
  | raised

/-- The loop, at the batch with the number `i`. -/
def Phase.loop (i : ℕ) : List (List MissingRow) → Phase
  | [] => indexing
  | batch :: batches => embedding i batch batches

/-- The rows that are still to be written. -/
def Phase.pending : Phase → Option (List MissingRow)
  | fetching | raised => none
  | embedding _ batch batches | writing _ batch batches => some (batch ++ batches.flatten)
  | indexing | finished => some []

/-- Another party gives a table a new text, and takes its vector away. -/
structure Edit where
  tid : String
  text : Option String

section
variable {V T : Type*}

def Edit.node (e : Edit) (n : VectorNode V T) : VectorNode V T :=
  if n.elementId = e.tid then { n with embeddingText := e.text, vector := none } else n

theorem Edit.node_elementId (e : Edit) (n : VectorNode V T) : (e.node n).elementId = n.elementId := by
  unfold Edit.node
  split_ifs
  · rfl
  · rfl

def Edit.apply (e : Edit) (g : VectorGraph V T) : VectorGraph V T where
  nodes := g.nodes.map e.node
  vectorIndex := g.vectorIndex
  nodup := by
    rw [List.map_map]
    simpa only [Function.comp_def, Edit.node_elementId] using g.nodup

/-- A run under way. -/
abbrev Task (V T : Type*) := Run V T × Phase

variable (E : EmbeddingClient V)

/-- `run_vectorizer` from one await to the next. -/
def Phase.next (run : Run V T) (g : VectorGraph V T) : Phase → VectorGraph V T × Phase
  | fetching => match run.fetch g with
    | none => (g, raised)
    | some rows => (g, loop 0 (slices 100 rows))
  | embedding i batch batches => match run.outcome i with
    | .embeddingRaises => (g, raised)
    | _ => if batchPayload E batch = [] then (g, loop (i + 1) batches) else (g, writing i batch batches)
  | writing i batch batches => match run.outcome i with
    | .embeddingRaises | .writeRaises none => (g, raised)
    | .writeRaises (some time) => (writeVectors time (batchPayload E batch) g, raised)
    | .written time => (writeVectors time (batchPayload E batch) g, loop (i + 1) batches)
  | indexing => (ensureVectorIndex run.created g, finished)
  | finished => (g, finished)
  | raised => (g, raised)

def step (g : VectorGraph V T) (task : Task V T) : VectorGraph V T × Task V T :=
  let next := Phase.next E task.1 g task.2
  (next.1, (task.1, next.2))

abbrev Act (V T : Type*) := Tasks.Act (Run V T) Edit

abbrev Config (V T : Type*) := Tasks.Config (VectorGraph V T) (Task V T)

/-- Runs and edits, interleaved. -/
abbrev exec (c : Config V T) (a : Act V T) : Config V T :=
  Tasks.exec Edit.apply (fun run => (run, .fetching)) (step E) c a

abbrev runAll (acts : List (Act V T)) (c : Config V T) : Config V T :=
  Tasks.run Edit.apply (fun run => (run, .fetching)) (step E) acts c

end

/-! ## What a step does -/

theorem pending_loop (i : ℕ) (batches : List (List MissingRow)) :
    (Phase.loop i batches).pending = some batches.flatten := by
  cases batches with
  | nil => rfl
  | cons batch batches => rfl

section
variable {V T : Type*}

/-- A step reads the rows of the run, writes a batch, or does neither. -/
inductive Effect (E : EmbeddingClient V) (g : VectorGraph V T) : Phase → VectorGraph V T → Phase → Prop
  | reads {rows phase'} (hrows : FetchesMissing g rows) (hnext : phase'.pending = some rows) :
      Effect E g .fetching g phase'
  | writes {i batch batches phase'} (time : T) (hnext : ∀ rows ∈ phase'.pending, rows = batches.flatten) :
      Effect E g (.writing i batch batches) (writeVectors time (batchPayload E batch) g) phase'
  | idle {phase g' phase'} (hnodes : g'.nodes = g.nodes) (hnext : ∀ rows ∈ phase'.pending, phase.pending = some rows) :
      Effect E g phase g' phase'

variable {E : EmbeddingClient V}

theorem effect_next (run : Run V T) (g : VectorGraph V T) (phase : Phase) :
    Effect E g phase (Phase.next E run g phase).1 (Phase.next E run g phase).2 := by
  have hraised (phase : Phase) : ∀ rows ∈ Phase.raised.pending, phase.pending = some rows := by
    intro rows hrows
    cases hrows
  cases phase with
  | fetching =>
    cases hfetch : run.fetch g with
    | none =>
      rw [Phase.next, hfetch]
      exact .idle rfl (hraised _)
    | some rows =>
      rw [Phase.next, hfetch]
      refine .reads (run.fetches g rows hfetch) ?_
      rw [pending_loop, flatten_slices (by omega)]
  | embedding i batch batches =>
    have hembedded : Effect E g (.embedding i batch batches)
        (if batchPayload E batch = [] then (g, Phase.loop (i + 1) batches) else (g, .writing i batch batches)).1
        (if batchPayload E batch = [] then (g, Phase.loop (i + 1) batches) else (g, .writing i batch batches)).2 := by
      split_ifs with hnil
      · rw [batchPayload_eq, List.map_eq_nil_iff] at hnil
        subst hnil
        refine .idle rfl fun rows hrows => ?_
        rw [← hrows, pending_loop]
        rfl
      · exact .idle rfl fun rows hrows => hrows
    cases houtcome : run.outcome i with
    | embeddingRaises =>
      rw [Phase.next, houtcome]
      exact .idle rfl (hraised _)
    | writeRaises committed =>
      rw [Phase.next, houtcome]
      exact hembedded
    | written time =>
      rw [Phase.next, houtcome]
      exact hembedded
  | writing i batch batches =>
    cases houtcome : run.outcome i with
    | embeddingRaises =>
      rw [Phase.next, houtcome]
      exact .idle rfl (hraised _)
    | writeRaises committed =>
      rw [Phase.next, houtcome]
      cases committed with
      | none => exact .idle rfl (hraised _)
      | some time => exact .writes time fun rows hrows => absurd hrows (by simp [Phase.pending])
    | written time =>
      rw [Phase.next, houtcome]
      refine .writes time fun rows hrows => ?_
      rw [pending_loop] at hrows
      exact (Option.some.inj hrows).symm
  | indexing => exact .idle rfl fun rows hrows => hrows
  | finished => exact .idle rfl fun rows hrows => hrows
  | raised => exact .idle rfl fun rows hrows => hrows

end

/-! ## A run alone -/

section
variable {V T : Type*} (E : EmbeddingClient V) (run : Run V T)

/-- A run that is resumed again and again. -/
def Leads (c c' : Config V T) : Prop := ∃ n, runAll E (List.replicate n (.resume 0)) c = c'

theorem Leads.step {g : VectorGraph V T} {phase : Phase} {c' : Config V T}
    (h : Leads E ((Phase.next E run g phase).1, [(run, (Phase.next E run g phase).2)]) c') :
    Leads E (g, [(run, phase)]) c' := by
  obtain ⟨n, rfl⟩ := h
  exact ⟨n + 1, rfl⟩

/-- The end of a run, with or without success. -/
def ending (r : VectorGraph V T × Bool) : Config V T :=
  if r.2 then (ensureVectorIndex run.created r.1, [(run, .finished)]) else (r.1, [(run, .raised)])

theorem leads_loop (batches : List (List MissingRow)) (i : ℕ) (g : VectorGraph V T) :
    Leads E (g, [(run, .loop i batches)]) (ending run (vectorizeBatches E run.outcome i batches g)) := by
  induction batches generalizing i g with
  | nil => exact ⟨1, rfl⟩
  | cons batch batches ih =>
    refine Leads.step E run ?_
    rw [Phase.loop, Phase.next, vectorizeBatches]
    cases houtcome : run.outcome i with
    | embeddingRaises => exact ⟨0, rfl⟩
    | writeRaises committed =>
      by_cases hnil : batchPayload E batch = []
      · simp only [if_pos hnil]
        exact ih (i + 1) g
      · simp only [if_neg hnil]
        refine Leads.step E run ?_
        rw [Phase.next, houtcome]
        cases committed with
        | none => exact ⟨0, rfl⟩
        | some time => exact ⟨0, rfl⟩
    | written time =>
      by_cases hnil : batchPayload E batch = []
      · simp only [if_pos hnil]
        exact ih (i + 1) g
      · simp only [if_neg hnil]
        refine Leads.step E run ?_
        rw [Phase.next, houtcome]
        exact ih (i + 1) (writeVectors time (batchPayload E batch) g)

/-- **A run that is left alone** does what `runVectorizer` does with the rows it reads. -/
theorem vectorizer_alone {g : VectorGraph V T} {rows : List MissingRow} (h : run.fetch g = some rows) :
    ∃ n, runAll E (.start run :: List.replicate n (.resume 0)) (g, []) =
      ((runVectorizer E rows run.outcome run.created g).1,
        [(run, if (runVectorizer E rows run.outcome run.created g).2 then .finished else .raised)]) := by
  have hending : ending run (vectorizeBatches E run.outcome 0 (slices 100 rows) g) =
      ((runVectorizer E rows run.outcome run.created g).1,
        [(run, if (runVectorizer E rows run.outcome run.created g).2 then .finished else .raised)]) := by
    rw [runVectorizer_eq]
    rcases vectorizeBatches E run.outcome 0 (slices 100 rows) g with ⟨g', ok⟩
    cases ok with
    | true => rfl
    | false => rfl
  have hfetched : Leads E (g, [(run, .fetching)])
      (ending run (vectorizeBatches E run.outcome 0 (slices 100 rows) g)) := by
    refine Leads.step E run ?_
    rw [Phase.next, h]
    exact leads_loop E run (slices 100 rows) 0 g
  obtain ⟨n, hn⟩ := hfetched
  exact ⟨n, hn.trans hending⟩

end

/-! ## Runs that overlap -/

section
variable {V T : Type*} (E : EmbeddingClient V) (g₀ : VectorGraph V T)

/-- The rows that a run has before it are rows of the beginning, and all of these that no run has written. -/
def Covers (ids : List String) (phase : Phase) : Prop :=
  ∀ rows ∈ phase.pending, (∀ row ∈ rows, row ∈ g₀.nodes.filterMap VectorNode.missingRow) ∧
    ∀ row ∈ g₀.nodes.filterMap VectorNode.missingRow, row.tid ∈ ids ∨ row ∈ rows

/-- What overlapping runs keep; `ids` are the tables that they have written. -/
structure Overlap (ids : List String) (c : Config V T) : Prop where
  holds : Holds E g₀ ids c.1.nodes
  covers : ∀ task ∈ c.2, Covers g₀ ids task.2

variable {E g₀} {ids : List String}

theorem Covers.mono {ids' : List String} {phase : Phase} (h : Covers g₀ ids phase) (hids : ids ⊆ ids') :
    Covers g₀ ids' phase := by
  intro rows hrows
  obtain ⟨hsound, hall⟩ := h rows hrows
  exact ⟨hsound, fun row hrow => (hall row hrow).imp_left (@hids _)⟩

theorem tid_of_missingRow {n : VectorNode V T} {row : MissingRow} (h : n.missingRow = some row) :
    row.tid = n.elementId := by
  obtain ⟨text, -, rfl⟩ := missingRow_eq_some_iff.1 h
  rfl

/-- The rows that are missing now are the rows of the beginning that no run has written. -/
theorem mem_missing_iff {nodes : List (VectorNode V T)} (h : Holds E g₀ ids nodes) {row : MissingRow} :
    row ∈ nodes.filterMap VectorNode.missingRow ↔
      row ∈ g₀.nodes.filterMap VectorNode.missingRow ∧ row.tid ∉ ids := by
  have hstates := List.Forall₂.imp (fun _ _ hn => hn.2) h
  clear h
  generalize g₀.nodes = start at hstates ⊢
  induction hstates with
  | nil => simp
  | @cons n n' start nodes hstate _ ih =>
    have hhead : n'.missingRow = some row ↔ n.missingRow = some row ∧ row.tid ∉ ids := by
      rcases hstate with ⟨hin, hdone⟩ | ⟨hout, rfl⟩
      · constructor
        · intro hrow
          obtain ⟨text, hmissing, -⟩ := missingRow_eq_some_iff.1 hrow
          exact absurd ⟨text, hmissing⟩ (Embedded.not_missing E hdone)
        · rintro ⟨hrow, hnot⟩
          rw [tid_of_missingRow hrow] at hnot
          exact absurd hin hnot
      · refine (and_iff_left_of_imp fun hrow => ?_).symm
        rw [tid_of_missingRow hrow]
        exact hout
    rw [List.mem_filterMap, List.mem_filterMap] at ih ⊢
    simp only [List.mem_cons, exists_eq_or_imp, hhead, ih]
    exact or_and_right.symm

theorem runAll_concat (acts : List (Act V T)) (a : Act V T) (c : Config V T) :
    runAll E (acts ++ [a]) c = exec E (runAll E acts c) a := Tasks.run_concat acts a

/-- A task that goes on. -/
theorem exists_effect {c : Config V T} {i : ℕ} {run : Run V T} {phase : Phase} (hi : c.2[i]? = some (run, phase)) :
    ∃ g' phase', Effect E c.1 phase g' phase' ∧ exec E c (.resume i) = (g', c.2.set i (run, phase')) :=
  ⟨_, _, effect_next run c.1 phase, Tasks.exec_resume hi⟩

/-- A run that has just been started has no rows. -/
theorem pending_of_mem_start {run : Run V T} {tasks : List (Task V T)} {task : Task V T} {rows : List MissingRow}
    (htask : task ∈ tasks ++ [(run, .fetching)]) (hrows : rows ∈ task.2.pending) : task ∈ tasks := by
  rcases List.mem_append.1 htask with htask | htask
  · exact htask
  · rw [List.mem_singleton.1 htask] at hrows
    cases hrows

/-- **A step** of runs that overlap. -/
theorem Overlap.exec {c : Config V T} {a : Act V T} (h : Overlap E g₀ ids c) (ha : ∀ e, a ≠ .update e) :
    ∃ ids', Overlap E g₀ ids' (exec E c a) := by
  cases a with
  | update e => exact absurd rfl (ha e)
  | start run =>
    exact ⟨ids, h.holds, fun task htask rows hrows =>
      h.covers task (pending_of_mem_start htask hrows) rows hrows⟩
  | resume i =>
    cases hi : c.2[i]? with
    | none => exact ⟨ids, by rw [Vectorizers.exec, Tasks.exec_resume_none hi]; exact h⟩
    | some task =>
      obtain ⟨run, phase⟩ := task
      obtain ⟨g', phase', heffect, hexec⟩ := exists_effect (E := E) hi
      have hphase : Covers g₀ ids phase := h.covers _ (List.mem_of_getElem? hi)
      -- the other tasks keep what they have before them
      have hcovers (ids' : List String) (hids : ids ⊆ ids') (hnew : Covers g₀ ids' phase') :
          ∀ task ∈ c.2.set i (run, phase'), Covers g₀ ids' task.2 := by
        intro task htask
        rcases List.mem_or_eq_of_mem_set htask with htask | rfl
        · exact (h.covers task htask).mono hids
        · exact hnew
      rw [hexec]
      cases heffect with
      | reads hrows hnext =>
        refine ⟨ids, h.holds, hcovers ids (List.Subset.refl _) fun rows' hrows' => ?_⟩
        obtain rfl := Option.some.inj (hnext.symm.trans hrows')
        refine ⟨fun row hrow => ((mem_missing_iff h.holds).1 (hrows.perm.mem_iff.1 hrow)).1, fun row hrow => ?_⟩
        by_cases hwritten : row.tid ∈ ids
        · exact Or.inl hwritten
        · exact Or.inr (hrows.perm.mem_iff.2 ((mem_missing_iff h.holds).2 ⟨hrow, hwritten⟩))
      | @writes _ batch batches _ time hnext =>
        obtain ⟨hsound, hall⟩ := hphase _ rfl
        refine ⟨ids ++ batch.map MissingRow.tid,
          h.holds.write E time fun row hrow => hsound row (List.mem_append_left _ hrow),
          hcovers _ (List.subset_append_left _ _) fun rows' hrows' => ?_⟩
        obtain rfl := hnext rows' hrows'
        refine ⟨fun row hrow => hsound row (List.mem_append_right _ hrow), fun row hrow => ?_⟩
        rcases hall row hrow with hwritten | hpending
        · exact Or.inl (List.mem_append_left _ hwritten)
        · rcases List.mem_append.1 hpending with hbatch | hlater
          · exact Or.inl (List.mem_append_right _ (List.mem_map_of_mem hbatch))
          · exact Or.inr hlater
      | idle hnodes hnext =>
        refine ⟨ids, ?_, hcovers ids (List.Subset.refl _) fun rows hrows => hphase rows (hnext rows hrows)⟩
        rw [hnodes]
        exact h.holds

variable (E g₀) in
theorem overlap_run {acts : List (Act V T)} (h : ∀ a ∈ acts, ∀ e, a ≠ .update e) :
    ∃ ids, Overlap E g₀ ids (runAll E acts (g₀, [])) := by
  induction acts using List.reverseRecOn with
  | nil => exact ⟨[], holds_nil E g₀, fun task htask => absurd htask List.not_mem_nil⟩
  | append_singleton acts a ih =>
    obtain ⟨ids, hids⟩ := ih fun a hin => h a (List.mem_append_left _ hin)
    rw [runAll_concat]
    exact hids.exec (h a (by simp))

theorem loop_ne_finished (i : ℕ) (batches : List (List MissingRow)) : Phase.loop i batches ≠ .finished := by
  cases batches with
  | nil => simp [Phase.loop]
  | cons batch batches => simp [Phase.loop]

theorem next_finished_iff {run : Run V T} {g : VectorGraph V T} {phase : Phase} :
    (Phase.next E run g phase).2 = .finished ↔ phase = .indexing ∨ phase = .finished := by
  cases phase with
  | fetching =>
    cases hfetch : run.fetch g with
    | none => simp [Phase.next, hfetch]
    | some rows => simp [Phase.next, hfetch, loop_ne_finished]
  | embedding i batch batches =>
    cases houtcome : run.outcome i with
    | embeddingRaises => simp [Phase.next, houtcome]
    | writeRaises committed =>
      simp only [Phase.next, houtcome]
      split_ifs <;> simp [loop_ne_finished]
    | written time =>
      simp only [Phase.next, houtcome]
      split_ifs <;> simp [loop_ne_finished]
  | writing i batch batches =>
    cases houtcome : run.outcome i with
    | embeddingRaises => simp [Phase.next, houtcome]
    | writeRaises committed => cases committed <;> simp [Phase.next, houtcome]
    | written time => simp [Phase.next, houtcome, loop_ne_finished]
  | indexing => simp [Phase.next]
  | finished => simp [Phase.next]
  | raised => simp [Phase.next]

theorem next_vectorIndex_iff {run : Run V T} {g : VectorGraph V T} {phase : Phase} :
    (Phase.next E run g phase).1.vectorIndex = true ↔
      g.vectorIndex = true ∨ phase = .indexing ∧ run.created = true := by
  cases phase with
  | fetching => cases hfetch : run.fetch g <;> simp [Phase.next, hfetch]
  | embedding i batch batches =>
    cases houtcome : run.outcome i with
    | embeddingRaises => simp [Phase.next, houtcome]
    | writeRaises committed =>
      simp only [Phase.next, houtcome]
      split_ifs <;> simp
    | written time =>
      simp only [Phase.next, houtcome]
      split_ifs <;> simp
  | writing i batch batches =>
    cases houtcome : run.outcome i with
    | embeddingRaises => simp [Phase.next, houtcome]
    | writeRaises committed => cases committed <;> simp [Phase.next, houtcome, writeVectors]
    | written time => simp [Phase.next, houtcome, writeVectors]
  | indexing => simp [Phase.next, ensureVectorIndex]
  | finished => simp [Phase.next]
  | raised => simp [Phase.next]

/-- The index is made by the runs that succeed, if it can be created. -/
theorem vectorIndex_runAll_iff (acts : List (Act V T)) : (runAll E acts (g₀, [])).1.vectorIndex = true ↔
    g₀.vectorIndex = true ∨ ∃ task ∈ (runAll E acts (g₀, [])).2, task.2 = .finished ∧ task.1.created = true := by
  induction acts using List.reverseRecOn with
  | nil => simp [runAll, Tasks.run]
  | append_singleton acts a ih =>
    rw [runAll_concat]
    generalize runAll E acts (g₀, []) = c at ih ⊢
    cases a with
    | start run => simpa [Tasks.exec] using ih
    | update e => exact ih
    | resume i =>
      cases hi : c.2[i]? with
      | none =>
        rw [exec, Tasks.exec_resume_none hi]
        exact ih
      | some task =>
        have hkeeps : task.2 = .finished ∧ task.1.created = true →
            (step E c.1 task).2.2 = .finished ∧ (step E c.1 task).2.1.created = true :=
          And.imp_left fun hfinished => next_finished_iff.2 (Or.inr hfinished)
        rw [exec, Tasks.exec_resume hi, Tasks.exists_mem_set hi hkeeps]
        refine next_vectorIndex_iff.trans ?_
        rw [ih, or_assoc]
        refine or_congr_right ⟨?_, ?_⟩
        · rintro (hdone | ⟨hphase, hcreated⟩)
          · exact Or.inl hdone
          · exact Or.inr ⟨next_finished_iff.2 (Or.inl hphase), hcreated⟩
        · rintro (hdone | ⟨hfinished, hcreated⟩)
          · exact Or.inl hdone
          · rcases next_finished_iff.1 hfinished with hphase | hphase
            · exact Or.inr ⟨hphase, hcreated⟩
            · exact Or.inl ⟨task, List.mem_of_getElem? hi, hphase, hcreated⟩

variable (E g₀) in
/-- **Overlapping runs.**  What they write is what one run writes, all of it as soon as one of them succeeds; the index
is there once one that can create it succeeds. -/
theorem overlapping_finished {acts : List (Act V T)} (h : ∀ a ∈ acts, ∀ e, a ≠ .update e) :
    let c := runAll E acts (g₀, [])
    Between VectorNode.Todo (Embedded E) g₀.nodes c.1.nodes ∧
      (c.1.vectorIndex = true ↔
        g₀.vectorIndex = true ∨ ∃ task ∈ c.2, task.2 = .finished ∧ task.1.created = true) ∧
      ∀ task ∈ c.2, task.2 = .finished →
        Finished VectorNode.Todo (Embedded E) g₀.nodes c.1.nodes ∧
          ∀ created g, SuccessfulRun E created g₀ g →
            c.1.nodes.map VectorNode.unstamped = g.nodes.map VectorNode.unstamped := by
  obtain ⟨ids, hholds, hcovers⟩ := overlap_run E g₀ h
  refine ⟨hholds.between, vectorIndex_runAll_iff acts, fun task htask hphase => ?_⟩
  have hall : ∀ row ∈ g₀.nodes.filterMap VectorNode.missingRow, row.tid ∈ ids := by
    intro row hrow
    have hpending : task.2.pending = some [] := by rw [hphase]; rfl
    exact ((hcovers task htask [] hpending).2 row hrow).resolve_right List.not_mem_nil
  have hfinished := hholds.finished E hall
  exact ⟨hfinished, fun created g hrun => unstamped_eq_of_finished hfinished (finished_of_successfulRun hrun).1⟩

end

/-! ## Edits meanwhile -/

section
variable {V T : Type*} (E : EmbeddingClient V)

/-- A run has read the table and has still to write it. -/
def Phase.Holds (phase : Phase) (tid : String) : Prop := ∃ rows ∈ phase.pending, ∃ row ∈ rows, row.tid = tid

/-- The table has no vector but that of its text. -/
def UpToDate (n : VectorNode V T) : Prop :=
  n.vector.getD [] = [] ∨ ∃ text, n.embeddingText = some text ∧ n.vector = some (E.embed (embeddingCut text))

variable {E} {tid : String}

/-- A write leaves a node as it is, or gives it the vector of one of the rows. -/
theorem writeItems_cases (time : T) (batch : List MissingRow) (n : VectorNode V T) :
    n.elementId ∉ batch.map MissingRow.tid ∧ writeItems time (batchPayload E batch) n = n ∨
      ∃ row ∈ batch, row.tid = n.elementId ∧
        writeItems time (batchPayload E batch) n = n.withVector (E.embed row.embeddingText) time := by
  rw [batchPayload_eq]
  induction batch using List.reverseRecOn with
  | nil => exact Or.inl ⟨List.not_mem_nil, rfl⟩
  | append_singleton batch row ih =>
    have hlast : writeItems time ((batch ++ [row]).map fun row => ⟨row.tid, E.embed row.embeddingText⟩) n =
        writeItem time ⟨row.tid, E.embed row.embeddingText⟩
          (writeItems time (batch.map fun row => ⟨row.tid, E.embed row.embeddingText⟩) n) := by
      simp [writeItems]
    rw [hlast, writeItem, writeItems_elementId]
    by_cases hrow : n.elementId = row.tid
    · refine Or.inr ⟨row, by simp, hrow.symm, ?_⟩
      rw [if_pos hrow]
      rcases ih with ⟨-, heq⟩ | ⟨row', -, -, heq⟩
      · rw [heq]
        rfl
      · rw [heq]
        rfl
    · rw [if_neg hrow]
      rcases ih with ⟨hnot, heq⟩ | ⟨row', hrow', htid, heq⟩
      · exact Or.inl ⟨by simpa using ⟨by simpa using hnot, hrow⟩, heq⟩
      · exact Or.inr ⟨row', List.mem_append_left _ hrow', htid, heq⟩

theorem writeItems_embeddingText (time : T) (batch : List MissingRow) (n : VectorNode V T) :
    (writeItems time (batchPayload E batch) n).embeddingText = n.embeddingText := by
  rcases writeItems_cases (E := E) time batch n with ⟨-, heq⟩ | ⟨row, -, -, heq⟩
  · rw [heq]
  · rw [heq]
    rfl

/-- The table is up to date, and so are the rows that runs have read of it. -/
structure Tracks (E : EmbeddingClient V) (tid : String) (c : Config V T) : Prop where
  upToDate : ∀ n ∈ c.1.nodes, n.elementId = tid → UpToDate E n
  rows : ∀ task ∈ c.2, ∀ rows ∈ task.2.pending, ∀ row ∈ rows, row.tid = tid →
    ∀ n ∈ c.1.nodes, n.elementId = tid → ∃ text, n.embeddingText = some text ∧ row.embeddingText = embeddingCut text

theorem Tracks.exec {c : Config V T} {a : Act V T} (h : Tracks E tid c)
    (ha : ∀ e, a = .update e → e.tid = tid → ∀ task ∈ c.2, ¬ task.2.Holds tid) : Tracks E tid (exec E c a) := by
  cases a with
  | start run =>
    exact ⟨h.upToDate, fun task htask rows hrows => h.rows task (pending_of_mem_start htask hrows) rows hrows⟩
  | update e =>
    by_cases htid : e.tid = tid
    · refine ⟨fun n hn hid => Or.inl ?_, fun task htask rows hrows row hrow hrowTid => ?_⟩
      · obtain ⟨n, -, rfl⟩ := List.mem_map.1 hn
        rw [Edit.node_elementId] at hid
        rw [Edit.node, if_pos (hid.trans htid.symm)]
        rfl
      · exact absurd ⟨rows, hrows, row, hrow, hrowTid⟩ (ha e rfl htid task htask)
    · have hsame : ∀ n' ∈ (e.apply c.1).nodes, n'.elementId = tid → n' ∈ c.1.nodes := by
        intro n' hn' hid
        obtain ⟨n, hn, rfl⟩ := List.mem_map.1 hn'
        rw [Edit.node_elementId] at hid
        rw [Edit.node, if_neg fun heq => htid (heq.symm.trans hid)]
        exact hn
      exact ⟨fun n hn hid => h.upToDate n (hsame n hn hid) hid, fun task htask rows hrows row hrow hrowTid n hn hid =>
        h.rows task htask rows hrows row hrow hrowTid n (hsame n hn hid) hid⟩
  | resume i =>
    cases hi : c.2[i]? with
    | none =>
      rw [Vectorizers.exec, Tasks.exec_resume_none hi]
      exact h
    | some task =>
      obtain ⟨run, phase⟩ := task
      obtain ⟨g', phase', heffect, hexec⟩ := exists_effect (E := E) hi
      have hphase := h.rows _ (List.mem_of_getElem? hi)
      rw [hexec]
      cases heffect with
      | reads hrows hnext =>
        refine ⟨h.upToDate, fun task htask rows' hrows' row hrow hrowTid n hn hid => ?_⟩
        rcases List.mem_or_eq_of_mem_set htask with htask | rfl
        · exact h.rows task htask rows' hrows' row hrow hrowTid n hn hid
        · obtain rfl := Option.some.inj (hnext.symm.trans hrows')
          obtain ⟨text, hmissing, htext⟩ :=
            c.1.exists_missing (hrows.perm.mem_iff.1 hrow) hn (hrowTid.trans hid.symm)
          exact ⟨text, hmissing.text_eq, htext⟩
      | @writes _ batch batches _ time hnext =>
        constructor
        · intro n' hn' hid
          obtain ⟨n, hn, rfl⟩ := List.mem_map.1 hn'
          rw [writeItems_elementId] at hid
          rcases writeItems_cases (E := E) time batch n with ⟨-, heq⟩ | ⟨row, hrow, htid, heq⟩
          · rw [heq]
            exact h.upToDate n hn hid
          · obtain ⟨text, htext, hcut⟩ := hphase _ rfl row (List.mem_append_left _ hrow) (htid.trans hid) n hn hid
            rw [heq, hcut]
            exact Or.inr ⟨text, htext, rfl⟩
        · intro task htask rows hrows row hrow hrowTid n' hn' hid
          obtain ⟨n, hn, rfl⟩ := List.mem_map.1 hn'
          rw [writeItems_elementId] at hid
          rw [writeItems_embeddingText]
          rcases List.mem_or_eq_of_mem_set htask with htask | rfl
          · exact h.rows task htask rows hrows row hrow hrowTid n hn hid
          · obtain rfl := hnext rows hrows
            exact hphase _ rfl row (List.mem_append_right _ hrow) hrowTid n hn hid
      | idle hnodes hnext =>
        refine ⟨fun n hn hid => h.upToDate n (by rwa [hnodes] at hn) hid,
          fun task htask rows hrows row hrow hrowTid n hn hid => ?_⟩
        rw [hnodes] at hn
        rcases List.mem_or_eq_of_mem_set htask with htask | rfl
        · exact h.rows task htask rows hrows row hrow hrowTid n hn hid
        · exact hphase rows (hnext rows hrows) row hrow hrowTid n hn hid

/-- The act is no edit of a table that a run has read and has still to write. -/
def Unheld (tid : String) (c : Config V T) (a : Act V T) : Prop :=
  ∀ e, a = .update e → e.tid = tid → ∀ task ∈ c.2, ¬ task.2.Holds tid

/-- **Edits in time.**  A table that is edited only while no run has read it has no vector but that of its text. -/
theorem upToDate_of_unheld {g : VectorGraph V T} {acts : List (Act V T)}
    (hg : ∀ n ∈ g.nodes, n.elementId = tid → UpToDate E n)
    (h : Tasks.Allowed Edit.apply (fun run => (run, .fetching)) (step E) (Unheld tid) (g, []) acts) :
    ∀ n ∈ (runAll E acts (g, [])).1.nodes, n.elementId = tid → UpToDate E n :=
  (Tasks.run_invariant (I := Tracks E tid) (fun _ _ htracks ha => htracks.exec ha)
    ⟨hg, fun _ htask => absurd htask List.not_mem_nil⟩ h).upToDate

/-- The table has a vector that is not that of its text, and whatever runs have read of it is not its text. -/
structure Spoiled (E : EmbeddingClient V) (tid text : String) (c : Config V T) : Prop where
  nodes : ∀ n ∈ c.1.nodes, n.elementId = tid → n.embeddingText = some text ∧ n.vector.getD [] ≠ [] ∧
    n.vector ≠ some (E.embed (embeddingCut text))
  rows : ∀ task ∈ c.2, ∀ rows ∈ task.2.pending, ∀ row ∈ rows, row.tid = tid →
    E.embed row.embeddingText ≠ E.embed (embeddingCut text)

/-- A write of rows that are not the text of the table. -/
theorem spoiled_write {text : String} {time : T} {batch : List MissingRow} {n : VectorNode V T}
    (hid : n.elementId = tid) (htext : n.embeddingText = some text)
    (hrows : ∀ row ∈ batch, row.tid = tid → E.embed row.embeddingText ≠ E.embed (embeddingCut text))
    (hvector : n.elementId ∉ batch.map MissingRow.tid →
      n.vector.getD [] ≠ [] ∧ n.vector ≠ some (E.embed (embeddingCut text))) :
    let n' := writeItems time (batchPayload E batch) n
    n'.embeddingText = some text ∧ n'.vector.getD [] ≠ [] ∧ n'.vector ≠ some (E.embed (embeddingCut text)) := by
  rcases writeItems_cases (E := E) time batch n with ⟨hnot, heq⟩ | ⟨row, hrow, htid, heq⟩
  · rw [heq]
    exact ⟨htext, hvector hnot⟩
  · rw [heq]
    refine ⟨htext, E.embed_ne_nil row.embeddingText, fun hsame => ?_⟩
    exact hrows row hrow (htid.trans hid) (Option.some.inj hsame)

theorem Spoiled.exec {text : String} {c : Config V T} {a : Act V T} (h : Spoiled E tid text c)
    (ha : ∀ e, a = .update e → e.tid ≠ tid) : Spoiled E tid text (exec E c a) := by
  cases a with
  | start run =>
    exact ⟨h.nodes, fun task htask rows hrows => h.rows task (pending_of_mem_start htask hrows) rows hrows⟩
  | update e =>
    refine ⟨fun n' hn' hid => ?_, h.rows⟩
    obtain ⟨n, hn, rfl⟩ := List.mem_map.1 hn'
    rw [Edit.node_elementId] at hid
    rw [Edit.node, if_neg fun heq => ha e rfl (heq.symm.trans hid)]
    exact h.nodes n hn hid
  | resume i =>
    cases hi : c.2[i]? with
    | none =>
      rw [Vectorizers.exec, Tasks.exec_resume_none hi]
      exact h
    | some task =>
      obtain ⟨run, phase⟩ := task
      obtain ⟨g', phase', heffect, hexec⟩ := exists_effect (E := E) hi
      have hphase := h.rows _ (List.mem_of_getElem? hi)
      have hrows (hnew : ∀ rows ∈ phase'.pending, ∀ row ∈ rows, row.tid = tid →
          E.embed row.embeddingText ≠ E.embed (embeddingCut text)) :
          ∀ task ∈ c.2.set i (run, phase'), ∀ rows ∈ task.2.pending, ∀ row ∈ rows, row.tid = tid →
            E.embed row.embeddingText ≠ E.embed (embeddingCut text) := by
        intro task htask
        rcases List.mem_or_eq_of_mem_set htask with htask | rfl
        · exact h.rows task htask
        · exact hnew
      rw [hexec]
      cases heffect with
      | reads hmissing hnext =>
        -- the table has a vector, so no run reads it
        refine ⟨h.nodes, hrows fun rows' hrows' row hrow hrowTid => ?_⟩
        obtain rfl := Option.some.inj (hnext.symm.trans hrows')
        obtain ⟨n, hn, hrow⟩ := List.mem_filterMap.1 (hmissing.perm.mem_iff.1 hrow)
        obtain ⟨text', hmissing', -⟩ := missingRow_eq_some_iff.1 hrow
        exact absurd hmissing'.vector_eq (h.nodes n hn ((tid_of_missingRow hrow).symm.trans hrowTid)).2.1
      | @writes _ batch batches _ time hnext =>
        have hbatch : ∀ row ∈ batch, row.tid = tid → E.embed row.embeddingText ≠ E.embed (embeddingCut text) :=
          fun row hrow => hphase _ rfl row (List.mem_append_left _ hrow)
        refine ⟨fun n' hn' hid => ?_, hrows fun rows' hrows' row hrow => ?_⟩
        · obtain ⟨n, hn, rfl⟩ := List.mem_map.1 hn'
          rw [writeItems_elementId] at hid
          obtain ⟨htext, hvector⟩ := h.nodes n hn hid
          exact spoiled_write hid htext hbatch fun _ => hvector
        · obtain rfl := hnext rows' hrows'
          exact hphase _ rfl row (List.mem_append_right _ hrow)
      | idle hnodes hnext =>
        refine ⟨fun n hn hid => h.nodes n (by rwa [hnodes] at hn) hid, hrows fun rows hpending => ?_⟩
        exact hphase rows (hnext rows hpending)

/-- **A lost edit.**  Where a table is edited while a run is about to write it, and no run has read a text that embeds
like the new one, the table has the vector of an old text and keeps it, whatever runs there are, until it is edited
again. -/
theorem edit_lost {c : Config V T} {e : Edit} {text : String} (htext : e.text = some text)
    (hheld : ∀ task ∈ c.2, ∀ rows ∈ task.2.pending, ∀ row ∈ rows, row.tid = e.tid →
      E.embed row.embeddingText ≠ E.embed (embeddingCut text))
    {i k : ℕ} {run : Run V T} {batch : List MissingRow} {batches : List (List MissingRow)} {time : T}
    (hi : c.2[i]? = some (run, .writing k batch batches)) (hbatch : e.tid ∈ batch.map MissingRow.tid)
    (hwritten : run.outcome k = .written time) {acts : List (Act V T)}
    (hacts : ∀ a ∈ acts, ∀ e', a = .update e' → e'.tid ≠ e.tid) :
    ∀ n ∈ (runAll E (.update e :: .resume i :: acts) c).1.nodes, n.elementId = e.tid → ¬ UpToDate E n := by
  have hphase := hheld _ (List.mem_of_getElem? hi) _ rfl
  have hspoiled : Spoiled E e.tid text (exec E (exec E c (.update e)) (.resume i)) := by
    have hresume : (exec E c (.update e)).2[i]? = some (run, .writing k batch batches) := hi
    rw [exec, Tasks.exec_resume hresume, step, Phase.next, hwritten]
    refine ⟨fun n' hn' hid => ?_, fun task htask rows hrows row hrow => ?_⟩
    · obtain ⟨m, hm, rfl⟩ := List.mem_map.1 hn'
      obtain ⟨n, -, rfl⟩ := List.mem_map.1 hm
      have hidM : (e.node n).elementId = e.tid := (writeItems_elementId _ _ _).symm.trans hid
      have hedited : e.node n = { n with embeddingText := e.text, vector := none } :=
        if_pos ((e.node_elementId n).symm.trans hidM)
      refine spoiled_write hidM (by rw [hedited]; exact htext)
        (fun row hrow => hphase row (List.mem_append_left _ hrow)) fun hnot => ?_
      rw [hidM] at hnot
      exact absurd hbatch hnot
    · rcases List.mem_or_eq_of_mem_set htask with htask | rfl
      · exact hheld task htask rows hrows row hrow
      · rw [pending_loop] at hrows
        obtain rfl := Option.some.inj hrows
        exact hphase row (List.mem_append_right _ hrow)
  have hrun : Spoiled E e.tid text (runAll E acts (exec E (exec E c (.update e)) (.resume i))) := by
    induction acts using List.reverseRecOn with
    | nil => exact hspoiled
    | append_singleton acts a ih =>
      rw [runAll_concat]
      exact (ih fun a hin => hacts a (List.mem_append_left _ hin)).exec (hacts a (by simp))
  intro n hn hid
  obtain ⟨hnText, hvector, hne⟩ := hrun.nodes n hn hid
  rintro (hnone | ⟨text', htext', heq⟩)
  · exact hvector hnone
  · obtain rfl := Option.some.inj (hnText.symm.trans htext')
    exact hne heq

end

/-! ### Two tables -/

/-- A run in which nothing raises. -/
def flowRun : Run ℕ ℕ where
  fetch g := some ((g.nodes.filterMap VectorNode.missingRow).insertionSort MissingRow.Before)
  fetches g rows h := by
    obtain rfl := Option.some.inj h
    exact ⟨List.perm_insertionSort _ _, List.pairwise_insertionSort _ _⟩
  outcome _ := .written 1
  created := true

/-- A run whose write raises, though it was committed. -/
def brokenRun : Run ℕ ℕ := { flowRun with outcome := fun _ => .writeRaises (some 2) }

/-- Two tables that have a text and no vector, and one without a text. -/
def riverTables : VectorGraph ℕ ℕ where
  nodes := [⟨"4:g:1", true, some "RWIS", some "LEVEL_DAY", some "water level", none, none⟩,
    ⟨"4:g:2", true, some "RWIS", some "FLOW_DAY", some "flow", none, none⟩,
    ⟨"4:g:3", true, some "RWIS", some "RAIN_DAY", none, none, none⟩]
  vectorIndex := false
  nodup := by decide

/-- Three runs in turns, of which one fails. -/
def turns : List (Act ℕ ℕ) :=
  [.start flowRun, .start brokenRun, .resume 0, .resume 1, .start flowRun, .resume 2, .resume 1, .resume 0, .resume 1,
    .resume 2, .resume 0, .resume 2, .resume 0]

theorem overlapping_finished_turns :
    (Finished VectorNode.Todo (Embedded lengthClient) riverTables.nodes
      (runAll lengthClient turns (riverTables, [])).1.nodes) ∧
    ((runAll lengthClient turns (riverTables, [])).1.vectorIndex = true ↔ riverTables.vectorIndex = true ∨
      ∃ task ∈ (runAll lengthClient turns (riverTables, [])).2, task.2 = .finished ∧ task.1.created = true) :=
  have hended : (runAll lengthClient turns (riverTables, [])).2 =
      [(flowRun, .finished), (brokenRun, .raised), (flowRun, .indexing)] := rfl
  have hacts : ∀ a ∈ turns, ∀ e, a ≠ .update e := by simp [turns]
  have hruns := overlapping_finished lengthClient riverTables hacts
  ⟨(hruns.2.2 (flowRun, .finished) (by rw [hended]; simp) rfl).1, hruns.2.1⟩

/-! ### A table that is described anew -/

def flowEdit : Edit := ⟨"4:g:1", some "level"⟩

theorem upToDate_of_unheld_flow : ∃ n, (runAll lengthClient [.update flowEdit, .start flowRun, .resume 0, .resume 0,
    .resume 0] (oneTable "flow", [])).1.nodes = [n] ∧ UpToDate lengthClient n := by
  have hflow : ∀ n ∈ (oneTable "flow").nodes, n.elementId = "4:g:1" → UpToDate lengthClient n := by
    intro n hn _
    rw [List.mem_singleton.1 hn]
    exact Or.inl rfl
  have hallowed : Tasks.Allowed Edit.apply (fun run => (run, .fetching)) (step lengthClient) (Unheld "4:g:1")
      (oneTable "flow", []) [.update flowEdit, .start flowRun, .resume 0, .resume 0, .resume 0] :=
    ⟨fun _ _ _ task htask => absurd htask List.not_mem_nil, by simp [Unheld], by simp [Unheld], by simp [Unheld],
      by simp [Unheld], trivial⟩
  exact ⟨_, rfl, upToDate_of_unheld hflow hallowed _ (List.mem_singleton.2 rfl) rfl⟩

theorem edit_lost_flow : ∃ n, (runAll lengthClient [.update flowEdit, .resume 0, .start flowRun, .resume 1]
    (runAll lengthClient [.start flowRun, .resume 0, .resume 0] (oneTable "flow", []))).1.nodes = [n] ∧
      ¬ UpToDate lengthClient n := by
  have hwriting : (runAll lengthClient [.start flowRun, .resume 0, .resume 0] (oneTable "flow", [])).2[0]? =
      some (flowRun, .writing 0 [oneRow "flow"] []) := rfl
  have hheld : ∀ task ∈ (runAll lengthClient [.start flowRun, .resume 0, .resume 0] (oneTable "flow", [])).2,
      ∀ rows ∈ task.2.pending, ∀ row ∈ rows, row.tid = flowEdit.tid →
        lengthClient.embed row.embeddingText ≠ lengthClient.embed (embeddingCut "level") := by
    intro task htask rows hrows row hrow _
    obtain rfl := List.mem_singleton.1 htask
    obtain rfl : [oneRow "flow"] = rows := Option.some.inj hrows
    rw [List.mem_singleton.1 hrow]
    decide
  have htext : flowEdit.text = some "level" := rfl
  have hwritten : flowRun.outcome 0 = .written 1 := rfl
  have hacts : ∀ a ∈ ([.start flowRun, .resume 1] : List (Act ℕ ℕ)), ∀ e, a = .update e → e.tid ≠ flowEdit.tid := by
    simp
  exact ⟨_, rfl, edit_lost htext hheld hwriting (by decide) hwritten hacts _ (List.mem_singleton.2 rfl) rfl⟩

end Vectorizers

end RoboMeta
