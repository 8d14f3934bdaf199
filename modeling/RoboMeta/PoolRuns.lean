/-
  The connection pools that are made on demand (`db.py`,
  `services/neo4j_client/db_probe.py`), while calls overlap.

  A pool stands in a module variable.  `init_source_pool` puts it there before it
  awaits the opening; `get_pg_pool` and `init_metadata_repository` await
  `create_pool` first, so that further calls still find the variable empty.  An
  opening may raise; a close that raises is not modelled.

  * `pgPool_lost_iff`: without closes, of the pools that overlapping calls make
    all but the last are lost: open, and never closed;
  * `sourcePool_lost_iff`: the early variable loses a pool only where the close of
    an older one ends while it stands there;
  * `metadata_lost_iff`, `metadata_none_lost`: the two variables of the metadata
    repository run like one, which says what they lose, and that calls which
    take turns lose nothing;
  * `getMetadataRepository_open`: a repository that is handed out stands over the
    last pool made, which is not closed.
-/
import RoboMeta.JsonValue
import RoboMeta.Lib.OnDemand

namespace RoboMeta

open OnDemand

/-! ## `get_pg_pool` and `close_pg_pool` -/

/-- `_pool` is set when `create_pool` has returned; where it fails, the caller is given none. -/
abbrev pgPoolRun (acts : List Act) : Config := run false acts

/-- Without closes, the variable keeps the pool that was made last. -/
structure Unclosed (c : Config) : Prop where
  closed : c.1.closed = []
  current : c.1.current = none → c.1.made = 0
  tasks : ∀ task ∈ c.2, task ≠ .ending ∧ ∀ r, task ≠ .closing r

theorem Unclosed.exec {c : Config} {a : Act} (h : Unclosed c) (ha : a ≠ .start .close) :
    Unclosed (exec false c a) := by
  cases a with
  | start job =>
    refine ⟨h.closed, h.current, fun task hin => ?_⟩
    rcases List.mem_append.1 hin with hin | hin
    · exact h.tasks task hin
    · rw [List.mem_singleton.1 hin]
      cases job with
      | get works => exact ⟨by simp [Job.phase], by simp [Job.phase]⟩
      | close => exact absurd rfl ha
  | update u => exact u.elim
  | resume i =>
    cases hi : c.2[i]? with
    | none =>
      rw [OnDemand.exec, Tasks.exec_resume_none hi]
      exact h
    | some phase =>
      rw [OnDemand.exec, Tasks.exec_resume hi]
      have hphase := h.tasks phase (List.mem_of_getElem? hi)
      have htasks (hnext : (step false c.1 phase).2 ≠ .ending ∧ ∀ r, (step false c.1 phase).2 ≠ .closing r) :
          ∀ task ∈ c.2.set i (step false c.1 phase).2, task ≠ .ending ∧ ∀ r, task ≠ .closing r := by
        intro task hin
        rcases List.mem_or_eq_of_mem_set hin with hin | rfl
        · exact h.tasks task hin
        · exact hnext
      cases phase with
      | asked works =>
        cases hcurrent : c.1.current with
        | some r =>
          exact ⟨by simp [step, hcurrent, h.closed], by simp [step, hcurrent], htasks (by simp [step, hcurrent])⟩
        | none =>
          exact ⟨by simp [step, hcurrent, h.closed], by simp [step, hcurrent, h.current hcurrent],
            htasks (by simp [step, hcurrent])⟩
      | making works =>
        cases works with
        | true => exact ⟨h.closed, by simp [step, Cell.make], htasks (by simp [step])⟩
        | false => exact ⟨h.closed, h.current, htasks (by simp [step])⟩
      | opening works => exact ⟨h.closed, h.current, htasks (by cases works <;> simp [step])⟩
      | ending => exact absurd rfl hphase.1
      | closing r => exact absurd rfl (hphase.2 r)
      | given r => exact ⟨h.closed, h.current, htasks (by simp [step])⟩
      | failed => exact ⟨h.closed, h.current, htasks (by simp [step])⟩
      | ended => exact ⟨h.closed, h.current, htasks (by simp [step])⟩

theorem unclosed_run {acts : List Act} (h : ∀ a ∈ acts, a ≠ .start .close) : Unclosed (run false acts) := by
  induction acts using List.reverseRecOn with
  | nil => exact ⟨rfl, fun _ => rfl, by simp [Tasks.run]⟩
  | append_singleton acts a ih =>
    rw [run, Tasks.run_concat]
    exact (ih fun a hin => h a (List.mem_append_left _ hin)).exec (h a (by simp))

/-- **All but the last.**  While nothing is closed, the pools that calls of `get_pg_pool` make are lost, except for
the last one. -/
theorem pgPool_lost_iff {acts : List Act} (h : ∀ a ∈ acts, a ≠ .start .close) (r : ℕ) :
    Lost (pgPoolRun acts) r ↔ r + 1 < (pgPoolRun acts).1.made := by
  obtain ⟨hclosed, hnone, htasks⟩ := unclosed_run h
  have hsound := sound_run false acts
  constructor
  · intro hlost
    refine Nat.lt_of_le_of_ne hlost.made fun hlast => hlost.current ?_
    cases hcurrent : (run false acts).1.current with
    | none =>
      rw [hnone hcurrent] at hlast
      cases hlast
    | some s => rw [Nat.succ_injective (hlast.trans (hsound.current s hcurrent).1.symm)]
  · intro hlt
    refine ⟨Nat.lt_of_succ_lt hlt, by simp [hclosed], fun hcurrent => ?_, fun hin => (htasks _ hin).2 r rfl⟩
    exact Nat.ne_of_lt hlt (hsound.current r hcurrent).1

/-- Two callers both find the variable empty. -/
def overlap : List Act := [.start (.get true), .start (.get true), .resume 0, .resume 1, .resume 0, .resume 1]

theorem pgPool_lost_iff_overlap : Lost (pgPoolRun overlap) 0 := (pgPool_lost_iff (by simp [overlap]) 0).2 (by decide)

/-! ## `init_source_pool` and `close_source_pool` -/

/-- `_source_pool` is set before its `open()` is awaited; the caller is given what the variable holds afterwards. -/
abbrev sourcePoolRun (acts : List Act) : Config := run true acts

/-- No caller awaits before it has set the variable. -/
theorem not_making (acts : List Act) (works : Bool) : .making works ∉ (sourcePoolRun acts).2 := by
  intro hin
  refine Tasks.forall_task (J := fun task => ∀ works, task ≠ .making works) ?_ ?_ acts ?_ _ hin works rfl
  · intro job works
    cases job <;> simp [Job.phase]
  · intro cell task htask works hmaking
    have hearly := (step_eq_making hmaking).1
    cases hearly
  · simp

/-- **Lost by an older close.** -/
theorem sourcePool_lost_iff (acts : List Act) (r : ℕ) : Lost (sourcePoolRun acts) r ↔
    ∃ before i after s, acts = before ++ .resume i :: after ∧ (sourcePoolRun before).1.current = some r ∧
      .closing r ∉ (sourcePoolRun before).2 ∧ (sourcePoolRun before).2[i]? = some (.closing s) ∧ s < r := by
  rw [lost_iff]
  constructor
  · rintro ⟨before, a, after, rfl, hcurrent, hclosing, i, rfl, hi | ⟨s, hi⟩⟩
    · exact absurd (List.mem_of_getElem? hi) (not_making before true)
    · exact ⟨before, i, after, s, rfl, hcurrent, hclosing, hi,
        (sound_run true before).closing_lt hcurrent hclosing (List.mem_of_getElem? hi)⟩
  · rintro ⟨before, i, after, s, rfl, hcurrent, hclosing, hi, -⟩
    exact ⟨before, .resume i, after, rfl, hcurrent, hclosing, i, rfl, Or.inr ⟨s, hi⟩⟩

/-! ## `init_metadata_repository` and `close_metadata_repository` -/

/-- `_metadata_pool` and the pool that `_metadata_repository` stands over. -/
structure MetadataCell where
  made : ℕ := 0
  pool : Option ℕ := none
  repository : Option ℕ := none
  closed : List ℕ := []
deriving DecidableEq

/-- The opening asks for the repository, the close for the pool. -/
def metadataRepository (cell : MetadataCell) : Phase → MetadataCell × Phase
  | .asked works => match cell.repository with
    | some r => (cell, .given (some r))
    | none => (cell, .making works)
  | .making works =>
    if works then
      ({ cell with made := cell.made + 1, pool := some cell.made, repository := some cell.made },
        .given (some cell.made))
    else (cell, .failed)
  -- no call waits here: the variables are set after the pool is open
  | .opening works => (cell, if works then .given cell.repository else .failed)
  | .ending => match cell.pool with
    | some r => (cell, .closing r)
    | none => ({ cell with pool := none, repository := none }, .ended)
  | .closing r => ({ cell with pool := none, repository := none, closed := cell.closed ++ [r] }, .ended)
  | phase => (cell, phase)

def getMetadataRepository (cell : MetadataCell) : Except Exc ℕ :=
  match cell.repository with
  | some r => .ok r
  | none => .error ⟨"RuntimeError", "metadata repository not initialized"⟩

abbrev metadataRun (acts : List Act) : Tasks.Config MetadataCell Phase :=
  Tasks.run (fun u _ => u.elim) Job.phase metadataRepository acts ({}, [])

/-- What the pool's variable is, alone. -/
def MetadataCell.cell (cell : MetadataCell) : Cell := ⟨cell.made, cell.pool, cell.closed⟩

theorem metadataRepository_cell (cell : MetadataCell) (phase : Phase) (h : cell.repository = cell.pool) :
    (metadataRepository cell phase).1.repository = (metadataRepository cell phase).1.pool ∧
      step false cell.cell phase = ((metadataRepository cell phase).1.cell, (metadataRepository cell phase).2) := by
  cases phase with
  | asked works => cases hpool : cell.pool <;> simp [metadataRepository, step, MetadataCell.cell, h, hpool]
  | making works => cases works <;> simp [metadataRepository, step, MetadataCell.cell, Cell.make, h]
  | ending => cases hpool : cell.pool <;> simp [metadataRepository, step, MetadataCell.cell, h, hpool]
  | closing r => simp [metadataRepository, step, MetadataCell.cell, Cell.close]
  | opening works => simp [metadataRepository, step, MetadataCell.cell, h]
  | given _ | failed | ended => exact ⟨h, rfl⟩

/-- **Two variables like one.** -/
theorem metadataRun_cell (acts : List Act) :
    (metadataRun acts).1.repository = (metadataRun acts).1.pool ∧
      run false acts = ((metadataRun acts).1.cell, (metadataRun acts).2) :=
  Tasks.run_map (f := MetadataCell.cell) (I := fun cell => cell.repository = cell.pool)
    (fun u _ _ => u.elim) metadataRepository_cell rfl acts

/-- The pool is open, and stands neither in `_metadata_pool` nor with a closer. -/
def MetadataLost (c : Tasks.Config MetadataCell Phase) (r : ℕ) : Prop :=
  r < c.1.made ∧ r ∉ c.1.closed ∧ c.1.pool ≠ some r ∧ .closing r ∉ c.2

theorem metadataLost_iff (acts : List Act) (r : ℕ) : MetadataLost (metadataRun acts) r ↔ Lost (run false acts) r := by
  rw [(metadataRun_cell acts).2]
  exact ⟨fun ⟨hmade, hclosed, hpool, hclosing⟩ => ⟨hmade, hclosed, hpool, hclosing⟩,
    fun ⟨hmade, hclosed, hpool, hclosing⟩ => ⟨hmade, hclosed, hpool, hclosing⟩⟩

/-- **Lost by a second opening or an older close.** -/
theorem metadata_lost_iff (acts : List Act) (r : ℕ) : MetadataLost (metadataRun acts) r ↔
    ∃ before i after, acts = before ++ .resume i :: after ∧ (metadataRun before).1.pool = some r ∧
      .closing r ∉ (metadataRun before).2 ∧
      ((metadataRun before).2[i]? = some (.making true) ∨
        ∃ s, s < r ∧ (metadataRun before).2[i]? = some (.closing s)) := by
  rw [metadataLost_iff, lost_iff]
  constructor
  · rintro ⟨before, a, after, rfl, hcurrent, hclosing, i, rfl, hi⟩
    have hsound := sound_run false before
    have hlt {s : ℕ} (hs : (run false before).2[i]? = some (.closing s)) : s < r :=
      hsound.closing_lt hcurrent hclosing (List.mem_of_getElem? hs)
    rw [(metadataRun_cell before).2] at hcurrent hclosing hi hlt
    exact ⟨before, i, after, rfl, hcurrent, hclosing, hi.imp_right fun ⟨s, hs⟩ => ⟨s, hlt hs, hs⟩⟩
  · rintro ⟨before, i, after, rfl, hcurrent, hclosing, hi⟩
    refine ⟨before, .resume i, after, rfl, ?_⟩
    rw [(metadataRun_cell before).2]
    exact ⟨hcurrent, hclosing, i, rfl, hi.imp_right fun ⟨s, _, hs⟩ => ⟨s, hs⟩⟩

/-- A call begins to open or to close only while no other one does, as in the lifespan of the application. -/
abbrev MetadataTurns (c : Tasks.Config MetadataCell Phase) (a : Act) : Prop :=
  TakesTurns false (c.map MetadataCell.cell id) a

/-- **Nothing lost by turns.** -/
theorem metadata_none_lost {acts : List Act}
    (h : Tasks.Allowed (fun u _ => u.elim) Job.phase metadataRepository MetadataTurns ({}, []) acts) (r : ℕ) :
    ¬ MetadataLost (metadataRun acts) r := by
  have hcell : Tasks.Allowed (fun u _ => u.elim) Job.phase (step false) (TakesTurns false)
      (Prod.map MetadataCell.cell id ({}, [])) acts :=
    Tasks.allowed_map (I := fun cell => cell.repository = cell.pool) (fun u _ _ => Empty.elim u)
      metadataRepository_cell rfl h
  rw [metadataLost_iff]
  exact none_lost hcell r

/-- A second caller waits for the first, and the close for both. -/
theorem metadata_none_lost_lifespan :
    ¬ MetadataLost (metadataRun [.start (.get true), .start (.get true), .resume 0, .resume 0, .resume 1,
      .start .close, .resume 2, .resume 2]) 0 :=
  metadata_none_lost (by decide) 0

/-- **What is handed out is open.** -/
theorem getMetadataRepository_open {acts : List Act} {r : ℕ}
    (h : getMetadataRepository (metadataRun acts).1 = .ok r) :
    (metadataRun acts).1.pool = some r ∧ r + 1 = (metadataRun acts).1.made ∧ r ∉ (metadataRun acts).1.closed := by
  obtain ⟨heq, hrun⟩ := metadataRun_cell acts
  have hpool : (metadataRun acts).1.pool = some r := by
    rw [getMetadataRepository, heq] at h
    split at h
    · rename_i hpool
      rw [hpool, Except.ok.inj h]
    · cases h
  have hcurrent := (sound_run false acts).current r
  rw [hrun] at hcurrent
  exact ⟨hpool, hcurrent hpool⟩

theorem getMetadataRepository_open_overlap :
    (metadataRun overlap).1.pool = some 1 ∧ 1 + 1 = (metadataRun overlap).1.made ∧
      1 ∉ (metadataRun overlap).1.closed :=
  getMetadataRepository_open (by decide)

end RoboMeta
