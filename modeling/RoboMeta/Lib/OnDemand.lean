/-
  A resource that is made on demand and kept in a variable.

  The first caller that finds the variable empty makes a resource, later callers
  are given it, and a closer closes what it finds and empties the variable.
  Making and closing are awaited, so that other callers run meanwhile; making may
  fail, closing does not.  A careful maker (`early`) puts the resource into the
  variable before it awaits anything.

  * `Lost`: a resource that is open, and that no one will close (`lost_run`);
  * `lost_iff`: a resource is lost where the variable is set while it stands in it,
    by another maker or by the closer of another resource;
  * `none_lost`: if those that await take turns, nothing is lost.
-/
import RoboMeta.Lib.Tasks

namespace OnDemand

/-- The variable, how many resources were made, and those that were closed. -/
structure Cell where
  made : ℕ := 0
  current : Option ℕ := none
  closed : List ℕ := []
deriving DecidableEq

inductive Job where
  /-- A call that asks for the resource; `works` tells whether making one succeeds. -/
  | get (works : Bool)
  | close

inductive Phase where
  | asked (works : Bool)
  | making (works : Bool)
  | opening (works : Bool)
  /-- The call has returned what it found in the variable. -/
  | given (r : Option ℕ)
  | failed
  | ending
  | closing (r : ℕ)
  | ended
deriving DecidableEq

def Job.phase : Job → Phase
  | get works => .asked works
  | close => .ending

/-- The resource of the next number. -/
def Cell.make (cell : Cell) : Cell := { cell with made := cell.made + 1, current := some cell.made }

def Cell.close (cell : Cell) (r : ℕ) : Cell := { cell with current := none, closed := cell.closed ++ [r] }

section
variable (early : Bool)

/-- What a call does up to its next await. -/
def step (cell : Cell) : Phase → Cell × Phase
  | .asked works => match cell.current with
    | some r => (cell, .given (some r))
    | none => if early then (cell.make, .opening works) else (cell, .making works)
  | .making works => if works then (cell.make, .given (some cell.made)) else (cell, .failed)
  | .opening works => (cell, if works then .given cell.current else .failed)
  | .ending => match cell.current with
    | some r => (cell, .closing r)
    | none => (cell, .ended)
  | .closing r => (cell.close r, .ended)
  | phase => (cell, phase)

abbrev Config := Tasks.Config Cell Phase

abbrev Act := Tasks.Act Job Empty

/-- Nothing comes from outside. -/
abbrev exec (c : Config) (a : Act) : Config := Tasks.exec (fun u _ => u.elim) Job.phase (step early) c a

abbrev run (acts : List Act) : Config := Tasks.run (fun u _ => u.elim) Job.phase (step early) acts ({}, [])

/-- The resource is open, and stands neither in the variable nor with a closer. -/
structure Lost (c : Config) (r : ℕ) : Prop where
  made : r < c.1.made
  closed : r ∉ c.1.closed
  current : c.1.current ≠ some r
  closing : .closing r ∉ c.2

/-- The act sets the variable while the resource stands in it, and is not the end of the resource. -/
structure Overwrites (c : Config) (a : Act) (r : ℕ) : Prop where
  current : c.1.current = some r
  closing : .closing r ∉ c.2
  setter : ∃ i, a = .resume i ∧ (c.2[i]? = some (.making true) ∨ ∃ s, c.2[i]? = some (.closing s))

/-! ## What an act does -/

theorem closing_mem_set {tasks : List Phase} {i : ℕ} {phase : Phase} (phase' : Phase) (hi : tasks[i]? = some phase)
    {r : ℕ} (hne : phase ≠ .closing r) :
    .closing r ∈ tasks.set i phase' ↔ phase' = .closing r ∨ .closing r ∈ tasks := by
  constructor
  · intro h
    rcases List.mem_or_eq_of_mem_set h with h | h
    · exact Or.inr h
    · exact Or.inl h.symm
  · rintro (rfl | h)
    · exact List.mem_set (List.getElem?_eq_some_iff.1 hi).1 _
    · obtain ⟨j, hj⟩ := List.mem_iff_getElem?.1 h
      refine List.mem_iff_getElem?.2 ⟨j, ?_⟩
      have hij : i ≠ j := by
        rintro rfl
        exact hne (Option.some.inj (hi.symm.trans hj))
      rw [List.getElem?_set_ne hij, hj]

/-- The effect of an act on the variable and on what is being closed. -/
inductive Effect (c : Config) (a : Act) (c' : Config) : Prop
  | idle : c'.1 = c.1 → (∀ r, .closing r ∈ c'.2 ↔ .closing r ∈ c.2) → Effect c a c'
  | make : c'.1 = c.1.make → (∀ r, .closing r ∈ c'.2 ↔ .closing r ∈ c.2) →
      (c.1.current = none ∨ ∃ i, a = .resume i ∧ c.2[i]? = some (.making true)) → Effect c a c'
  | begin_ (r : ℕ) : c'.1 = c.1 → c.1.current = some r →
      (∀ s, .closing s ∈ c'.2 ↔ s = r ∨ .closing s ∈ c.2) → Effect c a c'
  | end_ (r i : ℕ) : c'.1 = c.1.close r → a = .resume i → c.2[i]? = some (.closing r) →
      (∀ s, s ≠ r → (.closing s ∈ c'.2 ↔ .closing s ∈ c.2)) → Effect c a c'

theorem effect_exec (c : Config) (a : Act) : Effect c a (exec early c a) := by
  cases a with
  | start job =>
    refine .idle rfl fun r => ?_
    rw [exec, Tasks.exec, List.mem_append, List.mem_singleton]
    exact or_iff_left (by cases job <;> simp [Job.phase])
  | update u => exact u.elim
  | resume i =>
    cases hi : c.2[i]? with
    | none =>
      rw [exec, Tasks.exec_resume_none hi]
      exact .idle rfl fun r => Iff.rfl
    | some phase =>
      rw [exec, Tasks.exec_resume hi]
      -- a call that neither begins nor ends to close leaves alone what is being closed
      have hsame (phase' : Phase) (hphase : ∀ r, phase ≠ .closing r) (hphase' : ∀ r, phase' ≠ .closing r) (r : ℕ) :
          .closing r ∈ c.2.set i phase' ↔ .closing r ∈ c.2 := by
        rw [closing_mem_set phase' hi (hphase r)]
        exact or_iff_right (hphase' r)
      cases phase with
      | asked works =>
        cases hcurrent : c.1.current with
        | some r =>
          rw [step, hcurrent]
          exact .idle rfl (hsame _ (by simp) (by simp))
        | none =>
          rw [step, hcurrent]
          cases early with
          | true => exact .make rfl (hsame _ (by simp) (by simp)) (Or.inl hcurrent)
          | false => exact .idle rfl (hsame _ (by simp) (by simp))
      | making works =>
        cases works with
        | true => exact .make rfl (hsame _ (by simp) (by simp [step])) (Or.inr ⟨i, rfl, hi⟩)
        | false => exact .idle rfl (hsame _ (by simp) (by simp [step]))
      | opening works =>
        refine .idle rfl (hsame _ (by simp) ?_)
        cases works <;> simp [step]
      | ending =>
        cases hcurrent : c.1.current with
        | some r =>
          rw [step, hcurrent]
          refine .begin_ r rfl hcurrent fun s => ?_
          rw [closing_mem_set _ hi (by simp), Phase.closing.injEq, eq_comm]
        | none =>
          rw [step, hcurrent]
          exact .idle rfl (hsame _ (by simp) (by simp))
      | closing r =>
        refine .end_ r i rfl rfl hi fun s hs => ?_
        change .closing s ∈ c.2.set i .ended ↔ _
        rw [closing_mem_set _ hi (by simpa using hs.symm)]
        exact or_iff_right (by simp)
      | given _ | failed | ended => exact .idle rfl (hsame _ (by simp) (by simp [step]))

/-! ## Lost resources -/

variable {early} {c : Config} {a : Act} {r : ℕ}

/-- **What is lost stays lost.** -/
theorem lost_exec (h : Lost c r) : Lost (exec early c a) r := by
  obtain ⟨hmade, hclosed, hcurrent, hclosing⟩ := h
  cases effect_exec early c a with
  | idle hcell hmem => exact ⟨by rwa [hcell], by rwa [hcell], by rwa [hcell], by rwa [hmem]⟩
  | make hcell hmem _ =>
    refine ⟨?_, by rwa [hcell], ?_, by rwa [hmem]⟩
    · rw [hcell]
      exact Nat.lt_succ_of_lt hmade
    · rw [hcell]
      exact fun heq => Nat.ne_of_gt hmade (Option.some.inj heq)
  | begin_ s hcell hs hmem =>
    refine ⟨by rwa [hcell], by rwa [hcell], by rwa [hcell], ?_⟩
    rw [hmem, not_or]
    exact ⟨fun heq => hcurrent (heq ▸ hs), hclosing⟩
  | end_ s i hcell _ hi hmem =>
    have hne : r ≠ s := fun heq => hclosing (heq ▸ List.mem_of_getElem? hi)
    refine ⟨by rwa [hcell], ?_, ?_, by rwa [hmem r hne]⟩
    · rw [hcell, Cell.close, List.mem_append, List.mem_singleton]
      exact not_or.2 ⟨hclosed, hne⟩
    · rw [hcell]
      exact fun heq => Option.some_ne_none r heq.symm

theorem lost_run {acts acts' : List Act} (h : Lost (run early acts) r) : Lost (run early (acts ++ acts')) r := by
  induction acts' using List.reverseRecOn with
  | nil => rwa [List.append_nil]
  | append_singleton acts' a ih =>
    rw [← List.append_assoc, run, Tasks.run_concat]
    exact lost_exec ih

/-- The variable holds what was made last, and what is closed has left it. -/
structure Sound (c : Config) : Prop where
  current : ∀ r, c.1.current = some r → r + 1 = c.1.made ∧ r ∉ c.1.closed
  closed : ∀ r ∈ c.1.closed, r < c.1.made
  closing : ∀ r, .closing r ∈ c.2 → r < c.1.made

/-- What is being closed was made before what the variable holds. -/
theorem Sound.closing_lt {s : ℕ} (h : Sound c) (hr : c.1.current = some r) (hnot : .closing r ∉ c.2)
    (hs : .closing s ∈ c.2) : s < r := by
  have hne : s ≠ r := by
    rintro rfl
    exact hnot hs
  have hlast : r + 1 = c.1.made := (h.current r hr).1
  exact Nat.lt_of_le_of_ne (Nat.le_of_lt_succ (by rw [Nat.succ_eq_add_one, hlast]; exact h.closing s hs)) hne

theorem Sound.exec (h : Sound c) : Sound (exec early c a) := by
  obtain ⟨hcurrent, hclosed, hclosing⟩ := h
  cases effect_exec early c a with
  | idle hcell hmem =>
    refine ⟨by rwa [hcell], by rwa [hcell], fun r hr => ?_⟩
    rw [hcell]
    exact hclosing r ((hmem r).1 hr)
  | make hcell hmem _ =>
    refine ⟨fun r hr => ?_, fun r hr => ?_, fun r hr => ?_⟩
    · rw [hcell] at hr ⊢
      obtain rfl := Option.some.inj hr
      exact ⟨rfl, fun hmem => Nat.lt_irrefl _ (hclosed _ hmem)⟩
    · rw [hcell] at hr ⊢
      exact Nat.lt_succ_of_lt (hclosed r hr)
    · rw [hcell]
      exact Nat.lt_succ_of_lt (hclosing r ((hmem r).1 hr))
  | begin_ s hcell hs hmem =>
    refine ⟨by rwa [hcell], by rwa [hcell], fun r hr => ?_⟩
    rw [hcell]
    rcases (hmem r).1 hr with rfl | hr
    · exact Nat.lt_of_succ_le (Nat.le_of_eq (hcurrent r hs).1)
    · exact hclosing r hr
  | end_ s i hcell _ hi hmem =>
    have hs : s < c.1.made := hclosing s (List.mem_of_getElem? hi)
    refine ⟨fun r hr => ?_, fun r hr => ?_, fun r hr => ?_⟩
    · rw [hcell] at hr
      cases hr
    · rw [hcell, Cell.close, List.mem_append, List.mem_singleton] at hr
      rw [hcell]
      rcases hr with hr | rfl
      · exact hclosed r hr
      · exact hs
    · rw [hcell]
      by_cases hrs : r = s
      · exact hrs ▸ hs
      · exact hclosing r ((hmem r hrs).1 hr)

variable (early) in
theorem sound_run (acts : List Act) : Sound (run early acts) := by
  induction acts using List.reverseRecOn with
  | nil => exact ⟨by simp [Tasks.run], by simp [Tasks.run], by simp [Tasks.run]⟩
  | append_singleton acts a ih =>
    rw [run, Tasks.run_concat]
    exact ih.exec

/-- **One act** loses what it overwrites, and nothing else. -/
theorem lost_exec_iff (hc : Sound c) : Lost (exec early c a) r ↔ Lost c r ∨ Overwrites c a r := by
  constructor
  · intro h
    rw [or_iff_not_imp_left]
    intro hnot
    -- it was in the variable, or else it would have been lost already
    have hheld (hmade : r < c.1.made) (hclosed : r ∉ c.1.closed) (hclosing : .closing r ∉ c.2) :
        c.1.current = some r := by
      by_contra hcurrent
      exact hnot ⟨hmade, hclosed, hcurrent, hclosing⟩
    obtain ⟨hmade, hclosed, hcurrent, hclosing⟩ := h
    cases effect_exec early c a with
    | idle hcell hmem =>
      rw [hcell] at hmade hclosed hcurrent
      rw [hmem] at hclosing
      exact absurd (hheld hmade hclosed hclosing) hcurrent
    | make hcell hmem hsetter =>
      rw [hcell] at hmade hclosed hcurrent
      rw [hmem] at hclosing
      have hlt : r < c.1.made := by
        refine Nat.lt_of_le_of_ne (Nat.le_of_lt_succ hmade) fun heq => hcurrent ?_
        rw [heq]
        rfl
      have hheld := hheld hlt hclosed hclosing
      rcases hsetter with hnone | ⟨i, rfl, hi⟩
      · rw [hnone] at hheld
        cases hheld
      · exact ⟨hheld, hclosing, i, rfl, Or.inl hi⟩
    | begin_ s hcell hs hmem =>
      rw [hcell] at hmade hclosed hcurrent
      rw [hmem, not_or] at hclosing
      exact absurd (hheld hmade hclosed hclosing.2) hcurrent
    | end_ s i hcell ha hi hmem =>
      rw [hcell] at hmade hclosed
      rw [Cell.close, List.mem_append, List.mem_singleton, not_or] at hclosed
      rw [hmem r hclosed.2] at hclosing
      exact ⟨hheld hmade hclosed.1 hclosing, hclosing, i, ha, Or.inr ⟨s, hi⟩⟩
  · rintro (h | ⟨hcurrent, hclosing, i, rfl, hi⟩)
    · exact lost_exec h
    · obtain ⟨hlast, hclosed⟩ := hc.current r hcurrent
      have hmade : r < c.1.made := Nat.lt_of_succ_le (Nat.le_of_eq hlast)
      rcases hi with hi | ⟨s, hi⟩
      · rw [exec, Tasks.exec_resume hi]
        refine ⟨Nat.lt_succ_of_lt hmade, hclosed, fun heq => Nat.ne_of_gt hmade (Option.some.inj heq), ?_⟩
        rw [closing_mem_set _ hi (by simp)]
        simpa [step] using hclosing
      · have hne : r ≠ s := fun heq => hclosing (heq ▸ List.mem_of_getElem? hi)
        rw [exec, Tasks.exec_resume hi]
        refine ⟨hmade, ?_, fun heq => Option.some_ne_none r heq.symm, ?_⟩
        · change r ∉ c.1.closed ++ [s]
          rw [List.mem_append, List.mem_singleton]
          exact not_or.2 ⟨hclosed, hne⟩
        · rw [closing_mem_set _ hi (by simpa using hne.symm)]
          simpa [step] using hclosing

/-- **Lost by overwriting.**  After an interleaving a resource is lost iff one of its acts overwrote it. -/
theorem lost_iff (acts : List Act) : Lost (run early acts) r ↔
    ∃ before a after, acts = before ++ a :: after ∧ Overwrites (run early before) a r := by
  constructor
  · intro h
    have hstart : ¬ Lost (({}, []) : Config) r := fun hlost => absurd hlost.made (Nat.not_lt_zero r)
    obtain ⟨before, a, after, rfl, hbefore, hafter⟩ := Tasks.exists_act (P := fun c => Lost c r) hstart h
    exact ⟨before, a, after, rfl, ((lost_exec_iff (sound_run early before)).1 hafter).resolve_left hbefore⟩
  · rintro ⟨before, a, after, rfl, hover⟩
    rw [← List.singleton_append, ← List.append_assoc]
    refine lost_run ?_
    rw [run, Tasks.run_concat]
    exact (lost_exec_iff (sound_run early before)).2 (Or.inr hover)

/-! ## Taking turns -/

/-- The call makes or closes a resource. -/
def Phase.busy : Phase → Bool
  | making _ | closing _ => true
  | _ => false

variable (early) in
/-- A call begins to make or to close only while no other one does. -/
def TakesTurns (c : Config) (a : Act) : Prop :=
  ∀ i phase, a = .resume i → c.2[i]? = some phase → (step early c.1 phase).2.busy = true →
    phase.busy = true ∨ ∀ task ∈ c.2, task.busy = false

instance (c : Config) : (a : Act) → Decidable (TakesTurns early c a)
  | .start _ => isTrue fun _ _ h => by cases h
  | .update u => u.elim
  | .resume i => decidable_of_iff (∀ phase ∈ c.2[i]?, (step early c.1 phase).2.busy = true →
      phase.busy = true ∨ ∀ task ∈ c.2, task.busy = false)
    ⟨fun h _ phase hi hphase => h phase (by cases hi; exact hphase), fun h phase hphase => h i phase rfl hphase⟩

section
variable {cell : Cell} {phase : Phase}

variable (early cell) in
/-- A call that is not busy leaves the variable alone, or fills it where it is empty. -/
theorem step_of_idle (h : phase.busy = false) :
    (step early cell phase).1 = cell ∨ early = true ∧ cell.current = none := by
  cases phase with
  | asked works => cases hcurrent : cell.current <;> cases early <;> simp [step, hcurrent]
  | ending => cases hcurrent : cell.current <;> simp [step, hcurrent]
  | making _ | closing _ => cases h
  | opening _ | given _ | failed | ended => exact Or.inl rfl

theorem step_eq_making {works : Bool} (h : (step early cell phase).2 = .making works) :
    early = false ∧ cell.current = none ∧ (step early cell phase).1 = cell := by
  cases phase with
  | asked works => cases hcurrent : cell.current <;> cases early <;> simp_all [step]
  | ending => cases hcurrent : cell.current <;> simp [step, hcurrent] at h
  | making works => cases works <;> simp [step] at h
  | opening works => cases works <;> simp [step] at h
  | closing _ | given _ | failed | ended => simp [step] at h

theorem step_eq_closing (h : (step early cell phase).2 = .closing r) :
    cell.current = some r ∧ (step early cell phase).1 = cell := by
  cases phase with
  | asked works => cases hcurrent : cell.current <;> cases early <;> simp [step, hcurrent] at h
  | ending => cases hcurrent : cell.current <;> simp_all [step]
  | making works => cases works <;> simp [step] at h
  | opening works => cases works <;> simp [step] at h
  | closing _ | given _ | failed | ended => simp [step] at h

end

variable (early) in
/-- At most one call makes or closes; the variable is empty while it makes, and holds what it closes. -/
structure Ordered (c : Config) : Prop where
  one : ∀ (i j : ℕ) (p q : Phase), c.2[i]? = some p → c.2[j]? = some q → p.busy = true → q.busy = true → i = j
  making : ∀ works, .making works ∈ c.2 → early = false ∧ c.1.current = none
  closing : ∀ r, .closing r ∈ c.2 → c.1.current = some r

theorem Ordered.exec (h : Ordered early c) (hturn : TakesTurns early c a) : Ordered early (exec early c a) := by
  cases a with
  | start job =>
    have hphase : job.phase.busy = false := by cases job <;> rfl
    have hget {i : ℕ} {task : Phase} (htask : task.busy = true) (hi : (c.2 ++ [job.phase])[i]? = some task) :
        c.2[i]? = some task := by
      rw [List.getElem?_append] at hi
      split at hi
      · exact hi
      · rw [List.mem_singleton.1 (List.mem_of_getElem? hi), hphase] at htask
        cases htask
    have hmem {task : Phase} (htask : task.busy = true) (hin : task ∈ c.2 ++ [job.phase]) : task ∈ c.2 := by
      obtain ⟨i, hi⟩ := List.mem_iff_getElem?.1 hin
      exact List.mem_of_getElem? (hget htask hi)
    exact ⟨fun i j p q hp hq hbp hbq => h.one i j p q (hget hbp hp) (hget hbq hq) hbp hbq,
      fun works hin => h.making works (hmem rfl hin), fun r hin => h.closing r (hmem rfl hin)⟩
  | update u => exact u.elim
  | resume i =>
    cases hi : c.2[i]? with
    | none =>
      rw [OnDemand.exec, Tasks.exec_resume_none hi]
      exact h
    | some phase =>
      rw [OnDemand.exec, Tasks.exec_resume hi]
      have hturn := hturn i phase rfl hi
      -- where another call is busy, this one neither was nor is
      have hidle {j : ℕ} {task : Phase} (hj : c.2[j]? = some task) (hne : i ≠ j) (hbusy : task.busy = true) :
          phase.busy = false ∧ (step early c.1 phase).2.busy = false := by
        have hphase : phase.busy = false := by
          rw [← Bool.not_eq_true]
          exact fun hphase => hne (h.one i j phase task hi hj hphase hbusy)
        refine ⟨hphase, ?_⟩
        rw [← Bool.not_eq_true]
        intro hafter
        rcases hturn hafter with hbefore | hall
        · rw [hphase] at hbefore
          cases hbefore
        · rw [hall task (List.mem_of_getElem? hj)] at hbusy
          cases hbusy
      have hold {task : Phase} (hin : task ∈ c.2.set i (step early c.1 phase).2)
          (hne : (step early c.1 phase).2 ≠ task) : ∃ j, i ≠ j ∧ c.2[j]? = some task := by
        obtain ⟨j, hj⟩ := List.mem_iff_getElem?.1 hin
        by_cases hij : i = j
        · subst hij
          rw [List.getElem?_set_self (List.getElem?_eq_some_iff.1 hi).1] at hj
          exact absurd (Option.some.inj hj) hne
        · rw [List.getElem?_set_ne hij] at hj
          exact ⟨j, hij, hj⟩
      refine ⟨fun j k p q hp hq hbp hbq => ?_, fun works hin => ?_, fun r hin => ?_⟩
      · by_cases hj : i = j
        · by_cases hk : i = k
          · exact hj.symm.trans hk
          · subst hj
            rw [List.getElem?_set_self (List.getElem?_eq_some_iff.1 hi).1] at hp
            rw [List.getElem?_set_ne hk] at hq
            rw [← Option.some.inj hp, (hidle hq hk hbq).2] at hbp
            cases hbp
        · rw [List.getElem?_set_ne hj] at hp
          by_cases hk : i = k
          · subst hk
            rw [List.getElem?_set_self (List.getElem?_eq_some_iff.1 hi).1] at hq
            rw [← Option.some.inj hq, (hidle hp hj hbp).2] at hbq
            cases hbq
          · rw [List.getElem?_set_ne hk] at hq
            exact h.one j k p q hp hq hbp hbq
      · by_cases hphase : (step early c.1 phase).2 = .making works
        · obtain ⟨hearly, hcurrent, hcell⟩ := step_eq_making hphase
          exact ⟨hearly, by rwa [hcell]⟩
        · obtain ⟨j, hij, hj⟩ := hold hin hphase
          obtain ⟨hearly, hcurrent⟩ := h.making works (List.mem_of_getElem? hj)
          rcases step_of_idle early c.1 (hidle hj hij rfl).1 with hcell | ⟨hearly', -⟩
          · exact ⟨hearly, by rwa [hcell]⟩
          · rw [hearly] at hearly'
            cases hearly'
      · by_cases hphase : (step early c.1 phase).2 = .closing r
        · obtain ⟨hcurrent, hcell⟩ := step_eq_closing hphase
          rwa [hcell]
        · obtain ⟨j, hij, hj⟩ := hold hin hphase
          have hcurrent := h.closing r (List.mem_of_getElem? hj)
          rcases step_of_idle early c.1 (hidle hj hij rfl).1 with hcell | ⟨-, hnone⟩
          · rwa [hcell]
          · rw [hnone] at hcurrent
            cases hcurrent

theorem Ordered.not_overwrites (h : Ordered early c) : ¬ Overwrites c a r := by
  rintro ⟨hcurrent, hclosing, i, rfl, hi | ⟨s, hi⟩⟩
  · rw [(h.making true (List.mem_of_getElem? hi)).2] at hcurrent
    cases hcurrent
  · have hs := List.mem_of_getElem? hi
    rw [h.closing s hs] at hcurrent
    exact hclosing (Option.some.inj hcurrent ▸ hs)

/-- **Taking turns** loses nothing. -/
theorem none_lost {acts : List Act}
    (h : Tasks.Allowed (fun u _ => u.elim) Job.phase (step early) (TakesTurns early) ({}, []) acts) (r : ℕ) :
    ¬ Lost (run early acts) r := by
  have hkept : Sound (run early acts) ∧ Ordered early (run early acts) ∧ ∀ r, ¬ Lost (run early acts) r := by
    refine Tasks.run_invariant (I := fun c => Sound c ∧ Ordered early c ∧ ∀ r, ¬ Lost c r)
      (fun c a hc hturn => ?_) ?_ h
    · obtain ⟨hsound, hordered, hnone⟩ := hc
      refine ⟨hsound.exec, hordered.exec hturn, fun r hlost => ?_⟩
      rcases (lost_exec_iff hsound).1 hlost with hlost | hover
      · exact hnone r hlost
      · exact hordered.not_overwrites hover
    · exact ⟨⟨by simp, by simp, by simp⟩, ⟨by simp, by simp, by simp⟩,
        fun r hlost => absurd hlost.made (Nat.not_lt_zero r)⟩
  exact hkept.2.2 r

end

end OnDemand
