/-
  Tasks that run interleaved on one state.

  A task runs uninterrupted as far as its next await (`step`); meanwhile other
  tasks are started and resumed, and the state is updated from outside.  An
  interleaving is a list of such acts.

  * `run_invariant`: what holds initially and is kept by every allowed act holds
    after every interleaving of allowed acts;
  * `run_map`: tasks whose steps agree along a map of the states run alike;
  * `exists_act`: what has come about is due to one of the acts;
  * `forall_task`: what tasks keep to themselves;
  * `ledger_perm`: if a task enters into the ledger of the state what it enters
    into its own account, then nothing in the ledger is lost or entered twice;
  * `exists_resume`: every entry is due to a task that was resumed.
-/
import Mathlib.Data.List.Induction
import Mathlib.Data.List.Perm.Basic

namespace Tasks

variable {S L A U X : Type*}

/-- A task is started on a job or resumed, or the state is updated. -/
inductive Act (A U : Type*) where
  | start (job : A)
  | resume (i : ℕ)
  | update (u : U)

/-- The state, and the tasks in the order in which they were started. -/
abbrev Config (S L : Type*) := S × List L

section
variable (apply : U → S → S) (init : A → L) (step : S → L → S × L)

def exec (c : Config S L) : Act A U → Config S L
  | .start job => (c.1, c.2 ++ [init job])
  | .resume i => match c.2[i]? with
    | some task => ((step c.1 task).1, c.2.set i (step c.1 task).2)
    | none => c
  | .update u => (apply u c.1, c.2)

def run (acts : List (Act A U)) (c : Config S L) : Config S L := acts.foldl (exec apply init step) c

/-- Every act is taken in a configuration that allows it. -/
def Allowed (ok : Config S L → Act A U → Prop) : Config S L → List (Act A U) → Prop
  | _, [] => True
  | c, a :: acts => ok c a ∧ Allowed ok (exec apply init step c a) acts

instance instDecidableAllowed {ok : Config S L → Act A U → Prop} [∀ c a, Decidable (ok c a)] :
    (c : Config S L) → (acts : List (Act A U)) → Decidable (Allowed apply init step ok c acts)
  | _, [] => isTrue trivial
  | c, a :: acts =>
    have : Decidable (Allowed apply init step ok (exec apply init step c a) acts) :=
      instDecidableAllowed (exec apply init step c a) acts
    inferInstanceAs (Decidable (ok c a ∧ Allowed apply init step ok (exec apply init step c a) acts))

end

/-! ## Runs -/

section
variable {apply : U → S → S} {init : A → L} {step : S → L → S × L} {c : Config S L}

theorem run_nil : run apply init step [] c = c := rfl

theorem run_append (acts acts' : List (Act A U)) :
    run apply init step (acts ++ acts') c = run apply init step acts' (run apply init step acts c) := List.foldl_append

theorem run_concat (acts : List (Act A U)) (a : Act A U) :
    run apply init step (acts ++ [a]) c = exec apply init step (run apply init step acts c) a := run_append acts [a]

theorem exec_resume {i : ℕ} {task : L} (h : c.2[i]? = some task) :
    exec apply init step c (.resume i) = ((step c.1 task).1, c.2.set i (step c.1 task).2) := by
  rw [exec, h]

theorem exec_resume_none {i : ℕ} (h : c.2[i]? = none) : exec apply init step c (.resume i) = c := by
  rw [exec, h]

/-- **The invariant rule.** -/
theorem run_invariant {ok : Config S L → Act A U → Prop} {I : Config S L → Prop}
    (keeps : ∀ c a, I c → ok c a → I (exec apply init step c a)) {acts : List (Act A U)} (hc : I c)
    (h : Allowed apply init step ok c acts) : I (run apply init step acts c) := by
  induction acts generalizing c with
  | nil => exact hc
  | cons a acts ih => exact ih (keeps c a hc h.1) h.2

section
variable {S' : Type*} {apply' : U → S' → S'} {step' : S' → L → S' × L} {f : S → S'} {I : S → Prop}
  (hupdate : ∀ u s, I s → I (apply u s) ∧ apply' u (f s) = f (apply u s))
  (hstep : ∀ s task, I s → I (step s task).1 ∧ step' (f s) task = (f (step s task).1, (step s task).2))
include hupdate hstep

variable (init) in
theorem exec_map (hc : I c.1) (a : Act A U) :
    I (exec apply init step c a).1 ∧
      exec apply' init step' (Prod.map f id c) a = Prod.map f id (exec apply init step c a) := by
  cases a with
  | start job => exact ⟨hc, rfl⟩
  | resume i =>
    cases hi : c.2[i]? with
    | none =>
      have hi' : (Prod.map f id c).2[i]? = none := hi
      rw [exec_resume_none hi, exec_resume_none hi']
      exact ⟨hc, rfl⟩
    | some task =>
      have hi' : (Prod.map f id c).2[i]? = some task := hi
      obtain ⟨hkept, heq⟩ := hstep c.1 task hc
      rw [exec_resume hi, exec_resume hi', Prod.map_fst, heq]
      exact ⟨hkept, rfl⟩
  | update u =>
    obtain ⟨hkept, heq⟩ := hupdate u c.1 hc
    exact ⟨hkept, Prod.ext heq rfl⟩

/-- **The rule of the map.** -/
theorem run_map (hc : I c.1) (acts : List (Act A U)) :
    I (run apply init step acts c).1 ∧
      run apply' init step' acts (Prod.map f id c) = Prod.map f id (run apply init step acts c) := by
  induction acts generalizing c with
  | nil => exact ⟨hc, rfl⟩
  | cons a acts ih =>
    obtain ⟨hkept, heq⟩ := exec_map init hupdate hstep hc a
    obtain ⟨hkept', heq'⟩ := ih hkept
    refine ⟨hkept', ?_⟩
    calc run apply' init step' (a :: acts) (Prod.map f id c)
        = run apply' init step' acts (exec apply' init step' (Prod.map f id c) a) := rfl
      _ = run apply' init step' acts (Prod.map f id (exec apply init step c a)) := by rw [heq]
      _ = Prod.map f id (run apply init step acts (exec apply init step c a)) := heq'

theorem allowed_map {ok : Config S' L → Act A U → Prop} (hc : I c.1) {acts : List (Act A U)}
    (h : Allowed apply init step (fun c => ok (Prod.map f id c)) c acts) :
    Allowed apply' init step' ok (Prod.map f id c) acts := by
  induction acts generalizing c with
  | nil => exact h
  | cons a acts ih =>
    obtain ⟨hkept, heq⟩ := exec_map init hupdate hstep hc a
    refine ⟨h.1, ?_⟩
    rw [heq]
    exact ih hkept h.2

end

/-- What holds after an interleaving and did not hold before it is due to one of its acts. -/
theorem exists_act {P : Config S L → Prop} {acts : List (Act A U)} (hc : ¬ P c) (h : P (run apply init step acts c)) :
    ∃ before a after, acts = before ++ a :: after ∧ ¬ P (run apply init step before c) ∧
      P (exec apply init step (run apply init step before c) a) := by
  induction acts generalizing c with
  | nil => exact absurd h hc
  | cons a acts ih =>
    by_cases ha : P (exec apply init step c a)
    · exact ⟨[], a, acts, rfl, hc, ha⟩
    · obtain ⟨before, a', after, rfl, hbefore, hafter⟩ := ih ha h
      exact ⟨a :: before, a', after, rfl, hbefore, hafter⟩

/-- What tasks have when they are started, and keep in every step from a state with `I`, they have; `I` is kept, too. -/
theorem forall_task_of_invariant {I : S → Prop} {J : L → Prop} (hinit : ∀ job, J (init job))
    (hupdate : ∀ u s, I s → I (apply u s)) (keeps : ∀ s task, I s → J task → I (step s task).1 ∧ J (step s task).2)
    (acts : List (Act A U)) (hI : I c.1) (hJ : ∀ task ∈ c.2, J task) :
    I (run apply init step acts c).1 ∧ ∀ task ∈ (run apply init step acts c).2, J task := by
  induction acts generalizing c with
  | nil => exact ⟨hI, hJ⟩
  | cons a acts ih =>
    cases a with
    | start job =>
      refine ih hI fun task h => ?_
      rcases List.mem_append.1 h with h | h
      · exact hJ task h
      · rw [List.mem_singleton.1 h]
        exact hinit job
    | resume i =>
      cases hi : c.2[i]? with
      | none =>
        have hsame : exec apply init step c (.resume i) = c := exec_resume_none hi
        exact ih (by rwa [hsame]) (by rwa [hsame])
      | some task =>
        have hnext : exec apply init step c (.resume i) = ((step c.1 task).1, c.2.set i (step c.1 task).2) :=
          exec_resume hi
        obtain ⟨hstate, htask⟩ := keeps c.1 task hI (hJ task (List.mem_of_getElem? hi))
        refine ih (by rw [hnext]; exact hstate) fun task' h => ?_
        rw [hnext] at h
        rcases List.mem_or_eq_of_mem_set h with h | rfl
        · exact hJ task' h
        · exact htask
    | update u => exact ih (hupdate u c.1 hI) hJ

/-- What tasks have when they are started and keep in every step, they have. -/
theorem forall_task {J : L → Prop} (hinit : ∀ job, J (init job)) (keeps : ∀ s task, J task → J (step s task).2)
    (acts : List (Act A U)) (hc : ∀ task ∈ c.2, J task) : ∀ task ∈ (run apply init step acts c).2, J task :=
  (forall_task_of_invariant (I := fun _ : S => True) hinit (fun _ _ h => h)
    (fun s task _ h => ⟨trivial, keeps s task h⟩) acts trivial hc).2

end

/-- An item is replaced by one that has a property if the item had it. -/
theorem exists_mem_set {α : Type*} {P : α → Prop} {xs : List α} {i : ℕ} {x y : α} (hi : xs[i]? = some x)
    (hxy : P x → P y) : (∃ z ∈ xs.set i y, P z) ↔ (∃ z ∈ xs, P z) ∨ P y := by
  constructor
  · rintro ⟨z, hz, hPz⟩
    rcases List.mem_or_eq_of_mem_set hz with hz | rfl
    · exact Or.inl ⟨z, hz, hPz⟩
    · exact Or.inr hPz
  · have hnew : y ∈ xs.set i y := List.mem_set (List.getElem?_eq_some_iff.1 hi).1 y
    rintro (⟨z, hz, hPz⟩ | hPy)
    · obtain ⟨j, hj⟩ := List.mem_iff_getElem?.1 hz
      by_cases hij : i = j
      · subst hij
        obtain rfl := Option.some.inj (hi.symm.trans hj)
        exact ⟨y, hnew, hxy hPz⟩
      · exact ⟨z, List.mem_iff_getElem?.2 ⟨j, by rw [List.getElem?_set_ne hij, hj]⟩, hPz⟩
    · exact ⟨y, hnew, hPy⟩

/-! ## Ledgers -/

/-- An item is replaced by one that accounts for more. -/
theorem flatMap_set_perm {α : Type*} {f : α → List X} {xs : List α} {i : ℕ} {x y : α} {new : List X}
    (h : xs[i]? = some x) (hy : f y = f x ++ new) : ((xs.set i y).flatMap f).Perm (xs.flatMap f ++ new) := by
  induction xs generalizing i with
  | nil => cases h
  | cons z xs ih =>
    cases i with
    | zero =>
      obtain rfl : z = x := by simpa using h
      simp only [List.set_cons_zero, List.flatMap_cons, hy, List.append_assoc]
      exact List.perm_append_comm.append_left _
    | succ i =>
      simp only [List.set_cons_succ, List.flatMap_cons, List.append_assoc]
      exact (ih (by simpa using h)).append_left _

/-- A task enters into the ledger what it enters into its account. -/
def Keeps (step : S → L → S × L) (ledger : S → List X) (account : L → List X) : Prop :=
  ∀ s task, ∃ new, ledger (step s task).1 = ledger s ++ new ∧ account (step s task).2 = account task ++ new

section
variable {apply : U → S → S} {init : A → L} {step : S → L → S × L} {ledger : S → List X} {account : L → List X}
  (hkeeps : Keeps step ledger account) (hupdate : ∀ u s, ledger (apply u s) = ledger s)
include hkeeps hupdate

/-- **The ledger rule.**  After every interleaving the ledger has what it had and what stands in the accounts of the
tasks, each as often as it stands there. -/
theorem ledger_perm (hinit : ∀ job, account (init job) = []) (acts : List (Act A U)) (s : S) :
    (ledger (run apply init step acts (s, [])).1).Perm
      (ledger s ++ (run apply init step acts (s, [])).2.flatMap account) := by
  induction acts using List.reverseRecOn with
  | nil => simp [run_nil]
  | append_singleton acts a ih =>
    rw [run_concat]
    generalize run apply init step acts (s, []) = c at ih ⊢
    cases a with
    | start job => simpa [exec, hinit] using ih
    | resume i =>
      cases hi : c.2[i]? with
      | none => rw [exec_resume_none hi]; exact ih
      | some task =>
        obtain ⟨new, hledger, haccount⟩ := hkeeps c.1 task
        rw [exec_resume hi]
        calc ledger (step c.1 task).1 = ledger c.1 ++ new := hledger
          _ |>.Perm (ledger s ++ c.2.flatMap account ++ new) := ih.append_right new
          _ |>.Perm (ledger s ++ (c.2.set i (step c.1 task).2).flatMap account) := by
            rw [List.append_assoc]
            exact (flatMap_set_perm hi haccount).symm.append_left _
    | update u =>
      rw [exec, hupdate]
      exact ih

/-- Entries are made by tasks that are resumed. -/
theorem ledger_exec (c : Config S L) (a : Act A U) :
    ledger (exec apply init step c a).1 = ledger c.1 ∨ ∃ i task new, a = .resume i ∧ c.2[i]? = some task ∧
      ledger (step c.1 task).1 = ledger c.1 ++ new ∧ ledger (exec apply init step c a).1 = ledger c.1 ++ new := by
  cases a with
  | start job => exact Or.inl rfl
  | resume i =>
    cases hi : c.2[i]? with
    | none => exact Or.inl (by rw [exec_resume_none hi])
    | some task =>
      obtain ⟨new, hledger, -⟩ := hkeeps c.1 task
      exact Or.inr ⟨i, task, new, rfl, hi, hledger, by rw [exec_resume hi, hledger]⟩
  | update u => exact Or.inl (hupdate u c.1)

theorem ledger_prefix (acts : List (Act A U)) (c : Config S L) :
    ledger c.1 <+: ledger (run apply init step acts c).1 := by
  induction acts generalizing c with
  | nil => exact List.prefix_rfl
  | cons a acts ih =>
    refine List.IsPrefix.trans ?_ (ih (exec apply init step c a))
    rcases ledger_exec hkeeps hupdate c a with h | ⟨_, _, new, -, -, -, h⟩
    · exact ⟨[], by rw [h, List.append_nil]⟩
    · exact ⟨new, h.symm⟩

/-- **Every entry has its task.** -/
theorem exists_resume {acts : List (Act A U)} {c : Config S L} {n : ℕ} {x : X} (hn : (ledger c.1).length ≤ n)
    (hx : (ledger (run apply init step acts c).1)[n]? = some x) :
    ∃ before i after task new, acts = before ++ .resume i :: after ∧
      (run apply init step before c).2[i]? = some task ∧
      ledger (step (run apply init step before c).1 task).1 = ledger (run apply init step before c).1 ++ new ∧
      x ∈ new := by
  have hlast : n < (ledger (run apply init step acts c).1).length := (List.getElem?_eq_some_iff.1 hx).1
  obtain ⟨before, a, after, rfl, hbefore, hafter⟩ :=
    exists_act (P := fun c => n < (ledger c.1).length) (Nat.not_lt.2 hn) hlast
  rcases ledger_exec hkeeps hupdate (run apply init step before c) a with h | ⟨i, task, new, rfl, hi, hstep, h⟩
  · exact absurd (h ▸ hafter) hbefore
  · refine ⟨before, i, after, task, new, rfl, hi, hstep, ?_⟩
    have hentry : (ledger (run apply init step before c).1 ++ new)[n]? = some x := by
      obtain ⟨later, hlater⟩ := ledger_prefix hkeeps hupdate after
        (exec apply init step (run apply init step before c) (.resume i))
      have hbelow : (ledger (exec apply init step (run apply init step before c) (.resume i)).1 ++ later)[n]? =
          (ledger (exec apply init step (run apply init step before c) (.resume i)).1)[n]? :=
        List.getElem?_append_left hafter
      rw [run_append] at hx
      rw [← h, ← hbelow, hlater]
      exact hx
    rw [List.getElem?_append_right (Nat.not_lt.1 hbefore)] at hentry
    exact List.mem_of_getElem? hentry

end

end Tasks
