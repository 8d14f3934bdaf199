/-
  A process and its environment, interleaved.

  The process looks at the environment and goes on to its next state; between
  two of its steps the environment may be updated any number of times.  An
  interleaving is a list of acts, of which each is a step of the process or an
  update.

  * `run_invariant`: what holds initially and is kept by every allowed act holds
    after every interleaving of allowed acts;
  * `run_simulates`: two processes whose states are related, and stay so under
    every allowed act of both, are related after every interleaving.
-/
import Mathlib.Data.List.Basic

namespace Process

variable {E P U : Type*}

/-- A step of the process, or an update of the environment. -/
inductive Act (U : Type*) where
  | step
  | update (u : U)

section
variable (apply : U → E → E) (next : E → P → P)

def exec (s : E × P) : Act U → E × P
  | .step => (s.1, next s.1 s.2)
  | .update u => (apply u s.1, s.2)

def run (acts : List (Act U)) (s : E × P) : E × P := acts.foldl (exec apply next) s

/-- Every act is taken in a state that allows it. -/
def Allowed (ok : E × P → Act U → Prop) : E × P → List (Act U) → Prop
  | _, [] => True
  | s, a :: acts => ok s a ∧ Allowed ok (exec apply next s a) acts

variable {apply next}

theorem run_concat (acts : List (Act U)) (a : Act U) (s : E × P) :
    run apply next (acts ++ [a]) s = exec apply next (run apply next acts s) a := by
  rw [run, List.foldl_append]
  rfl

/-- **The invariant rule.** -/
theorem run_invariant {ok : E × P → Act U → Prop} {I : E × P → Prop}
    (keeps : ∀ s a, I s → ok s a → I (exec apply next s a)) {acts : List (Act U)} {s : E × P} (hs : I s)
    (h : Allowed apply next ok s acts) : I (run apply next acts s) := by
  induction acts generalizing s with
  | nil => exact hs
  | cons a acts ih => exact ih (keeps s a hs h.1) h.2

/-- **The simulation rule.** -/
theorem run_simulates {E' P' : Type*} {apply' : U → E' → E'} {next' : E' → P' → P'} {ok : E × P → Act U → Prop}
    {R : E × P → E' × P' → Prop}
    (keeps : ∀ s s' a, R s s' → ok s a → R (exec apply next s a) (exec apply' next' s' a)) {acts : List (Act U)}
    {s : E × P} {s' : E' × P'} (hs : R s s') (h : Allowed apply next ok s acts) :
    R (run apply next acts s) (run apply' next' acts s') := by
  induction acts generalizing s s' with
  | nil => exact hs
  | cons a acts ih => exact ih (keeps s s' a hs h.1) h.2

end

end Process
