import Mathlib.Data.List.Basic

namespace Krabka
namespace Transition

open Option

universe u v

/-!
# Runs of a partial transition function

`step state act` is the state after `act`, or `none` when `act` cannot happen.
A run makes one act after another.  `Along allowed` says that each act of a run
is allowed in the state it happens in.
-/

variable {State : Type u} {Act : Type v} (step : State -> Act -> Option State)

def run (state : State) : List Act -> Option State
  | [] => some state
  | act :: rest => (step state act).bind (fun next => run next rest)

/-- Every act of the run is allowed where it happens. -/
def Along (allowed : State -> Act -> Prop) (state : State) : List Act -> Prop
  | [] => True
  | act :: rest => allowed state act ∧
      match step state act with
      | none => True
      | some next => Along allowed next rest

instance (allowed : State -> Act -> Prop) [forall state act, Decidable (allowed state act)]
    (state : State) (acts : List Act) : Decidable (Along step allowed state acts) := by
  induction acts generalizing state with
  | nil => exact isTrue trivial
  | cons act rest ih =>
    unfold Along
    cases step state act with
    | none => infer_instance
    | some next => exact @instDecidableAnd _ _ _ (ih next)

variable {step}

theorem run_cons {state next : State} {act : Act} (stepped : step state act = some next)
    (rest : List Act) : run step state (act :: rest) = run step next rest := by
  rw [run, stepped, bind_some]

variable {acts : List Act} {allowed : State -> Act -> Prop} {first : State}

section

variable (invariant : State -> Prop)
  (keeps : forall state act next, invariant state -> allowed state act -> step state act = some next -> invariant next)

include invariant keeps

theorem run_invariant {last : State} (holds : invariant first)
    (along : Along step allowed first acts) (ran : run step first acts = some last) :
    invariant last := by
  induction acts generalizing first with
  | nil => exact some.inj ran ▸ holds
  | cons act rest ih =>
    rw [run, bind_eq_some_iff] at ran
    obtain ⟨next, stepped, ran⟩ := ran
    rw [Along, stepped] at along
    exact ih (keeps first act next holds along.1 stepped) along.2 ran

theorem along_of_invariant {property : State -> Act -> Prop}
    (implies : forall state act, invariant state -> property state act) (holds : invariant first)
    (along : Along step allowed first acts) : Along step property first acts := by
  induction acts generalizing first with
  | nil => trivial
  | cons act rest ih =>
    refine ⟨implies first act holds, ?_⟩
    rw [Along] at along
    cases stepped : step first act with
    | none => trivial
    | some next =>
      rw [stepped] at along
      exact ih (keeps first act next holds along.1 stepped) along.2

end

theorem run_keeps (invariant : State -> Prop)
    (keeps : forall state act next, invariant state -> step state act = some next ->
      invariant next) {last : State} (holds : invariant first)
    (ran : run step first acts = some last) : invariant last := by
  induction acts generalizing first with
  | nil => exact some.inj ran ▸ holds
  | cons act rest ih =>
    rw [run, bind_eq_some_iff] at ran
    obtain ⟨next, stepped, ran⟩ := ran
    exact ih (keeps first act next holds stepped) ran

end Transition
end Krabka
