import Mathlib.Data.List.Basic

namespace Krabka

universe u

/-!
# Programs that can fail

A program changes a state and returns a result or fails.  A failure keeps the
changes made before it, as an early return with `?` does.

`Ensures` is the weakest precondition.  Its equations run a program symbolically,
and `Ensures.mono` uses what is known of a part of it.
-/

abbrev Fallible (State : Type u) := OptionT (StateM State)

namespace Fallible

variable {State Result Other : Type u}

def Ensures (program : Fallible State Result) (after : Result -> State -> Prop)
    (failed : State -> Prop) (state : State) : Prop :=
  match program.run state with
  | (some result, next) => after result next
  | (none, next) => failed next

variable {after : Result -> State -> Prop} {failed : State -> Prop} {state : State}

theorem run_bind (program : Fallible State Result) (rest : Result -> Fallible State Other)
    (state : State) :
    (program >>= rest).run state =
      match program.run state with
      | (some result, next) => (rest result).run next
      | (none, next) => (none, next) := by
  rw [OptionT.run_bind, Option.elimM]
  change (program.run state).1.elim (pure none) (fun result => (rest result).run)
    (program.run state).2 = _
  rcases program.run state with ⟨_ | result, next⟩ <;> rfl

@[simp] theorem ensures_modify (change : State -> State) {after : PUnit -> State -> Prop} :
    Ensures (modify change) after failed state <-> after PUnit.unit (change state) := .rfl

@[simp] theorem ensures_get {after : State -> State -> Prop} :
    Ensures get after failed state <-> after state state := .rfl

@[simp] theorem ensures_bind (program : Fallible State Other)
    (rest : Other -> Fallible State Result) :
    Ensures (program >>= rest) after failed state <->
      Ensures program (fun result => Ensures (rest result) after failed) failed state := by
  unfold Ensures
  rw [run_bind]
  rcases program.run state with ⟨_ | result, next⟩ <;> rfl

theorem Ensures.mono {program : Fallible State Result} {known : Result -> State -> Prop}
    {knownFailed : State -> Prop} (ensures : Ensures program known knownFailed state)
    (returns : forall result next, known result next -> after result next)
    (fails : forall next, knownFailed next -> failed next) :
    Ensures program after failed state := by
  unfold Ensures at ensures ⊢
  generalize program.run state = outcome at ensures ⊢
  rcases outcome with ⟨_ | result, next⟩
  · exact fails next ensures
  · exact returns result next ensures

theorem Ensures.returned {program : Fallible State Result} {holds : State -> Prop}
    (ensures : Ensures program (fun _ => holds) failed state)
    (isSome : (program.run state).1.isSome = true) : holds (program.run state).2 := by
  unfold Ensures at ensures
  generalize program.run state = outcome at ensures isSome ⊢
  rcases outcome with ⟨_ | result, next⟩
  · cases isSome
  · exact ensures

theorem Ensures.always {program : Fallible State Result} {holds : State -> Prop}
    (ensures : Ensures program (fun _ => holds) holds state) : holds (program.run state).2 := by
  unfold Ensures at ensures
  generalize program.run state = outcome at ensures ⊢
  rcases outcome with ⟨_ | result, next⟩
  · exact ensures
  · exact ensures

end Fallible
end Krabka
