import Krabka.Producer.Waiting

namespace Krabka
namespace Producer

open Collections List Option

/-!
# The state of a transaction

`end_transaction` takes the transaction state when it starts and gives it up
when it ends, so at most one of them is in progress, and no record is accepted
meanwhile.  Every batch of a transactional producer carries the generation in
which its records were accepted.
-/

def transactionOf (log : List Event) (record : Nat) : Option Nat :=
  (acceptances log)[record]?.bind Acceptance.transaction

theorem transactionOf_append {log : List Event} {record : Nat} (events : List Event)
    (accepted : record < (acceptances log).length) :
    transactionOf (log ++ events) record = transactionOf log record := by
  rw [transactionOf, transactionOf, acceptances_append, getElem?_append_left accepted]

theorem lt_of_transactionOf {log : List Event} {record transaction : Nat}
    (found : transactionOf log record = some transaction) : record < (acceptances log).length := by
  rw [transactionOf, bind_eq_some_iff] at found
  rcases found with ⟨acceptance, accepted, _⟩
  exact (List.getElem?_eq_some_iff.mp accepted).1

namespace TxnError

/-- What a failure does to the error of the transaction. -/
inductive Raised (old : TxnError) : TxnError -> Prop where
  | same : Raised old old
  | fatal (error : FatalError) : Raised old (.fatal error)
  | abortable (error : AbortableError) : Raised old (old.storeAbortable (.abortable error))

namespace Raised

variable {old new : TxnError}

theorem fatal_isSome (raised : Raised old new) (fatal : old.fatal?.isSome = true) :
    new.fatal?.isSome = true := by
  cases raised with
  | same => exact fatal
  | fatal error => rfl
  | abortable error =>
    cases old with
    | fatal error => rfl
    | _ => cases fatal

theorem eq_none (raised : Raised old new) (clean : new = .none) : old = .none := by
  cases raised with
  | same => exact clean
  | fatal error => cases clean
  | abortable error => cases old <;> cases clean

end Raised

theorem clearAbortable_isSome {old : TxnError} (fatal : old.fatal?.isSome = true) :
    old.clearAbortable.fatal?.isSome = true := by
  cases old with
  | fatal error => rfl
  | _ => cases fatal

end TxnError

namespace Task

/-- The task is an `end_transaction` that holds the transaction state. -/
def ending : Task -> Bool
  | .flush (.commit _) _ _ => true
  | .checkCommit _ => true
  | .abortUndrained _ => true
  | .sweep _ _ _ => true
  | .awaitInFlight _ => true
  | .coordinator _ _ => true
  | .sendEndTxn _ _ => true
  | .applyEndTxn _ _ _ _ => true
  | .clearAbortable _ => true
  | .becomeReady _ => true
  | .requireRecovery => true
  | .restore _ => true
  | _ => false

/-- The transaction state that the task may give back. -/
def previous : Task -> Option TxnState
  | .flush (.commit previous) _ _ => some previous
  | .checkCommit previous => some previous
  | .abortUndrained previous => some previous
  | .sweep previous _ _ => some previous
  | .awaitInFlight previous => some previous
  | .coordinator _ previous => some previous
  | .sendEndTxn _ previous => some previous
  | .applyEndTxn _ previous _ _ => some previous
  | .restore previous => some previous
  | _ => none

end Task

namespace World

variable {config : Config} {world next : World} {act : Act}

/-! ## What a cut does to the transaction state -/

variable {choice : TaskChoice} {task after : Task}

section

variable (stepped : world.taskStep choice task = some (next, after))

include stepped

/-- A cut of a client call that leaves an `end_transaction` in progress. -/
theorem taskStep_ending (ends : after.ending = true) :
    (task.ending = true ∧ next.txnState = world.txnState) ∨
      (Exists fun committed => task = .endTransaction committed) ∧
        (world.txnState = .inTransaction ∨ world.txnState = .prepared) ∧
          next.txnState = .committingOrAborting := by
  cases task with
  | flush purpose since flushing =>
    simp only [taskStep, afterFlush, afterFailedFlush] at stepped
    cases purpose <;> split at stepped <;> cases stepped <;> first
      | exact .inl ⟨rfl, rfl⟩
      | simp [Task.ending] at ends
  | sweep previous swept remaining =>
    cases remaining with
    | nil =>
      cases stepped
      exact .inl ⟨rfl, rfl⟩
    | cons key rest =>
      cases stepped
      unfold abortKey
      cases world.accumulators.get? key <;> exact .inl ⟨rfl, rfl⟩
  | endTransaction committed =>
    simp only [taskStep, endTransactionStep] at stepped
    split_ifs at stepped with free commits <;> cases stepped
    · exact .inr ⟨⟨committed, rfl⟩, free, rfl⟩
    · exact .inr ⟨⟨committed, rfl⟩, free, rfl⟩
    · simp [Task.ending] at ends
  | done => cases stepped
  | _ =>
    simp only [taskStep, applyEndTxnStep] at stepped
    repeat' split at stepped
    all_goals cases stepped
    all_goals first
      | exact .inl ⟨rfl, rfl⟩
      | simp [Task.ending] at ends

/-- Only these cuts of client calls write the transaction state. -/
theorem taskStep_txnState :
    next.txnState = world.txnState ∨ task.ending = true ∨
      ((Exists fun committed => task = .endTransaction committed) ∧
        (world.txnState = .inTransaction ∨ world.txnState = .prepared) ∧
          next.txnState = .committingOrAborting) ∨
      task = .begin ∧ world.txnState = .ready ∧ next.txnState = .inTransaction := by
  cases task with
  | begin =>
    simp only [taskStep] at stepped
    split_ifs at stepped with free <;> cases stepped
    · exact .inr (.inr (.inr ⟨rfl, free, rfl⟩))
    · exact .inl rfl
  | flush purpose since flushing =>
    simp only [taskStep, afterFlush] at stepped
    split at stepped <;> cases stepped <;> exact .inl rfl
  | endTransaction committed =>
    simp only [taskStep, endTransactionStep] at stepped
    split_ifs at stepped with free commits <;> cases stepped
    · exact .inr (.inr (.inl ⟨⟨committed, rfl⟩, free, rfl⟩))
    · exact .inr (.inr (.inl ⟨⟨committed, rfl⟩, free, rfl⟩))
    · exact .inl rfl
  | done => cases stepped
  | closeState | closeSender | setFatal | setAbortable =>
    cases stepped
    exact .inl rfl
  | _ => exact .inr (.inl rfl)

theorem taskStep_previous {previous : TxnState} (found : after.previous = some previous) :
    task.previous = some previous ∨
      (previous = .inTransaction ∨ previous = .prepared) ∧ world.txnState = previous := by
  cases task with
  | flush purpose since flushing =>
    simp only [taskStep, afterFlush, afterFailedFlush] at stepped
    cases purpose <;> split at stepped <;> cases stepped <;> exact .inl found
  | sweep state swept remaining => cases remaining <;> cases stepped <;> exact .inl found
  | endTransaction committed =>
    simp only [taskStep, endTransactionStep] at stepped
    split_ifs at stepped with free commits <;> cases stepped <;> cases found
    · exact .inr ⟨free, rfl⟩
    · exact .inr ⟨free, rfl⟩
  | done => cases stepped
  | _ =>
    simp only [taskStep, applyEndTxnStep] at stepped
    repeat' split at stepped
    all_goals cases stepped
    all_goals first
      | exact .inl found
      | cases found

theorem taskStep_prepared (prepared : next.txnState = .prepared) :
    world.txnState = .prepared ∨ task.previous = some .prepared := by
  cases task with
  | sweep previous swept remaining =>
    cases remaining with
    | nil =>
      cases stepped
      exact .inl prepared
    | cons key rest =>
      cases stepped
      unfold abortKey at prepared
      cases opened : world.accumulators.get? key <;> rw [opened] at prepared <;>
        exact .inl prepared
  | done => cases stepped
  | _ =>
    simp only [taskStep, applyEndTxnStep, endTransactionStep, afterFlush] at stepped
    repeat' split at stepped
    all_goals cases stepped
    all_goals first
      | exact .inl prepared
      | exact .inr (congrArg some prepared)
      | cases prepared

end

/-- The steps that are not cuts of client calls write the transaction state only
when a partition registration fails fatally. -/
theorem step_txnState (notTask : forall index choice, act ≠ .task index choice)
    (stepped : world.step config act = some next) :
    next.txnState = world.txnState ∨
      world.txnState = .inTransaction ∧ next.txnError.fatal?.isSome = true ∧
        (next.txnState = .fenced ∨ next.txnState = .fatalError) := by
  cases act with
  | sender choice => exact .inl (senderStep_frame stepped).txnState
  | task index choice => exact absurd rfl (notTask index choice)
  | registerFails error =>
    simp only [step, registerFails] at stepped
    split at stepped
    · rename_i generation generated
      have inside : world.txnState = .inTransaction := by
        unfold appendGeneration at generated
        split_ifs at generated with transactional ready
        · exact ready.2.2
        · simp at generated
      cases stepped
      split
      · rename_i fatal isFatal
        refine .inr ⟨inside, by rw [isFatal]; rfl, ?_⟩
        cases fatal with
        | fenced => exact .inl rfl
        | server code => exact .inr rfl
      · exact .inl rfl
    · cases stepped
  | _ =>
    left
    rcases (step_aside rfl stepped).txn with same | ⟨error, registers⟩
    · exact same.1
    · cases registers

/-! ## One `end_transaction` at a time -/

/-- At most one `end_transaction` holds the transaction state, and it holds it
from an open transaction. -/
structure Exclusive (world : World) : Prop where
  unprepared : world.txnState ≠ .prepared
  previous : forall task, task ∈ world.tasks -> forall state, task.previous = some state ->
    state = .inTransaction
  busy : forall task, task ∈ world.tasks -> task.ending = true ->
    world.txnState = .committingOrAborting
  single : forall (left right : Nat) (first second : Task), world.tasks[left]? = some first ->
    world.tasks[right]? = some second -> first.ending = true -> second.ending = true ->
      left = right

theorem openTask_ending {call : ClientCall} (opened : world.openTask config call = some task) :
    task.ending = false ∧ task.previous = none := by
  cases call <;> simp only [openTask] at opened <;> (try split_ifs at opened) <;> cases opened <;>
    exact ⟨rfl, rfl⟩

theorem Exclusive.cut {index : Nat}
    (exclusive : world.Exclusive) (found : world.tasks[index]? = some task)
    (stepped : world.taskStep choice task = some (next, after)) :
    Exclusive { next with tasks := world.tasks.set index after } := by
  have member : task ∈ world.tasks := mem_of_getElem? found
  -- Another `end_transaction` in progress would hold the transaction state.
  have alone : after.ending = true -> forall other, other ≠ index -> forall second : Task,
      world.tasks[other]? = some second -> second.ending = false := by
    intro ends other different second atOther
    by_contra isEnding
    rw [Bool.not_eq_false] at isEnding
    rcases taskStep_ending stepped ends with ⟨before, _⟩ | ⟨_, free, _⟩
    · exact different (exclusive.single other index second task atOther found isEnding before)
    · have held := exclusive.busy second (mem_of_getElem? atOther) isEnding
      rcases free with inside | prepared
      · rw [inside] at held
        cases held
      · exact exclusive.unprepared prepared
  have apart : forall other (second : Task), (world.tasks.set index after)[other]? = some second ->
      (other = index ∧ second = after) ∨ (other ≠ index ∧ world.tasks[other]? = some second) := by
    intro other second atOther
    by_cases same : other = index
    · subst same
      rw [List.getElem?_set_self (List.getElem?_eq_some_iff.mp found).1] at atOther
      exact .inl ⟨rfl, (some.inj atOther).symm⟩
    · rw [getElem?_set_ne (Ne.symm same)] at atOther
      exact .inr ⟨same, atOther⟩
  refine ⟨?_, ?_, ?_, ?_⟩
  · intro prepared
    rcases taskStep_prepared stepped prepared with before | restores
    · exact exclusive.unprepared before
    · exact absurd (exclusive.previous task member _ restores) (by simp)
  · intro other inTasks state restores
    rcases mem_or_eq_of_mem_set inTasks with old | isNew
    · exact exclusive.previous other old state restores
    · rw [isNew] at restores
      rcases taskStep_previous stepped restores with before | ⟨free, held⟩
      · exact exclusive.previous task member state before
      · rcases free with inside | prepared
        · exact inside
        · exact absurd (held.trans prepared) exclusive.unprepared
  · intro second inTasks ends
    rcases mem_iff_getElem?.mp inTasks with ⟨other, atOther⟩
    rcases apart other second atOther with ⟨_, rfl⟩ | ⟨different, old⟩
    · rcases taskStep_ending stepped ends with ⟨before, same⟩ | ⟨_, _, taken⟩
      · exact same.trans (exclusive.busy task member before)
      · exact taken
    · have held := exclusive.busy second (mem_of_getElem? old) ends
      rcases taskStep_txnState stepped with same | ending | ⟨_, _, taken⟩ | ⟨_, ready, _⟩
      · exact same.trans held
      · exact absurd (exclusive.single other index second task old found ends ending) different
      · exact taken
      · rw [ready] at held
        cases held
  · intro left right first second atLeft atRight firstEnds secondEnds
    rcases apart left first atLeft with ⟨rfl, rfl⟩ | ⟨leftApart, oldLeft⟩
    · rcases apart right second atRight with ⟨rfl, _⟩ | ⟨rightApart, oldRight⟩
      · rfl
      · simp [alone firstEnds right rightApart second oldRight] at secondEnds
    · rcases apart right second atRight with ⟨rfl, rfl⟩ | ⟨rightApart, oldRight⟩
      · simp [alone secondEnds left leftApart first oldLeft] at firstEnds
      · exact exclusive.single left right first second oldLeft oldRight firstEnds secondEnds

theorem Exclusive.step (exclusive : world.Exclusive)
    (stepped : world.step config act = some next) : next.Exclusive := by
  rcases act.task_or_not with ⟨index, choice, rfl⟩ | notTask
  · rcases advanceTask_cut stepped with ⟨task, result, after, found, cut, rfl⟩
    exact exclusive.cut found cut
  -- The new task of a client call does not hold the transaction state.
  have tasks : next.tasks = world.tasks ∨ Exists fun task => task.ending = false ∧
      task.previous = none ∧ next.tasks = world.tasks ++ [task] := by
    rcases step_tasks stepped with same | ⟨call, task, _, opened, rfl⟩ |
      ⟨index, choice, _, _, _, rfl, _⟩
    · exact .inl same
    · exact .inr ⟨task, (openTask_ending opened).1, (openTask_ending opened).2, rfl⟩
    · exact absurd rfl (notTask index choice)
  have old : forall (index : Nat) (task : Task), task.ending = true -> next.tasks[index]? = some task ->
      world.tasks[index]? = some task := by
    intro index task ends found
    rcases tasks with same | ⟨opened, isIdle, _, longer⟩
    · rwa [same] at found
    · rw [longer] at found
      by_cases inside : index < world.tasks.length
      · rwa [getElem?_append_left inside] at found
      · rw [getElem?_append_right (Nat.not_lt.mp inside)] at found
        have isNew := mem_singleton.mp (mem_of_getElem? found)
        rw [isNew, isIdle] at ends
        cases ends
  have unheld : forall task, task ∈ next.tasks -> task.ending = true -> task ∈ world.tasks := by
    intro task member ends
    rcases mem_iff_getElem?.mp member with ⟨index, found⟩
    exact mem_of_getElem? (old index task ends found)
  refine ⟨?_, ?_, ?_, ?_⟩
  · rcases step_txnState notTask stepped with same | ⟨_, _, broken⟩
    · exact same ▸ exclusive.unprepared
    · rcases broken with fenced | fatal
      · simp [fenced]
      · simp [fatal]
  · intro task member state restores
    rcases tasks with same | ⟨opened, _, none, longer⟩
    · exact exclusive.previous task (same ▸ member) state restores
    · rw [longer] at member
      rcases mem_append.mp member with before | isNew
      · exact exclusive.previous task before state restores
      · rw [mem_singleton.mp isNew, none] at restores
        cases restores
  · intro task member ends
    have held := exclusive.busy task (unheld task member ends) ends
    rcases step_txnState notTask stepped with same | ⟨inside, _, _⟩
    · exact same.trans held
    · rw [inside] at held
      cases held
  · intro left right first second atLeft atRight firstEnds secondEnds
    exact exclusive.single left right first second (old left first firstEnds atLeft)
      (old right second secondEnds atRight) firstEnds secondEnds

theorem start_exclusive (config : Config) : (start config).Exclusive := by
  refine ⟨?_, ?_, ?_, ?_⟩
  · unfold start
    split_ifs <;> simp
  · exact nofun
  · exact nofun
  · intro left right first second atLeft
    simp [start] at atLeft

/-- No record is accepted while an `end_transaction` holds the transaction
state. -/
theorem Exclusive.acceptances_eq (exclusive : world.Exclusive)
    (transactional : config.transactional = true) (member : task ∈ world.tasks)
    (ends : task.ending = true) (stepped : world.step config act = some next) :
    acceptances next.log = acceptances world.log := by
  rcases step_adds stepped with ⟨events, log, adds⟩
  rw [log, acceptances_append]
  rcases adds.acceptances_eq with none | ⟨key, generation, generated, _, _⟩
  · rw [none, append_nil]
  · unfold appendGeneration at generated
    have held := exclusive.busy task member ends
    rw [if_pos transactional, held] at generated
    simp at generated

/-! ## The error of the transaction -/

theorem recordTransactionFatalError_raised (batch : PreparedBatch) (code : Int) :
    world.txnError.Raised (world.recordTransactionFatalError batch code).txnError := by
  unfold recordTransactionFatalError
  split
  · exact .fatal _
  · exact .same

theorem flagFailure_raised (batch : PreparedBatch) (error : ProducerError) :
    world.txnError.Raised (world.flagFailure batch error).txnError := by
  unfold flagFailure
  repeat' split
  · exact .abortable _
  · exact .abortable _
  · exact .same

theorem senderStep_txnError {choice : Choice} (stepped : world.senderStep config choice = some next) :
    world.txnError.Raised next.txnError := by
  unfold senderStep at stepped
  cases pending : world.calls with
  | cons call rest =>
    rw [pending] at stepped
    cases stepped
    cases call with
    | terminalFail batch error => exact @flagFailure_raised { world with calls := rest } batch error
    | fenceKeys keys =>
      cases keys with
      | nil => exact .same
      | cons key keys =>
        simp only [execCall, fenceKey]
        repeat' split
        all_goals exact .same
    | _ => exact .same
  | nil =>
    rw [pending] at stepped
    unfold execPhase at stepped
    cases atPhase : world.phase <;>
      simp only [atPhase, some.injEq, reduceCtorEq] at stepped <;> subst stepped
    case failUnsent drain flagged expired =>
      unfold failUnsentStep
      repeat' split
      · exact .same
      · exact .same
      · exact .abortable _
      · exact .same
    case record cycle results =>
      unfold recordStep
      cases results with
      | nil =>
        simp only [applyCycle, bumpIdempotentEpoch]
        repeat' split
        all_goals exact .same
      | cons result rest =>
        cases cycle.fenced with
        | some toFail =>
          simp only [recordFenced]
          split
          case h_3 => exact recordTransactionFatalError_raised _ _
          all_goals exact .same
        | none =>
          simp only [recordLive, recordRetry, recordAck]
          split
          case h_7 => exact recordTransactionFatalError_raised _ _
          all_goals
            repeat' split
            all_goals exact .same
    all_goals
      simp only [scheduleStart, scanStep, afterSchedule, drainStart, sweepStart, sweepKey,
        failBarred, retrySlotsStart, retrySlotStep, takeExpiredKey, collectRetries, expireStart,
        bumpIdempotentEpoch, expireStep, repair, barRetryStep, routeStep, checkEpochStep,
        drainKeyStep, launch, popReadyStep, barPoppedStep, allocateStep, snapshotStateStep,
        snapshotIdentityStep, addBuilt, settleStep, splitSequence, requeueStep, foldl_park]
      repeat' split
      all_goals exact .same

section

variable (stepped : world.step config act = some next)

include stepped

/-- Only the end of an `end_transaction` clears the error of the transaction. -/
theorem step_txnError :
    world.txnError.Raised next.txnError ∨ Exists fun index => Exists fun committed =>
        world.tasks[index]? = some (.clearAbortable committed) ∧
          next = { world with
            txnError := world.txnError.clearAbortable
            tasks := world.tasks.set index (.becomeReady committed) } := by
  cases act with
  | sender choice => exact .inl (senderStep_txnError stepped)
  | task index choice =>
    rcases advanceTask_cut stepped with ⟨task, result, after, found, cut, rfl⟩
    cases task with
    | clearAbortable committed =>
      cases cut
      exact .inr ⟨index, committed, found, rfl⟩
    | setFatal error =>
      cases cut
      exact .inl (.fatal error)
    | setAbortable code =>
      cases cut
      exact .inl (.abortable _)
    | sweep previous swept remaining =>
      left
      cases remaining with
      | nil =>
        cases cut
        exact .same
      | cons key rest =>
        cases cut
        simp only [abortKey]
        split <;> exact .same
    | done => cases cut
    | _ =>
      left
      simp only [taskStep, applyEndTxnStep, endTransactionStep, afterFlush] at cut
      repeat' split at cut
      all_goals cases cut
      all_goals exact .same
  | registerFails error =>
    left
    simp only [step, registerFails] at stepped
    split at stepped <;> cases stepped
    cases error with
    | none => exact .same
    | abortable error => exact .abortable error
    | fatal error => exact .fatal error
  | _ =>
    left
    rcases (step_aside rfl stepped).txn with same | ⟨error, registers⟩
    · exact same.2 ▸ .same
    · cases registers

theorem step_fatal (fatal : world.txnError.fatal?.isSome = true) :
    next.txnError.fatal?.isSome = true := by
  rcases step_txnError stepped with raised | ⟨_, _, _, rfl⟩
  · exact raised.fatal_isSome fatal
  · exact TxnError.clearAbortable_isSome fatal

/-! ## Recovery -/

/-- Only an `EndTxn` of unknown outcome requires a recovery. -/
theorem step_recovery :
    (next.recoveryRequired = world.recoveryRequired ∧
      next.recoveryGeneration = world.recoveryGeneration) ∨
      next.recoveryRequired = true ∧ Task.requireRecovery ∈ next.tasks := by
  cases act with
  | sender choice =>
    have frame := senderStep_frame stepped
    exact .inl ⟨frame.recoveryRequired, frame.recoveryGeneration⟩
  | task index choice =>
    rcases advanceTask_cut stepped with ⟨task, result, after, found, cut, rfl⟩
    rcases (taskStep_frame cut).recovery with same | ⟨required, rfl⟩
    · exact .inl same
    · exact .inr ⟨required, List.mem_set (List.getElem?_eq_some_iff.mp found).1 _⟩
  | _ => exact .inl (step_aside rfl stepped).recovery

theorem step_recoveryRequired (required : world.recoveryRequired = true) :
    next.recoveryRequired = true := by
  rcases step_recovery stepped with ⟨same, _⟩ | ⟨isTrue, _⟩
  · exact same.trans required
  · exact isTrue

end

/-- Every batch belongs to a generation, to the current one unless a recovery is
required. -/
def Generations (world : World) : Prop :=
  forall generation, world.Belongs generation -> Exists fun number => generation = some number ∧
    (number = world.recoveryGeneration ∨ world.recoveryRequired = true)

theorem Generations.step (generations : world.Generations)
    (transactional : config.transactional = true) (stepped : world.step config act = some next) :
    next.Generations := by
  intro generation belongs
  have known : Exists fun number => generation = some number ∧
      (number = world.recoveryGeneration ∨ world.recoveryRequired = true) := by
    rcases step_belongs stepped belongs with before | generated
    · exact generations generation before
    · unfold appendGeneration at generated
      split_ifs at generated
      exact ⟨_, (some.inj generated).symm, .inl rfl⟩
  rcases known with ⟨number, isNumber, current⟩
  refine ⟨number, isNumber, ?_⟩
  rcases step_recovery stepped with ⟨required, generationSame⟩ | ⟨required, _⟩
  · rwa [required, generationSame]
  · exact .inr required

theorem start_generations (config : Config) : (start config).Generations := by
  intro generation belongs
  rcases belongs with ⟨batch, waits, _⟩ | ⟨batch, carries, _⟩
  · rcases waits with ⟨key, accumulator, found, _⟩ | inPhase
    · simp [start] at found
    · simp [start, Phase.unbuilt] at inPhase
  · rcases carries with ⟨key, found⟩ | ⟨request, member, _⟩ | inPhase | ⟨call, member, _⟩
    · simp [start] at found
    · cases member
    · simp [start, Phase.batches] at inPhase
    · cases member

end World

end Producer
end Krabka
