import Krabka.Producer.Flush
import Krabka.Producer.Transaction

namespace Krabka
namespace Producer

open Collections List Option

/-!
# A failed record leaves a trace

A record of the open transaction fails only after the producer left a trace of
the failure: an error of the transaction, a state that is not active, a
required recovery, or a started abort.  `Clean` says that there is no trace.
While the world is clean, no record of the open transaction failed or is about
to fail.
-/

/-- The call is the part of a fence that fails the queues. -/
def Call.fences : Call -> Bool
  | .fenceRetry => true
  | .fenceAccumulators => true
  | .fenceKeys _ => true
  | _ => false

/-- The completed requests that a cycle did not record yet. -/
def Phase.recorded : Phase -> List BatchSendResult
  | .record _ results => results
  | _ => []

/-- The retry slots that the drain found behind a barrier. -/
def Phase.barredSlots : Phase -> List (TopicPartition × Barrier)
  | .failRetrySlots _ slots => slots
  | _ => []

def Call.failing : Call -> List Nat
  | .fail _ records _ => handles records
  | _ => []

/-- The records whose error of the transaction is set, and that fail next. -/
def Phase.flagged : Phase -> List Nat
  | .failUnsent _ true (batch :: _) => handles batch.records
  | _ => []

theorem classifyVerdict_ne_barred (answer : PartitionAnswer) (mode : BatchMode)
    (lastAckedOffset : Option Int) (recordsInBatch : Nat) (barrier : Barrier) :
    classifyVerdict answer mode lastAckedOffset recordsInBatch ≠ .verdict (.barred barrier) := by
  dsimp only [classifyVerdict]
  repeat' split
  all_goals simp

theorem interpretResponse_ne_barred (batch : PreparedBatch) (answer : Option PartitionAnswer)
    (lastAckedOffset : Option Int) (now backoff : Nat) (barrier : Barrier) :
    (interpretResponse batch answer lastAckedOffset now backoff).verdict ≠ .barred barrier := by
  unfold interpretResponse
  cases answer with
  | none => simp
  | some answer =>
    dsimp only
    have classified := classifyVerdict_ne_barred answer batch.mode lastAckedOffset
      batch.records.length barrier
    split
    · simp
    · simp
    · simp
    · simp
    · rename_i verdict _ _ _ same
      intro isBarred
      exact classified (isBarred ▸ same)

variable {cycle : CycleVerdicts} {record : Nat} {calls : List Call} {results : List BatchSendResult}

namespace World

variable {config : Config} {world next : World} {act : Act}

/-! ## The open transaction -/

/-- Only `begin_transaction` opens a transaction. -/
theorem step_transactions (stepped : world.step config act = some next) :
    next.transactions = world.transactions ∨
      next.transactions = world.transactions + 1 ∧ next.log = world.log ∧
        world.txnState = .ready := by
  cases act with
  | sender choice => exact .inl (senderStep_frame stepped).transactions
  | task index choice =>
    rcases advanceTask_cut stepped with ⟨task, result, after, found, cut, rfl⟩
    exact (taskStep_frame cut).transactions
  | _ => exact .inl (step_aside rfl stepped).transactions

/-- No record was accepted in a later transaction. -/
def Numbered (world : World) : Prop :=
  forall record transaction, transactionOf world.log record = some transaction ->
    transaction ≤ world.transactions

theorem Numbered.step (numbered : world.Numbered) (stepped : world.step config act = some next) :
    next.Numbered := by
  intro record transaction found
  have grown : world.transactions ≤ next.transactions := by
    rcases step_transactions stepped with same | ⟨more, _⟩ <;> omega
  rcases step_adds stepped with ⟨events, log, adds⟩
  by_cases old : record < (acceptances world.log).length
  · rw [log, transactionOf_append events old] at found
    exact (numbered record transaction found).trans grown
  · rw [log, transactionOf, acceptances_append, getElem?_append_right (Nat.not_lt.mp old)] at found
    rcases adds.acceptances_eq with none | ⟨key, generation, _, _, one⟩
    · rw [none] at found
      simp at found
    · rw [one] at found
      cases position : record - (acceptances world.log).length with
      | zero =>
        rw [position] at found
        have opened : world.openTransaction config = some transaction := by simpa using found
        unfold openTransaction at opened
        split_ifs at opened
        exact (some.inj opened).ge.trans grown
      | succ later =>
        rw [position] at found
        simp at found

/-- A transaction is open: its `end_transaction`, if there is one, did not
complete. -/
def Open (world : World) : Prop :=
  world.txnState = .inTransaction ∨ world.txnState = .committingOrAborting ∧
    forall committed, Task.becomeReady committed ∉ world.tasks

/-- A completed `end_transaction` makes the producer ready. -/
theorem step_becomeReady {committed : Bool} (stepped : world.step config act = some next)
    (member : Task.becomeReady committed ∈ world.tasks) :
    Task.becomeReady committed ∈ next.tasks ∨ next.txnState = .ready := by
  rcases step_tasks stepped with same | ⟨call, task, _, _, rfl⟩ |
    ⟨index, choice, task, result, after, rfl, found, cut, rfl⟩
  · exact .inl (same ▸ member)
  · exact .inl (mem_append_left _ member)
  · rcases mem_iff_getElem?.mp member with ⟨other, atOther⟩
    by_cases same : other = index
    · subst same
      rw [atOther] at found
      cases found
      cases cut
      exact .inr rfl
    · left
      apply mem_of_getElem? (i := other)
      rw [getElem?_set_ne (Ne.symm same)]
      exact atOther

/-- A transaction stays open until its `end_transaction` completes. -/
theorem Open.before (isOpen : next.Open) (exclusive : world.Exclusive)
    (stepped : world.step config act = some next)
    (same : next.transactions = world.transactions) : world.Open := by
  have notReady : next.txnState ≠ .ready := by
    rcases isOpen with inside | ⟨held, _⟩
    · simp [inside]
    · simp [held]
  by_cases unchanged : next.txnState = world.txnState
  · rcases isOpen with inside | ⟨held, incomplete⟩
    · exact .inl (unchanged.symm.trans inside)
    · refine .inr ⟨unchanged.symm.trans held, fun committed member => ?_⟩
      rcases step_becomeReady stepped member with kept | ready
      · exact incomplete committed kept
      · exact notReady ready
  rcases act.task_or_not with ⟨index, choice, rfl⟩ | notTask
  · rcases advanceTask_cut stepped with ⟨task, result, after, found, cut, rfl⟩
    rcases taskStep_txnState cut with kept | ending | ⟨_, free, _⟩ | ⟨rfl, ready, _⟩
    · exact absurd kept unchanged
    · refine .inr ⟨exclusive.busy task (mem_of_getElem? found) ending, ?_⟩
      intro committed member
      rcases mem_iff_getElem?.mp member with ⟨other, atOther⟩
      have sameIndex := exclusive.single other index _ task atOther found rfl ending
      rw [sameIndex, found] at atOther
      cases atOther
      cases cut
      exact notReady rfl
    · rcases free with inside | prepared
      · exact .inl inside
      · exact absurd prepared exclusive.unprepared
    · simp only [taskStep, ready, if_true, some.injEq, Prod.mk.injEq] at cut
      rw [← cut.1] at same
      simp at same
  · rcases step_txnState notTask stepped with kept | ⟨_, _, broken⟩
    · exact absurd kept unchanged
    · rcases isOpen with inside | ⟨held, _⟩
      · rcases broken with fenced | fatal
        · simp [inside] at fenced
        · simp [inside] at fatal
      · rcases broken with fenced | fatal
        · simp [held] at fenced
        · simp [held] at fatal

/-! ## Traces of a failure -/

/-- No failure of the open transaction left a trace. -/
structure Clean (world : World) : Prop where
  isOpen : world.Open
  noError : world.txnError = .none
  active : world.state = .active
  noRecovery : world.recoveryRequired = false
  notAborted : Event.aborting world.transactions ∉ world.log

/-- A batch of a transaction is stopped for good. -/
def Stopped (world : World) : Prop :=
  world.txnError.fatal?.isSome = true ∨ world.recoveryRequired = true

theorem Clean.not_stopped (clean : world.Clean) : ¬ world.Stopped := by
  rintro (fatal | required)
  · rw [clean.noError] at fatal
    cases fatal
  · rw [clean.noRecovery] at required
    cases required

theorem Stopped.step (stopped : world.Stopped) (stepped : world.step config act = some next) :
    next.Stopped :=
  stopped.imp (step_fatal stepped) (step_recoveryRequired stepped)

section Sender

variable {choice : Choice}

structure PhaseEffect (world next : World) : Prop where
  state : next.state = world.state
  /-- It starts no part of a fence that fails the queues. -/
  calls : forall call, call ∈ next.calls -> call ∈ world.calls ∨ call.fences = false
  recorded : forall result, result ∈ next.phase.recorded -> result ∈ world.phase.recorded
  slots : forall slot, slot ∈ next.phase.barredSlots -> slot ∈ world.phase.barredSlots ∨
    Exists fun batch => world.Carries batch ∧
      world.drainedBarrier batch.transactionGeneration = some slot.2
  requests : forall request, request ∈ next.requests ->
    request ∈ world.requests ∨ request.progress = .queued

theorem PhaseEffect.goto {other : World} {target : Phase} (state : other.state = world.state)
    (pending : other.calls = world.calls) (requests : other.requests = world.requests)
    (unfenced : calls.all (fun call => !call.fences) = true)
    (recorded : target.recorded ⊆ world.phase.recorded)
    (slots : target.barredSlots ⊆ world.phase.barredSlots) :
    PhaseEffect world (other.goto calls target) := by
  refine ⟨state, fun call member => ?_, recorded, fun _ member => .inl (slots member),
    fun _ member => .inl (requests ▸ member)⟩
  rcases mem_append.mp member with isNew | old
  · exact .inr (by simpa using all_eq_true.mp unfenced call isNew)
  · exact .inl (pending ▸ old)

theorem execPhase_effect (stepped : world.execPhase config choice = some next) :
    PhaseEffect world next := by
  unfold execPhase at stepped
  cases atPhase : world.phase <;>
    simp only [atPhase, some.injEq, reduceCtorEq] at stepped <;> subst stepped
  case failRecoveredRetrySlots drain =>
    refine ⟨rfl, fun _ => .inl, fun _ none => absurd none not_mem_nil,
      fun slot member => .inr ?_, fun _ => .inl⟩
    rcases mem_filterMap.mp member with ⟨entry, inSlots, barred⟩
    rcases map_eq_some_iff.mp barred with ⟨barrier, stops, rfl⟩
    rw [(arrange_perm choice Prod.fst world.retry.entries).mem_iff] at inSlots
    exact ⟨entry.2, .inl ⟨entry.1, (SortedMap.mem_entries_iff _ _ _).mp inSlots⟩, stops⟩
  case drainKeys loop =>
    unfold drainKeyStep
    split
    · refine ⟨rfl, fun _ => .inl, fun _ none => absurd none not_mem_nil,
        fun _ none => absurd none not_mem_nil, fun request member => ?_⟩
      rcases mem_append.mp member with old | isNew
      · exact .inl old
      · rcases mem_map.mp isNew with ⟨_, _, rfl⟩
        exact .inr rfl
    · dsimp only
      repeat' split
      all_goals
        exact .goto rfl rfl rfl (by simp) (by simp [Phase.recorded]) (by simp [Phase.barredSlots])
  all_goals
    simp only [scheduleStart, scanStep, afterSchedule, drainStart, sweepStart, sweepKey, failBarred,
      retrySlotStep, takeExpiredKey, failUnsentStep, collectRetries, expireStart,
      bumpIdempotentEpoch, expireStep, repair, barRetryStep, routeStep, checkEpochStep,
      popReadyStep, barPoppedStep, allocateStep, snapshotStateStep, snapshotIdentityStep, addBuilt,
      recordStep, applyCycle, recordFenced, recordLive, recordRetry, recordAck,
      recordTransactionFatalError, settleStep, splitSequence, requeueStep, foldl_park]
    repeat' split
    all_goals
      exact .goto rfl rfl rfl (by simp [Call.fences]) (by simp [atPhase, Phase.recorded])
        (by simp [atPhase, Phase.barredSlots])

end Sender

/-- A producer that left the active state does not come back. -/
theorem step_state (stepped : world.step config act = some next) :
    next.state = world.state ∨ next.state ≠ .active := by
  cases act with
  | sender choice =>
    simp only [step, senderStep] at stepped
    split at stepped
    · rename_i call rest pending
      cases stepped
      cases call with
      | fence toFail =>
        right
        simp only [execCall, markFenced, goto]
        split_ifs with active
        · simp
        · exact active
      | terminalFail batch error =>
        left
        simp only [execCall, flagFailure, goto]
        split <;> rfl
      | fenceKeys keys =>
        left
        cases keys with
        | nil => rfl
        | cons key keys =>
          simp only [execCall, fenceKey]
          repeat' split
          all_goals rfl
      | _ => exact .inl rfl
    · exact .inl (execPhase_effect stepped).state
  | task index choice =>
    rcases advanceTask_cut stepped with ⟨task, result, after, found, cut, rfl⟩
    exact (taskStep_frame cut).state
  | _ => exact .inl (step_aside rfl stepped).state

/-- A clean world was clean before, unless a transaction was just opened. -/
theorem Clean.before (clean : next.Clean) (exclusive : world.Exclusive)
    (stepped : world.step config act = some next)
    (same : next.transactions = world.transactions) : world.Clean := by
  refine ⟨clean.isOpen.before exclusive stepped same, ?_, ?_, ?_, ?_⟩
  · rcases step_txnError stepped with raised | ⟨index, committed, found, rfl⟩
    · exact raised.eq_none clean.noError
    · -- The `end_transaction` that clears the error is about to complete.
      have inside := (List.getElem?_eq_some_iff.mp found).1
      have held := exclusive.busy _ (mem_of_getElem? found) rfl
      rcases clean.isOpen with inTransaction | ⟨_, incomplete⟩
      · have clash : world.txnState = .inTransaction := inTransaction
        rw [held] at clash
        cases clash
      · exact absurd (mem_set inside _) (incomplete committed)
  · rcases step_state stepped with kept | left
    · exact kept.symm.trans clean.active
    · exact absurd clean.active left
  · by_contra required
    rw [Bool.not_eq_false] at required
    have later := step_recoveryRequired stepped required
    rw [clean.noRecovery] at later
    cases later
  · intro aborted
    rcases step_adds stepped with ⟨events, log, _⟩
    apply clean.notAborted
    rw [log, same]
    exact mem_append_left _ aborted

/-! ## Failures on their way -/

section Sender

variable {choice : Choice}

theorem execCall_requests {call : Call} :
    (world.execCall choice call).requests = world.requests := by
  cases call with
  | terminalFail batch error => exact (@flagFailure_same world batch error).requests
  | fenceKeys keys =>
    cases keys with
    | nil => rfl
    | cons key rest =>
      simp only [execCall, fenceKey]
      repeat' split
      all_goals rfl
  | _ => rfl

end Sender

/-- A barrier of a drained batch is permanent. -/
theorem stopped_of_barrier {generation : Option Nat} {barrier : Barrier}
    (generations : world.Generations) (belongs : world.Belongs generation)
    (barred : world.drainedBarrier generation = some barrier) : world.Stopped := by
  rcases generations generation belongs with ⟨number, rfl, current⟩
  dsimp only [drainedBarrier] at barred
  split at barred
  · rename_i error isFatal
    exact .inl (by rw [isFatal]; rfl)
  · right
    rcases current with same | required
    · split_ifs at barred with stops
      rw [Bool.or_eq_true, bne_iff_ne] at stops
      exact stops.resolve_right (fun different => different same)
    · exact required

/-- What the producer wrote down before it fails batches. -/
structure Warned (world : World) : Prop where
  fences : forall call, call ∈ world.calls -> call.fences = true -> world.state ≠ .active
  slots : forall slot, slot ∈ world.phase.barredSlots -> world.Stopped
  requests : forall request, request ∈ world.requests -> forall barrier,
    request.progress = .done (.barred barrier) -> world.Stopped
  results : forall result, result ∈ world.phase.recorded -> forall barrier,
    result.verdict = .barred barrier -> world.Stopped

variable {call : Call}

/-- A call goes on with a fence only after the fence was marked. -/
theorem execCall_fences {choice : Choice} {later : Call} {rest : List Call}
    (pending : world.calls = rest)
    (member : later ∈ (world.execCall choice call).calls) (isFence : later.fences = true) :
    later ∈ rest ∨ call.fences = true ∨ (world.execCall choice call).state ≠ .active := by
  cases call with
  | fence toFail =>
    right
    right
    simp only [execCall, markFenced, goto]
    split_ifs with active
    · simp
    · exact active
  | fenceRetry | fenceAccumulators | fenceKeys => exact .inr (.inl rfl)
  | finish => exact .inl (pending ▸ member)
  | ack | fail =>
    rcases mem_cons.mp member with rfl | old
    · cases isFence
    · exact .inl (pending ▸ old)
  | terminalFail batch error =>
    have same := (@flagFailure_same world batch error).calls
    rcases mem_cons.mp member with rfl | old
    · cases isFence
    · exact .inl (pending ▸ same ▸ old)

theorem Warned.senderStep {choice : Choice} (warned : world.Warned)
    (generations : world.Generations)
    (stepped : world.step config (.sender choice) = some next) : next.Warned := by
  have left : world.state ≠ .active -> next.state ≠ .active := by
    intro inactive
    rcases step_state stepped with same | inactiveAfter
    · exact same ▸ inactive
    · exact inactiveAfter
  have stays : world.Stopped -> next.Stopped := fun stopped => stopped.step stepped
  simp only [step, World.senderStep] at stepped
  cases pending : world.calls with
  | cons call rest =>
    simp only [pending, some.injEq] at stepped
    have phase : next.phase = world.phase := stepped ▸ execCall_phase _
    have requests : next.requests = world.requests := stepped ▸ execCall_requests
    refine ⟨?_, ?_, ?_, ?_⟩
    · intro later member isFence
      rw [← stepped] at member
      rcases execCall_fences rfl member isFence with old | isFirst | inactive
      · exact left (warned.fences later (pending ▸ .tail call old) isFence)
      · exact left (warned.fences call (pending ▸ (.head _)) isFirst)
      · exact stepped ▸ inactive
    · exact fun slot member => stays (warned.slots slot (phase ▸ member))
    · exact fun request member barrier barred =>
        stays (warned.requests request (requests ▸ member) barrier barred)
    · exact fun result member barrier barred =>
        stays (warned.results result (phase ▸ member) barrier barred)
  | nil =>
    simp only [pending] at stepped
    have effect := execPhase_effect stepped
    refine ⟨?_, ?_, ?_, ?_⟩
    · intro call member isFence
      rcases effect.calls call member with old | unfenced
      · exact absurd (pending ▸ old) not_mem_nil
      · rw [unfenced] at isFence
        cases isFence
    · intro slot member
      apply stays
      rcases effect.slots slot member with old | ⟨batch, carried, barred⟩
      · exact warned.slots slot old
      · exact stopped_of_barrier generations (.inr ⟨batch, carried, rfl⟩) barred
    · intro request member barrier barred
      rcases effect.requests request member with old | queued
      · exact stays (warned.requests request old barrier barred)
      · rw [queued] at barred
        cases barred
    · intro result member barrier barred
      exact stays (warned.results result (effect.recorded result member) barrier barred)

theorem Warned.step (warned : world.Warned) (generations : world.Generations)
    (stepped : world.step config act = some next) : next.Warned := by
  rcases act.sender_or_outside with ⟨choice, rfl⟩ | outside
  · exact warned.senderStep generations stepped
  have apart := step_outside outside stepped
  have stays : world.Stopped -> next.Stopped := fun stopped => stopped.step stepped
  have old : forall request, request ∈ world.requests -> forall barrier,
      request.progress = .done (.barred barrier) -> next.Stopped :=
    fun request member barrier barred => stays (warned.requests request member barrier barred)
  have exchange := step_exchange outside stepped
  refine ⟨?_, ?_, ?_, ?_⟩
  · intro call member isFence
    have inactive := warned.fences call (apart.calls ▸ member) isFence
    rcases step_state stepped with same | inactiveAfter
    · exact same ▸ inactive
    · exact inactiveAfter
  · intro slot member
    rcases apart.phase with same | ⟨_, woken | ⟨results, recording⟩⟩
    · exact stays (warned.slots slot (same ▸ member))
    · simp [woken, Phase.barredSlots] at member
    · simp [recording, Phase.barredSlots] at member
  · intro request member barrier barred
    cases exchange with
    | same requests => exact old request (requests ▸ member) barrier barred
    | served index before changed waits found serves requests =>
      rw [requests] at member
      rcases mem_or_eq_of_mem_set member with kept | rfl
      · exact old request kept barrier barred
      · have carried : world.Carries before.batch :=
          .inr (.inl ⟨before, mem_of_getElem? found, rfl⟩)
        cases serves with
        | barred stopped =>
          exact stays (stopped_of_barrier generations (.inr ⟨_, carried, rfl⟩) stopped)
        | sent | failed | accepted => cases barred
        | answered onWire =>
          exact absurd (Progress.done.inj barred) (interpretResponse_ne_barred _ _ _ _ _ _)
    | completed picks picked left isAct taken requests =>
      refine old request ?_ barrier barred
      exact (pick_perm taken).mem_iff.mpr (mem_append_right _ (requests ▸ member))
  · intro result member barrier barred
    cases exchange with
    | same requests phase =>
      rcases phase with kept | woken
      · exact stays (warned.results result (kept ▸ member) barrier barred)
      · simp [woken, Phase.recorded] at member
    | served index before changed waits found serves requests phase =>
      exact stays (warned.results result (phase ▸ member) barrier barred)
    | completed picks picked left isAct taken requests phase =>
      rw [phase] at member
      rcases mem_filterMap.mp member with ⟨request, inPicked, done⟩
      have inRequests : request ∈ world.requests :=
        (pick_perm taken).mem_iff.mpr (mem_append_left _ inPicked)
      unfold requestResult at done
      split at done <;> cases done
      rename_i verdict isDone
      exact old request inRequests barrier (isDone.trans (congrArg Progress.done barred))

/-! ## Stamps of the open transaction -/

variable {batch : PreparedBatch}

theorem mem_parcels {batches : List PreparedBatch}
    (member : batch ∈ batches) : batch.parcel ∈ parcels batches :=
  mem_map_of_mem member

theorem mem_held_cycle (member : batch ∈ cycle.batches) : batch.parcel ∈ cycle.held := by
  have inParcels := mem_parcels member
  simpa only [CycleVerdicts.batches, CycleVerdicts.held, parcels_append] using inParcels

theorem mem_held_phase {phase : Phase} (member : batch ∈ phase.batches) :
    batch.parcel ∈ phase.held := by
  have inParcels := mem_parcels member
  cases phase with
  | record cycle results =>
    rcases mem_append.mp member with inCycle | inResults
    · exact Multiset.mem_add.mpr (.inl (mem_held_cycle inCycle))
    · exact Multiset.mem_add.mpr (.inr (mem_parcels inResults))
  | settle bumped cycle => exact mem_held_cycle member
  | requeue bumped cycle split =>
    rcases mem_cons.mp member with rfl | inCycle
    · exact Multiset.mem_add.mpr (.inl (Multiset.mem_singleton_self _))
    · exact Multiset.mem_add.mpr (.inr (mem_held_cycle inCycle))
  | barPopped | allocate => exact Multiset.mem_add.mpr (.inr inParcels)
  | snapshotState | snapshotIdentity =>
    exact Multiset.mem_add.mpr (.inr inParcels)
  | expire | barRetries => simpa only [Phase.batches, Phase.held, parcels_append] using inParcels
  | expireRepairs repairs expired toSend =>
    simpa only [Phase.batches, Phase.held, parcels_append] using inParcels
  | route | checkEpoch | drainKeys | popReady => exact inParcels
  | _ => cases member

theorem callsHeld_of_mem {parcel : Parcel} (member : call ∈ calls) (held : parcel ∈ call.held) :
    parcel ∈ callsHeld calls := by
  induction calls with
  | nil => cases member
  | cons head rest ih =>
    rcases mem_cons.mp member with rfl | later
    · exact Multiset.mem_add.mpr (.inl held)
    · exact Multiset.mem_add.mpr (.inr (ih later))

theorem mem_drained_call {parcel : Parcel} (member : call ∈ world.calls)
    (held : parcel ∈ call.held) : parcel ∈ world.drained :=
  Multiset.mem_add.mpr (.inr (Multiset.mem_add.mpr (.inr (callsHeld_of_mem member held))))

theorem Carries.mem_drained (carried : world.Carries batch) :
    batch.parcel ∈ world.drained := by
  rcases carried with ⟨key, found⟩ | ⟨request, member, rfl⟩ | inPhase | ⟨call, member, inCall⟩
  · have slotted : batch ∈ world.retry.entries.map Prod.snd :=
      mem_map.mpr ⟨(key, batch), (SortedMap.mem_entries_iff _ _ _).mpr found, rfl⟩
    exact Multiset.mem_add.mpr (.inl (Multiset.mem_add.mpr (.inl (mem_parcels slotted))))
  · exact mem_drained_request member
  · exact mem_drained_phase (mem_held_phase inPhase)
  · refine mem_drained_call member ?_
    cases call with
    | terminalFail failed error =>
      rw [mem_singleton.mp inCall]
      exact Multiset.mem_singleton_self _
    | fence toFail => exact mem_parcels inCall
    | _ => cases inCall

theorem lt_of_drained {key : TopicPartition} {records : List Nat} (invariant : world.Invariant)
    (held : (key, records) ∈ world.drained) (member : record ∈ records) :
    record < (acceptances world.log).length := by
  have owned := invariant.sound.owner_of_held held member
  rw [owner_eq_partitionOf] at owned
  exact partitionOf_isSome.mp ⟨key, owned⟩

def OpenStamped (world : World) : Prop :=
  world.Open -> forall batch, world.Carries batch -> forall record,
    record ∈ handles batch.records ->
      transactionOf world.log record = some world.transactions ->
        batch.recordBatch.transactional = true

theorem OpenStamped.step (stamped : world.OpenStamped) (numbered : world.Numbered)
    (exclusive : world.Exclusive) (invariant : world.Invariant)
    (transactional : config.transactional = true)
    (stepped : world.step config act = some next) : next.OpenStamped := by
  intro isOpen batch carried record inside ofOpen
  rcases step_transactions stepped with same | ⟨more, logSame, _⟩
  · have wasOpen := isOpen.before exclusive stepped same
    have known : forall old, world.Carries old -> record ∈ handles old.records ->
        old.recordBatch.transactional = true := by
      intro old carriedOld inOld
      apply stamped wasOpen old carriedOld record inOld
      rcases step_adds stepped with ⟨events, log, _⟩
      rw [log, transactionOf_append events
        (lt_of_drained invariant carriedOld.mem_drained inOld), same] at ofOpen
      exact ofOpen
    cases step_origin stepped batch carried with
    | kept old carriedOld stamp =>
      rw [stamp.recordBatch]
      exact known old carriedOld (stamp.records ▸ inside)
    | built loop key leader popped baseSequence atPhase outside new =>
      rw [transactional, Bool.true_and] at outside
      rcases wasOpen with inTransaction | ⟨held, _⟩
      · simp [inActiveTransaction, inTransaction] at outside
      · simp [inActiveTransaction, held] at outside
    | builtTransactional loop key leader popped baseSequence atPhase new =>
      rw [new]
      rfl
    | rewritten cycle old rest atPhase first new
    | restarted bumped cycle old rest atPhase noRewrite noRepair first new =>
      subst new
      exact known old (.inr (.inr (.inl (by
        simp [atPhase, Phase.batches, CycleVerdicts.batches, first])))) inside
  · -- No record was accepted in the transaction that just opened.
    rw [logSame, more] at ofOpen
    exact absurd (numbered record _ ofOpen) (by omega)

/-! ## Failed records -/

/-- The record failed, or the sender is about to fail it. -/
def Doomed (world : World) (record : Nat) : Prop :=
  record ∈ failedHandles world.log ∨
    (Exists fun call => call ∈ world.calls ∧ record ∈ call.failing) ∨ record ∈ world.phase.flagged

theorem lt_of_doomed (invariant : world.Invariant) (doomed : world.Doomed record) :
    record < (acceptances world.log).length := by
  have bounded := invariant.sound.bounded record
  simp only [ledger, length_map, mem_append] at bounded
  rcases doomed with failed | ⟨call, member, failing⟩ | flagged
  · exact bounded (.inl (.inr failed))
  · cases call with
    | fail key records error =>
      have held : (key, handles records) ∈ world.drained :=
        mem_drained_call member (Multiset.mem_singleton_self _)
      exact lt_of_drained invariant held failing
    | _ => cases failing
  · apply bounded
    right
    cases atPhase : world.phase with
    | failUnsent drain isFlagged expired =>
      rw [atPhase] at flagged
      cases expired with
      | nil => cases isFlagged <;> cases flagged
      | cons batch rest =>
        cases isFlagged with
        | false => cases flagged
        | true =>
          simp only [Phase.taken, unsentHandles_cons, mem_append]
          exact .inl flagged
    | _ =>
      rw [atPhase] at flagged
      cases flagged

/-- A step that fails no record and starts no failure. -/
theorem Doomed.quiet (doomed : next.Doomed record)
    (log : failedHandles next.log = failedHandles world.log)
    (calls : forall call, call ∈ next.calls -> call ∈ world.calls ∨ call.failing = [])
    (phase : record ∈ next.phase.flagged -> record ∈ world.phase.flagged) :
    world.Doomed record := by
  rcases doomed with failed | ⟨call, member, failing⟩ | flagged
  · exact .inl (log ▸ failed)
  · rcases calls call member with old | none
    · exact .inr (.inl ⟨call, old, failing⟩)
    · rw [none] at failing
      cases failing
  · exact .inr (.inr (phase flagged))

section Sender

variable {choice : Choice} {record : Nat}

theorem Doomed.goto {other : World} {target : Phase}
    (doomed : (other.goto calls target).Doomed record)
    (log : failedHandles other.log = failedHandles world.log) (pending : other.calls = world.calls)
    (plain : calls.all (·.failing.isEmpty) = true) (unflagged : target.flagged = []) :
    world.Doomed record := by
  refine doomed.quiet log (fun call member => ?_) (fun flagged => ?_)
  · rcases mem_append.mp member with isNew | old
    · exact .inr (isEmpty_iff.mp (all_eq_true.mp plain call isNew))
    · exact .inl (pending ▸ old)
  · have none : record ∈ target.flagged := flagged
    rw [unflagged] at none
    cases none

section

variable {generation : Option Nat} (clean : world.Clean) (generations : world.Generations)
  (belongs : world.Belongs generation)

include clean generations belongs

theorem Clean.drainedBarrier_eq_none :
    world.drainedBarrier generation = none := by
  cases barred : world.drainedBarrier generation with
  | none => rfl
  | some barrier => exact absurd (stopped_of_barrier generations belongs barred) clean.not_stopped

theorem Clean.undrainedBarrier_eq_none :
    world.undrainedBarrier generation = none := by
  unfold undrainedBarrier
  rw [clean.drainedBarrier_eq_none generations belongs, clean.noError]
  cases generation <;> rfl

end

/-- A call fails a record that was doomed, or it leaves a trace. -/
theorem execCall_doomed {call : Call} {rest : List Call} (pending : world.calls = call :: rest)
    (clean : world.Clean)
    (cleanAfter : Clean ({ world with calls := rest }.execCall choice call))
    (warned : world.Warned) (stamped : world.OpenStamped)
    (ofOpen : transactionOf world.log record = some world.transactions)
    (doomed : Doomed ({ world with calls := rest }.execCall choice call) record) :
    world.Doomed record := by
  have isFirst : call ∈ world.calls := pending ▸ (.head _)
  have later : forall other, other ∈ rest -> other ∈ world.calls :=
    fun other member => pending ▸ .tail call member
  have unfenced : call.fences = false := by
    cases isFence : call.fences with
    | false => rfl
    | true => exact absurd clean.active (warned.fences call isFirst isFence)
  cases call with
  | ack key records baseOffset logAppendTimeMs =>
    refine doomed.quiet ?_ ?_ id
    · have none := failedHandles_acknowledgements key records baseOffset logAppendTimeMs
      have appended := failedHandles_append world.log
        (acknowledgements key records baseOffset logAppendTimeMs)
      rw [none, append_nil] at appended
      exact appended
    · intro other member
      rcases mem_cons.mp member with rfl | old
      · exact .inr rfl
      · exact .inl (later other old)
  | terminalFail batch error =>
    have carried : world.Carries batch := .inr (.inr (.inr ⟨_, isFirst, mem_singleton_self batch⟩))
    by_cases isTransactional : batch.recordBatch.transactional = true
    · -- The failure sets the error of the transaction.
      have raised := cleanAfter.noError
      have mode : batch.mode = .transactional := by
        simp [PreparedBatch.mode, BatchMode.of, isTransactional]
      simp only [execCall, flagFailure, mode, if_true, goto, clean.noError] at raised
      split at raised <;> cases raised
    · rcases doomed with failed | ⟨other, member, failing⟩ | flagged
      · left
        simp only [execCall, flagFailure, goto] at failed
        split at failed <;> exact failed
      · have same := (@flagFailure_same { world with calls := rest } batch error).calls
        rcases mem_cons.mp member with rfl | old
        · exact absurd (stamped clean.isOpen batch carried record failing ofOpen) isTransactional
        · rw [same] at old
          exact .inr (.inl ⟨other, later other old, failing⟩)
      · exact .inr (.inr flagged)
  | fail key records error =>
    rcases doomed with failed | ⟨other, member, failing⟩ | flagged
    · have appended := failedHandles_append world.log (failures records error)
      rw [failedHandles_failures] at appended
      have split : record ∈ failedHandles world.log ++ handles records := appended ▸ failed
      rcases mem_append.mp split with old | isNew
      · exact .inl old
      · exact .inr (.inl ⟨_, isFirst, isNew⟩)
    · rcases mem_cons.mp member with rfl | old
      · cases failing
      · exact .inr (.inl ⟨other, later other old, failing⟩)
    · exact .inr (.inr flagged)
  | finish =>
    exact doomed.quiet rfl (fun other member => .inl (later other member)) id
  | fence toFail =>
    have active := cleanAfter.active
    simp only [execCall, markFenced, goto, clean.active, if_true] at active
    cases active
  | fenceRetry | fenceAccumulators | fenceKeys => cases unfenced

theorem failedHandles_quiet {log : List Event} {event : Event}
    (isQuiet : failedHandles [event] = []) :
    failedHandles (log ++ [event]) = failedHandles log := by
  rw [failedHandles_append, isQuiet, append_nil]

/-- A completed batch with a fatal code leaves a trace, unless it holds no record
of the open transaction. -/
theorem recordFatal_doomed {result : BatchSendResult} {code : Int} {after : Phase}
    (pending : world.calls = []) (atPhase : world.phase = .record cycle (result :: results))
    (clean : world.Clean)
    (cleanAfter : Clean ((world.recordTransactionFatalError result.batch code).goto
      [.fail result.batch.key result.batch.records (fatalError code)] after))
    (stamped : world.OpenStamped)
    (ofOpen : transactionOf world.log record = some world.transactions)
    (unflagged : after.flagged = [])
    (doomed : Doomed ((world.recordTransactionFatalError result.batch code).goto
      [.fail result.batch.key result.batch.records (fatalError code)] after) record) :
    world.Doomed record := by
  have carried : world.Carries result.batch :=
    .inr (.inr (.inl (atPhase ▸ mem_append_right _ (.head _))))
  by_cases isTransactional : result.batch.recordBatch.transactional = true
  · have raised := cleanAfter.noError
    have mode : result.batch.mode = .transactional := by
      simp [PreparedBatch.mode, BatchMode.of, isTransactional]
    simp only [recordTransactionFatalError, mode, if_true, goto] at raised
    cases raised
  · have same := @recordTransactionFatalError_same world result.batch code
    have log : (world.recordTransactionFatalError result.batch code).log = world.log := by
      unfold recordTransactionFatalError
      split <;> rfl
    rcases doomed with failed | ⟨call, member, failing⟩ | flagged
    · exact .inl (log ▸ failed)
    · rcases mem_cons.mp member with rfl | old
      · exact absurd (stamped clean.isOpen result.batch carried record failing ofOpen)
          isTransactional
      · rw [same.calls, pending] at old
        cases old
    · have none : record ∈ after.flagged := flagged
      rw [unflagged] at none
      cases none

theorem recordStep_doomed (pending : world.calls = [])
    (atPhase : world.phase = .record cycle results) (clean : world.Clean)
    (cleanAfter : (world.recordStep config choice cycle results).Clean) (warned : world.Warned)
    (stamped : world.OpenStamped)
    (ofOpen : transactionOf world.log record = some world.transactions)
    (doomed : (world.recordStep config choice cycle results).Doomed record) :
    world.Doomed record := by
  cases results with
  | nil =>
    simp only [recordStep, applyCycle, bumpIdempotentEpoch] at doomed
    repeat' split at doomed
    all_goals exact doomed.goto rfl rfl (by simp [Call.failing]) rfl
  | cons result rest =>
    dsimp only [recordStep] at doomed cleanAfter
    cases verdict : result.verdict with
    | fatal code =>
      simp only [recordFenced, recordLive, verdict] at doomed cleanAfter
      cases fenced : cycle.fenced <;> rw [fenced] at doomed cleanAfter
      all_goals exact recordFatal_doomed pending atPhase clean cleanAfter stamped ofOpen rfl doomed
    | barred barrier =>
      refine absurd (warned.results result ?_ barrier verdict) clean.not_stopped
      rw [atPhase]
      exact .head _
    | _ =>
      simp only [recordFenced, recordLive, verdict, recordRetry, recordAck] at doomed
      repeat' split at doomed
      all_goals exact doomed.goto rfl rfl (by simp [Call.failing]) rfl

theorem failBarred_log {batches : List InProgressBatch} (free : forall batch, batch ∈ batches ->
      world.undrainedBarrier batch.transactionGeneration = none) :
    (world.failBarred batches).log = world.log := by
  unfold failBarred emit
  apply append_right_eq_self.mpr
  apply flatMap_eq_nil_iff.mpr
  intro batch member
  rw [free batch member]

theorem sweepKey_doomed {drain : Drain} {generation : Nat} {keys : List TopicPartition}
    (clean : world.Clean) (generations : world.Generations)
    (doomed : (world.sweepKey drain generation keys).Doomed record) : world.Doomed record := by
  unfold sweepKey at doomed
  cases keys with
  | nil => exact doomed.goto rfl rfl rfl rfl
  | cons key rest =>
    dsimp only at doomed
    cases found : world.accumulators.get? key with
    | none =>
      rw [found] at doomed
      exact doomed.goto rfl rfl rfl rfl
    | some accumulator =>
      rw [found] at doomed
      refine doomed.goto (congrArg failedHandles (failBarred_log ?_)) rfl rfl rfl
      -- No barrier stops a batch of a clean world.
      intro batch member
      have waits : world.Waits batch := by
        refine .inl ⟨key, accumulator, found, ?_⟩
        rcases mem_append.mp member with current | ready
        · exact mem_append_right _ current
        · exact mem_append_left _ ready
      exact clean.undrainedBarrier_eq_none generations (.inl ⟨batch, waits, rfl⟩)

theorem failUnsentStep_doomed {drain : Drain} {flagged : Bool} {expired : List InProgressBatch}
    (atPhase : world.phase = .failUnsent drain flagged expired) (clean : world.Clean)
    (generations : world.Generations)
    (cleanAfter : (world.failUnsentStep drain flagged expired).Clean)
    (doomed : (world.failUnsentStep drain flagged expired).Doomed record) :
    world.Doomed record := by
  cases expired with
  | nil => exact doomed.goto rfl rfl rfl rfl
  | cons batch rest =>
    cases flagged with
    | true =>
      rcases doomed with failed | calls | none
      · have appended := failedHandles_append world.log (failures batch.records .sendTimeout)
        rw [failedHandles_failures] at appended
        have split : record ∈ failedHandles world.log ++ handles batch.records := appended ▸ failed
        rcases mem_append.mp split with old | isNew
        · exact .inl old
        · exact .inr (.inr (atPhase ▸ isNew))
      · exact .inr (.inl calls)
      · cases rest <;> cases none
    | false =>
      have waits : world.Waits batch := .inr (atPhase ▸ (.head _))
      rcases generations _ (.inl ⟨batch, waits, rfl⟩) with ⟨number, isNumber, _⟩
      have raised := cleanAfter.noError
      simp only [failUnsentStep, isNumber, isSome_some, if_true, goto, clean.noError] at raised
      cases raised

/-- A phase fails only records that were doomed, or it leaves a trace. -/
theorem execPhase_doomed (pending : world.calls = [])
    (stepped : world.execPhase config choice = some next) (clean : world.Clean)
    (cleanAfter : next.Clean) (warned : world.Warned) (stamped : world.OpenStamped)
    (generations : world.Generations) (opened : world.Opened) (invariant : world.Invariant)
    (ofOpen : transactionOf world.log record = some world.transactions)
    (doomed : next.Doomed record) : world.Doomed record := by
  unfold execPhase at stepped
  cases atPhase : world.phase <;>
    simp only [atPhase, some.injEq, reduceCtorEq] at stepped <;> subst stepped
  case record => exact recordStep_doomed pending atPhase clean cleanAfter warned stamped ofOpen doomed
  case sweepRecovered => exact sweepKey_doomed clean generations doomed
  case failUnsent => exact failUnsentStep_doomed atPhase clean generations cleanAfter doomed
  case failRetrySlots drain slots =>
    cases slots with
    | nil => exact doomed.goto rfl rfl rfl rfl
    | cons slot rest =>
      have stopped : world.Stopped := warned.slots slot (by rw [atPhase]; exact mem_cons_self)
      exact absurd stopped clean.not_stopped
  case barRetries drain waiting kept =>
    cases waiting with
    | nil => exact doomed.goto rfl rfl rfl rfl
    | cons batch rest =>
      have carried : world.Carries batch := .inr (.inr (.inl (atPhase ▸ (.head _))))
      have free := clean.drainedBarrier_eq_none generations (.inr ⟨batch, carried, rfl⟩)
      simp only [barRetryStep, free] at doomed
      exact doomed.goto rfl rfl rfl rfl
  case barPopped loop key leader batch =>
    have waits : world.Waits batch := .inr (atPhase ▸ (.head _))
    have free := clean.undrainedBarrier_eq_none generations (.inl ⟨batch, waits, rfl⟩)
    simp only [barPoppedStep, free] at doomed
    exact doomed.goto rfl rfl rfl rfl
  case requeue bumped cycle batch =>
    unfold requeueStep at doomed
    cases found : world.accumulators.get? batch.key with
    | none =>
      -- Every accepted record has an accumulator.
      rw [found] at doomed
      have carried : world.Carries batch := .inr (.inr (.inl (atPhase ▸ (.head _))))
      rcases doomed with failed | ⟨call, member, failing⟩ | none
      · exact .inl failed
      · rcases mem_cons.mp member with rfl | old
        · have owned := invariant.sound.owner_of_held carried.mem_drained failing
          rw [owner_eq_partitionOf] at owned
          have known := opened record batch.key owned
          rw [SortedMap.contains, found] at known
          cases known
        · rw [pending] at old
          cases old
      · cases none
    | some accumulator =>
      rw [found] at doomed
      exact doomed.goto rfl rfl rfl rfl
  all_goals
    simp only [scheduleStart, scanStep, afterSchedule, drainStart, sweepStart, retrySlotsStart,
      takeExpiredKey, collectRetries, expireStart, bumpIdempotentEpoch, expireStep, repair,
      routeStep, checkEpochStep, drainKeyStep, launch, popReadyStep, allocateStep,
      snapshotStateStep, snapshotIdentityStep, addBuilt, settleStep, splitSequence, restart,
      foldl_park] at doomed
    repeat' split at doomed
    all_goals
      refine doomed.goto ?_ rfl (by simp [Call.failing]) rfl
      first
        | rfl
        | exact failedHandles_quiet rfl

end Sender

/-! ## Every failure is reported -/

/-- An abort that sweeps the accumulators has started. -/
def SweepsAborted (world : World) : Prop :=
  forall previous swept remaining, Task.sweep previous swept remaining ∈ world.tasks ->
    Event.aborting world.transactions ∈ world.log

theorem SweepsAborted.step (sweeps : world.SweepsAborted) (exclusive : world.Exclusive)
    (stepped : world.step config act = some next) : next.SweepsAborted := by
  intro previous swept remaining member
  rcases step_adds stepped with ⟨events, log, _⟩
  have kept : forall {previous : TxnState} {swept remaining : List TopicPartition},
      Task.sweep previous swept remaining ∈ world.tasks ->
        Event.aborting next.transactions ∈ next.log := by
    intro previous swept remaining old
    have held := exclusive.busy _ old rfl
    rcases step_transactions stepped with same | ⟨_, _, ready⟩
    · rw [log, same]
      exact mem_append_left _ (sweeps previous swept remaining old)
    · rw [held] at ready
      cases ready
  rcases step_tasks stepped with same | ⟨call, task, rfl, opened, rfl⟩ |
    ⟨index, choice, task, result, after, rfl, found, cut, rfl⟩
  · exact kept (same ▸ member)
  · rcases mem_append.mp member with old | isNew
    · exact kept old
    · have idle := (openTask_ending opened).1
      rw [← mem_singleton.mp isNew] at idle
      cases idle
  · rcases mem_or_eq_of_mem_set member with old | isNew
    · exact kept old
    · subst isNew
      cases task with
      | abortUndrained state =>
        simp only [taskStep] at cut
        split_ifs at cut <;> cases cut
        exact mem_append_right _ (mem_singleton_self _)
      | sweep state done rest =>
        cases rest with
        | nil => cases cut
        | cons key rest => exact kept (mem_of_getElem? found)
      | flush purpose since flushing =>
        simp only [taskStep, afterFlush, afterFailedFlush] at cut
        cases purpose <;> split at cut <;> cases cut
      | done => cases cut
      | _ =>
        simp only [taskStep, applyEndTxnStep, endTransactionStep] at cut
        repeat' split at cut
        all_goals cases cut

/-- The parties other than the sender fail only what an abort sweeps. -/
theorem step_doomed_outside (outside : forall choice, act ≠ .sender choice)
    (stepped : world.step config act = some next) (clean : world.Clean)
    (sweeps : world.SweepsAborted) (doomed : next.Doomed record) : world.Doomed record := by
  have apart := step_outside outside stepped
  have log : failedHandles next.log = failedHandles world.log := by
    cases act with
    | sender choice => exact absurd rfl (outside choice)
    | task index choice =>
      rcases advanceTask_cut stepped with ⟨task, result, after, found, cut, rfl⟩
      cases task with
      | sweep previous swept remaining =>
        exact absurd (sweeps previous swept remaining (mem_of_getElem? found)) clean.notAborted
      | done => cases cut
      | _ =>
        simp only [taskStep, applyEndTxnStep, endTransactionStep, afterFlush] at cut
        repeat' split at cut
        all_goals
          cases cut
          first
            | rfl
            | exact failedHandles_quiet rfl
    | _ =>
      rcases (step_aside rfl stepped).log with same | ⟨event, marked, longer⟩
      · rw [same]
      · rw [longer]
        refine failedHandles_quiet ?_
        cases event with
        | resolved => cases marked
        | _ => rfl
  refine doomed.quiet log (fun call member => .inl (apart.calls ▸ member)) ?_
  intro flagged
  rcases apart.phase with same | ⟨_, woken | ⟨results, recording⟩⟩
  · exact same ▸ flagged
  · simp [woken, Phase.flagged] at flagged
  · simp [recording, Phase.flagged] at flagged

/-- While the world is clean, no record of the open transaction failed or is about
to fail. -/
def Reported (world : World) : Prop :=
  world.Clean -> forall record, transactionOf world.log record = some world.transactions ->
    ¬ world.Doomed record

/-- What a producer with a transactional id keeps about its failures. -/
structure Reports (world : World) : Prop where
  opened : world.Opened
  exclusive : world.Exclusive
  numbered : world.Numbered
  generations : world.Generations
  warned : world.Warned
  stamped : world.OpenStamped
  sweeps : world.SweepsAborted
  reported : world.Reported

theorem Reports.reported_step (reports : world.Reports) (invariant : world.Invariant)
    (stepped : world.step config act = some next) : next.Reported := by
  intro cleanAfter record ofOpen doomed
  rcases step_transactions stepped with same | ⟨more, logSame, _⟩
  · have clean := cleanAfter.before reports.exclusive stepped same
    have known : transactionOf world.log record = some world.transactions ->
        ¬ world.Doomed record := reports.reported clean record
    rcases step_adds stepped with ⟨events, log, _⟩
    -- A new record is not doomed, because a doomed record was accepted.
    by_cases old : record < (acceptances world.log).length
    · rw [log, transactionOf_append events old, same] at ofOpen
      refine known ofOpen ?_
      rcases act.sender_or_outside with ⟨choice, rfl⟩ | outside
      · simp only [step, senderStep] at stepped
        cases pending : world.calls with
        | cons call rest =>
          simp only [pending, some.injEq] at stepped
          subst stepped
          exact execCall_doomed pending clean cleanAfter reports.warned reports.stamped ofOpen
            doomed
        | nil =>
          simp only [pending] at stepped
          exact execPhase_doomed pending stepped clean cleanAfter reports.warned reports.stamped
            reports.generations reports.opened invariant ofOpen doomed
      · exact step_doomed_outside outside stepped clean reports.sweeps doomed
    · rcases act.sender_or_outside with ⟨choice, rfl⟩ | outside
      · have accepted : acceptances next.log = acceptances world.log := by
          rcases (senderStep_frame stepped).log with ⟨added, logAdded, plain⟩
          rw [logAdded, acceptances_append, acceptances_of_unmarked plain, append_nil]
        have bound := lt_of_transactionOf ofOpen
        rw [accepted] at bound
        exact old bound
      · have before := step_doomed_outside outside stepped clean reports.sweeps doomed
        exact old (lt_of_doomed invariant before)
  · rw [logSame, more] at ofOpen
    exact absurd (reports.numbered record _ ofOpen) (by omega)

theorem Reports.step (reports : world.Reports) (transactional : config.transactional = true)
    (invariant : world.Invariant) (stepped : world.step config act = some next) :
    next.Reports where
  opened := reports.opened.step stepped
  exclusive := reports.exclusive.step stepped
  numbered := reports.numbered.step stepped
  generations := reports.generations.step transactional stepped
  warned := reports.warned.step reports.generations stepped
  stamped := reports.stamped.step reports.numbered reports.exclusive invariant transactional stepped
  sweeps := reports.sweeps.step reports.exclusive stepped
  reported := reports.reported_step invariant stepped

theorem start_reports (config : Config) : (start config).Reports where
  opened := fun record key owned => absurd owned (by simp [start, partitionOf, acceptances])
  exclusive := start_exclusive config
  numbered := fun record transaction found =>
    absurd found (by simp [start, transactionOf, acceptances])
  generations := start_generations config
  warned := ⟨fun call member => absurd member not_mem_nil,
    fun slot member => absurd member not_mem_nil,
    fun request member => absurd member not_mem_nil,
    fun result member => absurd member not_mem_nil⟩
  stamped := fun isOpen batch carried record inside ofOpen =>
    absurd ofOpen (by simp [start, transactionOf, acceptances])
  sweeps := fun previous swept remaining member => absurd member not_mem_nil
  reported := fun clean record ofOpen => absurd ofOpen (by simp [start, transactionOf, acceptances])

end World

end Producer
end Krabka
