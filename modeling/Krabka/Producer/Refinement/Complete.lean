import Krabka.Producer.Refinement.Drain

namespace Krabka
namespace Producer

open Collections List

/-!
# Completions and calls are moves of custody

`complete_batches` sorts the batches of the completed requests.  A batch leaves
the sender in one of three ways: its records are acknowledged, they fail, or
they go back to the front of their queue.  Each way leaves one in-flight slot
to release.
-/

namespace CycleVerdicts

section

variable (cycle : CycleVerdicts) (batch : PreparedBatch)

include cycle batch

theorem recordRepair_held (repair : SequenceRepair) :
    (cycle.recordRepair batch repair).held = cycle.held := by
  cases repair <;> rfl

theorem held_fail (error : ProducerError) :
    ({ cycle with failed := cycle.failed ++ [(batch, error)] } : CycleVerdicts).held =
      cycle.held + {batch.parcel} := by
  simp only [held, map_append, parcels_append, map_cons, map_nil, parcels_cons, parcels_nil]
  abel

theorem giveUp_held :
    (cycle.giveUp batch).held = cycle.held + {batch.parcel} := by
  rw [giveUp, held_fail, recordRepair_held]

end

end CycleVerdicts

variable {key : TopicPartition} {records : List PendingRecord} {error : ProducerError}

namespace World

section Completion

variable {config : Config} {world : World} {choice : Choice} (shape : world.Shape)

omit shape in
theorem recordAck_same (batch : PreparedBatch) (baseOffset : Int) :
    SameCustody world (world.recordAck batch baseOffset) := by
  rw [recordAck]
  split_ifs <;> exact by constructor <;> rfl

omit shape in
theorem recordTransactionFatalError_same (batch : PreparedBatch) (code : Int) :
    SameCustody world (world.recordTransactionFatalError batch code) := by
  rw [recordTransactionFatalError]
  split <;> exact by constructor <;> rfl

include shape

variable {cycle next : CycleVerdicts} {result : BatchSendResult} {rest : List BatchSendResult}

section

variable (atPhase : world.phase = .record cycle (result :: rest))

include atPhase

theorem recordCall_refined {other : World} {call : Call} (same : SameCustody world other)
    (kept : next.held = cycle.held) (held : call.held = {result.batch.parcel})
    (finishing : call.finishing = 0) :
    Refined world (other.goto [call] (.record next rest)) := by
  refine refined_goto shape atPhase same rfl ?_ (by simp [finishing]) trivial
  simp only [Phase.held, map_cons, parcels_cons, callsHeld_cons, callsHeld_nil, held, kept]
  abel

theorem recordKept_refined (kept : next.held = cycle.held + {result.batch.parcel}) :
    Refined world (world.goto [] (.record next rest)) := by
  refine refined_goto shape atPhase (.refl world) rfl ?_ rfl trivial
  simp only [Phase.held, map_cons, parcels_cons, callsHeld_nil, kept]
  abel

theorem recordFenced_refined {toFail : List PreparedBatch} (fenced : cycle.fenced = some toFail) :
    Refined world (world.recordFenced cycle toFail rest result) := by
  have deferred : ({ cycle with fenced := some (toFail ++ [result.batch]) } :
      CycleVerdicts).held = cycle.held + {result.batch.parcel} := by
    simp only [CycleVerdicts.held, fenced, Option.getD_some, parcels_append, parcels_cons,
      parcels_nil]
    abel
  rw [recordFenced]
  cases result.verdict with
  | acked baseOffset logAppendTimeMs =>
    exact recordCall_refined shape atPhase (.refl world) rfl rfl rfl
  | terminal | barred => exact recordCall_refined shape atPhase (.refl world) rfl rfl rfl
  | fatal code =>
    exact recordCall_refined shape atPhase (recordTransactionFatalError_same _ _) rfl rfl rfl
  | retry | bumpEpochAndRetry | restartSequenceAndRetry | split =>
    exact recordKept_refined shape atPhase deferred

/-- A retry that may have run out. -/
theorem recordRetry_refined {again : PreparedBatch -> World}
    (admitted : forall batch : PreparedBatch, batch.parcel = result.batch.parcel ->
      Refined world (again batch)) :
    Refined world (world.recordRetry config cycle rest result.batch again) := by
  rw [recordRetry]
  split_ifs with exhausted
  · apply recordKept_refined shape atPhase
    rw [CycleVerdicts.giveUp_held, (PreparedBatch.SameStamp.takeRetry _ _).parcel]
  · exact admitted _ (PreparedBatch.SameStamp.takeRetry _ _).parcel

end

theorem recordLive_refined (distinct : Distinct world.drained)
    (atPhase : world.phase = .record cycle (result :: rest)) (live : cycle.fenced = none) :
    Refined world (world.recordLive config cycle rest result) := by
  rw [recordLive]
  cases result.verdict with
  | acked baseOffset logAppendTimeMs =>
    exact recordCall_refined shape atPhase (recordAck_same _ _) rfl rfl rfl
  | terminal code repair =>
    apply recordKept_refined shape atPhase
    rw [CycleVerdicts.failTerminal, CycleVerdicts.held_fail, CycleVerdicts.recordRepair_held]
  | split =>
    apply recordKept_refined shape atPhase
    simp only [CycleVerdicts.held, parcels_append, parcels_cons, parcels_nil]
    abel
  | retry =>
    apply recordRetry_refined shape atPhase
    intro batch same
    refine refined_park [batch] shape distinct atPhase (.refl world) rfl ?_ rfl (fun _ => trivial)
    simp only [Phase.held, map_cons, parcels_cons, parcels_nil, callsHeld_nil, same]
    abel
  | bumpEpochAndRetry | restartSequenceAndRetry =>
    apply recordRetry_refined shape atPhase
    intro batch same
    apply recordKept_refined shape atPhase
    simp only [CycleVerdicts.held, parcels_append, parcels_cons, parcels_nil, same]
    abel
  | fatal code =>
    refine recordCall_refined shape atPhase (recordTransactionFatalError_same _ _) ?_ rfl rfl
    simp [CycleVerdicts.held, live]
  | barred barrier => exact recordCall_refined shape atPhase (.refl world) rfl rfl rfl

theorem applyCycle_refined (atPhase : world.phase = .record cycle []) :
    Refined world (world.applyCycle choice cycle) := by
  rw [applyCycle]
  cases fenced : cycle.fenced with
  | some toFail =>
    refine refined_goto shape atPhase (.refl world) rfl ?_ ?_ trivial
    · rw [callsHeld_append, callsHeld_map _ Prod.fst (fun _ => rfl)]
      simp only [callsHeld_cons, callsHeld_nil, Call.held, parcels_append, Phase.held,
        CycleVerdicts.held, fenced, Option.getD_some, map_nil, parcels_nil]
      abel
    · rw [callsFinishing_append, callsFinishing_map _ (fun _ => rfl)]
      rfl
  | none =>
    split_ifs with bumps
    · exact refined_goto shape atPhase bumpIdempotentEpoch_same rfl rfl rfl fenced
    · exact refined_goto shape atPhase (.refl world) rfl rfl rfl fenced

theorem recordStep_refined (distinct : Distinct world.drained)
    {results : List BatchSendResult} (atPhase : world.phase = .record cycle results) :
    Refined world (world.recordStep config choice cycle results) := by
  cases results with
  | nil => exact applyCycle_refined shape atPhase
  | cons result rest =>
    rw [recordStep]
    cases fenced : cycle.fenced with
    | some toFail => exact recordFenced_refined shape atPhase fenced
    | none => exact recordLive_refined shape distinct atPhase fenced

/-! ## `apply` -/

variable {bumped : Bool}

variable {batch : PreparedBatch}

/-- `restart_sequence` parks the batch under new stamps. -/
theorem restart_refined (distinct : Distinct world.drained)
    (atPhase : world.phase = .settle bumped cycle) (fenceless : next.fenced = none)
    (held : next.held + {batch.parcel} = cycle.held) :
    Refined world ((world.restart batch).goto [] (.settle bumped next)) := by
  refine refined_park [batch.restarted] shape distinct atPhase
    ⟨?_, ?_, rfl, rfl, rfl, rfl, rfl, rfl⟩ rfl ?_ rfl (fun _ => fenceless)
  · simp [emit, acceptances]
  · simp [emit, resolutions]
  · simp only [Phase.held, callsHeld_nil, parcels_cons, parcels_nil, add_zero]
    exact held

omit shape in
theorem splitSequence_same (bumped : Bool) (batch : PreparedBatch) :
    SameCustody world (world.splitSequence bumped batch) := by
  rw [splitSequence]
  split <;>
    exact ⟨by simp [emit, acceptances], by simp [emit, resolutions], rfl, rfl, rfl, rfl, rfl, rfl⟩

theorem settleStep_refined (distinct : Distinct world.drained)
    (atPhase : world.phase = .settle bumped cycle) :
    Refined world (world.settleStep bumped cycle) := by
  have fenceless : cycle.fenced = none := shape.covers_at atPhase
  rw [settleStep]
  cases rewrites : cycle.rewrites with
  | cons batch rest =>
    have held : ({ cycle with rewrites := rest } : CycleVerdicts).held + {batch.parcel} =
        cycle.held := by
      simp only [CycleVerdicts.held, rewrites, parcels_cons]
      abel
    cases bumped with
    | true => exact restart_refined shape distinct atPhase fenceless held
    | false =>
      refine refined_park [batch] shape distinct atPhase (.refl world) rfl ?_ rfl
        (fun _ => fenceless)
      simp only [Phase.held, callsHeld_nil, parcels_cons, parcels_nil, add_zero]
      exact held
  | nil =>
    cases repairs : cycle.repairs with
    | cons head rest =>
      refine refined_goto shape atPhase (repair_same head) rfl ?_ rfl fenceless
      simp only [Phase.held, CycleVerdicts.held, rewrites, callsHeld_nil, add_zero]
    | nil =>
      cases restarts : cycle.restarts with
      | cons batch rest =>
        refine restart_refined shape distinct atPhase ?_ ?_
        · exact fenceless
        simp only [CycleVerdicts.held, rewrites, restarts, parcels_cons]
        abel
      | nil =>
        cases splits : cycle.splits with
        | cons batch rest =>
          refine refined_goto shape atPhase (splitSequence_same bumped batch) rfl ?_ rfl fenceless
          simp only [Phase.held, CycleVerdicts.held, rewrites, restarts, splits,
            parcels_cons, callsHeld_nil]
          abel
        | nil =>
          refine refined_goto shape atPhase (.refl world) rfl ?_ ?_ trivial
          · rw [callsHeld_map (fun failure : PreparedBatch × ProducerError =>
              Call.terminalFail failure.1 failure.2) Prod.fst (fun _ => rfl)]
            simp [Phase.held, CycleVerdicts.held, rewrites, restarts, splits, fenceless]
          · exact callsFinishing_map (fun failure : PreparedBatch × ProducerError =>
              Call.terminalFail failure.1 failure.2) (fun _ => rfl) _

/-- `split_and_requeue` puts the records back before the rest of their queue. -/
theorem requeueStep_refined (atPhase : world.phase = .requeue bumped cycle batch) :
    RefinedBy (some batch.key) world (world.requeueStep bumped cycle batch) := by
  have fenceless : cycle.fenced = none := shape.covers_at atPhase
  rw [requeueStep]
  cases found : world.accumulators.get? batch.key with
  | none =>
    refine RefinedBy.of_refined (refined_goto shape atPhase (.refl world) rfl ?_ rfl fenceless)
    exact add_comm _ _
  | some accumulator =>
    have held : world.ledger.drained = batch.parcel ::ₘ
        (world.parked + world.onWire + (cycle.held + callsHeld world.calls)) := by
      change world.drained = _
      rw [← Multiset.singleton_add]
      simp only [drained, inHand, atPhase, Phase.held]
      abel
    have noneTaken : world.ledger.taken = [] := by
      simp [ledger, atPhase, Phase.taken]
    refine ⟨?_, shape.keyed, shape.wire, fenceless⟩
    convert Ledger.Move.requeue world.ledger _ _ _ held noneTaken rfl using 1
    simp only [ledger, Ledger.mk.injEq]
    refine ⟨rfl, ?_, ?_, ?_, ?_, rfl, rfl, rfl⟩
    · refine (queue_setAccumulator _ _ _).trans ?_
      rw [Accumulator.handles_queued_pushFront, Accumulator.handles_queued_pushFront,
        ← append_assoc]
      have halves : handles (batch.records.take (batch.records.length / 2)) ++
          handles (batch.records.drop (batch.records.length / 2)) = handles batch.records := by
        simp [handles]
      rw [halves, ← queue_of_get? found]
    · rw [atPhase]
      rfl
    · change world.parked + world.onWire + (cycle.held + callsHeld (.finish :: world.calls)) = _
      simp [Call.held]
    · rw [Nat.add_comm]
      rfl

end Completion

/-! ## Calls -/

/-- A step that fails every record of one accumulator. -/
theorem refined_emptied {world next : World} {accumulator : Accumulator}
    (found : world.accumulators.get? key = some accumulator)
    (log : next.log = world.log ++ failures
      ((accumulator.current.toList ++ accumulator.ready).flatMap InProgressBatch.records) error)
    (queues : next.accumulators =
      world.accumulators.insert key { accumulator with current := none, ready := [] })
    (counter : next.inFlight = world.inFlight) (taken : next.phase.taken = world.phase.taken)
    (drained : next.drained = world.drained) (finishing : next.finishing = world.finishing)
    (shape : next.Shape) : Refined world next := by
  refine refined_failQueued key
    (unsentHandles (accumulator.current.toList ++ accumulator.ready)) [] ?_ ?_ ?_ ?_ counter taken
    drained finishing shape ?_ (nil_sublist _)
  · rw [log, acceptances_append, acceptances_failures, append_nil]
  · rw [log, ackedHandles_append, ackedHandles_failures, append_nil]
  · rw [log, failedHandles_append, failedHandles_failures]
    rfl
  · have stored : next.queue = (world.setAccumulator key
        { accumulator with current := none, ready := [] }).queue :=
      funext fun key => by rw [queue, queue, queues]; rfl
    rw [stored, queue_setAccumulator]
    rfl
  · rw [queue_of_get? found, handles_queued, append_nil, Accumulator.batches,
      unsentHandles_append, unsentHandles_append]
    exact perm_append_comm

section Calls

variable {world : World} {choice : Choice} {rest : List Call} (shape : world.Shape)

include shape

variable {call : Call}

/-- Calls that hold the same batches as those they take the place of. -/
theorem refined_calls {other : World} {calls : List Call}
    (same : SameCustody { world with calls := rest } other)
    (held : callsHeld calls + callsHeld rest = callsHeld world.calls)
    (finishing : callsFinishing calls + callsFinishing rest = callsFinishing world.calls) :
    Refined world (other.goto calls world.phase) := by
  have wire := same.wire { shape with }
  refine refined_inside same.accepted same.resolved same.queues same.counter rfl ?_ ?_
    ⟨fun key batch found => shape.keyed key batch (same.retry ▸ found), wire, ?_⟩
  · simp only [drained, parked, onWire, inHand, goto, same.retry, same.requests, same.calls,
      callsHeld_append, held]
  · simp only [World.finishing, goto, same.calls, callsFinishing_append, finishing]
  · simp only [standing, parked, onWire, goto, same.retry, same.requests]
    exact shape.covers

/-- A call that gives its batches to other calls. -/
theorem refined_call {other : World} {calls : List Call} (pending : world.calls = call :: rest)
    (same : SameCustody { world with calls := rest } other)
    (held : callsHeld calls = call.held) (finishing : callsFinishing calls = call.finishing) :
    Refined world (other.goto calls world.phase) := by
  refine refined_calls shape same ?_ ?_
  · rw [held, pending, callsHeld_cons]
  · rw [finishing, pending, callsFinishing_cons]

omit shape in
/-- The drained batches, with the one of the next call in front. -/
theorem drained_call {parcel : Parcel} (pending : world.calls = call :: rest)
    (held : call.held = {parcel}) :
    world.ledger.drained = parcel ::ₘ { world with calls := rest }.drained := by
  change world.drained = _
  rw [← Multiset.singleton_add]
  simp only [drained, parked, onWire, inHand, pending, callsHeld_cons, held]
  abel

theorem ack_refined {baseOffset logAppendTimeMs : Int}
    (pending : world.calls = .ack key records baseOffset logAppendTimeMs :: rest) :
    Refined world ({ world with calls := rest }.execCall choice
      (.ack key records baseOffset logAppendTimeMs)) := by
  refine ⟨?_, { shape with }⟩
  convert Ledger.Move.ack world.ledger _ _ _
    (drained_call pending (by rfl : _ = {(key, handles records)})) using 1
  simp only [ledger, Ledger.mk.injEq]
  refine ⟨?_, rfl, rfl, ?_, ?_, rfl, ?_, ?_⟩
  · change (acceptances (world.log ++
      acknowledgements key records baseOffset logAppendTimeMs)).map _ = _
    simp
  · simp [execCall, resolve, emit, goto, drained, parked, onWire, inHand, Call.held]
  · simp [execCall, resolve, emit, goto, World.finishing, pending, Call.finishing, Nat.add_comm]
  · change ackedHandles (world.log ++ acknowledgements key records baseOffset logAppendTimeMs) = _
    simp
  · change failedHandles (world.log ++ acknowledgements key records baseOffset logAppendTimeMs) = _
    simp

theorem fail_refined (pending : world.calls = .fail key records error :: rest) :
    Refined world ({ world with calls := rest }.execCall choice (.fail key records error)) := by
  refine ⟨?_, { shape with }⟩
  convert Ledger.Move.fail world.ledger _ _ _
    (drained_call pending (by rfl : _ = {(key, handles records)})) using 1
  simp only [ledger, Ledger.mk.injEq]
  refine ⟨?_, rfl, rfl, ?_, ?_, rfl, ?_, ?_⟩
  · change (acceptances (world.log ++ failures records error)).map _ = _
    simp
  · simp [execCall, failBatch, resolve, emit, goto, drained, parked, onWire, inHand, Call.held]
  · simp [execCall, failBatch, resolve, emit, goto, World.finishing, pending, Call.finishing,
      Nat.add_comm]
  · change ackedHandles (world.log ++ failures records error) = _
    simp
  · change failedHandles (world.log ++ failures records error) = _
    simp

theorem finish_refined (pending : world.calls = .finish :: rest) :
    Refined world ({ world with calls := rest }.execCall choice .finish) := by
  refine ⟨?_, { shape with }⟩
  have more : world.ledger.finishing = callsFinishing rest + 1 := by
    change callsFinishing world.calls = _
    rw [pending, callsFinishing_cons, Nat.add_comm]
    rfl
  convert Ledger.Move.finish world.ledger _ more using 1
  simp only [ledger, Ledger.mk.injEq]
  refine ⟨rfl, rfl, rfl, ?_, rfl, rfl, rfl, rfl⟩
  simp [execCall, drained, parked, onWire, inHand, pending, Call.held]

omit shape in
theorem flagFailure_same (batch : PreparedBatch) (error : ProducerError) :
    SameCustody world (world.flagFailure batch error) := by
  unfold flagFailure
  split <;> exact by constructor <;> rfl

/-- `fence` takes every batch out of its retry slot. -/
theorem fenceRetry_refined (pending : world.calls = .fenceRetry :: rest) :
    Refined world ({ world with calls := rest }.execCall choice .fenceRetry) := by
  refine refined_inside rfl rfl rfl rfl rfl ?_ ?_ ⟨?_, shape.wire, ?_⟩
  · have held : callsHeld ((choice.arrange Prod.fst world.retry.entries).map (fun slot =>
        Call.fail slot.2.key slot.2.records .fencedProducer)) = world.parked := by
      rw [callsHeld_map _ Prod.snd (fun _ => rfl)]
      exact parcels_arrange world choice
    change parcels [] + world.onWire + (world.phase.held + callsHeld ((_ ++ _) ++ rest)) = _
    rw [callsHeld_append, callsHeld_append, held]
    simp [drained, inHand, pending, Call.held]
    abel
  · change callsFinishing ((_ ++ _) ++ rest) = callsFinishing world.calls
    rw [callsFinishing_append, callsFinishing_append, callsFinishing_map _ (fun _ => rfl), pending]
    rfl
  · intro key batch found
    simp [execCall, goto, clearRetry] at found
  · apply Phase.Covers.mono shape.covers
    intro parcel member
    change parcel ∈ 0 + world.onWire + world.phase.held at member
    rw [standing, add_assoc]
    exact Multiset.mem_add.mpr (.inr member)

/-- `fence` empties one accumulator. -/
theorem fenceKeys_refined {keys : List TopicPartition}
    (pending : world.calls = .fenceKeys keys :: rest) :
    Refined world ({ world with calls := rest }.execCall choice (.fenceKeys keys)) := by
  cases keys with
  | nil =>
    have unchanged : Refined world ({ world with calls := rest }.goto [] world.phase) :=
      refined_call shape pending (.refl _) rfl rfl
    exact unchanged
  | cons key keys =>
    have unchanged : Refined world ({ world with calls := rest }.goto [.fenceKeys keys]
        world.phase) :=
      refined_call shape pending (.refl _) rfl rfl
    rw [execCall, fenceKey]
    cases found : world.accumulators.get? key with
    | none => exact unchanged
    | some accumulator =>
      dsimp only
      by_cases locked : choice.locked = true
      · rw [if_pos locked]
        refine refined_emptied found rfl rfl rfl rfl ?_ ?_ { shape with }
        · simp [drained, parked, onWire, inHand, pending, Call.held, goto, setAccumulator,
            failBatch, resolve, emit]
        · simp [World.finishing, pending, Call.finishing, goto, setAccumulator, failBatch,
            resolve, emit]
      · rw [if_neg locked]
        exact unchanged

theorem execCall_refined (pending : world.calls = call :: rest) :
    Refined world ({ world with calls := rest }.execCall choice call) := by
  cases call with
  | ack key records baseOffset logAppendTimeMs => exact ack_refined shape pending
  | terminalFail batch error =>
    exact refined_call shape pending (flagFailure_same batch error) (add_zero _) rfl
  | fail key records error => exact fail_refined shape pending
  | finish => exact finish_refined shape pending
  | fence toFail =>
    refine refined_call shape pending (by constructor <;> rfl) ?_ ?_
    · rw [callsHeld_append, callsHeld_map (fun batch : PreparedBatch =>
        Call.fail batch.key batch.records .fencedProducer) id (fun _ => rfl), map_id]
      exact add_zero _
    · rw [callsFinishing_append, callsFinishing_map (fun batch : PreparedBatch =>
        Call.fail batch.key batch.records .fencedProducer) (fun _ => rfl)]
      rfl
  | fenceRetry => exact fenceRetry_refined shape pending
  | fenceAccumulators => exact refined_call shape pending (.refl _) rfl rfl
  | fenceKeys keys => exact fenceKeys_refined shape pending

end Calls

/-- The partition whose batch the next step of the sender gives back. -/
def returning (world : World) : Option TopicPartition :=
  match world.calls, world.phase with
  | [], .requeue _ _ batch => some batch.key
  | _, _ => none

/-- Every step of the sender task is a move of custody. -/
theorem senderStep_refined {config : Config} {world next : World} {choice : Choice}
    (shape : world.Shape) (distinct : Distinct world.drained)
    (stepped : world.senderStep config choice = some next) :
    RefinedBy world.returning world next := by
  unfold senderStep at stepped
  cases pending : world.calls with
  | cons call rest =>
    rw [pending] at stepped
    cases stepped
    exact .of_refined (execCall_refined shape pending)
  | nil =>
    rw [pending] at stepped
    unfold execPhase at stepped
    cases atPhase : world.phase <;>
      simp only [atPhase, Option.some.injEq, reduceCtorEq] at stepped <;> subst stepped
    case requeue bumped cycle batch =>
      have back : world.returning = some batch.key := by
        rw [returning, pending, atPhase]
      rw [back]
      exact requeueStep_refined shape atPhase
    case schedule | scan | drain | failRecoveredAccumulators | failRecoveredRetrySlots =>
      simp only [scheduleStart, scanStep, afterSchedule, drainStart, sweepStart, retrySlotsStart]
      repeat' split
      all_goals exact .of_refined (refined_goto shape atPhase
        (by constructor <;> rfl) rfl (by simp [Call.held, Phase.held]) rfl trivial)
    all_goals apply RefinedBy.of_refined
    case sweepRecovered => exact sweepKey_refined shape atPhase
    case failRetrySlots => exact retrySlotStep_refined shape atPhase
    case takeExpired => exact takeExpiredKey_refined shape atPhase
    case failUnsent => exact failUnsentStep_refined shape atPhase
    case collectRetries => exact collectRetries_refined shape distinct atPhase
    case expire => exact expireStart_refined shape atPhase
    case expireRepairs => exact expireStep_refined shape distinct atPhase
    case barRetries => exact barRetryStep_refined shape atPhase
    case route => exact routeStep_refined shape distinct atPhase
    case checkEpoch => exact checkEpochStep_refined shape distinct atPhase
    case drainKeys => exact drainKeyStep_refined shape atPhase
    case popReady => exact popReadyStep_refined shape pending atPhase
    case barPopped => exact barPoppedStep_refined shape pending distinct atPhase
    case allocate => exact allocateStep_refined shape atPhase
    case snapshotState => exact snapshotStateStep_refined shape atPhase
    case snapshotIdentity => exact snapshotIdentityStep_refined shape atPhase
    case record => exact recordStep_refined shape distinct atPhase
    case settle => exact settleStep_refined shape distinct atPhase

end World

end Producer
end Krabka
