import Krabka.Producer.Sender

namespace Krabka
namespace Producer

open Collections

/-!
# The completion of Produce requests

`complete_batches`: `CycleVerdicts::record` sorts the verdicts of the completed
requests, and `CycleVerdicts::apply` repairs the sequences, parks the resends,
requeues the split batches and fails the rest.  Then the calls: every way in
which a drained batch releases its in-flight slot, and the fence.
-/

namespace CycleVerdicts

/-- Fail `batch`, which has no retry left. -/
def giveUp (cycle : CycleVerdicts) (batch : PreparedBatch) : CycleVerdicts :=
  let repaired := cycle.recordRepair batch batch.mode.repairAfterFailure
  { repaired with
    failed := repaired.failed ++ [(batch, (batch.lastFailure.getD .transport).error)] }

def failTerminal (cycle : CycleVerdicts) (batch : PreparedBatch) (code : Int)
    (repair : SequenceRepair) : CycleVerdicts :=
  let repaired := cycle.recordRepair batch repair
  { repaired with failed := repaired.failed ++ [(batch, .server code)] }

end CycleVerdicts

namespace World

/-! ## `CycleVerdicts::record` -/

/-- `PipelineState::record_ack`. -/
def recordAck (world : World) (batch : PreparedBatch) (baseOffset : Int) : World :=
  if baseOffset < 0 then world
  else
    let last := baseOffset + batch.recordBatch.lastOffsetDelta
    let kept := match world.lastAckedOffset.get? batch.key with
      | some offset => max offset last
      | none => last
    { world with lastAckedOffset := world.lastAckedOffset.insert batch.key kept }

def recordTransactionFatalError (world : World) (batch : PreparedBatch) (code : Int) : World :=
  if batch.mode = .transactional then
    { world with
      txnError := .fatal (if code = Codes.PRODUCER_FENCED then .fenced else .server code) }
  else world

def recordFenced (world : World) (cycle : CycleVerdicts) (toFail : List PreparedBatch)
    (rest : List BatchSendResult) (result : BatchSendResult) : World :=
  let batch := result.batch
  match result.verdict with
  | .acked baseOffset logAppendTimeMs =>
    world.goto [.ack batch.key batch.records baseOffset logAppendTimeMs] (.record cycle rest)
  | .terminal code _ => world.goto [.terminalFail batch (.server code)] (.record cycle rest)
  | .fatal code =>
    (world.recordTransactionFatalError batch code).goto
      [.fail batch.key batch.records (fatalError code)] (.record cycle rest)
  | .barred barrier =>
    world.goto [.fail batch.key batch.records barrier.error] (.record cycle rest)
  | .retry | .bumpEpochAndRetry | .restartSequenceAndRetry | .split =>
    world.goto [] (.record { cycle with fenced := some (toFail ++ [batch]) } rest)

def recordRetry (config : Config) (world : World) (cycle : CycleVerdicts)
    (rest : List BatchSendResult) (batch : PreparedBatch)
    (again : PreparedBatch -> World) : World :=
  let taken := batch.takeRetry config.retries
  if taken.1 then world.goto [] (.record (cycle.giveUp taken.2) rest) else again taken.2

def recordLive (config : Config) (world : World) (cycle : CycleVerdicts)
    (rest : List BatchSendResult) (result : BatchSendResult) : World :=
  let batch := result.batch
  match result.verdict with
  | .acked baseOffset logAppendTimeMs =>
    (world.recordAck batch baseOffset).goto
      [.ack batch.key batch.records baseOffset logAppendTimeMs] (.record cycle rest)
  | .terminal code repair =>
    world.goto [] (.record (cycle.failTerminal batch code repair) rest)
  | .split => world.goto [] (.record { cycle with splits := cycle.splits ++ [batch] } rest)
  | .retry => world.recordRetry config cycle rest batch
      (fun batch => (world.park batch).goto [] (.record cycle rest))
  | .bumpEpochAndRetry => world.recordRetry config cycle rest batch
      (fun batch =>
        world.goto [] (.record { cycle with rewrites := cycle.rewrites ++ [batch] } rest))
  | .restartSequenceAndRetry => world.recordRetry config cycle rest batch
      (fun batch =>
        world.goto [] (.record { cycle with restarts := cycle.restarts ++ [batch] } rest))
  | .fatal code =>
    (world.recordTransactionFatalError batch code).goto
      [.fail batch.key batch.records (fatalError code)]
      (.record { cycle with fenced := some [] } rest)
  | .barred barrier =>
    world.goto [.fail batch.key batch.records barrier.error] (.record cycle rest)

/-! ## `CycleVerdicts::apply` -/

def applyCycle (world : World) (choice : Choice) (cycle : CycleVerdicts) : World :=
  match cycle.fenced with
  | some toFail =>
    world.goto
      (cycle.failed.map (fun failure => .terminalFail failure.1 failure.2) ++
        [.fence (toFail ++ cycle.restarts ++ cycle.rewrites ++ cycle.splits)])
      .schedule
  | none =>
    if cycle.bumpEpoch || !cycle.rewrites.isEmpty then
      let bumped := world.bumpIdempotentEpoch choice
      bumped.2.goto [] (.settle bumped.1 cycle)
    else world.goto [] (.settle false cycle)

/-- One result of `complete_batches`, or `apply` after the last one. -/
def recordStep (config : Config) (world : World) (choice : Choice) (cycle : CycleVerdicts)
    (results : List BatchSendResult) : World :=
  match results with
  | [] => world.applyCycle choice cycle
  | result :: rest =>
    match cycle.fenced with
    | some toFail => world.recordFenced cycle toFail rest result
    | none => world.recordLive config cycle rest result

/-- `restart_sequence`, with the park that follows it. -/
def restart (world : World) (batch : PreparedBatch) : World :=
  let restarted := batch.restarted
  ({ world with
    nextSeq := world.nextSeq.insert batch.key batch.records.length }.emit
    [.built batch.key restarted.recordBatch (handles batch.records)]).park restarted

/-- `split_and_requeue` up to the accumulator. -/
def splitSequence (world : World) (bumped : Bool) (batch : PreparedBatch) : World :=
  (if batch.mode ≠ .plain ∧ bumped = false then
    { world with nextSeq := world.nextSeq.insert batch.key batch.baseSequence }
  else world).emit [.split batch.key batch.recordBatch]

def settleStep (world : World) (bumped : Bool) (cycle : CycleVerdicts) : World :=
  match cycle.rewrites with
  | batch :: rest =>
    (if bumped then world.restart (batch.stamped world.identity) else world.park batch).goto []
      (.settle bumped { cycle with rewrites := rest })
  | [] =>
    match cycle.repairs with
    | head :: rest => (world.repair head).goto [] (.settle bumped { cycle with repairs := rest })
    | [] =>
      match cycle.restarts with
      | batch :: rest =>
        (world.restart batch).goto [] (.settle bumped { cycle with restarts := rest })
      | [] =>
        match cycle.splits with
        | batch :: rest =>
          (world.splitSequence bumped batch).goto []
            (.requeue bumped { cycle with splits := rest } batch)
        | [] =>
          world.goto
            (cycle.failed.map (fun failure => .terminalFail failure.1 failure.2))
            .schedule

/-- The rest of `split_and_requeue`: the halves go to the front of the queue. -/
def requeueStep (world : World) (bumped : Bool) (cycle : CycleVerdicts)
    (batch : PreparedBatch) : World :=
  match world.accumulators.get? batch.key with
  | none =>
    world.goto [.fail batch.key batch.records (.server Codes.MESSAGE_TOO_LARGE)]
      (.settle bumped cycle)
  | some accumulator =>
    let middle := batch.records.length / 2
    let requeued := (accumulator.pushFront (batch.records.drop middle)
      batch.transactionGeneration batch.createdAt).pushFront (batch.records.take middle)
      batch.transactionGeneration batch.createdAt
    (world.setAccumulator batch.key requeued).goto [.finish] (.settle bumped cycle)

/-! ## Calls -/

/-- `terminal_fail_batch` up to the records: the error of the transaction. -/
def flagFailure (world : World) (batch : PreparedBatch) (error : ProducerError) : World :=
  if batch.mode = .transactional then
    { world with
      txnError := match error with
        | .server code => world.txnError.setAbortable code
        | _ => world.txnError.setAbortableTimeout }
  else world

/-- The compare-exchange of `fence`. -/
def markFenced (world : World) : World :=
  { world with state := if world.state = .active then .fenced else world.state }

def fenceKey (world : World) (choice : Choice) (key : TopicPartition) : World :=
  match world.accumulators.get? key with
  | none => world
  | some accumulator =>
    if choice.locked then
      (world.failBatch
        ((accumulator.current.toList ++ accumulator.ready).flatMap InProgressBatch.records)
        .fencedProducer).setAccumulator key { accumulator with current := none, ready := [] }
    else world

/-- Run one call.  It is no longer among the pending calls of `world`. -/
def execCall (world : World) (choice : Choice) (call : Call) : World :=
  match call with
  | .ack key records baseOffset logAppendTimeMs =>
    (world.resolve records (fun record =>
      .acked (ackMetadata key record baseOffset logAppendTimeMs))).goto [.finish] world.phase
  | .terminalFail batch error =>
    (world.flagFailure batch error).goto [.fail batch.key batch.records error] world.phase
  | .fail _ records error => (world.failBatch records error).goto [.finish] world.phase
  | .finish => { world with inFlight := world.inFlight - 1 }
  | .fence toFail =>
    world.markFenced.goto
      (toFail.map (fun batch => .fail batch.key batch.records .fencedProducer) ++ [.fenceRetry])
      world.phase
  | .fenceRetry =>
    world.clearRetry.goto
      ((choice.arrange Prod.fst world.retry.entries).map
        (fun slot => .fail slot.2.key slot.2.records .fencedProducer) ++ [.fenceAccumulators])
      world.phase
  | .fenceAccumulators => world.goto [.fenceKeys (world.keys choice)] world.phase
  | .fenceKeys [] => world
  | .fenceKeys (key :: rest) => (world.fenceKey choice key).goto [.fenceKeys rest] world.phase

/-- Run one cut of the phase. -/
def execPhase (config : Config) (world : World) (choice : Choice) : Option World :=
  match world.phase with
  | .schedule => some (world.scheduleStart config choice)
  | .scan schedule began keys => some (world.scanStep config schedule began keys)
  | .select => none
  | .stopped => none
  | .drain intent => some (world.drainStart intent)
  | .failRecoveredAccumulators drain => some (world.sweepStart choice drain)
  | .sweepRecovered drain generation keys => some (world.sweepKey drain generation keys)
  | .failRecoveredRetrySlots drain => some (world.retrySlotsStart choice drain)
  | .failRetrySlots drain slots => some (world.retrySlotStep choice drain slots)
  | .takeExpired drain keys expired => some (world.takeExpiredKey config drain keys expired)
  | .failUnsent drain flagged expired => some (world.failUnsentStep drain flagged expired)
  | .collectRetries drain => some (world.collectRetries config choice drain)
  | .expire expired toSend => some (world.expireStart choice expired toSend)
  | .expireRepairs repairs expired toSend => some (world.expireStep repairs expired toSend)
  | .barRetries drain pending kept => some (world.barRetryStep drain pending kept)
  | .route drain toSend => some (world.routeStep config drain toSend)
  | .checkEpoch drain slots routed => some (world.checkEpochStep choice drain slots routed)
  | .drainKeys loop => some (world.drainKeyStep config loop)
  | .popReady loop key leader => some (world.popReadyStep loop key leader)
  | .barPopped loop key leader batch => some (world.barPoppedStep loop key leader batch)
  | .allocate loop key leader batch => some (world.allocateStep loop key leader batch)
  | .snapshotState loop key leader batch baseSequence =>
    some (world.snapshotStateStep config loop key leader batch baseSequence)
  | .snapshotIdentity loop key leader batch baseSequence =>
    some (world.snapshotIdentityStep loop key leader batch baseSequence)
  | .record cycle results => some (world.recordStep config choice cycle results)
  | .settle bumped cycle => some (world.settleStep bumped cycle)
  | .requeue bumped cycle batch => some (world.requeueStep bumped cycle batch)

/-- One cut of the sender task: its next call, or else its phase. -/
def senderStep (config : Config) (world : World) (choice : Choice) : Option World :=
  match world.calls with
  | call :: rest => some ({ world with calls := rest }.execCall choice call)
  | [] => world.execPhase config choice

end World

end Producer
end Krabka
