import Krabka.Collections.SortedMap
import Krabka.Producer.Verdict
import Mathlib.Data.List.Sort

namespace Krabka
namespace Producer

open Collections

/-!
# The state of a running producer

One producer at the granularity of its lock sections and atomic operations:
the fields that `Producer` and the sender task share, the pipeline state and
the program position of the sender task, the Produce requests on the wire,
and the client calls in progress.

A program position is data.  `Phase` is the place inside `drive`, with the
local variables that are live there, and `Call` is a pending piece of work on
one batch, such as the release of its in-flight slot.  The sender runs its
calls before it goes on with its phase.

`log` is the history of the run.  No step reads it, except to number the next
accepted record.  The load statistics of the partitioner, the buffer memory,
the topic ids and the wake channel are left out.
-/

/-! ## Configuration -/

inductive Acks where
  | zero
  | one
  | all
deriving DecidableEq, Repr

/-- The producer configuration after the checks of the builder.

`identity` is the producer id of `InitProducerId`, and `-1` without
idempotence.  `transactionalIdentity` is present for a producer with a
transactional id, and holds the identity that `init_transactions` adopted. -/
structure Config where
  acks : Acks
  linger : Nat
  deliveryTimeout : Nat
  retries : Int
  maxInFlight : Nat
  batchSize : Nat
  identity : Identity
  transactionalIdentity : Option Identity
  idempotent_acks : identity.producerId ≥ 0 -> acks = .all
  transactional_idempotent : transactionalIdentity.isSome = true -> identity.producerId ≥ 0
  /-- A broker gives no producer id twice. -/
  identities_distinct : forall transactional, transactionalIdentity = some transactional ->
    transactional.producerId ≠ identity.producerId

namespace Config

/-- Whether the producer has a transactional id. -/
def transactional (config : Config) : Bool := config.transactionalIdentity.isSome

end Config

def I16_MAX : Int := 32767

/-- The sum of two `i32` values as `wrapping_add` gives it. -/
def wrappingAdd (left right : Int) : Int := Int.bmod (left + right) (2 ^ 32)

/-! ## History -/

structure Acceptance where
  key : TopicPartition
  transaction : Option Nat
deriving DecidableEq, Repr

inductive Event where
  /-- `enqueue` appended a record.  Records are numbered in this order. -/
  | accepted (acceptance : Acceptance)
  /-- The acknowledgement channel of a record received its outcome. -/
  | resolved (handle : Nat) (outcome : Outcome)
  /-- The sender gave a batch its sequence and its identity. -/
  | built (key : TopicPartition) (batch : RecordBatch) (handles : List Nat)
  /-- The sender split a rejected batch. -/
  | split (key : TopicPartition) (batch : RecordBatch)
  /-- A Produce request went on the wire. -/
  | sent (key : TopicPartition) (batch : RecordBatch) (handles : List Nat)
  | appended (key : TopicPartition) (batch : RecordBatch) (handles : List Nat)
  /-- `flush` returned `Ok`.  `since` records were accepted before the call. -/
  | flushed (since : Nat)
  /-- `abort_undrained_batches` started on a transaction. -/
  | aborting (transaction : Nat)
  /-- `EndTxn` went on the wire. -/
  | endTxn (transaction : Nat) (committed : Bool)
  /-- `end_transaction` returned `Ok`. -/
  | ended (transaction : Nat) (committed : Bool)
deriving DecidableEq, Repr

/-- The accepted records of a history, by handle. -/
def acceptances (log : List Event) : List Acceptance :=
  log.filterMap (fun event =>
    match event with
    | .accepted acceptance => some acceptance
    | _ => none)

/-- The resolved records of a history with their outcomes. -/
def resolutions (log : List Event) : List (Nat × Outcome) :=
  log.filterMap (fun event =>
    match event with
    | .resolved handle outcome => some (handle, outcome)
    | _ => none)

/-! ## The sender task -/

inductive DrainIntent where
  | ready
  | expired
  | force
deriving DecidableEq, Repr

structure Schedule where
  immediate : Bool
  deadline : Option Nat
  settled : Bool
deriving DecidableEq, Repr

/-- How far a Produce request is. -/
inductive Progress where
  | queued
  | sent
  | done (verdict : BatchVerdict)
deriving DecidableEq, Repr

/-- One future of `FuturesUnordered`: `send_one_batch_to_leader`. -/
structure Request where
  leader : Int
  batch : PreparedBatch
  lastAckedOffset : Option Int
  progress : Progress
deriving DecidableEq, Repr

/-- The arguments of a `drain_batches` call that stay fixed. -/
structure Drain where
  intent : DrainIntent
  now : Nat
deriving DecidableEq, Repr

/-- The locals of the loop over the accumulators in `drain_batches`. -/
structure DrainLoop where
  drain : Drain
  keys : List TopicPartition
  occupied : List TopicPartition
  slots : SortedMap Int Nat
  routed : List (Int × PreparedBatch)
deriving DecidableEq

/-- The place of the sender task in `drive`. -/
inductive Phase where
  /-- The top of the loop.  `schedule` starts. -/
  | schedule
  /-- `schedule` has `keys` left.  `began` records were accepted before it. -/
  | scan (schedule : Schedule) (began : Nat) (keys : List TopicPartition)
  /-- Inside `tokio::select!`. -/
  | select
  | stopped
  | drain (intent : DrainIntent)
  | failRecoveredAccumulators (drain : Drain)
  | sweepRecovered (drain : Drain) (generation : Nat) (keys : List TopicPartition)
  | failRecoveredRetrySlots (drain : Drain)
  | failRetrySlots (drain : Drain) (slots : List (TopicPartition × Barrier))
  | takeExpired (drain : Drain) (keys : List TopicPartition) (expired : List InProgressBatch)
  /-- `flagged` holds once the transaction error of the first batch is set. -/
  | failUnsent (drain : Drain) (flagged : Bool) (expired : List InProgressBatch)
  | collectRetries (drain : Drain)
  | expire (expired toSend : List PreparedBatch)
  | expireRepairs (repairs : List (TopicPartition × SequenceRepair × Int))
      (expired toSend : List PreparedBatch)
  | barRetries (drain : Drain) (pending kept : List PreparedBatch)
  | route (drain : Drain) (toSend : List PreparedBatch)
  | checkEpoch (drain : Drain) (slots : SortedMap Int Nat) (routed : List (Int × PreparedBatch))
  | drainKeys (loop : DrainLoop)
  | popReady (loop : DrainLoop) (key : TopicPartition) (leader : Int)
  | barPopped (loop : DrainLoop) (key : TopicPartition) (leader : Int) (batch : InProgressBatch)
  | allocate (loop : DrainLoop) (key : TopicPartition) (leader : Int) (batch : InProgressBatch)
  | snapshotState (loop : DrainLoop) (key : TopicPartition) (leader : Int)
      (batch : InProgressBatch) (baseSequence : Int)
  | snapshotIdentity (loop : DrainLoop) (key : TopicPartition) (leader : Int)
      (batch : InProgressBatch) (baseSequence : Int)
  | record (cycle : CycleVerdicts) (results : List BatchSendResult)
  | settle (bumped : Bool) (cycle : CycleVerdicts)
  | requeue (bumped : Bool) (cycle : CycleVerdicts) (batch : PreparedBatch)
deriving DecidableEq

/-- Pending work of the sender on one batch, or on the queues of a fence. -/
inductive Call where
  | ack (key : TopicPartition) (records : List PendingRecord) (baseOffset logAppendTimeMs : Int)
  | terminalFail (batch : PreparedBatch) (error : ProducerError)
  | fail (key : TopicPartition) (records : List PendingRecord) (error : ProducerError)
  | finish
  | fence (toFail : List PreparedBatch)
  | fenceRetry
  | fenceAccumulators
  | fenceKeys (keys : List TopicPartition)
deriving DecidableEq

/-! ## Client calls -/

/-- The place in `flush`. -/
inductive Flushing where
  | start
  | waiting
  | scan (scanned remaining : List TopicPartition)
deriving DecidableEq, Repr

/-- The call that a `flush` is part of. -/
inductive Purpose where
  | flush
  | close
  | commit (previous : TxnState)
deriving DecidableEq, Repr

/-- What `send_end_txn_until_decided` gives. -/
inductive EndTxnDecision where
  | complete
  | fenced
  | concurrentTransactions
  | abortable (code : Int)
  | fatal (code : Int)
  | timedOut (code : Int)
  | outcomeUnknown
deriving DecidableEq, Repr

/-- A client call in progress, at its place in the source. -/
inductive Task where
  | begin
  | flush (purpose : Purpose) (since : Nat) (flushing : Flushing)
  | closeState
  | closeSender
  | endTransaction (committed : Bool)
  | checkCommit (previous : TxnState)
  | abortUndrained (previous : TxnState)
  | sweep (previous : TxnState) (swept remaining : List TopicPartition)
  | awaitInFlight (previous : TxnState)
  | coordinator (committed : Bool) (previous : TxnState)
  | sendEndTxn (committed : Bool) (previous : TxnState)
  | applyEndTxn (committed : Bool) (previous : TxnState) (decision : EndTxnDecision)
      (identity : Option Identity)
  | clearAbortable (committed : Bool)
  | becomeReady (committed : Bool)
  | requireRecovery
  | setFatal (error : FatalError)
  | setAbortable (code : Int)
  | restore (previous : TxnState)
  | done
deriving DecidableEq, Repr

inductive ProducerState where
  | active
  | fenced
  | closed
deriving DecidableEq, Repr

structure World where
  now : Nat
  accumulators : SortedMap TopicPartition Accumulator
  nextSeq : SortedMap TopicPartition Int
  identity : Identity
  state : ProducerState
  inFlight : Int
  shutdown : Bool
  partitionLeaders : SortedMap TopicPartition Int
  knownBrokers : List Int
  txnState : TxnState
  txnIdentity : Identity
  txnError : TxnError
  recoveryRequired : Bool
  recoveryGeneration : Nat
  retry : SortedMap TopicPartition PreparedBatch
  lastAckedOffset : SortedMap TopicPartition Int
  checkedGeneration : Option Nat
  occupied : List TopicPartition
  capacity : SortedMap Int Nat
  requests : List Request
  force : Bool
  stopping : Bool
  phase : Phase
  calls : List Call
  tasks : List Task
  transactions : Nat
  log : List Event

namespace World

/-- A producer after its construction, and after `init_transactions` when it
has a transactional id. -/
def start (config : Config) : World where
  now := 0
  accumulators := SortedMap.empty
  nextSeq := SortedMap.empty
  identity := config.identity
  state := .active
  inFlight := 0
  shutdown := false
  partitionLeaders := SortedMap.empty
  knownBrokers := []
  txnState := if config.transactional then .ready else .uninitialized
  txnIdentity := config.transactionalIdentity.getD ⟨-1, -1⟩
  txnError := .none
  recoveryRequired := false
  recoveryGeneration := 0
  retry := SortedMap.empty
  lastAckedOffset := SortedMap.empty
  checkedGeneration := none
  occupied := []
  capacity := SortedMap.empty
  requests := []
  force := false
  stopping := false
  phase := .schedule
  calls := []
  tasks := []
  transactions := 0
  log := []

/-- Go to `phase`, after `calls`. -/
def goto (world : World) (calls : List Call) (phase : Phase) : World :=
  { world with calls := calls ++ world.calls, phase := phase }

/-- Add `events` to the history. -/
def emit (world : World) (events : List Event) : World :=
  { world with log := world.log ++ events }

def resolve (world : World) (records : List PendingRecord)
    (outcome : PendingRecord -> Outcome) : World :=
  world.emit (records.map (fun record => .resolved record.handle (outcome record)))

def failBatch (world : World) (records : List PendingRecord) (error : ProducerError) : World :=
  world.resolve records (fun _ => .failed error)

def setAccumulator (world : World) (key : TopicPartition) (accumulator : Accumulator) : World :=
  { world with accumulators := world.accumulators.insert key accumulator }

def park (world : World) (batch : PreparedBatch) : World :=
  { world with retry := world.retry.insert batch.key batch }

/-- Drain the retry slots. -/
def clearRetry (world : World) : World := { world with retry := SortedMap.empty }

def nextSequence (world : World) (key : TopicPartition) : Int :=
  (world.nextSeq.get? key).getD 0

/-! ## Barriers -/

def drainedBarrier (world : World) (generation : Option Nat) : Option Barrier :=
  match generation with
  | none => none
  | some batchGeneration =>
    match world.txnError.fatal? with
    | some error => some (.fatal error)
    | none =>
      if world.recoveryRequired || batchGeneration != world.recoveryGeneration
      then some .recoveryRequired
      else none

/-- The barrier of a batch that is still in an accumulator. -/
def undrainedBarrier (world : World) (generation : Option Nat) : Option Barrier :=
  (world.drainedBarrier generation).or
    (match generation with
    | none => none
    | some _ => world.txnError.abortable?.map .abortable)

def recoveryScanNeeded (world : World) : Bool :=
  world.checkedGeneration != some world.recoveryGeneration || world.recoveryRequired ||
    world.txnError.fatal?.isSome || world.txnError.abortable?.isSome

/-! ## Routes -/

/-- The synthetic leader id of the bootstrap connection. -/
def BOOTSTRAP_LEADER : Int := -1

def resolveLeader (world : World) (key : TopicPartition) : Int :=
  match world.partitionLeaders.get? key with
  | some id =>
    if id ≥ 0 ∧ world.knownBrokers.contains id = true then id else BOOTSTRAP_LEADER
  | none => BOOTSTRAP_LEADER

end World

/-! ## Connection capacity -/

namespace Capacity

def available (limit : Nat) (used : SortedMap Int Nat) (leader : Int) : Bool :=
  (used.get? leader).getD 0 < limit

def reserve (used : SortedMap Int Nat) (leader : Int) : SortedMap Int Nat :=
  used.insert leader ((used.get? leader).getD 0 + 1)

def release (used : SortedMap Int Nat) (leader : Int) : SortedMap Int Nat :=
  match used.get? leader with
  | none => used
  | some count =>
    if count - 1 = 0 then used.erase leader else used.insert leader (count - 1)

end Capacity

end Producer
end Krabka
