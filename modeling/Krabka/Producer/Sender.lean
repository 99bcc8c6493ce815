import Krabka.Producer.World

namespace Krabka
namespace Producer

open Collections

/-!
# The sender task

`sender.rs`, one definition per source function, cut at every lock section,
atomic operation and acknowledgement.  `World.senderStep` is one such cut.

A step takes what the program leaves open as its `Choice`: the iteration order
of the hash maps, the answer of `InitProducerId`, and whether `try_lock` gets
the lock.
-/

structure Choice where
  /-- Keys earlier in this list come first in an iteration. -/
  order : List TopicPartition
  /-- The answer of `InitProducerId`, or `none` when the allocation fails. -/
  allocation : Option Identity
  /-- Whether `try_lock` gets the accumulator lock. -/
  locked : Bool
deriving DecidableEq, Repr

def Choice.arrange {Item : Type} (choice : Choice) (key : Item -> TopicPartition)
    (items : List Item) : List Item :=
  items.insertionSort (fun left right =>
    choice.order.idxOf (key left) ≤ choice.order.idxOf (key right))

namespace World

def keys (world : World) (choice : Choice) : List TopicPartition :=
  choice.arrange id world.accumulators.keys

/-! ## `schedule` -/

def reachedDeliveryTimeout (config : Config) (createdAt now : Nat) : Bool :=
  createdAt + config.deliveryTimeout ≤ now

def includeDeadline (schedule : Schedule) (deadline now : Nat) : Schedule :=
  if deadline ≤ now then { schedule with immediate := true }
  else if schedule.deadline.all (fun current => deadline < current) then
    { schedule with deadline := some deadline }
  else schedule

/-- The part of `schedule` that looks at one retry slot. -/
def scheduleRetry (config : Config) (world : World) (schedule : Schedule)
    (batch : PreparedBatch) : Schedule :=
  let schedule := { schedule with settled := false }
  if (world.drainedBarrier batch.transactionGeneration).isSome then
    { schedule with immediate := true }
  else
    let schedule := includeDeadline schedule (batch.createdAt + config.deliveryTimeout) world.now
    if Capacity.available config.maxInFlight world.capacity (world.resolveLeader batch.key) then
      match batch.backoffUntil with
      | some backoffUntil => includeDeadline schedule backoffUntil world.now
      | none => { schedule with immediate := true }
    else schedule

def scheduleStart (config : Config) (world : World) (choice : Choice) : World :=
  let start : Schedule := ⟨false, none, world.retry.entries.isEmpty && world.inFlight == 0⟩
  let schedule := (choice.arrange Prod.fst world.retry.entries).foldl
    (fun schedule slot => world.scheduleRetry config schedule slot.2) start
  world.goto [] (.scan schedule (acceptances world.log).length (world.keys choice))

def scheduleKey (config : Config) (world : World) (schedule : Schedule) (key : TopicPartition)
    (accumulator : Accumulator) : Schedule :=
  if !accumulator.hasCurrent && accumulator.ready.isEmpty then schedule
  else
    let schedule := { schedule with settled := false }
    let schedule :=
      match accumulator.ready.head?.or accumulator.current with
      | some batch =>
        includeDeadline schedule (batch.firstAppendAt + config.deliveryTimeout) world.now
      | none => schedule
    let invalid := world.recoveryScanNeeded &&
      accumulator.batches.any (fun batch =>
        (world.undrainedBarrier batch.transactionGeneration).isSome)
    if invalid then { schedule with immediate := true }
    else if world.retry.contains key || world.occupied.contains key ||
        !Capacity.available config.maxInFlight world.capacity (world.resolveLeader key) then
      schedule
    else
      let schedule :=
        if accumulator.ready.isEmpty then schedule else { schedule with immediate := true }
      match accumulator.current with
      | none => schedule
      | some batch =>
        if batch.isEmpty then schedule
        else if world.force ||
            (world.undrainedBarrier batch.transactionGeneration).isSome then
          { schedule with immediate := true }
        else includeDeadline schedule (batch.firstAppendAt + config.linger) world.now

/-- `drive` after `schedule` returned `schedule`. -/
def afterSchedule (world : World) (schedule : Schedule) : World :=
  if schedule.immediate then
    world.goto [] (.drain (if world.force then .force else .expired))
  else if schedule.settled then
    if world.stopping then { world with force := false }.goto [] .stopped
    else { world with force := false }.goto [] .select
  else world.goto [] .select

def scanStep (config : Config) (world : World) (schedule : Schedule) (began : Nat)
    (keys : List TopicPartition) : World :=
  match keys with
  | [] => world.afterSchedule schedule
  | key :: rest =>
    match world.accumulators.get? key with
    | none => world.goto [] (.scan schedule began rest)
    | some accumulator =>
      world.goto [] (.scan (world.scheduleKey config schedule key accumulator) began rest)

/-! ## `drain_batches`: failures -/

/-- `drain_batches` up to the sweep of the recovered batches. -/
def drainStart (world : World) (intent : DrainIntent) : World :=
  if world.state ≠ .active then world.goto [.fence []] .schedule
  else world.goto [] (.failRecoveredAccumulators ⟨intent, world.now⟩)

def sweepStart (world : World) (choice : Choice) (drain : Drain) : World :=
  if world.recoveryScanNeeded then
    world.goto [] (.sweepRecovered drain world.recoveryGeneration (world.keys choice))
  else world.goto [] (.failRecoveredRetrySlots drain)

def failBarred (world : World) (batches : List InProgressBatch) : World :=
  world.emit (batches.flatMap (fun batch =>
    match world.undrainedBarrier batch.transactionGeneration with
    | some barrier =>
      batch.records.map (fun record => .resolved record.handle (.failed barrier.error))
    | none => []))

/-- Whether no barrier stops `batch`. -/
def passes (world : World) (batch : InProgressBatch) : Bool :=
  (world.undrainedBarrier batch.transactionGeneration).isNone

def sweepKey (world : World) (drain : Drain) (generation : Nat)
    (keys : List TopicPartition) : World :=
  match keys with
  | [] =>
    { world with checkedGeneration := some generation }.goto [] (.failRecoveredRetrySlots drain)
  | key :: rest =>
    match world.accumulators.get? key with
    | none => world.goto [] (.sweepRecovered drain generation rest)
    | some accumulator =>
      let swept := world.failBarred (accumulator.current.toList ++ accumulator.ready)
      (swept.setAccumulator key { accumulator with
        current := accumulator.current.filter world.passes
        ready := accumulator.ready.filter world.passes }).goto []
        (.sweepRecovered drain generation rest)

def retrySlotsStart (world : World) (choice : Choice) (drain : Drain) : World :=
  let recovered := (choice.arrange Prod.fst world.retry.entries).filterMap (fun slot =>
    (world.drainedBarrier slot.2.transactionGeneration).map (fun barrier => (slot.1, barrier)))
  world.goto [] (.failRetrySlots drain recovered)

def retrySlotStep (world : World) (choice : Choice) (drain : Drain)
    (slots : List (TopicPartition × Barrier)) : World :=
  match slots with
  | [] => world.goto [] (.takeExpired drain (world.keys choice) [])
  | (key, barrier) :: rest =>
    match world.retry.get? key with
    | none => world.goto [] (.failRetrySlots drain rest)
    | some batch =>
      { world with retry := world.retry.erase key }.goto [.fail batch.key batch.records barrier.error]
        (.failRetrySlots drain rest)

/-- The batches that `take_expired_accumulator_batches` takes from an
accumulator, and the accumulator without them. -/
def splitExpired (config : Config) (now : Nat) (accumulator : Accumulator) :
    List InProgressBatch × Accumulator :=
  let reached := fun (batch : InProgressBatch) =>
    reachedDeliveryTimeout config batch.firstAppendAt now
  let expired := accumulator.ready.takeWhile reached
  let ready := accumulator.ready.dropWhile reached
  match accumulator.current with
  | some batch =>
    if ready.isEmpty && (!batch.isEmpty && reached batch) then
      (expired ++ [batch], { accumulator with current := none, ready := ready })
    else (expired, { accumulator with ready := ready })
  | none => (expired, { accumulator with ready := ready })

def takeExpiredKey (config : Config) (world : World) (drain : Drain)
    (keys : List TopicPartition) (expired : List InProgressBatch) : World :=
  match keys with
  | [] => world.goto [] (.failUnsent drain false expired)
  | key :: rest =>
    match world.accumulators.get? key with
    | none => world.goto [] (.takeExpired drain rest expired)
    | some accumulator =>
      let taken := splitExpired config drain.now accumulator
      (world.setAccumulator key taken.2).goto []
        (.takeExpired drain rest (expired ++ taken.1))

def failUnsentStep (world : World) (drain : Drain) (flagged : Bool)
    (expired : List InProgressBatch) : World :=
  match expired with
  | [] => world.goto [] (.collectRetries drain)
  | batch :: rest =>
    if flagged then
      (world.failBatch batch.records .sendTimeout).goto [] (.failUnsent drain false rest)
    else
      { world with
        txnError := if batch.transactionGeneration.isSome
          then world.txnError.setAbortableTimeout else world.txnError }.goto []
        (.failUnsent drain true (batch :: rest))

/-! ## `drain_batches`: resends -/

def collectRetries (config : Config) (world : World) (choice : Choice) (drain : Drain) : World :=
  let slots := (choice.arrange Prod.fst world.retry.entries).map Prod.snd
  let reached := fun (batch : PreparedBatch) =>
    reachedDeliveryTimeout config batch.createdAt drain.now
  let waits := fun (batch : PreparedBatch) => batch.backoffUntil.any (fun time => drain.now < time)
  let expired := slots.filter reached
  let live := slots.filter (fun batch => !reached batch)
  let toSend := (live.filter (fun batch => !waits batch)).map
    (fun batch => { batch with backoffUntil := none })
  let parked := live.filter waits
  let drained := parked.foldl park world.clearRetry
  if expired.isEmpty then drained.goto [] (.barRetries drain toSend [])
  else drained.goto [] (.expire expired toSend)

/-- `bump_idempotent_epoch`: the world after it, and whether it succeeded. -/
def bumpIdempotentEpoch (world : World) (choice : Choice) : Bool × World :=
  if world.identity.producerEpoch < I16_MAX then
    (true, { world with
      identity := ⟨world.identity.producerId, world.identity.producerEpoch + 1⟩
      nextSeq := SortedMap.empty })
  else
    match choice.allocation with
    | none => (false, world)
    | some allocated =>
      if allocated.producerId < 0 ∨ allocated.producerEpoch < 0 then (false, world)
      else (true, { world with identity := allocated, nextSeq := SortedMap.empty })

def expireVerdicts (expired : List PreparedBatch) : CycleVerdicts :=
  expired.foldl (fun cycle batch => cycle.recordRepair batch batch.mode.repairAfterFailure)
    CycleVerdicts.default

def expireStart (world : World) (choice : Choice) (expired toSend : List PreparedBatch) : World :=
  let verdicts := expireVerdicts expired
  if verdicts.bumpEpoch then
    (world.bumpIdempotentEpoch choice).2.goto [] (.expireRepairs [] expired toSend)
  else world.goto [] (.expireRepairs verdicts.repairs expired toSend)

def repair (world : World) (repair : TopicPartition × SequenceRepair × Int) : World :=
  if repair.2.1 = .giveBack then
    { world with nextSeq := world.nextSeq.insert repair.1 repair.2.2 }
  else { world with nextSeq := world.nextSeq.erase repair.1 }

def expireStep (world : World) (repairs : List (TopicPartition × SequenceRepair × Int))
    (expired toSend : List PreparedBatch) : World :=
  match repairs with
  | head :: rest => (world.repair head).goto [] (.expireRepairs rest expired toSend)
  | [] =>
    (toSend.foldl park world).goto (expired.map (fun batch => .terminalFail batch .sendTimeout))
      .schedule

def barRetryStep (world : World) (drain : Drain) (pending kept : List PreparedBatch) : World :=
  match pending with
  | [] => world.goto [] (.route drain kept)
  | batch :: rest =>
    match world.drainedBarrier batch.transactionGeneration with
    | some barrier =>
      world.goto [.fail batch.key batch.records barrier.error] (.barRetries drain rest kept)
    | none => world.goto [] (.barRetries drain rest (kept ++ [batch]))

/-- Give each resend a slot of its connection: the slots after it, the resends
with their leaders, and the resends that found no slot. -/
def routeRetries (config : Config) (world : World) :
    SortedMap Int Nat -> List PreparedBatch ->
      SortedMap Int Nat × List (Int × PreparedBatch) × List PreparedBatch
  | slots, [] => (slots, [], [])
  | slots, batch :: rest =>
    let leader := world.resolveLeader batch.key
    if Capacity.available config.maxInFlight slots leader then
      let routes := routeRetries config world (Capacity.reserve slots leader) rest
      (routes.1, (leader, batch) :: routes.2.1, routes.2.2)
    else
      let routes := routeRetries config world slots rest
      (routes.1, routes.2.1, batch :: routes.2.2)

/-- Route the resends, and park those without a slot again. -/
def routeStep (config : Config) (world : World) (drain : Drain)
    (toSend : List PreparedBatch) : World :=
  let routes := world.routeRetries config world.capacity toSend
  (routes.2.2.foldl park world).goto [] (.checkEpoch drain routes.1 routes.2.1)

/-- The check of an exhausted epoch, and the start of the loop over the
accumulators. -/
def checkEpochStep (world : World) (choice : Choice) (drain : Drain)
    (slots : SortedMap Int Nat) (routed : List (Int × PreparedBatch)) : World :=
  let bumped :=
    if world.identity.producerEpoch = I16_MAX then world.bumpIdempotentEpoch choice
    else (true, world)
  if bumped.1 then
    bumped.2.goto [] (.drainKeys
      { drain := drain
        keys := world.keys choice
        occupied := routed.map (fun route => route.2.key) ++ world.retry.keys ++ world.occupied
        slots := slots
        routed := routed })
  else ((routed.map Prod.snd).foldl park world).goto [] .schedule

/-! ## `drain_batches`: new batches -/

/-- `drive` after `drain_batches`: start the requests. -/
def launch (world : World) (routed : List (Int × PreparedBatch)) : World :=
  { world with
    capacity := routed.foldl (fun used route => Capacity.reserve used route.1) world.capacity
    occupied := world.occupied ++ routed.map (fun route => route.2.key)
    requests := world.requests ++ routed.map (fun route =>
      ⟨route.1, route.2, world.lastAckedOffset.get? route.2.key, .queued⟩) }

/-- Whether this drain seals `batch`, the current batch of a partition. -/
def shouldSeal (config : Config) (world : World) (drain : Drain) (batch : InProgressBatch) :
    Bool :=
  !batch.isEmpty &&
    (drain.intent == .force ||
      (world.undrainedBarrier batch.transactionGeneration).isSome ||
      (drain.intent == .expired && drain.now - batch.firstAppendAt ≥ config.linger))

/-- The loop over the accumulators: skip an occupied or a capped partition,
and seal the current batch of another one. -/
def drainKeyStep (config : Config) (world : World) (loop : DrainLoop) : World :=
  match loop.keys with
  | [] => (world.launch loop.routed).goto [] .schedule
  | key :: rest =>
    let leader := world.resolveLeader key
    let next := { loop with keys := rest }
    match world.accumulators.get? key with
    | none => world.goto [] (.drainKeys next)
    | some accumulator =>
      if !Capacity.available config.maxInFlight loop.slots leader ||
          loop.occupied.contains key then
        world.goto [] (.drainKeys next)
      else if accumulator.current.any (world.shouldSeal config loop.drain) then
        (world.setAccumulator key accumulator.sealCurrent).goto [] (.popReady next key leader)
      else world.goto [] (.popReady next key leader)

/-- `pop_ready_batch`: the batch counts as in flight before the lock is
released. -/
def popReadyStep (world : World) (loop : DrainLoop) (key : TopicPartition) (leader : Int) :
    World :=
  match world.accumulators.get? key with
  | none => world.goto [] (.drainKeys loop)
  | some accumulator =>
    match accumulator.ready with
    | [] => world.goto [] (.drainKeys loop)
    | batch :: rest =>
      ({ world with inFlight := world.inFlight + 1 }.setAccumulator key
        { accumulator with ready := rest }).goto [] (.barPopped loop key leader batch)

def barPoppedStep (world : World) (loop : DrainLoop) (key : TopicPartition) (leader : Int)
    (batch : InProgressBatch) : World :=
  match world.undrainedBarrier batch.transactionGeneration with
  | some barrier => world.goto [.fail key batch.records barrier.error] (.drainKeys loop)
  | none => world.goto [] (.allocate loop key leader batch)

def allocateStep (world : World) (loop : DrainLoop) (key : TopicPartition) (leader : Int)
    (batch : InProgressBatch) : World :=
  let baseSequence := world.nextSequence key
  { world with
    nextSeq := world.nextSeq.insert key (wrappingAdd baseSequence batch.records.length) }.goto []
    (.snapshotState loop key leader batch baseSequence)

def buildBatch (key : TopicPartition) (batch : InProgressBatch) (baseSequence : Int)
    (transactional : Bool) (identity : Identity) : PreparedBatch where
  key := key
  baseSequence := baseSequence
  recordBatch := ⟨transactional, batch.records.length - 1, identity, baseSequence⟩
  records := batch.records
  createdAt := batch.firstAppendAt
  backoffUntil := none
  retriesUsed := 0
  lastFailure := none
  transactionGeneration := batch.transactionGeneration

/-- The end of one pass of the loop: add a built batch to the send list. -/
def addBuilt (world : World) (loop : DrainLoop) (leader : Int) (batch : PreparedBatch) : World :=
  (world.emit [.built batch.key batch.recordBatch (handles batch.records)]).goto []
    (.drainKeys { loop with
      occupied := batch.key :: loop.occupied
      slots := Capacity.reserve loop.slots leader
      routed := loop.routed ++ [(leader, batch)] })

/-- Whether `txn_pid_snapshot` takes the transactional identity in `state`. -/
def inActiveTransaction (state : TxnState) : Bool :=
  state == .inTransaction || state == .preparing || state == .committingOrAborting

def snapshotStateStep (config : Config) (world : World) (loop : DrainLoop)
    (key : TopicPartition) (leader : Int) (batch : InProgressBatch) (baseSequence : Int) : World :=
  if config.transactional && inActiveTransaction world.txnState then
    world.goto [] (.snapshotIdentity loop key leader batch baseSequence)
  else world.addBuilt loop leader (buildBatch key batch baseSequence false world.identity)

/-- `txn_pid_snapshot` reads the transactional identity. -/
def snapshotIdentityStep (world : World) (loop : DrainLoop)
    (key : TopicPartition) (leader : Int) (batch : InProgressBatch) (baseSequence : Int) : World :=
  world.addBuilt loop leader (buildBatch key batch baseSequence true world.txnIdentity)

end World

end Producer
end Krabka
