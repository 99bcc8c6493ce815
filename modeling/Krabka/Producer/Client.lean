import Krabka.Producer.Completion

namespace Krabka
namespace Producer

open Collections

/-!
# Client calls

The calls of `producer.rs` that meet the sender task: the lock sections of
`enqueue`, `flush`, `close`, `begin_transaction` and `end_transaction`.

`enqueue` holds the transaction state from its last check to the append, so
the two are one step.  A wait for a notification may end at any time, and the
retry loop of `EndTxn` gives any decision.  `init_transactions` and two-phase
commit are left out.
-/

/-- What a client call leaves open. -/
structure TaskChoice where
  /-- The iteration order of the accumulators. -/
  order : List TopicPartition
  /-- Whether the flush deadline ended. -/
  timedOut : Bool
  /-- Whether a transaction coordinator is cached. -/
  coordinator : Bool
  /-- The decision on one `EndTxn` attempt with the identity of its answer, or
  `none` to send it again. -/
  attempt : Option (EndTxnDecision × Option Identity)
deriving DecidableEq, Repr

namespace World

/-! ## `enqueue` -/

def appendGeneration (config : Config) (world : World) : Option (Option Nat) :=
  if config.transactional then
    if world.txnError = .none ∧ world.recoveryRequired = false ∧
        world.txnState = .inTransaction then
      some (some world.recoveryGeneration)
    else none
  else if world.recoveryRequired then none
  else some none

/-- `enqueue` finds or makes the accumulator of `key`. -/
def openAccumulator (config : Config) (world : World) (key : TopicPartition) : World :=
  if world.accumulators.contains key then world
  else world.setAccumulator key (Accumulator.new config.batchSize)

/-- `enqueue` closes a batch that the record does not fit. -/
def sealFull (config : Config) (world : World) (key : TopicPartition) (payload : Payload) :
    Option World :=
  match world.appendGeneration config, world.accumulators.get? key with
  | some generation, some accumulator =>
    if accumulator.needsNewBatch (approxRecordSize payload) generation &&
        accumulator.hasCurrent then
      some (world.setAccumulator key accumulator.sealCurrent)
    else some world
  | _, _ => none

/-- The number of the open transaction, for a record that is accepted now. -/
def openTransaction (config : Config) (world : World) : Option Nat :=
  if config.transactional then some world.transactions else none

/-- `enqueue` appends the record and returns its delivery handle. -/
def append (config : Config) (world : World) (key : TopicPartition) (payload : Payload) :
    Option World :=
  match world.appendGeneration config, world.accumulators.get? key with
  | some generation, some accumulator =>
    if world.state = .active then
      some ((world.setAccumulator key
        (accumulator.append (acceptances world.log).length payload generation world.now)).emit
        [.accepted ⟨key, world.openTransaction config⟩])
    else none
  | _, _ => none

/-- `register_transaction_partition` fails inside `enqueue`. -/
def registerFails (config : Config) (world : World) (error : TxnError) : Option World :=
  match world.appendGeneration config with
  | some (some _) =>
    let failed := match error with
      | .none => world.txnError
      | .abortable _ => world.txnError.storeAbortable error
      | .fatal _ => error
    some { world with
      txnError := failed
      txnState := match failed.fatal? with
        | some fatal => fatal.state
        | none => world.txnState }
  | _ => none

/-! ## `flush` -/

inductive FlushResult where
  | again (flushing : Flushing)
  | ok
  | failed
deriving DecidableEq, Repr

/-- Whether the accumulator of `key` holds no record (`all_empty`). -/
def isEmptyAt (world : World) (key : TopicPartition) : Bool :=
  match world.accumulators.get? key with
  | none => true
  | some accumulator => !accumulator.hasCurrent && accumulator.ready.isEmpty

/-- One cut of `flush`.  It writes nothing. -/
def flushStep (world : World) (choice : TaskChoice) (flushing : Flushing) : FlushResult :=
  match flushing with
  | .start => if world.state = .active then .again .waiting else .failed
  | .waiting =>
    if choice.timedOut then .failed
    else .again (.scan [] (world.keys ⟨choice.order, none, false⟩))
  | .scan scanned (key :: rest) =>
    if choice.timedOut then .failed
    else if world.isEmptyAt key then .again (.scan (scanned ++ [key]) rest)
    else .again .waiting
  | .scan _ [] =>
    if choice.timedOut then .failed
    else if world.inFlight = 0 then .ok
    else .again .waiting

def afterFlush (world : World) (purpose : Purpose) (since : Nat) : World × Task :=
  (world.emit [.flushed since],
    match purpose with
    | .flush => .done
    | .close => .closeState
    | .commit previous => .checkCommit previous)

def afterFailedFlush (purpose : Purpose) : Task :=
  match purpose with
  | .flush => .done
  | .close => .done
  | .commit previous => .restore previous

/-! ## `end_transaction` -/

def endTransactionStep (world : World) (committed : Bool) : World × Task :=
  let previous := world.txnState
  if previous = .inTransaction ∨ previous = .prepared then
    ({ world with txnState := .committingOrAborting },
      if committed then .flush (.commit previous) (acceptances world.log).length .start
      else .abortUndrained previous)
  else (world, .done)

def abortKey (world : World) (key : TopicPartition) : World :=
  match world.accumulators.get? key with
  | none => world
  | some accumulator =>
    (world.failBatch
      ((accumulator.current.toList ++ accumulator.ready).flatMap InProgressBatch.records)
      .transactionAborted).setAccumulator key { accumulator with current := none, ready := [] }

def adoptIdentity (world : World) (identity : Identity) : World :=
  { world with
    nextSeq := if world.txnIdentity = identity then world.nextSeq else SortedMap.empty
    txnIdentity := identity }

def requireTransactionRecovery (world : World) : World :=
  { world with
    recoveryRequired := true
    recoveryGeneration :=
      if world.recoveryRequired then world.recoveryGeneration else world.recoveryGeneration + 1 }

/-- `apply_end_txn` up to its next shared write. -/
def applyEndTxnStep (world : World) (committed : Bool) (previous : TxnState)
    (decision : EndTxnDecision) (identity : Option Identity) : World × Task :=
  match decision with
  | .complete =>
    (match identity with
      | some identity => world.adoptIdentity identity
      | none => world,
      .clearAbortable committed)
  | .fenced => ({ world with txnState := .fenced }, .setFatal .fenced)
  | .fatal code => ({ world with txnState := .fatalError }, .setFatal (.server code))
  | .concurrentTransactions => ({ world with txnState := previous }, .done)
  | .timedOut _ => ({ world with txnState := previous }, .done)
  | .abortable code => ({ world with txnState := previous }, .setAbortable code)
  | .outcomeUnknown => (world.requireTransactionRecovery, .requireRecovery)

/-! ## Steps of a client call -/

/-- One cut of a client call: the world and the task after it. -/
def taskStep (world : World) (choice : TaskChoice) (task : Task) : Option (World × Task) :=
  match task with
  | .begin =>
    if world.txnState = .ready then
      some ({ world with
        txnState := .inTransaction, transactions := world.transactions + 1 }, .done)
    else some (world, .done)
  | .flush purpose since flushing =>
    match world.flushStep choice flushing with
    | .again next => some (world, .flush purpose since next)
    | .ok => some (world.afterFlush purpose since)
    | .failed => some (world, afterFailedFlush purpose)
  | .closeState => some ({ world with state := .closed }, .closeSender)
  | .closeSender => some ({ world with shutdown := true }, .done)
  | .endTransaction committed => some (world.endTransactionStep committed)
  | .checkCommit previous =>
    -- Only the abortable error is checked here, not the fatal one.
    if world.txnError.abortable?.isSome then some (world, .restore previous)
    else some (world, .coordinator true previous)
  | .abortUndrained previous =>
    if world.state = .active then
      some (world.emit [.aborting world.transactions],
        .sweep previous [] (world.keys ⟨choice.order, none, false⟩))
    else some (world, .restore previous)
  | .sweep previous swept (key :: rest) =>
    some (world.abortKey key, .sweep previous (swept ++ [key]) rest)
  | .sweep previous _ [] => some (world, .awaitInFlight previous)
  | .awaitInFlight previous =>
    if choice.timedOut then some (world, .restore previous)
    else if world.inFlight = 0 then some (world, .coordinator false previous)
    else some (world, .awaitInFlight previous)
  | .coordinator committed previous =>
    if choice.coordinator then some (world, .sendEndTxn committed previous)
    else some (world, .restore previous)
  | .sendEndTxn committed previous =>
    let sent := world.emit [.endTxn world.transactions committed]
    match choice.attempt with
    | none => some (sent, .sendEndTxn committed previous)
    | some (decision, identity) =>
      some (sent, .applyEndTxn committed previous decision identity)
  | .applyEndTxn committed previous decision identity =>
    some (world.applyEndTxnStep committed previous decision identity)
  | .clearAbortable committed =>
    some ({ world with txnError := world.txnError.clearAbortable }, .becomeReady committed)
  | .becomeReady committed =>
    some ({ world with txnState := .ready }.emit [.ended world.transactions committed], .done)
  | .requireRecovery => some ({ world with txnState := .recoveryRequired }, .done)
  | .setFatal error => some ({ world with txnError := .fatal error }, .done)
  | .setAbortable code => some ({ world with txnError := world.txnError.setAbortable code }, .done)
  | .restore previous => some ({ world with txnState := previous }, .done)
  | .done => none

/-- Make the next cut of the client call `index`. -/
def advanceTask (world : World) (index : Nat) (choice : TaskChoice) : Option World :=
  match world.tasks[index]? with
  | none => none
  | some task =>
    match world.taskStep choice task with
    | none => none
    | some (next, task) => some { next with tasks := world.tasks.set index task }

/-! ## The start of a client call -/

/-- The client calls, up to their first wait. -/
inductive ClientCall where
  | beginTransaction
  | flush
  | close
  /-- The producer is dropped, which closes the wake channel. -/
  | drop
  | endTransaction (committed : Bool)
deriving DecidableEq, Repr

/-- The task of a new client call, or `none` when the call fails at once. -/
def openTask (config : Config) (world : World) : ClientCall -> Option Task
  | .beginTransaction =>
    if config.transactional = true ∧ world.txnError.fatal? = none ∧
        world.recoveryRequired = false then
      some .begin
    else none
  | .flush => some (.flush .flush (acceptances world.log).length .start)
  | .close => some (.flush .close (acceptances world.log).length .start)
  | .drop => some .closeSender
  | .endTransaction committed =>
    if config.transactional = true ∧ world.txnError.fatal? = none then
      some (.endTransaction committed)
    else none

end World

end Producer
end Krabka
