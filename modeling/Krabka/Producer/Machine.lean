import Krabka.Producer.Client
import Krabka.Transition

namespace Krabka
namespace Producer

open Collections

/-!
# Runs of a producer

The futures of the Produce requests, which only move inside `tokio::select!`,
and the acts of every party: the sender task, the brokers, the network, the
clock and the client calls.  A run is any interleaving of them.

The brokers answer anything at any time here.
-/

namespace World

/-! ## Produce requests -/

/-- Whether the sender task waits in `tokio::select!`. -/
def atSelect (world : World) : Bool := world.phase = .select ∧ world.calls = []

def setRequest (world : World) (index : Nat) (request : Request) : World :=
  { world with requests := world.requests.set index request }

/-- A batch whose send did not reach an answer. -/
def transportFailure (world : World) (backoff : Nat) (batch : PreparedBatch) : PreparedBatch :=
  { batch.backOff world.now backoff with lastFailure := some .transport }

def pollRequest (world : World) (index : Nat) (request : Request) (encodes : Bool)
    (backoff : Nat) : World :=
  match world.drainedBarrier request.batch.transactionGeneration with
  | some barrier => world.setRequest index { request with progress := .done (.barred barrier) }
  | none =>
    if encodes then
      (world.setRequest index { request with progress := .sent }).emit
        [.sent request.batch.key request.batch.recordBatch (handles request.batch.records)]
    else
      world.setRequest index
        { request with
          batch := world.transportFailure backoff request.batch
          progress := .done .retry }

def answerRequest (world : World) (index : Nat) (request : Request)
    (answer : Option PartitionAnswer) (leaderHint : Int) (backoff : Nat) : World :=
  let batch := request.batch
  let result := interpretResponse batch answer request.lastAckedOffset world.now backoff
  let routing := match answer with
    | none => false
    | some answer =>
      classifyVerdict answer batch.mode request.lastAckedOffset batch.records.length == .routing
  let routed :=
    if routing && decide (leaderHint ≥ 0) then
      { world with partitionLeaders := world.partitionLeaders.insert batch.key leaderHint }
    else world
  routed.setRequest index
    { request with batch := result.batch, progress := .done result.verdict }

/-- The connection fails before an answer. -/
def loseRequest (world : World) (index : Nat) (request : Request) (backoff : Nat) : World :=
  world.setRequest index
    { request with
      batch := world.transportFailure backoff request.batch
      progress := .done .retry }

/-- The transport takes a request with `acks=0`, which gets no answer. -/
def acceptRequest (world : World) (index : Nat) (request : Request) : World :=
  world.setRequest index
    { request with progress := .done (.acked INVALID_OFFSET NO_TIMESTAMP) }

def requestResult (request : Request) : Option BatchSendResult :=
  match request.progress with
  | .done verdict => some ⟨request.batch, verdict⟩
  | _ => none

/-- Take the requests at the indices `picks`, one after another. -/
def pick : List Nat -> List Request -> Option (List Request × List Request)
  | [], requests => some ([], requests)
  | index :: rest, requests =>
    match requests[index]? with
    | none => none
    | some request =>
      (pick rest (requests.eraseIdx index)).map
        (fun picked => (request :: picked.1, picked.2))

/-- `drive` takes completed requests and starts `complete_batches`. -/
def complete (world : World) (picks : List Nat) : Option World :=
  match pick picks world.requests with
  | none => none
  | some (picked, left) =>
    if picked ≠ [] ∧ picked.all (fun request => (requestResult request).isSome) = true then
      some { world with
        capacity := picked.foldl (fun used request => Capacity.release used request.leader)
          world.capacity
        occupied := world.occupied.filter
          (fun key => !(picked.map (fun request => request.batch.key)).contains key)
        requests := left
        phase := .record CycleVerdicts.default (picked.filterMap requestResult) }
    else none

end World

/-! ## Acts -/

/-- One step of one party. -/
inductive Act where
  /-- The sender task makes its next cut. -/
  | sender (choice : Choice)
  /-- A queued request is polled for the first time. -/
  | poll (index : Nat) (encodes : Bool) (backoff : Nat)
  /-- The broker appends the batch of a request. -/
  | brokerAppend (index : Nat)
  /-- The answer of a request arrives. -/
  | answer (index : Nat) (answer : Option PartitionAnswer) (leaderHint : Int) (backoff : Nat)
  /-- The connection of a request fails. -/
  | lose (index : Nat) (backoff : Nat)
  /-- The transport takes a request with `acks=0`. -/
  | accept (index : Nat)
  /-- The sender takes completed requests. -/
  | complete (picks : List Nat)
  /-- The sender receives from the wake channel. -/
  | wake (intent : DrainIntent)
  /-- The sender sees the shutdown. -/
  | shutdown
  /-- The timer of the sender fires. -/
  | timer
  /-- A metadata response arrives. -/
  | metadata (leaders : List (TopicPartition × Int)) (brokers : List Int)
  | tick (elapsed : Nat)
  /-- The lock sections of `enqueue`. -/
  | openAccumulator (key : TopicPartition)
  | sealFull (key : TopicPartition) (payload : Payload)
  | append (key : TopicPartition) (payload : Payload)
  | registerFails (error : TxnError)
  | call (call : World.ClientCall)
  /-- A client call makes its next cut. -/
  | task (index : Nat) (choice : TaskChoice)
deriving DecidableEq, Repr

namespace World

def onRequest (world : World) (index : Nat) (progress : Progress)
    (act : Request -> World) : Option World :=
  match world.requests[index]? with
  | none => none
  | some request =>
    if world.atSelect = true ∧ request.progress = progress then some (act request) else none

/-- The world after `act`, when it can happen. -/
def step (config : Config) (world : World) : Act -> Option World
  | .sender choice => world.senderStep config choice
  | .poll index encodes backoff =>
    world.onRequest index .queued
      (fun request => world.pollRequest index request encodes backoff)
  | .brokerAppend index =>
    match world.requests[index]? with
    | none => none
    | some request =>
      if request.progress = .sent then
        some (world.emit [.appended request.batch.key request.batch.recordBatch
          (handles request.batch.records)])
      else none
  | .answer index answer leaderHint backoff =>
    if config.acks = .zero then none
    else world.onRequest index .sent
      (fun request => world.answerRequest index request answer leaderHint backoff)
  | .lose index backoff =>
    world.onRequest index .sent (fun request => world.loseRequest index request backoff)
  | .accept index =>
    if config.acks = .zero then
      world.onRequest index .sent (fun request => world.acceptRequest index request)
    else none
  | .complete picks => if world.atSelect then world.complete picks else none
  | .wake intent =>
    if world.atSelect = true ∧ world.stopping = false then
      some { world with force := world.force || intent == .force, phase := .schedule }
    else none
  | .shutdown =>
    if world.atSelect = true ∧ world.stopping = false ∧ world.shutdown = true then
      some { world with force := true, stopping := true, phase := .schedule }
    else none
  | .timer => if world.atSelect then some { world with phase := .schedule } else none
  | .metadata leaders brokers =>
    some { world with
      partitionLeaders := leaders.foldl
        (fun known leader => known.insert leader.1 leader.2) world.partitionLeaders
      knownBrokers := brokers }
  | .tick elapsed => some { world with now := world.now + elapsed }
  | .openAccumulator key => some (world.openAccumulator config key)
  | .sealFull key payload => world.sealFull config key payload
  | .append key payload => world.append config key payload
  | .registerFails error => world.registerFails config error
  | .call call =>
    match world.openTask config call with
    | none => some world
    | some task => some { world with tasks := world.tasks ++ [task] }
  | .task index choice => world.advanceTask index choice

def run (config : Config) (world : World) (acts : List Act) : Option World :=
  Transition.run (step config) world acts

end World

end Producer
end Krabka
