import Krabka.Collections.SortedMap
import Krabka.TopicPartition
import Mathlib.Data.BitVec

namespace Krabka
namespace FetchSession

open Collections

/-!
# Incremental fetch sessions (KIP-227)

The client half is `fetch_session.rs`: one `FetchSession` per broker, which
decides whether the next Fetch is full or incremental and names only the
partitions that changed.  The session records the wanted partitions when it
builds a request, before it knows whether the broker saw that request.

The broker half is the protocol partner of the claim, not code of this
repository: it keeps sessions by id, each with the epoch it expects next and
a cached partition map.  `World` joins the two halves through a channel that
holds at most one request or answer, and that may lose either.
-/

/-! ## The client's session -/

/-- Kafka's `FetchMetadata.INVALID_SESSION_ID`. -/
def INVALID_SESSION_ID : Int := 0

/-- Kafka's `FetchMetadata.INITIAL_EPOCH`. -/
def INITIAL_EPOCH : Int := 0

/-- Kafka's `FetchMetadata.FINAL_EPOCH`. -/
def FINAL_EPOCH : Int := -1

def FETCH_SESSION_ID_NOT_FOUND : Int := 70

def I32_MAX : Int := 2147483647

structure FetchMetadata where
  sessionId : Int
  epoch : Int
deriving DecidableEq, Repr

namespace FetchMetadata

/-- Create a new session. -/
def INITIAL : FetchMetadata := ⟨INVALID_SESSION_ID, INITIAL_EPOCH⟩

/-- A full request sends every partition. -/
def isFull (metadata : FetchMetadata) : Bool :=
  metadata.epoch == INITIAL_EPOCH || metadata.epoch == FINAL_EPOCH

/-- Close the session and create a new one with a full request. -/
def closeExistingAttemptNew (metadata : FetchMetadata) : FetchMetadata :=
  ⟨metadata.sessionId, INITIAL_EPOCH⟩

def nextEpoch (epoch : Int) : Int :=
  if epoch < 0 then FINAL_EPOCH
  else if epoch = I32_MAX then 1
  else epoch + 1

end FetchMetadata

/-- A topic id of the wire protocol.  `0` is `Uuid::default()`. -/
abbrev WireUuid := BitVec 128

/-- The fields of one partition in a fetch session.  A change of any field
makes the partition part of the next incremental request. -/
structure SessionPartition where
  topicId : WireUuid
  fetchOffset : Int
  currentLeaderEpoch : Int
  lastFetchedEpoch : Int
  partitionMaxBytes : Int
deriving DecidableEq, Repr

/-- The partitions of a session, in key order. -/
abbrev PartitionMap := SortedMap TopicPartition SessionPartition

structure SessionRequest where
  sessionId : Int
  sessionEpoch : Int
  /-- All partitions in a full request, the new and the changed ones in an
  incremental request. -/
  partitions : PartitionMap
  /-- The partitions to forget, with their topic ids. -/
  forgotten : List (TopicPartition × WireUuid)

structure Session where
  next : FetchMetadata
  partitions : PartitionMap

namespace Session

def default : Session := ⟨FetchMetadata.INITIAL, SortedMap.empty⟩

def replaced (session : Session) (wanted : PartitionMap) : Bool :=
  wanted.entries.any (fun entry =>
    match session.partitions.get? entry.1 with
    | some previous =>
      previous.topicId != entry.2.topicId &&
        (previous.topicId != 0 && entry.2.topicId != 0)
    | none => false)

/-- The session fields of the next request.  A replaced topic id closes the
session, because a forget goes by topic id only from Fetch v13. -/
def requestMetadata (session : Session) (wanted : PartitionMap) : FetchMetadata :=
  if session.replaced wanted && !session.next.isFull
  then session.next.closeExistingAttemptNew
  else session.next

def build (session : Session) (wanted : PartitionMap) : SessionRequest × Session :=
  let metadata := session.requestMetadata wanted
  if metadata.isFull then
    (⟨metadata.sessionId, metadata.epoch, wanted, []⟩, ⟨metadata, wanted⟩)
  else
    let forgotten := (session.partitions.filter (fun key _ => !wanted.contains key)).entries.map
      (fun entry => (entry.1, entry.2.topicId))
    let changed := wanted.filter (fun key partition =>
      session.partitions.get? key != some partition)
    (⟨metadata.sessionId, metadata.epoch, changed, forgotten⟩, ⟨metadata, wanted⟩)

/-- Update the session after a response.  The flag is `false` when the
consumer must not use the partition data of the response. -/
def handleResponse (session : Session) (errorCode responseSessionId : Int)
    (responsePartitions : Nat) (throttleTimeMs : Int) : Bool × Session :=
  if errorCode ≠ 0 then
    (false, { session with
      next := if errorCode = FETCH_SESSION_ID_NOT_FOUND then FetchMetadata.INITIAL
        else session.next.closeExistingAttemptNew })
  else if session.next.isFull then
    if responsePartitions = 0 ∧ throttleTimeMs > 0 then
      -- KIP-219: an empty full response throttles the client.
      (false, { session with next := FetchMetadata.INITIAL })
    else
      (true, { session with
        next := if responseSessionId = INVALID_SESSION_ID then FetchMetadata.INITIAL
          else ⟨responseSessionId, FetchMetadata.nextEpoch INITIAL_EPOCH⟩ })
  else
    (true, { session with
      next := if responseSessionId = INVALID_SESSION_ID then FetchMetadata.INITIAL
        else ⟨session.next.sessionId, FetchMetadata.nextEpoch session.next.epoch⟩ })

/-- Update the session after the request failed. -/
def handleError (session : Session) : Session :=
  { session with next := session.next.closeExistingAttemptNew }

end Session

/-! ## The broker's sessions -/

structure CachedSession where
  nextEpoch : Int
  cached : TopicPartition -> Option SessionPartition

namespace CachedSession

def update (session : CachedSession) (request : SessionRequest) :
    TopicPartition -> Option SessionPartition :=
  fun key =>
    if key ∈ request.forgotten.map Prod.fst then none
    else match request.partitions.get? key with
      | some partition => some partition
      | none => session.cached key

end CachedSession

abbrev Broker := Int -> Option CachedSession

namespace Broker

/-- Forget the session `id`. -/
def evict (broker : Broker) (id : Int) : Broker :=
  fun other => if other = id then none else broker other

/-- Keep `session` under `id`. -/
def store (broker : Broker) (id : Int) (session : CachedSession) : Broker :=
  fun other => if other = id then some session else broker other

/-- A request that does not ask for a new session or for its end. -/
def isIncremental (request : SessionRequest) : Bool :=
  request.sessionEpoch != INITIAL_EPOCH && request.sessionEpoch != FINAL_EPOCH

def accept (broker : Broker) (request : SessionRequest) : Option CachedSession :=
  match broker request.sessionId with
  | some session =>
    if session.nextEpoch = request.sessionEpoch then
      some ⟨FetchMetadata.nextEpoch request.sessionEpoch, session.update request⟩
    else none
  | none => none

end Broker

/-! ## One consumer and one broker -/

/-- The fields of a Fetch response that the session reads. -/
structure Response where
  errorCode : Int
  sessionId : Int
  partitions : Nat
  throttleTimeMs : Int
deriving DecidableEq, Repr

/-- The one exchange that can be in flight.  `request` keeps the wanted map it
was built for, which only the statements read. -/
inductive Channel where
  | idle
  | request (sent : SessionRequest) (wanted : PartitionMap)
  | response (answer : Response)
  | lost

/-- The client's session, the broker's sessions and the channel between them. -/
structure World where
  client : Session
  broker : Broker
  channel : Channel

/-- One step of the consumer, the network or the broker. -/
inductive Act where
  /-- `send_fetches` builds a request for `wanted`. -/
  | build (wanted : PartitionMap)
  /-- The broker serves a full request, and opens the session `opened`. -/
  | serveFull (opened : Option Int) (answer : Response)
  /-- The broker serves an incremental request whose id and epoch match. -/
  | serveIncremental (answer : Response)
  /-- The broker refuses an incremental request it has no session for. -/
  | refuse (answer : Response)
  /-- The request or the response is lost. -/
  | lose
  /-- `take_completed_fetches` handles the response. -/
  | deliver
  /-- `take_completed_fetches` handles the failed request. -/
  | fail
  /-- The broker evicts a session. -/
  | evict (id : Int)

namespace World

/-- A new consumer and a broker without sessions. -/
def start : World := ⟨Session.default, fun _ => none, .idle⟩

/-- The step of `act`, when it can happen.

A broker never lies about a session id: a response without an error names the
session that the request opened or continued, or no session. -/
def step (world : World) : Act -> Option World
  | .build wanted =>
    match world.channel with
    | .idle =>
      let built := world.client.build wanted
      some { world with client := built.2, channel := .request built.1 wanted }
    | _ => none
  | .serveFull opened answer =>
    match world.channel with
    | .request sent _ =>
      if Broker.isIncremental sent then none
      else
        let closed := world.broker.evict sent.sessionId
        match opened with
        | none =>
          if answer.errorCode ≠ 0 ∨ answer.sessionId = INVALID_SESSION_ID then
            some { world with broker := closed, channel := .response answer }
          else none
        | some id =>
          if id ≠ INVALID_SESSION_ID ∧ (closed id).isNone ∧
              (answer.errorCode ≠ 0 ∨ answer.sessionId = id ∨
                answer.sessionId = INVALID_SESSION_ID) then
            some { world with
              broker := closed.store id
                ⟨FetchMetadata.nextEpoch INITIAL_EPOCH, sent.partitions.get?⟩
              channel := .response answer }
          else none
    | _ => none
  | .serveIncremental answer =>
    match world.channel with
    | .request sent _ =>
      if Broker.isIncremental sent then
        match world.broker.accept sent with
        | some session =>
          if answer.errorCode ≠ 0 ∨ answer.sessionId = sent.sessionId ∨
              answer.sessionId = INVALID_SESSION_ID then
            some { world with
              broker := world.broker.store sent.sessionId session
              channel := .response answer }
          else none
        | none => none
      else none
    | _ => none
  | .refuse answer =>
    match world.channel with
    | .request sent _ =>
      if Broker.isIncremental sent ∧ (world.broker.accept sent).isNone ∧
          answer.errorCode ≠ 0 then
        some { world with channel := .response answer }
      else none
    | _ => none
  | .lose =>
    match world.channel with
    | .request _ _ => some { world with channel := .lost }
    | .response _ => some { world with channel := .lost }
    | _ => none
  | .deliver =>
    match world.channel with
    | .response answer =>
      some { world with
        client := (world.client.handleResponse answer.errorCode answer.sessionId
          answer.partitions answer.throttleTimeMs).2
        channel := .idle }
    | _ => none
  | .fail =>
    match world.channel with
    | .lost => some { world with client := world.client.handleError, channel := .idle }
    | _ => none
  | .evict id => some { world with broker := world.broker.evict id }

def run (world : World) : List Act -> Option World
  | [] => some world
  | act :: rest => (world.step act).bind (fun next => next.run rest)

end World

end FetchSession
end Krabka
