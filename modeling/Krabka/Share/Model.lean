import Krabka.Collections.Buckets
import Krabka.Consumer.FetchedRecords

namespace Krabka
namespace Share

open Collections
open Consumer (Bytes Header Record RecordBatch RecordsPayload TimestampType recordOffset
  recordTimestamp)

/-!
# The share consumer (KIP-932)

`share/poll.rs`, the `close` of `share/consumer.rs` and the `update_assignment` of
`share/coordinator.rs`.  A call of the application runs from its start to its end:
nothing else writes the fields of the consumer, and the heartbeat task only
replaces the assignment, which a call reads once.

What a request meets on its way is a parameter of the call: `network request` is
the result of `client.send(request)`.
-/

/-- A topic id of the wire protocol, as a number.  `0` is `Uuid::default()`. -/
abbrev WireUuid := Nat

def I32_MAX : Int := 2147483647

def I32_MIN : Int := -2147483648

def wrappingSucc (value : Int) : Int := if value = I32_MAX then I32_MIN else value + 1

inductive ShareAckMode where
  | implicit
  | explicit
deriving DecidableEq, Repr

inductive ShareAckType where
  | accept
  | release
  | reject
deriving DecidableEq, Repr

def ShareAckType.wire : ShareAckType -> Int
  | .accept => 1
  | .release => 2
  | .reject => 3

/-- The wire type of a lock renewal (KIP-1222). -/
def RENEW : Int := 4

inductive ShareAcquireMode where
  | batchOptimized
  | recordLimit
deriving DecidableEq, Repr

def ShareAcquireMode.wire : ShareAcquireMode -> Int
  | .batchOptimized => 0
  | .recordLimit => 1

/-- A record that `poll` returns. -/
structure ShareConsumerRecord where
  topic : String
  partition : Int
  offset : Int
  timestamp : Int
  timestampType : TimestampType
  key : Option Bytes
  value : Option Bytes
  headers : List Header
  deliveryCount : Int
deriving DecidableEq, Repr

/-! ## Requests and responses -/

/-- Offsets of a partition with one acknowledge type for each of them. -/
structure AcknowledgementBatch where
  firstOffset : Int
  lastOffset : Int
  acknowledgeTypes : List Int
deriving DecidableEq, Repr

structure RequestPartition where
  partitionIndex : Int
  acknowledgementBatches : List AcknowledgementBatch
deriving DecidableEq, Repr

structure RequestTopic where
  topicId : WireUuid
  partitions : List RequestPartition
deriving DecidableEq, Repr

structure ShareFetchRequest where
  groupId : String
  memberId : String
  shareSessionEpoch : Int
  maxWaitMs : Int
  minBytes : Int
  maxBytes : Int
  maxRecords : Int
  batchSize : Int
  shareAcquireMode : Int
  topics : List RequestTopic
  /-- The partitions that leave the session. -/
  forgottenTopicsData : List (WireUuid × List Int)
deriving DecidableEq, Repr

structure ShareAcknowledgeRequest where
  groupId : String
  memberId : String
  shareSessionEpoch : Int
  isRenewAck : Bool
  topics : List RequestTopic
deriving DecidableEq, Repr

/-- Offsets that this member holds the lock on. -/
structure AcquiredRecords where
  firstOffset : Int
  lastOffset : Int
  deliveryCount : Int
deriving DecidableEq, Repr

/-- One partition row of a `ShareFetch` response. -/
structure PartitionData where
  partitionIndex : Int
  errorCode : Int
  acknowledgeErrorCode : Int
  records : Option RecordsPayload
  acquiredRecords : List AcquiredRecords
deriving DecidableEq, Repr

structure TopicResponse where
  topicId : WireUuid
  partitions : List PartitionData
deriving DecidableEq, Repr

structure ShareFetchResponse where
  errorCode : Int
  responses : List TopicResponse
deriving DecidableEq, Repr

/-- A `ShareAcknowledge` response: the error codes of the partitions, by topic. -/
structure ShareAcknowledgeResponse where
  errorCode : Int
  responses : List (List Int)
deriving DecidableEq, Repr

/-- The result of `client.send`. -/
inductive Sent (Response : Type) where
  | failed
  | answered (response : Response)

/-! ## The consumer -/

inductive ConsumerError where
  | server (errorCode : Int)
  | client
  | illegalState (message : String)
deriving DecidableEq, Repr

structure Assigned where
  topicId : WireUuid
  name : String
  partition : Int
deriving DecidableEq, Repr

/-- A range that the last poll delivered. -/
structure Delivered where
  topicId : WireUuid
  partition : Int
  first : Int
  last : Int
deriving DecidableEq, Repr

/-- A staged acknowledgement. -/
structure PendingAck where
  topicId : WireUuid
  partition : Int
  first : Int
  last : Int
  ack : Int
deriving DecidableEq, Repr

structure ShareConsumer where
  groupId : String
  memberId : String
  fetchMin : Int
  fetchMax : Int
  fetchMaxRecords : Int
  acquireMode : ShareAcquireMode
  ackMode : ShareAckMode
  /-- The live assignment, which the heartbeat task replaces. -/
  assignment : List Assigned
  topicNames : List (WireUuid × String)
  shareSessionEpoch : Int
  pendingAcks : List PendingAck
  prevDelivered : List Delivered
  pollError : Option ConsumerError
deriving DecidableEq, Repr

/-! ## Acknowledgements in requests -/

def rangeLen (first last : Int) : Nat := (last - first + 1).toNat

def batchOf (first last ack : Int) : AcknowledgementBatch :=
  ⟨first, last, List.replicate (rangeLen first last) ack⟩

/-- The key of a partition in the maps of acknowledgements. -/
def partitionKey (topicId : WireUuid) (partition : Int) : WireUuid ×ₗ Int :=
  toLex (topicId, partition)

abbrev Acks := Buckets (WireUuid ×ₗ Int) AcknowledgementBatch

def pushAcks (acks : List PendingAck) : Acks :=
  acks.foldl (fun out ack =>
    out.push (partitionKey ack.topicId ack.partition) (batchOf ack.first ack.last ack.ack))
    SortedMap.empty

def Delivered.accepted (range : Delivered) : PendingAck :=
  ⟨range.topicId, range.partition, range.first, range.last, ShareAckType.accept.wire⟩

namespace ShareConsumer

/-- Drain the acknowledgements that go with the next `ShareFetch`. -/
def takePiggybackAcks (consumer : ShareConsumer) : Acks × ShareConsumer :=
  match consumer.ackMode with
  | .implicit => (pushAcks (consumer.prevDelivered.map Delivered.accepted),
      { consumer with prevDelivered := [] })
  | .explicit => (pushAcks consumer.pendingAcks,
      { consumer with pendingAcks := [], prevDelivered := [] })

end ShareConsumer

def buildShareFetchTopics (assignment : List Assigned) (acks : Acks) : List RequestTopic :=
  let byTopic : Buckets WireUuid RequestPartition :=
    assignment.foldl (fun byTopic assigned =>
      byTopic.push assigned.topicId
        ⟨assigned.partition, acks.bucket (partitionKey assigned.topicId assigned.partition)⟩)
      SortedMap.empty
  byTopic.entries.map fun entry => ⟨entry.1, entry.2⟩

def groupAcks (acks : List PendingAck) :
    SortedMap WireUuid (Buckets Int AcknowledgementBatch) :=
  acks.foldl (fun byTopic ack =>
    byTopic.insert ack.topicId
      (((byTopic.get? ack.topicId).getD SortedMap.empty : Buckets Int AcknowledgementBatch).push
        ack.partition (batchOf ack.first ack.last ack.ack)))
    SortedMap.empty

def buildAckTopics (acks : List PendingAck) : List RequestTopic :=
  (groupAcks acks).entries.map fun topic =>
    ⟨topic.1, topic.2.entries.map fun partition => ⟨partition.1, partition.2⟩⟩

/-! ## Records -/

def responseHasError (errorCode : Int) : Bool := errorCode ≠ 0

def offsetInRange (first offset last : Int) : Bool := first ≤ offset ∧ offset ≤ last

def deliveryCountOf (acquired : List AcquiredRecords) (offset : Int) : Int :=
  ((acquired.find? fun range => offsetInRange range.firstOffset offset range.lastOffset).map
    AcquiredRecords.deliveryCount).getD 0

/-- One record of a batch as `poll` returns it. -/
def shareRecord (topicName : String) (part : PartitionData) (batch : RecordBatch)
    (record : Record) : ShareConsumerRecord :=
  let offset := recordOffset batch.baseOffset record.offsetDelta
  { topic := topicName
    partition := part.partitionIndex
    offset := offset
    timestamp := (recordTimestamp batch record).1
    timestampType := (recordTimestamp batch record).2
    key := record.key
    value := record.value
    headers := record.headers
    deliveryCount := deliveryCountOf part.acquiredRecords offset }

def sharePartitionRecords (topicName : String) (part : PartitionData) :
    List ShareConsumerRecord :=
  match part.records.bind RecordsPayload.asV2 with
  | none => []
  | some batches =>
    batches.flatMap fun batch =>
      if batch.isControlBatch then []
      else batch.records.map (shareRecord topicName part batch)

/-- Hex display of a topic id: two digits for each of the 16 bytes. -/
def hexTopicId (topicId : WireUuid) : String :=
  String.ofList ((List.range 32).map fun index => Nat.digitChar (topicId / 16 ^ (31 - index) % 16))

/-! ## Calls -/

/-- A request that a call sent. -/
inductive Request where
  | fetch (request : ShareFetchRequest)
  | acknowledge (request : ShareAcknowledgeRequest)
deriving DecidableEq, Repr

/-- What a call of the application did: its result, the consumer after it, and
the request it sent, with whether the broker answered it without a top-level
error. -/
structure Call (Result : Type) where
  outcome : Except ConsumerError Result
  consumer : ShareConsumer
  sent : Option (Request × Bool)

/-- The name of a topic id in an assignment.  A later entry replaces an earlier
one. -/
def nameFor (assignment : List Assigned) (topicId : WireUuid) : String :=
  ((assignment.reverse.find? fun assigned => assigned.topicId = topicId).map
    Assigned.name).getD ""

def rowsOf (response : ShareFetchResponse) : List (WireUuid × PartitionData) :=
  response.responses.flatMap fun topic => topic.partitions.map (Prod.mk topic.topicId)

/-- The rows that `poll` uses. -/
def usedRows (response : ShareFetchResponse) : List (WireUuid × PartitionData) :=
  (rowsOf response).filter fun row => !responseHasError row.2.errorCode

def deliveredOf (response : ShareFetchResponse) : List Delivered :=
  (usedRows response).flatMap fun row => row.2.acquiredRecords.map fun range =>
    ⟨row.1, row.2.partitionIndex, range.firstOffset, range.lastOffset⟩

def recordsOf (assignment : List Assigned) (response : ShareFetchResponse) :
    List ShareConsumerRecord :=
  (usedRows response).flatMap fun row => sharePartitionRecords (nameFor assignment row.1) row.2

namespace ShareConsumer

def buildShareFetchRequest (consumer : ShareConsumer) (timeoutMs : Int)
    (topics : List RequestTopic) : ShareFetchRequest where
  groupId := consumer.groupId
  memberId := consumer.memberId
  shareSessionEpoch := consumer.shareSessionEpoch
  maxWaitMs := min (max timeoutMs 0) I32_MAX
  minBytes := consumer.fetchMin
  maxBytes := consumer.fetchMax
  maxRecords := consumer.fetchMaxRecords
  batchSize := consumer.fetchMaxRecords
  shareAcquireMode := consumer.acquireMode.wire
  topics := topics
  forgottenTopicsData := []

def buildShareAckRequest (consumer : ShareConsumer) (isRenewAck : Bool)
    (topics : List RequestTopic) : ShareAcknowledgeRequest :=
  ⟨consumer.groupId, consumer.memberId, consumer.shareSessionEpoch, isRenewAck, topics⟩

def handleFetchResponse (consumer : ShareConsumer) (assignment : List Assigned)
    (response : ShareFetchResponse) :
    Except ConsumerError (List ShareConsumerRecord) × ShareConsumer :=
  if responseHasError response.errorCode then
    (.error (.server response.errorCode), consumer)
  else
    (.ok (recordsOf assignment response),
      { consumer with
        shareSessionEpoch := wrappingSucc consumer.shareSessionEpoch
        prevDelivered := deliveredOf response })

/-- `poll`.  `remainingMs` is the wait budget left when the request goes out.  A
poll that waits for an assignment is a later poll: the wait changes nothing. -/
def poll (consumer : ShareConsumer) (remainingMs : Int)
    (network : ShareFetchRequest -> Sent ShareFetchResponse) : Call (List ShareConsumerRecord) :=
  match consumer.pollError with
  | some error => ⟨.error error, { consumer with pollError := none }, none⟩
  | none =>
    if consumer.assignment = [] then ⟨.ok [], consumer, none⟩
    else
      let assignment := consumer.assignment
      let (acks, consumer) := consumer.takePiggybackAcks
      let request := consumer.buildShareFetchRequest remainingMs
        (buildShareFetchTopics assignment acks)
      match network request with
      | .failed => ⟨.error .client, consumer, some (.fetch request, false)⟩
      | .answered response =>
        let (outcome, consumer) := consumer.handleFetchResponse assignment response
        ⟨outcome, consumer, some (.fetch request, !responseHasError response.errorCode)⟩

def topicIdFor (consumer : ShareConsumer) (name : String) : WireUuid :=
  match consumer.assignment.find? fun assigned => assigned.name = name with
  | some assigned => assigned.topicId
  | none =>
    match consumer.topicNames.find? fun entry => entry.2 = name with
    | some entry => entry.1
    | none => 0

def acknowledge (consumer : ShareConsumer) (record : ShareConsumerRecord) (ack : ShareAckType) :
    Call Unit :=
  match consumer.ackMode with
  | .implicit =>
    ⟨.error (.illegalState ("acknowledge() is not allowed in implicit ack mode; " ++
      "records are auto-accepted on the next poll/close")), consumer, none⟩
  | .explicit =>
    ⟨.ok (),
      { consumer with
        pendingAcks := consumer.pendingAcks ++
          [⟨consumer.topicIdFor record.topic, record.partition, record.offset, record.offset,
            ack.wire⟩] },
      none⟩

def firstShareAckPartitionError (response : ShareAcknowledgeResponse) : Option Int :=
  response.responses.flatten.find? responseHasError

def sendAcknowledge (consumer : ShareConsumer) (request : ShareAcknowledgeRequest)
    (network : ShareAcknowledgeRequest -> Sent ShareAcknowledgeResponse) : Call Unit :=
  match network request with
  | .failed => ⟨.error .client, consumer, some (.acknowledge request, false)⟩
  | .answered response =>
    if responseHasError response.errorCode then
      ⟨.error (.server response.errorCode), consumer, some (.acknowledge request, false)⟩
    else
      let consumer := { consumer with
        shareSessionEpoch := wrappingSucc consumer.shareSessionEpoch }
      match firstShareAckPartitionError response with
      | some errorCode =>
        ⟨.error (.server errorCode), consumer, some (.acknowledge request, true)⟩
      | none => ⟨.ok (), consumer, some (.acknowledge request, true)⟩

def renew (consumer : ShareConsumer) (record : ShareConsumerRecord)
    (network : ShareAcknowledgeRequest -> Sent ShareAcknowledgeResponse) : Call Unit :=
  match consumer.ackMode with
  | .implicit =>
    ⟨.error (.illegalState ("renew() is not allowed in implicit ack mode; " ++
      "records are auto-accepted on the next poll/close")), consumer, none⟩
  | .explicit =>
    let topics := buildAckTopics
      [⟨consumer.topicIdFor record.topic, record.partition, record.offset, record.offset, RENEW⟩]
    consumer.sendAcknowledge (consumer.buildShareAckRequest true topics) network

def flushPendingAcks (consumer : ShareConsumer)
    (network : ShareAcknowledgeRequest -> Sent ShareAcknowledgeResponse) : Call Unit :=
  if consumer.pendingAcks = [] then ⟨.ok (), consumer, none⟩
  else
    let drained := consumer.pendingAcks
    let consumer := { consumer with pendingAcks := [] }
    consumer.sendAcknowledge (consumer.buildShareAckRequest false (buildAckTopics drained)) network

def commit (consumer : ShareConsumer)
    (network : ShareAcknowledgeRequest -> Sent ShareAcknowledgeResponse) : Call Unit :=
  consumer.flushPendingAcks network

/-- Move the delivered ranges to the staged acknowledgements. -/
def stageImplicitAccepts (consumer : ShareConsumer) : ShareConsumer :=
  { consumer with
    pendingAcks := consumer.pendingAcks ++ consumer.prevDelivered.map Delivered.accepted
    prevDelivered := [] }

def shouldStageImplicitAccepts (ackMode : ShareAckMode) : Bool := ackMode = .implicit

/-- `close`, which only logs a failed flush. -/
def close (consumer : ShareConsumer)
    (network : ShareAcknowledgeRequest -> Sent ShareAcknowledgeResponse) : Call Unit :=
  let staged := if shouldStageImplicitAccepts consumer.ackMode then consumer.stageImplicitAccepts
    else consumer
  let flushed := staged.flushPendingAcks network
  ⟨.ok (), flushed.consumer, flushed.sent⟩

/-- The heartbeat task replaces the assignment.  A topic without a cached name gets
the hex form of its id as a placeholder. -/
def updateAssignment (consumer : ShareConsumer) (topicPartitions : List (WireUuid × List Int)) :
    ShareConsumer :=
  { consumer with
    assignment := topicPartitions.flatMap fun topic =>
      let name := match consumer.topicNames.find? fun entry => entry.1 = topic.1 with
        | some entry => entry.2
        | none => hexTopicId topic.1
      topic.2.map fun partition => ⟨topic.1, name, partition⟩ }

/-- The heartbeat task leaves an error for the next poll. -/
def reportError (consumer : ShareConsumer) (error : ConsumerError) : ShareConsumer :=
  { consumer with pollError := some error }

end ShareConsumer

end Share
end Krabka
