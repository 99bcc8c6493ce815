import Krabka.Producer.Accumulator
import Krabka.TopicPartition

namespace Krabka
namespace Producer

/-!
# Errors, batches and verdicts

The error states of a transaction (`transactional.rs`), the retry classes of
error codes (`error_class.rs`), the drained batch, and the pure map from a
partition answer to a verdict (`classify_verdict` of `sender.rs`).
-/

/-! ## Errors -/

/-- The errors of `ProducerError` that the modelled functions give to a record. -/
inductive ProducerError where
  | server (code : Int)
  | fencedProducer
  | sendTimeout
  | transactionAborted
  | recoveryRequired
  | fatalTransactionError (code : Int)
deriving DecidableEq, Repr

inductive AbortableError where
  | server (code : Int)
  | timeout
deriving DecidableEq, Repr

inductive FatalError where
  | fenced
  | server (code : Int)
deriving DecidableEq, Repr

inductive TxnState where
  | uninitialized
  | ready
  | inTransaction
  | preparing
  | prepared
  | initializing
  | committingOrAborting
  | recoveryRequired
  | fenced
  | fatalError
deriving DecidableEq, Repr

namespace FatalError

/-- The transaction state after this error. -/
def state : FatalError -> TxnState
  | .fenced => .fenced
  | .server _ => .fatalError

def error : FatalError -> ProducerError
  | .fenced => .fencedProducer
  | .server code => .fatalTransactionError code

end FatalError

inductive TxnError where
  | none
  | abortable (error : AbortableError)
  | fatal (error : FatalError)
deriving DecidableEq, Repr

namespace TxnError

def storeAbortable (slot value : TxnError) : TxnError :=
  match slot with
  | .fatal error => .fatal error
  | _ => value

def setAbortable (slot : TxnError) (code : Int) : TxnError :=
  slot.storeAbortable (.abortable (.server code))

def setAbortableTimeout (slot : TxnError) : TxnError := slot.storeAbortable (.abortable .timeout)

def clearAbortable (slot : TxnError) : TxnError := slot.storeAbortable .none

def abortable? : TxnError -> Option AbortableError
  | .abortable error => some error
  | _ => Option.none

def fatal? : TxnError -> Option FatalError
  | .fatal error => some error
  | _ => Option.none

end TxnError

/-- Why the sender must not send a batch of a transaction. -/
inductive Barrier where
  | recoveryRequired
  | fatal (error : FatalError)
  | abortable (error : AbortableError)
deriving DecidableEq, Repr

/-- The error that the records of a barred batch get. -/
def Barrier.error : Barrier -> ProducerError
  | .recoveryRequired => .recoveryRequired
  | .fatal error => error.error
  | .abortable (.server code) => .server code
  | .abortable .timeout => .sendTimeout

/-! ## Error codes -/

namespace Codes

def NONE : Int := 0
def MESSAGE_TOO_LARGE : Int := 10
def CLUSTER_AUTHORIZATION_FAILED : Int := 31
def UNSUPPORTED_VERSION : Int := 35
def OUT_OF_ORDER_SEQUENCE_NUMBER : Int := 45
def DUPLICATE_SEQUENCE_NUMBER : Int := 46
def INVALID_PRODUCER_ID_MAPPING : Int := 49
def TRANSACTIONAL_ID_AUTHORIZATION_FAILED : Int := 53
def UNKNOWN_PRODUCER_ID : Int := 59
def PRODUCER_FENCED : Int := 90

end Codes

inductive ErrorClass where
  | none
  | invalidMetadata
  | retriable
  | notRetriable
deriving DecidableEq, Repr

/-- The codes whose Kafka exception extends `InvalidMetadataException`. -/
def invalidMetadataCodes : List Int := [3, 5, 6, 9, 13, 56, 72, 74, 80, 83, 84, 100, 103]

/-- The other codes whose Kafka exception extends `RetriableException`. -/
def retriableCodes : List Int :=
  [2, 7, 14, 15, 16, 19, 20, 41, 51, 70, 71, 75, 78, 88, 89, 106, 122, 123, 133]

def errorClass (code : Int) : ErrorClass :=
  if code = 0 then .none
  else if code ∈ invalidMetadataCodes then .invalidMetadata
  else if code ∈ retriableCodes then .retriable
  else .notRetriable

/-! ## Drained batches -/

/-- How the producer stamped a batch. -/
inductive BatchMode where
  | plain
  | idempotent
  | transactional
deriving DecidableEq, Repr

/-- What happens to the partition sequence after the sender fails a batch. -/
inductive SequenceRepair where
  | keep
  | bumpEpoch
  | giveBack
  | reset
deriving DecidableEq, Repr

def BatchMode.repairAfterFailure : BatchMode -> SequenceRepair
  | .plain => .keep
  | .idempotent => .bumpEpoch
  | .transactional => .giveBack

structure Identity where
  producerId : Int
  producerEpoch : Int
deriving DecidableEq, Repr

/-- The header fields of the v2 record batch that the sender reads back. -/
structure RecordBatch where
  transactional : Bool
  lastOffsetDelta : Nat
  identity : Identity
  baseSequence : Int
deriving DecidableEq, Repr

def BatchMode.of (batch : RecordBatch) : BatchMode :=
  if batch.transactional then .transactional
  else if batch.identity.producerId ≥ 0 then .idempotent
  else .plain

/-- Why one send of a batch did not ack it. -/
inductive SendFailure where
  | code (code : Int)
  | transport
deriving DecidableEq, Repr

def SendFailure.error : SendFailure -> ProducerError
  | .code answered => .server answered
  | .transport => .sendTimeout

/-- One drained batch, with its sequence allocated. -/
structure PreparedBatch where
  key : TopicPartition
  baseSequence : Int
  recordBatch : RecordBatch
  records : List PendingRecord
  createdAt : Nat
  backoffUntil : Option Nat
  retriesUsed : Int
  lastFailure : Option SendFailure
  transactionGeneration : Option Nat
deriving DecidableEq, Repr

namespace PreparedBatch

def mode (batch : PreparedBatch) : BatchMode := BatchMode.of batch.recordBatch

/-- Park the batch until its next backoff ends. -/
def backOff (batch : PreparedBatch) (now backoff : Nat) : PreparedBatch :=
  { batch with backoffUntil := some (now + backoff) }

/-- `take_retry`: whether the batch has no retry left, and the batch after it. -/
def takeRetry (batch : PreparedBatch) (retries : Int) : Bool × PreparedBatch :=
  if batch.retriesUsed ≥ retries then (true, batch)
  else (false, { batch with retriesUsed := batch.retriesUsed + 1 })

def restarted (batch : PreparedBatch) : PreparedBatch :=
  { batch with
    baseSequence := 0
    recordBatch := { batch.recordBatch with baseSequence := 0 } }

/-- The batch with the identity of a raised epoch. -/
def stamped (batch : PreparedBatch) (identity : Identity) : PreparedBatch :=
  { batch with recordBatch := { batch.recordBatch with identity := identity } }

end PreparedBatch

/-! ## Verdicts -/

inductive BatchVerdict where
  | acked (baseOffset logAppendTimeMs : Int)
  | retry
  | bumpEpochAndRetry
  | restartSequenceAndRetry
  | terminal (code : Int) (repair : SequenceRepair)
  | split
  | fatal (code : Int)
  | barred (barrier : Barrier)
deriving DecidableEq, Repr

inductive Classification where
  | verdict (verdict : BatchVerdict)
  | routing
deriving DecidableEq, Repr

structure PartitionAnswer where
  errorCode : Int
  baseOffset : Int
  logAppendTimeMs : Int
  logStartOffset : Int
deriving DecidableEq, Repr

def fatalCodes : List Int :=
  [Codes.CLUSTER_AUTHORIZATION_FAILED, Codes.UNSUPPORTED_VERSION,
    Codes.INVALID_PRODUCER_ID_MAPPING, Codes.TRANSACTIONAL_ID_AUTHORIZATION_FAILED,
    Codes.PRODUCER_FENCED]

def classifyVerdict (answer : PartitionAnswer) (mode : BatchMode)
    (lastAckedOffset : Option Int) (recordsInBatch : Nat) : Classification :=
  let code := answer.errorCode
  if code = Codes.MESSAGE_TOO_LARGE ∧ recordsInBatch > 1 then .verdict .split
  else if code = Codes.NONE ∨ code = Codes.DUPLICATE_SEQUENCE_NUMBER then
    .verdict (.acked answer.baseOffset answer.logAppendTimeMs)
  else if code ∈ fatalCodes ∧ mode ≠ .plain then .verdict (.fatal code)
  else if code = Codes.OUT_OF_ORDER_SEQUENCE_NUMBER ∧ mode = .idempotent then
    .verdict .bumpEpochAndRetry
  else if code = Codes.UNKNOWN_PRODUCER_ID ∧ mode ≠ .plain ∧ answer.logStartOffset < 0 then
    .verdict .retry
  else if code = Codes.UNKNOWN_PRODUCER_ID ∧ mode = .idempotent then .verdict .bumpEpochAndRetry
  else if code = Codes.UNKNOWN_PRODUCER_ID ∧ mode = .transactional ∧
      lastAckedOffset.getD (-1) < answer.logStartOffset then
    .verdict .restartSequenceAndRetry
  else if code = Codes.UNKNOWN_PRODUCER_ID ∧ mode = .transactional then
    .verdict (.terminal code .reset)
  else match errorClass code with
    | .invalidMetadata => .routing
    | .retriable => .verdict .retry
    | .none => .verdict (.terminal code mode.repairAfterFailure)
    | .notRetriable => .verdict (.terminal code mode.repairAfterFailure)

/-- The error for the records of a batch that failed with a fatal code. -/
def fatalError (code : Int) : ProducerError :=
  if code = Codes.PRODUCER_FENCED then .fencedProducer else .server code

structure BatchSendResult where
  batch : PreparedBatch
  verdict : BatchVerdict
deriving DecidableEq, Repr

/-- The part of `interpret_response` that decides the verdict.  `answer` is
absent when the response does not name the partition. -/
def interpretResponse (batch : PreparedBatch) (answer : Option PartitionAnswer)
    (lastAckedOffset : Option Int) (now backoff : Nat) : BatchSendResult :=
  match answer with
  | none => ⟨{ batch.backOff now backoff with lastFailure := some .transport }, .retry⟩
  | some answer =>
    let failed := { batch.backOff now backoff with
      lastFailure := some (.code answer.errorCode) }
    match classifyVerdict answer batch.mode lastAckedOffset batch.records.length with
    | .routing => ⟨failed, .retry⟩
    | .verdict .retry => ⟨failed, .retry⟩
    | .verdict .bumpEpochAndRetry => ⟨failed, .bumpEpochAndRetry⟩
    | .verdict .restartSequenceAndRetry => ⟨failed, .restartSequenceAndRetry⟩
    | .verdict verdict => ⟨batch, verdict⟩

structure CycleVerdicts where
  fenced : Option (List PreparedBatch)
  bumpEpoch : Bool
  repairs : List (TopicPartition × SequenceRepair × Int)
  restarts : List PreparedBatch
  rewrites : List PreparedBatch
  splits : List PreparedBatch
  failed : List (PreparedBatch × ProducerError)
deriving DecidableEq, Repr

namespace CycleVerdicts

def default : CycleVerdicts := ⟨none, false, [], [], [], [], []⟩

def recordRepair (cycle : CycleVerdicts) (batch : PreparedBatch) (repair : SequenceRepair) :
    CycleVerdicts :=
  match repair with
  | .keep => cycle
  | .bumpEpoch => { cycle with bumpEpoch := true }
  | .giveBack | .reset =>
    { cycle with repairs := cycle.repairs ++ [(batch.key, repair, batch.baseSequence)] }

end CycleVerdicts

/-! ## Acknowledgements -/

/-- `ProduceResponse.INVALID_OFFSET`. -/
def INVALID_OFFSET : Int := -1

/-- `RecordBatch.NO_TIMESTAMP`. -/
def NO_TIMESTAMP : Int := -1

def recordOffset (baseOffset : Int) (offsetDelta : Nat) : Int :=
  if baseOffset = INVALID_OFFSET then INVALID_OFFSET else baseOffset + offsetDelta

def serializedSize (bytes : Option Bytes) : Int :=
  match bytes with
  | none => -1
  | some bytes => bytes.length

structure RecordMetadata where
  key : TopicPartition
  offset : Int
  timestampMs : Int
  serializedKeySize : Int
  serializedValueSize : Int
deriving DecidableEq, Repr

/-- What an acknowledgement channel receives. -/
inductive Outcome where
  | acked (metadata : RecordMetadata)
  | failed (error : ProducerError)
deriving DecidableEq, Repr

def ackMetadata (key : TopicPartition) (record : PendingRecord)
    (baseOffset logAppendTimeMs : Int) : RecordMetadata where
  key := key
  offset := recordOffset baseOffset record.offsetDelta
  timestampMs :=
    if logAppendTimeMs = NO_TIMESTAMP then record.payload.timestampMs else logAppendTimeMs
  serializedKeySize := serializedSize record.payload.key
  serializedValueSize := serializedSize record.payload.value

end Producer
end Krabka
