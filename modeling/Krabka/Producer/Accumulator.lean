import Mathlib.Algebra.Order.Ring.Int
import Mathlib.Data.List.Basic

namespace Krabka
namespace Producer

open List

/-!
# Records, batches and accumulators

`accumulator.rs`: the queue of one topic partition.  Records go into the
current batch, a full or sealed batch goes to the back of `ready`, and the
parts of a split batch go to its front.

A record keeps the identity of its acknowledgement channel as `handle`.  The
buffer memory of a batch is left out.  Instants are natural numbers.
-/

abbrev Bytes := List UInt8

structure Header where
  key : String
  value : Option Bytes
deriving DecidableEq, Repr

/-- What the caller of `enqueue` gives for a record of one partition. -/
structure Payload where
  timestampMs : Int
  key : Option Bytes
  value : Option Bytes
  headers : List Header
deriving DecidableEq, Repr

/-- A record that waits inside a batch. -/
structure PendingRecord where
  handle : Nat
  offsetDelta : Nat
  payload : Payload
deriving DecidableEq, Repr

/-- The identities of the acknowledgement channels, in record order. -/
def handles (records : List PendingRecord) : List Nat := records.map PendingRecord.handle

/-- One batch that the sender has not built yet. -/
structure InProgressBatch where
  transactionGeneration : Option Nat
  firstAppendAt : Nat
  sizeBytes : Nat
  records : List PendingRecord
deriving DecidableEq, Repr

def approxRecordSize (payload : Payload) : Nat :=
  let length := fun (bytes : Option Bytes) => (bytes.map List.length).getD 0
  let body := 8 + (length payload.key + 4) + (length payload.value + 4)
  payload.headers.foldl
    (fun size header => size + (header.key.utf8ByteSize + length header.value + 8)) body

namespace InProgressBatch

def new (transactionGeneration : Option Nat) (now : Nat) : InProgressBatch :=
  ⟨transactionGeneration, now, 0, []⟩

def isEmpty (batch : InProgressBatch) : Bool := batch.records.isEmpty

end InProgressBatch

/-- The queue of one topic partition. -/
structure Accumulator where
  current : Option InProgressBatch
  ready : List InProgressBatch
  batchSize : Nat
deriving DecidableEq, Repr

variable {accumulator : Accumulator}

namespace Accumulator

def new (batchSize : Nat) : Accumulator := ⟨none, [], batchSize⟩

/-- Number the records of a batch again from 0. -/
def renumber (records : List PendingRecord) : List PendingRecord :=
  records.mapIdx (fun index record => { record with offsetDelta := index })

/-- Put `records` back at the front of the ready queue as one batch. -/
def pushFront (accumulator : Accumulator) (records : List PendingRecord)
    (transactionGeneration : Option Nat) (createdAt : Nat) : Accumulator :=
  let batch : InProgressBatch :=
    ⟨transactionGeneration, createdAt,
      (records.map (fun record => approxRecordSize record.payload)).sum, renumber records⟩
  { accumulator with ready := batch :: accumulator.ready }

def needsNewBatch (accumulator : Accumulator) (recordSize : Nat)
    (transactionGeneration : Option Nat) : Bool :=
  match accumulator.current with
  | none => true
  | some batch =>
    batch.transactionGeneration != transactionGeneration ||
      (batch.sizeBytes + recordSize > accumulator.batchSize && !batch.isEmpty)

def append (accumulator : Accumulator) (handle : Nat) (payload : Payload)
    (transactionGeneration : Option Nat) (now : Nat) : Accumulator :=
  let recordSize := approxRecordSize payload
  let opened : Accumulator × InProgressBatch :=
    match accumulator.current with
    | some batch =>
      if accumulator.needsNewBatch recordSize transactionGeneration then
        ({ accumulator with ready := accumulator.ready ++ [batch] },
          InProgressBatch.new transactionGeneration now)
      else (accumulator, batch)
    | none => (accumulator, InProgressBatch.new transactionGeneration now)
  { opened.1 with
    current := some { opened.2 with
      records := opened.2.records ++ [⟨handle, opened.2.records.length, payload⟩]
      sizeBytes := opened.2.sizeBytes + recordSize } }

/-- Whether the current batch holds a record. -/
def hasCurrent (accumulator : Accumulator) : Bool :=
  match accumulator.current with
  | some batch => !batch.isEmpty
  | none => false

def sealCurrent (accumulator : Accumulator) : Accumulator :=
  match accumulator.current with
  | some batch =>
    { accumulator with
      current := none
      ready := if batch.isEmpty then accumulator.ready else accumulator.ready ++ [batch] }
  | none => accumulator

/-- The batches, the oldest first. -/
def batches (accumulator : Accumulator) : List InProgressBatch :=
  accumulator.ready ++ accumulator.current.toList

/-- The records that wait, in the order in which they leave. -/
def queued (accumulator : Accumulator) : List PendingRecord :=
  accumulator.batches.flatMap InProgressBatch.records

/-! ## The records that wait -/

section

variable (accumulator : Accumulator)

theorem queued_eq :
    accumulator.queued = accumulator.ready.flatMap InProgressBatch.records ++
      (accumulator.current.toList).flatMap InProgressBatch.records := by
  rw [queued, batches, flatMap_append]

/-- What does not depend on the offset delta stays. -/
theorem map_renumber {Value : Type} (read : PendingRecord -> Value)
    (same : forall record delta, read { record with offsetDelta := delta } = read record)
    (records : List PendingRecord) : (renumber records).map read = records.map read := by
  apply ext_getElem?
  intro index
  simp only [renumber, getElem?_map, getElem?_mapIdx]
  cases records[index]? with
  | none => rfl
  | some record => exact congrArg some (same record index)

theorem handles_renumber (records : List PendingRecord) :
    handles (renumber records) = handles records :=
  map_renumber PendingRecord.handle (fun _ _ => rfl) records

theorem handles_append (left right : List PendingRecord) :
    handles (left ++ right) = handles left ++ handles right :=
  map_append

theorem queued_sealCurrent :
    accumulator.sealCurrent.queued = accumulator.queued := by
  unfold sealCurrent
  cases found : accumulator.current with
  | none => rfl
  | some batch =>
    rw [queued_eq, queued_eq, found]
    dsimp only
    by_cases none : batch.isEmpty = true
    · rw [if_pos none]
      have noRecords : batch.records = [] := isEmpty_iff.mp none
      simp [noRecords]
    · rw [if_neg none]
      simp

theorem handles_queued_append (handle : Nat) (payload : Payload)
    (transactionGeneration : Option Nat) (now : Nat) :
    handles (accumulator.append handle payload transactionGeneration now).queued =
      handles accumulator.queued ++ [handle] := by
  rw [queued_eq, queued_eq]
  unfold append
  cases found : accumulator.current with
  | none => simp [handles, InProgressBatch.new]
  | some batch =>
    dsimp only
    by_cases full : accumulator.needsNewBatch (approxRecordSize payload)
        transactionGeneration = true
    · rw [if_pos full]
      simp [handles, InProgressBatch.new]
    · rw [if_neg full]
      simp [handles]

theorem handles_queued_pushFront (records : List PendingRecord) (transactionGeneration : Option Nat)
    (createdAt : Nat) :
    handles (accumulator.pushFront records transactionGeneration createdAt).queued =
      handles records ++ handles accumulator.queued := by
  unfold pushFront
  rw [queued_eq, queued_eq]
  simp only [flatMap_cons, append_assoc, handles_append, handles_renumber]

end

theorem hasCurrent_eq_false (isEmpty : accumulator.hasCurrent = false) :
    (accumulator.current.toList).flatMap InProgressBatch.records = [] := by
  unfold hasCurrent at isEmpty
  cases found : accumulator.current with
  | none => rfl
  | some batch =>
    rw [found] at isEmpty
    simpa [InProgressBatch.isEmpty] using isEmpty

theorem queued_eq_nil (noCurrent : accumulator.hasCurrent = false)
    (noReady : accumulator.ready = []) : accumulator.queued = [] := by
  rw [queued_eq, noReady, hasCurrent_eq_false noCurrent]
  rfl

end Accumulator

end Producer
end Krabka
