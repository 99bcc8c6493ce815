import Mathlib.Data.Finset.Basic
import Mathlib.Data.List.Sort
import Krabka.Consumer.FetchBuffer

namespace Krabka
namespace Consumer

open Collections List

/-!
# Fetched record batches

`process_partition_records` of `poll.rs`: the batches of one row of a Fetch
response become a `BufferedPartition`.  The broker returns whole batches, with
control batches and aborted records, so the client leaves out what is below the
fetch offset and, under `read_committed`, what belongs to an aborted
transaction.  `Finset` stands for the `HashSet` of producer ids.
-/

inductive IsolationLevel where
  | readUncommitted
  | readCommitted
deriving DecidableEq, Repr

inductive TimestampType where
  | createTime
  | logAppendTime
deriving DecidableEq, Repr

abbrev Bytes := List UInt8

structure Header where
  key : String
  value : Option Bytes
deriving DecidableEq, Repr

structure Record where
  offsetDelta : Int
  timestampDelta : Int
  key : Option Bytes
  value : Option Bytes
  headers : List Header
deriving DecidableEq, Repr

structure RecordBatch where
  baseOffset : Int
  lastOffsetDelta : Int
  partitionLeaderEpoch : Int
  isControlBatch : Bool
  isTransactional : Bool
  timestampType : TimestampType
  producerId : Int
  baseTimestamp : Int
  maxTimestamp : Int
  records : List Record
deriving DecidableEq, Repr

structure AbortedTransaction where
  firstOffset : Int
  producerId : Int
deriving DecidableEq, Repr

/-- The records of a row: v2 batches, or a message set of an older format. -/
inductive RecordsPayload where
  | v2 (batches : List RecordBatch)
  | legacy
deriving DecidableEq, Repr

def RecordsPayload.asV2 : RecordsPayload -> Option (List RecordBatch)
  | .v2 batches => some batches
  | .legacy => none

structure PartitionData where
  partitionIndex : Int
  records : Option RecordsPayload
  abortedTransactions : Option (List AbortedTransaction)
deriving DecidableEq, Repr

/-- The fields of a `ConsumerRecord` that only the application reads. -/
structure RecordData where
  timestamp : Int
  timestampType : TimestampType
  key : Option Bytes
  value : Option Bytes
  headers : List Header
deriving DecidableEq, Repr

/-! ## Helpers -/

def isReadCommitted (isolationLevel : IsolationLevel) : Bool :=
  isolationLevel = .readCommitted

def abortedTxnStarted (firstOffset batchBaseOffset : Int) : Bool :=
  firstOffset ≤ batchBaseOffset

def shouldDropAbortedBatch (readCommitted isTransactional producerIsAborted : Bool) : Bool :=
  readCommitted && isTransactional && producerIsAborted

def recordOffset (baseOffset offsetDelta : Int) : Int :=
  baseOffset + offsetDelta

def recordTimestamp (batch : RecordBatch) (record : Record) : Int × TimestampType :=
  match batch.timestampType with
  | .createTime => (batch.baseTimestamp + record.timestampDelta, .createTime)
  | .logAppendTime => (batch.maxTimestamp, .logAppendTime)

def RecordBatch.lastOffset (batch : RecordBatch) : Int :=
  batch.baseOffset + batch.lastOffsetDelta

def nextOffsetAfter (batches : List RecordBatch) : Option Int :=
  (batches.map (fun batch => batch.baseOffset + batch.lastOffsetDelta + 1)).max?

/-! ## `process_partition_records` -/

/-- The aborted transactions that have not started yet, and the producers with
an aborted transaction that has. -/
structure AbortFilter where
  aborted : List (Int × Int)
  abortedPids : Finset Int
deriving DecidableEq

/-- Move every aborted transaction that starts at or before the batch into the
active set. -/
def AbortFilter.start (baseOffset : Int) : List (Int × Int) -> Finset Int -> AbortFilter
  | [], pids => ⟨[], pids⟩
  | (firstOffset, pid) :: rest, pids =>
    if abortedTxnStarted firstOffset baseOffset then start baseOffset rest (insert pid pids)
    else ⟨(firstOffset, pid) :: rest, pids⟩

def sortAborted (aborted : List AbortedTransaction) : List (Int × Int) :=
  (aborted.map (fun txn => (txn.firstOffset, txn.producerId))).insertionSort
    (fun left right => left.1 < right.1 ∨ left.1 = right.1 ∧ left.2 ≤ right.2)

section Row

variable (readCommitted : Bool) (fetchFloor : Int) (topicPartition : TopicPartition)

def consumerRecord (batch : RecordBatch) (record : Record) : ConsumerRecord RecordData where
  key := topicPartition
  offset := recordOffset batch.baseOffset record.offsetDelta
  leaderEpoch := batch.partitionLeaderEpoch
  data :=
    { timestamp := (recordTimestamp batch record).1
      timestampType := (recordTimestamp batch record).2
      key := record.key
      value := record.value
      headers := record.headers }

def batchRecords (batch : RecordBatch) : List (ConsumerRecord RecordData) :=
  (batch.records.filter (fun record =>
    !decide (recordOffset batch.baseOffset record.offsetDelta < fetchFloor))).map
    (consumerRecord topicPartition batch)

/-- The loop over the batches: the records that it pushes. -/
def processBatches (filter : AbortFilter) :
    List RecordBatch -> List (ConsumerRecord RecordData)
  | [] => []
  | batch :: rest =>
    let filter :=
      if readCommitted then AbortFilter.start batch.baseOffset filter.aborted filter.abortedPids
      else filter
    if batch.isControlBatch then
      -- A control batch of a producer ends its aborted transaction.
      processBatches
        (if readCommitted then
          { filter with abortedPids := filter.abortedPids.erase batch.producerId }
        else filter) rest
    else if shouldDropAbortedBatch readCommitted batch.isTransactional
        (decide (batch.producerId ∈ filter.abortedPids)) then
      processBatches filter rest
    else
      batchRecords fetchFloor topicPartition batch ++ processBatches filter rest

end Row

def processPartitionRecords (isolationLevel : IsolationLevel)
    (offsets : SortedMap TopicPartition Int) (key : TopicPartition) (topicName : String)
    (part : PartitionData) : Option (BufferedPartition RecordData) := do
  let batches <- part.records >>= RecordsPayload.asV2
  let fetchFloor := (offsets.get? key).getD 0
  let readCommitted := isReadCommitted isolationLevel
  let aborted := if readCommitted then sortAborted (part.abortedTransactions.getD []) else []
  let records := processBatches readCommitted fetchFloor ⟨topicName, part.partitionIndex⟩
    ⟨aborted, ∅⟩ batches
  let nextOffset <- nextOffsetAfter batches
  return {
    key
    position := fetchFloor
    records
    nextOffset
    lastEpoch := (batches.map RecordBatch.partitionLeaderEpoch).max? }

/-! ## The rows that have batches -/

theorem nextOffsetAfter_isSome {batches : List RecordBatch} (nonempty : batches ≠ []) :
    Exists fun nextOffset => nextOffsetAfter batches = some nextOffset ∧
      (forall batch, batch ∈ batches -> batch.lastOffset < nextOffset) ∧
      Exists fun batch => batch ∈ batches ∧ nextOffset = batch.lastOffset + 1 := by
  cases isMax : nextOffsetAfter batches with
  | none => exact absurd (map_eq_nil_iff.mp (max?_eq_none_iff.mp isMax)) nonempty
  | some nextOffset =>
    rcases (max?_eq_some_iff).mp isMax with ⟨member, greatest⟩
    rcases mem_map.mp member with ⟨last, isBatch, isLast⟩
    refine ⟨nextOffset, rfl, fun batch inside => ?_, last, isBatch, isLast.symm⟩
    exact greatest _ (mem_map_of_mem inside)

theorem mem_sortAborted {aborted : List AbortedTransaction} {firstOffset pid : Int} :
    (firstOffset, pid) ∈ sortAborted aborted <-> ⟨firstOffset, pid⟩ ∈ aborted := by
  rw [sortAborted, (perm_insertionSort _ _).mem_iff, mem_map]
  refine ⟨?_, fun member => ⟨_, member, rfl⟩⟩
  rintro ⟨txn, member, same⟩
  cases same
  exact member

theorem sortAborted_sorted (aborted : List AbortedTransaction) :
    (sortAborted aborted).Pairwise (fun left right => left.1 ≤ right.1) := by
  let before : Int × Int -> Int × Int -> Prop :=
    fun left right => left.1 < right.1 ∨ left.1 = right.1 ∧ left.2 ≤ right.2
  have total : Std.Total before := ⟨fun left right => by simp only [before]; omega⟩
  have trans : IsTrans (Int × Int) before :=
    ⟨fun _ _ _ first second => by simp only [before] at first second ⊢; omega⟩
  refine (pairwise_insertionSort before _).imp fun {left right} isBefore => ?_
  omega

theorem batchRecords_mem {fetchFloor : Int} {topicPartition : TopicPartition} {batch : RecordBatch}
    {output : ConsumerRecord RecordData} :
    output ∈ batchRecords fetchFloor topicPartition batch <->
      Exists fun record => record ∈ batch.records ∧
        output = consumerRecord topicPartition batch record ∧ fetchFloor ≤ output.offset := by
  simp only [batchRecords, mem_map, mem_filter]
  constructor
  · rintro ⟨record, ⟨member, above⟩, same⟩
    refine ⟨record, member, same.symm, ?_⟩
    rw [← same]
    simpa [consumerRecord] using above
  · rintro ⟨record, member, same, above⟩
    refine ⟨record, ⟨member, ?_⟩, same.symm⟩
    rw [same] at above
    simpa [consumerRecord] using above

end Consumer
end Krabka
