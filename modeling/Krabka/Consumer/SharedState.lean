import Krabka.Consumer.Assignment
import Krabka.Consumer.FetchBuffer

namespace Krabka
namespace Consumer

open Collections List SortedMap

/-!
# The state of the consumer and its coordinator task

The assigned partitions, their ownership ids and their positions.  Each function
here is one critical section of the source, so that tasks interleave between
them and not inside.
-/

def I64_MAX : Int := 2 ^ 63 - 1

/-! ## Placeholders of `next_offsets` -/

def LATEST_SENTINEL : Int := I64_MAX
def BEGINNING_SENTINEL : Int := I64_MAX - 1
def END_SENTINEL : Int := I64_MAX - 2
def COMMITTED_SENTINEL : Int := I64_MAX - 3
def NO_OFFSET_SENTINEL : Int := I64_MAX - 4

def isResetSentinel (nextOffset : Int) : Bool :=
  decide (NO_OFFSET_SENTINEL ≤ nextOffset)

inductive AutoOffsetReset where
  | earliest
  | latest
  | byDuration (millis : Nat)
  | none
deriving DecidableEq, Repr

def resetStartingOffset : AutoOffsetReset -> Int
  | .earliest => BEGINNING_SENTINEL
  | .latest | .byDuration _ => LATEST_SENTINEL
  | .none => NO_OFFSET_SENTINEL

def startingOffset (committed : Int) (autoOffsetReset : AutoOffsetReset) : Int :=
  if 0 ≤ committed then committed else resetStartingOffset autoOffsetReset

/-! ## Positions of an assignment -/

/-- A partition of an `OffsetFetch` response. -/
structure CommittedOffset where
  key : TopicPartition
  offset : Int
  leaderEpoch : Int
deriving DecidableEq, Repr

structure Setting where
  key : TopicPartition
  offset : Int
  change : PartitionPosition -> PartitionPosition

def Consumed.set (consumed : Consumed) (setting : Setting) : Consumed where
  offsets := consumed.offsets.insert setting.key setting.offset
  positions := consumed.positions.insert setting.key
    (setting.change ((consumed.positions.get? setting.key).getD .default))

def Consumed.setAll (consumed : Consumed) (settings : List Setting) : Consumed :=
  settings.foldl Consumed.set consumed

/-- What `prime_offsets` sets: the partitions of the response, then those that it
omits. -/
def primeSettings (autoOffsetReset : AutoOffsetReset) (partitions : List TopicPartition)
    (response : List CommittedOffset) : List Setting :=
  let seen := response.map CommittedOffset.key
  response.map (fun committed =>
      ⟨committed.key, startingOffset committed.offset autoOffsetReset,
        fun position => { position with offsetEpoch := committed.leaderEpoch }⟩) ++
    (partitions.filter (fun partition => !seen.contains partition)).map
      (fun partition => ⟨partition, resetStartingOffset autoOffsetReset, id⟩)

def Consumed.retain (consumed : Consumed) (keep : TopicPartition -> Bool) : Consumed where
  offsets := consumed.offsets.filter (fun key _ => keep key)
  positions := consumed.positions.filter (fun key _ => keep key)

/-- `fail_partitions_without_offset`: the partitions that the error names. -/
def Consumed.partitionsWithoutOffset (consumed : Consumed) : List TopicPartition :=
  (consumed.offsets.filter (fun _ offset => decide (offset = NO_OFFSET_SENTINEL))).keys

/-! ## The shared state -/

structure SharedState where
  assigned : List TopicPartition
  ids : OwnershipIds
  /-- The ids taken from `next_ownership_id`. -/
  allocated : Nat
  consumed : Consumed

namespace SharedState

def installAssignment (shared : SharedState) (assignment : List TopicPartition)
    (preserveRetained : Bool) : SharedState :=
  let granted := updateOwnership shared.ids assignment preserveRetained shared.allocated
  { shared with assigned := assignment, ids := granted.ids, allocated := granted.allocated }

/-- The sections of `unsubscribe`: `clear_assignment`, then the positions. -/
def clearAssignment (shared : SharedState) : SharedState :=
  { shared with assigned := [], ids := .empty }

def clearConsumed (shared : SharedState) : SharedState :=
  { shared with consumed := ⟨.empty, .empty⟩ }

def start (autoOffsetReset : AutoOffsetReset) (assigned : List TopicPartition)
    (response : List CommittedOffset) : SharedState where
  assigned := assigned
  ids := initialOwnership assigned
  allocated := assigned.length
  consumed := Consumed.setAll ⟨.empty, .empty⟩ (primeSettings autoOffsetReset [] response)

/-- `group_fetches`: the partitions to fetch, each with its offset.  `skipped` are
those that wait for a callback, are not subscribed, paused, buffered or led by a
broker with a pending fetch. -/
def groupFetches (shared : SharedState) (skipped : TopicPartition -> Bool) :
    List (TopicPartition × Int) :=
  shared.assigned.filterMap fun key =>
    if skipped key then none
    else if (shared.consumed.positions.get? key).any PartitionPosition.awaitingValidation then none
    else
      let next := (shared.consumed.offsets.get? key).getD 0
      if isResetSentinel next then none else some (key, next)

end SharedState

/-! ## Which partitions have a position -/

section Keys

variable {consumed : Consumed} {key : TopicPartition} {policy : AutoOffsetReset}

theorem contains_setAll {settings : List Setting} :
    (consumed.setAll settings).offsets.contains key = true <->
      key ∈ settings.map Setting.key ∨ consumed.offsets.contains key = true := by
  induction settings generalizing consumed with
  | nil => simp [Consumed.setAll]
  | cons setting rest ih =>
    rw [Consumed.setAll, foldl_cons, <- Consumed.setAll, ih, Consumed.set,
      SortedMap.contains_insert, map_cons, mem_cons, or_left_comm, or_assoc]

/-- Settings of other partitions change neither the offset nor the position. -/
theorem get?_setAll_of_notMem {settings : List Setting}
    (absent : forall setting, setting ∈ settings -> setting.key ≠ key) :
    (consumed.setAll settings).offsets.get? key = consumed.offsets.get? key ∧
      (consumed.setAll settings).positions.get? key = consumed.positions.get? key := by
  induction settings generalizing consumed with
  | nil => exact ⟨rfl, rfl⟩
  | cons setting rest ih =>
    have different : key ≠ setting.key := (absent setting mem_cons_self).symm
    have later := @ih (consumed.set setting)
      fun other isOther => absent other (mem_cons_of_mem _ isOther)
    exact ⟨later.1.trans (get?_insert_of_ne _ _ different),
      later.2.trans (get?_insert_of_ne _ _ different)⟩

theorem mem_primeSettings {partitions : List TopicPartition} {response : List CommittedOffset} :
    key ∈ (primeSettings policy partitions response).map Setting.key <->
      key ∈ response.map CommittedOffset.key ∨ key ∈ partitions := by
  have keys : (primeSettings policy partitions response).map Setting.key =
      response.map CommittedOffset.key ++ partitions.filter
        (fun partition => !(response.map CommittedOffset.key).contains partition) := by
    simp [primeSettings, Function.comp_def]
  rw [keys, mem_append, mem_filter, contains_eq_mem]
  generalize response.map CommittedOffset.key = seen
  by_cases member : key ∈ seen <;> simp [member]

theorem contains_retain {keep : TopicPartition -> Bool} :
    (consumed.retain keep).offsets.contains key = true <->
      keep key = true ∧ consumed.offsets.contains key = true := by
  rw [SortedMap.contains, Consumed.retain, get?_filter, SortedMap.contains]
  cases consumed.offsets.get? key with
  | none => simp
  | some offset => simp [Option.filter_some]

theorem get?_retain_of_keep {keep : TopicPartition -> Bool} (isKept : keep key = true) :
    (consumed.retain keep).offsets.get? key = consumed.offsets.get? key ∧
      (consumed.retain keep).positions.get? key = consumed.positions.get? key := by
  unfold Consumed.retain
  rw [get?_filter, get?_filter, isKept]
  constructor
  · cases consumed.offsets.get? key <;> rfl
  · cases consumed.positions.get? key <;> rfl

end Keys

end Consumer
end Krabka
