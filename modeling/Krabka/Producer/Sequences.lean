import Krabka.Producer.Resolution

namespace Krabka
namespace Producer

/-!
# Sequence numbers

`prepare_batch` gives each batch the next sequence of its partition and moves that
on with `wrapping_add`, so past `i32::MAX` it goes on at `i32::MIN`.  The sequence
space of Kafka goes on at 0.  A batch is bounded by `batch_size`, an `i32`, so the
conversion of its length never saturates.
-/

namespace World

variable {key : TopicPartition} {batches : List InProgressBatch} {worlds : Nat -> World}

/-- The worlds in which the batches of a partition are drained, one after another.
Nothing else changes the next sequence of the partition. -/
structure Drains (key : TopicPartition) (batches : List InProgressBatch) (worlds : Nat -> World) :
    Prop where
  first : (worlds 0).nextSequence key = 0
  kept : forall index batch, batches[index]? = some batch -> Exists fun loop => Exists fun leader =>
    (worlds (index + 1)).nextSequence key =
      ((worlds index).allocateStep loop key leader batch).nextSequence key

def recordsBefore (batches : List InProgressBatch) (index : Nat) : Nat :=
  ((batches.take index).map fun batch => batch.records.length).sum

theorem nextSequence_allocateStep (world : World) (loop : DrainLoop) (leader : Int)
    (batch : InProgressBatch) : (world.allocateStep loop key leader batch).nextSequence key =
      wrappingAdd (world.nextSequence key) batch.records.length := by
  simp [allocateStep, goto, nextSequence]

theorem recordsBefore_succ {index : Nat} {batch : InProgressBatch}
    (found : batches[index]? = some batch) :
    recordsBefore batches (index + 1) = recordsBefore batches index + batch.records.length := by
  simp [recordsBefore, List.take_add_one, found]

theorem Drains.nextSequence_eq (drains : Drains key batches worlds) {index : Nat}
    (bounded : index ≤ batches.length) :
    (worlds index).nextSequence key = Int.bmod (recordsBefore batches index) (2 ^ 32) := by
  induction index with
  | zero => simpa [recordsBefore] using drains.first
  | succ index ih =>
    have found : batches[index]? = some batches[index] := List.getElem?_eq_getElem bounded
    rcases drains.kept index batches[index] found with ⟨loop, leader, isNext⟩
    rw [isNext, nextSequence_allocateStep, ih (Nat.le_of_lt bounded), wrappingAdd,
      Int.bmod_add_bmod, recordsBefore_succ found, Nat.cast_add]

/-- Up to the wrap of the `i32`, and again after the whole way around, each batch
gets the sequence that Kafka expects. -/
theorem drained_sequences (drains : Drains key batches worlds) {index : Nat}
    {batch : InProgressBatch} (found : batches[index]? = some batch)
    (within : recordsBefore batches index % 2 ^ 32 < 2 ^ 31) (loop : DrainLoop) (leader : Int) :
    Exists fun baseSequence =>
      ((worlds index).allocateStep loop key leader batch).phase =
          .snapshotState loop key leader batch baseSequence ∧
        baseSequence = (recordsBefore batches index : Int) % 2 ^ 31 ∧ 0 ≤ baseSequence := by
  have bounded := (List.getElem?_eq_some_iff.mp found).1
  refine ⟨(worlds index).nextSequence key, rfl, ?_⟩
  rw [drains.nextSequence_eq (Nat.le_of_lt bounded), Int.bmod_def]
  norm_num at within ⊢
  split_ifs <;> omega

open Sample

def drainedBatch (count : Nat) : InProgressBatch :=
  ⟨none, 0, 0, List.replicate count ⟨0, 0, payload⟩⟩

def drainedOrders : DrainLoop := ⟨⟨.ready, 0⟩, [], [], .empty, []⟩

/-- Batches of three records are drained. -/
def drainedThrees : Nat -> World
  | 0 => start .idempotent
  | index + 1 => (drainedThrees index).allocateStep drainedOrders orders 0 (drainedBatch 3)

theorem drained_sequences_third :
    Exists fun baseSequence =>
      ((drainedThrees 2).allocateStep drainedOrders orders 0 (drainedBatch 3)).phase =
          .snapshotState drainedOrders orders 0 (drainedBatch 3) baseSequence ∧
        baseSequence = (recordsBefore (List.replicate 3 (drainedBatch 3)) 2 : Int) % 2 ^ 31 ∧
          0 ≤ baseSequence := by
  have drains : Drains orders (List.replicate 3 (drainedBatch 3)) drainedThrees := by
    refine ⟨rfl, fun index batch found => ?_⟩
    rw [List.eq_of_mem_replicate (List.mem_of_getElem? found)]
    exact ⟨drainedOrders, 0, rfl⟩
  exact drained_sequences drains (by rfl) (by decide) drainedOrders 0

/-- The batch behind `i32::MAX` gets a negative sequence. -/
theorem sequence_wraps_negative :
    (((start .idempotent).allocateStep drainedOrders orders 0
        (drainedBatch (2 ^ 31 - 1))).allocateStep drainedOrders orders 0
          (drainedBatch 1)).nextSequence orders = -2 ^ 31 := by
  rw [nextSequence_allocateStep, nextSequence_allocateStep, drainedBatch, drainedBatch,
    List.length_replicate, List.length_replicate]
  decide

end World

end Producer
end Krabka
