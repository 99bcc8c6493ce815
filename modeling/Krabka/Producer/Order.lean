import Krabka.Producer.Resolution

namespace Krabka
namespace Producer

open Collections List

/-!
# The records of a partition stay in order

A partition has at most one drained batch, so a later record is not sent
before the earlier ones of its partition left the producer.
-/

/-- A batch of `key` on the wire: its records are in order, and what was accepted
for `key` before one of them is resolved or in the batch. -/
def SentInOrder (before : List Event) (event : Event) : Prop :=
  match event with
  | .sent key _ records =>
    records.Pairwise (· < ·) ∧ forall late, late ∈ records ->
      partitionOf before late = some key ∧ forall early, early < late ->
        partitionOf before early = some key ->
          early ∈ resolvedHandles before ∨ early ∈ records
  | _ => True

namespace World

structure Ordered (world : World) : Prop where
  /-- No partition has two batches on the wire or in the retry slots. -/
  single : (world.requests.map (fun request => request.batch.key) ++ world.retry.keys).Nodup
  sent : world.Recorded SentInOrder
  /-- The acknowledged records of a partition, in the order of their
  acknowledgements. -/
  acked : forall key, ((ackedHandles world.log).filter
    (fun record => partitionOf world.log record = some key)).Pairwise (· < ·)

variable {config : Config} {world : World}

theorem Invariant.single (invariant : world.Invariant) :
    (world.requests.map (fun request => request.batch.key) ++ world.retry.keys).Nodup := by
  have apart : Distinct (world.onWire + world.parked) := by
    apply invariant.distinct.of_le
    rw [drained, add_comm world.onWire]
    exact Multiset.le_add_right _ _
  have slots : world.retry.keys = (world.retry.entries.map Prod.snd).map PreparedBatch.key := by
    rw [SortedMap.keys, map_map]
    apply map_congr_left
    intro slot member
    exact (invariant.shape.keyed slot.1 slot.2 ((SortedMap.mem_entries_iff _ _ _).mp member)).symm
  rw [Distinct, onWire, parked, parcels, parcels, Multiset.coe_add, Multiset.map_coe,
    Multiset.coe_nodup, map_append, map_map, map_map, map_map] at apart
  rw [slots]
  exact apart

theorem Invariant.sentInOrder (invariant : world.Invariant) {index : Nat} {request : Request}
    (found : world.requests[index]? = some request) :
    SentInOrder world.log
      (.sent request.batch.key request.batch.recordBatch (handles request.batch.records)) := by
  have held : (request.batch.key, handles request.batch.records) ∈ world.ledger.drained :=
    mem_drained_request (mem_of_getElem? found)
  refine ⟨invariant.sound.parcel_ordered held, fun late member => ⟨?_, ?_⟩⟩
  · rw [← owner_eq_partitionOf]
    exact invariant.sound.owner_of_held held member
  · intro early earlier owned
    rw [← owner_eq_partitionOf] at owned
    rcases invariant.sound.before_parcel held member earlier owned with resolved | inside
    · exact .inl ((resolvedHandles_perm world.log).mem_iff.mpr resolved)
    · exact .inr inside

theorem run_sentInOrder {acts : List Act} (ran : (start config).run config acts = some world) :
    world.Recorded SentInOrder := by
  apply run_induction (Recorded SentInOrder) ?_ (recorded_start config) ran
  intro before act after invariant recorded stepped
  refine recorded.step ?_ stepped
  intro event adds marked
  cases adds with
  | sent found queued unbarred => exact invariant.sentInOrder found
  | plain unmarked =>
    have unmarkedEvent := unmarked event mem_cons_self
    simp [unmarkedEvent] at marked
  | _ => trivial

/-- Every run keeps the records of each partition in order. -/
theorem run_ordered {acts : List Act} (ran : (start config).run config acts = some world) :
    world.Ordered := by
  have invariant := run_custody ran
  refine ⟨invariant.single, run_sentInOrder ran, ?_⟩
  intro key
  have ordered := invariant.sound.acked_ordered key
  rw [Ledger.ofKey] at ordered
  simp only [owner_eq_partitionOf] at ordered
  exact ordered

open Sample

theorem run_ordered_delivery :
    Exists fun world => (start .idempotent).run .idempotent delivery = some world ∧
      ackedHandles world.log = [0, 1] ∧ world.Ordered :=
  ⟨_, rfl, rfl, @run_ordered .idempotent _ delivery rfl⟩

end World

end Producer
end Krabka
