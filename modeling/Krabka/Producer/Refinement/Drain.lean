import Krabka.Producer.Custody

namespace Krabka
namespace Producer

open Collections List SortedMap

/-!
# Every step is a move of custody

The faithful machine refines `Ledger`: each step of a run is one move of the
ledger of its world.  Two facts about the program are needed on the way.  A
retry slot is free when the sender parks a batch in it, because the batch is
the only drained one of its partition.  A partition is idle when the sender
pops a batch of it, because the local set `occupied` covers every partition
with a drained batch.
-/

/-- No two parcels have the same partition. -/
def Distinct (parcels : Multiset Parcel) : Prop := (parcels.map Prod.fst).Nodup

theorem Distinct.of_le {few many : Multiset Parcel} (distinct : Distinct many)
    (less : few ≤ many) : Distinct few :=
  Multiset.nodup_of_le (Multiset.map_le_map less) distinct

/-- What the sender knows at a phase: the partitions of the drained batches, and
that a cycle it settles was not fenced. -/
def Phase.Covers (drained : Multiset Parcel) : Phase -> Prop
  | .drainKeys loop => forall parcel, parcel ∈ drained -> parcel.1 ∈ loop.occupied
  | .popReady loop key _ =>
    (forall parcel, parcel ∈ drained -> parcel.1 ∈ loop.occupied) ∧ key ∉ loop.occupied
  | .barPopped loop key _ _ => forall parcel, parcel ∈ drained -> parcel.1 ∈ key :: loop.occupied
  | .allocate loop key _ _ => forall parcel, parcel ∈ drained -> parcel.1 ∈ key :: loop.occupied
  | .snapshotState loop key _ _ _ =>
    forall parcel, parcel ∈ drained -> parcel.1 ∈ key :: loop.occupied
  | .snapshotIdentity loop key _ _ _ =>
    forall parcel, parcel ∈ drained -> parcel.1 ∈ key :: loop.occupied
  | .settle _ cycle => cycle.fenced = none
  | .requeue _ cycle _ => cycle.fenced = none
  | _ => True

theorem Phase.Covers.mono {few many : Multiset Parcel} {phase : Phase}
    (covers : phase.Covers many) (subset : forall parcel, parcel ∈ few -> parcel ∈ many) :
    phase.Covers few := by
  cases phase <;> simp only [Phase.Covers] at covers ⊢ <;>
    first
    | exact covers
    | exact fun parcel member => covers parcel (subset parcel member)
    | exact ⟨fun parcel member => covers.1 parcel (subset parcel member), covers.2⟩

variable {world : World} {routed : List (Int × PreparedBatch)} {expired : List InProgressBatch}
  {batches : List PreparedBatch} {keys : List TopicPartition}

namespace World

/-- What the control state of the sender keeps. -/
structure Shape (world : World) : Prop where
  keyed : forall key batch, world.retry.get? key = some batch -> batch.key = key
  wire : forall request, request ∈ world.requests -> request.batch.key ∈ world.occupied
  covers : world.phase.Covers world.standing

theorem Shape.covers_at {source : Phase} (shape : world.Shape) (atPhase : world.phase = source) :
    source.Covers (world.parked + world.onWire + source.held) :=
  atPhase ▸ shape.covers

/-! ## Retry slots -/

theorem foldl_park (batches : List PreparedBatch) (world : World) :
    batches.foldl park world = { world with
        retry := batches.foldl (fun slots batch => slots.insert batch.key batch) world.retry } := by
  induction batches generalizing world with
  | nil => rfl
  | cons batch rest ih =>
    rw [foldl_cons, ih]
    rfl

variable {batch : PreparedBatch}

section

variable {world : World}
  (keyed : forall key stored, world.retry.get? key = some stored -> stored.key = key)

include keyed

theorem keyed_park (key : TopicPartition) (stored : PreparedBatch)
    (found : (world.park batch).retry.get? key = some stored) : stored.key = key := by
  rcases of_get?_insert found with ⟨same, isBatch⟩ | ⟨_, found⟩
  · rw [isBatch, same]
  · exact keyed key stored found

theorem keyed_foldl_park :
    forall key stored, (batches.foldl park world).retry.get? key = some stored ->
      stored.key = key := by
  induction batches generalizing world with
  | nil => exact keyed
  | cons batch rest ih => exact ih (keyed_park keyed)

theorem slot_free (distinct : Distinct ({batch.parcel} + world.parked)) :
    world.retry.get? batch.key = none := by
  cases found : world.retry.get? batch.key with
  | none => rfl
  | some stored =>
    have inSlot : stored.parcel ∈ world.parked := by
      apply Multiset.mem_coe.mpr
      apply mem_map_of_mem
      exact mem_map_of_mem (f := Prod.snd) ((mem_entries_iff _ _ _).mpr found)
    have sameKey : stored.parcel.1 = batch.parcel.1 := keyed batch.key stored found
    rw [Distinct, Multiset.singleton_add, Multiset.map_cons, Multiset.nodup_cons] at distinct
    exact absurd (Multiset.mem_map.mpr ⟨stored.parcel, inSlot, sameKey⟩) distinct.1

end

theorem parked_park (free : world.retry.get? batch.key = none) :
    (world.park batch).parked = {batch.parcel} + world.parked :=
  parcels_perm ((entries_insert_perm batch free).map Prod.snd)

theorem parked_foldl_park
    (keyed : forall key stored, world.retry.get? key = some stored -> stored.key = key)
    (distinct : Distinct (parcels batches + world.parked)) :
    (batches.foldl park world).parked = parcels batches + world.parked := by
  induction batches generalizing world with
  | nil => simp
  | cons batch rest ih =>
    have regroup : parcels (batch :: rest) + world.parked =
        parcels rest + ({batch.parcel} + world.parked) := by
      rw [parcels_cons]
      abel
    rw [regroup] at distinct ⊢
    have free := slot_free keyed (distinct.of_le (Multiset.le_add_left _ _))
    rw [foldl_cons, ← parked_park free]
    rw [← parked_park free] at distinct
    exact ih (keyed_park keyed) distinct

/-- A batch leaves its retry slot. -/
theorem parked_erase {key : TopicPartition} (found : world.retry.get? key = some batch) :
    world.parked = {batch.parcel} + { world with retry := world.retry.erase key }.parked :=
  parcels_perm ((entries_erase_perm found).map Prod.snd)

theorem arrange_perm {Item : Type} (choice : Choice) (key : Item -> TopicPartition)
    (items : List Item) : (choice.arrange key items).Perm items :=
  perm_insertionSort _ items

theorem parcels_arrange (world : World) (choice : Choice) :
    parcels ((choice.arrange Prod.fst world.retry.entries).map Prod.snd) = world.parked :=
  parcels_perm ((arrange_perm choice Prod.fst world.retry.entries).map Prod.snd)

/-! ## Steps that only move batches inside the sender -/

/-- One step is a move of the ledger that may give back the batch of
`returned`, and keeps the control state in shape. -/
structure RefinedBy (returned : Option TopicPartition) (world next : World) : Prop where
  move : Ledger.Move returned world.ledger next.ledger
  shape : next.Shape

/-- A step that gives no batch back to its queue. -/
abbrev Refined := RefinedBy none

variable {next : World}

theorem RefinedBy.of_refined {returned : Option TopicPartition} (refined : Refined world next) :
    RefinedBy returned world next :=
  ⟨refined.move.weaken, refined.shape⟩

/-- A step that keeps the queues and the history of the records, and moves
batches inside the sender. -/
theorem refined_inside (accepted : acceptances next.log = acceptances world.log)
    (resolved : resolutions next.log = resolutions world.log) (queues : next.queue = world.queue)
    (counter : next.inFlight = world.inFlight) (taken : next.phase.taken = world.phase.taken)
    (drained : next.drained = world.drained) (finishing : next.finishing = world.finishing)
    (shape : next.Shape) :
    Refined world next := by
  have same : next.ledger = world.ledger := by
    simp only [ledger, accepted, queues, counter, taken, drained, finishing, ackedHandles,
      failedHandles, resolved]
  refine ⟨?_, shape⟩
  rw [same]
  exact .stay _

/-- A change of fields that custody does not depend on. -/
structure SameCustody (world other : World) : Prop where
  accepted : acceptances other.log = acceptances world.log
  resolved : resolutions other.log = resolutions world.log
  queues : other.queue = world.queue
  counter : other.inFlight = world.inFlight
  retry : other.retry = world.retry
  requests : other.requests = world.requests
  occupied : other.occupied = world.occupied
  calls : other.calls = world.calls

theorem SameCustody.refl (world : World) : SameCustody world world := (by constructor <;> rfl)

variable {other : World} {source target : Phase} {calls : List Call}

namespace SameCustody

variable (same : SameCustody world other) (shape : world.Shape)

include same

theorem parked : other.parked = world.parked := by rw [World.parked, World.parked, same.retry]

include shape

theorem keyed (key : TopicPartition) (stored : PreparedBatch)
    (found : other.retry.get? key = some stored) : stored.key = key :=
  shape.keyed key stored (same.retry ▸ found)

theorem wire (request : Request) (member : request ∈ other.requests) :
    request.batch.key ∈ other.occupied := by
  rw [same.occupied]
  exact shape.wire request (same.requests ▸ member)

end SameCustody

/-- Batches move inside the sender: to the retry slots, to new calls and to a new
phase. -/
theorem refined_moved (shape : world.Shape) (atPhase : world.phase = source)
    (same : SameCustody world { other with retry := world.retry })
    (keyed : forall key stored, other.retry.get? key = some stored -> stored.key = key)
    (taken : target.taken = source.taken)
    (held : other.parked + (target.held + callsHeld calls) = world.parked + source.held)
    (finishing : callsFinishing calls = 0)
    (covers : target.Covers (other.parked + world.onWire + target.held)) :
    Refined world (other.goto calls target) := by
  rcases same with ⟨accepted, resolved, queues, counter, _, requests, occupied, pending⟩
  dsimp only at requests occupied pending
  have wire : other.onWire = world.onWire := by rw [onWire, onWire, requests]
  have drainedSame : (other.goto calls target).drained = world.drained := by
    have regroup : (other.goto calls target).drained =
        other.parked + (target.held + callsHeld calls) +
          (other.onWire + callsHeld other.calls) := by
      change other.parked + other.onWire + (target.held + callsHeld (calls ++ other.calls)) = _
      rw [callsHeld_append]
      abel
    rw [regroup, held, wire, pending, drained, inHand, atPhase]
    abel
  refine refined_inside accepted resolved queues counter (taken.trans (atPhase ▸ rfl)) drainedSame
    ?_ ⟨keyed, ?_, ?_⟩
  · simp only [World.finishing, goto, pending, callsFinishing_append, finishing, Nat.zero_add]
  · intro request member
    change request.batch.key ∈ other.occupied
    rw [occupied]
    exact shape.wire request (requests ▸ member)
  · change target.Covers (other.parked + other.onWire + target.held)
    rw [wire]
    exact covers

/-- Go to a phase that holds the same batches, up to the new calls. -/
theorem refined_goto (shape : world.Shape) (atPhase : world.phase = source)
    (same : SameCustody world other) (taken : target.taken = source.taken)
    (held : target.held + callsHeld calls = source.held) (finishing : callsFinishing calls = 0)
    (covers : target.Covers (world.parked + world.onWire + target.held)) :
    Refined world (other.goto calls target) := by
  refine refined_moved shape atPhase { same with retry := rfl } (same.keyed shape) taken ?_
    finishing ?_
  · rw [same.parked, held]
  · rw [same.parked]
    exact covers

/-- Park `batches`, and go to a phase that holds the rest. -/
theorem refined_park (batches : List PreparedBatch) (shape : world.Shape)
    (distinct : Distinct world.drained) (atPhase : world.phase = source)
    (same : SameCustody world other) (taken : target.taken = source.taken)
    (held : target.held + callsHeld calls + parcels batches = source.held)
    (finishing : callsFinishing calls = 0) (uncovered : forall parcels, target.Covers parcels) :
    Refined world ((batches.foldl park other).goto calls target) := by
  have keyed := same.keyed shape
  have part : parcels batches + world.parked ≤ world.drained := by
    rw [drained, inHand, atPhase, ← held]
    refine Multiset.le_iff_exists_add.mpr
      ⟨world.onWire + (target.held + callsHeld calls + callsHeld world.calls), ?_⟩
    abel
  have parkedAll := parked_foldl_park keyed
    (same.parked ▸ distinct.of_le part : Distinct (parcels batches + other.parked))
  refine refined_moved shape atPhase ?_ (keyed_foldl_park keyed) taken ?_ finishing (uncovered _)
  · rw [foldl_park]
    exact { same with retry := rfl }
  · rw [parkedAll, same.parked, ← held]
    abel

/-! ## Records that leave the accumulators unsent -/

/-- A step that resolves queued records of one partition. -/
theorem refined_failQueued (key : TopicPartition) (lost kept : List Nat)
    (accepted : acceptances next.log = acceptances world.log)
    (acked : ackedHandles next.log = ackedHandles world.log)
    (failed : failedHandles next.log = failedHandles world.log ++ lost)
    (queues : next.queue = Function.update world.queue key kept)
    (counter : next.inFlight = world.inFlight) (taken : next.phase.taken = world.phase.taken)
    (drained : next.drained = world.drained) (finishing : next.finishing = world.finishing)
    (shape : next.Shape) (parts : (world.queue key).Perm (lost ++ kept))
    (order : kept.Sublist (world.queue key)) :
    Refined world next := by
  have same : next.ledger = { world.ledger with
      queue := Function.update world.ledger.queue key kept
      failed := world.ledger.failed ++ lost } := by
    simp only [ledger, accepted, acked, failed, queues, counter, taken, drained, finishing]
  refine ⟨?_, shape⟩
  rw [same]
  exact .failQueued _ key lost kept parts order

/-- What `fail_recovered_accumulator_batches` adds to the history. -/
def barredEvents (world : World) (batches : List InProgressBatch) : List Event :=
  batches.flatMap (fun batch =>
    match world.undrainedBarrier batch.transactionGeneration with
    | some barrier => failures batch.records barrier.error
    | none => [])

theorem barredEvents_spec (world : World) (batches : List InProgressBatch) :
    acceptances (world.barredEvents batches) = [] ∧ ackedHandles (world.barredEvents batches) = [] ∧
        failedHandles (world.barredEvents batches) =
          unsentHandles (batches.filter (fun batch => !world.passes batch)) := by
  induction batches with
  | nil => exact ⟨rfl, rfl, rfl⟩
  | cons batch rest ih =>
    have split : world.barredEvents (batch :: rest) =
        (match world.undrainedBarrier batch.transactionGeneration with
        | some barrier => failures batch.records barrier.error
        | none => []) ++ world.barredEvents rest := rfl
    rw [split, acceptances_append, ackedHandles_append, failedHandles_append, ih.1, ih.2.1, ih.2.2,
      filter_cons]
    cases barred : world.undrainedBarrier batch.transactionGeneration with
    | none => simp [passes, barred, acceptances, ackedHandles, failedHandles, resolutions]
    | some barrier => simp [passes, barred]

section Phases

variable {config : Config} {world : World} {choice : Choice} (shape : world.Shape)

include shape

/-! ## `drain_batches`: failures -/

variable {drain : Drain}

theorem retrySlotStep_refined {slots : List (TopicPartition × Barrier)}
    (atPhase : world.phase = .failRetrySlots drain slots) :
    Refined world (world.retrySlotStep choice drain slots) := by
  cases slots with
  | nil => exact refined_goto shape atPhase (.refl world) rfl rfl rfl trivial
  | cons slot rest =>
    rcases slot with ⟨key, barrier⟩
    rw [retrySlotStep]
    cases found : world.retry.get? key with
    | none => exact refined_goto shape atPhase (.refl world) rfl rfl rfl trivial
    | some batch =>
      refine refined_moved shape atPhase (by constructor <;> rfl) ?_ rfl ?_ rfl trivial
      · intro other stored kept
        apply shape.keyed other stored
        exact get?_of_filter kept
      · rw [parked_erase found]
        abel

theorem sweepKey_refined {generation : Nat}
    (atPhase : world.phase = .sweepRecovered drain generation keys) :
    Refined world (world.sweepKey drain generation keys) := by
  cases keys with
  | nil =>
    exact refined_goto shape atPhase (by constructor <;> rfl) rfl rfl rfl trivial
  | cons key rest =>
    rw [sweepKey]
    cases found : world.accumulators.get? key with
    | none => exact refined_goto shape atPhase (.refl world) rfl rfl rfl trivial
    | some accumulator =>
      have events := world.barredEvents_spec (accumulator.current.toList ++ accumulator.ready)
      have currentKept : (accumulator.current.filter world.passes).toList =
          accumulator.current.toList.filter world.passes := by
        cases accumulator.current with
        | none => rfl
        | some batch => by_cases passes : world.passes batch = true <;> simp [passes]
      refine refined_failQueued key
        (unsentHandles ((accumulator.current.toList ++ accumulator.ready).filter
          (fun batch => !world.passes batch)))
        (unsentHandles (accumulator.batches.filter world.passes))
        ?_ ?_ ?_ ?_ rfl (atPhase ▸ rfl) ?_ ?_ ⟨shape.keyed, shape.wire, trivial⟩ ?_ ?_
      · change acceptances (world.log ++ world.barredEvents _) = _
        rw [acceptances_append, events.1, append_nil]
      · change ackedHandles (world.log ++ world.barredEvents _) = _
        rw [ackedHandles_append, events.2.1, append_nil]
      · change failedHandles (world.log ++ world.barredEvents _) = _
        rw [failedHandles_append, events.2.2]
      · change (World.setAccumulator _ key _).queue = _
        rw [queue_setAccumulator, handles_queued]
        simp only [Accumulator.batches, currentKept, filter_append]
        rfl
      · simp only [drained, parked, onWire, inHand, atPhase]
        rfl
      · rfl
      · rw [queue_of_get? found, handles_queued]
        refine (unsentHandles_filter_perm world.passes accumulator.batches).trans ?_
        refine List.Perm.append_right _ ?_
        rw [Accumulator.batches, filter_append, filter_append, unsentHandles_append,
          unsentHandles_append]
        exact perm_append_comm
      · rw [queue_of_get? found, handles_queued]
        exact unsentHandles_filter_sublist world.passes accumulator.batches

omit shape in
/-- `take_expired_accumulator_batches` cuts the front off a queue. -/
theorem splitExpired_queued (config : Config) (now : Nat) (accumulator : Accumulator) :
    handles accumulator.queued = unsentHandles (splitExpired config now accumulator).1 ++
        handles (splitExpired config now accumulator).2.queued := by
  have parts : unsentHandles accumulator.ready = unsentHandles (accumulator.ready.takeWhile
        (fun batch => reachedDeliveryTimeout config batch.firstAppendAt now)) ++
      unsentHandles (accumulator.ready.dropWhile
        (fun batch => reachedDeliveryTimeout config batch.firstAppendAt now)) := by
    rw [← unsentHandles_append, takeWhile_append_dropWhile]
  simp only [handles_queued, Accumulator.batches, splitExpired, unsentHandles_append, parts]
  cases found : accumulator.current with
  | none => simp
  | some batch =>
    dsimp only
    split_ifs with whole
    · have noReady : accumulator.ready.dropWhile
          (fun batch => reachedDeliveryTimeout config batch.firstAppendAt now) = [] := by
        simp only [Bool.and_eq_true] at whole
        exact isEmpty_iff.mp whole.1
      simp [noReady]
    · simp

theorem takeExpiredKey_refined (atPhase : world.phase = .takeExpired drain keys expired) :
    Refined world (world.takeExpiredKey config drain keys expired) := by
  cases keys with
  | nil => exact refined_goto shape atPhase (.refl world) rfl rfl rfl trivial
  | cons key rest =>
    rw [takeExpiredKey]
    cases found : world.accumulators.get? key with
    | none => exact refined_goto shape atPhase (.refl world) rfl rfl rfl trivial
    | some accumulator =>
      have front := splitExpired_queued config drain.now accumulator
      rw [← queue_of_get? found] at front
      refine ⟨?_, shape.keyed, shape.wire, trivial⟩
      convert Ledger.Move.take world.ledger key _ _ front using 1
      simp only [ledger, Ledger.mk.injEq]
      refine ⟨rfl, queue_setAccumulator _ _ _, ?_, ?_, rfl, rfl, rfl, rfl⟩
      · rw [atPhase]
        simp [goto, Phase.taken]
      · simp only [drained, parked, onWire, inHand, atPhase]
        rfl

theorem failUnsentStep_refined {flagged : Bool}
    (atPhase : world.phase = .failUnsent drain flagged expired) :
    Refined world (world.failUnsentStep drain flagged expired) := by
  cases expired with
  | nil => exact refined_goto shape atPhase (.refl world) rfl rfl rfl trivial
  | cons batch rest =>
    rw [failUnsentStep]
    by_cases ready : flagged = true
    · rw [if_pos ready]
      refine ⟨?_, shape.keyed, shape.wire, trivial⟩
      have front : world.ledger.taken = handles batch.records ++ unsentHandles rest := by
        simp [ledger, atPhase, Phase.taken]
      convert Ledger.Move.failTaken world.ledger _ _ front using 1
      have log : ((world.failBatch batch.records .sendTimeout).goto []
          (.failUnsent drain false rest)).log =
            world.log ++ failures batch.records .sendTimeout := rfl
      simp only [ledger, Ledger.mk.injEq, log]
      refine ⟨by simp, rfl, rfl, ?_, rfl, rfl, by simp, by simp⟩
      simp only [drained, parked, onWire, inHand, atPhase]
      rfl
    · rw [if_neg ready]
      exact refined_goto shape atPhase (by constructor <;> rfl) rfl rfl rfl trivial

/-! ## `drain_batches`: resends -/

omit shape in
theorem bumpIdempotentEpoch_same : SameCustody world (world.bumpIdempotentEpoch choice).2 := by
  rw [bumpIdempotentEpoch]
  repeat' split
  all_goals exact by constructor <;> rfl

omit shape in
theorem repair_same (head : TopicPartition × SequenceRepair × Int) :
    SameCustody world (world.repair head) := by
  rw [repair]
  split_ifs <;> exact by constructor <;> rfl

variable {toSend : List PreparedBatch}

theorem expireStart_refined {expired : List PreparedBatch}
    (atPhase : world.phase = .expire expired toSend) :
    Refined world (world.expireStart choice expired toSend) := by
  rw [expireStart]
  split_ifs with bumps
  · exact refined_goto shape atPhase bumpIdempotentEpoch_same rfl (by simp [Phase.held]) rfl trivial
  · exact refined_goto shape atPhase (.refl world) rfl (by simp [Phase.held]) rfl trivial

theorem expireStep_refined (distinct : Distinct world.drained)
    {repairs : List (TopicPartition × SequenceRepair × Int)} {expired : List PreparedBatch}
    (atPhase : world.phase = .expireRepairs repairs expired toSend) :
    Refined world (world.expireStep repairs expired toSend) := by
  cases repairs with
  | cons head rest =>
    exact refined_goto shape atPhase (repair_same head) rfl (by simp [Phase.held]) rfl trivial
  | nil =>
    refine refined_park _ shape distinct atPhase (.refl world) rfl ?_
      (callsFinishing_map _ (fun _ => rfl) _) (fun _ => trivial)
    rw [callsHeld_map _ id (fun _ => rfl), map_id]
    simp [Phase.held]

theorem barRetryStep_refined {pending kept : List PreparedBatch}
    (atPhase : world.phase = .barRetries drain pending kept) :
    Refined world (world.barRetryStep drain pending kept) := by
  cases pending with
  | nil => exact refined_goto shape atPhase (.refl world) rfl (by simp [Phase.held]) rfl trivial
  | cons batch rest =>
    rw [barRetryStep]
    cases world.drainedBarrier batch.transactionGeneration with
    | none =>
      refine refined_goto shape atPhase (.refl world) rfl ?_ rfl trivial
      simp only [Phase.held, parcels_append, parcels_cons, parcels_nil, callsHeld_nil]
      abel
    | some barrier =>
      refine refined_goto shape atPhase (.refl world) rfl ?_ rfl trivial
      simp only [Phase.held, parcels_cons, callsHeld_cons, callsHeld_nil, Call.held,
        PreparedBatch.parcel]
      abel

omit shape in
theorem routeRetries_parcels (slots : SortedMap Int Nat) (toSend : List PreparedBatch) :
    parcels ((world.routeRetries config slots toSend).2.1.map Prod.snd) +
      parcels (world.routeRetries config slots toSend).2.2 = parcels toSend := by
  induction toSend generalizing slots with
  | nil => simp [routeRetries]
  | cons batch rest ih =>
    rw [routeRetries]
    split_ifs with available
    · simp only [map_cons, parcels_cons]
      rw [← ih (Capacity.reserve slots (world.resolveLeader batch.key))]
      abel
    · simp only [parcels_cons]
      rw [← ih slots]
      abel

theorem routeStep_refined (distinct : Distinct world.drained)
    (atPhase : world.phase = .route drain toSend) :
    Refined world (world.routeStep config drain toSend) := by
  refine refined_park _ shape distinct atPhase (.refl world) rfl ?_ rfl (fun _ => trivial)
  rw [callsHeld_nil, add_zero]
  exact routeRetries_parcels world.capacity toSend

omit shape in
/-- `collect_retries` sorts every retry slot into one of three lists. -/
theorem collected_parcels (reached waits : PreparedBatch -> Bool) (slots : List PreparedBatch) :
    parcels (slots.filter reached) + parcels (((slots.filter (fun batch => !reached batch)).filter
          (fun batch => !waits batch)).map (fun batch => { batch with backoffUntil := none })) +
      parcels ((slots.filter (fun batch => !reached batch)).filter waits) = parcels slots := by
  have cleared : forall batch : PreparedBatch,
      ({ batch with backoffUntil := none } : PreparedBatch).parcel = batch.parcel := fun _ => rfl
  rw [parcels_map cleared, add_assoc, add_comm (parcels _) (parcels (List.filter waits _)),
    parcels_filter waits, parcels_filter reached]

theorem collectRetries_refined (distinct : Distinct world.drained)
    (atPhase : world.phase = .collectRetries drain) :
    Refined world (world.collectRetries config choice drain) := by
  let slots := (choice.arrange Prod.fst world.retry.entries).map Prod.snd
  let reached := fun (batch : PreparedBatch) =>
    reachedDeliveryTimeout config batch.createdAt drain.now
  let waits := fun (batch : PreparedBatch) => batch.backoffUntil.any (fun time => drain.now < time)
  let live := slots.filter (fun batch => !reached batch)
  let toSend := (live.filter (fun batch => !waits batch)).map
    (fun batch => { batch with backoffUntil := none })
  have parts : parcels (slots.filter reached) + parcels toSend + parcels (live.filter waits) =
      world.parked :=
    (collected_parcels reached waits slots).trans (world.parcels_arrange choice)
  have emptied : world.clearRetry.parked = 0 := rfl
  have keyed : forall key stored, world.clearRetry.retry.get? key = some stored ->
      stored.key = key := fun key stored found => absurd found (by simp [clearRetry])
  have part : parcels (live.filter waits) + world.clearRetry.parked ≤ world.drained := by
    rw [emptied, drained, ← parts]
    refine Multiset.le_iff_exists_add.mpr
      ⟨parcels (slots.filter reached) + parcels toSend + (world.onWire + world.inHand), ?_⟩
    abel
  have parkedAll := parked_foldl_park keyed (distinct.of_le part)
  have general : forall target : Phase, target.taken = [] -> (forall parcels, target.Covers parcels) ->
      target.held = parcels (slots.filter reached) + parcels toSend ->
        Refined world (((live.filter waits).foldl park world.clearRetry).goto [] target) := by
    intro target taken covers held
    refine refined_moved shape atPhase ?_ (keyed_foldl_park keyed) taken ?_ rfl (covers _)
    · rw [foldl_park]
      exact by constructor <;> rfl
    · rw [parkedAll, emptied, held, ← parts]
      abel
  rw [collectRetries]
  split_ifs with noneExpired
  · refine general (.barRetries drain toSend []) rfl (fun _ => trivial) ?_
    have empty : slots.filter reached = [] := isEmpty_iff.mp noneExpired
    rw [empty]
    simp [Phase.held]
  · exact general (.expire (slots.filter reached) toSend) rfl (fun _ => trivial) rfl

/-! ## `drain_batches`: new batches -/

/-- `occupied` starts with every partition that has a drained batch. -/
theorem occupied_covers {parcel : Parcel}
    (member : parcel ∈ world.parked + world.onWire + parcels (routed.map Prod.snd)) :
    parcel.1 ∈ routed.map (fun route => route.2.key) ++ world.retry.keys ++ world.occupied := by
  rcases Multiset.mem_add.mp member with inSlotOrWire | inRouted
  · rcases Multiset.mem_add.mp inSlotOrWire with inSlot | onWire
    · rcases mem_map.mp (Multiset.mem_coe.mp inSlot) with ⟨batch, inEntries, same⟩
      rcases mem_map.mp inEntries with ⟨⟨key, stored⟩, entry, equal⟩
      have found := (mem_entries_iff _ _ _).mp entry
      have keyed := shape.keyed key stored found
      apply mem_append_left
      apply mem_append_right
      refine mem_map.mpr ⟨(key, stored), entry, ?_⟩
      rw [← same, ← equal]
      exact keyed.symm
    · rcases mem_map.mp (Multiset.mem_coe.mp onWire) with ⟨batch, inRequests, same⟩
      rcases mem_map.mp inRequests with ⟨request, present, equal⟩
      apply mem_append_right
      rw [← same, ← equal]
      exact shape.wire request present
  · rcases mem_map.mp (Multiset.mem_coe.mp inRouted) with ⟨batch, inBatches, same⟩
    rcases mem_map.mp inBatches with ⟨route, present, equal⟩
    apply mem_append_left
    apply mem_append_left
    refine mem_map.mpr ⟨route, present, ?_⟩
    rw [← same, ← equal]
    rfl

omit shape in
theorem checkedEpoch_same : SameCustody world (if world.identity.producerEpoch = I16_MAX then
    world.bumpIdempotentEpoch choice else (true, world)).2 := by
  split_ifs with exhausted
  · exact bumpIdempotentEpoch_same
  · exact .refl world

theorem checkEpochStep_refined (distinct : Distinct world.drained) {slots : SortedMap Int Nat}
    (atPhase : world.phase = .checkEpoch drain slots routed) :
    Refined world (world.checkEpochStep choice drain slots routed) := by
  have same := @checkedEpoch_same world choice
  dsimp only [checkEpochStep]
  generalize (if world.identity.producerEpoch = I16_MAX then world.bumpIdempotentEpoch choice
    else (true, world)) = bumped at same ⊢
  split
  · refine refined_goto shape atPhase same rfl (by simp [Phase.held, DrainLoop.held]) rfl ?_
    intro parcel member
    exact occupied_covers shape member
  · exact refined_park _ shape distinct atPhase (.refl world) rfl (by simp [Phase.held]) rfl
      (fun _ => trivial)

omit shape in
theorem parcels_requests (routed : List (Int × PreparedBatch)) :
    parcels ((routed.map (fun route =>
      (⟨route.1, route.2, world.lastAckedOffset.get? route.2.key, .queued⟩ : Request))).map
        Request.batch) = parcels (routed.map Prod.snd) := by
  rw [map_map]
  rfl

variable {loop : DrainLoop}

theorem drainKeyStep_refined (atPhase : world.phase = .drainKeys loop) :
    Refined world (world.drainKeyStep config loop) := by
  have covered := shape.covers_at atPhase
  rw [drainKeyStep]
  cases pending : loop.keys with
  | nil =>
    have drainedSame : ((world.launch loop.routed).goto [] .schedule).drained = world.drained := by
      simp only [drained, parked, onWire, inHand, goto, launch, atPhase, map_append,
        parcels_append, parcels_requests, Phase.held, DrainLoop.held, nil_append]
      abel
    refine refined_inside rfl rfl rfl rfl (atPhase ▸ rfl) drainedSame rfl ⟨shape.keyed, ?_, trivial⟩
    intro request member
    rcases mem_append.mp member with before | launched
    · exact mem_append_left _ (shape.wire request before)
    · rcases mem_map.mp launched with ⟨route, present, equal⟩
      apply mem_append_right
      exact mem_map.mpr ⟨route, present, by rw [← equal]⟩
  | cons key rest =>
    dsimp only
    cases found : world.accumulators.get? key with
    | none => exact refined_goto shape atPhase (.refl world) rfl (add_zero _) rfl covered
    | some accumulator =>
      dsimp only
      split_ifs with skipped seals
      · exact refined_goto shape atPhase (.refl world) rfl (add_zero _) rfl covered
      · have idle : key ∉ loop.occupied := by
          intro member
          exact skipped (by simp [member])
        have same : SameCustody world (world.setAccumulator key accumulator.sealCurrent) :=
          ⟨rfl, rfl, queue_setAccumulator_same found (by rw [Accumulator.queued_sealCurrent]),
            rfl, rfl, rfl, rfl, rfl⟩
        exact refined_goto shape atPhase same rfl (add_zero _) rfl ⟨covered, idle⟩
      · have idle : key ∉ loop.occupied := by
          intro member
          exact skipped (by simp [member])
        exact refined_goto shape atPhase (.refl world) rfl (add_zero _) rfl ⟨covered, idle⟩

variable {key : TopicPartition} {leader : Int}

theorem popReadyStep_refined (noCalls : world.calls = [])
    (atPhase : world.phase = .popReady loop key leader) :
    Refined world (world.popReadyStep loop key leader) := by
  have covered := shape.covers_at atPhase
  rw [popReadyStep]
  cases found : world.accumulators.get? key with
  | none => exact refined_goto shape atPhase (.refl world) rfl (add_zero _) rfl covered.1
  | some accumulator =>
    dsimp only
    cases waiting : accumulator.ready with
    | nil => exact refined_goto shape atPhase (.refl world) rfl (add_zero _) rfl covered.1
    | cons batch rest =>
      have drainedBefore : world.drained = world.parked + world.onWire + loop.held := by
        simp [drained, inHand, noCalls, atPhase, Phase.held]
      have idle : forall parcel, parcel ∈ world.ledger.drained -> parcel.1 ≠ key := by
        intro parcel member same
        have inLoop := covered.1 parcel (drainedBefore ▸ member)
        exact covered.2 (same ▸ inLoop)
      have front : world.ledger.queue key = handles batch.records ++
          handles ({ accumulator with ready := rest } : Accumulator).queued := by
        change world.queue key = _
        rw [queue_of_get? found, handles_queued, handles_queued]
        simp [Accumulator.batches, waiting]
      have noneTaken : world.ledger.taken = [] := by
        simp [ledger, atPhase, Phase.taken]
      refine ⟨?_, shape.keyed, shape.wire, ?_⟩
      · convert Ledger.Move.pop world.ledger key _ _ front idle noneTaken using 1
        simp only [ledger, Ledger.mk.injEq]
        refine ⟨rfl, queue_setAccumulator _ _ _, ?_, ?_, rfl, rfl, rfl, rfl⟩
        · rw [atPhase]
          rfl
        · rw [← Multiset.singleton_add]
          simp only [drained, parked, onWire, inHand, atPhase, goto, setAccumulator,
            Phase.held, nil_append]
          abel
      · intro parcel member
        rcases Multiset.mem_add.mp member with outside | held
        · exact .tail _ (covered.1 parcel (Multiset.mem_add.mpr (.inl outside)))
        · rcases Multiset.mem_add.mp held with popped | before
          · rw [Multiset.mem_singleton.mp popped]
            exact .head _
          · exact .tail _ (covered.1 parcel (Multiset.mem_add.mpr (.inr before)))

variable {batch : InProgressBatch}

theorem barPoppedStep_refined (noCalls : world.calls = [])
    (distinct : Distinct world.drained)
    (atPhase : world.phase = .barPopped loop key leader batch) :
    Refined world (world.barPoppedStep loop key leader batch) := by
  have covered := shape.covers_at atPhase
  rw [barPoppedStep]
  cases world.undrainedBarrier batch.transactionGeneration with
  | none => exact refined_goto shape atPhase (.refl world) rfl (add_zero _) rfl covered
  | some barrier =>
    refine refined_goto shape atPhase (.refl world) rfl ?_ rfl ?_
    · simp only [Phase.held, callsHeld_cons, callsHeld_nil, Call.held]
      abel
    · -- The popped batch is the only drained one of its partition.
      intro parcel member
      have drainedParts : world.drained = (key, handles batch.records) ::ₘ
          (world.parked + world.onWire + loop.held) := by
        rw [← Multiset.singleton_add]
        simp only [drained, inHand, noCalls, atPhase, Phase.held, callsHeld_nil]
        abel
      have others : parcel.1 ≠ key := by
        intro same
        rw [Distinct, drainedParts, Multiset.map_cons, Multiset.nodup_cons] at distinct
        exact distinct.1 (Multiset.mem_map.mpr ⟨parcel, member, same⟩)
      have anywhere := covered parcel (Multiset.mem_add.mpr ((Multiset.mem_add.mp member).imp_right
        fun inLoop => Multiset.mem_add.mpr (.inr inLoop)))
      rcases mem_cons.mp anywhere with same | occupied
      · exact absurd same others
      · exact occupied

theorem allocateStep_refined (atPhase : world.phase = .allocate loop key leader batch) :
    Refined world (world.allocateStep loop key leader batch) := by
  have covers := shape.covers_at atPhase
  exact refined_goto shape atPhase (by constructor <;> rfl) rfl (add_zero _) rfl covers

/-- A popped batch is built, and its partition becomes occupied. -/
theorem addBuilt_refined {built : PreparedBatch} {source : Phase}
    (atPhase : world.phase = source) (taken : source.taken = [])
    (held : source.held = {(key, handles batch.records)} + loop.held)
    (covered : forall parcel, parcel ∈ world.parked + world.onWire + source.held ->
      parcel.1 ∈ key :: loop.occupied)
    (sameKey : built.key = key) (sameRecords : built.records = batch.records) :
    Refined world (world.addBuilt loop leader built) := by
  have parcelSame : built.parcel = (key, handles batch.records) := by
    rw [PreparedBatch.parcel, sameKey, sameRecords]
  have heldSame : parcels ((loop.routed ++ [(leader, built)]).map Prod.snd) = source.held := by
    rw [held, map_append, parcels_append, DrainLoop.held, ← parcelSame, add_comm]
    rfl
  refine refined_goto shape atPhase ⟨?_, ?_, rfl, rfl, rfl, rfl, rfl, rfl⟩ taken.symm ?_ rfl ?_
  · simp [emit, acceptances]
  · simp [emit, resolutions]
  · rw [callsHeld_nil, add_zero]
    exact heldSame
  · intro parcel member
    rw [sameKey]
    apply covered parcel
    rw [← heldSame]
    exact member

theorem snapshotStateStep_refined {baseSequence : Int}
    (atPhase : world.phase = .snapshotState loop key leader batch baseSequence) :
    Refined world (world.snapshotStateStep config loop key leader batch baseSequence) := by
  have covers := shape.covers_at atPhase
  rw [snapshotStateStep]
  split_ifs with active
  · exact refined_goto shape atPhase (.refl world) rfl (add_zero _) rfl covers
  · exact addBuilt_refined shape atPhase rfl rfl covers rfl rfl

theorem snapshotIdentityStep_refined {baseSequence : Int}
    (atPhase : world.phase = .snapshotIdentity loop key leader batch baseSequence) :
    Refined world (world.snapshotIdentityStep loop key leader batch baseSequence) := by
  exact addBuilt_refined shape atPhase rfl rfl (shape.covers_at atPhase) rfl rfl

end Phases

end World

end Producer
end Krabka
