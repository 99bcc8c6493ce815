import Krabka.Collections.Ledger
import Krabka.Producer.Machine
import Mathlib.Algebra.Order.Group.Multiset
import Mathlib.Tactic.Abel

namespace Krabka
namespace Producer

open Collections List

/-!
# Who holds which record

The custody of a producer as a `Ledger`: the accumulators are the queues, and
a batch is a parcel from the moment `pop_ready_batch` counts it until its
in-flight slot is released.  A parcel lies in a retry slot, in a request, or
in a local variable of the sender, which the program position names.
-/

abbrev Parcel := TopicPartition × List Nat

def PreparedBatch.parcel (batch : PreparedBatch) : Parcel := (batch.key, handles batch.records)

def parcels (batches : List PreparedBatch) : Multiset Parcel :=
  (batches.map PreparedBatch.parcel : List Parcel)

@[simp] theorem parcels_nil : parcels [] = 0 := rfl

@[simp] theorem parcels_cons (batch : PreparedBatch) (rest : List PreparedBatch) :
    parcels (batch :: rest) = {batch.parcel} + parcels rest :=
  rfl

@[simp] theorem parcels_append (left right : List PreparedBatch) :
    parcels (left ++ right) = parcels left + parcels right := by
  simp [parcels]

theorem parcels_perm {left right : List PreparedBatch} (same : left.Perm right) :
    parcels left = parcels right :=
  Multiset.coe_eq_coe.mpr (same.map PreparedBatch.parcel)

theorem parcels_filter (test : PreparedBatch -> Bool) (batches : List PreparedBatch) :
    parcels (batches.filter test) + parcels (batches.filter (fun batch => !test batch)) =
      parcels batches := by
  rw [← parcels_append]
  exact parcels_perm (filter_append_perm test batches)

/-- A change that keeps the partition and the records keeps the parcels. -/
theorem parcels_map {change : PreparedBatch -> PreparedBatch}
    (same : forall batch, (change batch).parcel = batch.parcel) (batches : List PreparedBatch) :
    parcels (batches.map change) = parcels batches := by
  have equal : PreparedBatch.parcel ∘ change = PreparedBatch.parcel := funext same
  rw [parcels, map_map, equal]
  rfl

/-! ## Parcels of the program position -/

/-- The batches of a cycle that wait for `apply`. -/
def CycleVerdicts.held (cycle : CycleVerdicts) : Multiset Parcel :=
  parcels (cycle.fenced.getD []) + parcels cycle.restarts + parcels cycle.rewrites +
    parcels cycle.splits + parcels (cycle.failed.map Prod.fst)

def DrainLoop.held (loop : DrainLoop) : Multiset Parcel := parcels (loop.routed.map Prod.snd)

def Phase.held : Phase -> Multiset Parcel
  | .expire expired toSend => parcels expired + parcels toSend
  | .expireRepairs _ expired toSend => parcels expired + parcels toSend
  | .barRetries _ pending kept => parcels pending + parcels kept
  | .route _ toSend => parcels toSend
  | .checkEpoch _ _ routed => parcels (routed.map Prod.snd)
  | .drainKeys loop => loop.held
  | .popReady loop _ _ => loop.held
  | .barPopped loop key _ batch => {(key, handles batch.records)} + loop.held
  | .allocate loop key _ batch => {(key, handles batch.records)} + loop.held
  | .snapshotState loop key _ batch _ => {(key, handles batch.records)} + loop.held
  | .snapshotIdentity loop key _ batch _ => {(key, handles batch.records)} + loop.held
  | .record cycle results => cycle.held + parcels (results.map BatchSendResult.batch)
  | .settle _ cycle => cycle.held
  | .requeue _ cycle batch => {batch.parcel} + cycle.held
  | _ => 0

/-- The records of batches that never got a parcel. -/
def unsentHandles (batches : List InProgressBatch) : List Nat :=
  handles (batches.flatMap InProgressBatch.records)

theorem handles_queued (accumulator : Accumulator) :
    handles accumulator.queued = unsentHandles accumulator.batches :=
  rfl

@[simp] theorem unsentHandles_nil : unsentHandles [] = [] := rfl

@[simp] theorem unsentHandles_cons (batch : InProgressBatch) (rest : List InProgressBatch) :
    unsentHandles (batch :: rest) = handles batch.records ++ unsentHandles rest := by
  simp [unsentHandles, handles]

@[simp] theorem unsentHandles_append (left right : List InProgressBatch) :
    unsentHandles (left ++ right) = unsentHandles left ++ unsentHandles right := by
  simp [unsentHandles, handles]

section

variable (test : InProgressBatch -> Bool) (batches : List InProgressBatch)

include test batches

theorem unsentHandles_filter_perm :
    (unsentHandles batches).Perm (unsentHandles (batches.filter (fun batch => !test batch)) ++
      unsentHandles (batches.filter test)) := by
  have parts := (perm_append_comm.trans (filter_append_perm test batches)).symm
  rw [← unsentHandles_append]
  exact (parts.flatMap_right InProgressBatch.records).map PendingRecord.handle

theorem unsentHandles_filter_sublist :
    (unsentHandles (batches.filter test)).Sublist (unsentHandles batches) := by
  induction batches with
  | nil => exact List.Sublist.refl _
  | cons batch rest ih =>
    rw [filter_cons, unsentHandles_cons]
    split_ifs with passes
    · rw [unsentHandles_cons]
      exact ih.append_left _
    · exact ih.trans (sublist_append_right _ _)

end

def Phase.taken : Phase -> List Nat
  | .takeExpired _ _ expired => unsentHandles expired
  | .failUnsent _ _ expired => unsentHandles expired
  | _ => []

def Call.held : Call -> Multiset Parcel
  | .ack key records _ _ => {(key, handles records)}
  | .terminalFail batch _ => {batch.parcel}
  | .fail key records _ => {(key, handles records)}
  | .fence toFail => parcels toFail
  | _ => 0

def Call.finishing : Call -> Nat
  | .finish => 1
  | _ => 0

def callsHeld (calls : List Call) : Multiset Parcel := (calls.map Call.held).sum

def callsFinishing (calls : List Call) : Nat := (calls.map Call.finishing).sum

@[simp] theorem callsHeld_nil : callsHeld [] = 0 := rfl

@[simp] theorem callsHeld_cons (call : Call) (rest : List Call) :
    callsHeld (call :: rest) = call.held + callsHeld rest := by
  simp [callsHeld]

@[simp] theorem callsHeld_append (left right : List Call) :
    callsHeld (left ++ right) = callsHeld left + callsHeld right := by
  simp [callsHeld]

@[simp] theorem callsFinishing_nil : callsFinishing [] = 0 := rfl

@[simp] theorem callsFinishing_cons (call : Call) (rest : List Call) :
    callsFinishing (call :: rest) = call.finishing + callsFinishing rest := by
  simp [callsFinishing]

@[simp] theorem callsFinishing_append (left right : List Call) :
    callsFinishing (left ++ right) = callsFinishing left + callsFinishing right := by
  simp [callsFinishing]

/-- Calls that fail each batch hold the batches. -/
theorem callsHeld_map {Item : Type} (toCall : Item -> Call) (batch : Item -> PreparedBatch)
    (same : forall item, (toCall item).held = {(batch item).parcel}) (items : List Item) :
    callsHeld (items.map toCall) = parcels (items.map batch) := by
  induction items with
  | nil => rfl
  | cons item rest ih =>
    rw [map_cons, map_cons, callsHeld_cons, parcels_cons, same, ih]

theorem callsFinishing_map {Item : Type} (toCall : Item -> Call)
    (same : forall item, (toCall item).finishing = 0) (items : List Item) :
    callsFinishing (items.map toCall) = 0 := by
  induction items with
  | nil => rfl
  | cons item rest ih =>
    rw [map_cons, callsFinishing_cons, same, ih]

/-! ## The ledger of a world -/

def ackedHandles (log : List Event) : List Nat :=
  (resolutions log).filterMap (fun resolution =>
    match resolution.2 with
    | .acked _ => some resolution.1
    | .failed _ => none)

def failedHandles (log : List Event) : List Nat :=
  (resolutions log).filterMap (fun resolution =>
    match resolution.2 with
    | .acked _ => none
    | .failed _ => some resolution.1)

section

variable (left right : List Event)

@[simp] theorem acceptances_append :
    acceptances (left ++ right) = acceptances left ++ acceptances right :=
  filterMap_append

@[simp] theorem resolutions_append :
    resolutions (left ++ right) = resolutions left ++ resolutions right :=
  filterMap_append

@[simp] theorem ackedHandles_append :
    ackedHandles (left ++ right) = ackedHandles left ++ ackedHandles right := by
  simp [ackedHandles]

@[simp] theorem failedHandles_append :
    failedHandles (left ++ right) = failedHandles left ++ failedHandles right := by
  simp [failedHandles]

end

def failures (records : List PendingRecord) (error : ProducerError) : List Event :=
  records.map (fun record => .resolved record.handle (.failed error))

section

variable (records : List PendingRecord) (error : ProducerError)

include records error

@[simp] theorem acceptances_failures :
    acceptances (failures records error) = [] := by
  induction records with
  | nil => rfl
  | cons record rest ih => exact ih

@[simp] theorem ackedHandles_failures :
    ackedHandles (failures records error) = [] := by
  induction records with
  | nil => rfl
  | cons record rest ih => exact ih

@[simp] theorem failedHandles_failures :
    failedHandles (failures records error) = handles records := by
  induction records with
  | nil => rfl
  | cons record rest ih =>
    exact congrArg (List.cons record.handle) ih

end

def acknowledgements (key : TopicPartition) (records : List PendingRecord)
    (baseOffset logAppendTimeMs : Int) : List Event :=
  records.map (fun record =>
    .resolved record.handle (.acked (ackMetadata key record baseOffset logAppendTimeMs)))

section

variable (key : TopicPartition) (records : List PendingRecord) (baseOffset logAppendTimeMs : Int)

include key records baseOffset logAppendTimeMs

@[simp] theorem acceptances_acknowledgements :
    acceptances (acknowledgements key records baseOffset logAppendTimeMs) = [] := by
  induction records with
  | nil => rfl
  | cons record rest ih => exact ih

@[simp] theorem ackedHandles_acknowledgements :
    ackedHandles (acknowledgements key records baseOffset logAppendTimeMs) = handles records := by
  induction records with
  | nil => rfl
  | cons record rest ih =>
    exact congrArg (List.cons record.handle) ih

@[simp] theorem failedHandles_acknowledgements :
    failedHandles (acknowledgements key records baseOffset logAppendTimeMs) = [] := by
  induction records with
  | nil => rfl
  | cons record rest ih => exact ih

end

variable {world : World} {accumulator : Accumulator}

namespace World

/-- The batches in the retry slots. -/
def parked (world : World) : Multiset Parcel := parcels (world.retry.entries.map Prod.snd)

def onWire (world : World) : Multiset Parcel := parcels (world.requests.map Request.batch)

/-- The batches that the current step of the sender holds. -/
def inHand (world : World) : Multiset Parcel := world.phase.held + callsHeld world.calls

/-- The drained batches that are not in a call. -/
def standing (world : World) : Multiset Parcel :=
  world.parked + world.onWire + world.phase.held

/-- The drained batches whose records are not resolved. -/
def drained (world : World) : Multiset Parcel := world.parked + world.onWire + world.inHand

/-- The batches whose in-flight slot the current step is about to release. -/
def finishing (world : World) : Nat := callsFinishing world.calls

def queue (world : World) (key : TopicPartition) : List Nat :=
  match world.accumulators.get? key with
  | none => []
  | some accumulator => handles accumulator.queued

def ledger (world : World) : Ledger TopicPartition where
  owner := (acceptances world.log).map Acceptance.key
  queue := world.queue
  taken := world.phase.taken
  drained := world.drained
  finishing := world.finishing
  counter := world.inFlight
  acked := ackedHandles world.log
  failed := failedHandles world.log

theorem mem_drained_request {request : Request} (member : request ∈ world.requests) :
    request.batch.parcel ∈ world.drained := by
  have onWire : request.batch.parcel ∈ world.onWire := mem_map_of_mem (mem_map_of_mem member)
  exact Multiset.mem_add.mpr (.inl (Multiset.mem_add.mpr (.inr onWire)))

theorem mem_drained_phase {parcel : Parcel} (member : parcel ∈ world.phase.held) :
    parcel ∈ world.drained :=
  Multiset.mem_add.mpr (.inr (Multiset.mem_add.mpr (.inl member)))

/-! ## How the primitives change the ledger -/

theorem queue_setAccumulator (world : World) (key : TopicPartition) (accumulator : Accumulator) :
    (world.setAccumulator key accumulator).queue =
      Function.update world.queue key (handles accumulator.queued) := by
  funext other
  by_cases same : other = key
  · subst same
    rw [queue, setAccumulator, SortedMap.get?_insert_self, Function.update_self]
  · rw [queue, setAccumulator, SortedMap.get?_insert_of_ne _ _ same,
      Function.update_of_ne same, queue]

section

variable {key : TopicPartition} (found : world.accumulators.get? key = some accumulator)

include found

theorem queue_of_get? :
    world.queue key = handles accumulator.queued := by
  rw [queue, found]

theorem queue_setAccumulator_same {changed : Accumulator}
    (same : handles changed.queued = handles accumulator.queued) :
    (world.setAccumulator key changed).queue = world.queue := by
  rw [queue_setAccumulator, same, ← queue_of_get? found, Function.update_eq_self]

end

end World

/-- Equal batches, up to the bookkeeping of their resends. -/
structure PreparedBatch.SameStamp (batch old : PreparedBatch) : Prop where
  key : batch.key = old.key
  baseSequence : batch.baseSequence = old.baseSequence
  recordBatch : batch.recordBatch = old.recordBatch
  records : batch.records = old.records
  transactionGeneration : batch.transactionGeneration = old.transactionGeneration

namespace PreparedBatch.SameStamp

theorem parcel {batch old : PreparedBatch} (same : batch.SameStamp old) :
    batch.parcel = old.parcel := by
  rw [PreparedBatch.parcel, same.key, same.records]
  rfl

variable (batch : PreparedBatch)

theorem refl : batch.SameStamp batch := ⟨rfl, rfl, rfl, rfl, rfl⟩

theorem takeRetry (retries : Int) :
    (batch.takeRetry retries).2.SameStamp batch := by
  unfold PreparedBatch.takeRetry
  split_ifs <;> exact ⟨rfl, rfl, rfl, rfl, rfl⟩

theorem interpretResponse (answer : Option PartitionAnswer) (lastAckedOffset : Option Int)
    (now backoff : Nat) :
    (interpretResponse batch answer lastAckedOffset now backoff).batch.SameStamp batch := by
  cases answer with
  | none => exact ⟨rfl, rfl, rfl, rfl, rfl⟩
  | some answer =>
    dsimp only [Producer.interpretResponse]
    cases classifyVerdict answer batch.mode lastAckedOffset batch.records.length with
    | routing => exact ⟨rfl, rfl, rfl, rfl, rfl⟩
    | verdict verdict => cases verdict <;> exact ⟨rfl, rfl, rfl, rfl, rfl⟩

end PreparedBatch.SameStamp

end Producer
end Krabka
