import Krabka.Producer.Accumulator
import Krabka.Transition
import Mathlib.Algebra.Order.BigOperators.Group.List
import Mathlib.Algebra.Order.Ring.Nat

namespace Krabka
namespace Producer

open List Accumulator

/-!
# The accumulator as a queue

An accumulator under any sequence of its operations: the records that wait are the
accepted records that were not taken, in the order of their acceptance, and every
batch is numbered, sized and filled as the sender expects it.  A record that was
accepted gets the next number as its handle.  Each record has at least 16 bytes and
`batch_size` is an `i32`, so no offset delta saturates.
-/

/-- An accumulator with the batch that was popped from it last, and history: what was
accepted, and the handles of the records that were aborted or popped before. -/
structure Queue where
  accumulator : Accumulator
  popped : Option InProgressBatch
  accepted : List (Payload × Option Nat)
  gone : List Nat
deriving DecidableEq

inductive QueueAct where
  | append (payload : Payload) (transactionGeneration : Option Nat) (now : Nat)
  | sealCurrent
  | pop
  /-- The parts of the popped batch go to the front of `ready`, the last one first. -/
  | requeue (parts : List (List PendingRecord))
  | abort
deriving DecidableEq

namespace Queue

def start (batchSize : Nat) : Queue := ⟨.new batchSize, none, [], []⟩

def held (queue : Queue) : List Nat := handles queue.accumulator.queued

/-- The handles of the batch that was popped last. -/
def out (queue : Queue) : List Nat := handles (queue.popped.toList.flatMap InProgressBatch.records)

def requeued (accumulator : Accumulator) (batch : InProgressBatch)
    (parts : List (List PendingRecord)) : Accumulator :=
  parts.foldr (fun part accumulator =>
    accumulator.pushFront part batch.transactionGeneration batch.firstAppendAt) accumulator

def step (queue : Queue) : QueueAct -> Option Queue
  | .append payload transactionGeneration now =>
    some { queue with
      accumulator := queue.accumulator.append queue.accepted.length payload transactionGeneration now
      accepted := queue.accepted ++ [(payload, transactionGeneration)] }
  | .sealCurrent => some { queue with accumulator := queue.accumulator.sealCurrent }
  | .pop =>
    match queue.accumulator.ready with
    | [] => none
    | batch :: rest =>
      some { queue with
        accumulator := { queue.accumulator with ready := rest }
        popped := some batch
        gone := queue.out ++ queue.gone }
  | .requeue parts =>
    match queue.popped with
    | none => none
    | some batch =>
      if parts.flatten = batch.records then
        some { queue with
          accumulator := requeued queue.accumulator batch parts
          popped := none }
      else none
  | .abort =>
    some { queue with
      accumulator := { queue.accumulator with current := none, ready := [] }
      gone := queue.held ++ queue.gone }

end Queue

/-! ## Batches -/

/-- A batch as the sender expects it. -/
structure Formed (accepted : List (Payload × Option Nat)) (batchSize : Nat)
    (batch : InProgressBatch) : Prop where
  numbered : batch.records.map PendingRecord.offsetDelta = List.range batch.records.length
  sized : batch.sizeBytes =
    (batch.records.map (fun record => approxRecordSize record.payload)).sum
  origin : forall record, record ∈ batch.records ->
    accepted[record.handle]? = some (record.payload, batch.transactionGeneration)
  bounded : batchSize < batch.sizeBytes -> batch.records.length = 1

section Formed

variable {accepted : List (Payload × Option Nat)} {batchSize : Nat} {batch : InProgressBatch}
  {accumulator : Accumulator}

section

variable (formed : Formed accepted batchSize batch)

include formed

theorem Formed.append (entry : Payload × Option Nat) :
    Formed (accepted ++ [entry]) batchSize batch where
  numbered := formed.numbered
  sized := formed.sized
  origin := fun record member => by
    have known := formed.origin record member
    rw [List.getElem?_append_left (List.getElem?_eq_some_iff.mp known).1]
    exact known
  bounded := formed.bounded

theorem Formed.push (payload : Payload)
    (room : batch.sizeBytes + approxRecordSize payload ≤ batchSize ∨ batch.records = []) :
    Formed (accepted ++ [(payload, batch.transactionGeneration)]) batchSize { batch with
        records := batch.records ++ [⟨accepted.length, batch.records.length, payload⟩]
        sizeBytes := batch.sizeBytes + approxRecordSize payload } where
  numbered := by simp [formed.numbered, range_succ]
  sized := by simp [formed.sized]
  origin := by
    intro record member
    rcases mem_append.mp member with old | isNew
    · exact (formed.append _).origin record old
    · rw [mem_singleton.mp isNew]
      simp
  bounded := by
    intro large
    rcases room with fits | isEmpty
    · exact absurd large (Nat.not_lt.mpr fits)
    · simp [isEmpty]

theorem Formed.part {part : List PendingRecord} (inside : part.Sublist batch.records)
    (createdAt : Nat) :
    Formed accepted batchSize ⟨batch.transactionGeneration, createdAt,
      (part.map (fun record => approxRecordSize record.payload)).sum,
      Accumulator.renumber part⟩ where
  numbered := by
    apply ext_getElem <;> simp [Accumulator.renumber]
  sized := congrArg List.sum (map_renumber
    (fun record => approxRecordSize record.payload) (fun _ _ => rfl) part).symm
  origin := by
    intro record member
    rcases mem_mapIdx.mp member with ⟨index, bound, isRecord⟩
    rw [<- isRecord]
    exact formed.origin part[index] (inside.subset (getElem_mem bound))
  bounded := by
    intro large
    have atMost : (part.map (fun record => approxRecordSize record.payload)).sum ≤
        batch.sizeBytes := by
      rw [formed.sized]
      exact (inside.map _).sum_le_sum (fun _ _ => Nat.zero_le _)
    have isSingle := formed.bounded (Nat.lt_of_lt_of_le large atMost)
    have short : part.length ≤ 1 := isSingle ▸ inside.length_le
    rw [Accumulator.renumber, length_mapIdx]
    cases part with
    | nil => exact absurd large (Nat.not_lt_zero _)
    | cons => simpa using short

end

/-- Appending adds a formed batch, and keeps the others. -/
theorem Formed.batches_append (each : forall batch, batch ∈ accumulator.batches ->
      Formed accepted accumulator.batchSize batch) (payload : Payload)
    (transactionGeneration : Option Nat) (now : Nat)
    (member : batch ∈
      (accumulator.append accepted.length payload transactionGeneration now).batches) :
    Formed (accepted ++ [(payload, transactionGeneration)]) accumulator.batchSize batch := by
  have fresh : Formed accepted accumulator.batchSize (.new transactionGeneration now) :=
    ⟨rfl, rfl, nofun, nofun⟩
  rcases accumulator with ⟨current, ready, batchSize⟩
  unfold Accumulator.append Accumulator.needsNewBatch Accumulator.batches at member
  cases current with
  | none =>
    rcases mem_append.mp member with inReady | isCurrent
    · exact (each batch (mem_append_left _ inReady)).append _
    · rw [mem_singleton.mp isCurrent]
      exact fresh.push payload (.inr rfl)
  | some current =>
    have known := each current (by simp [Accumulator.batches])
    dsimp only at member
    split_ifs at member with needsNew
    · simp only [append_assoc, mem_append, Option.toList_some, mem_singleton] at member
      rcases member with inReady | isOld | isCurrent
      · exact (each batch (mem_append_left _ inReady)).append _
      · rw [isOld]
        exact known.append _
      · rw [isCurrent]
        exact fresh.push payload (.inr rfl)
    · rcases mem_append.mp member with inReady | isCurrent
      · exact (each batch (mem_append_left _ inReady)).append _
      · simp only [Bool.or_eq_true, Bool.and_eq_true, not_or, not_and, bne_iff_ne, ne_eq,
          decide_eq_true_eq, not_not, gt_iff_lt, InProgressBatch.isEmpty] at needsNew
        rw [mem_singleton.mp isCurrent, <- needsNew.1]
        refine known.push payload ?_
        by_cases fits : current.sizeBytes + approxRecordSize payload ≤ batchSize
        · exact .inl fits
        · have isEmpty := needsNew.2 (Nat.lt_of_not_le fits)
          exact .inr (by simpa using isEmpty)

theorem handles_requeued (parts : List (List PendingRecord)) :
    handles (Queue.requeued accumulator batch parts).queued =
      handles parts.flatten ++ handles accumulator.queued := by
  induction parts with
  | nil => rfl
  | cons part parts ih =>
    change handles ((Queue.requeued accumulator batch parts).pushFront part _ _).queued = _
    rw [handles_queued_pushFront, ih, flatten_cons, handles_append, append_assoc]

theorem Formed.batches_requeued (formed : Formed accepted batchSize batch)
    (each : forall batch, batch ∈ accumulator.batches -> Formed accepted batchSize batch)
    {parts : List (List PendingRecord)}
    (inside : forall part, part ∈ parts -> part.Sublist batch.records) {other : InProgressBatch}
    (member : other ∈ (Queue.requeued accumulator batch parts).batches) :
    Formed accepted batchSize other := by
  induction parts with
  | nil => exact each other member
  | cons part parts ih =>
    rcases mem_cons.mp member with isPart | isOther
    · rw [isPart]
      exact formed.part (inside part (.head _)) batch.firstAppendAt
    · exact ih (fun part member => inside part (.tail _ member)) isOther

end Formed

/-! ## The queue -/

namespace Queue

variable {queue next : Queue} {act : QueueAct} {batchSize : Nat}

structure Invariant (batchSize : Nat) (queue : Queue) : Prop where
  sameSize : queue.accumulator.batchSize = batchSize
  ordered : (queue.out ++ queue.held).Pairwise (fun left right => left < right)
  /-- No record is lost or there twice. -/
  once : (queue.out ++ queue.held ++ queue.gone).Perm (List.range queue.accepted.length)
  formed : forall batch, batch ∈ queue.popped.toList ++ queue.accumulator.batches ->
    Formed queue.accepted batchSize batch

theorem start_invariant (batchSize : Nat) : (start batchSize).Invariant batchSize :=
  ⟨rfl, List.Pairwise.nil, List.Perm.nil, nofun⟩

theorem Invariant.append (invariant : queue.Invariant batchSize) (payload : Payload)
    (transactionGeneration : Option Nat) (now : Nat) :
    Invariant batchSize { queue with
        accumulator :=
          queue.accumulator.append queue.accepted.length payload transactionGeneration now
        accepted := queue.accepted ++ [(payload, transactionGeneration)] } := by
  have held : handles (queue.accumulator.append queue.accepted.length payload
      transactionGeneration now).queued = queue.held ++ [queue.accepted.length] :=
    handles_queued_append ..
  refine ⟨?_, ?_, ?_, fun batch member => ?_⟩
  · rw [<- invariant.sameSize]
    dsimp only [Accumulator.append]
    repeat' split
    all_goals rfl
  · change (queue.out ++ handles _).Pairwise _
    rw [held, <- append_assoc, pairwise_append]
    refine ⟨invariant.ordered, pairwise_singleton _ _, fun handle member last isLast => ?_⟩
    rw [mem_singleton.mp isLast]
    exact mem_range.mp (invariant.once.subset (mem_append_left _ member))
  · change (queue.out ++ handles _ ++ queue.gone).Perm (List.range (queue.accepted ++ [_]).length)
    rw [held, length_append, length_singleton, range_succ]
    refine List.Perm.trans ?_ (invariant.once.append_right _)
    simp only [perm_iff_count, count_append]
    omega
  · rcases mem_append.mp member with isPopped | isHeld
    · exact (invariant.formed batch (mem_append_left _ isPopped)).append _
    · have each (batch : InProgressBatch) (member : batch ∈ queue.accumulator.batches) :
          Formed queue.accepted queue.accumulator.batchSize batch :=
        invariant.sameSize ▸ invariant.formed batch (mem_append_right _ member)
      exact invariant.sameSize ▸ Formed.batches_append each payload transactionGeneration now isHeld

theorem batches_sealCurrent {accumulator : Accumulator} {batch : InProgressBatch}
    (member : batch ∈ accumulator.sealCurrent.batches) : batch ∈ accumulator.batches := by
  unfold Accumulator.sealCurrent at member
  cases isCurrent : accumulator.current with
  | none =>
    rw [isCurrent] at member
    exact member
  | some current =>
    rw [isCurrent] at member
    dsimp only [Accumulator.batches] at member ⊢
    rw [isCurrent]
    split_ifs at member
    · exact mem_append_left _ (by simpa using member)
    · simpa using member

/-- Records move between the accumulator, the popped batch and `gone`. -/
theorem Invariant.move (invariant : queue.Invariant batchSize)
    (sameSize : next.accumulator.batchSize = queue.accumulator.batchSize)
    (accepted : next.accepted = queue.accepted)
    (ordered : (next.out ++ next.held).Sublist (queue.out ++ queue.held))
    (once : (next.out ++ next.held ++ next.gone).Perm (queue.out ++ queue.held ++ queue.gone))
    (formed : forall batch, batch ∈ next.popped.toList ++ next.accumulator.batches ->
      Formed queue.accepted batchSize batch) : next.Invariant batchSize :=
  ⟨sameSize.trans invariant.sameSize, invariant.ordered.sublist ordered,
    accepted ▸ once.trans invariant.once, accepted ▸ formed⟩

theorem step_invariant (invariant : queue.Invariant batchSize)
    (stepped : queue.step act = some next) : next.Invariant batchSize := by
  cases act with
  | append payload transactionGeneration now =>
    cases stepped
    exact invariant.append payload transactionGeneration now
  | sealCurrent =>
    cases stepped
    have held : handles queue.accumulator.sealCurrent.queued = queue.held :=
      congrArg handles queue.accumulator.queued_sealCurrent
    refine invariant.move ?_ rfl ?_ ?_ fun batch member => invariant.formed batch ?_
    · unfold Accumulator.sealCurrent
      split <;> rfl
    · exact (congrArg (queue.out ++ ·) held : _ = _) ▸ List.Sublist.refl _
    · exact List.Perm.of_eq (congrArg (queue.out ++ · ++ queue.gone) held)
    · exact (mem_append.mp member).elim (mem_append_left _)
        fun isHeld => mem_append_right _ (batches_sealCurrent isHeld)
  | pop =>
    rw [step] at stepped
    split at stepped <;> cases stepped
    rename_i batch rest isReady
    have held : queue.held = handles batch.records ++
        handles ({ queue.accumulator with ready := rest } : Accumulator).queued := by
      rw [held, Accumulator.queued, Accumulator.batches, isReady, <- handles_append]
      rfl
    have isOut : ({ queue with popped := some batch } : Queue).out = handles batch.records := by
      simp [out]
    refine invariant.move rfl rfl ?_ ?_ fun other member => invariant.formed other ?_
    · change (({ queue with popped := some batch } : Queue).out ++ handles _).Sublist _
      rw [isOut, <- held]
      exact sublist_append_right _ _
    · change (({ queue with popped := some batch } : Queue).out ++ handles _ ++ (_ ++ _)).Perm _
      rw [isOut, <- held]
      simp only [perm_iff_count, count_append]
      omega
    · rw [Accumulator.batches, isReady]
      exact mem_append_right _ member
  | requeue parts =>
    rw [step] at stepped
    split at stepped
    · cases stepped
    · rename_i batch isPopped
      split_ifs at stepped with all
      cases stepped
      have held : handles (requeued queue.accumulator batch parts).queued = queue.out ++ queue.held := by
        rw [handles_requeued, all, out, isPopped, Option.toList_some, flatMap_singleton]
        rfl
      refine invariant.move ?_ rfl (held ▸ List.Sublist.refl _) ?_ fun other member => ?_
      · clear all held
        induction parts with
        | nil => rfl
        | cons part parts ih => exact ih
      · exact List.Perm.of_eq (congrArg (· ++ queue.gone) held)
      · refine (invariant.formed batch (by simp [isPopped])).batches_requeued (fun held isHeld =>
          invariant.formed held (mem_append_right _ isHeld)) (fun part isPart => ?_) member
        exact all ▸ sublist_flatten_of_mem isPart
  | abort =>
    cases stepped
    refine invariant.move rfl rfl ?_ ?_ fun batch member => invariant.formed batch ?_
    · exact List.Sublist.append_left (nil_sublist _) _
    · change (queue.out ++ [] ++ (queue.held ++ queue.gone)).Perm _
      rw [append_nil, append_assoc]
    · exact mem_append_left _ (by simpa [Accumulator.batches] using member)

/-- What waits in the accumulator. -/
structure InOrder (batchSize : Nat) (queue : Queue) : Prop where
  ordered : queue.held.Pairwise (fun left right => left < right)
  held : forall handle, handle ∈ queue.held <->
    handle < queue.accepted.length ∧ handle ∉ queue.out ∧ handle ∉ queue.gone
  formed : forall batch, batch ∈ queue.accumulator.batches ->
    Formed queue.accepted batchSize batch

/-- After any operations the accumulator holds the accepted records that were not
popped or aborted, each once and in the order of acceptance, in well-formed batches. -/
theorem run_in_order {batchSize : Nat} {acts : List QueueAct} {queue : Queue}
    (ran : Transition.run step (start batchSize) acts = some queue) :
    queue.InOrder batchSize := by
  have invariant := Transition.run_keeps (Invariant batchSize)
    (fun _ _ _ => step_invariant) (start_invariant batchSize) ran
  refine ⟨(pairwise_append.mp invariant.ordered).2.1, fun handle => ?_, fun batch member =>
    invariant.formed batch (mem_append_right _ member)⟩
  have unique := invariant.once.nodup_iff.mpr nodup_range
  have known : handle ∈ _ <-> _ := invariant.once.mem_iff
  rw [nodup_append, nodup_append] at unique
  rw [mem_append, mem_append, mem_range] at known
  rcases unique with ⟨⟨_, _, fromOut⟩, _, fromGone⟩
  constructor
  · intro isHeld
    refine ⟨known.mp (.inl (.inr isHeld)), fun isOut => ?_, fun isGone => ?_⟩
    · exact fromOut handle isOut handle isHeld rfl
    · exact fromGone handle (mem_append_right _ isHeld) handle isGone rfl
  · rintro ⟨below, notOut, notGone⟩
    exact ((known.mpr below).resolve_right notGone).resolve_left notOut

/-- Two records of 16 bytes fill a batch, which is popped and put back in halves. -/
def halved : List QueueAct :=
  let payload : Payload := ⟨0, none, none, []⟩
  [.append payload none 0, .append payload none 0, .append payload none 0, .pop,
    .requeue [[⟨0, 0, payload⟩], [⟨1, 1, payload⟩]], .sealCurrent]

theorem run_in_order_halved :
    Exists fun queue => Transition.run step (start 40) halved = some queue ∧
      queue.held = [0, 1, 2] ∧ queue.InOrder 40 :=
  ⟨_, rfl, rfl, run_in_order (rfl : Transition.run step (start 40) halved = some _)⟩

end Queue

end Producer
end Krabka
