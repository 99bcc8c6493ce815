import Krabka.Producer.Batches

namespace Krabka
namespace Producer

open Collections List Option Accumulator

/-!
# Where an unbuilt batch comes from

The batches that wait in an accumulator, or that the sender took from one and
did not build yet.  `Source` lists the steps that make such a batch: an append
or a split.  With `Origin` it follows a transaction generation from the append
that chose it through every batch that carries it.
-/

/-- The batches that the sender took from an accumulator and did not build. -/
def Phase.unbuilt : Phase -> List InProgressBatch
  | .takeExpired _ _ expired => expired
  | .failUnsent _ _ expired => expired
  | .barPopped _ _ _ batch => [batch]
  | .allocate _ _ _ batch => [batch]
  | .snapshotState _ _ _ batch _ => [batch]
  | .snapshotIdentity _ _ _ batch _ => [batch]
  | _ => []

variable {generation : Option Nat}

namespace Accumulator

variable {accumulator : Accumulator} {batch : InProgressBatch}

theorem mem_batches_sealCurrent (member : batch ∈ accumulator.sealCurrent.batches) :
    batch ∈ accumulator.batches := by
  unfold sealCurrent at member
  cases found : accumulator.current with
  | none => simpa only [found] using member
  | some current =>
    simp only [found, batches, toList_none, append_nil] at member
    simp only [batches, found, toList_some]
    split_ifs at member
    · exact mem_append_left _ member
    · exact member

theorem mem_batches_pushFront {records : List PendingRecord} {createdAt : Nat}
    (member : batch ∈ (accumulator.pushFront records generation createdAt).batches) :
    (batch.records = renumber records ∧ batch.transactionGeneration = generation) ∨
      batch ∈ accumulator.batches := by
  rcases mem_append.mp member with ready | current
  · rcases mem_cons.mp ready with here | later
    · exact .inl (here ▸ ⟨rfl, rfl⟩)
    · exact .inr (mem_append_left _ later)
  · exact .inr (mem_append_right _ current)

/-- `append` adds the record to the current batch or to a new one. -/
theorem mem_batches_append {handle now : Nat} {payload : Payload}
    (member : batch ∈ (accumulator.append handle payload generation now).batches) :
    batch ∈ accumulator.batches ∨ batch.transactionGeneration = generation ∧
      Exists fun before => batch.records = before ++ [⟨handle, before.length, payload⟩] ∧
        (before = [] ∨ Exists fun old => old ∈ accumulator.batches ∧ old.records = before) := by
  unfold append at member
  cases found : accumulator.current with
  | none =>
    simp only [found, batches, toList_some, mem_append, mem_singleton] at member
    rcases member with ready | isNew
    · exact .inl (mem_append_left _ ready)
    · exact .inr (isNew ▸ ⟨rfl, [], rfl, .inl rfl⟩)
  | some current =>
    have inside : current ∈ accumulator.batches := by simp [batches, found]
    simp only [found] at member
    by_cases full : accumulator.needsNewBatch (approxRecordSize payload) generation = true
    · simp only [full, if_true, batches, toList_some, mem_append, mem_singleton] at member
      rcases member with (ready | sealed) | isNew
      · exact .inl (mem_append_left _ ready)
      · exact .inl (sealed ▸ inside)
      · exact .inr (isNew ▸ ⟨rfl, [], rfl, .inl rfl⟩)
    · simp only [full, batches, toList_some, mem_append, mem_singleton] at member
      rcases member with ready | grown
      · exact .inl (mem_append_left _ ready)
      · right
        have same : current.transactionGeneration = generation := by
          simp only [needsNewBatch, found, Bool.or_eq_true, bne_iff_ne, ne_eq, not_or,
            Decidable.not_not] at full
          exact full.1
        rw [grown]
        exact ⟨same, current.records, rfl, .inr ⟨current, inside, rfl⟩⟩

end Accumulator

variable {expired : List InProgressBatch} {keys : List TopicPartition} {accumulator : Accumulator}

namespace World

def Waits (world : World) (batch : InProgressBatch) : Prop :=
  (Exists fun key => Exists fun accumulator =>
    world.accumulators.get? key = some accumulator ∧ batch ∈ accumulator.batches) ∨
    batch ∈ world.phase.unbuilt

/-- How a step of `world` makes an unbuilt batch. -/
inductive Source (config : Config) (world : World) (batch : InProgressBatch) : Prop where
  | kept (waits : world.Waits batch)
  | appended (generated : world.appendGeneration config = some batch.transactionGeneration)
      (before : List PendingRecord) (handle : Nat) (payload : Payload)
      (records : batch.records = before ++ [⟨handle, before.length, payload⟩])
      (longer : before = [] ∨ Exists fun old => world.Waits old ∧ old.records = before)
  /-- `split_and_requeue`. -/
  | half (old : PreparedBatch) (carried : world.Carries old) (part : List PendingRecord)
      (records : batch.records = Accumulator.renumber part)
      (generation : batch.transactionGeneration = old.transactionGeneration)

section Sources

variable {config : Config} {world other next : World} {choice : Choice} {batch : InProgressBatch}

variable {key : TopicPartition}

theorem source_queued (found : world.accumulators.get? key = some accumulator)
    (member : batch ∈ accumulator.batches) : Source config world batch :=
  .kept (.inl ⟨key, accumulator, found, member⟩)

theorem source_phase {source : Phase} (atPhase : world.phase = source)
    (member : batch ∈ source.unbuilt) : Source config world batch :=
  .kept (.inr (atPhase ▸ member))

/-- The unbuilt batches after a step that leaves the accumulators alone. -/
theorem source_same (waits : next.Waits batch)
    (accumulators : next.accumulators = world.accumulators)
    (phase : batch ∈ next.phase.unbuilt -> Source config world batch) :
    Source config world batch := by
  rcases waits with ⟨key, accumulator, found, member⟩ | inPhase
  · exact source_queued (accumulators ▸ found) member
  · exact phase inPhase

theorem source_set (waits : next.Waits batch) {changed : Accumulator}
    (accumulators : next.accumulators = world.accumulators.insert key changed)
    (queued : batch ∈ changed.batches -> Source config world batch)
    (phase : batch ∈ next.phase.unbuilt -> Source config world batch) :
    Source config world batch := by
  rcases waits with ⟨other, accumulator, found, member⟩ | inPhase
  · rw [accumulators, SortedMap.get?_insert] at found
    split_ifs at found
    · exact queued (some.inj found ▸ member)
    · exact source_queued found member
  · exact phase inPhase

variable {drain : Drain}

theorem sweepKey_source {generation : Nat}
    (waits : (world.sweepKey drain generation keys).Waits batch) : Source config world batch := by
  unfold sweepKey at waits
  cases keys with
  | nil => exact source_same waits rfl (by simp [goto, Phase.unbuilt])
  | cons key rest =>
    dsimp only at waits
    cases found : world.accumulators.get? key with
    | none =>
      rw [found] at waits
      exact source_same waits rfl (by simp [goto, Phase.unbuilt])
    | some accumulator =>
      rw [found] at waits
      refine source_set waits rfl ?_ (by simp [goto, Phase.unbuilt])
      intro member
      apply source_queued found
      rcases mem_append.mp member with ready | current
      · exact mem_append_left _ (mem_filter.mp ready).1
      · apply mem_append_right
        have passing := filter_eq_some_iff.mp (mem_toList.mp current)
        exact mem_toList.mpr passing.1

theorem mem_splitExpired {now : Nat} (member : batch ∈ (splitExpired config now accumulator).1 ∨
      batch ∈ (splitExpired config now accumulator).2.batches) : batch ∈ accumulator.batches := by
  have early : batch ∈ accumulator.ready.takeWhile
      (fun batch => reachedDeliveryTimeout config batch.firstAppendAt now) ->
      batch ∈ accumulator.batches :=
    fun taken => mem_append_left _ (takeWhile_sublist _ |>.mem taken)
  have later : batch ∈ accumulator.ready.dropWhile
      (fun batch => reachedDeliveryTimeout config batch.firstAppendAt now) ->
      batch ∈ accumulator.batches :=
    fun dropped => mem_append_left _ (dropWhile_sublist _ |>.mem dropped)
  unfold splitExpired at member
  cases found : accumulator.current with
  | none =>
    simp only [found, Accumulator.batches, toList_none, append_nil] at member
    exact member.elim early later
  | some current =>
    have inside : current ∈ accumulator.batches := by simp [Accumulator.batches, found]
    simp only [found] at member
    split_ifs at member
    · simp only [Accumulator.batches, toList_none, append_nil, mem_append, mem_singleton] at member
      rcases member with (taken | here) | dropped
      · exact early taken
      · exact here ▸ inside
      · exact later dropped
    · simp only [Accumulator.batches, toList_some, mem_append, mem_singleton] at member
      rcases member with taken | dropped | here
      · exact early taken
      · exact later dropped
      · exact here ▸ inside

theorem takeExpiredKey_source (atPhase : world.phase = .takeExpired drain keys expired)
    (waits : (world.takeExpiredKey config drain keys expired).Waits batch) :
    Source config world batch := by
  unfold takeExpiredKey at waits
  cases keys with
  | nil => exact source_same waits rfl (fun member => source_phase atPhase member)
  | cons key rest =>
    dsimp only at waits
    cases found : world.accumulators.get? key with
    | none =>
      rw [found] at waits
      exact source_same waits rfl (fun member => source_phase atPhase member)
    | some accumulator =>
      rw [found] at waits
      refine source_set waits rfl ?_ ?_
      · exact fun member => source_queued found (mem_splitExpired (.inr member))
      · intro member
        rcases mem_append.mp member with before | taken
        · exact source_phase atPhase before
        · exact source_queued found (mem_splitExpired (.inl taken))

theorem failUnsentStep_source {flagged : Bool}
    (atPhase : world.phase = .failUnsent drain flagged expired)
    (waits : (world.failUnsentStep drain flagged expired).Waits batch) :
    Source config world batch := by
  cases expired with
  | nil => exact source_same waits rfl (by simp [failUnsentStep, goto, Phase.unbuilt])
  | cons head rest =>
    cases flagged with
    | true =>
      exact source_same waits rfl (fun member => source_phase atPhase (.tail head member))
    | false => exact source_same waits rfl (fun member => source_phase atPhase member)

theorem drainKeyStep_source {loop : DrainLoop}
    (waits : (world.drainKeyStep config loop).Waits batch) : Source config world batch := by
  unfold drainKeyStep at waits
  cases keys : loop.keys with
  | nil =>
    rw [keys] at waits
    exact source_same waits rfl (by simp [goto, Phase.unbuilt])
  | cons key rest =>
    rw [keys] at waits
    dsimp only at waits
    cases found : world.accumulators.get? key with
    | none =>
      rw [found] at waits
      exact source_same waits rfl (by simp [goto, Phase.unbuilt])
    | some accumulator =>
      rw [found] at waits
      dsimp only at waits
      split_ifs at waits
      · exact source_same waits rfl (by simp [goto, Phase.unbuilt])
      · refine source_set waits rfl ?_ (by simp [goto, Phase.unbuilt])
        exact fun member => source_queued found (mem_batches_sealCurrent member)
      · exact source_same waits rfl (by simp [goto, Phase.unbuilt])

theorem popReadyStep_source {loop : DrainLoop} {leader : Int}
    (waits : (world.popReadyStep loop key leader).Waits batch) : Source config world batch := by
  unfold popReadyStep at waits
  cases found : world.accumulators.get? key with
  | none =>
    rw [found] at waits
    exact source_same waits rfl (by simp [goto, Phase.unbuilt])
  | some accumulator =>
    rw [found] at waits
    dsimp only at waits
    cases ready : accumulator.ready with
    | nil =>
      rw [ready] at waits
      exact source_same waits rfl (by simp [goto, Phase.unbuilt])
    | cons popped rest =>
      rw [ready] at waits
      refine source_set waits rfl ?_ ?_
      · intro member
        apply source_queued found
        simp only [Accumulator.batches, ready, mem_append, mem_cons] at member ⊢
        tauto
      · intro member
        apply source_queued found
        rw [mem_singleton.mp member]
        simp [Accumulator.batches, ready]

theorem requeueStep_source {bumped : Bool} {cycle : CycleVerdicts} {old : PreparedBatch}
    (atPhase : world.phase = .requeue bumped cycle old)
    (waits : (world.requeueStep bumped cycle old).Waits batch) : Source config world batch := by
  have carried : world.Carries old := .inr (.inr (.inl (atPhase ▸ (.head _))))
  unfold requeueStep at waits
  cases found : world.accumulators.get? old.key with
  | none =>
    rw [found] at waits
    exact source_same waits rfl (by simp [goto, Phase.unbuilt])
  | some accumulator =>
    rw [found] at waits
    refine source_set waits rfl ?_ (by simp [goto, Phase.unbuilt])
    intro member
    rcases mem_batches_pushFront member with ⟨records, generation⟩ | later
    · exact .half old carried _ records generation
    · rcases mem_batches_pushFront later with ⟨records, generation⟩ | before
      · exact .half old carried _ records generation
      · exact source_queued found before

theorem flagFailure_accumulators {failed : PreparedBatch} {error : ProducerError} :
    (world.flagFailure failed error).accumulators = world.accumulators := by
  unfold flagFailure
  repeat' split
  all_goals rfl

theorem execCall_source {call : Call} (waits : (world.execCall choice call).Waits batch) :
    Source config world batch := by
  cases call with
  | terminalFail failed error =>
    exact source_same waits flagFailure_accumulators (source_phase rfl)
  | fenceKeys keys =>
    cases keys with
    | nil => exact .kept waits
    | cons key rest =>
      simp only [execCall, fenceKey] at waits
      repeat' split at waits
      · exact source_same waits rfl (source_phase rfl)
      · exact source_set waits rfl (by simp [Accumulator.batches]) (source_phase rfl)
      · exact source_same waits rfl (source_phase rfl)
  | _ => exact source_same waits rfl (source_phase rfl)

/-- The unbuilt batches after a cut of the sender. -/
theorem senderStep_source (stepped : world.senderStep config choice = some next)
    (waits : next.Waits batch) : Source config world batch := by
  unfold senderStep at stepped
  cases pending : world.calls with
  | cons call rest =>
    rw [pending] at stepped
    rw [← some.inj stepped] at waits
    -- The call is no longer pending, which `Source` does not look at.
    cases execCall_source waits with
    | kept waits => exact .kept waits
    | appended generated before handle payload records longer =>
      exact .appended generated before handle payload records longer
    | half old carried part records generation =>
      refine .half old ?_ part records generation
      exact carried.imp id (Or.imp id (Or.imp id (fun ⟨later, member, inCall⟩ =>
        ⟨later, pending ▸ .tail call member, inCall⟩)))
  | nil =>
    rw [pending] at stepped
    unfold execPhase at stepped
    cases atPhase : world.phase <;>
      simp only [atPhase, some.injEq, reduceCtorEq] at stepped <;> subst stepped
    case sweepRecovered => exact sweepKey_source waits
    case takeExpired => exact takeExpiredKey_source atPhase waits
    case failUnsent => exact failUnsentStep_source atPhase waits
    case drainKeys => exact drainKeyStep_source waits
    case popReady => exact popReadyStep_source waits
    case requeue => exact requeueStep_source atPhase waits
    all_goals
      simp only [scheduleStart, scanStep, afterSchedule, drainStart, sweepStart, retrySlotsStart,
        retrySlotStep, collectRetries, expireStart, bumpIdempotentEpoch, expireStep, repair,
        barRetryStep, routeStep, checkEpochStep, barPoppedStep, allocateStep, snapshotStateStep,
        snapshotIdentityStep, addBuilt, recordStep, applyCycle, recordFenced, recordLive,
        recordRetry, recordAck, recordTransactionFatalError, settleStep, splitSequence,
        foldl_park] at waits
      repeat' split at waits
      all_goals first
        | exact source_same waits rfl (fun member => source_phase atPhase member)
        | exact source_same waits rfl (by simp [goto, Phase.unbuilt])

theorem append_source {payload : Payload}
    (stepped : world.append config key payload = some next) (waits : next.Waits batch) :
    Source config world batch := by
  unfold append at stepped
  split at stepped
  · rename_i generation accumulator generated found
    split_ifs at stepped
    cases stepped
    refine source_set waits rfl ?_ (source_phase rfl)
    intro member
    rcases mem_batches_append member with before | ⟨same, before, records, longer⟩
    · exact source_queued found before
    · refine .appended (same ▸ generated) before _ _ records ?_
      rcases longer with none | ⟨old, inside, oldRecords⟩
      · exact .inl none
      · exact .inr ⟨old, .inl ⟨key, accumulator, found, inside⟩, oldRecords⟩
  · cases stepped

/-- The unbuilt batches after any step. -/
theorem step_source {act : Act} (stepped : world.step config act = some next)
    (waits : next.Waits batch) : Source config world batch := by
  have kept : next.accumulators = world.accumulators -> Source config world batch := by
    intro accumulators
    rcases act.sender_or_outside with ⟨choice, rfl⟩ | outside
    · exact senderStep_source stepped waits
    · refine source_same waits accumulators ?_
      intro member
      rcases (step_outside outside stepped).phase with same | ⟨_, woken | ⟨results, recording⟩⟩
      · exact source_phase rfl (same ▸ member)
      · simp [woken, Phase.unbuilt] at member
      · simp [recording, Phase.unbuilt] at member
  cases act with
  | sender choice => exact senderStep_source stepped waits
  | append key payload => exact append_source stepped waits
  | task index choice =>
    rcases advanceTask_cut stepped with ⟨task, result, after, found, cut, rfl⟩
    rcases (taskStep_frame cut).accumulators with same | ⟨key, rfl⟩
    · exact kept same
    · simp only [abortKey] at waits
      split at waits
      · exact source_same waits rfl (source_phase rfl)
      · exact source_set waits rfl (by simp [Accumulator.batches]) (source_phase rfl)
  | openAccumulator key =>
    simp only [step, openAccumulator, some.injEq] at stepped
    split_ifs at stepped
    · exact kept (stepped ▸ rfl)
    · rw [← stepped] at waits
      exact source_set waits rfl (by simp [Accumulator.new, Accumulator.batches]) (source_phase rfl)
  | sealFull key payload =>
    simp only [step, sealFull] at stepped
    split at stepped
    · rename_i generation accumulator generated found
      split_ifs at stepped <;> cases stepped
      · exact source_set waits rfl
          (fun member => source_queued found (mem_batches_sealCurrent member))
          (source_phase rfl)
      · exact .kept waits
    · cases stepped
  | complete picks =>
    apply kept
    simp only [step, complete] at stepped
    repeat' split at stepped
    all_goals cases stepped
    rfl
  | _ =>
    apply kept
    simp only [step, onRequest, pollRequest, answerRequest, loseRequest, acceptRequest,
      registerFails] at stepped
    repeat' split at stepped
    all_goals cases stepped
    all_goals rfl

end Sources

/-! ## Transaction generations -/

def Belongs (world : World) (generation : Option Nat) : Prop :=
  (Exists fun batch => world.Waits batch ∧ batch.transactionGeneration = generation) ∨
    Exists fun batch => world.Carries batch ∧ batch.transactionGeneration = generation

/-- Only an append brings a new generation. -/
theorem step_belongs {config : Config} {world next : World} {act : Act}
    (stepped : world.step config act = some next) (belongs : next.Belongs generation) :
    world.Belongs generation ∨ world.appendGeneration config = some generation := by
  have popped : forall {batch : InProgressBatch}, batch ∈ world.phase.unbuilt ->
      world.Belongs batch.transactionGeneration :=
    fun member => .inl ⟨_, .inr member, rfl⟩
  have carried : forall {old : PreparedBatch}, old ∈ world.phase.batches ->
      world.Belongs old.transactionGeneration :=
    fun member => .inr ⟨_, .inr (.inr (.inl member)), rfl⟩
  rcases belongs with ⟨batch, waits, rfl⟩ | ⟨batch, carries, rfl⟩
  · cases step_source stepped waits with
    | kept waits => exact .inl (.inl ⟨batch, waits, rfl⟩)
    | appended generated => exact .inr generated
    | half old carries part records generation => exact .inl (.inr ⟨old, carries, generation.symm⟩)
  · left
    cases step_origin stepped batch carries with
    | kept old carries same => exact .inr ⟨old, carries, same.transactionGeneration.symm⟩
    | built loop key leader batch baseSequence atPhase outside new
    | builtTransactional loop key leader batch baseSequence atPhase new =>
      exact new ▸ popped (by simp [atPhase, Phase.unbuilt])
    | rewritten cycle old rest atPhase first new
    | restarted bumped cycle old rest atPhase noRewrite noRepair first new =>
      rw [new]
      exact @carried old (by simp [atPhase, Phase.batches, CycleVerdicts.batches, first])

end World

end Producer
end Krabka
