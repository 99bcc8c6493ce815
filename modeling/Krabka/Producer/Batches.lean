import Krabka.Producer.History

namespace Krabka
namespace Producer

open Collections List SortedMap

/-!
# Where a batch comes from

A prepared batch that the producer carries was carried before with the same
stamps, or a step just built it or gave it new stamps.  `Origin` lists the
steps that stamp a batch.  Facts about stamps follow by looking at these few
steps.
-/

/-! ## The places of a batch -/

/-- The batches that wait for the end of a completion cycle. -/
def CycleVerdicts.batches (cycle : CycleVerdicts) : List PreparedBatch :=
  cycle.fenced.getD [] ++ cycle.restarts ++ cycle.rewrites ++ cycle.splits ++
    cycle.failed.map Prod.fst

namespace CycleVerdicts

theorem recordRepair_batches (cycle : CycleVerdicts) (batch : PreparedBatch)
    (repair : SequenceRepair) : (cycle.recordRepair batch repair).batches = cycle.batches := by
  cases repair <;> rfl

variable {cycle : CycleVerdicts} {failed found : PreparedBatch}

theorem mem_batches_fail {error : ProducerError}
    (member : found ∈ ({ cycle with failed := cycle.failed ++ [(failed, error)] } :
      CycleVerdicts).batches) : found = failed ∨ found ∈ cycle.batches := by
  simp only [batches, map_append, map_cons, map_nil, mem_append, mem_singleton] at member ⊢
  tauto

theorem mem_batches_failTerminal {code : Int} {repair : SequenceRepair}
    (member : found ∈ (cycle.failTerminal failed code repair).batches) :
    found = failed ∨ found ∈ cycle.batches := by
  rw [← recordRepair_batches cycle failed repair]
  exact mem_batches_fail member

theorem mem_batches_giveUp (member : found ∈ (cycle.giveUp failed).batches) :
    found = failed ∨ found ∈ cycle.batches := by
  rw [← recordRepair_batches cycle failed failed.mode.repairAfterFailure]
  exact mem_batches_fail member

end CycleVerdicts

def DrainLoop.batches (loop : DrainLoop) : List PreparedBatch := loop.routed.map Prod.snd

def Phase.batches : Phase -> List PreparedBatch
  | .expire expired toSend => expired ++ toSend
  | .expireRepairs _ expired toSend => expired ++ toSend
  | .barRetries _ pending kept => pending ++ kept
  | .route _ toSend => toSend
  | .checkEpoch _ _ routed => routed.map Prod.snd
  | .drainKeys loop => loop.batches
  | .popReady loop _ _ => loop.batches
  | .barPopped loop _ _ _ => loop.batches
  | .allocate loop _ _ _ => loop.batches
  | .snapshotState loop _ _ _ _ => loop.batches
  | .snapshotIdentity loop _ _ _ _ => loop.batches
  | .record cycle results => cycle.batches ++ results.map BatchSendResult.batch
  | .settle _ cycle => cycle.batches
  | .requeue _ cycle batch => batch :: cycle.batches
  | _ => []

def Call.batches : Call -> List PreparedBatch
  | .terminalFail batch _ => [batch]
  | .fence toFail => toFail
  | _ => []

variable {after : CycleVerdicts}

namespace World

/-- The producer carries `batch`: in a retry slot, in a request, or in the
current step of the sender. -/
def Carries (world : World) (batch : PreparedBatch) : Prop :=
  (Exists fun key => world.retry.get? key = some batch) ∨
    (Exists fun request => request ∈ world.requests ∧ request.batch = batch) ∨
    batch ∈ world.phase.batches ∨
    Exists fun call => call ∈ world.calls ∧ batch ∈ call.batches

/-- How a step of `world` makes a batch. -/
inductive Origin (config : Config) (world : World) (batch : PreparedBatch) : Prop where
  | kept (old : PreparedBatch) (carried : world.Carries old) (same : batch.SameStamp old)
  | built (loop : DrainLoop) (key : TopicPartition) (leader : Int) (popped : InProgressBatch)
      (baseSequence : Int)
      (atPhase : world.phase = .snapshotState loop key leader popped baseSequence)
      (outside : (config.transactional && inActiveTransaction world.txnState) = false)
      (new : batch = buildBatch key popped baseSequence false world.identity)
  /-- `prepare_batch` inside of a transaction. -/
  | builtTransactional (loop : DrainLoop) (key : TopicPartition) (leader : Int)
      (popped : InProgressBatch) (baseSequence : Int)
      (atPhase : world.phase = .snapshotIdentity loop key leader popped baseSequence)
      (new : batch = buildBatch key popped baseSequence true world.txnIdentity)
  /-- `restart_sequence` after an epoch bump. -/
  | rewritten (cycle : CycleVerdicts) (old : PreparedBatch) (rest : List PreparedBatch)
      (atPhase : world.phase = .settle true cycle) (first : cycle.rewrites = old :: rest)
      (new : batch = (old.stamped world.identity).restarted)
  /-- `restart_sequence` under the same identity. -/
  | restarted (bumped : Bool) (cycle : CycleVerdicts) (old : PreparedBatch)
      (rest : List PreparedBatch) (atPhase : world.phase = .settle bumped cycle)
      (noRewrite : cycle.rewrites = []) (noRepair : cycle.repairs = [])
      (first : cycle.restarts = old :: rest) (new : batch = old.restarted)

def Origins (config : Config) (world next : World) : Prop :=
  forall batch, next.Carries batch -> Origin config world batch

section Origins

variable {config : Config} {world other next : World} {choice : Choice} {batch : PreparedBatch}
  {source target : Phase} {calls : List Call}

theorem origin_slot {key : TopicPartition} (found : world.retry.get? key = some batch) :
    Origin config world batch :=
  .kept batch (.inl ⟨key, found⟩) (.refl batch)

theorem origin_phase (atPhase : world.phase = source) (member : batch ∈ source.batches) :
    Origin config world batch :=
  .kept batch (.inr (.inr (.inl (atPhase ▸ member)))) (.refl batch)

theorem origin_call {call : Call} (pending : call ∈ world.calls) (member : batch ∈ call.batches) :
    Origin config world batch :=
  .kept batch (.inr (.inr (.inr ⟨call, pending, member⟩))) (.refl batch)

theorem origin_request (same : other.requests = world.requests) (request : Request)
    (member : request ∈ other.requests) : Origin config world request.batch :=
  .kept _ (.inr (.inl ⟨request, same ▸ member, rfl⟩)) (.refl _)

/-- The batches after a step that goes to `target`. -/
theorem origin_goto
    (slots : forall key batch, other.retry.get? key = some batch -> Origin config world batch)
    (requests : forall request, request ∈ other.requests -> Origin config world request.batch)
    (pending : other.calls = world.calls)
    (phase : forall batch, batch ∈ target.batches -> Origin config world batch)
    (called : forall call, call ∈ calls -> forall batch, batch ∈ call.batches ->
      Origin config world batch) : Origins config world (other.goto calls target) := by
  intro batch carried
  rcases carried with ⟨key, found⟩ | ⟨request, member, same⟩ | member | ⟨call, member, inCall⟩
  · exact slots key batch found
  · exact same ▸ requests request member
  · exact phase batch member
  · rcases mem_append.mp member with isNew | old
    · exact called call isNew batch inCall
    · exact origin_call (pending ▸ old) inCall

/-- A step that only goes to another phase. -/
theorem origin_move (atPhase : world.phase = source) (retry : other.retry = world.retry)
    (requests : other.requests = world.requests) (pending : other.calls = world.calls)
    (phase : target.batches ⊆ source.batches)
    (called : forall call, call ∈ calls -> call.batches ⊆ source.batches) :
    Origins config world (other.goto calls target) :=
  origin_goto (fun _ _ found => origin_slot (retry ▸ found)) (origin_request requests) pending
    (fun _ member => origin_phase atPhase (phase member))
    (fun call isNew _ member => origin_phase atPhase (called call isNew member))

theorem get?_foldl_park {batches : List PreparedBatch} {key : TopicPartition}
    (found : (batches.foldl park world).retry.get? key = some batch) :
    batch ∈ batches ∨ world.retry.get? key = some batch := by
  induction batches generalizing world with
  | nil => exact .inr found
  | cons head rest ih =>
    rcases ih found with later | parked
    · exact .inl (.tail head later)
    · rw [park, get?_insert] at parked
      split_ifs at parked with here
      · exact .inl (Option.some.inj parked ▸ (.head _))
      · exact .inr parked

/-- Batches of the sender go to the retry slots. -/
theorem origin_park (batches : List PreparedBatch) (atPhase : world.phase = source)
    (retry : other.retry = world.retry) (requests : other.requests = world.requests)
    (pending : other.calls = world.calls)
    (parked : forall batch, batch ∈ batches -> Exists fun old =>
      old ∈ source.batches ∧ batch.SameStamp old)
    (phase : target.batches ⊆ source.batches)
    (called : forall call, call ∈ calls -> call.batches ⊆ source.batches) :
    Origins config world ((batches.foldl park other).goto calls target) := by
  refine origin_goto ?_ ?_ ?_ (fun _ member => origin_phase atPhase (phase member))
    (fun call isNew _ member => origin_phase atPhase (called call isNew member))
  · intro key slot found
    rcases get?_foldl_park found with here | before
    · rcases parked slot here with ⟨old, member, same⟩
      exact .kept old (.inr (.inr (.inl (atPhase ▸ member)))) same
    · exact origin_slot (retry ▸ before)
  · apply origin_request
    rw [foldl_park]
    exact requests
  · rw [foldl_park]
    exact pending

variable {drain : Drain}

theorem retrySlotStep_origin {slots : List (TopicPartition × Barrier)}
    (atPhase : world.phase = .failRetrySlots drain slots) :
    Origins config world (world.retrySlotStep choice drain slots) := by
  unfold retrySlotStep
  repeat' split
  · exact origin_move atPhase rfl rfl rfl (by simp [Phase.batches]) (by simp)
  · exact origin_move atPhase rfl rfl rfl (by simp [Phase.batches]) (by simp)
  · refine origin_goto ?_ (origin_request rfl) rfl (by simp [Phase.batches]) (by simp [Call.batches])
    intro key slotted kept
    exact origin_slot (get?_of_filter kept)

theorem mem_arrange_retry
    (member : batch ∈ (choice.arrange Prod.fst world.retry.entries).map Prod.snd) :
    Exists fun key => world.retry.get? key = some batch := by
  rcases mem_map.mp member with ⟨slot, inSlots, rfl⟩
  rw [(arrange_perm choice Prod.fst world.retry.entries).mem_iff] at inSlots
  exact ⟨slot.1, (mem_entries_iff _ _ _).mp inSlots⟩

theorem collectRetries_origin :
    Origins config world (world.collectRetries config choice drain) := by
  have live : forall {test : PreparedBatch -> Bool} {old : PreparedBatch},
      old ∈ ((choice.arrange Prod.fst world.retry.entries).map Prod.snd).filter test ->
        world.Carries old :=
    fun member => .inl (mem_arrange_retry (mem_filter.mp member).1)
  have parked : forall {batches : List PreparedBatch} {key : TopicPartition}
      {found : PreparedBatch}, (forall old, old ∈ batches -> world.Carries old) ->
        (batches.foldl park world.clearRetry).retry.get? key = some found ->
          Origin config world found := by
    intro batches key found carriedAll slot
    rcases get?_foldl_park slot with here | nowhere
    · exact .kept found (carriedAll found here) (.refl found)
    · simp [clearRetry] at nowhere
  have resent : forall {batches : List PreparedBatch} {found : PreparedBatch},
      (forall old, old ∈ batches -> world.Carries old) ->
        found ∈ batches.map (fun batch => { batch with backoffUntil := none }) ->
          Origin config world found := by
    intro batches found carriedAll member
    rcases mem_map.mp member with ⟨old, inBatches, rfl⟩
    exact .kept old (carriedAll old inBatches) ⟨rfl, rfl, rfl, rfl, rfl⟩
  dsimp only [collectRetries]
  split_ifs
  all_goals
    refine origin_goto ?_ (origin_request (by rw [foldl_park]; rfl)) (by rw [foldl_park]; rfl) ?_
      (by simp)
    · exact fun key found slot =>
        parked (fun old member => live (mem_filter.mp member).1) slot
  · intro found member
    simp only [Phase.batches, append_nil] at member
    exact resent (fun old inBatches => live (mem_filter.mp inBatches).1) member
  · intro found member
    rcases mem_append.mp member with expired | toSend
    · exact .kept found (live expired) (.refl found)
    · exact resent (fun old inBatches => live (mem_filter.mp inBatches).1) toSend

variable {toSend : List PreparedBatch}

theorem expireStep_origin {repairs : List (TopicPartition × SequenceRepair × Int)}
    {expired : List PreparedBatch}
    (atPhase : world.phase = .expireRepairs repairs expired toSend) :
    Origins config world (world.expireStep repairs expired toSend) := by
  cases repairs with
  | cons head rest =>
    have same := @repair_same world head
    exact origin_move atPhase same.retry same.requests same.calls (List.Subset.refl _) (by simp)
  | nil =>
    refine origin_park _ atPhase rfl rfl rfl ?_ (by simp [Phase.batches]) ?_
    · intro parked member
      exact ⟨parked, mem_append_right _ member, .refl parked⟩
    · intro call isNew failed member
      rcases mem_map.mp isNew with ⟨old, inExpired, rfl⟩
      rw [mem_singleton.mp member]
      exact mem_append_left _ inExpired

theorem barRetryStep_origin {pending kept : List PreparedBatch}
    (atPhase : world.phase = .barRetries drain pending kept) :
    Origins config world (world.barRetryStep drain pending kept) := by
  unfold barRetryStep
  repeat' split
  · exact origin_move atPhase rfl rfl rfl (List.Subset.refl _) (by simp)
  · exact origin_move atPhase rfl rfl rfl (subset_cons_self _ _) (by simp [Call.batches])
  · refine origin_move atPhase rfl rfl rfl ?_ (by simp)
    intro found member
    simp only [Phase.batches, mem_append, mem_cons] at member ⊢
    tauto

theorem mem_routeRetries {slots : SortedMap Int Nat}
    (member : batch ∈ (world.routeRetries config slots toSend).2.1.map Prod.snd ∨
      batch ∈ (world.routeRetries config slots toSend).2.2) : batch ∈ toSend := by
  induction toSend generalizing slots with
  | nil => simp [routeRetries] at member
  | cons head rest ih =>
    rw [routeRetries] at member
    split_ifs at member
    · simp only [map_cons, mem_cons] at member
      rcases member with (here | routed) | refused
      · exact here ▸ (.head _)
      · exact .tail _ (ih (.inl routed))
      · exact .tail _ (ih (.inr refused))
    · simp only [mem_cons] at member
      rcases member with routed | (here | refused)
      · exact .tail _ (ih (.inl routed))
      · exact here ▸ (.head _)
      · exact .tail _ (ih (.inr refused))

theorem routeStep_origin (atPhase : world.phase = .route drain toSend) :
    Origins config world (world.routeStep config drain toSend) := by
  refine origin_park _ atPhase rfl rfl rfl ?_ ?_ (by simp)
  · intro parked member
    exact ⟨parked, mem_routeRetries (.inr member), .refl parked⟩
  · exact fun found member => mem_routeRetries (.inl member)

theorem checkEpochStep_origin {slots : SortedMap Int Nat} {routed : List (Int × PreparedBatch)}
    (atPhase : world.phase = .checkEpoch drain slots routed) :
    Origins config world (world.checkEpochStep choice drain slots routed) := by
  have same := @checkedEpoch_same world choice
  dsimp only [checkEpochStep]
  generalize (if world.identity.producerEpoch = I16_MAX then world.bumpIdempotentEpoch choice
    else (true, world)) = bumped at same ⊢
  split
  · exact origin_move atPhase same.retry same.requests same.calls (List.Subset.refl _) (by simp)
  · refine origin_park _ atPhase rfl rfl rfl ?_ (by simp [Phase.batches]) (by simp)
    exact fun parked member => ⟨parked, member, .refl parked⟩

theorem drainKeyStep_origin {loop : DrainLoop} (atPhase : world.phase = .drainKeys loop) :
    Origins config world (world.drainKeyStep config loop) := by
  unfold drainKeyStep
  split
  · refine origin_goto (fun _ _ found => origin_slot found) ?_ rfl (by simp [Phase.batches])
      (by simp)
    intro request member
    rcases mem_append.mp member with old | isNew
    · exact origin_request rfl request old
    · rcases mem_map.mp isNew with ⟨route, inRouted, rfl⟩
      exact origin_phase atPhase (mem_map_of_mem inRouted)
  · dsimp only
    repeat' split
    all_goals exact origin_move atPhase rfl rfl rfl (List.Subset.refl _) (by simp)

theorem addBuilt_origin {loop : DrainLoop} {leader : Int} {built : PreparedBatch}
    (atPhase : world.phase = source) (inLoop : source.batches = loop.batches)
    (origin : Origin config world built) :
    Origins config world (world.addBuilt loop leader built) := by
  refine origin_goto (fun _ _ found => origin_slot found) (origin_request rfl) rfl ?_ (by simp)
  intro found member
  simp only [Phase.batches, DrainLoop.batches, map_append, mem_append, map_cons,
    map_nil, mem_singleton] at member
  rcases member with routed | isNew
  · exact origin_phase atPhase (inLoop ▸ routed)
  · exact isNew ▸ origin

section Completed

variable {result : BatchSendResult} {rest : List BatchSendResult} {cycle : CycleVerdicts}

section

variable (atPhase : world.phase = .record cycle (result :: rest))

include atPhase

/-- A completed batch goes to `target`, which may hold it. -/
theorem origin_record (retry : other.retry = world.retry)
    (requests : other.requests = world.requests) (pending : other.calls = world.calls)
    (phase : forall batch, batch ∈ target.batches -> batch.SameStamp result.batch ∨
      batch ∈ cycle.batches ∨ batch ∈ rest.map BatchSendResult.batch)
    (called : forall call, call ∈ calls -> forall batch, batch ∈ call.batches ->
      batch = result.batch) : Origins config world (other.goto calls target) := by
  have completed : result.batch ∈ (Phase.record cycle (result :: rest)).batches :=
    mem_append_right _ (.head _)
  refine origin_goto (fun _ _ found => origin_slot (retry ▸ found)) (origin_request requests)
    pending ?_ ?_
  · intro found member
    rcases phase found member with same | inCycle | later
    · exact .kept result.batch (.inr (.inr (.inl (atPhase ▸ completed)))) same
    · exact origin_phase atPhase (mem_append_left _ inCycle)
    · exact origin_phase atPhase (mem_append_right _ (.tail _ later))
  · intro call isNew found member
    exact origin_phase atPhase (called call isNew found member ▸ completed)

/-- The completed batch may join one of the lists of the cycle. -/
theorem origin_joined {held : PreparedBatch} (same : held.SameStamp result.batch)
    (retry : other.retry = world.retry) (requests : other.requests = world.requests)
    (pending : other.calls = world.calls)
    (fits : forall found, found ∈ after.batches -> found = held ∨ found ∈ cycle.batches)
    (called : forall call, call ∈ calls -> forall batch, batch ∈ call.batches ->
      batch = result.batch) : Origins config world (other.goto calls (.record after rest)) := by
  refine origin_record atPhase retry requests pending ?_ called
  intro found member
  rcases mem_append.mp member with inCycle | later
  · rcases fits found inCycle with rfl | before
    · exact .inl same
    · exact .inr (.inl before)
  · exact .inr (.inr later)

theorem recordLive_origin :
    Origins config world (world.recordLive config cycle rest result) := by
  have retried := PreparedBatch.SameStamp.takeRetry result.batch config.retries
  have fatal := fun code => @recordTransactionFatalError_same world result.batch code
  have acked := fun baseOffset => @recordAck_same world result.batch baseOffset
  unfold recordLive
  cases result.verdict with
  | acked baseOffset logAppendTimeMs =>
    exact origin_joined atPhase (.refl _) (acked _).retry (acked _).requests (acked _).calls
      (fun _ => .inr) (by simp [Call.batches])
  | terminal code repair =>
    exact origin_joined atPhase (.refl _) rfl rfl rfl
      (fun _ => CycleVerdicts.mem_batches_failTerminal) (by simp)
  | split =>
    refine origin_joined atPhase (.refl _) rfl rfl rfl ?_ (by simp)
    intro found member
    simp only [CycleVerdicts.batches, mem_append, mem_singleton] at member ⊢
    tauto
  | fatal code =>
    refine origin_joined atPhase (.refl _) (fatal _).retry (fatal _).requests (fatal _).calls ?_
      (by simp [Call.batches])
    intro found member
    simp only [CycleVerdicts.batches, Option.getD_some, nil_append, mem_append] at member ⊢
    tauto
  | barred barrier =>
    exact origin_joined atPhase (.refl _) rfl rfl rfl (fun _ => .inr) (by simp [Call.batches])
  | retry =>
    dsimp only [recordRetry]
    split_ifs
    · exact origin_joined atPhase retried rfl rfl rfl (fun _ => CycleVerdicts.mem_batches_giveUp)
        (by simp)
    · refine origin_park [(result.batch.takeRetry config.retries).2] atPhase rfl rfl rfl ?_ ?_
        (by simp)
      · intro parked member
        rw [mem_singleton.mp member]
        exact ⟨result.batch, mem_append_right _ (.head _), retried⟩
      · intro found member
        rcases mem_append.mp member with inCycle | later
        · exact mem_append_left _ inCycle
        · exact mem_append_right _ (.tail _ later)
  | bumpEpochAndRetry | restartSequenceAndRetry =>
    dsimp only [recordRetry]
    split_ifs
    · exact origin_joined atPhase retried rfl rfl rfl (fun _ => CycleVerdicts.mem_batches_giveUp)
        (by simp)
    · refine origin_joined atPhase retried rfl rfl rfl ?_ (by simp)
      intro found member
      simp only [CycleVerdicts.batches, mem_append, mem_singleton] at member ⊢
      tauto

theorem recordFenced_origin {toFail : List PreparedBatch} (fenced : cycle.fenced = some toFail) :
    Origins config world (world.recordFenced cycle toFail rest result) := by
  have deferred : forall found,
      found ∈ ({ cycle with fenced := some (toFail ++ [result.batch]) } : CycleVerdicts).batches ->
        found = result.batch ∨ found ∈ cycle.batches := by
    intro found member
    simp only [CycleVerdicts.batches, fenced, Option.getD_some, mem_append,
      mem_singleton] at member ⊢
    tauto
  unfold recordFenced
  cases result.verdict
  case fatal code =>
    have same := @recordTransactionFatalError_same world result.batch code
    exact origin_joined atPhase (.refl _) same.retry same.requests same.calls (fun _ => .inr)
      (by simp [Call.batches])
  all_goals first
    | exact origin_joined atPhase (.refl _) rfl rfl rfl (fun _ => .inr) (by simp [Call.batches])
    | exact origin_joined atPhase (.refl _) rfl rfl rfl deferred (by simp)

end

theorem recordStep_origin {results : List BatchSendResult}
    (atPhase : world.phase = .record cycle results) :
    Origins config world (world.recordStep config choice cycle results) := by
  unfold recordStep
  cases results with
  | nil =>
    dsimp only [applyCycle]
    split
    · rename_i toFail fenced
      refine origin_move atPhase rfl rfl rfl (by simp [Phase.batches]) ?_
      intro call isNew found member
      rcases mem_append.mp isNew with failing | fence
      · rcases mem_map.mp failing with ⟨failure, failed, rfl⟩
        rw [mem_singleton.mp member]
        simp only [Phase.batches, CycleVerdicts.batches, mem_append, mem_map]
        exact .inl (.inr ⟨failure, failed, rfl⟩)
      · rw [mem_singleton.mp fence] at member
        simp only [Call.batches, mem_append] at member
        simp only [Phase.batches, CycleVerdicts.batches, fenced, Option.getD_some, mem_append]
        tauto
    · split
      · have same := @bumpIdempotentEpoch_same world choice
        exact origin_move atPhase same.retry same.requests same.calls (by simp [Phase.batches])
          (by simp)
      · exact origin_move atPhase rfl rfl rfl (by simp [Phase.batches]) (by simp)
  | cons result rest =>
    dsimp only
    split
    · exact recordFenced_origin atPhase (by assumption)
    · exact recordLive_origin atPhase

end Completed

variable {cycle : CycleVerdicts}

section

variable {bumped : Bool} (atPhase : world.phase = .settle bumped cycle)

include atPhase

/-- `restart_sequence` parks the batch with its new stamps. -/
theorem restart_origin {old : PreparedBatch} (origin : Origin config world old.restarted)
    (rest : after.batches ⊆ cycle.batches) :
    Origins config world ((world.restart old).goto [] (.settle bumped after)) := by
  refine origin_goto ?_ (origin_request rfl) rfl
    (fun _ member => origin_phase atPhase (rest member)) (by simp)
  intro key found slot
  rw [restart, park, get?_insert] at slot
  split_ifs at slot
  · exact Option.some.inj slot ▸ origin
  · exact origin_slot slot

theorem settleStep_origin :
    Origins config world (world.settleStep bumped cycle) := by
  unfold settleStep
  cases rewrites : cycle.rewrites with
  | cons old rest =>
    have smaller : ({ cycle with rewrites := rest } : CycleVerdicts).batches ⊆ cycle.batches := by
      intro found member
      simp only [CycleVerdicts.batches, rewrites, mem_append, mem_cons] at member ⊢
      tauto
    cases bumped with
    | true => exact restart_origin atPhase (.rewritten cycle old rest atPhase rewrites rfl) smaller
    | false =>
      refine origin_park [old] atPhase rfl rfl rfl ?_ smaller (by simp)
      intro parked member
      refine ⟨parked, ?_, .refl parked⟩
      rw [mem_singleton.mp member]
      simp [Phase.batches, CycleVerdicts.batches, rewrites]
  | nil =>
    cases repairs : cycle.repairs with
    | cons head rest =>
      have same := @repair_same world head
      refine origin_move atPhase same.retry same.requests same.calls ?_ (by simp)
      simp [Phase.batches, CycleVerdicts.batches, rewrites]
    | nil =>
      cases restarts : cycle.restarts with
      | cons old rest =>
        refine restart_origin atPhase
          (.restarted bumped cycle old rest atPhase rewrites repairs restarts rfl) ?_
        intro found member
        simp only [CycleVerdicts.batches, rewrites, restarts, mem_append, mem_cons] at member ⊢
        tauto
      | nil =>
        cases splits : cycle.splits with
        | cons old rest =>
          have same := @splitSequence_same world bumped old
          refine origin_move atPhase same.retry same.requests same.calls ?_ (by simp)
          intro found member
          simp only [Phase.batches, CycleVerdicts.batches, rewrites, restarts, splits,
            mem_append, mem_cons] at member ⊢
          tauto
        | nil =>
          refine origin_move atPhase rfl rfl rfl (by simp [Phase.batches]) ?_
          intro call isNew found member
          rcases mem_map.mp isNew with ⟨failure, failed, rfl⟩
          rw [mem_singleton.mp member]
          exact mem_append_right _ (mem_map_of_mem failed)

end

/-- Calls that name no batch join the pending ones. -/
theorem carries_goto
    (retry : forall key, other.retry.get? key = some batch -> world.retry.get? key = some batch)
    (requests : other.requests = world.requests) (pending : other.calls = world.calls)
    (silent : forall call, call ∈ calls -> call.batches = [])
    (carried : (other.goto calls world.phase).Carries batch) : world.Carries batch := by
  rcases carried with ⟨key, found⟩ | ⟨request, member, same⟩ | member | ⟨call, member, inCall⟩
  · exact .inl ⟨key, retry key found⟩
  · exact .inr (.inl ⟨request, requests ▸ member, same⟩)
  · exact .inr (.inr (.inl member))
  · rcases mem_append.mp member with isNew | old
    · simp [silent call isNew] at inCall
    · exact .inr (.inr (.inr ⟨call, pending ▸ old, inCall⟩))

theorem execCall_carries {call : Call} (carried : (world.execCall choice call).Carries batch) :
    world.Carries batch := by
  have failing : forall {Item : Type} {items : List Item} {fail : Item -> Call} {last : Call},
      (forall item, (fail item).batches = []) -> last.batches = [] ->
        forall call, call ∈ items.map fail ++ [last] -> call.batches = [] := by
    intro Item items fail last silent quiet call isNew
    rcases mem_append.mp isNew with failing | isLast
    · rcases mem_map.mp failing with ⟨item, _, rfl⟩
      exact silent item
    · rw [mem_singleton.mp isLast, quiet]
  cases call with
  | ack | fail | fenceAccumulators =>
    exact carries_goto (fun _ => id) rfl rfl (by simp [Call.batches]) carried
  | terminalFail failed error =>
    have same := @flagFailure_same world failed error
    exact carries_goto (fun _ found => same.retry ▸ found) same.requests same.calls
      (by simp [Call.batches]) carried
  | finish => exact carried
  | fence toFail =>
    exact carries_goto (fun _ => id) rfl rfl (failing (fun _ => rfl) rfl) carried
  | fenceRetry =>
    refine @carries_goto world world.clearRetry batch _ ?_ rfl rfl (failing (fun _ => rfl) rfl) carried
    intro key found
    simp [clearRetry] at found
  | fenceKeys keys =>
    cases keys with
    | nil => exact carried
    | cons key rest =>
      have same : (world.fenceKey choice key).retry = world.retry ∧
          (world.fenceKey choice key).requests = world.requests ∧
            (world.fenceKey choice key).calls = world.calls := by
        unfold fenceKey
        repeat' split
        all_goals exact ⟨rfl, rfl, rfl⟩
      exact carries_goto (fun _ found => same.1 ▸ found) same.2.1 same.2.2
        (by simp [Call.batches]) carried

/-- The batches after a cut of the sender. -/
theorem senderStep_origin (stepped : world.senderStep config choice = some next) :
    Origins config world next := by
  unfold senderStep at stepped
  cases pending : world.calls with
  | cons call rest =>
    rw [pending] at stepped
    cases stepped
    intro batch carried
    refine .kept batch ?_ (.refl batch)
    rcases execCall_carries carried with slot | request | inPhase | ⟨later, member, inCall⟩
    · exact .inl slot
    · exact .inr (.inl request)
    · exact .inr (.inr (.inl inPhase))
    · exact .inr (.inr (.inr ⟨later, pending ▸ .tail call member, inCall⟩))
  | nil =>
    rw [pending] at stepped
    unfold execPhase at stepped
    cases atPhase : world.phase <;>
      simp only [atPhase, Option.some.injEq, reduceCtorEq] at stepped <;> subst stepped
    case failRetrySlots => exact retrySlotStep_origin atPhase
    case collectRetries => exact collectRetries_origin
    case expireRepairs => exact expireStep_origin atPhase
    case barRetries => exact barRetryStep_origin atPhase
    case route => exact routeStep_origin atPhase
    case checkEpoch => exact checkEpochStep_origin atPhase
    case drainKeys => exact drainKeyStep_origin atPhase
    case record => exact recordStep_origin atPhase
    case settle => exact settleStep_origin atPhase
    case requeue bumped cycle old =>
      unfold requeueStep
      split <;> exact origin_move atPhase rfl rfl rfl (subset_cons_self _ _)
        (by simp [Call.batches])
    case snapshotIdentity loop key leader popped baseSequence =>
      exact addBuilt_origin atPhase rfl
        (.builtTransactional loop key leader popped baseSequence atPhase rfl)
    case snapshotState loop key leader popped baseSequence =>
      unfold snapshotStateStep
      split_ifs with inside
      · exact origin_move atPhase rfl rfl rfl (List.Subset.refl _) (by simp)
      · exact addBuilt_origin atPhase rfl (.built loop key leader popped baseSequence atPhase
          (Bool.eq_false_of_not_eq_true inside) rfl)
    case expire expired toSend =>
      have same := @bumpIdempotentEpoch_same world choice
      dsimp only [expireStart]
      split_ifs
      · exact origin_move atPhase same.retry same.requests same.calls (List.Subset.refl _) (by simp)
      · exact origin_move atPhase rfl rfl rfl (List.Subset.refl _) (by simp)
    all_goals
      simp only [scheduleStart, scanStep, afterSchedule, drainStart, sweepStart, sweepKey,
        retrySlotsStart, takeExpiredKey, failUnsentStep, popReadyStep, barPoppedStep, allocateStep]
      repeat' split
      all_goals
        exact origin_move atPhase rfl rfl rfl (by simp [Phase.batches]) (by simp [Call.batches])

end Origins

/-! ## Requests -/

/-- What an act inside `select!` does to one request. -/
inductive Serves (config : Config) (world : World) : Act -> Request -> Request -> Prop where
  | barred {index backoff : Nat} {encodes : Bool} {request : Request} {barrier : Barrier}
      (stopped : world.drainedBarrier request.batch.transactionGeneration = some barrier) :
      Serves config world (.poll index encodes backoff) request
        { request with progress := .done (.barred barrier) }
  | sent {index backoff : Nat} {request : Request} (queued : request.progress = .queued) :
      Serves config world (.poll index true backoff) request { request with progress := .sent }
  | failed {act : Act} {request : Request} {backoff : Nat} :
      Serves config world act request
        { request with
          batch := world.transportFailure backoff request.batch
          progress := .done .retry }
  | answered {index backoff : Nat} {answer : Option PartitionAnswer} {leaderHint : Int}
      {request : Request} (onWire : request.progress = .sent) :
      Serves config world (.answer index answer leaderHint backoff) request
        { request with
          batch := (interpretResponse request.batch answer request.lastAckedOffset world.now
            backoff).batch
          progress := .done (interpretResponse request.batch answer request.lastAckedOffset
            world.now backoff).verdict }
  | accepted {index : Nat} {request : Request} (unanswered : config.acks = .zero) :
      Serves config world (.accept index) request
        { request with progress := .done (.acked INVALID_OFFSET NO_TIMESTAMP) }

theorem Serves.same {config : Config} {world : World} {act : Act} {request changed : Request}
    (serves : Serves config world act request changed) :
    changed.batch.SameStamp request.batch := by
  cases serves with
  | answered onWire => exact .interpretResponse _ _ _ _ _
  | _ => exact ⟨rfl, rfl, rfl, rfl, rfl⟩

section Parties

variable {config : Config} {world next : World} {act : Act}

/-- What the parties other than the sender do to the requests. -/
inductive Exchange (config : Config) (world next : World) (act : Act) : Prop where
  | same (requests : next.requests = world.requests)
      (phase : next.phase = world.phase ∨ next.phase = .schedule)
  | served (index : Nat) (request changed : Request) (waits : world.atSelect = true)
      (found : world.requests[index]? = some request) (serves : Serves config world act request changed)
      (requests : next.requests = world.requests.set index changed)
      (phase : next.phase = world.phase)
  | completed (picks : List Nat) (picked left : List Request)
      (isAct : act = .complete picks) (taken : pick picks world.requests = some (picked, left))
      (requests : next.requests = left)
      (phase : next.phase = .record CycleVerdicts.default (picked.filterMap requestResult))

theorem step_exchange (outside : forall choice, act ≠ .sender choice)
    (stepped : world.step config act = some next) : Exchange config world next act := by
  cases act with
  | sender choice => exact absurd rfl (outside choice)
  | task index choice =>
    rcases advanceTask_cut stepped with ⟨task, result, after, found, cut, rfl⟩
    have same := taskStep_frame cut
    exact .same same.requests (.inl same.phase)
  | complete picks =>
    simp only [step, complete] at stepped
    repeat' split at stepped
    all_goals cases stepped
    rename_i taken _
    exact .completed picks _ _ rfl taken rfl rfl
  | poll index encodes backoff =>
    simp only [step, onRequest, pollRequest] at stepped
    repeat' split at stepped
    all_goals cases stepped
    · rename_i request found ready _ barrier stopped
      exact .served index request _ ready.1 found (.barred stopped) rfl rfl
    · rename_i request found ready _ unbarred encodes
      exact .served index request _ ready.1 found (encodes ▸ .sent ready.2) rfl rfl
    · rename_i request found ready _ unbarred unencoded
      exact .served index request _ ready.1 found .failed rfl rfl
  | answer index answer leaderHint backoff =>
    simp only [step, onRequest] at stepped
    repeat' split at stepped
    all_goals cases stepped
    rename_i request found ready
    refine .served index request _ ready.1 found (.answered ready.2) ?_ ?_ <;>
      · dsimp only [answerRequest]
        split_ifs <;> rfl
  | lose index backoff =>
    simp only [step, onRequest, loseRequest] at stepped
    repeat' split at stepped
    all_goals cases stepped
    rename_i request found ready
    exact .served index request _ ready.1 found .failed rfl rfl
  | accept index =>
    simp only [step, onRequest, acceptRequest] at stepped
    repeat' split at stepped
    all_goals cases stepped
    rename_i unanswered _ request found ready
    exact .served index request _ ready.1 found (.accepted unanswered) rfl rfl
  | _ =>
    simp only [step, openAccumulator, sealFull, append, registerFails] at stepped
    repeat' split at stepped
    all_goals cases stepped
    all_goals first
      | exact .same rfl (.inl rfl)
      | exact .same rfl (.inr rfl)

/-- The batches after any step. -/
theorem step_origin (stepped : world.step config act = some next) : Origins config world next := by
  rcases act.sender_or_outside with ⟨choice, rfl⟩ | outside
  · exact senderStep_origin stepped
  intro batch carried
  have apart := step_outside outside stepped
  have requested : forall request, request ∈ world.requests ->
      batch.SameStamp request.batch -> Origin config world batch :=
    fun request member same => .kept request.batch (.inr (.inl ⟨request, member, rfl⟩)) same
  have exchange := step_exchange outside stepped
  rcases carried with ⟨key, found⟩ | ⟨request, member, rfl⟩ | inPhase | ⟨call, member, inCall⟩
  · exact origin_slot (apart.retry ▸ found)
  · cases exchange with
    | same requests => exact requested request (requests ▸ member) (.refl _)
    | served index old changed waits found serves requests =>
      rw [requests] at member
      rcases mem_or_eq_of_mem_set member with kept | isNew
      · exact requested request kept (.refl _)
      · exact requested old (mem_of_getElem? found) (isNew ▸ serves.same)
    | completed picks picked left isAct taken requests =>
      refine requested request ?_ (.refl _)
      exact (pick_perm taken).mem_iff.mpr (mem_append_right _ (requests ▸ member))
  · cases exchange with
    | same requests phase =>
      rcases phase with kept | woken
      · exact origin_phase rfl (kept ▸ inPhase)
      · simp [woken, Phase.batches] at inPhase
    | served index old changed waits found serves requests phase =>
      exact origin_phase rfl (phase ▸ inPhase)
    | completed picks picked left isAct taken requests phase =>
      simp only [phase, Phase.batches, CycleVerdicts.batches, CycleVerdicts.default,
        Option.getD_none, map_nil, append_nil, nil_append, mem_map,
        mem_filterMap] at inPhase
      rcases inPhase with ⟨result, ⟨request, inPicked, done⟩, rfl⟩
      refine requested request ?_ ?_
      · exact (pick_perm taken).mem_iff.mpr (mem_append_left _ inPicked)
      · unfold requestResult at done
        split at done
        · exact Option.some.inj done ▸ .refl _
        · cases done
  · exact origin_call (apart.calls ▸ member) inCall

end Parties

end World

end Producer
end Krabka
