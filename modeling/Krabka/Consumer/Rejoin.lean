import Krabka.Consumer.SharedState
import Krabka.Fallible
import Krabka.Transition

namespace Krabka
namespace Consumer

open Collections List Transition Fallible

/-!
# Rebalances of the group protocol

`rejoin_group` of `coordinator.rs`, with what it calls.  The answers of the
brokers and of the rebalance listener are its argument, and so is the
subscription, which the application can change at any time.

The positions of `next_offsets` are meant to be those of assigned partitions.
An eager rebalance prunes them by the new assignment.  A cooperative rebalance
prunes only the partitions that its first round revokes, so a partition that
the assignment loses in another way keeps its position.
-/

inductive RebalanceProtocol where
  | eager
  | cooperative
deriving DecidableEq, Repr

/-- What the coordinator task reads of its configuration. -/
structure Config where
  rebalanceProtocol : RebalanceProtocol
  autoOffsetReset : AutoOffsetReset

/-- `CoordinatorState`. -/
structure Member where
  memberId : String
  generationId : Int
  joinPrepared : Bool
  lostPartitions : List TopicPartition
  shared : SharedState

namespace Member

def publishAssignment (member : Member) (assignment : List TopicPartition)
    (preserveRetained : Bool) (generationId : Int) : Member :=
  { member with
    shared := member.shared.installAssignment assignment preserveRetained
    generationId := generationId }

def installGeneration (member : Member) (generationId : Int) : Member :=
  { member with generationId := generationId }

def rememberLostPartitions (member : Member) : Member :=
  { member with
    lostPartitions := member.lostPartitions ++ member.shared.assigned.filter
      (fun partition => !member.lostPartitions.contains partition) }

/-- `forget_member`, and as far as this state goes `fence_member` and
`leave_on_poll_timeout`. -/
def forgetMember (member : Member) : Member :=
  { member.rememberLostPartitions with memberId := "" }.publishAssignment [] false (-1)

/-- The part of `handle_subscription_change` for an `unsubscribe`. -/
def handleUnsubscribe (member : Member) : Member :=
  { member with memberId := "", lostPartitions := [] }.publishAssignment [] false (-1)

def changeConsumed (member : Member) (change : Consumed -> Consumed) : Member :=
  { member with shared := { member.shared with consumed := change member.shared.consumed } }

/-- `unsubscribe` of the application. -/
def unsubscribe (member : Member) : Member :=
  { member with shared := member.shared.clearAssignment.clearConsumed }

end Member

/-! ## Answers -/

/-- How a wait with heartbeats ends: for the commit before a join and for a
listener callback. -/
inductive Wait where
  | done
  /-- The callback timed out, or a heartbeat found the member fenced. -/
  | failed
  /-- A heartbeat was answered `UNKNOWN_MEMBER_ID`. -/
  | memberUnknown
deriving DecidableEq, Repr

/-- A completed `SyncGroup`. -/
structure Synced where
  assignment : List TopicPartition
  generationId : Int
deriving DecidableEq, Repr

structure JoinAnswers where
  commit : Wait
  /-- The subscribed topics when the join is prepared. -/
  subscription : List String
  /-- The callback for lost or revoked partitions. -/
  callback : Wait
  /-- The member id of the join responses. -/
  memberId : String
  /-- `none` when the join or the sync fails. -/
  sync : Option Synced
deriving DecidableEq, Repr

structure RejoinAnswers where
  join : JoinAnswers
  /-- The `OffsetFetch` response, or `none` when the request fails. -/
  offsets : Option (List CommittedOffset)
  revoked : Wait
  assigned : Wait
  /-- The second round of a cooperative rebalance that revokes. -/
  joinAgain : JoinAnswers
  offsetsAgain : Option (List CommittedOffset)
  revokedAgain : Wait
  assignedAgain : Wait
deriving DecidableEq, Repr

/-! ## The rebalance -/

def waitWithHeartbeats : Wait -> Fallible Member Unit
  | .done => pure ()
  | .failed => failure
  | .memberUnknown => modify Member.forgetMember

def commitBeforeJoin (wait : Wait) : Fallible Member Unit := waitWithHeartbeats wait

def callListener (wait : Wait) : Fallible Member Unit := waitWithHeartbeats wait

def joinPrepare (config : Config) (answers : JoinAnswers) : Fallible Member Unit := do
  if (<- get).joinPrepared then return
  commitBeforeJoin answers.commit
  modify (fun member => { member with joinPrepared := true })
  let member <- get
  if member.memberId = "" ∨ member.generationId < 0 then
    modify (fun member => { member with lostPartitions := [] })
    if member.lostPartitions ≠ [] then callListener answers.callback
  else
    match config.rebalanceProtocol with
    | .eager => callListener answers.callback
    | .cooperative =>
      let (kept, revoked) := member.shared.assigned.partition
        (fun partition => answers.subscription.contains partition.topic)
      if revoked ≠ [] then
        callListener answers.callback
        modify (fun member => member.publishAssignment kept true member.generationId)

structure JoinOutcome where
  owned : List TopicPartition
  assignment : List TopicPartition
  generationId : Int

def joinAndSync (config : Config) (answers : JoinAnswers) : Fallible Member JoinOutcome := do
  joinPrepare config answers
  let owned := (<- get).shared.assigned
  modify (fun member =>
    { member with memberId := if answers.memberId = "" then member.memberId else answers.memberId })
  match answers.sync with
  | none => failure
  | some sync =>
    modify (fun member => { member with joinPrepared := false })
    return ⟨owned, sync.assignment, sync.generationId⟩

def primeOffsets (config : Config) (partitions : List TopicPartition)
    (response : Option (List CommittedOffset)) : Fallible Member Unit := do
  if partitions = [] then return
  match response with
  | none => failure
  | some response =>
    modify (fun member => member.changeConsumed
      (fun consumed => consumed.setAll
        (primeSettings config.autoOffsetReset partitions response)))

def difference (left right : List TopicPartition) : List TopicPartition :=
  left.filter (fun partition => !right.contains partition)

def publishCooperativeAdditions (config : Config) (assignment added : List TopicPartition)
    (generationId : Int) (offsets : Option (List CommittedOffset)) (assigned : Wait) :
    Fallible Member Unit := do
  primeOffsets config added offsets
  modify (fun member => member.publishAssignment assignment true generationId)
  callListener assigned

/-- Phase 2: the second round, with the partitions that the first one left. -/
def rejoinReduced (config : Config) (answers : RejoinAnswers) : Fallible Member Unit := do
  let outcome <- joinAndSync config answers.joinAgain
  let added := difference outcome.assignment outcome.owned
  let revoked := difference outcome.owned outcome.assignment
  if revoked ≠ [] then
    modify (fun member => member.installGeneration outcome.generationId)
    callListener answers.revokedAgain
  publishCooperativeAdditions config outcome.assignment added outcome.generationId
    answers.offsetsAgain answers.assignedAgain

def rejoinGroup (config : Config) (answers : RejoinAnswers) : Fallible Member Unit := do
  let outcome <- joinAndSync config answers.join
  let revoked := difference outcome.owned outcome.assignment
  let added := difference outcome.assignment outcome.owned
  match config.rebalanceProtocol with
  | .eager =>
    primeOffsets config added answers.offsets
    modify (fun member => member.publishAssignment outcome.assignment false outcome.generationId)
    modify (fun member => member.changeConsumed
      (fun consumed => consumed.retain outcome.assignment.contains))
    callListener answers.assigned
  | .cooperative =>
    if revoked = [] then
      publishCooperativeAdditions config outcome.assignment added outcome.generationId
        answers.offsets answers.assigned
    else
      modify (fun member => member.installGeneration outcome.generationId)
      callListener answers.revoked
      publishCooperativeAdditions config outcome.assignment added outcome.generationId
        answers.offsets answers.assigned
      modify (fun member => member.changeConsumed
        (fun consumed => consumed.retain (fun partition => !revoked.contains partition)))
      rejoinReduced config answers

/-! ## What a rebalance keeps -/

variable {assignment right left held : List TopicPartition}

section Keeps

variable {config : Config} {member : Member}

/-- Every partition with a position is assigned. -/
def Member.Covered (member : Member) : Prop :=
  forall key, member.shared.consumed.offsets.contains key = true ->
    key ∈ member.shared.assigned

theorem waitWithHeartbeats_keeps (keeps : Member -> Prop) {wait : Wait}
    (known : wait ≠ .memberUnknown) (holds : keeps member) :
    Ensures (waitWithHeartbeats wait) (fun _ => keeps) keeps member := by
  cases wait with
  | done | failed => exact holds
  | memberUnknown => exact absurd rfl known

/-- The heartbeats during the join found the member known. -/
structure JoinAnswers.Known (answers : JoinAnswers) : Prop where
  commit : answers.commit ≠ .memberUnknown
  callback : answers.callback ≠ .memberUnknown

section

variable {answers : JoinAnswers} {shared : SharedState} (known : answers.Known)
  (isCooperative : config.rebalanceProtocol = .cooperative)
  (subscribed : forall key, key ∈ shared.assigned -> key.topic ∈ answers.subscription)
  (same : member.shared = shared)

include known isCooperative subscribed same

theorem joinPrepare_keeps :
    Ensures (joinPrepare config answers) (fun _ next => next.shared = shared)
      (fun next => next.shared = shared) member := by
  simp only [joinPrepare, ensures_bind, ensures_get]
  split_ifs with prepared
  · exact same
  · rw [ensures_bind]
    refine (waitWithHeartbeats_keeps (fun next => next.shared = shared) known.commit same).mono
      (fun _ next same => ?_) fun _ => id
    simp only [ensures_bind, ensures_modify, ensures_get, partition_eq_filter_filter, isCooperative]
    split_ifs with noGeneration lost revoked
    · exact waitWithHeartbeats_keeps (fun next => next.shared = shared) known.callback same
    · exact same
    · refine absurd (filter_eq_nil_iff.mpr fun key isAssigned => ?_) revoked
      simpa using subscribed key (same ▸ isAssigned)
    · exact same

theorem joinAndSync_keeps :
    Ensures (joinAndSync config answers)
      (fun outcome next => next.shared = shared ∧ outcome.owned = shared.assigned ∧
        Exists fun sync => sync ∈ answers.sync ∧ outcome.assignment = sync.assignment)
      (fun next => next.shared = shared) member := by
  rw [joinAndSync, ensures_bind]
  refine (joinPrepare_keeps known isCooperative subscribed same).mono (fun _ next same => ?_)
    fun _ => id
  cases synced : answers.sync with
  | none => exact same
  | some sync => exact ⟨same, by rw [same], sync, rfl, rfl⟩

end

def Member.Published (member : Member) (held assignment : List TopicPartition) : Prop :=
  member.shared.assigned = assignment ∧
    forall key, member.shared.consumed.offsets.contains key = true ->
      key ∈ held ∨ key ∈ assignment

theorem publishCooperativeAdditions_publishes {owned : List TopicPartition} {generationId : Int}
    {offsets : Option (List CommittedOffset)} {assigned : Wait} (known : assigned ≠ .memberUnknown)
    (asked : forall response, response ∈ offsets -> forall committed, committed ∈ response ->
      committed.key ∈ assignment)
    (holds : forall key, member.shared.consumed.offsets.contains key = true -> key ∈ held) :
    Ensures (publishCooperativeAdditions config assignment
        (difference assignment owned) generationId offsets assigned)
      (fun _ next => next.Published held assignment)
      (fun next => next.shared = member.shared ∨
        assigned = .failed ∧ next.Published held assignment) member := by
  have listener {next : Member} (published : next.Published held assignment) :
      Ensures (callListener assigned) (fun _ next => next.Published held assignment)
        (fun next => next.shared = member.shared ∨
          assigned = .failed ∧ next.Published held assignment) next := by
    cases assigned with
    | done => exact published
    | failed => exact .inr ⟨rfl, published⟩
    | memberUnknown => exact absurd rfl known
  simp only [publishCooperativeAdditions, primeOffsets, ensures_bind]
  split_ifs with nothing
  · exact listener ⟨rfl, fun key isKey => .inl (holds key isKey)⟩
  · cases offsets with
    | none => exact .inl rfl
    | some response =>
      refine listener ⟨rfl, fun key isKey => ?_⟩
      rcases contains_setAll.mp isKey with isSet | isOld
      · rcases mem_primeSettings.mp isSet with answered | added
        · rcases mem_map.mp answered with ⟨committed, isCommitted, rfl⟩
          exact .inr (asked response rfl committed isCommitted)
        · exact .inr (mem_filter.mp added).1
      · exact .inl (holds key isOld)

/-- An eager rebalance that completes leaves positions of assigned partitions
only, whatever was there before. -/
theorem rejoinGroup_eager {answers : RejoinAnswers} (isEager : config.rebalanceProtocol = .eager)
    (known : answers.assigned ≠ .memberUnknown) :
    Ensures (rejoinGroup config answers) (fun _ next => next.Covered) (fun _ => True) member := by
  rw [rejoinGroup, ensures_bind]
  have anything {Result : Type} (program : Fallible Member Result) (member : Member) :
      Ensures program (fun _ _ => True) (fun _ => True) member := by
    unfold Ensures
    split <;> trivial
  refine (anything _ _).mono (fun outcome next _ => ?_) fun _ _ => trivial
  simp only [isEager, ensures_bind]
  refine (anything _ _).mono (fun _ next _ => ?_) fun _ _ => trivial
  refine (waitWithHeartbeats_keeps Member.Covered known fun key isKey => ?_).mono
    (fun _ _ => id) fun _ _ => trivial
  exact contains_iff_mem.mp (contains_retain.mp isKey).1

/-- The answers under which a cooperative rebalance gives up partitions in its
first round only, and completes that round. -/
structure RejoinAnswers.Orderly (member : Member) (answers : RejoinAnswers) : Prop where
  join : answers.join.Known
  revoked : answers.revoked ≠ .memberUnknown
  assigned : answers.assigned ≠ .memberUnknown
  joinAgain : answers.joinAgain.Known
  revokedAgain : answers.revokedAgain ≠ .memberUnknown
  assignedAgain : answers.assignedAgain ≠ .memberUnknown
  subscribed : forall key, key ∈ member.shared.assigned -> key.topic ∈ answers.join.subscription
  subscribedAgain : forall sync, sync ∈ answers.join.sync -> forall key, key ∈ sync.assignment ->
    key.topic ∈ answers.joinAgain.subscription
  /-- The coordinator answers for partitions that it was asked for. -/
  offsets : forall sync, sync ∈ answers.join.sync -> forall response, response ∈ answers.offsets ->
    forall committed, committed ∈ response -> committed.key ∈ sync.assignment
  offsetsAgain : forall sync, sync ∈ answers.joinAgain.sync -> forall response,
    response ∈ answers.offsetsAgain -> forall committed, committed ∈ response ->
      committed.key ∈ sync.assignment
  /-- When the first round revokes, the assign callback runs. -/
  callback : forall sync, sync ∈ answers.join.sync ->
    difference member.shared.assigned sync.assignment ≠ [] -> answers.assigned ≠ .failed
  /-- The second round takes nothing away. -/
  kept : forall sync, sync ∈ answers.join.sync -> forall again, again ∈ answers.joinAgain.sync ->
    forall key, key ∈ sync.assignment -> key ∈ again.assignment

theorem Member.Covered.of_shared {next : Member} (covered : member.Covered)
    (same : next.shared = member.shared) : next.Covered := by
  unfold Member.Covered
  rw [same]
  exact covered

theorem Member.Published.covered (published : member.Published held assignment)
    (within : forall key, key ∈ held -> key ∈ assignment) : member.Covered := by
  intro key isKey
  rw [published.1]
  rcases published.2 key isKey with isHeld | isAssigned
  · exact within key isHeld
  · exact isAssigned

section

variable {answers : RejoinAnswers} (isCooperative : config.rebalanceProtocol = .cooperative)
  (orderly : answers.Orderly member)

include isCooperative orderly

/-- The second round, after the first one assigned `sync`. -/
theorem rejoinReduced_covered {next : Member} {sync : Synced} (synced : sync ∈ answers.join.sync)
    (isAssigned : next.shared.assigned = sync.assignment) (covered : next.Covered) :
    Ensures (rejoinReduced config answers) (fun _ next => next.Covered) Member.Covered
      next := by
  rw [rejoinReduced, ensures_bind]
  have subscribed := orderly.subscribedAgain sync synced
  rw [<- isAssigned] at subscribed
  refine (joinAndSync_keeps orderly.joinAgain isCooperative subscribed rfl).mono
    (fun outcome joined isJoined => ?_) fun _ same => covered.of_shared same
  rcases isJoined with ⟨same, isOwned, again, syncedAgain, isAssignment⟩
  have kept : forall key, key ∈ outcome.owned -> key ∈ outcome.assignment := by
    rw [isOwned, isAssigned, isAssignment]
    exact orderly.kept sync synced again syncedAgain
  have nothingRevoked : difference outcome.owned outcome.assignment = [] := by
    refine filter_eq_nil_iff.mpr fun key isKey => ?_
    simpa using kept key isKey
  simp only [nothingRevoked, ne_eq, not_true_eq_false, if_false]
  have joinedCovered := covered.of_shared same
  refine (publishCooperativeAdditions_publishes orderly.assignedAgain
    (isAssignment ▸ orderly.offsetsAgain again syncedAgain) joinedCovered).mono ?_ ?_
  · intro _ last published
    rw [same, <- isOwned] at published
    exact published.covered kept
  · rintro last (unchanged | ⟨_, published⟩)
    · exact joinedCovered.of_shared unchanged
    · rw [same, <- isOwned] at published
      exact published.covered kept

theorem rejoinGroup_cooperative (covered : member.Covered) :
    Ensures (rejoinGroup config answers) (fun _ next => next.Covered) Member.Covered member := by
  rw [rejoinGroup, ensures_bind]
  refine (joinAndSync_keeps orderly.join isCooperative orderly.subscribed rfl).mono
    (fun outcome joined isJoined => ?_) fun _ same => covered.of_shared same
  rcases isJoined with ⟨same, isOwned, sync, synced, isAssignment⟩
  have joinedCovered := covered.of_shared same
  have asked := orderly.offsets sync synced
  rw [<- isAssignment] at asked
  simp only [isCooperative]
  split_ifs with nothingRevoked
  · have kept (key : TopicPartition) (isKey : key ∈ joined.shared.assigned) :
        key ∈ outcome.assignment := by
      rw [same, <- isOwned] at isKey
      simpa using filter_eq_nil_iff.mp nothingRevoked key isKey
    refine (publishCooperativeAdditions_publishes orderly.assigned asked joinedCovered).mono ?_ ?_
    · exact fun _ last published => published.covered kept
    · rintro last (unchanged | ⟨_, published⟩)
      · exact joinedCovered.of_shared unchanged
      · exact published.covered kept
  · have ran := orderly.callback sync synced (by rwa [isOwned, isAssignment] at nothingRevoked)
    simp only [ensures_bind, ensures_modify]
    have installed : (joined.installGeneration outcome.generationId).shared = member.shared := same
    refine (waitWithHeartbeats_keeps (fun next => next.shared = member.shared) orderly.revoked
      installed).mono (fun _ revoking same => ?_) fun _ same => covered.of_shared same
    have revokingCovered := covered.of_shared same
    rw [ensures_bind]
    refine (publishCooperativeAdditions_publishes orderly.assigned asked revokingCovered).mono ?_ ?_
    · intro _ published isPublished
      refine rejoinReduced_covered isCooperative orderly synced ?_ ?_
      · exact isPublished.1.trans isAssignment
      · -- The positions of what was owned and is no longer assigned are pruned.
        intro key isKey
        rcases contains_retain.mp isKey with ⟨isKept, isOld⟩
        refine isPublished.1.symm ▸ (isPublished.2 key isOld).elim (fun isHeld => ?_) id
        rw [same, <- isOwned] at isHeld
        by_contra notAssigned
        simp [difference, isHeld, notAssigned] at isKept
    · rintro last (unchanged | ⟨failed, _⟩)
      · exact revokingCovered.of_shared unchanged
      · exact absurd failed ran

end

end Keeps

/-! ## Sequences of rebalances -/

namespace Rejoin

structure World where
  member : Member
  /-- The last rebalance or unsubscribe completed, and nothing was lost since. -/
  completed : Bool

inductive Act where
  | rejoin (answers : RejoinAnswers)
  /-- The coordinator does not know the member, has fenced it, or it left after
  the poll timeout. -/
  | lose
  | unsubscribe
  /-- The coordinator task handles the `unsubscribe`. -/
  | handleUnsubscribe
deriving DecidableEq, Repr

def World.step (config : Config) (world : World) : Act -> Option World
  | .rejoin answers =>
    let ended := (rejoinGroup config answers).run world.member
    some ⟨ended.2, ended.1.isSome⟩
  | .lose => some ⟨world.member.forgetMember, false⟩
  | .unsubscribe => some ⟨world.member.unsubscribe, true⟩
  | .handleUnsubscribe => some ⟨world.member.handleUnsubscribe, false⟩

/-- The consumer after its first join. -/
def World.start (config : Config) (memberId : String) (generationId : Int)
    (assigned : List TopicPartition) (response : List CommittedOffset) : World where
  member := ⟨memberId, generationId, false, [],
    SharedState.start config.autoOffsetReset assigned response⟩
  completed := true

/-- An eager rebalance is not undone by its own callback.  A cooperative member
gives up partitions in the first round of a rebalance only. -/
def Allowed (config : Config) (world : World) : Act -> Prop
  | .rejoin answers =>
    match config.rebalanceProtocol with
    | .eager => answers.assigned ≠ .memberUnknown
    | .cooperative => answers.Orderly world.member
  | .lose | .handleUnsubscribe =>
    config.rebalanceProtocol = .eager ∨ world.member.shared.consumed.offsets = .empty
  | .unsubscribe => True

/-- A cooperative member always has positions of assigned partitions only, an
eager one after a completed rebalance. -/
def Settled (config : Config) (world : World) : Prop :=
  config.rebalanceProtocol = .cooperative ∨ world.completed = true -> world.member.Covered

variable {config : Config} {world next : World}

/-- A member that gives up everything has no position left, or is eager and not
settled. -/
theorem settled_of_given_up (isWorld : next.completed = false)
    (same : next.member.shared.consumed.offsets = world.member.shared.consumed.offsets)
    (isAllowed : config.rebalanceProtocol = .eager ∨
      world.member.shared.consumed.offsets = .empty) : Settled config next := by
  rintro (isCooperative | completed)
  · intro key isKey
    rcases isAllowed with isEager | noOffsets
    · rw [isEager] at isCooperative
      cases isCooperative
    · rw [same, noOffsets] at isKey
      cases isKey
  · rw [isWorld] at completed
    cases completed

theorem World.step_settled (act : Act) (settled : Settled config world)
    (isAllowed : Allowed config world act) (stepped : world.step config act = some next) :
    Settled config next := by
  cases act with
  | rejoin answers =>
    cases stepped
    simp only [Allowed] at isAllowed
    cases isProtocol : config.rebalanceProtocol with
    | eager =>
      rw [isProtocol] at isAllowed
      rintro (isCooperative | completed)
      · rw [isProtocol] at isCooperative
        cases isCooperative
      · exact (rejoinGroup_eager isProtocol isAllowed).returned completed
    | cooperative =>
      rw [isProtocol] at isAllowed
      have covered := settled (.inl isProtocol)
      exact fun _ => (rejoinGroup_cooperative isProtocol isAllowed covered).always
  | lose | handleUnsubscribe => cases stepped; exact settled_of_given_up rfl rfl isAllowed
  | unsubscribe => cases stepped; exact fun _ key isKey => nomatch isKey

theorem start_settled {memberId : String} {generationId : Int} {assigned : List TopicPartition}
    {response : List CommittedOffset}
    (asked : forall committed, committed ∈ response -> committed.key ∈ assigned) :
    Settled config (World.start config memberId generationId assigned response) := by
  intro _ key isKey
  rcases contains_setAll.mp isKey with isSet | isOld
  · rcases mem_primeSettings.mp isSet with answered | none
    · rcases mem_map.mp answered with ⟨committed, isCommitted, rfl⟩
      exact asked committed isCommitted
    · cases none
  · cases isOld

/-- After every completed rebalance the partitions with a position are assigned:
in runs in which eager rebalances are not undone by their own callback and a
cooperative member gives up partitions in the first round of a rebalance only. -/
theorem World.run_positions_assigned (config : Config) (memberId : String) (generationId : Int)
    (assigned : List TopicPartition) (response : List CommittedOffset)
    (asked : forall committed, committed ∈ response -> committed.key ∈ assigned)
    {acts : List Act} {last : World}
    (along : Transition.Along (World.step config) (Allowed config)
      (World.start config memberId generationId assigned response) acts)
    (ran : Transition.run (World.step config)
      (World.start config memberId generationId assigned response) acts = some last)
    (completed : last.completed = true) :
    (forall key, key ∈ last.member.shared.consumed.offsets.keys ->
      key ∈ last.member.shared.assigned) ∧
    (forall key, key ∈ last.member.shared.consumed.partitionsWithoutOffset ->
      key ∈ last.member.shared.assigned) ∧
    forall skipped key offset, (key, offset) ∈ last.member.shared.groupFetches skipped ->
      key ∈ last.member.shared.assigned := by
  have settled : Settled config last := run_invariant (Settled config)
      (fun _ act _ => World.step_settled act)
      (start_settled asked) along ran
  have covered := settled (.inr completed)
  refine ⟨fun key isKey => ?_, fun key isKey => ?_, fun skipped key offset isFetch => ?_⟩
  · exact covered key ((SortedMap.mem_keys_iff _ _).mp isKey)
  · have isFiltered := (SortedMap.mem_keys_iff _ _).mp isKey
    rw [SortedMap.contains, SortedMap.get?_filter, Option.isSome_filter] at isFiltered
    refine covered key ?_
    cases found : last.member.shared.consumed.offsets.get? key with
    | none => simp [found] at isFiltered
    | some offset => rw [SortedMap.contains, found]; rfl
  · rcases mem_filterMap.mp isFetch with ⟨partition, isAssigned, fetched⟩
    have same : partition = key := by
      dsimp only at fetched
      split_ifs at fetched
      exact congrArg Prod.fst (Option.some.inj fetched)
    exact same ▸ isAssigned

private def orders (partition : Int) : TopicPartition := ⟨"orders", partition⟩

private def joined (assignment : List TopicPartition) (generationId : Int) : JoinAnswers :=
  ⟨.done, ["orders"], .done, "member", some ⟨assignment, generationId⟩⟩

/-- A cooperative rebalance that revokes `orders-1` and places `orders-2`. -/
private def revokingRejoin : RejoinAnswers :=
  ⟨joined [orders 0] 2, some [], .done, .done, joined [orders 0, orders 2] 3,
    some [⟨orders 2, 7, 1⟩], .done, .done⟩

theorem run_positions_assigned_both_rounds :
    let config : Config := ⟨.cooperative, .none⟩
    let start := World.start config "member" 1 [orders 0, orders 1]
      [⟨orders 0, 5, 1⟩, ⟨orders 1, -1, -1⟩]
    Exists fun last =>
      run (World.step config) start [.rejoin revokingRejoin] = some last ∧
      last.completed = true ∧ last.member.shared.assigned = [orders 0, orders 2] ∧
      last.member.shared.consumed.offsets.keys = [orders 0, orders 2] ∧
      forall key, key ∈ last.member.shared.consumed.offsets.keys ->
        key ∈ last.member.shared.assigned := by
  intro config start
  have ran : run (World.step config) start [.rejoin revokingRejoin] = some _ := rfl
  have along : Along (World.step config) (Allowed config) start [.rejoin revokingRejoin] := by
    refine ⟨⟨⟨by decide, by decide⟩, by decide, by decide, ⟨by decide, by decide⟩, by decide,
      by decide, by decide, by decide, by decide, by decide, by decide, by decide⟩, trivial⟩
  exact ⟨_, ran, rfl, by decide, by decide,
    (World.run_positions_assigned config "member" 1 _ _ (by decide) along ran rfl).1⟩

/-- A member that gives up the topic `audit` keeps the position of its partition,
and `poll` fails for it. -/
theorem rejoin_keeps_position_of_left_topic :
    let config : Config := ⟨.cooperative, .none⟩
    let audit : TopicPartition := ⟨"audit", 0⟩
    let start := World.start config "member" 1 [audit, orders 0] [⟨audit, -1, -1⟩, ⟨orders 0, 5, 1⟩]
    let answers : RejoinAnswers :=
      ⟨joined [orders 0] 2, some [], .done, .done, joined [orders 0] 3, some [], .done, .done⟩
    Exists fun last =>
      run (World.step config) start [.rejoin answers] = some last ∧
      last.completed = true ∧ last.member.shared.assigned = [orders 0] ∧
      last.member.shared.consumed.offsets.keys = [audit, orders 0] ∧
      last.member.shared.consumed.partitionsWithoutOffset = [audit] := by
  intro config audit start answers
  have ran : run (World.step config) start [.rejoin answers] = some _ := rfl
  exact ⟨_, ran, rfl, by decide, by decide, by decide⟩

end Rejoin

end Consumer
end Krabka
