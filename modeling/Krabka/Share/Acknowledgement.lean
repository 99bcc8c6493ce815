import Krabka.Share.Model
import Krabka.Transition
import Mathlib.Data.List.Dedup
import Mathlib.Data.List.Perm.Subperm

namespace Krabka
namespace Share

open Collections List Buckets

/-!
# No acknowledgement is lost

Every staged acknowledgement, and in implicit mode every delivered range, is
either carried by one request that the broker answered without a top-level error,
or still staged, or was given up by a call that returned an error.  The world
keeps these as multisets, next to the consumer.

A poll attaches the drained acknowledgements to the partitions of the assignment
it read.  The ones of other partitions are dropped.
-/

/-- An acknowledgement with its partition. -/
abbrev Entry := (WireUuid ×ₗ Int) × AcknowledgementBatch

def PendingAck.key (ack : PendingAck) : WireUuid ×ₗ Int := partitionKey ack.topicId ack.partition

def PendingAck.entry (ack : PendingAck) : Entry := (ack.key, batchOf ack.first ack.last ack.ack)

def Assigned.key (assigned : Assigned) : WireUuid ×ₗ Int :=
  partitionKey assigned.topicId assigned.partition

/-! ## The acknowledgements in a request -/

def requestRows (topics : List RequestTopic) :
    List ((WireUuid ×ₗ Int) × List AcknowledgementBatch) :=
  topics.flatMap fun topic => topic.partitions.map fun partition =>
    (partitionKey topic.topicId partition.partitionIndex, partition.acknowledgementBatches)

def acknowledgedIn (topics : List RequestTopic) : List Entry :=
  (requestRows topics).dedup.flatMap fun row => row.2.map (Prod.mk row.1)

theorem pairs_pushAcks (acks : List PendingAck) :
    (pushAcks acks).pairs.Perm (acks.map PendingAck.entry) := by
  have pushed := pairs_foldl_push acks PendingAck.key
    (fun ack => batchOf ack.first ack.last ack.ack) SortedMap.empty
  rw [pairs_empty, append_nil] at pushed
  exact pushed

theorem requestRows_fetch (assignment : List Assigned) (acks : Acks) :
    (requestRows (buildShareFetchTopics assignment acks)).Perm
      (assignment.map fun assigned => (assigned.key, acks.bucket assigned.key)) := by
  have pushed := pairs_foldl_push assignment Assigned.topicId
    (fun assigned => (⟨assigned.partition, acks.bucket assigned.key⟩ : RequestPartition))
    SortedMap.empty
  rw [pairs_empty, append_nil] at pushed
  have rows := pushed.map fun pair : WireUuid × RequestPartition =>
    (partitionKey pair.1 pair.2.partitionIndex, pair.2.acknowledgementBatches)
  rw [map_map, pairs, map_flatMap] at rows
  simp only [map_map] at rows
  rw [requestRows, buildShareFetchTopics, flatMap_map]
  exact rows

/-- A fetch carries all acknowledgements of assigned partitions. -/
theorem acknowledgedIn_fetch {assignment : List Assigned} {acks : List PendingAck}
    (assigned : forall ack, ack ∈ acks -> ack.key ∈ assignment.map Assigned.key) :
    (acknowledgedIn (buildShareFetchTopics assignment (pushAcks acks))).Perm
      (acks.map PendingAck.entry) := by
  have rows := (requestRows_fetch assignment (pushAcks acks)).dedup
  have keyed : (assignment.map fun assigned =>
      (assigned.key, (pushAcks acks).bucket assigned.key)).dedup =
      ((assignment.map Assigned.key).dedup).map fun key => (key, (pushAcks acks).bucket key) := by
    rw [<- dedup_map_of_injective (fun left right same => congrArg Prod.fst same), map_map]
    rfl
  rw [keyed] at rows
  refine (rows.flatMap_right _).trans ?_
  rw [flatMap_map]
  refine (flatMap_bucket_perm (nodup_dedup _) fun key isKey => ?_).trans (pairs_pushAcks acks)
  rcases mem_keys_foldl_push isKey with isAck | isNone
  · rcases mem_map.mp isAck with ⟨ack, isMember, rfl⟩
    exact mem_dedup.mpr (assigned ack isMember)
  · cases isNone

def nestedEntries (byTopic : SortedMap WireUuid (Buckets Int AcknowledgementBatch)) :
    List Entry :=
  byTopic.entries.flatMap fun topic => topic.2.pairs.map fun pair =>
    (partitionKey topic.1 pair.1, pair.2)

section

variable (acks : List PendingAck)

include acks

theorem nestedEntries_groupAcks :
    (nestedEntries (groupAcks acks)).Perm (acks.map PendingAck.entry) := by
  have fold (byTopic : SortedMap WireUuid (Buckets Int AcknowledgementBatch)) :
      (nestedEntries (acks.foldl (fun byTopic ack =>
        byTopic.insert ack.topicId (((byTopic.get? ack.topicId).getD SortedMap.empty :
            Buckets Int AcknowledgementBatch).push ack.partition
              (batchOf ack.first ack.last ack.ack))) byTopic)).Perm
        (acks.map PendingAck.entry ++ nestedEntries byTopic) := by
    induction acks generalizing byTopic with
    | nil => rfl
    | cons ack rest ih =>
      refine (ih _).trans ?_
      refine (List.Perm.append_left _ ?_).trans perm_middle
      have traded := byTopic.flatMap_entries_insert ack.topicId
        (((byTopic.get? ack.topicId).getD SortedMap.empty :
          Buckets Int AcknowledgementBatch).push ack.partition (batchOf ack.first ack.last ack.ack))
        fun topicId parts => parts.pairs.map fun pair => (partitionKey topicId pair.1, pair.2)
      have old : ((byTopic.get? ack.topicId).map fun parts : Buckets Int AcknowledgementBatch =>
          parts.pairs.map fun pair => (partitionKey ack.topicId pair.1, pair.2)).getD [] =
          (pairs ((byTopic.get? ack.topicId).getD SortedMap.empty)).map fun pair =>
            (partitionKey ack.topicId pair.1, pair.2) := by
        cases byTopic.get? ack.topicId <;> rfl
      have pushed := (pairs_push ((byTopic.get? ack.topicId).getD SortedMap.empty)
        ack.partition (batchOf ack.first ack.last ack.ack)).map fun pair =>
          (partitionKey ack.topicId pair.1, pair.2)
      rw [old] at traded
      refine (perm_append_right_iff _).mp (traded.trans ?_)
      refine (pushed.append_right _).trans ?_
      exact perm_append_comm.cons _
  have whole := fold SortedMap.empty
  rw [show nestedEntries SortedMap.empty = [] from rfl, append_nil] at whole
  exact whole

theorem requestRows_ack :
    requestRows (buildAckTopics acks) = (groupAcks acks).entries.flatMap fun topic =>
      topic.2.entries.map fun partition => (partitionKey topic.1 partition.1, partition.2) := by
  rw [requestRows, buildAckTopics, flatMap_map]
  simp only [map_map]
  rfl

/-- Each partition has one row in a `ShareAcknowledge`. -/
theorem requestRows_ack_nodup :
    (requestRows (buildAckTopics acks)).Nodup := by
  rw [requestRows_ack, nodup_flatMap]
  constructor
  · intro topic _
    refine List.Nodup.map (fun left right same => ?_) topic.2.entries_nodup
    have parts := Prod.mk.inj same
    exact Prod.ext (Prod.mk.inj (congrArg ofLex parts.1)).2 parts.2
  · refine (groupAcks acks).sorted.imp fun before => ?_
    intro row inLeft inRight
    rcases mem_map.mp inLeft with ⟨_, _, rfl⟩
    rcases mem_map.mp inRight with ⟨_, _, same⟩
    have sameTopic := (Prod.mk.inj (congrArg ofLex (Prod.mk.inj same).1)).1
    exact absurd sameTopic (ne_of_gt before)

theorem acknowledgedIn_ack :
    (acknowledgedIn (buildAckTopics acks)).Perm (acks.map PendingAck.entry) := by
  rw [acknowledgedIn, (requestRows_ack_nodup acks).dedup, requestRows_ack]
  refine List.Perm.trans ?_ (nestedEntries_groupAcks acks)
  refine List.Perm.of_eq ?_
  rw [flatMap_assoc, nestedEntries]
  refine flatMap_congr fun topic _ => ?_
  rw [flatMap_map, pairs, map_flatMap]
  simp only [map_map]
  rfl

end

/-! ## The world -/

namespace ShareConsumer

/-- The acknowledgements that wait for a later call. -/
def waiting (consumer : ShareConsumer) : List PendingAck :=
  consumer.pendingAcks ++ match consumer.ackMode with
    | .implicit => consumer.prevDelivered.map Delivered.accepted
    | .explicit => []

def outstanding (consumer : ShareConsumer) : List Entry := consumer.waiting.map PendingAck.entry

end ShareConsumer

def Request.acknowledged : Request -> List Entry
  | .fetch request => acknowledgedIn request.topics
  | .acknowledge request => if request.isRenewAck then [] else acknowledgedIn request.topics

namespace Call

variable {Result : Type}

/-- The acknowledgements that a call brought to the broker. -/
def carried (call : Call Result) : List Entry :=
  match call.sent with
  | some (request, true) => request.acknowledged
  | _ => []

def delivered (call : Call Result) : List Entry :=
  match call.sent, call.consumer.ackMode with
  | some (_, true), .implicit =>
    (call.consumer.prevDelivered.map Delivered.accepted).map PendingAck.entry
  | _, _ => []

/-- A call that returns without an error keeps what waited before it and what it
`added`, and one that returns an error may give some of it up. -/
def Keeps (call : Call Result) (before added : List Entry) : Prop :=
  match call.outcome with
  | .ok _ => (call.carried ++ call.consumer.outstanding).Perm (before ++ added)
  | .error _ => (call.carried ++ call.consumer.outstanding).Subperm (before ++ added)

theorem Keeps.of_perm {call : Call Result} {before added : List Entry}
    (same : (call.carried ++ call.consumer.outstanding).Perm (before ++ added)) :
    call.Keeps before added := by
  unfold Keeps
  cases call.outcome with
  | ok _ => exact same
  | error _ => exact same.subperm

end Call

/-- The consumer, and the fate of everything that was ever staged. -/
structure World where
  consumer : ShareConsumer
  staged : List Entry
  carried : List Entry
  givenUp : List Entry

inductive Act where
  | poll (remainingMs : Int) (network : ShareFetchRequest -> Sent ShareFetchResponse)
  | acknowledge (record : ShareConsumerRecord) (ack : ShareAckType)
  | renew (record : ShareConsumerRecord)
      (network : ShareAcknowledgeRequest -> Sent ShareAcknowledgeResponse)
  | commit (network : ShareAcknowledgeRequest -> Sent ShareAcknowledgeResponse)
  | close (network : ShareAcknowledgeRequest -> Sent ShareAcknowledgeResponse)
  /-- The heartbeat task replaces the assignment. -/
  | heartbeat (topicPartitions : List (WireUuid × List Int))
  /-- The heartbeat task reports an error. -/
  | report (error : ConsumerError)

namespace World

variable {Result : Type}

def start (consumer : ShareConsumer) : World := ⟨consumer, consumer.outstanding, [], []⟩

def after (world : World) (call : Call Result) (added : List Entry) : World where
  consumer := call.consumer
  staged := world.staged ++ added
  carried := world.carried ++ call.carried
  givenUp := world.givenUp ++ match call.outcome with
    | .ok _ => []
    | .error _ =>
      (world.consumer.outstanding ++ added).diff (call.carried ++ call.consumer.outstanding)

def step (world : World) : Act -> Option World
  | .poll remainingMs network =>
    let call := world.consumer.poll remainingMs network
    some (world.after call call.delivered)
  | .acknowledge record ack =>
    let call := world.consumer.acknowledge record ack
    some (world.after call ((call.consumer.pendingAcks.drop
      world.consumer.pendingAcks.length).map PendingAck.entry))
  | .renew record network => some (world.after (world.consumer.renew record network) [])
  | .commit network => some (world.after (world.consumer.commit network) [])
  | .close network => some (world.after (world.consumer.close network) [])
  | .heartbeat topicPartitions =>
    some { world with consumer := world.consumer.updateAssignment topicPartitions }
  | .report error => some { world with consumer := world.consumer.reportError error }

/-- Every staged acknowledgement was carried by one accepted request, or waits, or
was given up by a call that returned an error. -/
def Balanced (world : World) : Prop :=
  world.staged.Perm (world.carried ++ world.consumer.outstanding ++ world.givenUp)
deriving Decidable

/-- A poll that sends a request finds the partition of everything that waits in
the assignment, and the last request of `close` is accepted. -/
def Allowed (world : World) : Act -> Prop
  | .poll _ _ => world.consumer.pollError = none -> world.consumer.assignment ≠ [] ->
      forall ack, ack ∈ world.consumer.waiting ->
        ack.key ∈ world.consumer.assignment.map Assigned.key
  | .close network => ((world.consumer.close network).sent.all fun sent => sent.2) = true
  | _ => True

instance (world : World) (act : Act) : Decidable (world.Allowed act) := by
  cases act <;> unfold Allowed <;> infer_instance

theorem Balanced.after {world : World} (balanced : world.Balanced) {call : Call Result}
    {added : List Entry} (keeps : call.Keeps world.consumer.outstanding added) :
    (world.after call added).Balanced := by
  have grown : (world.staged ++ added).Perm
      (world.carried ++ (world.consumer.outstanding ++ added) ++ world.givenUp) := by
    refine (balanced.append_right added).trans ?_
    simp only [append_assoc]
    exact (perm_append_comm.append_left _).append_left _
  unfold Balanced World.after
  unfold Call.Keeps at keeps
  refine grown.trans ?_
  cases outcome : call.outcome with
  | ok _ =>
    rw [outcome] at keeps
    rw [append_nil, append_assoc world.carried call.carried]
    exact (keeps.symm.append_left _).append_right _
  | error _ =>
    rw [outcome] at keeps
    have parts := subperm_append_diff_self_of_count_le fun entry _ =>
      List.Subperm.count_le keeps entry
    refine ((parts.symm.append_left _).append_right _).trans ?_
    simp only [append_assoc]
    exact ((perm_append_comm.append_left _).append_left _).append_left _

end World

/-! ## What the calls keep -/

namespace ShareConsumer

/-- The acknowledgements that a poll drains. -/
def drained (consumer : ShareConsumer) : List PendingAck :=
  match consumer.ackMode with
  | .implicit => consumer.prevDelivered.map Delivered.accepted
  | .explicit => consumer.pendingAcks

section

variable (consumer : ShareConsumer)

theorem takePiggybackAcks_fst :
    consumer.takePiggybackAcks.1 = pushAcks consumer.drained := by
  unfold takePiggybackAcks drained
  cases consumer.ackMode <;> rfl

theorem outstanding_takePiggybackAcks :
    (consumer.drained.map PendingAck.entry ++ consumer.takePiggybackAcks.2.outstanding).Perm
      consumer.outstanding := by
  unfold outstanding waiting drained takePiggybackAcks
  cases consumer.ackMode with
  | implicit =>
    rw [<- map_append]
    refine List.Perm.map _ ?_
    rw [map_nil, append_nil]
    exact perm_append_comm
  | explicit =>
    simp

theorem drained_subset_waiting :
    consumer.drained ⊆ consumer.waiting := by
  unfold drained waiting
  cases consumer.ackMode with
  | implicit => exact subset_append_right _ _
  | explicit => exact subset_append_left _ _

end

def stagedBy (consumer : ShareConsumer) (ranges : List Delivered) : List Entry :=
  match consumer.ackMode with
  | .implicit => (ranges.map Delivered.accepted).map PendingAck.entry
  | .explicit => []

theorem outstanding_answered (consumer : ShareConsumer) (epoch : Int) (ranges : List Delivered) :
    outstanding { consumer.takePiggybackAcks.2 with
      shareSessionEpoch := epoch, prevDelivered := ranges } =
        consumer.takePiggybackAcks.2.outstanding ++ consumer.stagedBy ranges := by
  unfold outstanding waiting stagedBy takePiggybackAcks
  cases consumer.ackMode with
  | implicit | explicit => simp

theorem delivered_answered {Result : Type} (consumer : ShareConsumer)
    (outcome : Except ConsumerError Result) (request : Request) (epoch : Int)
    (ranges : List Delivered) :
    Call.delivered ⟨outcome, { consumer.takePiggybackAcks.2 with
      shareSessionEpoch := epoch, prevDelivered := ranges }, some (request, true)⟩ =
        consumer.stagedBy ranges := by
  unfold Call.delivered stagedBy takePiggybackAcks
  cases consumer.ackMode <;> rfl

/-- What a poll can do. -/
inductive PollStep (consumer : ShareConsumer) : Call (List ShareConsumerRecord) -> Prop where
  | reported (error : ConsumerError) (reported : consumer.pollError = some error) :
      PollStep consumer ⟨.error error, { consumer with pollError := none }, none⟩
  | unassigned (fine : consumer.pollError = none) (nothing : consumer.assignment = []) :
      PollStep consumer ⟨.ok [], consumer, none⟩
  | refused (error : ConsumerError) (request : ShareFetchRequest)
      (fine : consumer.pollError = none) (assigned : consumer.assignment ≠ []) :
      PollStep consumer ⟨.error error, consumer.takePiggybackAcks.2, some (.fetch request, false)⟩
  | answered (remainingMs : Int) (response : ShareFetchResponse)
      (fine : consumer.pollError = none) (assigned : consumer.assignment ≠ []) :
      PollStep consumer ⟨.ok (recordsOf consumer.assignment response),
        { consumer.takePiggybackAcks.2 with
          shareSessionEpoch := wrappingSucc consumer.takePiggybackAcks.2.shareSessionEpoch
          prevDelivered := deliveredOf response },
        some (.fetch (consumer.takePiggybackAcks.2.buildShareFetchRequest remainingMs
          (buildShareFetchTopics consumer.assignment consumer.takePiggybackAcks.1)), true)⟩

theorem poll_step (consumer : ShareConsumer) (remainingMs : Int)
    (network : ShareFetchRequest -> Sent ShareFetchResponse) :
    PollStep consumer (consumer.poll remainingMs network) := by
  unfold poll
  cases fine : consumer.pollError with
  | some error => exact .reported error fine
  | none =>
    dsimp only
    by_cases nothing : consumer.assignment = []
    · rw [if_pos nothing]
      exact .unassigned fine nothing
    · rw [if_neg nothing]
      split
      · exact .refused _ _ fine nothing
      · rename_i response _
        unfold handleFetchResponse
        cases failed : responseHasError response.errorCode with
        | true => exact .refused _ _ fine nothing
        | false => exact .answered remainingMs response fine nothing

variable {consumer : ShareConsumer}

theorem poll_keeps (remainingMs : Int) (network : ShareFetchRequest -> Sent ShareFetchResponse)
    (assigned : consumer.pollError = none -> consumer.assignment ≠ [] ->
      forall ack, ack ∈ consumer.waiting -> ack.key ∈ consumer.assignment.map Assigned.key) :
    (consumer.poll remainingMs network).Keeps consumer.outstanding
      (consumer.poll remainingMs network).delivered := by
  have stepped := consumer.poll_step remainingMs network
  generalize consumer.poll remainingMs network = call at stepped ⊢
  cases stepped with
  | reported | unassigned =>
    refine Call.Keeps.of_perm ?_
    rw [show Call.delivered _ = [] from rfl, append_nil]
    exact List.Perm.refl _
  | refused error request fine isAssigned =>
    have kept := (sublist_append_right (consumer.drained.map PendingAck.entry)
      consumer.takePiggybackAcks.2.outstanding).subperm
    have parts := kept.trans consumer.outstanding_takePiggybackAcks.subperm
    unfold Call.Keeps
    rw [show Call.delivered _ = [] from rfl, append_nil]
    exact parts
  | answered _ response fine isAssigned =>
    have isCarried := @acknowledgedIn_fetch consumer.assignment consumer.drained
      fun ack isDrained =>
        assigned fine isAssigned ack (consumer.drained_subset_waiting isDrained)
    rw [<- takePiggybackAcks_fst] at isCarried
    refine Call.Keeps.of_perm ?_
    rw [delivered_answered]
    rw [outstanding_answered, <- append_assoc]
    refine List.Perm.append_right _ ?_
    exact (isCarried.append_right _).trans consumer.outstanding_takePiggybackAcks

section

variable (consumer : ShareConsumer)

theorem sendAcknowledge_spec (request : ShareAcknowledgeRequest)
    (network : ShareAcknowledgeRequest -> Sent ShareAcknowledgeResponse) :
    (consumer.sendAcknowledge request network).consumer.outstanding = consumer.outstanding ∧
      ((Exists fun error => (consumer.sendAcknowledge request network).outcome = .error error ∧
          (consumer.sendAcknowledge request network).sent = some (.acknowledge request, false)) ∨
        (consumer.sendAcknowledge request network).sent = some (.acknowledge request, true)) := by
  unfold sendAcknowledge
  cases network request with
  | failed => exact ⟨rfl, .inl ⟨_, rfl, rfl⟩⟩
  | answered response =>
    dsimp only
    by_cases failed : responseHasError response.errorCode = true
    · rw [if_pos failed]
      exact ⟨rfl, .inl ⟨_, rfl, rfl⟩⟩
    · rw [if_neg failed]
      cases firstShareAckPartitionError response with
      | none | some => exact ⟨rfl, .inr rfl⟩

theorem flushPendingAcks_keeps (network : ShareAcknowledgeRequest -> Sent ShareAcknowledgeResponse) :
    (consumer.flushPendingAcks network).Keeps consumer.outstanding [] ∧
      (((consumer.flushPendingAcks network).sent.all fun sent => sent.2) = true ->
        ((consumer.flushPendingAcks network).carried ++
          (consumer.flushPendingAcks network).consumer.outstanding).Perm consumer.outstanding) := by
  unfold flushPendingAcks
  by_cases nothing : consumer.pendingAcks = []
  · rw [if_pos nothing]
    refine ⟨Call.Keeps.of_perm ?_, fun _ => List.Perm.refl _⟩
    rw [append_nil]
    exact List.Perm.refl _
  · rw [if_neg nothing]
    dsimp only
    have drained : (consumer.pendingAcks.map PendingAck.entry ++
        outstanding { consumer with pendingAcks := [] }) = consumer.outstanding := by
      rw [outstanding, outstanding, waiting, waiting, nil_append, map_append]
    generalize isRequest : buildShareAckRequest { consumer with pendingAcks := [] } false
      (buildAckTopics consumer.pendingAcks) = request
    have sameTopics : (Request.acknowledge request).acknowledged =
        acknowledgedIn (buildAckTopics consumer.pendingAcks) := by
      rw [<- isRequest]
      rfl
    rcases sendAcknowledge_spec { consumer with pendingAcks := [] } request network with
      ⟨sameOutstanding, ⟨error, isError, sent⟩ | sent⟩
    · rw [Call.Keeps, isError, Call.carried, sent, sameOutstanding, <- drained]
      refine ⟨?_, fun accepted => ?_⟩
      · rw [append_nil]
        exact (sublist_append_right _ _).subperm
      · cases accepted
    · have all : (Call.carried (sendAcknowledge { consumer with pendingAcks := [] } request
          network) ++ (sendAcknowledge { consumer with pendingAcks := [] } request
            network).consumer.outstanding).Perm consumer.outstanding := by
        rw [Call.carried, sent, sameOutstanding, <- drained]
        dsimp only
        rw [sameTopics]
        exact (acknowledgedIn_ack consumer.pendingAcks).append_right _
      refine ⟨Call.Keeps.of_perm ?_, fun _ => all⟩
      rw [append_nil]
      exact all

theorem acknowledge_keeps (record : ShareConsumerRecord) (ack : ShareAckType) :
    (consumer.acknowledge record ack).Keeps consumer.outstanding
      (((consumer.acknowledge record ack).consumer.pendingAcks.drop
        consumer.pendingAcks.length).map PendingAck.entry) := by
  refine Call.Keeps.of_perm ?_
  unfold acknowledge
  cases mode : consumer.ackMode with
  | implicit =>
    rw [drop_length, map_nil, append_nil]
    exact List.Perm.refl _
  | explicit =>
    rw [drop_left, Call.carried, outstanding, outstanding, waiting, waiting]
    rw [mode]
    simp

theorem renew_keeps (record : ShareConsumerRecord)
    (network : ShareAcknowledgeRequest -> Sent ShareAcknowledgeResponse) :
    (consumer.renew record network).Keeps consumer.outstanding [] := by
  refine Call.Keeps.of_perm ?_
  rw [append_nil]
  unfold renew
  cases consumer.ackMode with
  | implicit => exact List.Perm.refl _
  | explicit =>
    dsimp only
    generalize isRequest : consumer.buildShareAckRequest true _ = request
    have nothing : (Request.acknowledge request).acknowledged = [] := by
      rw [<- isRequest]
      rfl
    rcases consumer.sendAcknowledge_spec request network with
      ⟨sameOutstanding, ⟨error, _, sent⟩ | sent⟩
    · rw [Call.carried, sent, sameOutstanding]
      exact List.Perm.refl _
    · rw [Call.carried, sent, sameOutstanding]
      dsimp only
      rw [nothing]
      exact List.Perm.refl _

end

theorem close_keeps {network : ShareAcknowledgeRequest -> Sent ShareAcknowledgeResponse}
    (accepted : ((consumer.close network).sent.all fun sent => sent.2) = true) :
    (consumer.close network).Keeps consumer.outstanding [] := by
  refine Call.Keeps.of_perm ?_
  rw [append_nil]
  have sameOutstanding : outstanding (if shouldStageImplicitAccepts consumer.ackMode then
      consumer.stageImplicitAccepts else consumer) = consumer.outstanding := by
    unfold shouldStageImplicitAccepts stageImplicitAccepts outstanding waiting
    cases mode : consumer.ackMode with
    | implicit => simp
    | explicit => simp [mode]
  rw [<- sameOutstanding]
  exact (flushPendingAcks_keeps _ network).2 accepted

end ShareConsumer

/-! ## Runs -/

theorem World.step_balanced {world next : World} {act : Act} (balanced : world.Balanced)
    (allowed : world.Allowed act) (stepped : world.step act = some next) : next.Balanced := by
  cases act with
  | poll remainingMs network =>
    cases stepped
    exact balanced.after (ShareConsumer.poll_keeps _ _ allowed)
  | acknowledge record ack =>
    cases stepped
    exact balanced.after (ShareConsumer.acknowledge_keeps _ _ _)
  | renew record network =>
    cases stepped
    exact balanced.after (ShareConsumer.renew_keeps _ _ _)
  | commit network =>
    cases stepped
    exact balanced.after (ShareConsumer.flushPendingAcks_keeps _ _).1
  | close network =>
    cases stepped
    exact balanced.after (ShareConsumer.close_keeps allowed)
  | heartbeat | report =>
    cases stepped
    exact balanced

/-- While every poll that sends finds the partitions of all waiting
acknowledgements in its assignment, and the last request of `close` is accepted, no
acknowledgement is lost. -/
theorem World.run_acknowledgements_kept (consumer : ShareConsumer) (acts : List Act)
    (last : World) (along : Transition.Along World.step World.Allowed (World.start consumer) acts)
    (ran : Transition.run World.step (World.start consumer) acts = some last) : last.Balanced := by
  refine Transition.run_invariant World.Balanced (fun _ _ _ => step_balanced)
    ?_ along ran
  exact List.Perm.of_eq (append_nil _).symm

def explicitConsumer : ShareConsumer :=
  { groupId := "g", memberId := "m", fetchMin := 1, fetchMax := 52428800, fetchMaxRecords := 500
    acquireMode := .batchOptimized, ackMode := .explicit, assignment := [⟨1, "t", 0⟩]
    topicNames := [(1, "t"), (2, "u")], shareSessionEpoch := 0, pendingAcks := []
    prevDelivered := [], pollError := none }

/-- The record at offset 7 of the assigned partition. -/
def deliveredRecord : ShareConsumerRecord := ⟨"t", 0, 7, 0, .createTime, none, none, [], 1⟩

def acknowledgeTwice : List Act :=
  [.acknowledge deliveredRecord .release, .commit fun _ => .failed,
    .acknowledge deliveredRecord .accept, .poll 0 fun _ => .answered ⟨0, []⟩,
    .close fun _ => .failed]

theorem run_acknowledgements_kept_twice : Exists fun last =>
    Transition.run World.step (World.start explicitConsumer) acknowledgeTwice = some last ∧
      Transition.Along World.step World.Allowed (World.start explicitConsumer) acknowledgeTwice ∧
      last.staged = [(partitionKey 1 0, batchOf 7 7 2), (partitionKey 1 0, batchOf 7 7 1)] ∧
      last.carried = [(partitionKey 1 0, batchOf 7 7 1)] ∧
      last.givenUp = [(partitionKey 1 0, batchOf 7 7 2)] ∧ last.Balanced := by
  have along : Transition.Along World.step World.Allowed (World.start explicitConsumer)
      acknowledgeTwice := by decide
  refine ⟨_, rfl, along, by decide, by decide, by decide, ?_⟩
  exact World.run_acknowledgements_kept explicitConsumer acknowledgeTwice _ along rfl

/-- The heartbeat task moves the member to another partition between an
acknowledgement and the poll that should carry it: the poll returns without an
error, and the acknowledgement is gone.  A failed flush in `close` does the same. -/
theorem poll_discards_acknowledgement :
    (Exists fun last => Transition.run World.step (World.start explicitConsumer)
      [.acknowledge deliveredRecord .accept, .heartbeat [(2, [0])],
        .poll 0 fun _ => .answered ⟨0, []⟩] = some last ∧
      last.staged = [(partitionKey 1 0, batchOf 7 7 1)] ∧ last.carried = [] ∧
      last.consumer.outstanding = [] ∧ last.givenUp = [] ∧ ¬ last.Balanced) ∧
    (Exists fun last => Transition.run World.step (World.start explicitConsumer)
      [.acknowledge deliveredRecord .accept, .close fun _ => .failed] = some last ∧
      last.staged = [(partitionKey 1 0, batchOf 7 7 1)] ∧ last.carried = [] ∧
      last.consumer.outstanding = [] ∧ last.givenUp = []) :=
  ⟨⟨_, rfl, by decide, by decide, by decide, by decide, by decide⟩,
    ⟨_, rfl, by decide, by decide, by decide, by decide⟩⟩

end Share
end Krabka
