import Krabka.Consumer.GroupMember

namespace Krabka
namespace Consumer
namespace GroupMember

open Collections List Option

/-!
# The most recent assignment

The coordinator sends an assignment once.  The member resolves and reconciles it in the
same heartbeat, and keeps no part of it that it could not take.

`nameOf` is the naming of the cluster: a topic id belongs to one topic for good, and a
topic that is created again gets another id.
-/

variable {nameOf : WireUuid -> String}

structure Metadata (nameOf : WireUuid -> String) where
  topics : List MetadataTopic
  named : forall topic, topic ∈ topics -> forall name, topic.name = some name ->
    nameOf topic.topicId = name

structure World where
  member : Member
  received : Option Assignment
  published : Bool
  outcome : Option HeartbeatOutcome

inductive Act (nameOf : WireUuid -> String) where
  | response (response : HeartbeatResponse) (succeeded : response.errorCode = 0)
      (refreshed : Metadata nameOf) (revoked primed assigned : Bool)
  /-- Another task of the consumer refreshes the topic ids. -/
  | metadata (metadata : Metadata nameOf)

/-- Whether `reconcile` gets as far as the publication of `target`. -/
def publishes (owned target : List TopicPartition) (surroundings : Surroundings) : Bool :=
  (revokedPartitions owned target = [] ∧ addedPartitions owned target = []) ||
    (revokedPartitions owned target = [] || surroundings.revoked) && surroundings.primed

namespace World

def start (memberId : String) : World where
  member := ⟨memberId, JOIN_GROUP_MEMBER_EPOCH, SortedMap.empty, [], false⟩
  received := none
  published := false
  outcome := none

def step (world : World) : Act nameOf -> Option World
  | .response response _ refreshed revoked primed assigned =>
    let surroundings : Surroundings := ⟨refreshed.topics, revoked, primed, assigned⟩
    let result := heartbeatOnce world.member (.response response) surroundings
    some { member := result.1
           received := response.assignment.or world.received
           published :=
             match response.assignment with
             | none => world.published
             | some assignment =>
               publishes world.member.assigned (assignmentPartitions assignment (idToName
                 (resolvingIds world.member.topicIds assignment refreshed.topics))).1
                 surroundings
           outcome := some result.2 }
  | .metadata metadata =>
    some { world with member := { world.member with
      topicIds := refreshTrackedTopicIds world.member.topicIds metadata.topics } }

end World

def Taken (world : World) : Act nameOf -> Prop
  | .response response _ refreshed _ _ _ =>
    match response.assignment with
    | none => world.received = none ∨ world.published = true
    | some assignment => (assignmentPartitions assignment (idToName
        (resolvingIds world.member.topicIds assignment refreshed.topics))).2 = []
  | .metadata _ => True

/-! ## Names -/

/-- The topic ids agree with the naming of the cluster. -/
def Consistent (nameOf : WireUuid -> String) (topicIds : SortedMap String WireUuid) : Prop :=
  forall name topicId, topicIds.get? name = some topicId -> nameOf topicId = name

variable {topicIds : SortedMap String WireUuid}

section

variable (consistent : Consistent nameOf topicIds)

include consistent

theorem consistent_trackTopic {topic : MetadataTopic}
    (named : forall name, topic.name = some name -> nameOf topic.topicId = name) :
    Consistent nameOf (trackTopic topicIds topic) := by
  unfold trackTopic
  split
  · exact consistent
  · rename_i name isNamed
    split
    · exact consistent
    · intro other topicId found
      rcases SortedMap.of_get?_insert found with ⟨same, isId⟩ | ⟨_, found⟩
      · rw [isId, named name isNamed, same]
      · exact consistent other topicId found

theorem consistent_refresh {metadata : List MetadataTopic}
    (named : forall topic, topic ∈ metadata -> forall name, topic.name = some name ->
      nameOf topic.topicId = name) :
    Consistent nameOf (refreshTrackedTopicIds topicIds metadata) := by
  induction metadata generalizing topicIds with
  | nil => exact consistent
  | cons topic rest ih =>
    exact ih (consistent_trackTopic consistent (named topic mem_cons_self))
      fun other member => named other (mem_cons_of_mem _ member)

theorem idToName_eq {topicId : WireUuid} {name : String}
    (found : idToName topicIds topicId = some name) :
    name = nameOf topicId := by
  rcases map_eq_some_iff.mp found with ⟨entry, isEntry, same⟩
  have isId := find?_some isEntry
  have sameId := of_decide_eq_true isId
  have stored := (topicIds.mem_entries_iff entry.1 entry.2).mp (mem_of_find?_eq_some isEntry)
  rw [<- same, <- sameId]
  exact (consistent _ _ stored).symm

end

/-- The partitions of an assignment, by the naming of the cluster. -/
def target (nameOf : WireUuid -> String) (assignment : Assignment) : List TopicPartition :=
  assignment.flatMap fun topic => topic.2.map fun partition => ⟨nameOf topic.1, partition⟩

variable {assignment : Assignment}

theorem resolved_of_unresolved_nil {names : WireUuid -> Option String}
    (resolved : (assignmentPartitions assignment names).2 = []) :
    forall topic, topic ∈ assignment -> (names topic.1).isSome = true := by
  intro topic member
  have noneLeft := filter_eq_nil_iff.mp (map_eq_nil_iff.mp resolved) topic member
  cases named : names topic.1 with
  | none => rw [named] at noneLeft; exact absurd rfl noneLeft
  | some name => rfl

theorem mem_assignmentPartitions (consistent : Consistent nameOf topicIds)
    (resolved : forall topic, topic ∈ assignment -> (idToName topicIds topic.1).isSome = true)
    (key : TopicPartition) :
    key ∈ (assignmentPartitions assignment (idToName topicIds)).1 <->
      key ∈ target nameOf assignment := by
  have same : assignment.flatMap (namedPartitions (idToName topicIds)) =
      target nameOf assignment := by
    refine flatMap_congr fun topic member => ?_
    rcases isSome_iff_exists.mp (resolved topic member) with ⟨name, named⟩
    rw [namedPartitions, named, idToName_eq consistent named]
  rw [<- same]
  exact mem_insertionSort _

/-! ## Reconciliation -/

variable {wanted owned : List TopicPartition}

theorem revokedPartitions_nil (revoked : revokedPartitions owned wanted = []) {key : TopicPartition}
    (member : key ∈ owned) :
    key ∈ wanted := by
  by_contra gone
  have moved : key ∈ revokedPartitions owned wanted :=
    (mem_insertionSort _).mpr (mem_filter.mpr ⟨member, decide_eq_true gone⟩)
  rw [revoked] at moved
  cases moved

/-- What `reconcile` leaves, by how far it gets. -/
theorem reconcile_spec (member : Member) (wanted : List TopicPartition)
    (surroundings : Surroundings) :
    (reconcile member wanted surroundings).1.topicIds = member.topicIds ∧
      (publishes member.assigned wanted surroundings = true -> forall key,
        key ∈ (reconcile member wanted surroundings).1.assigned <-> key ∈ wanted) ∧
      ((reconcile member wanted surroundings).2 ≠ none ->
        publishes member.assigned wanted surroundings = true) := by
  dsimp only [reconcile, publishes]
  split
  · rename_i nothing
    refine ⟨rfl, ?_, ?_⟩
    · intro _ key
      exact ⟨revokedPartitions_nil nothing.1, revokedPartitions_nil nothing.2⟩
    · intro _
      rw [decide_eq_true nothing, Bool.true_or]
  · rename_i moves
    rw [decide_eq_false moves, Bool.false_or]
    split
    · rename_i refused
      refine ⟨rfl, ?_, fun failed => absurd rfl failed⟩
      rw [decide_eq_false refused.1, refused.2]
      nofun
    · rename_i revoked
      split
      · rename_i unprimed
        refine ⟨?_, ?_, fun failed => absurd rfl failed⟩
        · split <;> rfl
        · rw [unprimed, Bool.and_false]
          nofun
      · rename_i primed
        refine ⟨?_, fun _ key => Iff.rfl, ?_⟩
        · split <;> rfl
        · intro _
          have isPrimed : surroundings.primed = true := Bool.of_not_eq_false primed
          rw [isPrimed, Bool.and_true, Bool.or_eq_true, decide_eq_true_eq]
          by_contra neither
          rcases not_or.mp neither with ⟨moves, refused⟩
          exact revoked ⟨moves, Bool.of_not_eq_true refused⟩

/-! ## Runs -/

/-- The member owns the most recent assignment whenever it published that assignment, and
it published it whenever the last heartbeat went well. -/
structure Followed (nameOf : WireUuid -> String) (world : World) : Prop where
  consistent : Consistent nameOf world.member.topicIds
  taken : forall assignment, world.received = some assignment -> world.published = true ->
    forall key, key ∈ world.member.assigned <-> key ∈ target nameOf assignment
  outcome : world.received ≠ none -> world.outcome ≠ none ->
    world.outcome ≠ some .backoff -> world.published = true

theorem followed_start (memberId : String) : Followed nameOf (World.start memberId) where
  consistent := nofun
  taken := nofun
  outcome := fun received => absurd rfl received

theorem consistent_resolvingIds (assignment : Assignment)
    (refreshed : Metadata nameOf) (consistent : Consistent nameOf topicIds) :
    Consistent nameOf (resolvingIds topicIds assignment refreshed.topics) := by
  unfold resolvingIds
  split
  · exact consistent
  · exact consistent_refresh consistent refreshed.named

/-- A response with an assignment whose topic ids are all named. -/
theorem followed_assignment {world : World} {response : HeartbeatResponse}
    (followed : Followed nameOf world)
    (carries : response.assignment = some assignment) (refreshed : Metadata nameOf)
    (revoked primed assigned : Bool)
    (resolved : (assignmentPartitions assignment (idToName
      (resolvingIds world.member.topicIds assignment refreshed.topics))).2 = []) :
    Followed nameOf
      { member := (acceptResponse world.member response
          ⟨refreshed.topics, revoked, primed, assigned⟩).1
        received := some assignment
        published := publishes world.member.assigned (assignmentPartitions assignment (idToName
          (resolvingIds world.member.topicIds assignment refreshed.topics))).1
          ⟨refreshed.topics, revoked, primed, assigned⟩
        outcome := some (acceptResponse world.member response
          ⟨refreshed.topics, revoked, primed, assigned⟩).2 } := by
  have consistent := consistent_resolvingIds assignment refreshed followed.consistent
  unfold acceptResponse
  rw [carries]
  dsimp only
  have spec := reconcile_spec { world.member with
      memberId := (response.memberId.filter fun id => id ≠ "").getD world.member.memberId
      memberEpoch := response.memberEpoch
      topicIds := resolvingIds world.member.topicIds assignment refreshed.topics }
    (assignmentPartitions assignment (idToName
      (resolvingIds world.member.topicIds assignment refreshed.topics))).1
    ⟨refreshed.topics, revoked, primed, assigned⟩
  rcases spec with ⟨sameIds, owns, reaches⟩
  refine ⟨?_, ?_, ?_⟩
  · rw [sameIds]
    exact consistent
  · intro latest isLatest published key
    cases isLatest
    exact (owns published key).trans
      (mem_assignmentPartitions consistent (resolved_of_unresolved_nil resolved) key)
  · intro _ _ good
    apply reaches
    intro failed
    exact good (by rw [failed])

theorem step_followed {world next : World} {act : Act nameOf} (followed : Followed nameOf world)
    (allowed : Taken world act) (stepped : world.step act = some next) :
    Followed nameOf next := by
  cases act with
  | metadata metadata =>
    cases stepped
    exact ⟨consistent_refresh followed.consistent metadata.named, followed.taken, followed.outcome⟩
  | response response succeeded refreshed revoked primed assigned =>
    rw [<- some.inj stepped, heartbeatOnce_ok succeeded]
    cases carries : response.assignment with
    | some assignment =>
      rw [Taken, carries] at allowed
      exact followed_assignment followed carries refreshed revoked primed assigned allowed
    | none =>
      rw [Taken, carries] at allowed
      unfold acceptResponse
      rw [carries]
      refine ⟨followed.consistent, followed.taken, ?_⟩
      intro received _ _
      exact allowed.resolve_left received

/-- After a heartbeat without an error, the member owns the most recent assignment once the
metadata names its topics, in a run in which every assignment can be named when it arrives
and no empty response follows an assignment that was not published. -/
theorem run_assignment_taken (nameOf : WireUuid -> String) (memberId : String)
    (acts : List (Act nameOf)) (world : World)
    (ran : Transition.run World.step (World.start memberId) acts = some world)
    (allowed : Transition.Along World.step Taken (World.start memberId) acts)
    (assignment : Assignment) (received : world.received = some assignment)
    (processed : world.outcome ≠ none) (good : world.outcome ≠ some .backoff)
    (named : forall topic, topic ∈ assignment ->
      (idToName world.member.topicIds topic.1).isSome = true) :
    forall key, key ∈ world.member.assigned <->
      key ∈ (assignmentPartitions assignment (idToName world.member.topicIds)).1 := by
  have followed := Transition.run_invariant (Followed nameOf) (fun _ _ _ => step_followed)
    (followed_start memberId) allowed ran
  have published := followed.outcome (by rw [received]; nofun) processed good
  intro key
  exact (followed.taken assignment received published key).trans
    (mem_assignmentPartitions followed.consistent named key).symm

def ordersName (topicId : WireUuid) : String := if topicId = 3 then "orders" else ""

def noMetadata : Metadata ordersName := ⟨[], nofun⟩

def ordersMetadata : Metadata ordersName where
  topics := [⟨some "orders", 0, 3⟩]
  named := by
    intro topic member name named
    rw [mem_singleton.mp member] at named ⊢
    exact some.inj named

def assigns (refreshed : Metadata ordersName) (primed : Bool) : Act ordersName :=
  .response ⟨0, none, 1, some [(3, [0])]⟩ rfl refreshed true primed true

/-- A response without an assignment. -/
def repeats : Act ordersName := .response ⟨0, none, 1, none⟩ rfl noMetadata true true true

theorem run_assignment_taken_orders :
    Exists fun world =>
      Transition.run World.step (World.start "m") [assigns ordersMetadata true, repeats] =
        some world ∧
      forall key, key ∈ world.member.assigned <->
        key ∈ (assignmentPartitions [(3, [0])] (idToName world.member.topicIds)).1 :=
  ⟨_, rfl, run_assignment_taken ordersName "m" [assigns ordersMetadata true, repeats] _ rfl
    ⟨rfl, .inr rfl, trivial⟩ [(3, [0])] rfl nofun nofun (by decide)⟩

/-- An assignment whose topic id gets its name after the response, and an assignment whose
offsets were not found.  The next response carries no assignment and goes well, the metadata
names the topic, and the member owns nothing. -/
theorem assignment_forgotten :
    ([[assigns noMetadata true, .metadata ordersMetadata, repeats],
        [.metadata ordersMetadata, assigns noMetadata false, repeats]].map fun acts =>
      (Transition.run World.step (World.start "m") acts).map fun world =>
        (world.outcome, world.received, idToName world.member.topicIds 3, world.member.assigned)) =
      List.replicate 2 (some (some .interval, some [(3, [0])], some "orders", [])) :=
  rfl

end GroupMember
end Consumer
end Krabka
