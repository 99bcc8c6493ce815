import Krabka.Assignor.Quota
import Krabka.Assignor.Sticky

namespace Krabka
namespace Assignor

open Collections List Buckets

/-!
# The rounds of the cooperative protocol

In the first round of a rebalance the cooperative assignor leaves out the
partitions that move.  Their owners revoke them and all members join again, each
with the partitions that it was given.  When all members subscribe to the same
topics, what they own then fits the quotas, so the second round gives out the
rest, and a third round changes nothing.
-/

def Uniform (members : List MemberInput) : Prop :=
  forall left, left ∈ members -> forall right, right ∈ members -> forall topic,
    topic ∈ left.subscribed <-> topic ∈ right.subscribed

def nextRound (members : List MemberInput) (assignment : Assignment) (generation : Int) :
    List MemberInput :=
  members.map fun member =>
    { member with owned := assignment.bucket member.id, generation := generation }

section NextRound

variable {members : List MemberInput} {assignment : Assignment} {generation : Int}

section

variable (members : List MemberInput) (assignment : Assignment) (generation : Int)

theorem map_id_nextRound :
    (nextRound members assignment generation).map MemberInput.id = members.map MemberInput.id := by
  rw [nextRound, map_map]
  rfl

theorem subscriptionsOf_nextRound :
    subscriptionsOf (nextRound members assignment generation) = subscriptionsOf members := by
  rw [subscriptionsOf, nextRound, map_map]
  rfl

end

theorem nextRound_nextRound (members : List MemberInput) (first second : Assignment)
    (generation later : Int) :
    nextRound (nextRound members first generation) second later =
      nextRound members second later := by
  rw [nextRound, nextRound, map_map]
  rfl

theorem allEqual_of_uniform (uniform : Uniform members) :
    allEqual (subscriptionsOf members) = true := by
  have subscribed (entry : String × SortedSet String)
      (isEntry : entry ∈ (subscriptionsOf members).entries) : Exists fun member =>
        member ∈ members ∧ entry.2 = SortedSet.ofValues member.subscribed := by
    have found := (SortedMap.mem_entries_iff _ entry.1 entry.2).mp isEntry
    rcases mem_map.mp (SortedMap.mem_of_get?_ofList found) with ⟨member, isMember, same⟩
    exact ⟨member, isMember, (congrArg Prod.snd same).symm⟩
  unfold allEqual
  cases entries : (subscriptionsOf members).entries with
  | nil => rfl
  | cons first rest =>
    rcases subscribed first (entries ▸ mem_cons_self) with ⟨left, isLeft, sameLeft⟩
    refine all_eq_true.mpr fun entry isEntry => decide_eq_true ?_
    rcases subscribed entry (entries ▸ mem_cons_of_mem first isEntry) with
      ⟨right, isRight, sameRight⟩
    rw [sameLeft, sameRight]
    exact SortedSet.ofValues_congr (uniform right isRight left isLeft)

/-- The members of the next round own exactly what they were given. -/
theorem mem_prepopulate_nextRound {topicPartitions : TopicPartitions}
    (distinct : (members.map MemberInput.id).Nodup)
    (eachOnce : forall id, (assignment.bucket id).Nodup)
    (apart : forall id other tp, tp ∈ assignment.bucket id -> tp ∈ assignment.bucket other ->
      id = other)
    (eligible : forall id tp, tp ∈ assignment.bucket id ->
      Eligible (subscriptionsOf members) topicPartitions id tp)
    (id : String) (tp : TopicPartition) :
    tp ∈ (prepopulateCurrentAssignments (nextRound members assignment generation)
      (subscriptionsOf members) topicPartitions).bucket id <-> tp ∈ assignment.bucket id := by
  have sameIds := map_id_nextRound members assignment generation
  have sameSubs := subscriptionsOf_nextRound members assignment generation
  constructor
  · intro held
    have distributes := prepopulate_distributes (nextRound members assignment generation)
      topicPartitions
    rw [sameSubs] at distributes
    rcases distributes.eligible id tp held with ⟨claim, stored, isOwner, _⟩
    have listed : ClaimsEligible (fun id tp => tp ∈ assignment.bucket id) (claimAll
        (nextRound members assignment generation) (subscriptionsOf members) topicPartitions) := by
      refine claimAll_of_each fun member isMember tp isOwned _ => ?_
      rcases mem_map.mp isMember with ⟨before, _, rfl⟩
      exact isOwned
    exact isOwner ▸ listed tp claim stored
  · intro held
    have known := mem_ids_of_subscribed (eligible id tp held).1
    rcases mem_map.mp known with ⟨member, isMember, rfl⟩
    have inRound : { member with owned := assignment.bucket member.id, generation := generation } ∈
        nextRound members assignment generation := mem_map_of_mem isMember
    have owns := prepopulate_of_highest (sameIds.symm ▸ distinct) inRound
      (count_eq_one_of_mem (eachOnce member.id) held) (eligible member.id tp held).2
      ((subscribed_iff distinct isMember tp.topic).mp (eligible member.id tp held).1) ?_
    · rw [sameSubs] at owns
      exact owns
    · intro other isOther different isOwned _
      rcases mem_map.mp isOther with ⟨before, _, rfl⟩
      exact absurd (apart before.id member.id tp isOwned held) different

end NextRound

/-! ## One round -/

/-- The partitions that the members own at the start of a round. -/
def currentOf (members : List MemberInput) (topicPartitions : TopicPartitions) : Assignment :=
  prepopulateCurrentAssignments members (subscriptionsOf members) topicPartitions

def rawOf (members : List MemberInput) (topicPartitions : TopicPartitions) : Assignment :=
  (stickyAssignment members topicPartitions).rawAssignment

structure SharedGroup (members : List MemberInput) (shared : SortedSet String) : Prop where
  someMember : members ≠ []
  distinct : (members.map MemberInput.id).Nodup
  equal : allEqual (subscriptionsOf members) = true
  sharedBy : forall id, id ∈ members.map MemberInput.id ->
    (subscriptionsOf members).get? id = some shared

namespace SharedGroup

variable {members : List MemberInput} {shared : SortedSet String}
  {topicPartitions : TopicPartitions} {id : String} {tp : TopicPartition}

section

variable (group : SharedGroup members shared)

include group

theorem nextRound (assignment : Assignment) (generation : Int) :
    SharedGroup (nextRound members assignment generation) shared where
  someMember := fun none => group.someMember (map_eq_nil_iff.mp none)
  distinct := by
    rw [map_id_nextRound]
    exact group.distinct
  equal := by
    rw [subscriptionsOf_nextRound]
    exact group.equal
  sharedBy := by
    rw [map_id_nextRound, subscriptionsOf_nextRound]
    exact group.sharedBy

theorem ids_ne_nil :
    sorted (members.map MemberInput.id) ≠ [] := by
  intro noIds
  have same := sorted_perm (members.map MemberInput.id)
  rw [noIds] at same
  exact group.someMember (map_eq_nil_iff.mp same.nil_eq.symm)

theorem ids_nodup :
    (sorted (members.map MemberInput.id)).Nodup :=
  (sorted_perm _).nodup_iff.mpr group.distinct

theorem sharedBy_sorted (id : String) (known : id ∈ sorted (members.map MemberInput.id)) :
    (subscriptionsOf members).get? id = some shared :=
  group.sharedBy id ((sorted_perm _).mem_iff.mp known)

theorem rawOf_eq (topicPartitions : TopicPartitions) :
    rawOf members topicPartitions = constrainedAssign (sorted (members.map MemberInput.id))
      (subscriptionsOf members) (currentOf members topicPartitions) topicPartitions := by
  dsimp only [rawOf, stickyAssignment]
  rw [if_pos group.equal]
  rfl

end

/-- The quotas of a round. -/
def quotas (members : List MemberInput) (shared : SortedSet String)
    (topicPartitions : TopicPartitions) : Quotas :=
  Quotas.of (allPartitions shared topicPartitions).length
    (sorted (members.map MemberInput.id)).length

section

variable (group : SharedGroup members shared)

include group

section

variable (topicPartitions : TopicPartitions)

theorem raw_distributes :
    Distributes (Eligible (subscriptionsOf members) topicPartitions)
      (sorted (members.map MemberInput.id)) (allPartitions shared topicPartitions)
      (rawOf members topicPartitions) := by
  rw [group.rawOf_eq]
  exact constrainedAssign_distributes group.ids_ne_nil group.ids_nodup group.sharedBy_sorted
    (prepopulate_valid members topicPartitions)

theorem raw_even :
    Even (quotas members shared topicPartitions).minQuota
      (sorted (members.map MemberInput.id)) (rawOf members topicPartitions) := by
  rw [group.rawOf_eq]
  exact constrainedAssign_even group.ids_ne_nil group.ids_nodup group.sharedBy_sorted
    (prepopulate_valid members topicPartitions)

theorem raw_nodup :
    (rawOf members topicPartitions).items.Nodup :=
  (group.raw_distributes topicPartitions).nodup (allPartitions_nodup shared topicPartitions)

/-- The cooperative assignor gives a part of the raw assignment. -/
theorem assign_subperm (id : String) :
    ((assign members topicPartitions).bucket id).Subperm
      ((rawOf members topicPartitions).bucket id) := by
  rw [bucket, assign_get? group.someMember group.distinct]
  split_ifs with known
  · exact (sorted_perm _).subperm.trans filter_sublist.subperm
  · exact nil_subperm

end

/-- When the partitions that the members own fit, nothing moves. -/
theorem assign_of_fits
    (fits : Fits (quotas members shared topicPartitions) (sorted (members.map MemberInput.id))
      (currentOf members topicPartitions)) (id : String) :
    (currentOf members topicPartitions).bucket id ⊆ (rawOf members topicPartitions).bucket id ∧
      (assign members topicPartitions).get? id =
        if id ∈ sorted (members.map MemberInput.id) then
          some (sorted ((rawOf members topicPartitions).bucket id))
        else none := by
  have valid := prepopulate_valid members topicPartitions
  have keeps (holder : String) : (currentOf members topicPartitions).bucket holder ⊆
      (rawOf members topicPartitions).bucket holder := by
    intro tp held
    have known := (sorted_perm _).mem_iff.mpr
      (mem_ids_of_subscribed (valid.eligible holder tp held).1)
    rw [group.rawOf_eq]
    exact constrainedAssign_keeps group.ids_ne_nil group.ids_nodup group.sharedBy_sorted valid
      fits known held
  refine ⟨keeps id, ?_⟩
  rw [assign_get? group.someMember group.distinct]
  split_ifs with known
  · refine congrArg (fun held => some (sorted held)) (filter_eq_self.mpr fun tp held => ?_)
    cases previous : (stickyAssignment members topicPartitions).previousOwner.get? tp with
    | none => rfl
    | some holder =>
      have isHeld : tp ∈ (rawOf members topicPartitions).bucket holder :=
        keeps holder (mem_of_previousOwners previous)
      exact decide_eq_true (key_unique (group.raw_nodup topicPartitions) isHeld held)
  · rfl

end

/-! ## The next round -/

section NextRound

variable {assignment : Assignment}

section

variable (group : SharedGroup members shared) (generation : Int)
  (within : forall id, (assignment.bucket id).Subperm ((rawOf members topicPartitions).bucket id))

include group generation within

/-- The members own a part of the last raw assignment. -/
theorem mem_currentOf_nextRound (id : String) (tp : TopicPartition) :
    let next := Assignor.nextRound members assignment generation
    tp ∈ (currentOf next topicPartitions).bucket id <-> tp ∈ assignment.bucket id := by
  intro next
  have distinct := group.raw_nodup topicPartitions
  rw [currentOf, subscriptionsOf_nextRound]
  refine mem_prepopulate_nextRound group.distinct (fun id => ?_) (fun id other tp here there => ?_)
    (fun id tp held => ?_) id tp
  · rcases within id with ⟨part, same, sublist⟩
    exact same.nodup_iff.mp ((bucket_nodup distinct id).sublist sublist)
  · exact key_unique distinct ((within id).subset here) ((within other).subset there)
  · exact (group.raw_distributes topicPartitions).eligible id tp ((within id).subset held)

theorem fits_nextRound :
    Fits (quotas (Assignor.nextRound members assignment generation) shared topicPartitions)
      (sorted ((Assignor.nextRound members assignment generation).map MemberInput.id))
      (currentOf (Assignor.nextRound members assignment generation) topicPartitions) := by
  rw [quotas, map_id_nextRound]
  have distributes := group.raw_distributes topicPartitions
  refine Fits.of_even group.ids_nodup distributes.keyed distributes.items.length_eq
    (group.raw_even topicPartitions) fun id _ => ?_
  have distinct := (prepopulate_valid (Assignor.nextRound members assignment generation)
    topicPartitions).distinct
  refine (subperm_of_subset (bucket_nodup distinct id) fun tp held => ?_).length_le
  exact (within id).subset ((group.mem_currentOf_nextRound generation within id tp).mp held)

/-- The next round keeps what the members were given, and moves nothing. -/
theorem assign_nextRound (id : String) :
    let next := Assignor.nextRound members assignment generation
    assignment.bucket id ⊆ (rawOf next topicPartitions).bucket id ∧
      (assign next topicPartitions).get? id =
        if id ∈ sorted (members.map MemberInput.id) then
          some (sorted ((rawOf next topicPartitions).bucket id))
        else none := by
  intro next
  have parts := (group.nextRound assignment generation).assign_of_fits
    (group.fits_nextRound generation within) id
  rw [map_id_nextRound] at parts
  exact ⟨fun tp held => parts.1 ((group.mem_currentOf_nextRound generation within id tp).mpr held),
    parts.2⟩

theorem bucket_assign_nextRound (id : String) :
    let next := Assignor.nextRound members assignment generation
    ((assign next topicPartitions).bucket id).Perm ((rawOf next topicPartitions).bucket id) := by
  intro next
  rw [bucket, (group.assign_nextRound generation within id).2]
  split_ifs with known
  · exact sorted_perm _
  · have keyed := ((group.nextRound assignment generation).raw_distributes topicPartitions).keyed id
    rw [map_id_nextRound] at keyed
    refine List.Perm.of_eq (eq_nil_iff_forall_not_mem.mpr fun tp held => ?_).symm
    exact known (keyed.mp (contains_of_mem_bucket held))

end

end NextRound

end SharedGroup

/-- Two rounds of the cooperative protocol place every partition of the shared
topics, and a third one changes nothing. -/
theorem assign_converges (members : List MemberInput) (topicPartitions : TopicPartitions)
    (distinct : (members.map MemberInput.id).Nodup) (uniform : Uniform members)
    (secondGeneration thirdGeneration : Int) :
    let first := assign members topicPartitions
    let second := assign (nextRound members first secondGeneration) topicPartitions
    (forall tp, IsWork members topicPartitions tp ->
      Exists fun owner => owner ∈ members ∧ (second.bucket owner.id).count tp = 1 ∧
        forall id, id ≠ owner.id -> tp ∉ second.bucket id) ∧
    (forall member, member ∈ members -> first.bucket member.id ⊆ second.bucket member.id) ∧
    (forall left, left ∈ members -> forall right, right ∈ members ->
      load second left.id ≤ load second right.id + 1) ∧
    assign (nextRound members second thirdGeneration) topicPartitions = second := by
  intro first second
  by_cases noMember : members = []
  · subst noMember
    refine ⟨?_, nofun, nofun, rfl⟩
    rintro tp ⟨⟨member, isMember, _⟩, _⟩
    cases isMember
  · have equal := allEqual_of_uniform uniform
    rcases exists_shared equal with ⟨shared, sharedBy⟩
    have group : SharedGroup members shared := ⟨noMember, distinct, equal, sharedBy⟩
    have firstWithin (id : String) : (first.bucket id).Subperm _ :=
      group.assign_subperm topicPartitions id
    have nextGroup := group.nextRound first secondGeneration
    have secondSame (id : String) : (second.bucket id).Perm _ :=
      group.bucket_assign_nextRound secondGeneration firstWithin id
    have distributes := nextGroup.raw_distributes topicPartitions
    have even := nextGroup.raw_even topicPartitions
    rw [map_id_nextRound] at distributes even
    have known {member : MemberInput} (isMember : member ∈ members) :
        member.id ∈ sorted (members.map MemberInput.id) :=
      (sorted_perm _).mem_iff.mpr (mem_map_of_mem isMember)
    refine ⟨?_, ?_, ?_, ?_⟩
    · intro tp isWork
      have isPartition : tp ∈ allPartitions shared topicPartitions := by
        rcases (isWork_iff distinct topicPartitions tp).mp isWork with ⟨⟨id, subscribed⟩, inRange⟩
        have found := sharedBy id (mem_ids_of_subscribed subscribed)
        rcases subscribed with ⟨topics, isTopics, listed⟩
        rw [found] at isTopics
        exact (mem_allPartitions shared topicPartitions tp).mpr
          ⟨Option.some.inj isTopics ▸ listed, inRange⟩
      rcases distributes.exists_holder (allPartitions_nodup shared topicPartitions) isPartition with
        ⟨id, isMember, _, once, elsewhere⟩
      rcases mem_map.mp ((sorted_perm _).mem_iff.mp isMember) with ⟨owner, isOwner, rfl⟩
      refine ⟨owner, isOwner, (secondSame owner.id).count_eq tp ▸ once,
        fun other different held => ?_⟩
      exact elsewhere other different ((secondSame other).mem_iff.mp held)
    · intro member isMember tp held
      exact (secondSame member.id).mem_iff.mpr
        ((group.assign_nextRound secondGeneration firstWithin member.id).1 held)
    · intro left isLeft right isRight
      have high := (even left.id (known isLeft)).2
      have low := (even right.id (known isRight)).1
      rw [load, load, (secondSame left.id).length_eq, (secondSame right.id).length_eq]
      omega
    · apply SortedMap.ext
      intro id
      have secondGet := (group.assign_nextRound secondGeneration firstWithin id).2
      have third := nextGroup.assign_nextRound thirdGeneration fun id => (secondSame id).subperm
      have thirdDistributes := (nextGroup.nextRound second thirdGeneration).raw_distributes
        topicPartitions
      rw [map_id_nextRound, map_id_nextRound] at thirdDistributes
      have same := distributes.perm_of_subset thirdDistributes
        (allPartitions_nodup shared topicPartitions)
        (fun id tp held => (third id).1 ((secondSame id).mem_iff.mpr held)) id
      have thirdGet := (third id).2
      rw [map_id_nextRound, <- sorted_eq_of_perm same, nextRound_nextRound] at thirdGet
      exact thirdGet.trans secondGet.symm

/-- `a` owns all partitions of `t` when `b` and `c` join. -/
private def joiningGroup : List MemberInput :=
  [⟨"a", ["t"], [⟨"t", 0⟩, ⟨"t", 1⟩, ⟨"t", 2⟩, ⟨"t", 3⟩], 5⟩, ⟨"b", ["t"], [], -1⟩,
    ⟨"c", ["t"], [], -1⟩]

/-- The first round takes two partitions from `a`, and the second one gives them to
`b` and `c`. -/
theorem assign_converges_joining :
    let counts : TopicPartitions := SortedMap.ofList [("t", 4)]
    let first := assign joiningGroup counts
    let second := assign (nextRound joiningGroup first 6) counts
    first.entries = [("a", [⟨"t", 0⟩, ⟨"t", 1⟩]), ("b", []), ("c", [])] ∧
      second.entries = [("a", [⟨"t", 0⟩, ⟨"t", 1⟩]), ("b", [⟨"t", 2⟩]), ("c", [⟨"t", 3⟩])] ∧
      assign (nextRound joiningGroup second 7) counts = second := by
  intro counts first second
  have uniform : Uniform joiningGroup := by
    intro left isLeft right isRight topic
    have same (member : MemberInput) (isMember : member ∈ joiningGroup) :
        member.subscribed = ["t"] := by
      simp only [joiningGroup, mem_cons, not_mem_nil, or_false] at isMember
      rcases isMember with rfl | rfl | rfl <;> rfl
    rw [same left isLeft, same right isRight]
  exact ⟨by decide, by decide, (assign_converges joiningGroup counts (by decide) uniform 6 7).2.2.2⟩

end Assignor
end Krabka
