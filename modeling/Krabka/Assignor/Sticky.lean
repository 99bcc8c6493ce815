import Krabka.Assignor.General

namespace Krabka
namespace Assignor

open Collections List SortedMap

/-!
# Guarantees of the two sticky assignors

The eager assignor partitions the work: every partition of a subscribed topic
goes to exactly one subscriber.  The cooperative assignor never gives away a
partition that a member owns by the highest claim, before that member revoked
it.
-/

def IsWork (members : List MemberInput) (topicPartitions : TopicPartitions)
    (tp : TopicPartition) : Prop :=
  (Exists fun member => member ∈ members ∧ tp.topic ∈ member.subscribed) ∧
    InRange topicPartitions tp

/-! ## The raw assignment -/

variable {members : List MemberInput}

theorem isWork_iff (distinct : (members.map MemberInput.id).Nodup)
    (topicPartitions : TopicPartitions) (tp : TopicPartition) :
    IsWork members topicPartitions tp <->
      (Exists fun id => Subscribed (subscriptionsOf members) id tp.topic) ∧
        InRange topicPartitions tp := by
  refine and_congr_left' ?_
  constructor
  · rintro ⟨member, isMember, listed⟩
    exact ⟨member.id, (subscribed_iff distinct isMember tp.topic).mpr listed⟩
  · rintro ⟨id, subscribed⟩
    rcases mem_map.mp (mem_ids_of_subscribed subscribed) with ⟨member, isMember, same⟩
    exact ⟨member, isMember, (subscribed_iff distinct isMember tp.topic).mp (same ▸ subscribed)⟩

theorem exists_shared (equal : allEqual (subscriptionsOf members)) :
    Exists fun shared => forall id, id ∈ members.map MemberInput.id ->
      (subscriptionsOf members).get? id = some shared := by
  have stored : forall id, id ∈ members.map MemberInput.id ->
      Exists fun topics => (id, topics) ∈ (subscriptionsOf members).entries := by
    intro id known
    have keyed : (subscriptionsOf members).contains id = true := by
      refine (contains_ofList _ _).mpr ?_
      rw [map_map]
      exact known
    rcases Option.isSome_iff_exists.mp keyed with ⟨topics, found⟩
    exact ⟨topics, ((subscriptionsOf members).mem_entries_iff id topics).mpr found⟩
  unfold allEqual at equal
  cases entries : (subscriptionsOf members).entries with
  | nil =>
    refine ⟨SortedMap.empty, ?_⟩
    intro id known
    rcases stored id known with ⟨topics, member⟩
    rw [entries] at member
    cases member
  | cons first rest =>
    rw [entries] at equal
    refine ⟨first.2, ?_⟩
    intro id known
    rcases stored id known with ⟨topics, member⟩
    rw [← mem_entries_iff]
    have same : topics = first.2 := by
      rw [entries] at member
      rcases mem_cons.mp member with here | later
      · exact here ▸ rfl
      · exact of_decide_eq_true (all_eq_true.mp equal _ later)
    exact same ▸ member

theorem stickyAssignment_distributes
    (someMember : members ≠ []) (distinct : (members.map MemberInput.id).Nodup)
    (topicPartitions : TopicPartitions) :
    Exists fun work : List TopicPartition => work.Nodup ∧
      (forall tp, tp ∈ work <-> IsWork members topicPartitions tp) ∧
      Buckets.Distributes (Eligible (subscriptionsOf members) topicPartitions)
        (sorted (members.map MemberInput.id)) work
        (stickyAssignment members topicPartitions).rawAssignment := by
  have idsPerm := sorted_perm (members.map MemberInput.id)
  have idsDistinct := idsPerm.nodup_iff.mpr distinct
  dsimp only [stickyAssignment]
  by_cases equal : allEqual (subscriptionsOf members) = true
  · rw [if_pos equal]
    rcases exists_shared equal with ⟨shared, sharedBy⟩
    refine ⟨allPartitions shared topicPartitions, allPartitions_nodup _ _, ?_, ?_⟩
    · intro tp
      rw [mem_allPartitions, isWork_iff distinct]
      refine and_congr_left' ?_
      constructor
      · intro inShared
        cases members with
        | nil => exact absurd rfl someMember
        | cons member rest =>
          exact ⟨member.id, shared, sharedBy member.id (.head _), inShared⟩
      · rintro ⟨id, topics, found, listed⟩
        have known := mem_ids_of_subscribed ⟨topics, found, listed⟩
        rw [sharedBy id known] at found
        exact Option.some.inj found ▸ listed
    · refine constrainedAssign_distributes ?_ idsDistinct ?_
        (prepopulate_valid members topicPartitions)
      · intro noIds
        rw [noIds] at idsPerm
        exact someMember (map_eq_nil_iff.mp idsPerm.nil_eq.symm)
      · exact fun id known => sharedBy id (idsPerm.mem_iff.mp known)
  · rw [if_neg equal]
    refine ⟨_, sortedPartitions_nodup _ topicPartitions, ?_,
      generalAssign_distributes _ topicPartitions ?_⟩
    · intro tp
      rw [mem_sortedPartitions, isWork_iff distinct]
    · exact fun id topic subscribed => idsPerm.mem_iff.mpr (mem_ids_of_subscribed subscribed)

theorem memberIds_eq (members : List MemberInput) (topicPartitions : TopicPartitions) :
    (stickyAssignment members topicPartitions).memberIds = sorted (members.map MemberInput.id) :=
  rfl

/-- A map built from one entry per key has exactly these entries. -/
theorem get?_ofList_map {ids : List String} (distinct : ids.Nodup)
    (partsOf : String -> List TopicPartition) (id : String) :
    (SortedMap.ofList (ids.map (fun id => (id, partsOf id)))).get? id =
      if id ∈ ids then some (partsOf id) else none := by
  have keys : (ids.map (fun id => (id, partsOf id))).map Prod.fst = ids := by
    rw [map_map]
    exact map_id ids
  by_cases known : id ∈ ids
  · rw [if_pos known]
    apply get?_ofList_of_mem
    · rw [keys]
      exact distinct
    · exact mem_map.mpr ⟨id, known, rfl⟩
  · rw [if_neg known]
    have absent := (contains_ofList (ids.map (fun id => (id, partsOf id))) id).not.mpr
      (keys.symm ▸ known)
    rw [SortedMap.contains] at absent
    simpa using absent

/-! ## The eager assignor -/

/-- The eager assignment partitions the work, on both paths. -/
theorem assignEager_partitions_work (members : List MemberInput)
    (topicPartitions : TopicPartitions) (distinct : (members.map MemberInput.id).Nodup) :
    (forall tp, IsWork members topicPartitions tp ->
      Exists fun owner => owner ∈ members ∧ tp.topic ∈ owner.subscribed ∧
        (Exists fun parts => (assignEager members topicPartitions).get? owner.id = some parts ∧
          parts.count tp = 1) ∧
        forall id parts, id ≠ owner.id ->
          (assignEager members topicPartitions).get? id = some parts -> tp ∉ parts) ∧
    (forall id parts tp, (assignEager members topicPartitions).get? id = some parts ->
      tp ∈ parts -> IsWork members topicPartitions tp) ∧
    (forall member, member ∈ members ->
      ((assignEager members topicPartitions).get? member.id).isSome = true) := by
  by_cases noMember : members = []
  · subst noMember
    refine ⟨?_, ?_, ?_⟩
    · rintro tp ⟨⟨member, isMember, _⟩, _⟩
      cases isMember
    · intro id parts tp found
      cases found
    · intro member isMember
      cases isMember
  · rcases stickyAssignment_distributes noMember distinct topicPartitions with
      ⟨work, workDistinct, workIff, distributes⟩
    have idsPerm := sorted_perm (members.map MemberInput.id)
    have lookup : forall id, (assignEager members topicPartitions).get? id =
        if id ∈ sorted (members.map MemberInput.id) then
          some (sorted ((stickyAssignment members topicPartitions).rawAssignment.bucket id))
        else none := by
      intro id
      unfold assignEager
      rw [if_neg (by simpa using noMember)]
      exact get?_ofList_map (idsPerm.nodup_iff.mpr distinct) _ id
    have fromRaw : forall id parts, (assignEager members topicPartitions).get? id = some parts ->
          parts.Perm ((stickyAssignment members topicPartitions).rawAssignment.bucket id) := by
      intro id parts found
      rw [lookup] at found
      split_ifs at found
      exact Option.some.inj found ▸ sorted_perm _
    refine ⟨?_, ?_, ?_⟩
    · intro tp isWork
      rcases distributes.exists_holder workDistinct ((workIff tp).mpr isWork) with
        ⟨id, known, eligible, once, elsewhere⟩
      rcases mem_map.mp (idsPerm.mem_iff.mp known) with ⟨owner, isMember, rfl⟩
      refine ⟨owner, isMember, (subscribed_iff distinct isMember tp.topic).mp eligible.1,
        ⟨_, (lookup owner.id).trans (if_pos known), ?_⟩, ?_⟩
      · rw [(sorted_perm _).count_eq tp]
        exact once
      · intro id parts different found inside
        exact elsewhere id different ((fromRaw id parts found).mem_iff.mp inside)
    · intro id parts tp found inside
      refine (workIff tp).mp ((distributes.mem_work_iff tp).mpr ⟨id, ?_⟩)
      exact (fromRaw id parts found).mem_iff.mp inside
    · intro member isMember
      rw [lookup, if_pos (idsPerm.mem_iff.mpr (mem_map.mpr ⟨member, isMember, rfl⟩))]
      rfl

def twoSubscribers : List MemberInput :=
  [⟨"a", ["t"], [], 1⟩, ⟨"b", ["t", "u"], [⟨"t", 0⟩], 1⟩]

theorem assignEager_partitions_work_two :
    (twoSubscribers.map MemberInput.id).Nodup ∧
      Exists fun owner => owner ∈ twoSubscribers ∧ "t" ∈ owner.subscribed ∧
        (Exists fun parts => (assignEager twoSubscribers (SortedMap.ofList [("t", 2)])).get?
          owner.id = some parts ∧ parts.count ⟨"t", 0⟩ = 1) ∧
        forall id parts, id ≠ owner.id ->
          (assignEager twoSubscribers (SortedMap.ofList [("t", 2)])).get? id = some parts ->
            (⟨"t", 0⟩ : TopicPartition) ∉ parts :=
  ⟨by decide, (assignEager_partitions_work twoSubscribers (SortedMap.ofList [("t", 2)])
    (by decide)).1 ⟨"t", 0⟩
      ⟨⟨⟨"a", ["t"], [], 1⟩, by decide, by decide⟩, 2, by decide, by decide, by decide⟩⟩

/-! ## The cooperative assignor -/

section HighestClaim

variable {topicPartitions : TopicPartitions} {tp : TopicPartition} {top : Int}

def ClaimedBelow (tp : TopicPartition) (top : Int) (best : Claims) : Prop :=
  forall claim, best.get? tp = some claim -> claim.generation < top

section

variable (idSubs : SortedSet String) (id : String) (generation : Int)

theorem claimOwned_get?_of_ne (best : Claims) {claimed : TopicPartition} (different : tp ≠ claimed) :
    (claimOwned topicPartitions idSubs id generation best claimed).get? tp = best.get? tp := by
  rcases claimOwned_cases topicPartitions idSubs id generation best claimed with
    ignored | ⟨_, _, recorded⟩
  · rw [ignored]
  · rw [recorded, recordClaim_get?_of_ne best id generation different]

theorem foldl_claimOwned_get?_of_notMem (owned : List TopicPartition) (best : Claims)
    (absent : tp ∉ owned) :
    (owned.foldl (claimOwned topicPartitions idSubs id generation) best).get? tp =
      best.get? tp := by
  induction owned generalizing best with
  | nil => rfl
  | cons claimed rest ih =>
    rw [mem_cons, not_or] at absent
    rw [foldl_cons, ih _ absent.2, claimOwned_get?_of_ne idSubs id generation best absent.1]

end

variable {best : Claims} {id : String} {generation : Int}

theorem recordClaim_below (below : ClaimedBelow tp top best) (lower : generation < top) :
    ClaimedBelow tp top (recordClaim best id generation tp) := by
  intro claim found
  unfold recordClaim at found
  cases before : best.get? tp with
  | none =>
    rw [before] at found
    rw [get?_insert_self] at found
    exact Option.some.inj found ▸ lower
  | some existing =>
    have existingBelow := below existing before
    rw [before] at found
    dsimp only at found
    split_ifs at found
    · rw [get?_insert_self] at found
      exact Option.some.inj found ▸ lower
    · rw [get?_insert_self] at found
      exact Option.some.inj found ▸ existingBelow
    · exact below claim found

theorem recordClaim_of_lower {owner : String}
    (held : best.get? tp = some ⟨top, owner, false⟩) (lower : generation < top) :
    (recordClaim best id generation tp).get? tp = some ⟨top, owner, false⟩ := by
  unfold recordClaim
  rw [held]
  dsimp only
  rw [if_neg (by omega), if_neg (by omega)]
  exact held

/-- The highest claim takes the partition, untied. -/
theorem recordClaim_of_below (id : String) (below : ClaimedBelow tp top best) :
    (recordClaim best id top tp).get? tp = some ⟨top, id, false⟩ := by
  unfold recordClaim
  cases before : best.get? tp with
  | none => exact get?_insert_self _ _ _
  | some existing =>
    have existingBelow := below existing before
    dsimp only
    rw [if_pos existingBelow]
    exact get?_insert_self _ _ _

theorem foldl_claimOwned_induction {keeps : Claims -> Prop} {idSubs : SortedSet String}
    (owned : List TopicPartition)
    (sameLookup : forall best next : Claims, next.get? tp = best.get? tp -> keeps best -> keeps next)
    (claim : tp ∈ owned -> idSubs.contains tp.topic = true -> forall best, keeps best ->
      keeps (recordClaim best id generation tp))
    (start : keeps best) :
    keeps (owned.foldl (claimOwned topicPartitions idSubs id generation) best) := by
  induction owned generalizing best with
  | nil => exact start
  | cons claimed rest ih =>
    refine ih (fun later => claim (.tail claimed later)) ?_
    by_cases same : claimed = tp
    · subst same
      rcases claimOwned_cases topicPartitions idSubs id generation best claimed with
        ignored | ⟨_, subscribed, recorded⟩
      · rw [ignored]
        exact start
      · rw [recorded]
        exact claim (.head _) subscribed best start
    · exact sameLookup best _ (claimOwned_get?_of_ne idSubs id generation best (Ne.symm same)) start

end HighestClaim

section

variable {topicPartitions : TopicPartitions} (distinct : (members.map MemberInput.id).Nodup)
  {owner : MemberInput} (isMember : owner ∈ members) {tp : TopicPartition}
  (once : owner.owned.count tp = 1) (inRange : InRange topicPartitions tp)
  (subscribed : tp.topic ∈ owner.subscribed)
  (highest : forall other, other ∈ members -> other.id ≠ owner.id -> tp ∈ other.owned ->
    tp.topic ∈ other.subscribed -> other.generation < owner.generation)

include distinct isMember once inRange subscribed highest

/-- A member with one listing of `tp` and a generation above all other valid
claims on `tp` has the best claim, and it is not tied. -/
theorem claimAll_of_highest :
    (claimAll members (subscriptionsOf members) topicPartitions).get? tp =
      some ⟨owner.generation, owner.id, false⟩ := by
  have subsOf : forall member, member ∈ members ->
      ((subscriptionsOf members).get? member.id).getD SortedMap.empty =
        SortedSet.ofValues member.subscribed := by
    intro member known
    rw [subscriptionsOf_get? distinct known]
    rfl
  -- The claims of members that cannot reach the owner's generation.
  have lowerMembers : forall (keeps : Claims -> Prop),
      (forall best next : Claims, next.get? tp = best.get? tp -> keeps best -> keeps next) ->
      (forall (best : Claims) (id : String) (generation : Int), generation < owner.generation ->
        keeps best -> keeps (recordClaim best id generation tp)) ->
      forall (others : List MemberInput),
        (forall other, other ∈ others -> other ∈ members ∧ other.id ≠ owner.id) ->
        forall best, keeps best -> keeps (others.foldl (fun best member =>
          member.owned.foldl (claimOwned topicPartitions
            (((subscriptionsOf members).get? member.id).getD SortedMap.empty) member.id
            member.generation) best) best) := by
    intro keeps sameLookup lowerClaim others
    induction others with
    | nil => exact fun _ _ => id
    | cons other rest ih =>
      intro known best start
      have here := known other (.head _)
      refine ih (fun member later => known member (.tail other later)) _ ?_
      refine foldl_claimOwned_induction other.owned sameLookup ?_ start
      intro listed otherSubscribed best kept
      rw [subsOf other here.1, SortedSet.contains_ofValues] at otherSubscribed
      exact lowerClaim best other.id other.generation
        (highest other here.1 here.2 listed otherSubscribed) kept
  rcases append_of_mem isMember with ⟨before, after, split⟩
  have others : (forall other, other ∈ before -> other ∈ members ∧ other.id ≠ owner.id) ∧
      (forall other, other ∈ after -> other ∈ members ∧ other.id ≠ owner.id) := by
    rw [split, map_append, map_cons] at distinct
    have parts := nodup_append.mp distinct
    have ownerFresh := (nodup_cons.mp parts.2.1).1
    constructor
    · intro other member
      refine ⟨split ▸ mem_append_left _ member, fun same => ?_⟩
      exact parts.2.2 other.id (mem_map.mpr ⟨other, member, rfl⟩) owner.id (.head _) same
    · intro other member
      refine ⟨split ▸ mem_append_right _ (.tail owner member), fun same => ?_⟩
      exact ownerFresh (mem_map.mpr ⟨other, member, same⟩)
  have unfolded : claimAll members (subscriptionsOf members) topicPartitions =
      (before ++ owner :: after).foldl (fun best member =>
        member.owned.foldl (claimOwned topicPartitions
          (((subscriptionsOf members).get? member.id).getD SortedMap.empty) member.id
          member.generation) best) SortedMap.empty := by
    rw [← split]
    rfl
  rw [unfolded, foldl_append, foldl_cons]
  refine lowerMembers (fun best => best.get? tp = some ⟨owner.generation, owner.id, false⟩)
    (fun _ _ same => same.trans)
    (fun best id generation lower held => recordClaim_of_lower held lower) after others.2 _ ?_
  have below := lowerMembers (ClaimedBelow tp owner.generation)
    (fun best next same kept claim found => kept claim (same ▸ found))
    (fun best id generation lower kept => recordClaim_below kept lower) before others.1
    SortedMap.empty (fun claim found => by cases found)
  have listed : tp ∈ owner.owned := count_pos_iff.mp (by omega)
  rcases append_of_mem listed with ⟨first, second, ownedSplit⟩
  rw [ownedSplit, count_append, count_cons_self] at once
  have notFirst : tp ∉ first := count_eq_zero.mp (by omega)
  have notSecond : tp ∉ second := count_eq_zero.mp (by omega)
  have ownSubscribed : (((subscriptionsOf members).get? owner.id).getD SortedMap.empty).contains
      tp.topic = true := by
    rw [subsOf owner isMember]
    exact (SortedSet.contains_ofValues _ _).mpr subscribed
  rw [ownedSplit, foldl_append, foldl_cons,
    foldl_claimOwned_get?_of_notMem _ _ _ second _ notSecond,
    claimOwned_of_eligible inRange ownSubscribed]
  refine recordClaim_of_below owner.id ?_
  intro claim found
  rw [foldl_claimOwned_get?_of_notMem _ _ _ first _ notFirst] at found
  exact below claim found

theorem prepopulate_of_highest :
    tp ∈ (prepopulateCurrentAssignments members (subscriptionsOf members)
      topicPartitions).bucket owner.id := by
  have best := claimAll_of_highest distinct isMember once inRange subscribed highest
  have current := prepopulate_distributes members topicPartitions
  have untied : tp ∈ untiedPartitions
      (claimAll members (subscriptionsOf members) topicPartitions) := by
    refine mem_map.mpr ⟨(tp, ⟨owner.generation, owner.id, false⟩), ?_, rfl⟩
    exact mem_filter.mpr ⟨(mem_entries_iff _ _ _).mpr best, rfl⟩
  rcases (current.mem_work_iff tp).mp untied with ⟨holder, held⟩
  have isOwner : holder = owner.id := by
    rcases current.eligible holder tp held with ⟨claim, stored, same, _⟩
    rw [best] at stored
    exact same.symm.trans (Option.some.inj stored ▸ rfl)
  exact isOwner ▸ held

end

/-- What the cooperative assignor gives to a member. -/
theorem assign_get? (someMember : members ≠ [])
    (distinct : (members.map MemberInput.id).Nodup) (topicPartitions : TopicPartitions)
    (id : String) :
    (assign members topicPartitions).get? id =
      if id ∈ sorted (members.map MemberInput.id) then
        some (sorted (((stickyAssignment members topicPartitions).rawAssignment.bucket id).filter
          (fun tp => match (stickyAssignment members topicPartitions).previousOwner.get? tp with
            | some prev => prev = id
            | none => true)))
      else none := by
  have idsDistinct := (sorted_perm (members.map MemberInput.id)).nodup_iff.mpr distinct
  unfold assign
  rw [if_neg (by simpa using someMember)]
  rw [get?_mapValues, memberIds_eq, get?_ofList_map idsDistinct]
  split_ifs <;> rfl

/-- The cooperative assignor does not give a partition to another member while
the member with the highest claim still owns it. -/
theorem assign_keeps_highest_claim (members : List MemberInput)
    (topicPartitions : TopicPartitions) (distinct : (members.map MemberInput.id).Nodup)
    (owner : MemberInput) (isMember : owner ∈ members) (tp : TopicPartition)
    (once : owner.owned.count tp = 1) (inRange : InRange topicPartitions tp)
    (subscribed : tp.topic ∈ owner.subscribed)
    (highest : forall other, other ∈ members -> other.id ≠ owner.id -> tp ∈ other.owned ->
      tp.topic ∈ other.subscribed -> other.generation < owner.generation)
    (id : String) (parts : List TopicPartition) (different : id ≠ owner.id)
    (found : (assign members topicPartitions).get? id = some parts) : tp ∉ parts := by
  have previously : (stickyAssignment members topicPartitions).previousOwner.get? tp =
      some owner.id :=
    previousOwners_get? (prepopulate_valid members topicPartitions).distinct
      (prepopulate_of_highest distinct isMember once inRange subscribed highest)
  rw [assign_get? (ne_nil_of_mem isMember) distinct] at found
  split_ifs at found
  have same := Option.some.inj found
  intro inside
  rw [← same, (sorted_perm _).mem_iff, mem_filter] at inside
  have kept := inside.2
  rw [previously] at kept
  exact different (of_decide_eq_true kept).symm

/-- The new member `b` waits for `t-1`, which `a` still owns. -/
theorem assign_keeps_highest_claim_two :
    (⟨"t", 1⟩ : TopicPartition) ∉
      ((assign [⟨"a", ["t"], [⟨"t", 0⟩, ⟨"t", 1⟩], 5⟩, ⟨"b", ["t"], [⟨"t", 1⟩], 4⟩]
        (SortedMap.ofList [("t", 2)])).get? "b").getD [] := by
  have found : (assign [⟨"a", ["t"], [⟨"t", 0⟩, ⟨"t", 1⟩], 5⟩, ⟨"b", ["t"], [⟨"t", 1⟩], 4⟩]
      (SortedMap.ofList [("t", 2)])).get? "b" = some [] := by decide
  exact assign_keeps_highest_claim _ _ (by decide) ⟨"a", ["t"], [⟨"t", 0⟩, ⟨"t", 1⟩], 5⟩
    (by decide) ⟨"t", 1⟩ (by decide) ⟨2, by decide, by decide, by decide⟩ (by decide)
    (by decide) "b" [] (by decide) found

/-- Two members that claim `t-0` in one generation both lose it, and it goes
to one of them at once, although the other one still lists it. -/
theorem assign_gives_tied_claim :
    ¬ (forall (members : List MemberInput) (topicPartitions : TopicPartitions),
      (members.map MemberInput.id).Nodup ->
      forall (owner : MemberInput), owner ∈ members -> forall (tp : TopicPartition),
      tp ∈ owner.owned -> InRange topicPartitions tp -> tp.topic ∈ owner.subscribed ->
      (forall other, other ∈ members -> other.id ≠ owner.id -> tp ∈ other.owned ->
        tp.topic ∈ other.subscribed -> ¬ owner.generation < other.generation) ->
      forall (id : String) (parts : List TopicPartition), id ≠ owner.id ->
      (assign members topicPartitions).get? id = some parts -> tp ∉ parts) := by
  intro always
  exact always [⟨"a", ["t"], [⟨"t", 0⟩], 3⟩, ⟨"b", ["t"], [⟨"t", 0⟩], 3⟩]
    (SortedMap.ofList [("t", 1)]) (by decide) ⟨"b", ["t"], [⟨"t", 0⟩], 3⟩ (by decide) ⟨"t", 0⟩
    (by decide) ⟨1, by decide, by decide, by decide⟩ (by decide) (by decide) "a" [⟨"t", 0⟩]
    (by decide) (by decide) (by decide)

end Assignor
end Krabka
