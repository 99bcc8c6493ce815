import Krabka.Assignor.Constrained

namespace Krabka
namespace Assignor

open Collections List SortedMap Option Buckets

/-!
# The general path distributes all partitions

The path places every partition on one of its subscribers, and then moves
partitions between subscribers in passes.  A pass works on a list of owners
taken at its start.  No partition is in that list twice, so the owner it names
is still the owner when the pass comes to the partition, and a move neither
loses nor duplicates it.
-/

/-! ## The subscribers of a topic -/

def subscriptionPairs (subs : Subscriptions) : List (String × String) :=
  subs.entries.flatMap (fun entry => entry.2.keys.map (fun topic => (entry.1, topic)))

/-- Record one subscription to a known topic. -/
def addSubscriber (topicPartitions : TopicPartitions)
    (subscribers : SortedMap String (SortedSet String)) (pair : String × String) :
    SortedMap String (SortedSet String) :=
  if topicPartitions.contains pair.2 then
    subscribers.insert pair.2
      (((subscribers.get? pair.2).getD SortedMap.empty).insert pair.1 ())
  else subscribers

theorem subscribersPerTopic_eq (subs : Subscriptions) (topicPartitions : TopicPartitions) :
    subscribersPerTopic subs topicPartitions =
      (subscriptionPairs subs).foldl (addSubscriber topicPartitions) SortedMap.empty := by
  unfold subscribersPerTopic subscriptionPairs
  rw [foldl_flatMap]
  simp only [foldl_map]
  rfl

theorem mem_subscriptionPairs (subs : Subscriptions) (id topic : String) :
    (id, topic) ∈ subscriptionPairs subs <-> Subscribed subs id topic := by
  unfold subscriptionPairs Subscribed
  rw [mem_flatMap]
  constructor
  · rintro ⟨⟨entryId, topics⟩, member, inside⟩
    rcases mem_map.mp inside with ⟨listed, inTopics, same⟩
    have parts := Prod.mk.inj same
    refine ⟨topics, ?_, ?_⟩
    · exact parts.1 ▸ (subs.mem_entries_iff entryId topics).mp member
    · exact parts.2 ▸ (topics.mem_keys_iff listed).mp inTopics
  · rintro ⟨topics, found, subscribed⟩
    exact ⟨(id, topics), (subs.mem_entries_iff id topics).mpr found,
      mem_map.mpr ⟨topic, (topics.mem_keys_iff topic).mpr subscribed, rfl⟩⟩

section

variable (topicPartitions : TopicPartitions) (pairs : List (String × String))
  (subscribers : SortedMap String (SortedSet String))

include topicPartitions pairs subscribers

theorem foldl_addSubscriber_contains (id topic : String) :
    (((pairs.foldl (addSubscriber topicPartitions) subscribers).get? topic).getD
        SortedMap.empty).contains id = true <->
      ((id, topic) ∈ pairs ∧ topicPartitions.contains topic = true) ∨
        ((subscribers.get? topic).getD SortedMap.empty).contains id = true := by
  induction pairs generalizing subscribers with
  | nil => simp
  | cons pair rest ih =>
    rw [foldl_cons, ih]
    have one : (((addSubscriber topicPartitions subscribers pair).get? topic).getD
        SortedMap.empty).contains id = true <->
          ((id, topic) = pair ∧ topicPartitions.contains topic = true) ∨
            ((subscribers.get? topic).getD SortedMap.empty).contains id = true := by
      rcases pair with ⟨newId, newTopic⟩
      unfold addSubscriber
      by_cases known : topicPartitions.contains newTopic = true
      · rw [if_pos known, get?_insert]
        by_cases same : topic = newTopic
        · subst same
          rw [if_pos rfl, getD_some, SortedMap.contains_insert]
          simp [known]
        · simp [same]
      · rw [if_neg known]
        constructor
        · exact .inr
        · rintro (⟨same, knownTopic⟩ | before)
          · exact absurd ((Prod.mk.inj same).2 ▸ knownTopic) known
          · exact before
    rw [one, mem_cons]
    constructor
    · rintro (⟨later, known⟩ | ⟨here, known⟩ | before)
      · exact .inl ⟨.inr later, known⟩
      · exact .inl ⟨.inl here, known⟩
      · exact .inr before
    · rintro (⟨here | later, known⟩ | before)
      · exact .inr (.inl ⟨here, known⟩)
      · exact .inl ⟨later, known⟩
      · exact .inr (.inr before)

theorem foldl_addSubscriber_keyed (topic : String)
    (found : (pairs.foldl (addSubscriber topicPartitions) subscribers).contains topic = true) :
    (topicPartitions.contains topic = true ∧ Exists fun id => (id, topic) ∈ pairs) ∨
      subscribers.contains topic = true := by
  induction pairs generalizing subscribers with
  | nil => exact .inr found
  | cons pair rest ih =>
    rcases ih _ found with ⟨known, id, later⟩ | here
    · exact .inl ⟨known, id, .tail pair later⟩
    · unfold addSubscriber at here
      split_ifs at here with known
      · rcases (contains_insert _ _ _ _).mp here with same | before
        · exact .inl ⟨same ▸ known, pair.1, same ▸ (.head _)⟩
        · exact .inr before
      · exact .inr here

end

variable {subscribed : SortedSet String}

variable {subs : Subscriptions} {topicPartitions : TopicPartitions}

theorem contains_subscribers {topic : String}
    (found : (subscribersPerTopic subs topicPartitions).get? topic = some subscribed) (id : String) :
    subscribed.contains id = true <->
      Subscribed subs id topic ∧ topicPartitions.contains topic = true := by
  have spec := foldl_addSubscriber_contains topicPartitions (subscriptionPairs subs)
    SortedMap.empty id topic
  rw [← subscribersPerTopic_eq, found, getD_some, mem_subscriptionPairs] at spec
  rw [spec]
  exact or_iff_left Bool.false_ne_true

section

variable (subs : Subscriptions) (topicPartitions : TopicPartitions)

theorem contains_subscribersPerTopic (topic : String) :
    (subscribersPerTopic subs topicPartitions).contains topic = true <->
      topicPartitions.contains topic = true ∧ Exists fun id => Subscribed subs id topic := by
  constructor
  · intro found
    rw [subscribersPerTopic_eq] at found
    rcases foldl_addSubscriber_keyed _ _ _ _ found with ⟨known, id, listed⟩ | never
    · exact ⟨known, id, (mem_subscriptionPairs subs id topic).mp listed⟩
    · cases never
  · rintro ⟨known, id, subscribed⟩
    have spec := (foldl_addSubscriber_contains topicPartitions (subscriptionPairs subs)
      SortedMap.empty id topic).mpr
        (.inl ⟨(mem_subscriptionPairs subs id topic).mpr subscribed, known⟩)
    rw [← subscribersPerTopic_eq] at spec
    rw [SortedMap.contains]
    cases found : (subscribersPerTopic subs topicPartitions).get? topic with
    | some _ => rfl
    | none =>
      rw [found] at spec
      cases spec

theorem mem_sortedPartitions (tp : TopicPartition) :
    tp ∈ sortedPartitions (subscribersPerTopic subs topicPartitions) topicPartitions <->
      (Exists fun id => Subscribed subs id tp.topic) ∧ InRange topicPartitions tp := by
  unfold sortedPartitions
  rw [(perm_insertionSort _ _).mem_iff]
  refine (mem_partitionsOfTopics topicPartitions _ tp).trans ?_
  rw [mem_keys_iff, contains_subscribersPerTopic]
  constructor
  · rintro ⟨⟨_, subscribed⟩, inRange⟩
    exact ⟨subscribed, inRange⟩
  · rintro ⟨subscribed, count, found, bounds⟩
    refine ⟨⟨?_, subscribed⟩, count, found, bounds⟩
    rw [SortedMap.contains, found]
    rfl

end

theorem sortedPartitions_nodup (subscribers : SortedMap String (SortedSet String))
    (topicPartitions : TopicPartitions) :
    (sortedPartitions subscribers topicPartitions).Nodup := by
  refine (perm_insertionSort _ _).nodup_iff.mpr ?_
  exact partitionsOfTopics_nodup topicPartitions subscribers.keys_nodup

/-! ## Choosing an owner -/

/-- One round of the search for the least loaded member. -/
def lighter (assignment : Assignment) (best : Option (Nat × String)) (id : String) :
    Option (Nat × String) :=
  match best with
  | none => some (load assignment id, id)
  | some (bestLoad, bestId) =>
    if load assignment id < bestLoad then some (load assignment id, id)
    else some (bestLoad, bestId)

theorem foldl_lighter_spec (assignment : Assignment) (ids : List String)
    (best : Option (Nat × String)) (someId : ids ≠ [] ∨ best.isSome = true) :
    Exists fun result => ids.foldl (lighter assignment) best = some result ∧
      ((result.2 ∈ ids ∧ result.1 = load assignment result.2) ∨ best = some result) := by
  induction ids generalizing best with
  | nil =>
    rcases someId with impossible | present
    · exact absurd rfl impossible
    · rcases isSome_iff_exists.mp present with ⟨result, same⟩
      exact ⟨result, same, .inr same⟩
  | cons id rest ih =>
    have present : (lighter assignment best id).isSome = true := by
      unfold lighter
      cases best with
      | none => rfl
      | some held =>
        dsimp only
        split_ifs <;> rfl
    rcases ih (lighter assignment best id) (.inr present) with
      ⟨result, same, ⟨later, isLoad⟩ | here⟩
    · exact ⟨result, same, .inl ⟨.tail id later, isLoad⟩⟩
    · refine ⟨result, same, ?_⟩
      unfold lighter at here
      cases best with
      | none => exact .inl (some.inj here ▸ ⟨.head _, rfl⟩)
      | some held =>
        dsimp only at here
        split_ifs at here
        · exact .inl (some.inj here ▸ ⟨.head _, rfl⟩)
        · exact .inr here

variable {id : String}

theorem leastLoaded_spec (someId : subscribed.contains id = true) (assignment : Assignment) :
    Exists fun result => leastLoaded subscribed assignment = some result ∧
      subscribed.contains result.2 = true ∧ result.1 = load assignment result.2 := by
  have listed := (subscribed.mem_keys_iff id).mpr someId
  rcases foldl_lighter_spec assignment subscribed.keys none
      (.inl (ne_nil_of_mem listed)) with ⟨result, same, ⟨member, isLoad⟩ | impossible⟩
  · exact ⟨result, same, (subscribed.mem_keys_iff result.2).mp member, isLoad⟩
  · cases impossible

theorem chooseAssignmentOwner_spec (someId : subscribed.contains id = true) (tp : TopicPartition)
    (prevOwner : SortedMap TopicPartition String) (assignment : Assignment) :
    Exists fun chosen =>
      chooseAssignmentOwner tp subscribed prevOwner assignment = some chosen ∧
        subscribed.contains chosen = true := by
  rcases leastLoaded_spec someId assignment with ⟨⟨minLoad, least⟩, found, member, _⟩
  have picked : pickLeastLoaded subscribed assignment = some least := by
    rw [pickLeastLoaded, found]
    rfl
  unfold chooseAssignmentOwner
  rw [found, picked]
  cases prevOwner.get? tp with
  | none => exact ⟨least, rfl, member⟩
  | some prev =>
    dsimp only
    by_cases stillSubscribed : subscribed.contains prev = true
    · rw [if_pos stillSubscribed]
      by_cases light : load assignment prev ≤ minLoad
      · rw [if_pos light]
        exact ⟨prev, rfl, stillSubscribed⟩
      · rw [if_neg light]
        exact ⟨least, rfl, member⟩
    · rw [if_neg stillSubscribed]
      exact ⟨least, rfl, member⟩

variable {assignment : Assignment}

theorem placePartitions_distributes {ids : List String}
    (prevOwner : SortedMap TopicPartition String)
    (subscriberIds : forall id topic, Subscribed subs id topic -> id ∈ ids)
    (remaining : List TopicPartition) {work : List TopicPartition}
    (placeable : forall tp, tp ∈ remaining ->
      tp ∈ sortedPartitions (subscribersPerTopic subs topicPartitions) topicPartitions)
    (distributes : Distributes (Eligible subs topicPartitions) ids work assignment) :
    Distributes (Eligible subs topicPartitions) ids (work ++ remaining)
      (remaining.foldl (placePartition (subscribersPerTopic subs topicPartitions) prevOwner)
        assignment) := by
  induction remaining generalizing work assignment with
  | nil => simpa using distributes
  | cons tp rest ih =>
    have here := (mem_sortedPartitions subs topicPartitions tp).mp (placeable tp (.head _))
    rcases here with ⟨⟨id, subscribedId⟩, inRange⟩
    have known : topicPartitions.contains tp.topic = true := by
      rcases inRange with ⟨count, found, _⟩
      rw [SortedMap.contains, found]
      rfl
    have keyed := (contains_subscribersPerTopic subs topicPartitions tp.topic).mpr
      ⟨known, id, subscribedId⟩
    rcases isSome_iff_exists.mp keyed with ⟨subscribed, found⟩
    have isSubscriber := (contains_subscribers found id).mpr ⟨subscribedId, known⟩
    rcases chooseAssignmentOwner_spec isSubscriber tp prevOwner assignment with
      ⟨chosen, chose, member⟩
    have chosenSubscribed := ((contains_subscribers found chosen).mp member).1
    have placed : placePartition (subscribersPerTopic subs topicPartitions) prevOwner
        assignment tp = assignment.push chosen tp := by
      unfold placePartition
      rw [found]
      dsimp only
      rw [chose]
    rw [foldl_cons, placed]
    have pushed := distributes.push (subscriberIds chosen tp.topic chosenSubscribed)
      ⟨chosenSubscribed, inRange⟩
    refine (ih ?_ pushed).perm perm_middle.symm
    exact fun other inside => placeable other (.tail tp inside)

/-! ## Balancing -/

variable {target : String}

theorem mem_foldl_choice {choose : Option String -> String -> Option String}
    (picks : forall best id, choose best id = some id ∨ choose best id = best)
    (ids : List String) {best : Option String}
    (found : ids.foldl choose best = some target) : target ∈ ids ∨ best = some target := by
  induction ids generalizing best with
  | nil => exact .inr found
  | cons id rest ih =>
    rcases ih found with later | here
    · exact .inl (.tail id later)
    · rcases picks best id with picked | kept
      · have same := some.inj (picked.symm.trans here)
        exact .inl (same ▸ (.head _))
      · exact .inr (kept.symm.trans here)

variable {subscribers : List String}

theorem lighterTarget_spec {ownerLoad : Nat}
    (found : lighterTarget assignment ownerLoad subscribers = some target) :
    target ∈ subscribers ∧ load assignment target + 1 < ownerLoad := by
  refine (mem_foldl_choice (fun best id => ?_) _ found).elim (fun member => ?_) nofun
  · cases best with
    | none => exact .inl rfl
    | some current =>
      dsimp only
      split_ifs
      · exact .inl rfl
      · exact .inr rfl
  · have parts := mem_filter.mp member
    exact ⟨parts.1, of_decide_eq_true parts.2⟩

/-- There is a target as long as one member may be it. -/
theorem lighterTarget_ne_none {ownerLoad : Nat} {other : String}
    (candidate : other ∈ subscribers.filter
      (fun id => decide (ownerLoad > load assignment id + 1))) :
    lighterTarget assignment ownerLoad subscribers ≠ none := by
  unfold lighterTarget
  generalize subscribers.filter (fun id => decide (ownerLoad > load assignment id + 1)) =
    candidates at candidate ⊢
  rcases eq_nil_or_concat candidates with rfl | ⟨front, last, rfl⟩
  · cases candidate
  · rw [concat_eq_append, foldl_append, foldl_cons, foldl_nil]
    split
    · exact some_ne_none _
    · split_ifs <;> exact some_ne_none _

variable {memberIds : List String}

/-- The subscribers that a balance pass looks at. -/
theorem mem_subscribers {topic : String} :
    id ∈ memberIds.filter (fun id =>
        ((subs.get? id).map (fun topics => topics.contains topic)).getD false) <->
      id ∈ memberIds ∧ Subscribed subs id topic := by
  rw [mem_filter, Subscribed]
  refine and_congr_right fun _ => ?_
  cases subs.get? id with
  | none | some => simp

/-- A partition moves only to a member that subscribes to its topic and holds at least two
partitions less than its owner. -/
theorem balanceTarget_spec {prevOwner : SortedMap TopicPartition String}
    {partition : TopicPartition} {owner : String}
    (found : balanceTarget memberIds subs prevOwner assignment partition owner = some target) :
    target ∈ memberIds ∧ Subscribed subs target partition.topic ∧
      load assignment target + 1 < load assignment owner := by
  rw [<- and_assoc, <- mem_subscribers]
  dsimp only [balanceTarget] at found
  split_ifs at found
  cases previously : prevOwner.get? partition with
  | none =>
    rw [previously] at found
    exact lighterTarget_spec found
  | some previous =>
    rw [previously] at found
    dsimp only at found
    split_ifs at found with goesBack
    · exact some.inj found ▸ goesBack.2
    · exact lighterTarget_spec found

/-- The owners that a pass still has to look at are the owners. -/
def Pending (assignment : Assignment) (pending : List (TopicPartition × String)) : Prop :=
  (pending.map Prod.fst).Nodup ∧
    forall entry, entry ∈ pending -> entry.1 ∈ assignment.bucket entry.2

theorem mem_bucket_move {owner holder : String}
    {moved tp : TopicPartition} (different : tp ≠ moved) (held : tp ∈ assignment.bucket holder) :
    tp ∈ ((assignment.erase owner moved).push target moved).bucket holder := by
  have kept : tp ∈ (assignment.erase owner moved).bucket holder := by
    rw [bucket_erase]
    split_ifs with same
    · exact (mem_erase_of_ne different).mpr (same ▸ held)
    · exact held
  rw [push, bucket_extend]
  split_ifs with same
  · exact mem_append_left _ (same ▸ kept)
  · exact kept

theorem ownedPartitions_pending (distinct : assignment.items.Nodup) :
    Pending assignment (ownedPartitions assignment) := by
  have same : (ownedPartitions assignment).Perm (ownerPairs assignment) := perm_insertionSort _ _
  constructor
  · refine (same.map Prod.fst).nodup_iff.mpr ?_
    rw [map_fst_ownerPairs]
    exact distinct
  · rintro ⟨tp, owner⟩ member
    exact (mem_ownerPairs assignment tp owner).mp (same.mem_iff.mp member)

section Balancing

variable (memberIds : List String) (subs : Subscriptions)
  (prevOwner : SortedMap TopicPartition String) (maxIters : Nat)
  {topicPartitions : TopicPartitions} {work : List TopicPartition}

theorem balancePass_induction (invariant : Balance -> Prop)
    (keeps : forall state partition owner target, invariant state ->
      partition ∈ state.assignment.bucket owner ->
      balanceTarget memberIds subs prevOwner state.assignment partition owner = some target ->
      invariant ⟨(state.assignment.erase owner partition).push target partition,
        state.moves + 1, true⟩)
    (pending : List (TopicPartition × String)) (state : Balance)
    (waiting : Pending state.assignment pending) (holds : invariant state) :
    invariant (balancePass memberIds subs prevOwner maxIters state pending).2 := by
  induction pending generalizing state with
  | nil => exact holds
  | cons entry rest ih =>
    rcases entry with ⟨partition, owner⟩
    have parts := nodup_cons.mp waiting.1
    have held := waiting.2 (partition, owner) (.head _)
    rw [balancePass]
    by_cases stopped : state.moves ≥ maxIters
    · rw [if_pos stopped]
      exact holds
    · rw [if_neg stopped]
      cases chosen : balanceTarget memberIds subs prevOwner state.assignment partition owner with
      | none =>
        refine ih state ⟨parts.2, ?_⟩ holds
        exact fun entry member => waiting.2 entry (.tail _ member)
      | some target =>
        refine ih _ ⟨parts.2, ?_⟩ (keeps state partition owner target holds held chosen)
        intro entry member
        refine mem_bucket_move ?_ (waiting.2 entry (.tail _ member))
        exact fun same => parts.1 (same ▸ mem_map.mpr ⟨entry, member, rfl⟩)

theorem balanceLoop_distributes (distinct : work.Nodup) (fuel : Nat) (moves : Nat)
    (distributes : Distributes (Eligible subs topicPartitions) memberIds work assignment) :
    Distributes (Eligible subs topicPartitions) memberIds work
      (balanceLoop memberIds subs prevOwner maxIters fuel assignment moves) := by
  induction fuel generalizing assignment moves with
  | zero => exact distributes
  | succ fuel ih =>
    have passed := balancePass_induction memberIds subs prevOwner maxIters
      (fun state => Distributes (Eligible subs topicPartitions) memberIds work state.assignment)
      (fun _ partition owner _ distributes held chosen => by
        have targetSpec := balanceTarget_spec chosen
        have inRange := (distributes.eligible owner partition held).2
        exact distributes.move held targetSpec.1 ⟨targetSpec.2.1, inRange⟩)
      (ownedPartitions assignment) ⟨assignment, moves, false⟩
      (ownedPartitions_pending (distributes.nodup distinct)) distributes
    rw [balanceLoop]
    split
    · next state same =>
        rw [same] at passed
        exact passed
    · next state same =>
        rw [same] at passed
        split_ifs
        · exact ih state.moves passed
        · exact passed

/-! ## The bound on the passes -/

/-- What a pass does to the counter: a pass that changed something and ran to
its end counted at least one more move, within the bound. -/
theorem balancePass_moves (pending : List (TopicPartition × String)) (state : Balance) :
    let result := balancePass memberIds subs prevOwner maxIters state pending
    state.moves ≤ result.2.moves ∧
      (result.2.modified = true -> state.modified = true ∨ state.moves < result.2.moves) ∧
      (state.moves ≤ maxIters -> result.2.moves ≤ maxIters) := by
  induction pending generalizing state with
  | nil => exact ⟨Nat.le_refl _, .inl, id⟩
  | cons entry rest ih =>
    rcases entry with ⟨partition, owner⟩
    rw [balancePass]
    by_cases stopped : state.moves ≥ maxIters
    · rw [if_pos stopped]
      exact ⟨Nat.le_refl _, .inl, id⟩
    · rw [if_neg stopped]
      cases balanceTarget memberIds subs prevOwner state.assignment partition owner with
      | none => exact ih state
      | some target =>
        have later := ih ⟨(state.assignment.erase owner partition).push target partition,
            state.moves + 1, true⟩
        dsimp only at later ⊢
        refine ⟨by omega, fun _ => .inr (by omega), fun _ => later.2.2 (by omega)⟩

end Balancing

/-- The general path gives every partition of a subscribed topic to exactly
one of its subscribers. -/
theorem generalAssign_distributes {ids : List String} (current : Assignment)
    (topicPartitions : TopicPartitions)
    (subscriberIds : forall id topic, Subscribed subs id topic -> id ∈ ids) :
    Distributes (Eligible subs topicPartitions) ids
      (sortedPartitions (subscribersPerTopic subs topicPartitions) topicPartitions)
      (generalAssign ids subs current topicPartitions) := by
  refine Distributes.mapValues ?_ sorted sorted_perm
  refine balanceLoop_distributes ids subs _ _ (sortedPartitions_nodup _ _) _ 0 ?_
  exact placePartitions_distributes (previousOwners current) subscriberIds _
    (fun _ => id) (Distributes.ofKeys _ ids)

end Assignor
end Krabka
