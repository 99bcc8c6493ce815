import Krabka.Assignor.Range
import Mathlib.Data.List.Rotate

namespace Krabka
namespace Assignor

open Collections List SortedMap Buckets

variable {topic : String} {loop : Loop}

namespace Cyclic

/-!
# The round robin assignor

`round_robin.rs`: the partitions of the subscribed topics, by topic and index, go
one by one to the members in member order.  A cursor walks around the members and
skips those that do not subscribe to the topic at hand.

The cursor of the source is a `usize`.  It grows by at most the number of members
for each partition, and is a natural number here.
-/

/-- The first subscriber to `topic` from the member at the cursor on, with the
number of members it skips. -/
def advance (members : List KeyedMember) (topic : String) (next : Nat) :
    Option (Nat × KeyedMember) :=
  ((members.rotate (next % members.length)).zipIdx.find? fun member =>
    topic ∈ member.1.topics).map fun found => (found.2, found.1)

/-- The variables of the loop. -/
structure Loop where
  out : Assignment
  next : Nat

def place (members : List KeyedMember) (loop : Loop) (tp : TopicPartition) : Loop :=
  match advance members tp.topic loop.next with
  | none => loop
  | some (skipped, member) => ⟨giveTo loop.out member.id tp, loop.next + (skipped + 1)⟩

/-- Give out the partitions of one topic. -/
def placeTopic (members : List KeyedMember) (topicPartitions : TopicPartitions) (loop : Loop)
    (topic : String) : Loop :=
  match topicPartitions.get? topic with
  | none => loop
  | some count => (partitionsOf topic (max count 0)).foldl (place members) loop

def topicsOf (members : List KeyedMember) : SortedSet String :=
  SortedSet.ofValues (members.flatMap KeyedMember.topics)

def assign (members : List KeyedMember) (topicPartitions : TopicPartitions) : Assignment :=
  let out := ofKeys (members.map KeyedMember.id)
  if members = [] then out
  else
    let sorted := sortMembers members
    ((topicsOf sorted).keys.foldl (placeTopic sorted topicPartitions) ⟨out, 0⟩).out

/-! ## Exactly once -/

/-- The cursor finds a subscriber when there is one. -/
theorem advance_spec {members : List KeyedMember} (next : Nat)
    (someone : Exists fun member => member ∈ members ∧ topic ∈ member.topics) :
    Exists fun skipped => Exists fun member =>
      advance members topic next = some (skipped, member) ∧ member ∈ members ∧
        topic ∈ member.topics := by
  rcases someone with ⟨subscriber, isMember, subscribes⟩
  have inRotated : subscriber ∈ members.rotate (next % members.length) := mem_rotate.mpr isMember
  cases found : (members.rotate (next % members.length)).zipIdx.find? fun member =>
      topic ∈ member.1.topics with
  | none =>
    rcases getElem?_of_mem inRotated with ⟨index, isAt⟩
    have inZip : (subscriber, index) ∈ (members.rotate (next % members.length)).zipIdx :=
      mem_zipIdx_iff_getElem?.mpr isAt
    exact absurd (decide_eq_true subscribes) (find?_eq_none.mp found _ inZip)
  | some result =>
    refine ⟨result.2, result.1, ?_, ?_, ?_⟩
    · rw [advance, found]
      rfl
    · exact mem_rotate.mp (fst_mem_of_mem_zipIdx (mem_of_find?_eq_some found))
    · have isFound := find?_some found
      exact of_decide_eq_true isFound

theorem foldl_placeTopic (members : List KeyedMember) (topicPartitions : TopicPartitions)
    (topics : List String) (loop : Loop) :
    topics.foldl (placeTopic members topicPartitions) loop =
      (partitionsOfTopics topicPartitions topics).foldl (place members) loop := by
  induction topics generalizing loop with
  | nil => rfl
  | cons topic rest ih =>
    rw [foldl_cons, ih]
    unfold partitionsOfTopics
    rw [flatMap_cons, foldl_append, placeTopic]
    cases topicPartitions.get? topic with
    | none => rfl
    | some count =>
      have sameCount : partitionsOf topic (max count 0) = partitionsOf topic count := by
        have clipped : (max count 0).toNat = count.toNat := by omega
        rw [partitionsOf, partitionsOf, clipped]
      dsimp only
      rw [sameCount]

theorem foldl_place_distributes {members : List KeyedMember} (work : List TopicPartition)
    (someone : forall tp, tp ∈ work ->
      Exists fun member => member ∈ members ∧ tp.topic ∈ member.topics)
    {loop : Loop} {placed : List TopicPartition}
    (distributes : Distributes (SubscribesTo members) (members.map KeyedMember.id)
      placed loop.out) :
    Distributes (SubscribesTo members) (members.map KeyedMember.id) (work ++ placed)
      (work.foldl (place members) loop).out := by
  induction work generalizing loop placed with
  | nil => exact distributes
  | cons tp rest ih =>
    -- One round gives the partition to one subscriber.
    rcases advance_spec loop.next (someone tp (.head _)) with
      ⟨skipped, member, advanced, isMember, subscribes⟩
    have isKey : member.id ∈ members.map KeyedMember.id := mem_map.mpr ⟨member, isMember, rfl⟩
    have pushed := distributes.push isKey
      (⟨member, isMember, rfl, subscribes⟩ : SubscribesTo members member.id tp)
    rw [foldl_cons, place, advanced]
    dsimp only
    rw [giveTo_eq_push ((distributes.keyed _).mpr isKey)]
    have later := @ih (fun other isOther => someone other (.tail tp isOther))
      ⟨loop.out.push member.id tp, loop.next + (skipped + 1)⟩ (tp :: placed) pushed
    exact later.perm perm_middle

/-- The partitions to give out. -/
def workOf (members : List KeyedMember) (topicPartitions : TopicPartitions) :
    List TopicPartition :=
  partitionsOfTopics topicPartitions (topicsOf members).keys

section

variable (members : List KeyedMember) (topicPartitions : TopicPartitions)

include members topicPartitions

theorem mem_workOf (tp : TopicPartition) :
    tp ∈ workOf members topicPartitions <-> Wanted members topicPartitions tp := by
  rw [workOf, mem_partitionsOfTopics, mem_keys_iff, topicsOf, SortedSet.contains_ofValues,
    mem_flatMap]
  rfl

theorem assign_eq :
    assign members topicPartitions =
      ((workOf (sortMembers members) topicPartitions).foldl (place (sortMembers members))
        ⟨ofKeys ((sortMembers members).map KeyedMember.id), 0⟩).out := by
  have sameKeys : (ofKeys (members.map KeyedMember.id) : Assignment) =
      ofKeys ((sortMembers members).map KeyedMember.id) :=
    ofKeys_eq_of_perm ((sortMembers_perm members).map _).symm
  dsimp only [assign]
  split_ifs with noMember
  · subst noMember
    rfl
  · rw [foldl_placeTopic, sameKeys]
    rfl

theorem assign_distributes :
    Distributes (SubscribesTo (sortMembers members)) ((sortMembers members).map KeyedMember.id)
      (workOf (sortMembers members) topicPartitions) (assign members topicPartitions) := by
  rw [assign_eq]
  have started := Distributes.ofKeys (SubscribesTo (sortMembers members))
    ((sortMembers members).map KeyedMember.id)
  have placed := @foldl_place_distributes (sortMembers members)
    (workOf (sortMembers members) topicPartitions)
    (fun tp isWork => ((mem_workOf _ _ tp).mp isWork).1)
    ⟨ofKeys ((sortMembers members).map KeyedMember.id), 0⟩ [] started
  rw [append_nil] at placed
  exact placed

end

/-! ## Even loads -/

def EqualSubscriptions (members : List KeyedMember) : Prop :=
  forall left, left ∈ members -> forall right, right ∈ members -> forall topic,
    topic ∈ left.topics <-> topic ∈ right.topics

/-- The cursor counts the placed partitions, and the member at `index` has its
even part of them. -/
structure Turns (members : List KeyedMember) (loop : Loop) : Prop where
  known : forall id, id ∈ members.map KeyedMember.id -> loop.out.contains id = true
  even : forall index member, members[index]? = some member ->
    (loop.out.bucket member.id).length = Range.widthOf loop.next members.length index

theorem widthOf_succ {placed n index : Nat} (within : index < n) :
    Range.widthOf (placed + 1) n index =
      Range.widthOf placed n index + if index = placed % n then 1 else 0 := by
  have positive : 0 < n := Nat.zero_lt_of_lt within
  have below := Nat.mod_lt placed positive
  unfold Range.widthOf
  rw [Nat.add_div positive, Nat.add_mod]
  rcases lt_or_ge 1 n with several | single
  · rw [Nat.mod_eq_of_lt several, Nat.div_eq_of_lt several]
    by_cases wraps : n ≤ placed % n + 1
    · have last : placed % n + 1 = n := by omega
      rw [if_pos wraps, last, Nat.mod_self]
      split_ifs <;> omega
    · rw [if_neg wraps, Nat.mod_eq_of_lt (by omega : placed % n + 1 < n)]
      split_ifs <;> omega
  · have one : n = 1 := by omega
    subst one
    split_ifs <;> omega

theorem advance_of_all {members : List KeyedMember} (next : Nat)
    (all : forall member, member ∈ members -> topic ∈ member.topics) (someone : members ≠ []) :
    Exists fun member => members[next % members.length]? = some member ∧
      advance members topic next = some (0, member) := by
  have within : next % members.length < members.length :=
    Nat.mod_lt next (length_pos_iff.mpr someone)
  refine ⟨members[next % members.length], getElem?_eq_getElem within, ?_⟩
  have headed : (members.rotate (next % members.length))[0]? =
      some members[next % members.length] := by
    rw [getElem?_rotate (length_pos_iff.mpr someone), zero_add, Nat.mod_eq_of_lt within]
    exact getElem?_eq_getElem within
  cases rotated : members.rotate (next % members.length) with
  | nil =>
    rw [rotated] at headed
    cases headed
  | cons first rest =>
    rw [rotated] at headed
    have same : first = members[next % members.length] := Option.some.inj headed
    have subscribes : topic ∈ first.topics := by
      rw [same]
      exact all _ (getElem_mem within)
    rw [advance, rotated, zipIdx_cons, find?_cons_of_pos (by simpa using subscribes), same]
    rfl

section

variable {members : List KeyedMember} (distinct : (members.map KeyedMember.id).Nodup)

include distinct

theorem Turns.place {tp : TopicPartition} (turns : Turns members loop)
    (all : forall member, member ∈ members -> tp.topic ∈ member.topics) (someone : members ≠ []) :
    Turns members (place members loop tp) := by
  rcases advance_of_all loop.next all someone with ⟨chosen, isAt, advanced⟩
  have isMember := mem_of_getElem? isAt
  have isKnown := turns.known chosen.id (mem_map.mpr ⟨chosen, isMember, rfl⟩)
  have placed : Cyclic.place members loop tp = ⟨loop.out.push chosen.id tp, loop.next + 1⟩ := by
    rw [Cyclic.place, advanced]
    dsimp only
    rw [giveTo_eq_push isKnown]
  rw [placed]
  refine ⟨fun id isId => contains_extend (turns.known id isId), ?_⟩
  intro index member isIndex
  have within := (List.getElem?_eq_some_iff.mp isIndex).1
  rw [widthOf_succ within, push, bucket_extend]
  by_cases same : index = loop.next % members.length
  · have isChosen : member = chosen := by
      rw [same, isAt] at isIndex
      exact (Option.some.inj isIndex).symm
    rw [if_pos same, if_pos (congrArg KeyedMember.id isChosen), length_append,
      <- turns.even index member isIndex, isChosen]
    rfl
  · have different : member.id ≠ chosen.id := by
      intro sameId
      have sameMember := inj_on_of_nodup_map distinct (mem_of_getElem? isIndex) isMember sameId
      rw [sameMember] at isIndex
      have listed : (members.map KeyedMember.id)[index]? =
          (members.map KeyedMember.id)[loop.next % members.length]? := by
        rw [getElem?_map, getElem?_map, isIndex, isAt]
      rw [<- length_map KeyedMember.id] at within
      exact same ((getElem?_inj within distinct).mp listed)
    rw [if_neg same, if_neg different, add_zero]
    exact turns.even index member isIndex

theorem foldl_place_turns (someone : members ≠ []) (work : List TopicPartition)
    (all : forall tp, tp ∈ work -> forall member, member ∈ members -> tp.topic ∈ member.topics)
    (turns : Turns members loop) :
    Turns members (work.foldl (place members) loop) := by
  induction work generalizing loop with
  | nil => exact turns
  | cons tp rest ih =>
    exact ih (fun other isOther => all other (.tail tp isOther))
      (turns.place distinct (all tp (.head _)) someone)

theorem assign_even {topicPartitions : TopicPartitions} (equal : EqualSubscriptions members)
    {left right : KeyedMember} (isLeft : left ∈ members) (isRight : right ∈ members) :
    load (assign members topicPartitions) left.id ≤
      load (assign members topicPartitions) right.id + 1 := by
  have perm := sortMembers_perm members
  have sortedDistinct := (perm.map KeyedMember.id).nodup_iff.mpr distinct
  have inLeft := perm.mem_iff.mpr isLeft
  have inRight := perm.mem_iff.mpr isRight
  have started : Turns (sortMembers members)
      ⟨ofKeys ((sortMembers members).map KeyedMember.id), 0⟩ := by
    refine ⟨fun id isId => (contains_ofKeys _ id).mpr isId, fun index member isAt => ?_⟩
    rw [bucket_ofKeys]
    simp [Range.widthOf]
  have turns := foldl_place_turns sortedDistinct (ne_nil_of_mem inLeft)
    (workOf (sortMembers members) topicPartitions) (fun tp isWork member isMember => ?_) started
  · rcases getElem?_of_mem inLeft with ⟨leftIndex, atLeft⟩
    rcases getElem?_of_mem inRight with ⟨rightIndex, atRight⟩
    have leftEven := turns.even leftIndex left atLeft
    have rightEven := turns.even rightIndex right atRight
    rw [<- assign_eq] at leftEven rightEven
    unfold load
    rw [leftEven, rightEven]
    rcases le_total leftIndex rightIndex with before | before
    · exact (Range.widthOf_antitone _ _ before).2
    · exact Nat.le_succ_of_le (Range.widthOf_antitone _ _ before).1
  · rcases ((mem_workOf _ _ tp).mp isWork).1 with ⟨subscriber, isSubscriber, subscribes⟩
    exact (equal subscriber (perm.mem_iff.mp isSubscriber) member (perm.mem_iff.mp isMember)
      tp.topic).mp subscribes

end

end Cyclic

/-- The range and the round robin assignor give every wanted partition to one
subscriber.  Range gives contiguous even intervals in member order, round robin
even loads.  Neither depends on the order of the members. -/
theorem range_and_cyclic_spread (members : List KeyedMember) (topicPartitions : TopicPartitions)
    (distinct : (members.map KeyedMember.id).Nodup)
    (countable : Range.Countable (sortMembers members) topicPartitions) :
    SpreadsOnce members topicPartitions (Range.assignMembers members topicPartitions) ∧
    SpreadsOnce members topicPartitions (Cyclic.assign members topicPartitions) ∧
    (forall topic count, topicPartitions.get? topic = some count -> 0 < count ->
      subscribersOf (sortMembers members) topic ≠ [] ->
        Range.TiledInOrder topic count.toNat (subscribersOf (sortMembers members) topic)
          (Range.assignMembers members topicPartitions)) ∧
    (Cyclic.EqualSubscriptions members ->
      forall left, left ∈ members -> forall right, right ∈ members ->
        load (Cyclic.assign members topicPartitions) left.id ≤
          load (Cyclic.assign members topicPartitions) right.id + 1) ∧
    (DistinctInstances members -> forall other, members.Perm other ->
      Range.assignMembers other topicPartitions = Range.assignMembers members topicPartitions ∧
        Cyclic.assign other topicPartitions = Cyclic.assign members topicPartitions) := by
  have perm := sortMembers_perm members
  refine ⟨?_, ?_, ?_, ?_, ?_⟩
  · refine SpreadsOnce.of_distributes
      (distributes_reorder (Range.assignMembers_distributes countable) perm)
      (partitionsOfTopics_nodup _ (topicPartitions.keys_nodup.filter _)) fun tp => ?_
    exact (Range.mem_work_iff_wanted _ _ tp).trans (wanted_iff_of_perm perm _ tp)
  · refine SpreadsOnce.of_distributes
      (distributes_reorder (Cyclic.assign_distributes members topicPartitions) perm)
      (partitionsOfTopics_nodup _ (keys_nodup _)) fun tp => ?_
    exact (Cyclic.mem_workOf _ _ tp).trans (wanted_iff_of_perm perm _ tp)
  · intro topic count found positive someone
    exact Range.assignMembers_tiled distinct countable found positive someone
  · intro equal left isLeft right isRight
    exact Cyclic.assign_even distinct equal isLeft isRight
  · intro instances other same
    have sameSorted := sortMembers_eq_of_perm distinct instances same
    refine ⟨?_, ?_⟩
    · rw [Range.assignMembers, Range.assignMembers, sameSorted]
    · rw [Cyclic.assign_eq, Cyclic.assign_eq, sameSorted]

/-- Three subscribers of one topic, the second of them a static member. -/
def threeMembers : List KeyedMember :=
  [⟨⟨"b", none⟩, ["t"]⟩, ⟨⟨"c", some "i"⟩, ["t"]⟩, ⟨⟨"a", none⟩, ["t"]⟩]

theorem range_and_cyclic_spread_three :
    (threeMembers.map KeyedMember.id).Nodup ∧ DistinctInstances threeMembers ∧
      Range.TiledInOrder "t" 4 ["c", "a", "b"]
        (Range.assignMembers threeMembers (SortedMap.ofList [("t", 4)])) ∧
      load (Cyclic.assign threeMembers (SortedMap.ofList [("t", 4)])) "c" ≤
        load (Cyclic.assign threeMembers (SortedMap.ofList [("t", 4)])) "b" + 1 ∧
      Cyclic.assign threeMembers.reverse (SortedMap.ofList [("t", 4)]) =
        Cyclic.assign threeMembers (SortedMap.ofList [("t", 4)]) := by
  have distinct : (threeMembers.map KeyedMember.id).Nodup := by decide
  have instances : DistinctInstances threeMembers := by decide
  have countable : Range.Countable (sortMembers threeMembers) (SortedMap.ofList [("t", 4)]) := by
    intro topic count found
    have listed := mem_singleton.mp (mem_of_get?_ofList found)
    rw [(Prod.mk.inj listed).2]
    exact .inl (by decide)
  rcases range_and_cyclic_spread threeMembers (SortedMap.ofList [("t", 4)]) distinct countable with
    ⟨_, _, tiled, even, sameOrder⟩
  refine ⟨distinct, instances, tiled "t" 4 rfl (by decide) (by decide), ?_, ?_⟩
  · refine even (fun left isLeft right isRight topic => ?_) ⟨⟨"c", some "i"⟩, ["t"]⟩ (by decide)
      ⟨⟨"b", none⟩, ["t"]⟩ (by decide)
    have sameTopics : forall member, member ∈ threeMembers -> member.topics = ["t"] := by decide
    rw [sameTopics left isLeft, sameTopics right isRight]
  · exact (sameOrder instances threeMembers.reverse threeMembers.reverse_perm.symm).2

/-- Two members with one `group.instance.id` compare equal.  The stable sort keeps
their input order, and the partition goes to the first one. -/
theorem shared_instance_keeps_input_order :
    ¬ forall (members other : List KeyedMember) (topicPartitions : TopicPartitions),
      (members.map KeyedMember.id).Nodup ->
      (forall topic count, topicPartitions.get? topic = some count -> 0 < count) ->
      members.Perm other ->
        Range.assignMembers other topicPartitions = Range.assignMembers members topicPartitions ∧
          Cyclic.assign other topicPartitions = Cyclic.assign members topicPartitions := by
  intro independent
  have same := independent [⟨⟨"a", some "i"⟩, ["t"]⟩, ⟨⟨"b", some "i"⟩, ["t"]⟩]
    [⟨⟨"b", some "i"⟩, ["t"]⟩, ⟨⟨"a", some "i"⟩, ["t"]⟩] (SortedMap.ofList [("t", 1)]) (by decide)
    (fun topic count found => ?_) (List.Perm.swap ..)
  · have given : (Range.assignMembers [⟨⟨"a", some "i"⟩, ["t"]⟩, ⟨⟨"b", some "i"⟩, ["t"]⟩]
        (SortedMap.ofList [("t", 1)])).get? "a" = some [⟨"t", 0⟩] := by decide
    have swapped : (Range.assignMembers [⟨⟨"b", some "i"⟩, ["t"]⟩, ⟨⟨"a", some "i"⟩, ["t"]⟩]
        (SortedMap.ofList [("t", 1)])).get? "a" = some [] := by decide
    rw [same.1, given] at swapped
    cases swapped
  · rw [(Prod.mk.inj (mem_singleton.mp (mem_of_get?_ofList found))).2]
    decide

end Assignor
end Krabka
