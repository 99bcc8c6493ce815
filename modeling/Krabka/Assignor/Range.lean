import Krabka.Assignor.Keyed

namespace Krabka
namespace Assignor
namespace Range

open Collections List Buckets

/-!
# The range assignor

`range.rs`: the subscribers of a topic get its partitions in contiguous ranges,
in member order.  The first members get one partition more when the count does
not divide evenly.

The assignment is read as a list of shares, one for each topic and subscriber,
that are appended to the lists of the members.  The ranges of one topic tile its
partitions.
-/

def I32_MAX : Int := 2147483647

def toI32 (value : Nat) : Int := min (value : Int) I32_MAX

def span (topic : String) (next take : Int) : List TopicPartition :=
  (List.range take.toNat).map fun offset : Nat => ⟨topic, next + (offset : Int)⟩

/-- The variables of the loop over the subscribers of a topic. -/
structure Loop where
  out : Assignment
  next : Int

/-- Give the next partitions to the subscriber at an index. -/
def takeNext (topic : String) (per extras : Int) (loop : Loop) (member : String × Nat) : Loop :=
  let extra := if toI32 member.2 < extras then 1 else 0
  let take := per + extra
  ⟨(span topic loop.next take).foldl (fun out tp => giveTo out member.1 tp) loop.out,
    loop.next + take⟩

def assignTopic (members : List KeyedMember) (out : Assignment) (entry : String × Int) :
    Assignment :=
  let subscribed := subscribersOf members entry.1
  if subscribed = [] ∨ entry.2 ≤ 0 then out
  else
    let n := toI32 subscribed.length
    let per := entry.2 / n
    let extras := entry.2 % n
    (subscribed.zipIdx.foldl (takeNext entry.1 per extras) ⟨out, 0⟩).out

def assignMembers (members : List KeyedMember) (topicPartitions : TopicPartitions) : Assignment :=
  let sorted := sortMembers members
  topicPartitions.entries.foldl (assignTopic sorted)
    (ofKeys (sorted.map KeyedMember.id))

/-! ## The ranges of one topic -/

/-- The first partition of the subscriber at `index`. -/
def firstOf (count n index : Nat) : Nat := index * (count / n) + min index (count % n)

/-- How many partitions the subscriber at `index` gets. -/
def widthOf (count n index : Nat) : Nat := count / n + if index < count % n then 1 else 0

theorem firstOf_zero (count n : Nat) : firstOf count n 0 = 0 := by
  simp [firstOf]

theorem firstOf_succ (count n index : Nat) :
    firstOf count n (index + 1) = firstOf count n index + widthOf count n index := by
  unfold firstOf widthOf
  rw [Nat.succ_mul]
  split_ifs with isExtra <;> omega

theorem firstOf_all (count : Nat) {n : Nat} (positive : 0 < n) : firstOf count n n = count := by
  have below := Nat.mod_lt count positive
  have whole := Nat.div_add_mod count n
  rw [firstOf, min_eq_right (le_of_lt below)]
  exact whole

theorem widthOf_antitone (count n : Nat) {index later : Nat} (before : index ≤ later) :
    widthOf count n later ≤ widthOf count n index ∧
      widthOf count n index ≤ widthOf count n later + 1 := by
  unfold widthOf
  split_ifs with laterExtra isExtra isExtra <;> omega

def interval (topic : String) (first size : Nat) : List TopicPartition :=
  (List.range' first size).map fun index : Nat => ⟨topic, (index : Int)⟩

theorem interval_append (topic : String) (first size more : Nat) :
    interval topic first size ++ interval topic (first + size) more =
      interval topic first (size + more) := by
  have whole := @List.range'_append first size more 1
  rw [one_mul] at whole
  rw [interval, interval, interval, <- map_append, whole]

theorem span_eq_interval (topic : String) (first size : Nat) :
    span topic (first : Int) (size : Int) = interval topic first size := by
  rw [span, interval, range'_eq_map_range, map_map, Int.toNat_natCast]
  refine map_congr_left fun offset _ => ?_
  rw [Function.comp_apply, Int.natCast_add]

variable {topic : String}

variable {count : Int}

/-- The saturated arithmetic of the loop gives the even sizes, unless a topic
has `i32::MAX` partitions and more than `i32::MAX` subscribers. -/
theorem take_eq_widthOf {n index : Nat} (positive : 0 < count)
    (fits : count < I32_MAX ∨ (n : Int) ≤ I32_MAX) (within : index < n) :
    count / toI32 n + (if toI32 index < count % toI32 n then 1 else 0) =
      (widthOf count.toNat n index : Int) := by
  rcases Int.eq_ofNat_of_zero_le (le_of_lt positive) with ⟨total, rfl⟩
  rw [Int.toNat_natCast]
  unfold widthOf
  by_cases small : (n : Int) ≤ I32_MAX
  · have exactLength : toI32 n = (n : Int) := min_eq_left small
    have exactIndex : toI32 index = (index : Int) := min_eq_left (by omega)
    rw [exactLength, exactIndex, <- Int.natCast_div, <- Int.natCast_mod]
    split_ifs with one two two
    · rfl
    · omega
    · omega
    · rfl
  · have fewer : (total : Int) < I32_MAX := fits.resolve_right small
    have saturated : toI32 n = I32_MAX := min_eq_right (by omega)
    have below : total < n := by omega
    rw [saturated, Int.ediv_eq_zero_of_lt (by omega) fewer, Int.emod_eq_of_lt (by omega) fewer,
      Nat.div_eq_of_lt below, Nat.mod_eq_of_lt below]
    unfold toI32
    split_ifs with one two two
    · rfl
    · omega
    · omega
    · rfl

/-! ## Shares -/

/-- The partitions of the subscriber at an index. -/
def shareOf (topic : String) (count n : Nat) (member : String × Nat) :
    String × List TopicPartition :=
  (member.1, interval topic (firstOf count n member.2) (widthOf count n member.2))

def sharesOf (members : List KeyedMember) (entry : String × Int) :
    List (String × List TopicPartition) :=
  let subscribed := subscribersOf members entry.1
  if entry.2 ≤ 0 then []
  else subscribed.zipIdx.map (shareOf entry.1 entry.2.toNat subscribed.length)

variable {out : Assignment}

theorem foldl_giveTo {member : String} (known : out.contains member = true)
    (given : List TopicPartition) :
    given.foldl (fun out tp => giveTo out member tp) out = out.extend member given := by
  induction given generalizing out with
  | nil => exact (extend_nil known).symm
  | cons tp rest ih =>
    rw [foldl_cons, giveTo_eq_push known, push, ih (contains_extend known), extend_extend]
    rfl

/-- The whole loop appends all shares of the topic. -/
theorem foldl_takeNext (topic : String) {n : Nat} (positive : 0 < count)
    (fits : count < I32_MAX ∨ (n : Int) ≤ I32_MAX) (subscribed : List String) (index : Nat)
    (within : index + subscribed.length ≤ n)
    (known : forall id, id ∈ subscribed -> out.contains id = true) :
    ((subscribed.zipIdx index).foldl (takeNext topic (count / toI32 n) (count % toI32 n))
        ⟨out, firstOf count.toNat n index⟩).out =
      out.extendAll ((subscribed.zipIdx index).map (shareOf topic count.toNat n)) := by
  induction subscribed generalizing index out with
  | nil => rfl
  | cons member rest ih =>
    have here : out.contains member = true := known member (.head _)
    rw [length_cons] at within
    -- One round of the loop appends one share.
    rw [zipIdx_cons, foldl_cons, takeNext, take_eq_widthOf positive fits (by omega),
      span_eq_interval, foldl_giveTo here, <- Int.natCast_add, <- firstOf_succ]
    refine ih (index + 1) (by omega) fun id isLater => ?_
    exact contains_extend (known id (.tail member isLater))

variable {members : List KeyedMember} {entry : String × Int}

theorem assignTopic_eq
    (fits : entry.2 < I32_MAX ∨ ((subscribersOf members entry.1).length : Int) ≤ I32_MAX)
    (known : forall id, id ∈ subscribersOf members entry.1 -> out.contains id = true) :
    assignTopic members out entry = out.extendAll (sharesOf members entry) := by
  unfold assignTopic sharesOf
  by_cases nothing : entry.2 ≤ 0
  · rw [if_pos (.inr nothing), if_pos nothing]
    rfl
  · by_cases noOne : subscribersOf members entry.1 = []
    · rw [if_pos (.inl noOne), if_neg nothing, noOne]
      rfl
    · rw [if_neg (not_or.mpr ⟨noOne, nothing⟩), if_neg nothing]
      have looped := foldl_takeNext entry.1 (not_le.mp nothing) fits
        (subscribersOf members entry.1) 0 (zero_add _).le known
      rw [firstOf_zero] at looped
      exact looped

def Countable (members : List KeyedMember) (topicPartitions : TopicPartitions) : Prop :=
  forall topic count, topicPartitions.get? topic = some count ->
    count < I32_MAX ∨ ((subscribersOf members topic).length : Int) ≤ I32_MAX

def allShares (members : List KeyedMember) (topicPartitions : TopicPartitions) :
    List (String × List TopicPartition) :=
  topicPartitions.entries.flatMap (sharesOf members)

variable {id : String}

theorem subscribersOf_subset (subscribes : id ∈ subscribersOf members topic) :
    id ∈ members.map KeyedMember.id := by
  rcases mem_map.mp subscribes with ⟨member, isMember, rfl⟩
  exact mem_map.mpr ⟨member, mem_of_mem_filter isMember, rfl⟩

variable {topicPartitions : TopicPartitions}

theorem foldl_assignTopic (countable : Countable members topicPartitions)
    (entries : List (String × Int))
    (listed : forall entry, entry ∈ entries -> topicPartitions.get? entry.1 = some entry.2)
    (known : forall id, id ∈ members.map KeyedMember.id -> out.contains id = true) :
    entries.foldl (assignTopic members) out =
      out.extendAll (entries.flatMap (sharesOf members)) := by
  induction entries generalizing out with
  | nil => rfl
  | cons entry rest ih =>
    have fits := countable entry.1 entry.2 (listed entry (.head _))
    have grown : forall shares : List (String × List TopicPartition), forall id,
        id ∈ members.map KeyedMember.id -> (out.extendAll shares).contains id = true := by
      intro shares id isMember
      induction shares generalizing out with
      | nil => exact known id isMember
      | cons share shares nested =>
        exact nested fun other isOther => contains_extend (known other isOther)
    rw [foldl_cons, assignTopic_eq fits fun id isSubscriber =>
      known id (subscribersOf_subset isSubscriber)]
    rw [ih (fun other isOther => listed other (mem_cons_of_mem entry isOther))
      (grown _), flatMap_cons]
    exact (foldl_append ..).symm

theorem assignMembers_eq (countable : Countable (sortMembers members) topicPartitions) :
    assignMembers members topicPartitions =
      (ofKeys ((sortMembers members).map KeyedMember.id)).extendAll
        (allShares (sortMembers members) topicPartitions) := by
  refine foldl_assignTopic countable _ (fun entry isEntry => ?_) fun id isMember => ?_
  · exact (SortedMap.mem_entries_iff _ entry.1 entry.2).mp isEntry
  · exact ((Distributes.ofKeys (fun _ _ => True) _).keyed id).mpr isMember

/-! ## Exactly once -/

/-- The ranges of a topic tile its partitions. -/
theorem flatMap_shareOf (topic : String) (count n : Nat) (subscribed : List String) (index : Nat) :
    Exists fun size => firstOf count n (index + subscribed.length) = firstOf count n index + size ∧
      ((subscribed.zipIdx index).map (shareOf topic count n)).flatMap Prod.snd =
        interval topic (firstOf count n index) size := by
  induction subscribed generalizing index with
  | nil => exact ⟨0, rfl, rfl⟩
  | cons member rest ih =>
    rcases ih (index + 1) with ⟨size, reached, tiled⟩
    refine ⟨widthOf count n index + size, ?_, ?_⟩
    · rw [length_cons, add_comm rest.length 1, <- add_assoc, reached, firstOf_succ, add_assoc]
    · rw [zipIdx_cons, map_cons, flatMap_cons, tiled, firstOf_succ, <- interval_append]
      rfl

theorem flatMap_sharesOf (someone : subscribersOf members entry.1 ≠ []) :
    (sharesOf members entry).flatMap Prod.snd = partitionsOf entry.1 entry.2 := by
  unfold sharesOf
  by_cases nothing : entry.2 ≤ 0
  · rw [if_pos nothing, partitionsOf, Int.toNat_of_nonpos nothing]
    rfl
  · rw [if_neg nothing]
    rcases flatMap_shareOf entry.1 entry.2.toNat (subscribersOf members entry.1).length
      (subscribersOf members entry.1) 0 with ⟨size, reached, tiled⟩
    rw [zero_add, firstOf_all _ (length_pos_iff.mpr someone), firstOf_zero, zero_add] at reached
    rw [tiled, firstOf_zero, <- reached, interval, partitionsOf, range_eq_range']

def subscribedTopics (members : List KeyedMember) (topicPartitions : TopicPartitions) :
    List String :=
  topicPartitions.keys.filter fun topic => subscribersOf members topic ≠ []

theorem flatMap_allShares (members : List KeyedMember) (topicPartitions : TopicPartitions) :
    (allShares members topicPartitions).flatMap Prod.snd =
      partitionsOfTopics topicPartitions (subscribedTopics members topicPartitions) := by
  have each (entries : List (String × Int))
      (listed : forall entry, entry ∈ entries -> topicPartitions.get? entry.1 = some entry.2) :
      (entries.flatMap (sharesOf members)).flatMap Prod.snd =
        partitionsOfTopics topicPartitions ((entries.map Prod.fst).filter fun topic =>
          subscribersOf members topic ≠ []) := by
    induction entries with
    | nil => rfl
    | cons entry rest ih =>
      have later := ih fun other isOther =>
        listed other (.tail entry isOther)
      rw [flatMap_cons, flatMap_append, later, map_cons, filter_cons]
      by_cases someone : subscribersOf members entry.1 ≠ []
      · rw [if_pos (decide_eq_true someone), flatMap_sharesOf someone]
        unfold partitionsOfTopics
        rw [flatMap_cons, listed entry mem_cons_self]
      · rw [if_neg (by simpa using someone)]
        have none : sharesOf members entry = [] := by
          unfold sharesOf
          rw [not_not.mp someone]
          exact ite_self []
        rw [none]
        rfl
  exact each topicPartitions.entries fun entry isEntry =>
    (SortedMap.mem_entries_iff _ entry.1 entry.2).mp isEntry

theorem mem_subscribersOf :
    id ∈ subscribersOf members topic <->
      Exists fun member => member ∈ members ∧ member.id = id ∧ topic ∈ member.topics := by
  rw [subscribersOf, mem_map]
  constructor
  · rintro ⟨member, kept, same⟩
    have parts := mem_filter.mp kept
    exact ⟨member, parts.1, same, of_decide_eq_true parts.2⟩
  · rintro ⟨member, isMember, same, subscribes⟩
    exact ⟨member, mem_filter.mpr ⟨isMember, decide_eq_true subscribes⟩, same⟩

theorem mem_work_iff_wanted (members : List KeyedMember) (topicPartitions : TopicPartitions)
    (tp : TopicPartition) :
    tp ∈ partitionsOfTopics topicPartitions (subscribedTopics members topicPartitions) <->
      Wanted members topicPartitions tp := by
  rw [mem_partitionsOfTopics, subscribedTopics, mem_filter, SortedMap.mem_keys_iff,
    decide_eq_true_iff]
  constructor
  · rintro ⟨⟨_, someone⟩, inRange⟩
    rcases exists_mem_of_ne_nil _ someone with ⟨id, subscribes⟩
    rcases mem_subscribersOf.mp subscribes with ⟨member, isMember, _, inTopics⟩
    exact ⟨⟨member, isMember, inTopics⟩, inRange⟩
  · rintro ⟨⟨member, isMember, inTopics⟩, inRange⟩
    rcases inRange with ⟨count, found, bounds⟩
    refine ⟨⟨?_, ne_nil_of_mem (mem_subscribersOf.mpr ⟨member, isMember, rfl, inTopics⟩)⟩,
      count, found, bounds⟩
    rw [SortedMap.contains, found]
    rfl

theorem mem_sharesOf {share : String × List TopicPartition}
    (isShare : share ∈ sharesOf members entry) :
    share.1 ∈ subscribersOf members entry.1 ∧ forall tp, tp ∈ share.2 -> tp.topic = entry.1 := by
  unfold sharesOf at isShare
  split_ifs at isShare
  · cases isShare
  · rcases mem_map.mp isShare with ⟨member, isMember, rfl⟩
    refine ⟨fst_mem_of_mem_zipIdx isMember, fun tp inside => ?_⟩
    rcases mem_map.mp inside with ⟨index, _, rfl⟩
    rfl

theorem assignMembers_distributes (countable : Countable (sortMembers members) topicPartitions) :
    Distributes (SubscribesTo (sortMembers members)) ((sortMembers members).map KeyedMember.id)
      (partitionsOfTopics topicPartitions (subscribedTopics (sortMembers members) topicPartitions))
      (assignMembers members topicPartitions) := by
  have started := Distributes.ofKeys (SubscribesTo (sortMembers members))
    ((sortMembers members).map KeyedMember.id)
  have extended := started.extendAll (allShares (sortMembers members) topicPartitions)
    (fun share isShare => ?_) (fun share isShare tp inside => ?_)
  · rw [append_nil, flatMap_allShares, <- assignMembers_eq countable] at extended
    exact extended
  · rcases mem_flatMap.mp isShare with ⟨entry, _, isOfEntry⟩
    exact subscribersOf_subset (mem_sharesOf isOfEntry).1
  · rcases mem_flatMap.mp isShare with ⟨entry, _, isOfEntry⟩
    have parts := mem_sharesOf isOfEntry
    rcases mem_subscribersOf.mp parts.1 with ⟨member, isMember, same, inTopics⟩
    exact ⟨member, isMember, same, (parts.2 tp inside) ▸ inTopics⟩

/-! ## Contiguous ranges -/

/-- The subscribers of a topic hold contiguous intervals of its `count`
partitions, in order, whose sizes differ by at most one, the larger ones first. -/
def TiledInOrder (topic : String) (count : Nat) (subscribed : List String) (out : Assignment) :
    Prop :=
  Exists fun first : Nat -> Nat => Exists fun size : Nat -> Nat =>
    first 0 = 0 ∧ (forall index, first (index + 1) = first index + size index) ∧
    first subscribed.length = count ∧
    (forall index later, index ≤ later ->
      size later ≤ size index ∧ size index ≤ size later + 1) ∧
    forall index id, subscribed[index]? = some id ->
      (out.bucket id).filter (fun tp => tp.topic = topic) =
        interval topic (first index) (size index)

theorem filter_zipIdx {subscribed : List String} (distinct : subscribed.Nodup) {position : Nat}
    (found : subscribed[position]? = some id) (index : Nat) :
    (subscribed.zipIdx index).filter (fun member => member.1 = id) = [(id, index + position)] := by
  induction subscribed generalizing position index with
  | nil => cases found
  | cons member rest ih =>
    have parts := nodup_cons.mp distinct
    rw [zipIdx_cons]
    cases position with
    | zero =>
      have same : member = id := Option.some.inj found
      rw [filter_cons_of_pos (by simpa using same), same, add_zero]
      refine congrArg (List.cons _) (filter_eq_nil_iff.mpr fun other isOther isId => ?_)
      have sameId : other.1 = id := of_decide_eq_true isId
      refine parts.1 (same ▸ sameId ▸ ?_)
      exact fst_mem_of_mem_zipIdx isOther
    | succ position =>
      have later : rest[position]? = some id := found
      have different : member ≠ id := fun same =>
        parts.1 (same ▸ mem_of_getElem? later)
      rw [filter_cons_of_neg (by simpa using different), ih parts.2 later (index + 1)]
      refine congrArg (fun at_ => [(id, at_)]) ?_
      omega

theorem flatMap_if {Entry Item : Type} (entries : List Entry) (keep : Entry -> Prop)
    [DecidablePred keep] (items : Entry -> List Item) :
    (entries.flatMap fun entry => if keep entry then items entry else []) =
      (entries.filter fun entry => keep entry).flatMap items := by
  induction entries with
  | nil => rfl
  | cons entry rest ih =>
    rw [flatMap_cons, ih, filter_cons]
    by_cases kept : keep entry
    · rw [if_pos kept, if_pos (decide_eq_true kept), flatMap_cons]
    · rw [if_neg kept, if_neg (by simpa using kept), nil_append]

theorem filter_bucket_assignMembers (countable : Countable (sortMembers members) topicPartitions)
    (found : topicPartitions.get? topic = some count) (id : String) :
    ((assignMembers members topicPartitions).bucket id).filter (fun tp => tp.topic = topic) =
      ((sharesOf (sortMembers members) (topic, count)).filter fun share => share.1 = id).flatMap
        Prod.snd := by
  have perEntry (entry : String × Int) :
      List.filter (fun tp : TopicPartition => tp.topic = topic)
        (((sharesOf (sortMembers members) entry).filter fun share => share.1 = id).flatMap
          Prod.snd) =
      if entry.1 = topic then
        ((sharesOf (sortMembers members) entry).filter fun share => share.1 = id).flatMap Prod.snd
      else [] := by
    have ofEntry : forall tp, tp ∈ ((sharesOf (sortMembers members) entry).filter fun share =>
        share.1 = id).flatMap Prod.snd -> tp.topic = entry.1 := by
      intro tp inside
      rcases mem_flatMap.mp inside with ⟨share, isShare, held⟩
      exact (mem_sharesOf (mem_of_mem_filter isShare)).2 tp held
    by_cases same : entry.1 = topic
    · rw [if_pos same]
      exact filter_eq_self.mpr fun tp inside =>
        decide_eq_true ((ofEntry tp inside).trans same)
    · rw [if_neg same]
      refine filter_eq_nil_iff.mpr fun tp inside isTopic => same ?_
      exact (ofEntry tp inside).symm.trans (of_decide_eq_true isTopic)
  have onlyTopic := topicPartitions.filter_entries_key topic
  rw [found] at onlyTopic
  rw [assignMembers_eq countable, bucket_extendAll, bucket_ofKeys, nil_append,
    allShares, @filter_flatMap _ (String × List TopicPartition) _ _ fun share => share.1 = id,
    flatMap_assoc, filter_flatMap]
  simp only [perEntry]
  rw [flatMap_if, onlyTopic]
  exact append_nil _

theorem assignMembers_tiled (distinct : (members.map KeyedMember.id).Nodup)
    (countable : Countable (sortMembers members) topicPartitions)
    (found : topicPartitions.get? topic = some count) (positive : 0 < count)
    (someone : subscribersOf (sortMembers members) topic ≠ []) :
    TiledInOrder topic count.toNat (subscribersOf (sortMembers members) topic)
      (assignMembers members topicPartitions) := by
  have subscribersDistinct : (subscribersOf (sortMembers members) topic).Nodup := by
    have sortedDistinct := ((sortMembers_perm members).map KeyedMember.id).nodup_iff.mpr distinct
    exact sortedDistinct.sublist (filter_sublist.map _)
  refine ⟨firstOf count.toNat (subscribersOf (sortMembers members) topic).length,
    widthOf count.toNat (subscribersOf (sortMembers members) topic).length, firstOf_zero _ _,
    firstOf_succ _ _, firstOf_all _ (length_pos_iff.mpr someone),
    fun index later before => widthOf_antitone _ _ before, fun index id isAt => ?_⟩
  rw [filter_bucket_assignMembers countable found, sharesOf]
  rw [if_neg (not_le.mpr positive), filter_map]
  have only := filter_zipIdx subscribersDistinct isAt 0
  rw [zero_add] at only
  have compose : ((fun share : String × List TopicPartition => decide (share.1 = id)) ∘
      shareOf topic count.toNat (subscribersOf (sortMembers members) topic).length) =
        fun member : String × Nat => decide (member.1 = id) := rfl
  rw [compose, only]
  exact append_nil _

end Range
end Assignor
end Krabka
