import Krabka.Assignor.Claims
import Mathlib.Algebra.BigOperators.Group.List.Basic
import Mathlib.Data.List.Nodup
import Mathlib.Data.List.Lattice

namespace Krabka
namespace Assignor

open Collections List Buckets

/-!
# The constrained path distributes all partitions

The path first lets every member keep owned partitions up to its quota, and
then hands out the rest.  Its `break` is unreachable by a counting argument:
the partitions left are at most the places left, which are the deficits of the
members below the minimum and one more place for each member that waits at the
minimum.  `OwnedInvariant` carries the count through the first loop and
`RoundRobinInvariant` through the second one.
-/

/-! ## The partitions of a list of topics -/

theorem mem_partitionsOf (topic : String) (count : Int) (tp : TopicPartition) :
    tp ∈ partitionsOf topic count <->
      tp.topic = topic ∧ 0 ≤ tp.partition ∧ tp.partition < count := by
  unfold partitionsOf
  rw [mem_map]
  constructor
  · rintro ⟨index, member, rfl⟩
    have bound := mem_range.mp member
    exact ⟨rfl, Int.natCast_nonneg index, by dsimp only; omega⟩
  · rintro ⟨sameTopic, lower, upper⟩
    refine ⟨tp.partition.toNat, mem_range.mpr (by omega), ?_⟩
    cases tp
    dsimp only at sameTopic lower ⊢
    rw [sameTopic, Int.toNat_of_nonneg lower]

theorem partitionsOf_nodup (topic : String) (count : Int) : (partitionsOf topic count).Nodup := by
  refine List.Nodup.map ?_ nodup_range
  intro first second same
  exact Int.ofNat_inj.mp (TopicPartition.mk.inj same).2

def partitionsOfTopics (topicPartitions : TopicPartitions) (topics : List String) :
    List TopicPartition :=
  topics.flatMap (fun topic =>
    match topicPartitions.get? topic with
    | some count => partitionsOf topic count
    | none => [])

section

variable (topicPartitions : TopicPartitions)

theorem mem_partitionsOfTopics (topics : List String) (tp : TopicPartition) :
    tp ∈ partitionsOfTopics topicPartitions topics <->
      tp.topic ∈ topics ∧ InRange topicPartitions tp := by
  unfold partitionsOfTopics
  rw [mem_flatMap]
  constructor
  · rintro ⟨topic, member, inside⟩
    cases found : topicPartitions.get? topic with
    | none =>
      rw [found] at inside
      cases inside
    | some count =>
      rw [found] at inside
      have parts := (mem_partitionsOf topic count tp).mp inside
      exact ⟨parts.1 ▸ member, count, parts.1 ▸ found, parts.2⟩
  · rintro ⟨member, count, found, bounds⟩
    refine ⟨tp.topic, member, ?_⟩
    rw [found]
    exact (mem_partitionsOf tp.topic count tp).mpr ⟨rfl, bounds⟩

theorem partitionsOfTopics_nodup {topics : List String} (distinct : topics.Nodup) :
    (partitionsOfTopics topicPartitions topics).Nodup := by
  induction topics with
  | nil => exact nodup_nil
  | cons topic rest ih =>
    have parts := nodup_cons.mp distinct
    have split : partitionsOfTopics topicPartitions (topic :: rest) =
        partitionsOfTopics topicPartitions [topic] ++ partitionsOfTopics topicPartitions rest := by
      simp [partitionsOfTopics]
    rw [split]
    refine List.Nodup.append ?_ (ih parts.2) ?_
    · simp only [partitionsOfTopics, flatMap_cons, flatMap_nil, append_nil]
      cases topicPartitions.get? topic with
      | none => exact nodup_nil
      | some count => exact partitionsOf_nodup topic count
    · intro tp here later
      have sameTopic := ((mem_partitionsOfTopics _ _ _).mp here).1
      have laterTopic := ((mem_partitionsOfTopics _ _ _).mp later).1
      exact parts.1 (mem_singleton.mp sameTopic ▸ laterTopic)

end

section

variable (topics : SortedSet String) (topicPartitions : TopicPartitions)

include topics topicPartitions

theorem allPartitions_eq :
    allPartitions topics topicPartitions = partitionsOfTopics topicPartitions topics.keys := by
  unfold allPartitions partitionsOfTopics
  induction topics.keys with
  | nil => rfl
  | cons topic rest ih =>
    rw [filterMap_cons, flatMap_cons]
    cases topicPartitions.get? topic with
    | none => exact ih
    | some count => exact congrArg (partitionsOf topic count ++ ·) ih

theorem mem_allPartitions (tp : TopicPartition) :
    tp ∈ allPartitions topics topicPartitions <->
      topics.contains tp.topic = true ∧ InRange topicPartitions tp := by
  rw [allPartitions_eq, mem_partitionsOfTopics, SortedMap.mem_keys_iff]

theorem allPartitions_nodup :
    (allPartitions topics topicPartitions).Nodup := by
  rw [allPartitions_eq]
  exact partitionsOfTopics_nodup topicPartitions topics.keys_nodup

end

/-! ## Places left below the minimum quota -/

/-- How many partitions the members in `ids` lack to the minimum quota. -/
def deficit (minQuota : Nat) (assignment : Assignment) (ids : List String) : Nat :=
  (ids.map (fun id => minQuota - load assignment id)).sum

section

variable (minQuota : Nat) (assignment : Assignment)

theorem deficit_perm {left right : List String} (same : left.Perm right) :
    deficit minQuota assignment left = deficit minQuota assignment right :=
  (same.map _).sum_eq

theorem deficit_cons (id : String) (ids : List String) :
    deficit minQuota assignment (id :: ids) =
      (minQuota - load assignment id) + deficit minQuota assignment ids := by
  simp [deficit]

end

theorem load_extend_self (assignment : Assignment) (id : String) (added : List TopicPartition) :
    load (assignment.extend id added) id = load assignment id + added.length := by
  rw [load, bucket_extend, if_pos rfl, length_append, load]

variable {ids : List String} {id : String}

/-- The deficit of other members does not change. -/
theorem deficit_extend (minQuota : Nat) (assignment : Assignment) (added : List TopicPartition)
    (absent : id ∉ ids) :
    deficit minQuota (assignment.extend id added) ids = deficit minQuota assignment ids := by
  refine congrArg List.sum (map_congr_left ?_)
  intro other member
  have different : other ≠ id := fun same => absent (same ▸ member)
  rw [load, bucket_extend_of_ne assignment added different, load]

/-! ## Keeping owned partitions -/

theorem sortOwned_perm (owned : List TopicPartition) : (sortOwned owned).Perm owned :=
  perm_insertionSort _ owned

theorem contains_foldl_assigned (kept : List TopicPartition) (assigned : SortedSet TopicPartition)
    (tp : TopicPartition) :
    (kept.foldl (fun assigned tp => assigned.insert tp ()) assigned).contains tp = true <->
      tp ∈ kept ∨ assigned.contains tp = true := by
  induction kept generalizing assigned with
  | nil => simp
  | cons head rest ih =>
    rw [foldl_cons, ih, SortedMap.contains_insert, mem_cons]
    constructor
    · rintro (later | here | before)
      · exact .inl (.inr later)
      · exact .inl (.inl here)
      · exact .inr before
    · rintro ((here | later) | before)
      · exact .inr (.inl here)
      · exact .inl later
      · exact .inr (.inr before)

/-- What the members in `done` kept, whatever the quotas are. -/
structure KeptInvariant (current : Assignment) (ids done : List String) (state : OwnedState) :
    Prop where
  keyed : forall id, state.assignment.contains id = true <-> id ∈ ids
  fromCurrent : forall id tp, tp ∈ state.assignment.bucket id -> tp ∈ current.bucket id
  distinct : state.assignment.items.Nodup
  untouched : forall id, id ∉ done -> state.assignment.bucket id = []
  assigned : forall tp, state.assigned.contains tp = true <-> tp ∈ state.assignment.items

theorem KeptInvariant.keep {current : Assignment} {ids done : List String} {state : OwnedState}
    (invariant : KeptInvariant current ids done state) (distinct : current.items.Nodup)
    {id : String} (known : id ∈ ids) (fresh : id ∉ done) {kept : List TopicPartition}
    (part : kept.Sublist (sortOwned (current.bucket id))) :
    KeptInvariant current ids (done ++ [id]) (state.keep id kept) := by
  have inCurrent : forall tp, tp ∈ kept -> tp ∈ current.bucket id := fun tp member =>
    (sortOwned_perm _).mem_iff.mp (part.subset member)
  have keptDistinct : kept.Nodup :=
    ((sortOwned_perm _).nodup_iff.mpr (bucket_nodup distinct id)).sublist part
  refine ⟨?_, ?_, ?_, ?_, ?_⟩
  · intro query
    rw [OwnedState.keep, extend, SortedMap.contains_insert, invariant.keyed]
    exact ⟨fun either => either.elim (fun same => same ▸ known) (fun inIds => inIds), .inr⟩
  · intro query tp member
    rw [OwnedState.keep, bucket_extend, invariant.untouched id fresh] at member
    split_ifs at member with same
    · exact same ▸ inCurrent tp member
    · exact invariant.fromCurrent query tp member
  · refine (items_extend state.assignment id kept).nodup_iff.mpr ?_
    refine List.Nodup.append keptDistinct invariant.distinct ?_
    intro tp new old
    rcases (mem_items_iff _ tp).mp old with ⟨holder, held⟩
    have sameHolder := key_unique distinct (inCurrent tp new) (invariant.fromCurrent holder tp held)
    rw [← sameHolder, invariant.untouched id fresh] at held
    exact not_mem_nil held
  · intro query absent
    rw [mem_append, mem_singleton, not_or] at absent
    rw [OwnedState.keep, bucket_extend_of_ne _ _ absent.2]
    exact invariant.untouched query absent.1
  · intro tp
    rw [OwnedState.keep, contains_foldl_assigned, invariant.assigned,
      (items_extend state.assignment id kept).mem_iff, mem_append]

structure CountInvariant (quotas : Quotas) (done : List String) (state : OwnedState) : Prop where
  under : forall id, id ∈ state.underMin ->
    id ∈ done ∧ load state.assignment id < quotas.minQuota
  underDistinct : state.underMin.Nodup
  exactly : forall id, id ∈ state.exactlyMin -> id ∈ done
  count : state.assignment.items.length +
      deficit quotas.minQuota state.assignment state.underMin +
      state.currentOverMin * quotas.minQuota =
    done.length * quotas.minQuota + state.currentOverMin * quotas.maxQuota
  overBound : state.currentOverMin ≤ quotas.expectedOverMin
  waiting : state.currentOverMin < quotas.expectedOverMin ->
    state.exactlyMin.length + state.underMin.length + state.currentOverMin = done.length

variable {state : OwnedState} {done : List String} {quotas : Quotas}

theorem CountInvariant.under_keep (invariant : CountInvariant quotas done state) (fresh : id ∉ done)
    (kept : List TopicPartition) {other : String} (member : other ∈ state.underMin) :
    other ∈ done ++ [id] ∧ load (state.keep id kept).assignment other < quotas.minQuota := by
  have parts := invariant.under other member
  have different : other ≠ id := fun same => fresh (same ▸ parts.1)
  refine ⟨mem_append_left _ parts.1, ?_⟩
  rw [load, OwnedState.keep, bucket_extend_of_ne _ _ different]
  exact parts.2

theorem items_length_keep (state : OwnedState) (id : String) (kept : List TopicPartition) :
    (state.keep id kept).assignment.items.length = kept.length + state.assignment.items.length := by
  rw [OwnedState.keep, (items_extend state.assignment id kept).length_eq, length_append]

section OwnedStep

variable {quotas : Quotas} {owned : List TopicPartition} {state next : OwnedState} {id : String}

/-- What one round of `assignOwnedPartitions` can do. -/
inductive OwnedStep (quotas : Quotas) (owned : List TopicPartition) (state : OwnedState)
    (id : String) : OwnedState -> Prop where
  /-- The member keeps everything and lacks the rest to the minimum. -/
  | under (below : owned.length < quotas.minQuota) :
      OwnedStep quotas owned state id
        { state.keep id owned with underMin := state.underMin ++ [id] }
  /-- The member is one of those that get the maximum. -/
  | beyond (enough : quotas.maxQuota ≤ owned.length)
      (more : state.currentOverMin < quotas.expectedOverMin) :
      OwnedStep quotas owned state id
        { state.keep id (owned.take quotas.maxQuota) with
          currentOverMin := state.currentOverMin + 1
          exactlyMin := if state.currentOverMin + 1 = quotas.expectedOverMin then []
            else state.exactlyMin }
  /-- The member keeps the minimum, and may wait for one more. -/
  | exactly (enough : quotas.minQuota ≤ owned.length)
      (notOver : ¬ (quotas.maxQuota ≤ owned.length ∧
        state.currentOverMin < quotas.expectedOverMin)) :
      OwnedStep quotas owned state id
        { state.keep id (owned.take quotas.minQuota) with
          exactlyMin := if state.currentOverMin < quotas.expectedOverMin then
              state.exactlyMin ++ [id]
            else state.exactlyMin }

theorem assignOwned_step (quotas : Quotas) (current : Assignment) (state : OwnedState)
    (id : String) :
    OwnedStep quotas (sortOwned (current.bucket id)) state id
      (assignOwned quotas current state id) := by
  unfold assignOwned
  by_cases below : (sortOwned (current.bucket id)).length < quotas.minQuota
  · rw [if_pos below]
    exact .under below
  · rw [if_neg below]
    by_cases above : (sortOwned (current.bucket id)).length ≥ quotas.maxQuota ∧
        state.currentOverMin < quotas.expectedOverMin
    · rw [if_pos above]
      exact .beyond above.1 above.2
    · rw [if_neg above]
      exact .exactly (Nat.le_of_not_lt below) above

theorem OwnedStep.keeps (step : OwnedStep quotas owned state id next) :
    Exists fun kept : List TopicPartition => kept.Sublist owned ∧
      next.assignment = (state.keep id kept).assignment ∧
      next.assigned = (state.keep id kept).assigned := by
  cases step with
  | under below => exact ⟨_, List.Sublist.refl _, rfl, rfl⟩
  | beyond enough more => exact ⟨_, take_sublist quotas.maxQuota _, rfl, rfl⟩
  | exactly enough notOver => exact ⟨_, take_sublist quotas.minQuota _, rfl, rfl⟩

theorem load_keep (nothingYet : state.assignment.bucket id = []) (kept : List TopicPartition) :
    load (state.keep id kept).assignment id = kept.length := by
  rw [OwnedState.keep, load_extend_self, load, nothingYet, length_nil, Nat.zero_add]

/-- One round of the owned loop keeps the counts. -/
theorem OwnedStep.count (step : OwnedStep quotas owned state id next)
    (nothingYet : state.assignment.bucket id = []) (invariant : CountInvariant quotas done state)
    (fresh : id ∉ done) : CountInvariant quotas (done ++ [id]) next := by
  have absent : id ∉ state.underMin := fun member => fresh (invariant.under id member).1
  have exactlyLater : forall other, other ∈ state.exactlyMin -> other ∈ done ++ [id] :=
    fun other member => mem_append_left _ (invariant.exactly other member)
  have count := invariant.count
  have othersUnder (part : List TopicPartition) :
      deficit quotas.minQuota (state.keep id part).assignment state.underMin =
        deficit quotas.minQuota state.assignment state.underMin :=
    deficit_extend quotas.minQuota state.assignment part absent
  cases step with
  | under below =>
    have loadAfter := load_keep nothingYet owned
    refine ⟨?_, ?_, exactlyLater, ?_, invariant.overBound, ?_⟩
    · intro other member
      rcases mem_append.mp member with old | new
      · exact invariant.under_keep fresh _ old
      · rw [mem_singleton.mp new]
        exact ⟨mem_append_right _ (.head _), loadAfter.symm ▸ below⟩
    · exact nodup_append.mpr ⟨invariant.underDistinct, nodup_singleton id,
        fun other member last isLast =>
          fun same => absent (mem_singleton.mp isLast ▸ same ▸ member)⟩
    · have total : deficit quotas.minQuota (state.keep id owned).assignment
          (state.underMin ++ [id]) = (quotas.minQuota - owned.length) +
            deficit quotas.minQuota state.assignment state.underMin := by
        rw [deficit_perm _ _ (perm_append_singleton id state.underMin), deficit_cons,
          othersUnder, loadAfter]
      change (state.keep id owned).assignment.items.length +
        deficit quotas.minQuota (state.keep id owned).assignment (state.underMin ++ [id]) +
          state.currentOverMin * quotas.minQuota =
            (done ++ [id]).length * quotas.minQuota + state.currentOverMin * quotas.maxQuota
      rw [total, items_length_keep, length_append, length_singleton, Nat.add_mul, Nat.one_mul]
      omega
    · intro strict
      have waiting := invariant.waiting strict
      simp only [OwnedState.keep, length_append, length_singleton]
      omega
  | beyond enough more =>
    refine ⟨fun other member => invariant.under_keep fresh _ member, invariant.underDistinct,
      ?_, ?_, more, ?_⟩
    · intro other member
      split_ifs at member
      · cases member
      · exact exactlyLater other member
    · change (state.keep id _).assignment.items.length + deficit quotas.minQuota
        (state.keep id _).assignment state.underMin + (state.currentOverMin + 1) *
          quotas.minQuota = (done ++ [id]).length * quotas.minQuota +
            (state.currentOverMin + 1) * quotas.maxQuota
      rw [othersUnder, items_length_keep, length_take, Nat.min_eq_left enough,
        length_append, length_singleton, Nat.add_mul, Nat.add_mul, Nat.add_mul,
        Nat.one_mul, Nat.one_mul]
      omega
    · intro strict
      have waiting := invariant.waiting more
      have notLast : state.currentOverMin + 1 ≠ quotas.expectedOverMin := ne_of_lt strict
      rw [if_neg notLast]
      simp only [OwnedState.keep, length_append, length_singleton]
      omega
  | exactly enough notOver =>
    refine ⟨fun other member => invariant.under_keep fresh _ member, invariant.underDistinct,
      ?_, ?_, invariant.overBound, ?_⟩
    · intro other member
      split_ifs at member
      · rcases mem_append.mp member with old | new
        · exact exactlyLater other old
        · exact mem_append_right _ new
      · exact exactlyLater other member
    · change (state.keep id _).assignment.items.length + deficit quotas.minQuota
        (state.keep id _).assignment state.underMin + state.currentOverMin *
          quotas.minQuota = (done ++ [id]).length * quotas.minQuota +
            state.currentOverMin * quotas.maxQuota
      rw [othersUnder, items_length_keep, length_take, Nat.min_eq_left enough,
        length_append, length_singleton, Nat.add_mul, Nat.one_mul]
      omega
    · intro strict
      have waiting := invariant.waiting strict
      have strictBefore : state.currentOverMin < quotas.expectedOverMin := strict
      rw [if_pos strictBefore]
      simp only [OwnedState.keep, length_append, length_singleton]
      omega

end OwnedStep

variable {current : Assignment}

theorem assignOwned_kept (invariant : KeptInvariant current ids done state)
    (distinct : current.items.Nodup) (known : id ∈ ids) (fresh : id ∉ done) :
    KeptInvariant current ids (done ++ [id]) (assignOwned quotas current state id) := by
  rcases (assignOwned_step quotas current state id).keeps with ⟨kept, part, assignment, assigned⟩
  have next := invariant.keep distinct known fresh part
  refine ⟨?_, ?_, ?_, ?_, ?_⟩
  · rw [assignment]
    exact next.keyed
  · rw [assignment]
    exact next.fromCurrent
  · rw [assignment]
    exact next.distinct
  · rw [assignment]
    exact next.untouched
  · rw [assignment, assigned]
    exact next.assigned

/-- What every round keeps holds after the whole loop. -/
theorem foldl_assignOwned (invariant : List String -> OwnedState -> Prop)
    (keeps : forall done id state, id ∈ ids -> id ∉ done -> (done ++ [id]) <+: ids ->
      invariant done state -> invariant (done ++ [id]) (assignOwned quotas current state id))
    (todo : List String) (whole : done ++ todo = ids) (idsDistinct : ids.Nodup)
    (holds : invariant done state) :
    invariant ids (todo.foldl (assignOwned quotas current) state) := by
  induction todo generalizing done state with
  | nil =>
    rw [append_nil] at whole
    subst whole
    exact holds
  | cons id rest ih =>
    have known : id ∈ ids := whole ▸ mem_append_right _ (.head _)
    have fresh : id ∉ done := by
      intro before
      rw [← whole] at idsDistinct
      exact (nodup_append.mp idsDistinct).2.2 id before id (.head _) rfl
    have further : (done ++ [id]) ++ rest = ids := by
      rw [append_assoc]
      exact whole
    exact ih further (keeps done id state known fresh ⟨rest, further⟩ holds)

theorem ownedStart_kept (current : Assignment) (ids : List String) :
    KeptInvariant current ids [] ⟨0, ofKeys ids, SortedMap.empty, [], []⟩ where
  keyed := (Distributes.ofKeys (fun _ _ => True) ids).keyed
  fromCurrent := by
    intro id tp member
    rw [bucket_ofKeys] at member
    cases member
  distinct := by
    rw [items_ofKeys]
    exact nodup_nil
  untouched := fun id _ => bucket_ofKeys ids id
  assigned := by
    intro tp
    rw [items_ofKeys]
    exact iff_of_false Bool.false_ne_true not_mem_nil

theorem ownedStart_count (quotas : Quotas) (ids : List String) :
    CountInvariant quotas [] ⟨0, ofKeys ids, SortedMap.empty, [], []⟩ where
  under := nofun
  underDistinct := nodup_nil
  exactly := nofun
  count := by simp [items_ofKeys, deficit]
  overBound := Nat.zero_le _
  waiting := fun _ => rfl

def ownedLoop (quotas : Quotas) (ids : List String) (current : Assignment) : OwnedState :=
  ids.foldl (assignOwned quotas current) ⟨0, ofKeys ids, SortedMap.empty, [], []⟩

theorem ownedLoop_spec (quotas : Quotas) (distinct : current.items.Nodup) (idsDistinct : ids.Nodup) :
    KeptInvariant current ids ids (ownedLoop quotas ids current) ∧
      CountInvariant quotas ids (ownedLoop quotas ids current) := by
  refine foldl_assignOwned (fun done state => KeptInvariant current ids done state ∧
    CountInvariant quotas done state) ?_ ids (nil_append ids) idsDistinct
    ⟨ownedStart_kept current ids, ownedStart_count quotas ids⟩
  rintro done id state known fresh _ ⟨kept, count⟩
  exact ⟨assignOwned_kept kept distinct known fresh,
    (assignOwned_step quotas current state id).count (kept.untouched id fresh) count fresh⟩

variable {all : List TopicPartition}

theorem KeptInvariant.split (kept : KeptInvariant current ids done state) (allDistinct : all.Nodup)
    (inAll : forall id, id ∈ ids -> forall tp, tp ∈ current.bucket id -> tp ∈ all) :
    (state.assignment.items ++ all.filter
      (fun partition => !state.assigned.contains partition)).Perm all := by
  refine (perm_ext_iff_of_nodup ?_ allDistinct).mpr ?_
  · refine List.Nodup.append kept.distinct (allDistinct.filter _) ?_
    intro tp keptHere left
    have notAssigned := (mem_filter.mp left).2
    rw [(kept.assigned tp).mpr keptHere] at notAssigned
    cases notAssigned
  · intro tp
    rw [mem_append, mem_filter]
    constructor
    · rintro (keptHere | left)
      · rcases (mem_items_iff _ tp).mp keptHere with ⟨id, held⟩
        have known := (kept.keyed id).mp (contains_of_mem_bucket held)
        exact inAll id known tp (kept.fromCurrent id tp held)
      · exact left.1
    · intro member
      by_cases assigned : state.assigned.contains tp = true
      · exact .inl ((kept.assigned tp).mp assigned)
      · exact .inr ⟨member, by simpa using assigned⟩

/-! ## Handing out the rest -/

/-- The places that the round robin still has, at least one for each partition
that is left. -/
structure RoundRobinInvariant (ids : List String) (minQuota left : Nat) (state : RoundRobin) :
    Prop where
  under : forall id, id ∈ state.underMin -> id ∈ ids ∧ load state.assignment id < minQuota
  underDistinct : state.underMin.Nodup
  exactly : forall id, id ∈ state.exactlyMin -> id ∈ ids
  room : left ≤ deficit minQuota state.assignment state.underMin + state.underMin.length +
    state.exactlyMin.length

section

variable {ids : List String} {minQuota left : Nat} {state : RoundRobin}
  (invariant : RoundRobinInvariant ids minQuota (left + 1) state)

include invariant

/-- A member below the minimum takes a partition, and joins the queue when it
reaches the minimum. -/
theorem give_under {member : String} (atCursor : state.underMin[state.cursor]? = some member)
    (partition : TopicPartition) :
    (state.give minQuota member partition).assignment = state.assignment.push member partition ∧
      RoundRobinInvariant ids minQuota left (state.give minQuota member partition) := by
  have listed : member ∈ state.underMin := mem_of_getElem? atCursor
  have below := invariant.under member listed
  rcases List.getElem?_eq_some_iff.mp atCursor with ⟨bound, here⟩
  have split : (member :: state.underMin.eraseIdx state.cursor).Perm state.underMin := by
    rw [← here]
    exact getElem_cons_eraseIdx_perm bound
  have distinct := nodup_cons.mp (split.nodup_iff.mpr invariant.underDistinct)
  have loadAfter : load (state.assignment.push member partition) member =
      load state.assignment member + 1 := load_extend_self state.assignment member [partition]
  have others : deficit minQuota (state.assignment.push member partition)
      (state.underMin.eraseIdx state.cursor) =
        deficit minQuota state.assignment (state.underMin.eraseIdx state.cursor) :=
    deficit_extend minQuota state.assignment [partition] distinct.1
  have before := deficit_perm minQuota state.assignment split
  have after := deficit_perm minQuota (state.assignment.push member partition) split
  rw [deficit_cons] at before after
  have lengths := split.length_eq
  rw [length_cons] at lengths
  have room := invariant.room
  have otherLoads : forall id, id ∈ state.underMin.eraseIdx state.cursor ->
      id ∈ ids ∧ load (state.assignment.push member partition) id < minQuota := by
    intro id inside
    have kept := invariant.under id (split.mem_iff.mp (.tail member inside))
    have different : id ≠ member := fun same => distinct.1 (same ▸ inside)
    refine ⟨kept.1, ?_⟩
    rw [load, push, bucket_extend_of_ne _ _ different]
    exact kept.2
  unfold RoundRobin.give
  rw [if_pos atCursor]
  by_cases reached : load (state.assignment.push member partition) member = minQuota
  · rw [if_pos reached]
    refine ⟨rfl, otherLoads, distinct.2, ?_, ?_⟩
    · intro id inside
      rcases mem_append.mp inside with old | new
      · exact invariant.exactly id old
      · exact mem_singleton.mp new ▸ below.1
    · dsimp only
      rw [others, length_append, length_singleton]
      omega
  · rw [if_neg reached]
    refine ⟨rfl, ?_, invariant.underDistinct, invariant.exactly, ?_⟩
    · intro id inside
      rcases mem_cons.mp (split.mem_iff.mpr inside) with same | other
      · rw [same]
        exact ⟨below.1, by dsimp only; omega⟩
      · exact otherLoads id other
    · dsimp only
      omega

/-- While a partition is left there is a member to take it. -/
theorem place_spec (partition : TopicPartition) :
    Exists fun next => Exists fun member =>
      state.place minQuota partition = some next ∧ member ∈ ids ∧
        next.assignment = state.assignment.push member partition ∧
        RoundRobinInvariant ids minQuota left next := by
  unfold RoundRobin.place
  cases atCursor : state.underMin[state.cursor]? with
  | some member =>
    have listed : member ∈ state.underMin := mem_of_getElem? atCursor
    have given := give_under invariant atCursor partition
    exact ⟨_, member, rfl, (invariant.under member listed).1, given⟩
  | none =>
    cases under : state.underMin with
    | cons first rest =>
      have rewound : RoundRobinInvariant ids minQuota (left + 1) { state with cursor := 0 } :=
        { invariant with }
      have atStart : ({ state with cursor := 0 } : RoundRobin).underMin[0]? = some first := by
        rw [under]
        rfl
      have given := give_under rewound atStart partition
      rw [under] at given
      exact ⟨_, first, rfl, (invariant.under first (under ▸ (.head _))).1, given⟩
    | nil =>
      have room := invariant.room
      rw [under] at room
      cases queue : state.exactlyMin with
      | nil =>
        rw [queue] at room
        simp [deficit] at room
      | cons member rest =>
        refine ⟨_, member, rfl, invariant.exactly member (queue ▸ (.head _)), ?_⟩
        rw [queue] at room
        unfold RoundRobin.give
        rw [if_neg (by simp)]
        refine ⟨rfl, nofun, nodup_nil,
          fun id inside => invariant.exactly id (queue ▸ .tail _ inside), ?_⟩
        simp only [deficit, map_nil, sum_nil, length_nil, length_cons] at room ⊢
        omega

end

theorem placeAll_distributes {eligible : String -> TopicPartition -> Prop} {minQuota : Nat}
    (remaining : List TopicPartition) {state : RoundRobin} {work : List TopicPartition}
    (allowed : forall tp, tp ∈ remaining -> forall id, id ∈ ids -> eligible id tp)
    (invariant : RoundRobinInvariant ids minQuota remaining.length state)
    (distributes : Distributes eligible ids work state.assignment) :
    Distributes eligible ids (work ++ remaining)
      (state.placeAll minQuota remaining).assignment := by
  induction remaining generalizing state work with
  | nil => simpa [RoundRobin.placeAll] using distributes
  | cons partition rest ih =>
    rcases place_spec invariant partition with ⟨next, member, placed, known, pushed, kept⟩
    rw [RoundRobin.placeAll, placed]
    have one := distributes.push known (allowed partition (.head _) member known)
    rw [← pushed] at one
    refine (ih ?_ kept one).perm perm_middle.symm
    exact fun tp inside => allowed tp (.tail partition inside)

/-! ## The path as a whole -/

theorem quotas_total (total members : Nat) :
    total = members * (Quotas.of total members).minQuota +
      (Quotas.of total members).expectedOverMin :=
  (Nat.div_add_mod total members).symm

theorem quotas_max {total members : Nat} (positive : 0 < members)
    (someOver : 0 < (Quotas.of total members).expectedOverMin) :
    (Quotas.of total members).maxQuota = (Quotas.of total members).minQuota + 1 := by
  have division := Nat.div_add_mod total members
  have remainder := Nat.mod_lt total positive
  dsimp only [Quotas.of] at someOver ⊢
  rw [Nat.div_eq_iff positive]
  constructor <;> rw [Nat.add_mul, Nat.one_mul, Nat.mul_comm]
  · omega
  · omega

section

variable {total : Nat} {ids : List String} (someMember : 0 < ids.length) {state : OwnedState}
  (invariant : CountInvariant (Quotas.of total ids.length) ids state)

include someMember invariant

/-- After the owned loop every partition is kept, lacking below the minimum, or one
above it that no member has yet. -/
theorem total_after_owned :
    state.assignment.items.length +
        deficit (Quotas.of total ids.length).minQuota state.assignment state.underMin +
        (Quotas.of total ids.length).expectedOverMin = total + state.currentOverMin := by
  have whole := quotas_total total ids.length
  have count := invariant.count
  have bound := invariant.overBound
  by_cases noneOver : (Quotas.of total ids.length).expectedOverMin = 0
  · have noOver : state.currentOverMin = 0 := by omega
    rw [noOver] at count
    omega
  · have maximum := quotas_max someMember (Nat.pos_of_ne_zero noneOver)
    rw [maximum, Nat.mul_add, Nat.mul_one] at count
    omega

/-- After the owned loop the partitions that are left fit into the places
that are left. -/
theorem room_after_owned :
    total - state.assignment.items.length ≤
      deficit (Quotas.of total ids.length).minQuota state.assignment state.underMin +
        state.underMin.length + state.exactlyMin.length := by
  have whole := total_after_owned someMember invariant
  have fewer : (Quotas.of total ids.length).expectedOverMin < ids.length := Nat.mod_lt total someMember
  by_cases filled : state.currentOverMin < (Quotas.of total ids.length).expectedOverMin
  · have waiting := invariant.waiting filled
    omega
  · omega

end

def handOut (quotas : Quotas) (all : List TopicPartition) (kept : OwnedState) : RoundRobin :=
  RoundRobin.placeAll quotas.minQuota
    ⟨kept.assignment, sorted kept.underMin, sorted kept.exactlyMin, 0⟩
    (all.filter (fun partition => !kept.assigned.contains partition))

theorem handOut_start (someMember : 0 < ids.length) (allDistinct : all.Nodup)
    (inAll : forall id, id ∈ ids -> forall tp, tp ∈ current.bucket id -> tp ∈ all)
    (kept : KeptInvariant current ids ids state)
    (count : CountInvariant (Quotas.of all.length ids.length) ids state) :
    RoundRobinInvariant ids (Quotas.of all.length ids.length).minQuota
      (all.filter (fun partition => !state.assigned.contains partition)).length
      ⟨state.assignment, sorted state.underMin, sorted state.exactlyMin, 0⟩ := by
  have lengths := (kept.split allDistinct inAll).length_eq
  rw [length_append] at lengths
  have room := room_after_owned someMember count
  have underSame := sorted_perm state.underMin
  refine ⟨?_, underSame.nodup_iff.mpr count.underDistinct, ?_, ?_⟩
  · exact fun id member => count.under id (underSame.mem_iff.mp member)
  · exact fun id member => count.exactly id ((sorted_perm state.exactlyMin).mem_iff.mp member)
  · dsimp only
    rw [deficit_perm _ _ underSame, underSame.length_eq, (sorted_perm state.exactlyMin).length_eq]
    omega

section Shared

variable {ids : List String} {subs : Subscriptions} {current : Assignment}
  {topicPartitions : TopicPartitions} {shared : SortedSet String}

theorem constrainedAssign_eq (someMember : ids ≠ [])
    (sharedBy : forall id, id ∈ ids -> subs.get? id = some shared) :
    let all := allPartitions shared topicPartitions
    let quotas := Quotas.of all.length ids.length
    constrainedAssign ids subs current topicPartitions =
      SortedMap.mapValues (handOut quotas all (ownedLoop quotas ids current)).assignment sorted := by
  intro all quotas
  have sharedFound : (ids.head?.bind subs.get?).getD SortedMap.empty = shared := by
    cases ids with
    | nil => exact absurd rfl someMember
    | cons first rest =>
      rw [head?_cons, Option.bind_some, sharedBy first mem_cons_self]
      rfl
  unfold constrainedAssign
  rw [if_neg (Nat.ne_of_gt (length_pos_of_ne_nil someMember)), sharedFound]
  rfl

theorem ValidCurrent.mem_allPartitions (valid : ValidCurrent subs topicPartitions current)
    (sharedBy : forall id, id ∈ ids -> subs.get? id = some shared) (id : String)
    (known : id ∈ ids) (tp : TopicPartition) (held : tp ∈ current.bucket id) :
    tp ∈ allPartitions shared topicPartitions := by
  have eligible := valid.eligible id tp held
  rcases eligible.1 with ⟨topics, found, subscribed⟩
  rw [sharedBy id known] at found
  exact (Assignor.mem_allPartitions shared topicPartitions tp).mpr
    ⟨Option.some.inj found ▸ subscribed, eligible.2⟩

/-- When all members share one subscription, the constrained path gives every
partition of the subscribed topics to exactly one of them. -/
theorem constrainedAssign_distributes (someMember : ids ≠ []) (idsDistinct : ids.Nodup)
    (sharedBy : forall id, id ∈ ids -> subs.get? id = some shared)
    (valid : ValidCurrent subs topicPartitions current) :
    Distributes (Eligible subs topicPartitions) ids (allPartitions shared topicPartitions)
      (constrainedAssign ids subs current topicPartitions) := by
  rw [constrainedAssign_eq someMember sharedBy]
  refine Distributes.mapValues ?_ sorted sorted_perm
  have loop := ownedLoop_spec (Quotas.of (allPartitions shared topicPartitions).length ids.length)
    valid.distinct idsDistinct
  generalize ownedLoop (Quotas.of (allPartitions shared topicPartitions).length ids.length) ids
    current = state at loop ⊢
  rcases loop with ⟨kept, count⟩
  have allDistinct := allPartitions_nodup shared topicPartitions
  have inAll := valid.mem_allPartitions sharedBy
  have start : Distributes (Eligible subs topicPartitions) ids state.assignment.items
      state.assignment :=
    ⟨kept.keyed, List.Perm.refl _,
      fun id tp held => valid.eligible id tp (kept.fromCurrent id tp held)⟩
  refine (placeAll_distributes _ (fun tp left id isMember => ?_)
    (handOut_start (length_pos_of_ne_nil someMember) allDistinct inAll kept count)
    start).perm (kept.split allDistinct inAll)
  have parts := (Assignor.mem_allPartitions shared topicPartitions tp).mp (mem_filter.mp left).1
  exact ⟨⟨shared, sharedBy id isMember, parts.1⟩, parts.2⟩

end Shared

end Assignor
end Krabka
