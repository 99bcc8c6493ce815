import Krabka.Assignor.Constrained

namespace Krabka
namespace Assignor

open Collections List Buckets

/-!
# The constrained path fills the quotas

Every member gets the minimum or one partition more.  `Levels` carries this
through both loops: who is below the minimum is listed in `underMin`, and who
waits in `exactlyMin` has the minimum.

A member keeps all partitions that it owns if they are not too many: at most one
above the minimum, and this for no more members than get that many (`Fits`).
-/

/-- The loads of the members in `ids`, and the two lists of the loops. -/
structure Levels (minQuota : Nat) (ids : List String) (assignment : Assignment)
    (underMin exactlyMin : List String) : Prop where
  under : forall id, id ∈ ids -> load assignment id < minQuota -> id ∈ underMin
  atMost : forall id, id ∈ ids -> load assignment id ≤ minQuota + 1
  waiting : forall id, id ∈ exactlyMin -> load assignment id = minQuota
  waitingDistinct : exactlyMin.Nodup

variable {id : String}

theorem load_extend_of_ne (assignment : Assignment) {other : String} (added : List TopicPartition)
    (different : other ≠ id) :
    load (assignment.extend id added) other = load assignment other := by
  rw [load, bucket_extend_of_ne assignment added different, load]

variable {ids : List String}

theorem Levels.update {minQuota : Nat} {known underMin listed exactlyMin queue : List String}
    {assignment : Assignment} {added : List TopicPartition}
    (levels : Levels minQuota ids assignment underMin exactlyMin)
    (fewMore : forall other, other ∈ known -> other ≠ id -> other ∈ ids)
    (low : load (assignment.extend id added) id < minQuota -> id ∈ listed)
    (high : load (assignment.extend id added) id ≤ minQuota + 1)
    (stillListed : forall other, other ∈ underMin -> other ≠ id -> other ∈ listed)
    (wasQueued : forall other, other ∈ queue -> other ≠ id -> other ∈ exactlyMin)
    (queued : id ∈ queue -> load (assignment.extend id added) id = minQuota)
    (queueDistinct : queue.Nodup) :
    Levels minQuota known (assignment.extend id added) listed queue := by
  refine ⟨fun other isKnown below => ?_, fun other isKnown => ?_, fun other isQueued => ?_,
    queueDistinct⟩
  · by_cases same : other = id
    · rw [same] at below ⊢
      exact low below
    · rw [load_extend_of_ne assignment added same] at below
      exact stillListed other (levels.under other (fewMore other isKnown same) below) same
  · by_cases same : other = id
    · rw [same]
      exact high
    · rw [load_extend_of_ne assignment added same]
      exact levels.atMost other (fewMore other isKnown same)
  · by_cases same : other = id
    · rw [same] at isQueued ⊢
      exact queued isQueued
    · rw [load_extend_of_ne assignment added same]
      exact levels.waiting other (wasQueued other isQueued same)

/-! ## Owned partitions -/

variable {current : Assignment}

section Owned

variable {quotas : Quotas} {owned : List TopicPartition} {state next : OwnedState} {id : String}
  {done : List String}

theorem OwnedStep.levels (step : OwnedStep quotas owned state id next)
    (maximum : 0 < quotas.expectedOverMin -> quotas.maxQuota = quotas.minQuota + 1)
    (nothingYet : state.assignment.bucket id = [])
    (queued : forall other, other ∈ state.exactlyMin -> other ∈ done) (fresh : id ∉ done)
    (levels : Levels quotas.minQuota done state.assignment state.underMin state.exactlyMin) :
    Levels quotas.minQuota (done ++ [id]) next.assignment next.underMin next.exactlyMin := by
  have fewMore (other : String) (known : other ∈ done ++ [id]) (different : other ≠ id) :
      other ∈ done := by
    rcases mem_append.mp known with old | new
    · exact old
    · exact absurd (mem_singleton.mp new) different
  have absent : id ∉ state.exactlyMin := fun member => fresh (queued id member)
  have loadAfter (kept : List TopicPartition) :
      load (state.assignment.extend id kept) id = kept.length := load_keep nothingYet kept
  cases step with
  | under below =>
    have isLoad := loadAfter owned
    exact levels.update fewMore (fun _ => mem_append_right _ (.head _)) (by omega)
      (fun other member _ => mem_append_left _ member) (fun other member _ => member)
      (fun member => absurd member absent) levels.waitingDistinct
  | beyond enough more =>
    have isLoad := loadAfter (owned.take quotas.maxQuota)
    rw [length_take, min_eq_left enough] at isLoad
    refine levels.update fewMore (fun below => by omega) (by omega)
      (fun other member _ => member) (fun other member _ => ?_) (fun member => ?_) ?_
    · split_ifs at member
      · cases member
      · exact member
    · split_ifs at member
      · cases member
      · exact absurd member absent
    · split_ifs
      · exact nodup_nil
      · exact levels.waitingDistinct
  | exactly enough notOver =>
    have isLoad := loadAfter (owned.take quotas.minQuota)
    rw [length_take, min_eq_left enough] at isLoad
    refine levels.update fewMore (fun below => by omega) (by omega)
      (fun other member _ => member) (fun other member different => ?_) (fun _ => isLoad) ?_
    · split_ifs at member
      · rcases mem_append.mp member with old | new
        · exact old
        · exact absurd (mem_singleton.mp new) different
      · exact member
    · split_ifs
      · refine nodup_append.mpr ⟨levels.waitingDistinct, nodup_singleton id, ?_⟩
        intro other isOther last isLast same
        exact absent (mem_singleton.mp isLast ▸ same ▸ isOther)
      · exact levels.waitingDistinct

theorem ownedLoop_levels
    (maximum : 0 < quotas.expectedOverMin -> quotas.maxQuota = quotas.minQuota + 1)
    (distinct : current.items.Nodup) (idsDistinct : ids.Nodup) :
    Levels quotas.minQuota ids (ownedLoop quotas ids current).assignment
      (ownedLoop quotas ids current).underMin (ownedLoop quotas ids current).exactlyMin := by
  have start : Levels quotas.minQuota [] (ofKeys ids) [] [] := ⟨nofun, nofun, nofun, nodup_nil⟩
  refine (foldl_assignOwned (fun done state => KeptInvariant current ids done state ∧
    CountInvariant quotas done state ∧
    Levels quotas.minQuota done state.assignment state.underMin state.exactlyMin) ?_ ids
    (nil_append ids) idsDistinct
    ⟨ownedStart_kept current ids, ownedStart_count quotas ids, start⟩).2.2
  rintro done id state known fresh _ ⟨kept, count, levels⟩
  have step := assignOwned_step quotas current state id
  have nothingYet := kept.untouched id fresh
  exact ⟨assignOwned_kept kept distinct known fresh, step.count nothingYet count fresh,
    step.levels maximum nothingYet count.exactly fresh levels⟩

end Owned

/-! ## The round robin -/

section Deficit

variable {minQuota : Nat} {assignment : Assignment} {ids : List String} {id : String}

theorem deficit_pos (listed : id ∈ ids) (below : load assignment id < minQuota) :
    0 < deficit minQuota assignment ids := by
  rcases append_of_mem listed with ⟨before, after, rfl⟩
  rw [deficit_perm minQuota assignment perm_middle, deficit_cons]
  omega

/-- One more partition for a member below the minimum. -/
theorem deficit_push {rest : List String} (split : (id :: rest).Perm ids) (distinct : ids.Nodup)
    (below : load assignment id < minQuota) (tp : TopicPartition) :
    deficit minQuota (assignment.push id tp) ids + 1 = deficit minQuota assignment ids ∧
      deficit minQuota (assignment.push id tp) rest + (minQuota - load assignment id) =
        deficit minQuota assignment ids := by
  have absent := (nodup_cons.mp (split.nodup_iff.mpr distinct)).1
  have others := deficit_extend minQuota assignment [tp] absent
  have loadAfter := load_extend_self assignment id [tp]
  rw [<- deficit_perm minQuota _ split, <- deficit_perm minQuota _ split, deficit_cons,
    deficit_cons, push, others, loadAfter, length_singleton]
  omega

end Deficit

inductive PlaceStep (minQuota : Nat) (assignment : Assignment) (underMin exactlyMin : List String)
    (tp : TopicPartition) : RoundRobin -> Prop where
  | raise {id : String} {cursor : Nat} (listed : id ∈ underMin)
      (short : load (assignment.push id tp) id ≠ minQuota) :
      PlaceStep minQuota assignment underMin exactlyMin tp
        ⟨assignment.push id tp, underMin, exactlyMin, cursor⟩
  | fill {id : String} {rest : List String} {cursor : Nat} (split : (id :: rest).Perm underMin)
      (reached : load (assignment.push id tp) id = minQuota) :
      PlaceStep minQuota assignment underMin exactlyMin tp
        ⟨assignment.push id tp, rest, exactlyMin ++ [id], cursor⟩
  /-- No member is below the minimum. -/
  | top {id : String} {rest : List String} {cursor : Nat} (noneUnder : underMin = [])
      (first : exactlyMin = id :: rest) :
      PlaceStep minQuota assignment underMin exactlyMin tp
        ⟨assignment.push id tp, [], rest, cursor⟩

theorem give_step {minQuota : Nat} {state : RoundRobin} {id : String} (tp : TopicPartition)
    (atCursor : state.underMin[state.cursor]? = some id) :
    PlaceStep minQuota state.assignment state.underMin state.exactlyMin tp
      (state.give minQuota id tp) := by
  unfold RoundRobin.give
  rw [if_pos atCursor]
  by_cases reached : load (state.assignment.push id tp) id = minQuota
  · rw [if_pos reached]
    rcases List.getElem?_eq_some_iff.mp atCursor with ⟨bound, here⟩
    refine .fill ?_ reached
    rw [<- here]
    exact getElem_cons_eraseIdx_perm bound
  · rw [if_neg reached]
    exact .raise (mem_of_getElem? atCursor) reached

theorem place_step {minQuota : Nat} {state next : RoundRobin} {tp : TopicPartition}
    (placed : state.place minQuota tp = some next) :
    PlaceStep minQuota state.assignment state.underMin state.exactlyMin tp next := by
  rcases state with ⟨assignment, underMin, exactlyMin, cursor⟩
  unfold RoundRobin.place at placed
  cases atCursor : underMin[cursor]? with
  | some id =>
    rw [atCursor] at placed
    cases placed
    exact give_step tp atCursor
  | none =>
    rw [atCursor] at placed
    cases underMin with
    | cons first rest =>
      cases placed
      exact @give_step minQuota ⟨assignment, first :: rest, exactlyMin, 0⟩ first tp rfl
    | nil =>
      cases exactlyMin with
      | nil => cases placed
      | cons id rest =>
        rw [<- Option.some.inj placed, RoundRobin.give, if_neg (by simp)]
        exact .top rfl rfl

theorem PlaceStep.pushed {minQuota : Nat} {assignment : Assignment}
    {underMin exactlyMin : List String} {tp : TopicPartition} {next : RoundRobin}
    (step : PlaceStep minQuota assignment underMin exactlyMin tp next) :
    Exists fun id => next.assignment = assignment.push id tp := by
  cases step with
  | raise | fill | top => exact ⟨_, rfl⟩

section RoundRobin

variable {ids : List String} {minQuota left : Nat} {state next : RoundRobin} {tp : TopicPartition}

theorem PlaceStep.levels
    (step : PlaceStep minQuota state.assignment state.underMin state.exactlyMin tp next)
    (invariant : RoundRobinInvariant ids minQuota (left + 1) state)
    (levels : Levels minQuota ids state.assignment state.underMin state.exactlyMin)
    (room : deficit minQuota state.assignment state.underMin ≤ left + 1) :
    Levels minQuota ids next.assignment next.underMin next.exactlyMin ∧
      deficit minQuota next.assignment next.underMin ≤ left := by
  have loadAfter (id : String) : load (state.assignment.extend id [tp]) id =
      load state.assignment id + 1 := load_extend_self state.assignment id [tp]
  have notQueued {id : String} (listed : id ∈ state.underMin) : id ∉ state.exactlyMin :=
    fun queued => Nat.ne_of_lt (invariant.under id listed).2 (levels.waiting id queued)
  cases step with
  | @raise id cursor listed short =>
    have below := (invariant.under id listed).2
    have isLoad := loadAfter id
    refine ⟨levels.update (fun other known _ => known) (fun _ => listed) (by omega)
      (fun other member _ => member) (fun other member _ => member)
      (fun member => absurd member (notQueued listed)) levels.waitingDistinct, ?_⟩
    rcases append_of_mem listed with ⟨before, after, same⟩
    have split : (id :: (before ++ after)).Perm state.underMin := by
      rw [same]
      exact perm_middle.symm
    have spent := (deficit_push split invariant.underDistinct below tp).1
    dsimp only
    omega
  | @fill id rest cursor split reached =>
    have listed : id ∈ state.underMin := split.mem_iff.mp (.head _)
    have below := (invariant.under id listed).2
    rw [push] at reached
    refine ⟨levels.update (fun other known _ => known) (fun under => by omega) (by omega)
      (fun other member different => ?_) (fun other member different => ?_) (fun _ => reached)
      ?_, ?_⟩
    · exact (mem_cons.mp (split.mem_iff.mpr member)).resolve_left different
    · rcases mem_append.mp member with old | new
      · exact old
      · exact absurd (mem_singleton.mp new) different
    · refine nodup_append.mpr ⟨levels.waitingDistinct, nodup_singleton id, ?_⟩
      intro other isOther last isLast same
      exact notQueued listed (mem_singleton.mp isLast ▸ same ▸ isOther)
    · have spent := (deficit_push split invariant.underDistinct below tp).2
      dsimp only
      omega
  | @top id rest cursor noneUnder first =>
    have queued : id ∈ state.exactlyMin := first ▸ (.head _)
    have isLoad := loadAfter id
    have waiting := levels.waiting id queued
    have distinct := nodup_cons.mp (first ▸ levels.waitingDistinct)
    refine ⟨levels.update (fun other known _ => known) (fun under => by omega) (by omega)
      (fun other member _ => noneUnder ▸ member) (fun other member _ => ?_)
      (fun member => absurd member distinct.1) distinct.2, Nat.zero_le _⟩
    rw [first]
    exact .tail id member

/-- The round robin leaves every member at the minimum or one above it. -/
theorem placeAll_even (remaining : List TopicPartition)
    (invariant : RoundRobinInvariant ids minQuota remaining.length state)
    (levels : Levels minQuota ids state.assignment state.underMin state.exactlyMin)
    (room : deficit minQuota state.assignment state.underMin ≤ remaining.length) :
    Even minQuota ids (state.placeAll minQuota remaining).assignment := by
  induction remaining generalizing state with
  | nil =>
    intro id known
    refine ⟨Nat.le_of_not_lt fun below => ?_, levels.atMost id known⟩
    exact Nat.not_le_of_lt (deficit_pos (levels.under id known below) below) room
  | cons partition rest ih =>
    rcases place_spec invariant partition with ⟨next, _, placed, _, _, kept⟩
    rw [RoundRobin.placeAll, placed]
    have after := (place_step placed).levels invariant levels room
    exact ih kept after.1 after.2

/-- The round robin takes nothing away. -/
theorem placeAll_keeps (remaining : List TopicPartition) (held : tp ∈ state.assignment.bucket id) :
    tp ∈ (state.placeAll minQuota remaining).assignment.bucket id := by
  induction remaining generalizing state with
  | nil => exact held
  | cons partition rest ih =>
    rw [RoundRobin.placeAll]
    cases placed : state.place minQuota partition with
    | none => exact held
    | some next =>
      refine ih ?_
      rcases (place_step placed).pushed with ⟨member, pushed⟩
      rw [pushed, push, bucket_extend]
      split_ifs with same
      · exact mem_append_left _ (same ▸ held)
      · exact held

end RoundRobin

/-! ## Members that keep everything -/

/-- The members own at most one partition above the minimum, and no more of them
do so than get that many. -/
structure Fits (quotas : Quotas) (ids : List String) (current : Assignment) : Prop where
  atMost : forall id, id ∈ ids -> load current id ≤ quotas.minQuota + 1
  few : countAbove quotas.minQuota ids current ≤ quotas.expectedOverMin

structure KeptAll (quotas : Quotas) (current : Assignment) (done : List String)
    (state : OwnedState) : Prop where
  kept : forall id, id ∈ done -> state.assignment.bucket id = sortOwned (current.bucket id)
  overMin : state.currentOverMin = countAbove quotas.minQuota done current

section KeptAll

variable {quotas : Quotas} {current : Assignment} {state next : OwnedState} {id : String}
  {done ids : List String}

theorem countAbove_snoc (low : Nat) (keys : List String) (id : String) (buckets : Assignment) :
    countAbove low (keys ++ [id]) buckets =
      countAbove low keys buckets + if low < load buckets id then 1 else 0 := by
  rw [countAbove, countP_append, countP_singleton, countAbove]
  simp only [decide_eq_true_eq]
  rfl

theorem OwnedStep.keptAll (step : OwnedStep quotas (sortOwned (current.bucket id)) state id next)
    (maximum : 0 < quotas.expectedOverMin -> quotas.maxQuota = quotas.minQuota + 1)
    (nothingYet : state.assignment.bucket id = [])
    (atMost : load current id ≤ quotas.minQuota + 1)
    (few : countAbove quotas.minQuota (done ++ [id]) current ≤ quotas.expectedOverMin)
    (invariant : KeptAll quotas current done state) :
    KeptAll quotas current (done ++ [id]) next := by
  have isLoad : (sortOwned (current.bucket id)).length = load current id :=
    (sortOwned_perm _).length_eq
  have overMin := invariant.overMin
  have keep {part : List TopicPartition} (all : part = sortOwned (current.bucket id))
      (other : String) (known : other ∈ done ++ [id]) :
      (state.keep id part).assignment.bucket other = sortOwned (current.bucket other) := by
    rw [OwnedState.keep, bucket_extend, nothingYet, nil_append]
    split_ifs with same
    · rw [all, same]
    · refine invariant.kept other ((mem_append.mp known).resolve_right fun new => ?_)
      exact same (mem_singleton.mp new)
  rw [countAbove_snoc] at few
  cases step with
  | under below =>
    refine ⟨keep rfl, ?_⟩
    rw [countAbove_snoc, if_neg (by omega)]
    exact overMin
  | beyond enough more =>
    have above : quotas.minQuota < load current id := by omega
    refine ⟨keep (take_of_length_le (by omega)), ?_⟩
    rw [countAbove_snoc, if_pos above, <- overMin]
  | exactly enough notOver =>
    -- A member above the minimum is one of the few that keep the maximum.
    have notAbove : ¬ quotas.minQuota < load current id := by
      intro above
      rw [if_pos above] at few
      have more : state.currentOverMin < quotas.expectedOverMin := by omega
      exact notOver ⟨by rw [maximum (Nat.zero_lt_of_lt more)]; omega, more⟩
    refine ⟨keep (take_of_length_le (by omega)), ?_⟩
    rw [countAbove_snoc, if_neg notAbove]
    exact overMin

theorem ownedLoop_keptAll (fits : Fits quotas ids current)
    (maximum : 0 < quotas.expectedOverMin -> quotas.maxQuota = quotas.minQuota + 1)
    (distinct : current.items.Nodup) (idsDistinct : ids.Nodup) :
    KeptAll quotas current ids (ownedLoop quotas ids current) := by
  refine (foldl_assignOwned (fun done state => KeptInvariant current ids done state ∧
    KeptAll quotas current done state) ?_ ids (nil_append ids) idsDistinct
    ⟨ownedStart_kept current ids, nofun, rfl⟩).2
  rintro done id state known fresh before ⟨kept, keptAll⟩
  refine ⟨assignOwned_kept kept distinct known fresh,
    (assignOwned_step quotas current state id).keptAll maximum (kept.untouched id fresh)
      (fits.atMost id known) ?_ keptAll⟩
  exact (before.sublist.countP_le).trans fits.few

end KeptAll

/-! ## Members that keep the minimum -/

section KeptMin

variable {quotas : Quotas} {current : Assignment} {ids : List String}

/-- A round keeps the owned partitions in their order, at least up to the minimum. -/
theorem OwnedStep.take {owned : List TopicPartition} {state next : OwnedState} {id : String}
    (step : OwnedStep quotas owned state id next)
    (maximum : 0 < quotas.expectedOverMin -> quotas.maxQuota = quotas.minQuota + 1) :
    Exists fun kept => quotas.minQuota ≤ kept ∧
      next.assignment = state.assignment.extend id (owned.take kept) := by
  cases step with
  | under below =>
    refine ⟨quotas.minQuota, le_refl _, ?_⟩
    rw [take_of_length_le (le_of_lt below)]
    rfl
  | beyond enough more =>
    exact ⟨quotas.maxQuota, by omega, rfl⟩
  | exactly enough notOver => exact ⟨quotas.minQuota, le_refl _, rfl⟩

theorem ownedLoop_take
    (maximum : 0 < quotas.expectedOverMin -> quotas.maxQuota = quotas.minQuota + 1)
    (distinct : current.items.Nodup) (idsDistinct : ids.Nodup) (known : id ∈ ids) :
    Exists fun kept => quotas.minQuota ≤ kept ∧
      (ownedLoop quotas ids current).assignment.bucket id =
        (sortOwned (current.bucket id)).take kept := by
  refine (foldl_assignOwned (fun done state => KeptInvariant current ids done state ∧
    forall id, id ∈ done -> Exists fun kept => quotas.minQuota ≤ kept ∧
      state.assignment.bucket id = (sortOwned (current.bucket id)).take kept) ?_ ids
    (nil_append ids) idsDistinct ⟨ownedStart_kept current ids, nofun⟩).2 id known
  rintro done id state known fresh _ ⟨kept, taken⟩
  refine ⟨assignOwned_kept kept distinct known fresh, fun other isDone => ?_⟩
  rcases (assignOwned_step quotas current state id).take maximum with ⟨count, enough, extended⟩
  rw [extended, bucket_extend, kept.untouched id fresh, nil_append]
  split_ifs with same
  · exact ⟨count, enough, by rw [same]⟩
  · exact taken other ((mem_append.mp isDone).resolve_right
      fun last => same (mem_singleton.mp last))

end KeptMin

/-! ## The path as a whole -/

/-- Members own at most what an even assignment gives them. -/
theorem Fits.of_even {total : Nat} {raw : Assignment} (idsDistinct : ids.Nodup)
    (keyed : forall id, raw.contains id = true <-> id ∈ ids) (whole : raw.items.length = total)
    (even : Even (Quotas.of total ids.length).minQuota ids raw)
    (within : forall id, id ∈ ids -> load current id ≤ load raw id) :
    Fits (Quotas.of total ids.length) ids current := by
  refine ⟨fun id known => (within id known).trans (even id known).2, ?_⟩
  have fewer (low : Nat) : countAbove low ids current ≤ countAbove low ids raw :=
    countP_mono_left fun id known above => decide_eq_true
      (lt_of_lt_of_le (of_decide_eq_true above) (within id known))
  refine (fewer _).trans ?_
  have count := even.length_items idsDistinct keyed
  have division := quotas_total total ids.length
  omega

theorem handOut_even {all : List TopicPartition} (someMember : 0 < ids.length)
    (allDistinct : all.Nodup) (distinct : current.items.Nodup) (idsDistinct : ids.Nodup)
    (inAll : forall id, id ∈ ids -> forall tp, tp ∈ current.bucket id -> tp ∈ all) :
    let quotas := Quotas.of all.length ids.length
    Even quotas.minQuota ids (handOut quotas all (ownedLoop quotas ids current)).assignment := by
  intro quotas
  have levels : Levels quotas.minQuota ids _ _ _ :=
    ownedLoop_levels (quotas_max someMember) distinct idsDistinct
  rcases ownedLoop_spec quotas distinct idsDistinct with ⟨kept, count⟩
  generalize ownedLoop quotas ids current = state at levels kept count ⊢
  have start := handOut_start someMember allDistinct inAll kept count
  have lengths := (kept.split allDistinct inAll).length_eq
  rw [length_append] at lengths
  have underSame := sorted_perm state.underMin
  have queueSame := sorted_perm state.exactlyMin
  refine placeAll_even _ start ⟨?_, levels.atMost, ?_, ?_⟩ ?_
  · exact fun id known below => underSame.mem_iff.mpr (levels.under id known below)
  · exact fun id member => levels.waiting id (queueSame.mem_iff.mp member)
  · exact queueSame.nodup_iff.mpr levels.waitingDistinct
  · have room : state.assignment.items.length +
        deficit quotas.minQuota state.assignment state.underMin + quotas.expectedOverMin =
          all.length + state.currentOverMin := total_after_owned someMember count
    have bound := count.overBound
    dsimp only
    rw [deficit_perm _ _ underSame]
    omega

section Shared

variable {ids : List String} {subs : Subscriptions} {current : Assignment}
  {topicPartitions : TopicPartitions} {shared : SortedSet String}

section

variable (someMember : ids ≠ []) (idsDistinct : ids.Nodup)
  (sharedBy : forall id, id ∈ ids -> subs.get? id = some shared)
  (valid : ValidCurrent subs topicPartitions current)

include someMember idsDistinct sharedBy valid

theorem constrainedAssign_even :
    Even (Quotas.of (allPartitions shared topicPartitions).length ids.length).minQuota ids
      (constrainedAssign ids subs current topicPartitions) := by
  have even := handOut_even (length_pos_of_ne_nil someMember)
    (allPartitions_nodup shared topicPartitions) valid.distinct idsDistinct
    (valid.mem_allPartitions sharedBy)
  intro id known
  rw [constrainedAssign_eq someMember sharedBy, (bucket_mapValues _ _ sorted_perm id).length_eq]
  exact even id known

theorem constrainedAssign_keeps
    (fits : Fits (Quotas.of (allPartitions shared topicPartitions).length ids.length) ids current)
    (known : id ∈ ids) :
    current.bucket id ⊆ (constrainedAssign ids subs current topicPartitions).bucket id := by
  intro tp held
  have keptAll := ownedLoop_keptAll fits (quotas_max (length_pos_of_ne_nil someMember))
    valid.distinct idsDistinct
  rw [constrainedAssign_eq someMember sharedBy, (bucket_mapValues _ _ sorted_perm id).mem_iff]
  refine placeAll_keeps _ ?_
  rw [keptAll.kept id known, (sortOwned_perm _).mem_iff]
  exact held

theorem constrainedAssign_keepsMin (known : id ∈ ids) :
    Exists fun kept : List TopicPartition => kept.Sublist (sortOwned (current.bucket id)) ∧
      min (load current id)
        (Quotas.of (allPartitions shared topicPartitions).length ids.length).minQuota ≤
          kept.length ∧
      forall tp, tp ∈ kept ->
        tp ∈ (constrainedAssign ids subs current topicPartitions).bucket id := by
  have maximum := @quotas_max (allPartitions shared topicPartitions).length ids.length
    (length_pos_of_ne_nil someMember)
  rcases ownedLoop_take maximum valid.distinct idsDistinct known with ⟨count, enough, isTaken⟩
  refine ⟨_, take_sublist count _, ?_, fun tp member => ?_⟩
  · rw [length_take, (sortOwned_perm _).length_eq, load]
    omega
  · rw [constrainedAssign_eq someMember sharedBy, (bucket_mapValues _ _ sorted_perm id).mem_iff]
    refine placeAll_keeps _ ?_
    rw [isTaken]
    exact member

/-- The number of members with one partition more than the minimum. -/
theorem constrainedAssign_above :
    countAbove ((allPartitions shared topicPartitions).length / ids.length) ids
        (constrainedAssign ids subs current topicPartitions) =
      (allPartitions shared topicPartitions).length % ids.length := by
  have distributes := constrainedAssign_distributes someMember idsDistinct sharedBy valid
  have count := (constrainedAssign_even someMember idsDistinct sharedBy valid).length_items
    idsDistinct distributes.keyed
  rw [distributes.items.length_eq] at count
  have division := quotas_total (allPartitions shared topicPartitions).length ids.length
  dsimp only [Quotas.of] at count division
  omega

end

end Shared

end Assignor
end Krabka
