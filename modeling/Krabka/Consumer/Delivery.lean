import Krabka.Consumer.FetchBuffer

namespace Krabka
namespace Consumer

open Collections List Option

universe u

/-!
# Delivery of fetched records

What one drain does to each partition.  The position of a partition moves only
over records that were returned (`Reads`), because a drain skips only data that
does not start at it.
-/

variable {Data : Type u} {maxRecords : Nat} {view : View} {consumed : Consumed}
  {out : List (ConsumerRecord Data)} {buffer pausedData : List (BufferedPartition Data)}
  {drained : Drained Data}

/-! ## The records of one partition -/

structure BufferedPartition.WellFormed (partition : BufferedPartition Data) : Prop where
  keyed : forall record, record ∈ partition.records -> record.key = partition.key
  ordered : partition.records.Pairwise (fun left right => left.offset < right.offset)
  above : forall record, record ∈ partition.records -> partition.position ≤ record.offset
  past : forall record, record ∈ partition.records -> record.offset < partition.nextOffset
  forward : partition.position ≤ partition.nextOffset

/-- Later data of a partition starts at the end of earlier data or after it. -/
def Chained (buffer : List (BufferedPartition Data)) : Prop :=
  buffer.Pairwise (fun early late => early.key = late.key -> early.nextOffset ≤ late.position)

structure WellFormed (buffer : List (BufferedPartition Data)) : Prop where
  each : forall partition, partition ∈ buffer -> partition.WellFormed
  chained : Chained buffer

variable {partition : BufferedPartition Data}

theorem WellFormed.tail {rest : List (BufferedPartition Data)}
    (wellFormed : WellFormed (partition :: rest)) : WellFormed rest :=
  ⟨fun other member => wellFormed.each other (.tail _ member),
    (pairwise_cons.mp wellFormed.chained).2⟩

def recordsOf (key : TopicPartition) (records : List (ConsumerRecord Data)) :
    List (ConsumerRecord Data) :=
  records.filter (fun record => record.key = key)

structure Reads (key : TopicPartition) (buffer : List (BufferedPartition Data))
    (before behind : Int) (returned : List (ConsumerRecord Data)) : Prop where
  forward : before ≤ behind
  ordered : (recordsOf key returned).Pairwise (fun left right => left.offset < right.offset)
  within : forall record, record ∈ recordsOf key returned ->
    before ≤ record.offset ∧ record.offset < behind
  complete : forall partition, partition ∈ buffer -> partition.key = key ->
    forall record, record ∈ partition.records -> before ≤ record.offset ->
      record.offset < behind -> record ∈ returned

variable {records : List (ConsumerRecord Data)}

section Offsets

variable {key : TopicPartition} {partition : BufferedPartition Data}

theorem fresh_iff : consumed.stale view partition = false <-> view.assigned partition.key = true ∧
      consumed.offsets.get? partition.key = some partition.position := by
  simp [Consumed.stale]

theorem offsets_finish :
    (consumed.finish partition).offsets.get? key =
      if key = partition.key then some partition.nextOffset else consumed.offsets.get? key := by
  simp [Consumed.finish, Consumed.publish, SortedMap.get?_insert]

theorem offsets_cut {taken : List (ConsumerRecord Data)}
    (fresh : consumed.stale view partition = false) :
    (consumed.publish partition.key (positionAfter partition.position taken) false
      (lastEpochOf taken)).offsets.get? key =
      if key = partition.key then some (positionAfter partition.position taken)
      else consumed.offsets.get? key := by
  cases last : taken.getLast? with
  | none =>
    have unchanged : (consumed.publish partition.key (positionAfter partition.position taken) false
        (lastEpochOf taken)).offsets = consumed.offsets := by
      simp [Consumed.publish, lastEpochOf, last]
    rw [unchanged, positionAfter, last]
    split_ifs with same
    · rw [same]
      exact (fresh_iff.mp fresh).2
    · rfl
  | some record =>
    simp [Consumed.publish, lastEpochOf, last, positionAfter, SortedMap.get?_insert]

theorem recordsOf_append (left right : List (ConsumerRecord Data)) :
    recordsOf key (left ++ right) = recordsOf key left ++ recordsOf key right :=
  filter_append ..

theorem recordsOf_same (wellFormed : partition.WellFormed) (same : partition.key = key)
    (sub : records ⊆ partition.records) :
    recordsOf key records = records := by
  apply filter_eq_self.mpr
  intro record member
  simp [wellFormed.keyed record (sub member), same]

theorem recordsOf_other (wellFormed : partition.WellFormed) (different : partition.key ≠ key)
    (sub : records ⊆ partition.records) :
    recordsOf key records = [] := by
  apply filter_eq_nil_iff.mpr
  intro record member
  simp [wellFormed.keyed record (sub member), different]

end Offsets

variable {key : TopicPartition}

/-- The position of a partition stays when no data starts there, and when the
partition is paused. -/
theorem Passes.fixed (passes : Passes maxRecords view out pausedData consumed buffer drained)
    (each : forall partition, partition ∈ buffer -> partition.WellFormed)
    (never : forall partition, partition ∈ buffer -> partition.key = key ->
      consumed.stale view partition = true ∨ view.paused key = true) :
    recordsOf key drained.records = recordsOf key out ∧
      drained.consumed.offsets.get? key = consumed.offsets.get? key := by
  have other {partition : BufferedPartition Data} {rest : List (BufferedPartition Data)}
      {consumed : Consumed} (fresh : consumed.stale view partition = false)
      (active : view.paused partition.key = false)
      (never : forall other, other ∈ partition :: rest -> other.key = key ->
        consumed.stale view other = true ∨ view.paused key = true) : partition.key ≠ key := by
    intro same
    rcases never partition (.head _) same with stale | paused
    · rw [fresh] at stale
      cases stale
    · rw [same, paused] at active
      cases active
  induction passes with
  | done => exact ⟨rfl, rfl⟩
  | drop stale more ih | keep fresh paused more ih =>
    exact ih (fun later member => each later (.tail _ member))
      (fun later member => never later (.tail _ member))
  | @finish out pausedData rest consumed partition drained fresh active room more ih =>
    have different := other fresh active never
    have offset : (consumed.finish partition).offsets.get? key = consumed.offsets.get? key := by
      rw [offsets_finish, if_neg different.symm]
    have stillNever : forall later, later ∈ rest -> later.key = key ->
        (consumed.finish partition).stale view later = true ∨ view.paused key = true := by
      intro later member isKey
      have known := never later (.tail _ member) isKey
      simp only [Consumed.stale, isKey, offset] at known ⊢
      exact known
    rcases ih (fun later member => each later (.tail _ member)) stillNever with ⟨records, same⟩
    rw [recordsOf_append, recordsOf_other (each partition mem_cons_self) different
      (List.Subset.refl _), append_nil] at records
    exact ⟨records, same.trans offset⟩
  | @stop out pausedData rest consumed partition fresh active fits full =>
    have different := other fresh active never
    rw [recordsOf_append, recordsOf_other (each partition mem_cons_self) different
      (List.Subset.refl _), append_nil, offsets_finish, if_neg different.symm]
    exact ⟨rfl, rfl⟩
  | @cut out taken left pausedData rest consumed partition fresh active parts more fits full =>
    have different := other fresh active never
    have sub : taken ⊆ partition.records := parts ▸ subset_append_left taken left
    rw [recordsOf_append, recordsOf_other (each partition mem_cons_self) different sub,
      append_nil, offsets_cut fresh, if_neg different.symm]
    exact ⟨rfl, rfl⟩

section Reads

variable {key : TopicPartition} {partition : BufferedPartition Data}
  {rest : List (BufferedPartition Data)} {before between behind : Int}
  {taken left returned : List (ConsumerRecord Data)}

theorem Reads.stay (none : recordsOf key returned = []) :
    Reads key buffer before before returned where
  forward := le_refl _
  ordered := none ▸ List.Pairwise.nil
  within := by
    rw [none]
    exact nofun
  complete := fun _ _ _ record _ atLeast below => absurd below (not_lt.mpr atLeast)

theorem Reads.skip (reads : Reads key rest before behind returned)
    (taken : List (ConsumerRecord Data)) (none : recordsOf key taken = [])
    (outside : partition.key = key -> forall record, record ∈ partition.records ->
      before ≤ record.offset -> ¬ record.offset < behind) :
    Reads key (partition :: rest) before behind (taken ++ returned) where
  forward := reads.forward
  ordered := by
    rw [recordsOf_append, none]
    exact reads.ordered
  within := by
    rw [recordsOf_append, none]
    exact reads.within
  complete := by
    intro entry member same record inside atLeast below
    rcases mem_cons.mp member with isHead | inRest
    · subst isHead
      exact absurd below (outside same record inside atLeast)
    · exact mem_append_right _ (reads.complete entry inRest same record inside atLeast below)

section

variable (wellFormed : WellFormed (partition :: rest))

include wellFormed

/-- The front of the data of the partition is returned. -/
theorem Reads.front (same : partition.key = key) (parts : partition.records = taken ++ left)
    (forward : partition.position ≤ behind)
    (within : forall record, record ∈ taken -> record.offset < behind)
    (beyond : forall record, record ∈ left -> behind ≤ record.offset)
    (notPast : behind ≤ partition.nextOffset) :
    Reads key (partition :: rest) partition.position behind taken := by
  have each := wellFormed.each partition (.head _)
  have sub : taken ⊆ partition.records := parts ▸ subset_append_left taken left
  have only : recordsOf key taken = taken := recordsOf_same each same sub
  refine ⟨forward, ?_, ?_, ?_⟩
  · rw [only]
    exact (pairwise_append.mp (parts ▸ each.ordered)).1
  · rw [only]
    exact fun record member => ⟨each.above record (sub member), within record member⟩
  · intro entry member isKey record inside atLeast below
    rcases mem_cons.mp member with isHead | inRest
    · rw [isHead, parts] at inside
      rcases mem_append.mp inside with isTaken | isLeft
      · exact isTaken
      · exact absurd below (not_lt.mpr (beyond record isLeft))
    · have after := (pairwise_cons.mp wellFormed.chained).1 entry inRest (same.trans isKey.symm)
      have start := (wellFormed.each entry member).above record inside
      omega

/-- All the data of the partition is returned, and then records of the rest. -/
theorem Reads.append (first : Reads key (partition :: rest) before partition.nextOffset taken)
    (second : Reads key rest partition.nextOffset behind returned) :
    Reads key (partition :: rest) before behind (taken ++ returned) where
  forward := le_trans first.forward second.forward
  ordered := by
    rw [recordsOf_append]
    refine pairwise_append.mpr ⟨first.ordered, second.ordered, fun early isEarly late isLate => ?_⟩
    exact lt_of_lt_of_le (first.within early isEarly).2 (second.within late isLate).1
  within := by
    rw [recordsOf_append]
    intro record member
    have forwardFirst := first.forward
    have forwardSecond := second.forward
    rcases mem_append.mp member with early | late
    · have bounds := first.within record early
      omega
    · have bounds := second.within record late
      omega
  complete := by
    intro entry member same record inside atLeast below
    by_cases early : record.offset < partition.nextOffset
    · exact mem_append_left _ (first.complete entry member same record inside atLeast early)
    · rcases mem_cons.mp member with isHead | inRest
      · rw [isHead] at inside
        exact absurd ((wellFormed.each partition (.head _)).past record inside) early
      · exact mem_append_right _
          (second.complete entry inRest same record inside (not_lt.mp early) below)

theorem Reads.whole (same : partition.key = key) :
    Reads key (partition :: rest) partition.position partition.nextOffset partition.records := by
  have each := wellFormed.each partition (.head _)
  exact Reads.front wellFormed same (append_nil _).symm each.forward each.past
    nofun (le_refl _)

theorem Reads.part (same : partition.key = key) (parts : partition.records = taken ++ left) :
    Reads key (partition :: rest) partition.position (positionAfter partition.position taken)
      taken := by
  have each := wellFormed.each partition (.head _)
  have ordered := pairwise_append.mp (parts ▸ each.ordered)
  cases last : taken.getLast? with
  | none =>
    rw [getLast?_eq_none_iff.mp last, positionAfter, getLast?_nil]
    exact Reads.stay rfl
  | some final =>
    rcases getLast?_eq_some_iff.mp last with ⟨init, isTaken⟩
    have isFinal : final ∈ partition.records := by
      rw [parts, isTaken]
      simp
    rw [positionAfter, last]
    refine Reads.front wellFormed same parts ?_ ?_ ?_ ?_
    · exact Int.le_trans (each.above final isFinal) (Int.le_of_lt (Int.lt_succ _))
    · intro record member
      rw [isTaken] at member
      rcases mem_append.mp member with isInit | isLast
      · have before := (pairwise_append.mp (isTaken ▸ ordered.1)).2.2 record isInit final (.head _)
        exact Int.lt_trans before (Int.lt_succ _)
      · rw [mem_singleton.mp isLast]
        exact Int.lt_succ _
    · intro record member
      exact ordered.2.2 final (mem_of_getLast? last) record member
    · exact each.past final isFinal

end

end Reads

/-- Every partition is read from its position on, without gaps. -/
theorem Passes.reads {before : Int}
    (passes : Passes maxRecords view out pausedData consumed buffer drained)
    (wellFormed : WellFormed buffer) (isBefore : consumed.offsets.get? key = some before) :
    Exists fun returned => Exists fun behind => drained.records = out ++ returned ∧
      drained.consumed.offsets.get? key = some behind ∧ Reads key buffer before behind returned := by
  induction passes generalizing before with
  | done => exact ⟨[], before, (append_nil _).symm, isBefore, Reads.stay rfl⟩
  | @drop out pausedData rest consumed partition drained stale more ih =>
    rcases ih wellFormed.tail isBefore with
      ⟨returned, behind, records, isBehind, reads⟩
    refine ⟨returned, behind, records, isBehind, reads.skip [] rfl ?_⟩
    intro same record inside atLeast below
    have past := (wellFormed.each partition (.head _)).past record inside
    -- The position only moves with later data that starts at it, past this record.
    by_cases found : Exists fun later => later ∈ rest ∧ later.key = key ∧
        consumed.stale view later = false
    · rcases found with ⟨later, member, isKey, fresh⟩
      have start := (fresh_iff.mp fresh).2
      rw [isKey, isBefore, some.injEq] at start
      have after := (pairwise_cons.mp wellFormed.chained).1 later member (same.trans isKey.symm)
      omega
    · have fixed := more.fixed wellFormed.tail.each
        (fun later member isKey => .inl (Bool.not_eq_false _ ▸ fun fresh =>
          found ⟨later, member, isKey, fresh⟩))
      rw [isBehind, isBefore, some.injEq] at fixed
      omega
  | @keep out pausedData rest consumed partition drained fresh paused more ih =>
    rcases ih wellFormed.tail isBefore with
      ⟨returned, behind, records, isBehind, reads⟩
    refine ⟨returned, behind, records, isBehind, reads.skip [] rfl ?_⟩
    intro same record inside atLeast below
    have fixed := more.fixed wellFormed.tail.each (fun later member isKey => .inr (same ▸ paused))
    rw [isBehind, isBefore, some.injEq] at fixed
    omega
  | @finish out pausedData rest consumed partition drained fresh active room more ih =>
    by_cases same : partition.key = key
    · have start := (fresh_iff.mp fresh).2
      rw [same, isBefore, some.injEq] at start
      have next : (consumed.finish partition).offsets.get? key = some partition.nextOffset := by
        rw [offsets_finish, if_pos same.symm]
      rcases ih wellFormed.tail next with
        ⟨returned, behind, records, isBehind, reads⟩
      refine ⟨partition.records ++ returned, behind, by rw [records, append_assoc], isBehind, ?_⟩
      exact Reads.append wellFormed (start ▸ Reads.whole wellFormed same) reads
    · have next : (consumed.finish partition).offsets.get? key = some before := by
        rw [offsets_finish, if_neg (Ne.symm same), isBefore]
      rcases ih wellFormed.tail next with
        ⟨returned, behind, records, isBehind, reads⟩
      refine ⟨partition.records ++ returned, behind, by rw [records, append_assoc], isBehind, ?_⟩
      exact reads.skip _ (recordsOf_other (wellFormed.each partition (.head _)) same
        (List.Subset.refl _)) (fun isKey => absurd isKey same)
  | @stop out pausedData rest consumed partition fresh active fits full =>
    by_cases same : partition.key = key
    · have start := (fresh_iff.mp fresh).2
      rw [same, isBefore, some.injEq] at start
      refine ⟨partition.records, partition.nextOffset, rfl, ?_, start ▸ Reads.whole wellFormed same⟩
      rw [offsets_finish, if_pos same.symm]
    · refine ⟨partition.records, before, rfl, ?_, Reads.stay
        (recordsOf_other (wellFormed.each partition (.head _)) same (List.Subset.refl _))⟩
      rw [offsets_finish, if_neg (Ne.symm same), isBefore]
  | @cut out taken left pausedData rest consumed partition fresh active parts more fits full =>
    by_cases same : partition.key = key
    · have start := (fresh_iff.mp fresh).2
      rw [same, isBefore, some.injEq] at start
      refine ⟨taken, positionAfter partition.position taken, rfl, ?_,
        start ▸ Reads.part wellFormed same parts⟩
      rw [offsets_cut fresh, if_pos same.symm]
    · have sub : taken ⊆ partition.records := parts ▸ subset_append_left taken left
      refine ⟨taken, before, rfl, ?_, Reads.stay
        (recordsOf_other (wellFormed.each partition (.head _)) same sub)⟩
      rw [offsets_cut fresh, if_neg (Ne.symm same), isBefore]

/-! ## What is returned, kept and dropped -/

section

variable (passes : Passes maxRecords view out pausedData consumed buffer drained)

include passes

theorem Passes.returned :
    forall record, record ∈ drained.records -> record ∈ out ∨ Exists fun partition =>
      partition ∈ buffer ∧ record ∈ partition.records := by
  have later {partition : BufferedPartition Data} {rest : List (BufferedPartition Data)}
      {record : ConsumerRecord Data}
      (found : Exists fun entry => entry ∈ rest ∧ record ∈ entry.records) :
      Exists fun entry => entry ∈ partition :: rest ∧ record ∈ entry.records :=
    found.imp fun entry known => ⟨.tail _ known.1, known.2⟩
  induction passes with
  | done => exact fun record member => .inl member
  | drop stale more ih | keep fresh paused more ih =>
    exact fun record member => (ih record member).imp_right later
  | finish fresh active room more ih =>
    intro record member
    rcases ih record member with known | found
    · exact (mem_append.mp known).imp_right fun inside => ⟨_, .head _, inside⟩
    · exact .inr (later found)
  | stop fresh active fits full =>
    intro record member
    exact (mem_append.mp member).imp_right fun inside => ⟨_, .head _, inside⟩
  | @cut out taken left pausedData rest consumed partition fresh active parts more fits full =>
    intro record member
    refine (mem_append.mp member).imp_right fun inside =>
      ⟨partition, .head _, ?_⟩
    rw [parts]
    exact mem_append_left _ inside

theorem Passes.kept (assigned : view.assigned partition.key = true)
    (paused : view.paused partition.key = true)
    (start : consumed.offsets.get? partition.key = some partition.position)
    (member : partition ∈ buffer ∨ partition ∈ pausedData) : partition ∈ drained.buffer := by
  have other {head : BufferedPartition Data} (active : view.paused head.key = false) :
      head.key ≠ partition.key := by
    intro same
    rw [same, paused] at active
    cases active
  induction passes with
  | done => exact member.resolve_left not_mem_nil
  | drop stale more ih =>
    refine ih start (member.imp_left fun inside => ?_)
    rcases mem_cons.mp inside with isHead | inRest
    · rw [← isHead, fresh_iff.mpr ⟨assigned, start⟩] at stale
      cases stale
    · exact inRest
  | keep fresh isPaused more ih =>
    refine ih start ?_
    rcases member with inside | known
    · rcases mem_cons.mp inside with isHead | inRest
      · exact .inr (mem_append_right _ (mem_singleton.mpr isHead))
      · exact .inl inRest
    · exact .inr (mem_append_left _ known)
  | @finish out pausedData rest consumed head drained fresh active room more ih =>
    refine ih ?_ (member.imp_left fun inside => ?_)
    · rw [offsets_finish, if_neg (other active).symm, start]
    · exact (mem_cons.mp inside).resolve_left
        fun isHead => other active (congrArg BufferedPartition.key isHead.symm)
  | stop fresh active fits full =>
    refine mem_append.mpr (member.imp_left fun inside => ?_)
    exact (mem_cons.mp inside).resolve_left
      fun isHead => other active (congrArg BufferedPartition.key isHead.symm)
  | cut fresh active parts more fits full =>
    refine .tail _ (mem_append.mpr (member.imp_left fun inside => ?_))
    exact (mem_cons.mp inside).resolve_left
      fun isHead => other active (congrArg BufferedPartition.key isHead.symm)

/-- A drain that ends below its limit leaves only data of paused partitions that
starts at their positions. -/
theorem Passes.dropped (kept : forall partition, partition ∈ pausedData ->
      consumed.stale view partition = false ∧ view.paused partition.key = true)
    (below : drained.records.length < maxRecords) :
    forall partition, partition ∈ drained.buffer -> (partition ∈ buffer ∨ partition ∈ pausedData) ∧
        drained.consumed.stale view partition = false ∧ view.paused partition.key = true := by
  induction passes with
  | done => exact fun partition member => ⟨.inr member, kept partition member⟩
  | drop stale more ih =>
    intro partition member
    have known := ih kept below partition member
    exact ⟨known.1.imp_left (.tail _), known.2⟩
  | @keep out pausedData rest consumed head drained fresh paused more ih =>
    have stillKept : forall partition, partition ∈ pausedData ++ [head] ->
        consumed.stale view partition = false ∧ view.paused partition.key = true := by
      intro partition member
      rcases mem_append.mp member with old | isNew
      · exact kept partition old
      · rw [mem_singleton.mp isNew]
        exact ⟨fresh, paused⟩
    intro partition member
    have known := ih stillKept below partition member
    refine ⟨?_, known.2⟩
    rcases known.1 with inRest | inPaused
    · exact .inl (.tail _ inRest)
    · rcases mem_append.mp inPaused with old | isNew
      · exact .inr old
      · exact .inl (mem_singleton.mp isNew ▸ (.head _))
  | @finish out pausedData rest consumed head drained fresh active room more ih =>
    have stillKept : forall partition, partition ∈ pausedData ->
        (consumed.finish head).stale view partition = false ∧ view.paused partition.key = true := by
      intro partition member
      have known := kept partition member
      refine ⟨?_, known.2⟩
      have different : partition.key ≠ head.key := by
        intro same
        rw [← same, known.2] at active
        cases active
      rw [fresh_iff, offsets_finish, if_neg different, ← fresh_iff]
      exact known.1
    intro partition member
    have known := ih stillKept below partition member
    exact ⟨known.1.imp_left (.tail _), known.2⟩
  | stop fresh active fits full | cut fresh active parts more fits full =>
    exact absurd below (Nat.not_lt.mpr full)

end

/-! ## Positions move forward -/

section Forward

variable {partition : BufferedPartition Data} {taken left : List (ConsumerRecord Data)}

theorem BufferedPartition.WellFormed.positionAfter_bounds (wellFormed : partition.WellFormed)
    (parts : partition.records = taken ++ left) :
    partition.position ≤ positionAfter partition.position taken ∧
      positionAfter partition.position taken ≤ partition.nextOffset ∧
      forall record, record ∈ left -> positionAfter partition.position taken ≤ record.offset := by
  rw [positionAfter]
  cases last : taken.getLast? with
  | none =>
    refine ⟨le_refl _, wellFormed.forward, fun record isLeft => ?_⟩
    exact wellFormed.above record (parts ▸ mem_append_right taken isLeft)
  | some final =>
    have isFinal : final ∈ taken := mem_of_getLast? last
    have isRecord : final ∈ partition.records := parts ▸ mem_append_left left isFinal
    have above := wellFormed.above final isRecord
    have past := wellFormed.past final isRecord
    have ordered := wellFormed.ordered
    rw [parts, pairwise_append] at ordered
    dsimp only
    exact ⟨by omega, by omega, fun record isLeft => ordered.2.2 final isFinal record isLeft⟩

theorem BufferedPartition.WellFormed.rest (wellFormed : partition.WellFormed)
    (parts : partition.records = taken ++ left) : (partition.rest taken left).WellFormed := by
  rcases wellFormed.positionAfter_bounds parts with ⟨_, within, before⟩
  have isRecord {record : ConsumerRecord Data} (isLeft : record ∈ left) :
      record ∈ partition.records := parts ▸ mem_append_right taken isLeft
  have ordered := wellFormed.ordered
  rw [parts, pairwise_append] at ordered
  exact ⟨fun record isLeft => wellFormed.keyed record (isRecord isLeft), ordered.2.1, before,
    fun record isLeft => wellFormed.past record (isRecord isLeft), within⟩

section

variable (passes : Passes maxRecords view out pausedData consumed buffer drained)
  (each : forall partition, partition ∈ buffer -> partition.WellFormed)

include passes each

theorem Passes.forward {before : Int} (isBefore : consumed.offsets.get? key = some before) :
    Exists fun behind => drained.consumed.offsets.get? key = some behind ∧ before ≤ behind := by
  -- The data of a partition is returned only from its position on.
  have finished {consumed : Consumed} {partition : BufferedPartition Data} {before : Int}
      (fresh : consumed.stale view partition = false) (wellFormed : partition.WellFormed)
      (isBefore : consumed.offsets.get? key = some before) : Exists fun behind =>
        (consumed.finish partition).offsets.get? key = some behind ∧ before ≤ behind := by
    rw [offsets_finish]
    split_ifs with same
    · rw [same, (fresh_iff.mp fresh).2] at isBefore
      cases isBefore
      exact ⟨_, rfl, wellFormed.forward⟩
    · exact ⟨before, isBefore, le_refl _⟩
  induction passes generalizing before with
  | done => exact ⟨before, isBefore, le_refl _⟩
  | drop stale more ih | keep fresh paused more ih =>
    exact ih (fun later member => each later (.tail _ member)) isBefore
  | finish fresh active room more ih =>
    rcases finished fresh (each _ (.head _)) isBefore with ⟨between, isBetween, first⟩
    rcases ih (fun later member => each later (.tail _ member))
      isBetween with ⟨behind, isBehind, second⟩
    exact ⟨behind, isBehind, le_trans first second⟩
  | stop fresh active fits full => exact finished fresh (each _ (.head _)) isBefore
  | cut fresh active parts more fits full =>
    rw [offsets_cut fresh]
    split_ifs with same
    · rw [same, (fresh_iff.mp fresh).2] at isBefore
      cases isBefore
      exact ⟨_, rfl, ((each _ (.head _)).positionAfter_bounds parts).1⟩
    · exact ⟨before, isBefore, le_refl _⟩

theorem Passes.wellFormed (aside : forall partition, partition ∈ pausedData -> partition.WellFormed) :
    forall partition, partition ∈ drained.buffer -> partition.WellFormed := by
  induction passes with
  | done => exact aside
  | drop stale more ih | finish fresh active room more ih =>
    exact ih (fun later member => each later (.tail _ member)) aside
  | keep fresh paused more ih =>
    refine ih (fun later member => each later (.tail _ member)) fun later isLater => ?_
    rcases mem_append.mp isLater with isAside | isHead
    · exact aside later isAside
    · exact mem_singleton.mp isHead ▸ each _ (.head _)
  | stop fresh active fits full =>
    intro later isLater
    rcases mem_append.mp isLater with isRest | isAside
    · exact each later (.tail _ isRest)
    · exact aside later isAside
  | cut fresh active parts more fits full =>
    intro later isLater
    rcases mem_append.mp isLater with isFront | isAside
    · rcases mem_cons.mp isFront with isCut | isRest
      · exact isCut ▸ (each _ (.head _)).rest parts
      · exact each later (.tail _ isRest)
    · exact aside later isAside

end

end Forward

/-! ## Delivery -/

structure Delivers (view : View) (buffer : List (BufferedPartition Data)) (consumed : Consumed)
    (drained : Drained Data) (key : TopicPartition) : Prop where
  /-- The position moves over returned records only. -/
  reads : forall before, consumed.offsets.get? key = some before -> Exists fun behind =>
    drained.consumed.offsets.get? key = some behind ∧
      Reads key buffer before behind drained.records
  /-- Nothing is returned of a partition that is not assigned, is paused or has no
  data at its position. -/
  fixed : (view.assigned key = false ∨ view.paused key = true ∨
      forall partition, partition ∈ buffer -> partition.key = key ->
        consumed.offsets.get? key ≠ some partition.position) ->
    recordsOf key drained.records = [] ∧
      drained.consumed.offsets.get? key = consumed.offsets.get? key

theorem drain_delivers (maxRecords : Nat) (view : View) (consumed : Consumed)
    (wellFormed : WellFormed buffer) (key : TopicPartition) :
    Delivers view buffer consumed (drain maxRecords view buffer consumed) key := by
  have passes := drain_passes maxRecords view buffer consumed
  refine ⟨fun before isBefore => ?_, fun still => ?_⟩
  · rcases passes.reads wellFormed isBefore with ⟨returned, behind, records, isBehind, reads⟩
    exact ⟨behind, isBehind, records ▸ reads⟩
  · refine passes.fixed wellFormed.each fun partition member isKey => ?_
    rcases still with unassigned | paused | moved
    · exact .inl (by simp [Consumed.stale, isKey, unassigned])
    · exact .inr paused
    · have different := moved partition member isKey
      exact .inl (by simp [Consumed.stale, isKey, different])

/-- The fetch buffer delivers its records: one drain returns records up to its
limit, in the order of each partition and without gaps, and drains whose limits
add up to more than an unlimited drain returns do the same as that one. -/
theorem drain_correct {buffer : List (BufferedPartition Data)} (wellFormed : WellFormed buffer)
    (view : View) (consumed : Consumed) :
    (forall maxRecords, (drain maxRecords view buffer consumed).records.length ≤ maxRecords ∧
        (forall record, record ∈ (drain maxRecords view buffer consumed).records ->
          Exists fun partition => partition ∈ buffer ∧ record ∈ partition.records) ∧
        (forall key, Delivers view buffer consumed (drain maxRecords view buffer consumed) key) ∧
        (forall partition, partition ∈ buffer -> view.assigned partition.key = true ->
          view.paused partition.key = true ->
          consumed.offsets.get? partition.key = some partition.position ->
          partition ∈ (drain maxRecords view buffer consumed).buffer) ∧
        ((drain maxRecords view buffer consumed).records.length < maxRecords ->
          forall partition, partition ∈ (drain maxRecords view buffer consumed).buffer ->
            partition ∈ buffer ∧ view.assigned partition.key = true ∧
              view.paused partition.key = true ∧
              consumed.offsets.get? partition.key = some partition.position)) ∧
      forall unlimited limits, (drain unlimited view buffer consumed).records.length < unlimited ->
        (drain unlimited view buffer consumed).records.length < limits.sum ->
        (drains view limits buffer consumed).records =
            (drain unlimited view buffer consumed).records ∧
          (drains view limits buffer consumed).consumed =
            (drain unlimited view buffer consumed).consumed := by
  refine ⟨fun maxRecords => ?_, fun unlimited limits below enough => ?_⟩
  · have passes := drain_passes maxRecords view buffer consumed
    refine ⟨passes.length_le (Nat.zero_le _), fun record member => ?_,
      drain_delivers maxRecords view consumed wellFormed, ?_, ?_⟩
    · exact (passes.returned record member).resolve_left not_mem_nil
    · exact fun partition member assigned paused start =>
        passes.kept assigned paused start (.inl member)
    · intro below partition member
      have none : forall partition, partition ∈ ([] : List (BufferedPartition Data)) ->
          consumed.stale view partition = false ∧ view.paused partition.key = true :=
        nofun
      rcases passes.dropped none below partition member with ⟨known, fresh, paused⟩
      rcases fresh_iff.mp fresh with ⟨assigned, start⟩
      have fixed := ((drain_delivers maxRecords view consumed wellFormed partition.key).fixed
        (.inr (.inl paused))).2
      exact ⟨known.resolve_right not_mem_nil, assigned, paused, fixed.symm.trans start⟩
  · -- A drain that ends below its limit makes the whole delivery.
    have passes := drain_passes unlimited view buffer consumed
    rcases passes.deliver quiet_nil with ⟨returned, records, first, second⟩
    rw [deliver_quiet (passes.quiet quiet_nil below)] at first second
    rw [append_nil] at first
    rw [nil_append, <- first] at records
    have all := drains_deliver (records ▸ enough)
    exact ⟨all.1.trans records.symm, all.2.trans second⟩

/-- A record of one partition, and a control batch of another one that holds no
record for the application. -/
def twoPartitions : List (BufferedPartition Unit) :=
  [⟨⟨"t", 0⟩, 0, [⟨⟨"t", 0⟩, 0, 5, ()⟩], 1, some 5⟩, ⟨⟨"t", 1⟩, 0, [], 3, some 5⟩]

def twoPositions : Consumed :=
  ⟨(SortedMap.empty.insert ⟨"t", 0⟩ 0).insert ⟨"t", 1⟩ 0, SortedMap.empty⟩

theorem twoPartitions_wellFormed : WellFormed twoPartitions where
  each := by
    intro partition member
    simp only [twoPartitions, mem_cons, not_mem_nil, or_false] at member
    rcases member with isFirst | isSecond
    · subst isFirst
      constructor <;> simp
    · subst isSecond
      constructor <;> simp
  chained := by simp [Chained, twoPartitions]

theorem drain_correct_two :
    WellFormed twoPartitions ∧
      (drains ⟨fun _ => true, fun _ => false⟩ [1, 1] twoPartitions twoPositions).records =
        (drain 2 ⟨fun _ => true, fun _ => false⟩ twoPartitions twoPositions).records :=
  ⟨twoPartitions_wellFormed,
    ((drain_correct twoPartitions_wellFormed ⟨fun _ => true, fun _ => false⟩ twoPositions).2 2
      [1, 1] (by decide) (by decide)).1⟩

/-- A drain stops as soon as it reaches its limit.  It then leaves data of a
partition that is not assigned in the buffer, and the position before control
batches that an unlimited drain passes. -/
theorem drain_stops_at_limit :
    WellFormed twoPartitions ∧
      (drain 1 ⟨fun key => key.partition = 0, fun _ => false⟩ twoPartitions twoPositions).buffer =
        [⟨⟨"t", 1⟩, 0, [], 3, some 5⟩] ∧
      (drains ⟨fun _ => true, fun _ => false⟩ [1] twoPartitions twoPositions).records =
        (drain 2 ⟨fun _ => true, fun _ => false⟩ twoPartitions twoPositions).records ∧
      (drains ⟨fun _ => true, fun _ => false⟩ [1] twoPartitions
        twoPositions).consumed.offsets.get? ⟨"t", 1⟩ = some 0 ∧
      (drain 2 ⟨fun _ => true, fun _ => false⟩ twoPartitions
        twoPositions).consumed.offsets.get? ⟨"t", 1⟩ = some 3 :=
  ⟨twoPartitions_wellFormed, by decide, by decide, by decide, by decide⟩

end Consumer
end Krabka
