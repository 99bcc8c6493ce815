import Krabka.Coordination.Cluster
import Mathlib

namespace Krabka
namespace Coordination

open Collections List RoleStateBuilder

/-!
# What a role state says

The fold of the coordination partition keeps the newest record of each key, so it
does not depend on the order in which the records come, nor on what compaction
removed.  `apply` ignores a value that is not of the kind of its key, which
`decode_value` cannot produce; such a record supersedes nothing.

The decisions of `evaluate` are then followed over time.
-/

/-! ## The newest record -/

/-- The value is of the kind of the key, or a tombstone. -/
def CoordinationRecord.fits (kind : RecordKind) : CoordinationRecord -> Bool
  | .registration _ => kind = .registration
  | .lease _ => kind = .lease
  | .tombstone => true

namespace LogRecord

def registration? (role : Role) (member : MemberId) (record : LogRecord) : Option (Option Int64) :=
  if record.2.1 = .registration role member then
    match record.2.2 with
    | .registration registration => some (some registration.registeredAt)
    | .tombstone => some none
    | .lease _ => none
  else none

def lease? (role : Role) (record : LogRecord) : Option (Option Lease) :=
  if record.2.1.role = role ∧ record.2.1.kind = .lease then
    match record.2.2 with
    | .lease lease => some (some lease)
    | .tombstone => some none
    | .registration _ => none
  else none

end LogRecord

section Newest

variable {Value : Type} {reads : LogRecord -> Option Value} {records kept : List LogRecord}
  {record : LogRecord} {role : Role} {held : Int × Value}

def readings (reads : LogRecord -> Option Value) (records : List LogRecord) : List (Int × Value) :=
  records.filterMap fun record => (reads record).map fun value => (record.1, value)

/-- What the record with the highest offset says, of those that `reads` reads. -/
noncomputable def newest (reads : LogRecord -> Option Value) (records : List LogRecord) :
    Option (Int × Value) :=
  (readings reads records).argmax Prod.fst

theorem mem_readings : held ∈ readings reads records <->
    Exists fun record => record ∈ records ∧ record.1 = held.1 ∧ reads record = some held.2 := by
  simp [readings, Prod.ext_iff, and_comm]

/-- A slot after one more record. -/
def putNewest (reads : LogRecord -> Option Value) (slot : Option (Int × Value))
    (record : LogRecord) : Option (Int × Value) :=
  match reads record with
  | none => slot
  | some value =>
    if slot.any (fun held => record.1 ≤ held.1) then slot else some (record.1, value)

theorem newest_append (records : List LogRecord) (record : LogRecord) :
    newest reads (records ++ [record]) = putNewest reads (newest reads records) record := by
  unfold newest putNewest
  rw [readings, filterMap_append]
  change ((readings reads records ++ _).argmax Prod.fst) = _
  cases isRead : reads record with
  | none => simp [isRead]
  | some value =>
    simp only [filterMap_cons, isRead, Option.map_some, filterMap_nil, argmax_concat]
    generalize (readings reads records).argmax Prod.fst = slot
    cases slot with
    | none => rfl
    | some held =>
      simp only [Option.any_some, decide_eq_true_eq]
      split_ifs <;> first | rfl | omega

/-- The record is of another role, or a newer record of its key supersedes it. -/
def Dropped (role : Role) (records : List LogRecord) (record : LogRecord) : Prop :=
  record.2.1.role ≠ role ∨ Exists fun newer => newer ∈ records ∧ newer.2.1 = record.2.1 ∧
    record.1 < newer.1 ∧ newer.2.2.fits newer.2.1.kind = true

structure Condenses (role : Role) (records kept : List LogRecord) : Prop where
  mem : forall record, record ∈ kept -> record ∈ records
  dropped : forall record, record ∈ records -> record ∉ kept -> Dropped role records record

def ReadsKeys (role : Role) (reads : LogRecord -> Option Value) : Prop :=
  forall record, reads record ≠ none -> record.2.1.role = role ∧
    forall newer : LogRecord, newer.2.1 = record.2.1 -> newer.2.2.fits newer.2.1.kind = true ->
      reads newer ≠ none

theorem newest_condense (offsets : (records.map Prod.fst).Nodup)
    (condenses : Condenses role records kept) (keyed : ReadsKeys role reads) :
    newest reads kept = newest reads records := by
  have inRecords (held : Int × Value) (member : held ∈ readings reads kept) :
      held ∈ readings reads records := by
    rcases mem_readings.mp member with ⟨record, inKept, isHeld⟩
    exact mem_readings.mpr ⟨record, condenses.mem record inKept, isHeld⟩
  cases isNewest : newest reads records with
  | none =>
    have empty := argmax_eq_none.mp isNewest
    refine argmax_eq_none.mpr (eq_nil_iff_forall_not_mem.mpr fun held member => ?_)
    exact not_mem_nil (empty ▸ inRecords held member)
  | some held =>
    rcases mem_readings.mp (argmax_mem isNewest) with ⟨record, member, isOffset, isRead⟩
    have known := keyed record (isRead ▸ nofun)
    have inKept : record ∈ kept := by
      by_contra absent
      rcases condenses.dropped record member absent with other | ⟨newer, isIn, same, later, fits⟩
      · exact other known.1
      · rcases Option.ne_none_iff_exists'.mp (known.2 newer same fits) with ⟨value, newerRead⟩
        have below := le_of_mem_argmax
          (mem_readings.mpr ⟨newer, isIn, rfl, newerRead⟩ : (newer.1, value) ∈ _) isNewest
        omega
    have heldKept : held ∈ readings reads kept := mem_readings.mpr ⟨record, inKept, isOffset, isRead⟩
    cases isKept : newest reads kept with
    | none => exact absurd (argmax_eq_none.mp isKept ▸ heldKept) not_mem_nil
    | some top =>
      have above := le_of_mem_argmax heldKept isKept
      have topRead := inRecords top (argmax_mem isKept)
      have below := le_of_mem_argmax topRead isNewest
      rcases mem_readings.mp topRead with ⟨other, isIn, atOther, otherRead⟩
      have same := inj_on_of_nodup_map offsets isIn member (by omega)
      rw [same, isRead] at otherRead
      exact congrArg some (Prod.ext (by omega) (Option.some.inj otherRead).symm)

end Newest

/-! ## The slots of the fold -/

namespace RoleStateBuilder

variable {builder : RoleStateBuilder} {member : MemberId} {record : LogRecord}

def memberSlot (member : MemberId) (builder : RoleStateBuilder) : Option (Int × Option Int64) :=
  (builder.members.get? member).map fun slot => (slot.offset, slot.registeredAt)

def leaseSlot (builder : RoleStateBuilder) : Option (Int × Option Lease) :=
  builder.lease.map fun slot => (slot.offset, slot.lease)

theorem memberSlot_putMember (offset : Int) (other : MemberId) (registeredAt : Option Int64) :
    (builder.putMember offset other registeredAt).memberSlot member =
      if other ≠ member ∨ (builder.memberSlot member).any (fun held => offset ≤ held.1) then
        builder.memberSlot member
      else some (offset, registeredAt) := by
  by_cases same : other = member
  · subst same
    unfold putMember memberSlot
    cases held : builder.members.get? other with
    | none => simp [SortedMap.get?_insert_self]
    | some slot =>
      by_cases late : offset ≤ slot.offset
      · simp [held, late]
      · simp [late, SortedMap.get?_insert_self]
  · have kept : (builder.putMember offset other registeredAt).members.get? member =
        builder.members.get? member := by
      unfold putMember
      repeat' split
      all_goals first | rfl | exact SortedMap.get?_insert_of_ne _ _ (Ne.symm same)
    simp [memberSlot, kept, same]

theorem memberSlot_apply (builder : RoleStateBuilder) (member : MemberId) (record : LogRecord) :
    (builder.apply record.1 record.2.1 record.2.2).memberSlot member =
      putNewest (LogRecord.registration? builder.role member) (builder.memberSlot member) record := by
  rcases record with ⟨offset, key, value⟩
  unfold putNewest LogRecord.registration?
  by_cases isKey : key = .registration builder.role member
  · subst isKey
    cases value <;> simp [apply, CoordinationKey.registration, memberSlot_putMember]
  · rw [if_neg isKey]
    rcases key with ⟨kind, role, named⟩
    dsimp only
    unfold apply putLease
    repeat' split
    all_goals first
      | rfl
      | rw [memberSlot_putMember, if_pos]
        refine .inl fun isMember => isKey ?_
        simp_all [CoordinationKey.registration]

theorem leaseSlot_apply (builder : RoleStateBuilder) (record : LogRecord) :
    (builder.apply record.1 record.2.1 record.2.2).leaseSlot =
      putNewest (LogRecord.lease? builder.role) builder.leaseSlot record := by
  rcases record with ⟨offset, ⟨kind, role, named⟩, value⟩
  unfold putNewest LogRecord.lease?
  by_cases isRole : role = builder.role
  · cases kind with
    | registration =>
      rw [leaseSlot, apply_registration_lease builder offset value rfl]
      simp [leaseSlot]
    | lease =>
      cases value <;> simp [apply, isRole, putLease, leaseSlot, Option.any_map]
      all_goals split_ifs <;> rfl
  · simp [apply, isRole]

end RoleStateBuilder

section Fold

variable {role : Role} {records kept : List LogRecord}

open LogRecord

theorem fold_newest {Value : Type} {reads : LogRecord -> Option Value}
    (slot : RoleStateBuilder -> Option (Int × Value)) (empty : slot (.new role) = none)
    (applied : forall builder record, builder.role = role ->
      slot (builder.apply record.1 record.2.1 record.2.2) = putNewest reads (slot builder) record) :
    slot ((RoleStateBuilder.new role).fold records) = newest reads records := by
  induction records using List.reverseRecOn with
  | nil => exact empty
  | append_singleton records record ih =>
    rw [fold_append, applied _ record fold_role, ih, newest_append]

theorem memberSlot_fold (member : MemberId) :
    ((RoleStateBuilder.new role).fold records).memberSlot member =
      newest (registration? role member) records :=
  fold_newest _ rfl fun builder record isRole => isRole ▸ builder.memberSlot_apply member record

theorem leaseSlot_fold :
    ((RoleStateBuilder.new role).fold records).leaseSlot = newest (lease? role) records :=
  fold_newest _ rfl fun builder record isRole => isRole ▸ builder.leaseSlot_apply record

theorem key_of_registration? {member : MemberId} {record : LogRecord} {value : Option Int64}
    (isRead : registration? role member record = some value) :
    record.2.1 = .registration role member := by
  unfold registration? at isRead
  split_ifs at isRead with isKey
  exact isKey

theorem registration?_keyed (role : Role) (member : MemberId) :
    ReadsKeys role (registration? role member) := by
  intro record isRead
  rcases Option.ne_none_iff_exists'.mp isRead with ⟨value, isValue⟩
  have isKey := key_of_registration? isValue
  refine ⟨isKey ▸ rfl, ?_⟩
  rintro ⟨offset, key, newer⟩ sameKey fits
  cases sameKey.trans isKey
  cases newer <;> simp_all [registration?, CoordinationRecord.fits, CoordinationKey.registration]

theorem lease?_keyed (role : Role) : ReadsKeys role (lease? role) := by
  rintro ⟨offset, key, value⟩ isRead
  unfold lease? at isRead
  split_ifs at isRead with isKey
  · refine ⟨isKey.1, ?_⟩
    rintro ⟨newerOffset, newerKey, newerValue⟩ sameKey fits
    cases sameKey
    cases newerValue <;> simp_all [lease?, CoordinationRecord.fits]
  · exact absurd rfl isRead

theorem fold_condense (offsets : (records.map Prod.fst).Nodup)
    (condenses : Condenses role records kept) :
    (RoleStateBuilder.new role).fold kept = (RoleStateBuilder.new role).fold records := by
  have members : ((RoleStateBuilder.new role).fold kept).members =
      ((RoleStateBuilder.new role).fold records).members := by
    refine SortedMap.ext fun member => ?_
    have same := newest_condense offsets condenses (registration?_keyed role member)
    rw [<- memberSlot_fold, <- memberSlot_fold] at same
    refine Option.map_injective ?_ same
    rintro ⟨_, _⟩ ⟨_, _⟩ ⟨⟩
    rfl
  have lease : ((RoleStateBuilder.new role).fold kept).lease =
      ((RoleStateBuilder.new role).fold records).lease := by
    have same := newest_condense offsets condenses (lease?_keyed role)
    rw [<- leaseSlot_fold, <- leaseSlot_fold] at same
    refine Option.map_injective ?_ same
    rintro ⟨_, _⟩ ⟨_, _⟩ ⟨⟩
    rfl
  have isRole : ((RoleStateBuilder.new role).fold kept).role =
      ((RoleStateBuilder.new role).fold records).role :=
    fold_role.trans fold_role.symm
  exact RoleStateBuilder.mk.injEq .. ▸ ⟨isRole, members, lease⟩

theorem mem_roster {builder : RoleStateBuilder} {entry : RosterEntry} :
    entry ∈ builder.build.roster <->
      builder.memberSlot entry.member = some (entry.offset, some entry.registeredAt) := by
  unfold RoleStateBuilder.build RoleStateBuilder.memberSlot RoleStateBuilder.entries
  rw [(perm_insertionSort _ _).mem_iff, mem_filterMap, Option.map_eq_some_iff]
  constructor
  · rintro ⟨⟨member, slot⟩, inEntries, isEntry⟩
    rcases Option.map_eq_some_iff.mp isEntry with ⟨instant, isInstant, rfl⟩
    exact ⟨slot, (builder.members.mem_entries_iff member slot).mp inEntries, by rw [isInstant]⟩
  · rintro ⟨⟨offset, registeredAt⟩, found, isSlot⟩
    rcases entry with ⟨member, _, instant⟩
    cases isSlot
    exact ⟨(member, ⟨offset, some instant⟩), (builder.members.mem_entries_iff _ _).mpr found, rfl⟩

structure Folds (role : Role) (records : List LogRecord) : Prop where
  increasing : (RoleState.fromRecords role records).roster.Pairwise
    (fun left right => left.offset < right.offset)
  roster : forall entry, entry ∈ (RoleState.fromRecords role records).roster <->
    newest (registration? role entry.member) records = some (entry.offset, some entry.registeredAt)
  lease : (RoleState.fromRecords role records).lease = (newest (lease? role) records).bind Prod.snd
  condensed : forall kept, Condenses role records kept ->
    RoleState.fromRecords role kept = RoleState.fromRecords role records

/-- The fold gives the newest registration of every member and the newest lease,
whatever the order of the records and whatever compaction dropped. -/
theorem fromRecords_folds (role : Role) (records : List LogRecord)
    (offsets : (records.map Prod.fst).Nodup) : Folds role records := by
  have roster (entry : RosterEntry) : entry ∈ (RoleState.fromRecords role records).roster <->
      newest (registration? role entry.member) records =
        some (entry.offset, some entry.registeredAt) := by
    rw [RoleState.fromRecords, mem_roster, memberSlot_fold]
  refine ⟨?_, roster, ?_, fun kept condenses => ?_⟩
  · have unique := pairwise_map.mp (build_members_nodup ((RoleStateBuilder.new role).fold records))
    refine ((build_sorted _).and unique).imp_of_mem fun {left right} inLeft inRight ordered => ?_
    refine lt_of_le_of_ne ordered.1 fun same => ordered.2 ?_
    -- The two newest records have one offset, so they are one record.
    rcases mem_readings.mp (argmax_mem ((roster left).mp inLeft)) with
      ⟨first, inFirst, atFirst, isFirst⟩
    rcases mem_readings.mp (argmax_mem ((roster right).mp inRight)) with
      ⟨second, inSecond, atSecond, isSecond⟩
    have one := inj_on_of_nodup_map offsets inFirst inSecond
      (atFirst.trans (same.trans atSecond.symm))
    have sameKey := (key_of_registration? isFirst).symm.trans (one ▸ key_of_registration? isSecond)
    exact Option.some.inj (congrArg CoordinationKey.member sameKey)
  · rw [<- leaseSlot_fold, RoleStateBuilder.leaseSlot, Option.bind_map]
    rfl
  · rw [RoleState.fromRecords, fold_condense offsets condenses]
    rfl

end Fold

namespace Sample

def leaseA : Lease := ⟨nodeA, firstToken, 10, 2010⟩

/-- `nodeA` registers again behind `nodeB` while it holds the lease. -/
def registrations : List LogRecord :=
  [(0, .registration controller nodeA, .registration ⟨nodeA, 0⟩),
    (1, .registration controller nodeB, .registration ⟨nodeB, 5⟩),
    (2, .lease controller, .lease leaseA),
    (3, .registration controller nodeA, .registration ⟨nodeA, 20⟩)]

end Sample

open Sample

theorem fromRecords_folds_compacted :
    Folds controller registrations ∧ RoleState.fromRecords controller registrations.tail.reverse =
        RoleState.fromRecords controller registrations :=
  ⟨fromRecords_folds controller registrations (by decide), by decide⟩

/-- A lease value under the registration key of `nodeA` is ignored, so the
registration that it follows must stay. -/
theorem ignored_record_supersedes_nothing :
    RoleState.fromRecords controller [(0, .registration controller nodeA, .registration ⟨nodeA, 0⟩),
          (1, .registration controller nodeA, .lease leaseA)] ≠
      RoleState.fromRecords controller [(1, .registration controller nodeA, .lease leaseA)] := by
  decide

/-! ## Decisions over time -/

section Decisions

variable {state : RoleState} {me : MemberId}

/-- The decision of a registered member: it holds its live lease, or its challenge
comes at a time that does not depend on the clock. -/
theorem evaluate_eq (config : LeaseConfig) {entry : RosterEntry}
    (found : state.entry me = some entry) :
    Exists fun rank => state.rankOf me = some rank ∧ Exists fun challengeAt =>
      (forall lease, state.lease = some lease ->
        challengeAt = lease.challengeAtMillis config rank) ∧
      forall now, evaluate state me now config =
        if state.lease.any (fun lease => lease.member = me ∧ lease.isLiveAt now) then .hold
        else if challengeAt ≤ now then .challenge else .wait challengeAt := by
  have ranked : (state.rankOf me).isSome = true := by
    rw [RoleState.rankOf, found]
    split_ifs with holds
    · rfl
    · have member := mem_of_find?_eq_some found
      have isMe : entry.member = me := by simpa using find?_some found
      rw [findIdx?_isSome, any_eq_true]
      refine ⟨entry, mem_filter.mpr ⟨member, ?_⟩, decide_eq_true isMe⟩
      exact decide_eq_true fun same => holds (isMe ▸ same.symm)
  rcases Option.isSome_iff_exists.mp ranked with ⟨rank, isRank⟩
  refine ⟨rank, isRank, ?_⟩
  cases isLease : state.lease with
  | none =>
    refine ⟨saturatingAdd entry.registeredAt (config.challengeDelayMillis rank), by simp, ?_⟩
    intro now
    simp only [evaluate, found, isRank, isLease]
    rfl
  | some lease =>
    refine ⟨lease.challengeAtMillis config rank, ?_, fun now => ?_⟩
    · rintro _ ⟨⟩
      rfl
    · simp [evaluate, found, isRank, isLease]

theorem saturate_mono {left right : Int} (less : left ≤ right) : saturate left ≤ saturate right := by
  rw [Int64.le_iff_toInt_le, toInt_saturate, toInt_saturate]
  omega

section

variable (lease : Lease) (config : LeaseConfig)

/-- A larger rank has its challenge no earlier, also when the sums saturate. -/
theorem challengeAtMillis_mono {rank larger : Nat} (less : rank ≤ larger) :
    lease.challengeAtMillis config rank ≤ lease.challengeAtMillis config larger := by
  have stagger := config.nonnegative.2.2
  have ranks := saturate_mono (Int.ofNat_le.mpr less)
  rw [Int64.le_iff_toInt_le] at stagger ranks
  have delays := saturate_mono (Int.mul_le_mul_of_nonneg_right ranks stagger)
  rw [Int64.le_iff_toInt_le] at delays
  exact saturate_mono (Int.add_le_add_left delays _)

/-- The holder has rank 0, so its challenge comes at the deadline. -/
theorem challengeAtMillis_zero :
    lease.challengeAtMillis config 0 = lease.deadline := by
  have isZero : config.challengeDelayMillis 0 = 0 := by
    rw [<- Int64.toInt_inj, LeaseConfig.challengeDelayMillis, saturatingMul, toInt_saturate,
      toInt_saturate]
    simp
  rw [<- Int64.toInt_inj, Lease.challengeAtMillis, isZero, saturatingAdd, toInt_saturate]
  have upper := lease.deadline.toInt_lt
  have lower := lease.deadline.le_toInt
  simp only [Int64.toInt_zero]
  omega

end

/-- The decisions of `me` at all instants. -/
structure DecidesOverTime (state : RoleState) (config : LeaseConfig) (me : MemberId) : Prop where
  decides : forall now, evaluate state me now config ≠ .notRegistered
  waits : forall now later untilMillis, evaluate state me now config = .wait untilMillis ->
    now ≤ later ->
    evaluate state me later config = if later < untilMillis then .wait untilMillis else .challenge
  holds : forall now, evaluate state me now config = .hold <->
    Exists fun lease => state.lease = some lease ∧ lease.member = me ∧ now < lease.deadline
  reclaims : forall lease now, state.lease = some lease -> lease.member = me ->
    lease.deadline ≤ now -> evaluate state me now config = .challenge
  /-- A contender challenges no later than one with a larger rank. -/
  staggers : forall lease other rank otherRank, state.lease = some lease -> lease.member ≠ me ->
    lease.member ≠ other -> state.rankOf me = some rank -> state.rankOf other = some otherRank ->
    rank ≤ otherRank -> forall now, evaluate state other now config = .challenge ->
      evaluate state me now config = .challenge

/-- A registered member waits for one instant and challenges from then on, holds
its lease up to the deadline, and never challenges behind a larger rank. -/
theorem fromRecords_decides (role : Role) (records : List LogRecord) (config : LeaseConfig)
    (me : MemberId) (registered : ((RoleState.fromRecords role records).entry me).isSome = true) :
    DecidesOverTime (RoleState.fromRecords role records) config me := by
  generalize RoleState.fromRecords role records = state at registered
  rcases Option.isSome_iff_exists.mp registered with ⟨entry, found⟩
  rcases evaluate_eq config found with ⟨rank, isRank, challengeAt, atLease, decision⟩
  have expired {now later : Int64} (order : now ≤ later)
      (dead : ¬ state.lease.any (fun lease => lease.member = me ∧ lease.isLiveAt now) = true) :
      ¬ state.lease.any (fun lease => lease.member = me ∧ lease.isLiveAt later) = true := by
    rw [Option.any_eq_true] at dead ⊢
    rintro ⟨lease, isLease, holds⟩
    refine dead ⟨lease, isLease, ?_⟩
    simp only [Bool.decide_and, Bool.and_eq_true, decide_eq_true_eq, Lease.isLiveAt] at holds ⊢
    exact ⟨holds.1, Int64.lt_of_le_of_lt order holds.2⟩
  refine ⟨fun now => ?_, ?_, fun now => ?_, ?_, ?_⟩
  · rw [decision]
    split_ifs <;> nofun
  · intro now later untilMillis isWait order
    rw [decision] at isWait ⊢
    split_ifs at isWait with holds challenges
    cases isWait
    rw [if_neg (expired order holds)]
    by_cases past : challengeAt ≤ later
    · rw [if_pos past, if_neg (Int64.not_lt.mpr past)]
    · rw [if_neg past, if_pos (Int64.not_le.mp past)]
  · rw [decision]
    constructor
    · intro isHold
      split_ifs at isHold with holds
      rw [Option.any_eq_true] at holds
      rcases holds with ⟨lease, isLease, holds⟩
      simp only [Bool.decide_and, Bool.and_eq_true, decide_eq_true_eq, Lease.isLiveAt] at holds
      exact ⟨lease, isLease, holds⟩
    · rintro ⟨lease, isLease, isMe, live⟩
      simp [isLease, isMe, Lease.isLiveAt, live]
  · intro lease now isLease isMe late
    have isZero : rank = 0 := by
      rw [RoleState.rankOf, found, RoleState.holder, isLease] at isRank
      simpa [isMe] using isRank.symm
    rw [decision, atLease lease isLease, isZero, challengeAtMillis_zero, if_pos late]
    simp [isLease, Lease.isLiveAt, Int64.not_lt.mpr late]
  · intro lease other _ larger isLease notMe notOther isOther isLarger less now challenges
    cases isRank.symm.trans isOther
    have otherFound : (state.entry other).isSome = true := by
      by_contra absent
      rw [RoleState.rankOf, Option.not_isSome_iff_eq_none.mp absent] at isLarger
      cases isLarger
    rcases Option.isSome_iff_exists.mp otherFound with ⟨otherEntry, otherFound⟩
    rcases evaluate_eq config otherFound with ⟨_, isRank, otherAt, atOther, otherDecision⟩
    cases isRank.symm.trans isLarger
    have before := challengeAtMillis_mono lease config less
    rw [<- atLease lease isLease, <- atOther lease isLease] at before
    rw [otherDecision] at challenges
    split_ifs at challenges with holds past
    rw [decision, if_pos (Int64.le_trans before past)]
    simp [isLease, notMe]

theorem fromRecords_decides_standby :
    DecidesOverTime (RoleState.fromRecords controller registrations) setting.config nodeB ∧
      evaluate (RoleState.fromRecords controller registrations) nodeB 100 setting.config =
        .wait 2010 :=
  ⟨fromRecords_decides controller registrations setting.config nodeB (by decide), by decide⟩

end Decisions

end Coordination
end Krabka
