import Krabka.Collections.SortedMap
import Krabka.Coordination.Record
import Mathlib.Data.Prod.Lex
import Mathlib.Data.String.Basic
import Mathlib.Data.List.Nodup
import Mathlib.Data.List.Sort
import Mathlib.Order.Basic

namespace Krabka
namespace Coordination

open Collections List

/-!
# Succession of one role

`succession.rs` and the lease clock of `lease.rs`: the fold of the coordination
partition into the state of a role, the rank of a member, and `evaluate`.

The source keeps an extent as a floating-point `Time` that is positive and
finite.  The rules read only its whole milliseconds, which are not negative.
-/

/-! ## Orders -/

instance Name.linearOrder {field : Field} {bound : Nat} : LinearOrder (Name field bound) :=
  LinearOrder.lift' Name.text Name.text_injective

namespace FencingToken

/-- The derived order compares the producer id first. -/
def toPair (token : FencingToken) : Int ×ₗ Int :=
  toLex (token.producerId.toInt, token.producerEpoch.toInt)

theorem toPair_injective : Function.Injective toPair := by
  rintro ⟨leftId, leftEpoch, _⟩ ⟨rightId, rightEpoch, _⟩ same
  have parts := Prod.mk.inj (congrArg ofLex same)
  cases Int64.toInt_inj.mp parts.1
  cases Int16.toInt_inj.mp parts.2
  rfl

instance linearOrder : LinearOrder FencingToken := LinearOrder.lift' toPair toPair_injective

end FencingToken

/-! ## Saturating arithmetic -/

/-- The `i64` that is nearest to a number. -/
def saturate (value : Int) : Int64 := Int64.ofInt (max (-2 ^ 63) (min value (2 ^ 63 - 1)))

def saturatingAdd (left right : Int64) : Int64 := saturate (left.toInt + right.toInt)

def saturatingMul (left right : Int64) : Int64 := saturate (left.toInt * right.toInt)

theorem toInt_saturate (value : Int) :
    (saturate value).toInt = max (-2 ^ 63) (min value (2 ^ 63 - 1)) := by
  rw [saturate, Int64.toInt_ofInt]
  apply Int.bmod_eq_of_le <;> simp only [Int64.size] <;> omega

theorem le_saturatingAdd {left right : Int64} (nonnegative : 0 ≤ right) :
    left ≤ saturatingAdd left right := by
  rw [Int64.le_iff_toInt_le] at nonnegative ⊢
  have upper := left.toInt_lt
  simp only [Int64.toInt_zero] at nonnegative
  rw [saturatingAdd, toInt_saturate]
  omega

theorem saturate_nonnegative {value : Int} (nonnegative : 0 ≤ value) : 0 ≤ saturate value := by
  rw [Int64.le_iff_toInt_le, toInt_saturate]
  simp only [Int64.toInt_zero]
  omega

/-! ## `lease.rs` -/

/-- The lease timings of one role, in milliseconds. -/
structure LeaseConfig where
  duration : Int64
  renewInterval : Int64
  challengeStagger : Int64
  nonnegative : 0 ≤ duration ∧ 0 ≤ renewInterval ∧ 0 ≤ challengeStagger
deriving Repr

namespace LeaseConfig

def challengeDelayMillis (config : LeaseConfig) (rank : Nat) : Int64 :=
  saturatingMul (saturate rank) config.challengeStagger

/-- The lease record of a first grant and of a renewal. -/
def grant (config : LeaseConfig) (member : MemberId) (token : FencingToken) (now : Int64) : Lease :=
  ⟨member, token, now, saturatingAdd now config.duration⟩

theorem challengeDelayMillis_nonnegative (config : LeaseConfig) (rank : Nat) :
    0 ≤ config.challengeDelayMillis rank := by
  apply saturate_nonnegative
  apply Int.mul_nonneg
  · have nonnegative := saturate_nonnegative (Int.natCast_nonneg rank)
    rw [Int64.le_iff_toInt_le, Int64.toInt_zero] at nonnegative
    exact nonnegative
  · have nonnegative := config.nonnegative.2.2
    rw [Int64.le_iff_toInt_le, Int64.toInt_zero] at nonnegative
    exact nonnegative

end LeaseConfig

def Lease.isLiveAt (lease : Lease) (now : Int64) : Bool := now < lease.deadline

def Lease.challengeAtMillis (lease : Lease) (config : LeaseConfig) (rank : Nat) : Int64 :=
  saturatingAdd lease.deadline (config.challengeDelayMillis rank)

/-! ## The state of a role -/

structure RosterEntry where
  member : MemberId
  offset : Int
  registeredAt : Int64
deriving DecidableEq, Repr

/-- The roster is in the order of the offsets. -/
structure RoleState where
  roster : List RosterEntry
  lease : Option Lease
deriving DecidableEq, Repr

namespace RoleState

def holder (state : RoleState) : Option MemberId := state.lease.map Lease.member

def entry (state : RoleState) (member : MemberId) : Option RosterEntry :=
  state.roster.find? (fun entry => entry.member = member)

def contenders (state : RoleState) : List RosterEntry :=
  state.roster.filter (fun entry => some entry.member ≠ state.holder)

def rankOf (state : RoleState) (member : MemberId) : Option Nat :=
  match state.entry member with
  | none => none
  | some _ =>
    if state.holder = some member then some 0
    else state.contenders.findIdx? (fun entry => entry.member = member)

end RoleState

/-! ## The fold of the records -/

/-- `registeredAt` is `none` after a tombstone. -/
structure MemberSlot where
  offset : Int
  registeredAt : Option Int64
deriving DecidableEq, Repr

structure LeaseSlot where
  offset : Int
  lease : Option Lease
deriving DecidableEq, Repr

structure RoleStateBuilder where
  role : Role
  members : SortedMap MemberId MemberSlot
  lease : Option LeaseSlot

namespace RoleStateBuilder

def new (role : Role) : RoleStateBuilder := ⟨role, SortedMap.empty, none⟩

def putMember (builder : RoleStateBuilder) (offset : Int) (member : MemberId)
    (registeredAt : Option Int64) : RoleStateBuilder :=
  match builder.members.get? member with
  | some held =>
    if offset ≤ held.offset then builder
    else { builder with members := builder.members.insert member ⟨offset, registeredAt⟩ }
  | none => { builder with members := builder.members.insert member ⟨offset, registeredAt⟩ }

def putLease (builder : RoleStateBuilder) (offset : Int) (lease : Option Lease) :
    RoleStateBuilder :=
  if builder.lease.any (fun held => offset ≤ held.offset) then builder
  else { builder with lease := some ⟨offset, lease⟩ }

def apply (builder : RoleStateBuilder) (offset : Int) (key : CoordinationKey)
    (record : CoordinationRecord) : RoleStateBuilder :=
  if key.role ≠ builder.role then builder
  else
    match key.kind, record with
    | .registration, .registration registration =>
      match key.member with
      | some member => builder.putMember offset member (some registration.registeredAt)
      | none => builder
    | .registration, .tombstone =>
      match key.member with
      | some member => builder.putMember offset member none
      | none => builder
    | .lease, .lease lease => builder.putLease offset (some lease)
    | .lease, .tombstone => builder.putLease offset none
    | .registration, .lease _ => builder
    | .lease, .registration _ => builder

def entries (builder : RoleStateBuilder) : List RosterEntry :=
  builder.members.entries.filterMap fun (member, slot) =>
    slot.registeredAt.map fun registeredAt => ⟨member, slot.offset, registeredAt⟩

def build (builder : RoleStateBuilder) : RoleState where
  roster := builder.entries.insertionSort (fun left right => left.offset ≤ right.offset)
  lease := builder.lease.bind LeaseSlot.lease

end RoleStateBuilder

/-- A record of the partition with its offset. -/
abbrev LogRecord := Int × CoordinationKey × CoordinationRecord

def RoleStateBuilder.fold (builder : RoleStateBuilder) (records : List LogRecord) :
    RoleStateBuilder :=
  records.foldl (fun builder record => builder.apply record.1 record.2.1 record.2.2) builder

def RoleState.fromRecords (role : Role) (records : List LogRecord) : RoleState :=
  ((RoleStateBuilder.new role).fold records).build

/-! ## The fold of a longer log -/

section Fold

variable {role : Role} {records : List LogRecord} {builder : RoleStateBuilder}

section

variable (builder : RoleStateBuilder) (offset : Int)

section

variable (member : MemberId) (registeredAt : Option Int64)

theorem RoleStateBuilder.putMember_lease :
    (builder.putMember offset member registeredAt).lease = builder.lease := by
  unfold RoleStateBuilder.putMember
  repeat' split
  all_goals rfl

end

theorem RoleStateBuilder.apply_role (key : CoordinationKey) (record : CoordinationRecord) :
    (builder.apply offset key record).role = builder.role := by
  unfold RoleStateBuilder.apply RoleStateBuilder.putMember RoleStateBuilder.putLease
  repeat' split
  all_goals rfl

end

theorem RoleStateBuilder.fold_role : (builder.fold records).role = builder.role := by
  induction records generalizing builder with
  | nil => rfl
  | cons record rest ih =>
    exact ih.trans (apply_role ..)

theorem RoleStateBuilder.fold_lease_offset {bound : Int}
    (below : forall record, record ∈ records -> record.1 < bound)
    (first : forall held, builder.lease = some held -> held.offset < bound)
    {held : LeaseSlot} (found : (builder.fold records).lease = some held) :
    held.offset < bound := by
  induction records generalizing builder with
  | nil => exact first held found
  | cons record rest ih =>
    refine ih (fun other member => below other (mem_cons_of_mem _ member)) ?_ found
    intro slot isSlot
    -- The slot after one more record: the old one, or one at the offset of the record.
    dsimp only [apply, putLease] at isSlot
    repeat' split at isSlot
    all_goals first
      | exact first slot isSlot
      | exact first slot (putMember_lease .. ▸ isSlot)
      | cases isSlot
        exact below record mem_cons_self

theorem RoleStateBuilder.fold_append (builder : RoleStateBuilder) (records : List LogRecord)
    (offset : Int) (key : CoordinationKey) (record : CoordinationRecord) :
    builder.fold (records ++ [(offset, key, record)]) =
      (builder.fold records).apply offset key record := by
  rw [fold, foldl_append]
  rfl

variable {key : CoordinationKey}

theorem RoleStateBuilder.apply_registration_lease (builder : RoleStateBuilder) (offset : Int)
    (record : CoordinationRecord) (registers : key.kind = .registration) :
    (builder.apply offset key record).lease = builder.lease := by
  unfold RoleStateBuilder.apply
  rw [registers]
  repeat' split
  all_goals first
    | rfl
    | exact putMember_lease ..
    | contradiction

/-- A registration or a tombstone of one leaves the lease. -/
theorem fromRecords_append_registration {offset : Int} {record : CoordinationRecord}
    (registers : key.kind = .registration) :
    (RoleState.fromRecords role (records ++ [(offset, key, record)])).lease =
      (RoleState.fromRecords role records).lease := by
  rw [RoleState.fromRecords, RoleStateBuilder.fold_append]
  exact congrArg (fun slot => slot.bind LeaseSlot.lease)
    (RoleStateBuilder.apply_registration_lease _ offset record registers)

theorem fromRecords_append_lease {offset : Int} {lease : Lease}
    (below : forall record, record ∈ records -> record.1 < offset) :
    (RoleState.fromRecords role (records ++ [(offset, .lease role, .lease lease)])).lease =
      some lease := by
  rw [RoleState.fromRecords, RoleStateBuilder.fold_append]
  generalize isBuilder : (RoleStateBuilder.new role).fold records = builder
  have sameRole : builder.role = role := isBuilder ▸ RoleStateBuilder.fold_role
  have later : builder.lease.any (fun held => offset ≤ held.offset) = false := by
    cases held : builder.lease with
    | none => rfl
    | some slot =>
      have found : ((RoleStateBuilder.new role).fold records).lease = some slot := isBuilder ▸ held
      have before : slot.offset < offset :=
        RoleStateBuilder.fold_lease_offset below (fun _ isNone => by cases isNone) found
      simpa using before
  simp [RoleStateBuilder.build, RoleStateBuilder.apply, CoordinationKey.lease, sameRole,
    RoleStateBuilder.putLease, later]

end Fold

/-! ## Ranks -/

section Ranks

theorem build_sorted (builder : RoleStateBuilder) :
    builder.build.roster.Pairwise (fun left right => left.offset ≤ right.offset) := by
  exact pairwise_insertionSort _ _

theorem build_members_nodup (builder : RoleStateBuilder) :
    (builder.build.roster.map RosterEntry.member).Nodup := by
  have sorted := (perm_insertionSort
    (fun left right : RosterEntry => left.offset ≤ right.offset) builder.entries).map
      RosterEntry.member
  rw [RoleStateBuilder.build, sorted.nodup_iff]
  refine List.Sublist.nodup ?_ builder.members.keys_nodup
  unfold RoleStateBuilder.entries SortedMap.keys
  induction builder.members.entries with
  | nil => exact List.Sublist.refl _
  | cons first rest ih =>
    rcases first with ⟨member, offset, registeredAt⟩
    cases registeredAt with
    | none => exact ih.cons _
    | some instant => exact ih.cons_cons _

variable {state : RoleState}

/-- The rank of a contender is its place among the contenders. -/
theorem rankOf_contender (unique : (state.roster.map RosterEntry.member).Nodup) {index : Nat}
    {entry : RosterEntry} (found : state.contenders[index]? = some entry) :
    state.rankOf entry.member = some index := by
  have member := mem_filter.mp (mem_of_getElem? found)
  have known : (state.entry entry.member).isSome = true :=
    find?_isSome.mpr ⟨entry, member.1, by simp⟩
  have contends : ¬ state.holder = some entry.member := by
    have differs := member.2
    simp only [ne_eq, decide_not, Bool.not_eq_true', decide_eq_false_iff_not] at differs
    exact fun same => differs same.symm
  have distinct : (state.contenders.map RosterEntry.member).Nodup :=
    (filter_sublist.map RosterEntry.member).nodup unique
  rcases Option.isSome_iff_exists.mp known with ⟨other, isEntry⟩
  rw [RoleState.rankOf, isEntry]
  simp only [if_neg contends]
  rcases List.getElem?_eq_some_iff.mp found with ⟨bound, here⟩
  rw [findIdx?_eq_some_iff_getElem]
  refine ⟨bound, by simp [here], ?_⟩
  intro earlier before same
  have sameMember : state.contenders[earlier].member = state.contenders[index].member := by
    simpa [here] using same
  have differ := pairwise_iff_getElem.mp distinct earlier index
    (by simpa using Nat.lt_trans before bound) (by simpa using bound) before
  exact differ (by simpa using sameMember)

/-- Of two contenders the one with the lower offset has the smaller rank. -/
theorem rankOf_lt (sorted : state.roster.Pairwise (fun left right => left.offset ≤ right.offset))
    (unique : (state.roster.map RosterEntry.member).Nodup) {early late : RosterEntry}
    (earlyContends : early ∈ state.contenders) (lateContends : late ∈ state.contenders)
    (before : early.offset < late.offset) :
    Exists fun first => Exists fun second => state.rankOf early.member = some first ∧
      state.rankOf late.member = some second ∧ first < second := by
  rcases mem_iff_getElem?.mp earlyContends with ⟨first, atFirst⟩
  rcases mem_iff_getElem?.mp lateContends with ⟨second, atSecond⟩
  refine ⟨first, second, rankOf_contender unique atFirst, rankOf_contender unique atSecond, ?_⟩
  by_contra notLess
  rcases List.getElem?_eq_some_iff.mp atFirst with ⟨firstBound, isEarly⟩
  rcases List.getElem?_eq_some_iff.mp atSecond with ⟨secondBound, isLate⟩
  rcases Nat.lt_or_eq_of_le (Nat.not_lt.mp notLess) with less | same
  · have inOrder := List.pairwise_iff_getElem.mp (sorted.sublist List.filter_sublist) second first
      secondBound firstBound less
    have offsets : late.offset ≤ early.offset := by
      rw [← isEarly, ← isLate]
      exact inOrder
    omega
  · subst same
    have sameEntry : early = late := isEarly.symm.trans isLate
    rw [sameEntry] at before
    omega

end Ranks

/-! ## `evaluate` -/

inductive Decision where
  | hold
  | challenge
  | wait (untilMillis : Int64)
  | notRegistered
deriving DecidableEq, Repr

def evaluate (state : RoleState) (me : MemberId) (now : Int64) (config : LeaseConfig) : Decision :=
  match state.entry me, state.rankOf me with
  | some entry, some rank =>
    let waitOr (challengeAt : Int64) : Decision :=
      if challengeAt ≤ now then .challenge else .wait challengeAt
    match state.lease with
    | some lease =>
      if lease.member = me ∧ lease.isLiveAt now then .hold
      else waitOr (lease.challengeAtMillis config rank)
    | none => waitOr (saturatingAdd entry.registeredAt (config.challengeDelayMillis rank))
  | _, _ => .notRegistered

/-! ## What the decisions say -/

section Decisions

variable {state : RoleState} {me : MemberId} {now : Int64} {config : LeaseConfig}

theorem evaluate_ne_challenge {lease : Lease} (isLease : state.lease = some lease)
    (live : lease.isLiveAt now = true) : evaluate state me now config ≠ .challenge := by
  intro challenges
  unfold evaluate at challenges
  split at challenges
  case h_1 entry rank _ _ =>
      simp only [isLease] at challenges
      split_ifs at challenges with holds late
      -- The challenge comes at the deadline or after it.
      have after : lease.deadline ≤ lease.challengeAtMillis config rank :=
        le_saturatingAdd (config.challengeDelayMillis_nonnegative rank)
      have before : now < lease.deadline := of_decide_eq_true live
      rw [Int64.le_iff_toInt_le] at after late
      rw [Int64.lt_iff_toInt_lt] at before
      omega
  case h_2 => cases challenges

end Decisions

end Coordination
end Krabka
