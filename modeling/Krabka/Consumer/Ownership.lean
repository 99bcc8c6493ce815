import Mathlib.Data.List.Pairwise
import Krabka.Consumer.Assignment
import Krabka.Transition

namespace Krabka
namespace Consumer

open Collections List SortedMap Transition

/-!
# Ownership over a history of assignments

Group assignments, `unsubscribe` and manual assignments replace the ownership
ids, while pauses and commits keep the ids that they read.  The log holds every
ownership that began and ended, and every pause or commit that took effect: a
pause when `paused_of` keeps it, a commit when `retain_continuously_owned` keeps
it for a request.
-/

namespace Ownership

inductive Event where
  /-- An ownership of the partition began. -/
  | granted (partition : TopicPartition) (id : Nat)
  | ended (partition : TopicPartition) (id : Nat)
  /-- A pause or a commit of the ownership took effect. -/
  | applied (partition : TopicPartition) (id : Nat)
deriving DecidableEq, Repr

structure World where
  assigned : List TopicPartition
  ids : OwnershipIds
  /-- The ids taken from `next_ownership_id`. -/
  groupAllocated : Nat
  /-- The ids taken from `MANUAL_OWNERSHIP_IDS`. -/
  manualAllocated : Nat
  paused : PausedPartitions
  /-- The `pause` calls that read the ownership ids. -/
  pausing : List (List (TopicPartition × Nat))
  /-- The commits that are not done. -/
  commits : List PendingOffsets
  log : List Event

inductive Act where
  /-- `install_assignment`. -/
  | publish (assignment : List TopicPartition) (preserveRetained : Bool)
  /-- `clear_assignment` of `unsubscribe`. -/
  | unsubscribe
  /-- `assign`, while other consumers take `others` manual ids. -/
  | assign (partitions : List TopicPartition) (others : List Nat)
  /-- `pause` reads the ownership ids. -/
  | readPause (partitions : List TopicPartition)
  /-- `pause` stores what it read. -/
  | pause (index : Nat)
  | resume (partitions : List TopicPartition)
  /-- `paused_of` for the current ownership. -/
  | readPaused
  /-- A commit takes its offsets with the ownership ids. -/
  | commit (offsets : List (TopicPartition × Int))
  /-- The next request of a commit. -/
  | attempt (index : Nat)
deriving DecidableEq, Repr

namespace World

def missingFrom (ids other : OwnershipIds) : List (TopicPartition × Nat) :=
  ids.entries.filter (fun entry => decide (other.get? entry.1 ≠ some entry.2))

def own (world : World) (assigned : List TopicPartition) (ids : OwnershipIds) : World :=
  { world with
    assigned
    ids
    log := world.log ++ (missingFrom world.ids ids).map (fun entry => .ended entry.1 entry.2) ++
      (missingFrom ids world.ids).map (fun entry => .granted entry.1 entry.2) }

/-- The consumer after its build joined the group. -/
def start (assigned : List TopicPartition) : World :=
  own ⟨[], .empty, assigned.length, 0, .empty, [], [], []⟩ assigned (initialOwnership assigned)

def step (world : World) : Act -> Option World
  | .publish assignment preserveRetained =>
    let granted := updateOwnership world.ids assignment preserveRetained world.groupAllocated
    some ({ world with groupAllocated := granted.allocated }.own assignment granted.ids)
  | .unsubscribe => some (world.own [] .empty)
  | .assign partitions others =>
    let wanted := (SortedSet.ofValues partitions).keys
    let granted := replaceManualAssignment world.ids wanted others world.manualAllocated
    some ({ world with manualAllocated := granted.allocated }.own wanted granted.ids)
  | .readPause partitions =>
    match pauseEntries world.ids partitions with
    | none => none
    | some entries => some { world with pausing := world.pausing ++ [entries] }
  | .pause index =>
    match world.pausing[index]? with
    | none => none
    | some entries =>
      some { world with
        paused := entries.foldl (fun paused entry => paused.insert entry.1 entry.2) world.paused
        pausing := world.pausing.eraseIdx index }
  | .resume partitions =>
    if partitions.all world.ids.contains then
      some { world with
        paused := world.paused.filter (fun partition _ => !partitions.contains partition) }
    else none
  | .readPaused =>
    let paused := pausedOf world.paused world.ids
    some { world with
      paused
      log := world.log ++ paused.entries.map (fun entry => .applied entry.1 entry.2) }
  | .commit offsets =>
    match selectedOffsetsWithOwnership world.ids offsets with
    | none => none
    | some pending => some { world with commits := world.commits ++ [pending] }
  | .attempt index =>
    match world.commits[index]? with
    | none => none
    | some pending =>
      let pending := retainContinuouslyOwned pending world.ids
      some { world with
        commits := world.commits.set index pending
        log := world.log ++ pending.entries.map (fun entry => .applied entry.1 entry.2.2) }

/-! ## Allocated ids -/

/-- The id was taken from a counter. -/
def Allocated (world : World) (id : Nat) : Prop :=
  FIRST_GROUP_ID ≤ id ∧ id < FIRST_GROUP_ID + world.groupAllocated ∨
    FIRST_MANUAL_ID ≤ id ∧ id < FIRST_MANUAL_ID + world.manualAllocated

/-- The ids of group assignments did not reach those of manual assignments, and
those did not wrap around. -/
def Bounded (world : World) : Prop :=
  FIRST_GROUP_ID + world.groupAllocated ≤ FIRST_MANUAL_ID ∧
    FIRST_MANUAL_ID + world.manualAllocated ≤ 2 ^ 64
deriving Decidable

end World

/-- No id is granted twice, and nothing of an ownership takes effect after its
end. -/
def Event.Follows : Event -> Event -> Prop
  | .granted _ early, .granted _ late => early ≠ late
  | .ended partition early, .applied other late => ¬ (partition = other ∧ early = late)
  | _, _ => True

/-- What the log says of the ownership. -/
structure Owned (world : World) : Prop where
  ordered : world.log.Pairwise Event.Follows
  current : forall partition id, world.ids.get? partition = some id ->
    .granted partition id ∈ world.log ∧ .ended partition id ∉ world.log
  ended : forall partition id, .ended partition id ∈ world.log ->
    .granted partition id ∈ world.log
  allocated : forall partition id, .granted partition id ∈ world.log -> world.Allocated id
  assigned : forall partition, partition ∈ world.assigned <->
    world.ids.contains partition = true

variable {assignment : List TopicPartition} {manualAllocated : Nat}

section Log

variable {world next : World} {ids other : OwnershipIds} {partition : TopicPartition} {id : Nat}
  {assigned : List TopicPartition} {event : Event}

theorem mem_missingFrom : (partition, id) ∈ World.missingFrom ids other <->
    ids.get? partition = some id ∧ other.get? partition ≠ some id := by
  simp [World.missingFrom, mem_entries_iff]

theorem granted_mem_own : .granted partition id ∈ (world.own assigned ids).log <->
    .granted partition id ∈ world.log ∨
      ids.get? partition = some id ∧ world.ids.get? partition ≠ some id := by
  simp [World.own, mem_missingFrom]

theorem ended_mem_own : .ended partition id ∈ (world.own assigned ids).log <->
    .ended partition id ∈ world.log ∨
      world.ids.get? partition = some id ∧ ids.get? partition ≠ some id := by
  simp [World.own, mem_missingFrom]

theorem Event.follows_granted (different : forall other, event ≠ .granted other id) :
    Event.Follows event (.granted partition id) := by
  cases event with
  | granted other early => exact fun same => different other (same ▸ rfl)
  | ended | applied => exact trivial

theorem Event.follows_applied (running : event ≠ .ended partition id) :
    Event.Follows event (.applied partition id) := by
  cases event with
  | granted | applied => exact trivial
  | ended other early => exact fun same => running (same.1 ▸ same.2 ▸ rfl)

section

variable (owned : Owned world)

include owned

/-- Ids are granted once, so the current ones are distinct. -/
theorem Owned.distinct {other : TopicPartition} (isId : world.ids.get? partition = some id)
    (isOther : world.ids.get? other = some id) :
    partition = other := by
  by_contra different
  have once : world.log.Pairwise (fun early late => forall partition other id,
      ¬ (early = .granted partition id ∧ late = .granted other id)) := by
    refine owned.ordered.imp fun {early late} follows partition other id both => ?_
    rw [both.1, both.2] at follows
    exact follows rfl
  have symmetric : Std.Symm (fun early late : Event => forall partition other id,
      ¬ (early = .granted partition id ∧ late = .granted other id)) :=
    ⟨fun early late never partition other id both => never other partition id ⟨both.2, both.1⟩⟩
  refine once.forall (owned.current partition id isId).1
    (owned.current other id isOther).1 ?_ partition other id ⟨rfl, rfl⟩
  intro same
  exact different (Event.granted.inj same).1

/-- A new ownership whose ids are kept or come from the counters. -/
theorem Owned.own {groupAllocated : Nat}
    (isNext : next = { world with groupAllocated, manualAllocated }.own assigned ids)
    (grows : forall id, world.Allocated id -> next.Allocated id)
    (entries : forall partition id, ids.get? partition = some id ->
      world.ids.get? partition = some id ∨ ¬ world.Allocated id ∧ next.Allocated id)
    (distinct : forall partition other id, ids.get? partition = some id ->
      ids.get? other = some id -> ¬ world.Allocated id -> partition = other)
    (isAssigned : forall partition, partition ∈ assigned <-> ids.contains partition = true) :
    Owned next := by
  have new (partition : TopicPartition) (id : Nat) (isId : ids.get? partition = some id)
      (isNew : world.ids.get? partition ≠ some id) : ¬ world.Allocated id ∧ next.Allocated id :=
    (entries partition id isId).resolve_left isNew
  subst isNext
  refine ⟨?_, ?_, ?_, ?_, isAssigned⟩
  · refine pairwise_append.mpr ⟨pairwise_append.mpr ⟨owned.ordered, ?_, ?_⟩, ?_, ?_⟩
    · exact pairwise_map.mpr (pairwise_of_forall fun _ _ => trivial)
    · intro early _ late isLate
      rcases mem_map.mp isLate with ⟨entry, _, rfl⟩
      cases early <;> exact trivial
    · refine pairwise_map.mpr ?_
      have nodup : (World.missingFrom ids world.ids).Nodup := (entries_nodup ids).filter _
      refine nodup.imp_of_mem fun {early late} inEarly inLate different same => different ?_
      rcases early with ⟨earlyKey, earlyId⟩
      rcases late with ⟨lateKey, lateId⟩
      rcases mem_missingFrom.mp inEarly with ⟨isEarly, newEarly⟩
      rcases mem_missingFrom.mp inLate with ⟨isLate, _⟩
      cases show earlyId = lateId from same
      exact Prod.ext (distinct earlyKey lateKey earlyId isEarly isLate
        (new earlyKey earlyId isEarly newEarly).1) rfl
    · intro early isEarly late isLate
      rcases mem_map.mp isLate with ⟨⟨key, id⟩, isNew, rfl⟩
      rcases mem_missingFrom.mp isNew with ⟨isId, notOld⟩
      refine Event.follows_granted fun other same => ?_
      subst same
      rcases mem_append.mp isEarly with old | isEnded
      · exact (new key id isId notOld).1 (owned.allocated other id old)
      · rcases mem_map.mp isEnded with ⟨entry, _, impossible⟩
        cases impossible
  · intro partition id isId
    rw [granted_mem_own, ended_mem_own]
    by_cases isOld : world.ids.get? partition = some id
    · have known := owned.current partition id isOld
      refine ⟨.inl known.1, ?_⟩
      rintro (isEnded | ⟨_, gone⟩)
      · exact known.2 isEnded
      · exact gone isId
    · refine ⟨.inr ⟨isId, isOld⟩, ?_⟩
      rintro (isEnded | ⟨_, gone⟩)
      · exact (new partition id isId isOld).1 (owned.allocated partition id
          (owned.ended partition id isEnded))
      · exact gone isId
  · intro partition id isEnded
    rw [granted_mem_own]
    rcases ended_mem_own.mp isEnded with old | ⟨isId, _⟩
    · exact .inl (owned.ended partition id old)
    · exact .inl (owned.current partition id isId).1
  · intro partition id isGranted
    rcases granted_mem_own.mp isGranted with old | ⟨isId, isNew⟩
    · exact grows id (owned.allocated partition id old)
    · exact (new partition id isId isNew).2

theorem Owned.apply (effects : List (TopicPartition × Nat))
    (same : next.ids = world.ids ∧ next.assigned = world.assigned ∧
      next.groupAllocated = world.groupAllocated ∧ next.manualAllocated = world.manualAllocated)
    (isLog : next.log = world.log ++ effects.map (fun entry => .applied entry.1 entry.2))
    (current : forall partition id, (partition, id) ∈ effects ->
      world.ids.get? partition = some id) : Owned next := by
  rcases same with ⟨sameIds, sameAssigned, sameGroup, sameManual⟩
  have granted (partition : TopicPartition) (id : Nat) :
      .granted partition id ∈ next.log <-> .granted partition id ∈ world.log := by simp [isLog]
  have ended (partition : TopicPartition) (id : Nat) :
      .ended partition id ∈ next.log <-> .ended partition id ∈ world.log := by simp [isLog]
  refine ⟨?_, ?_, ?_, ?_, ?_⟩
  · rw [isLog]
    refine pairwise_append.mpr ⟨owned.ordered,
      pairwise_map.mpr (pairwise_of_forall fun _ _ => trivial), ?_⟩
    intro early isEarly late isLate
    rcases mem_map.mp isLate with ⟨⟨partition, id⟩, isEffect, rfl⟩
    refine Event.follows_applied fun isEnded => ?_
    exact (owned.current partition id (current partition id isEffect)).2 (isEnded ▸ isEarly)
  · intro partition id isId
    rw [granted, ended]
    exact owned.current partition id (sameIds ▸ isId)
  · intro partition id
    rw [granted, ended]
    exact owned.ended partition id
  · intro partition id
    rw [granted, World.Allocated, sameGroup, sameManual]
    exact owned.allocated partition id
  · rw [sameIds, sameAssigned]
    exact owned.assigned

/-- An assignment that keeps ids of `retained` and takes the others from a
counter. -/
theorem Owned.assign {first allocated groupAllocated : Nat} {others : List Nat}
    {retained : OwnershipIds}
    (isNext : next = { world with groupAllocated, manualAllocated }.own assignment
      (grant first assignment others retained allocated).ids)
    (bound : first + (grant first assignment others retained allocated).allocated ≤ 2 ^ 64)
    (kept : forall partition id, retained.get? partition = some id ->
      world.ids.get? partition = some id)
    (only : forall partition, retained.contains partition = true -> partition ∈ assignment)
    (grows : forall id, world.Allocated id -> next.Allocated id)
    (fresh : forall id, first + allocated ≤ id ->
      id < first + (grant first assignment others retained allocated).allocated ->
      ¬ world.Allocated id ∧ next.Allocated id) : Owned next := by
  have grants := grant_grants assignment others retained bound
  refine owned.own isNext grows ?_ ?_ ?_
  · intro partition id isId
    rcases grants.adds partition id isId with old | ⟨_, lower, upper⟩
    · exact .inl (kept partition id old)
    · exact .inr (fresh id lower upper)
  · intro partition other id isId isOther notAllocated
    have absent {key : TopicPartition}
        (isKey : (grant first assignment others retained allocated).ids.get? key = some id) :
        retained.get? key = none := by
      rcases grants.adds key id isKey with old | new
      · have known := owned.current key id (kept key id old)
        exact absurd (owned.allocated key id known.1) notAllocated
      · exact new.1
    exact grants.distinct partition other id isId isOther (absent isId) (absent isOther)
  · intro partition
    rw [grant_contains]
    exact ⟨.inr, fun either => either.elim (only partition) id⟩

end

end Log

/-! ## Steps -/

section Step

variable {world next : World} {act : Act}

theorem World.step_allocated_le (stepped : world.step act = some next) :
    world.groupAllocated ≤ next.groupAllocated ∧ world.manualAllocated ≤ next.manualAllocated := by
  cases act <;> simp only [World.step] at stepped
  case publish assignment preserveRetained =>
    cases stepped
    exact ⟨grant_allocated_le _ _ _ _ _, le_refl _⟩
  case assign partitions others =>
    cases stepped
    exact ⟨le_refl _, grant_allocated_le _ _ _ _ _⟩
  all_goals
    try split at stepped
    all_goals cases stepped
    all_goals exact ⟨le_refl _, le_refl _⟩

theorem World.Bounded.before (bounded : next.Bounded) (stepped : world.step act = some next) :
    world.Bounded := by
  have grows := World.step_allocated_le stepped
  simp only [World.Bounded] at bounded ⊢
  omega

theorem retainAssigned_kept {ids : OwnershipIds} {partition : TopicPartition} {id : Nat}
    (isId : (retainAssigned ids assignment).get? partition = some id) :
    ids.get? partition = some id := by
  rw [get?_retainAssigned] at isId
  split_ifs at isId
  exact isId

theorem Owned.step (owned : Owned world) (stepped : world.step act = some next)
    (bounded : next.Bounded) : Owned next := by
  have before := bounded.before stepped
  have grows := World.step_allocated_le stepped
  have allocatedGrows : forall id, world.Allocated id -> next.Allocated id := by
    intro id
    simp only [World.Allocated]
    omega
  cases act with
  | publish assignment preserveRetained =>
    cases stepped
    simp only [World.Bounded, World.own] at bounded before
    refine owned.assign rfl ?_ ?_ ?_ allocatedGrows ?_
    · exact le_trans bounded.1 (by decide)
    · intro partition id isId
      split_ifs at isId
      · exact retainAssigned_kept isId
      · cases isId
    · intro partition retained
      split_ifs at retained
      · exact mem_of_retained retained
      · cases retained
    · intro id lower upper
      simp only [World.Allocated, World.own, updateOwnership] at bounded ⊢
      omega
  | unsubscribe =>
    cases stepped
    refine owned.own rfl allocatedGrows ?_ ?_ ?_
    · intro partition id isId
      cases isId
    · intro partition other id isId
      cases isId
    · intro partition
      exact ⟨nofun, fun contained => by cases contained⟩
  | assign partitions others =>
    cases stepped
    simp only [World.Bounded, World.own] at bounded before
    refine owned.assign rfl bounded.2 (fun _ _ => retainAssigned_kept)
      (fun _ => mem_of_retained) allocatedGrows ?_
    · intro id lower upper
      simp only [World.Allocated, World.own, replaceManualAssignment] at bounded ⊢
      omega
  | readPause | pause | commit =>
    simp only [World.step] at stepped
    split at stepped <;> cases stepped
    exact { owned with }
  | resume partitions =>
    simp only [World.step] at stepped
    split at stepped <;> cases stepped
    exact { owned with }
  | readPaused =>
    cases stepped
    refine owned.apply _ ⟨rfl, rfl, rfl, rfl⟩ rfl fun partition id isEffect => ?_
    rw [mem_entries_iff, pausedOf, get?_filter, Option.filter_eq_some_iff] at isEffect
    exact of_decide_eq_true isEffect.2
  | attempt index =>
    simp only [World.step] at stepped
    split at stepped <;> cases stepped
    rename_i pending _
    refine owned.apply ((retainContinuouslyOwned pending world.ids).entries.map
        (fun entry => (entry.1, entry.2.2))) ⟨rfl, rfl, rfl, rfl⟩ ?_ ?_
    · rw [map_map]
      rfl
    · intro partition id isEffect
      rcases mem_map.mp isEffect with ⟨⟨key, offset, keyId⟩, member, same⟩
      cases same
      rw [mem_entries_iff, retainContinuouslyOwned, get?_filter,
        Option.filter_eq_some_iff] at member
      exact of_decide_eq_true member.2

end Step

/-! ## Runs -/

section

variable (partition : TopicPartition)

end

end Ownership

end Consumer
end Krabka
