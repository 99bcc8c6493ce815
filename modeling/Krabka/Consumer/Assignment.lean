import Krabka.Collections.SortedMap
import Krabka.TopicPartition

namespace Krabka
namespace Consumer

open Collections SortedMap

universe u

/-!
# Ownership ids

Each assignment gives a partition that it adds a new ownership id
(`update_ownership` of `coordinator.rs`, `replace_manual_assignment` of
`assignment.rs`).  Pauses and commits keep the id of the ownership that they are
for, and are in effect only while it is the current one.

A `u64` counter is the number of ids that were taken from it, so its value is
`first + allocated` modulo `2 ^ 64`.
-/

/-- `CommitIdentity.ownership_ids`. -/
abbrev OwnershipIds := SortedMap TopicPartition Nat

def FIRST_GROUP_ID : Nat := 1

/-- The first value of `MANUAL_OWNERSHIP_IDS`. -/
def FIRST_MANUAL_ID : Nat := 2 ^ 62

/-- The ids after an assignment, and how many were taken from the counter. -/
structure Granted where
  ids : OwnershipIds
  allocated : Nat

/-- `entry(partition).or_insert_with(next id)` for each partition.  `others` are
the ids that other consumers of the process take in between. -/
def grant (first : Nat) : List TopicPartition -> List Nat -> OwnershipIds -> Nat -> Granted
  | [], _, ids, allocated => ⟨ids, allocated⟩
  | partition :: rest, others, ids, allocated =>
    if ids.contains partition then grant first rest others ids allocated
    else
      grant first rest others.tail
        (ids.insert partition ((first + (allocated + others.headD 0)) % 2 ^ 64))
        (allocated + others.headD 0 + 1)

def retainAssigned (ids : OwnershipIds) (assignment : List TopicPartition) : OwnershipIds :=
  ids.filter (fun partition _ => assignment.contains partition)

def updateOwnership (ids : OwnershipIds) (assignment : List TopicPartition)
    (preserveRetained : Bool) (allocated : Nat) : Granted :=
  grant FIRST_GROUP_ID assignment []
    (if preserveRetained then retainAssigned ids assignment else .empty) allocated

def replaceManualAssignment (ids : OwnershipIds) (wanted : List TopicPartition)
    (others : List Nat) (allocated : Nat) : Granted :=
  grant FIRST_MANUAL_ID wanted others (retainAssigned ids wanted) allocated

/-- The ids of `initial_commit_identity`. -/
def initialOwnership (assigned : List TopicPartition) : OwnershipIds :=
  SortedMap.ofList (assigned.zipIdx FIRST_GROUP_ID)

/-- Paused partitions, with the ownership of each partition at the pause. -/
abbrev PausedPartitions := SortedMap TopicPartition Nat

def pausedOf (paused : PausedPartitions) (ids : OwnershipIds) : PausedPartitions :=
  paused.filter (fun partition id => decide (ids.get? partition = some id))

/-- The offsets of a commit, each with the ownership id of its partition. -/
abbrev PendingOffsets := SortedMap TopicPartition (Int × Nat)

def retainContinuouslyOwned (pending : PendingOffsets) (ids : OwnershipIds) : PendingOffsets :=
  pending.filter (fun partition entry => decide (ids.get? partition = some entry.2))

/-- The pauses of one `pause` call, or `none` when the consumer does not own a
partition. -/
def pauseEntries (ids : OwnershipIds) : List TopicPartition -> Option (List (TopicPartition × Nat))
  | [] => some []
  | partition :: rest => do
      let id <- ids.get? partition
      let entries <- pauseEntries ids rest
      return (partition, id) :: entries

def selectedOffsetsWithOwnership (ids : OwnershipIds) :
    List (TopicPartition × Int) -> Option PendingOffsets
  | [] => some SortedMap.empty
  | (partition, offset) :: rest => do
      let pending <- selectedOffsetsWithOwnership ids rest
      if offset < 0 then none
      let id <- ids.get? partition
      return pending.insert partition (offset, id)

/-! ## What an assignment grants -/

section Grant

variable {ids : OwnershipIds} {partition other : TopicPartition} {id first allocated : Nat}
  {assignment : List TopicPartition} {others : List Nat}

section

variable (first : Nat) (assignment : List TopicPartition) (others : List Nat)

theorem grant_allocated_le (ids : OwnershipIds) (allocated : Nat) :
    allocated ≤ (grant first assignment others ids allocated).allocated := by
  induction assignment generalizing others ids allocated with
  | nil => exact Nat.le_refl _
  | cons partition rest ih =>
    rw [grant]
    split_ifs
    · exact ih others ids allocated
    · exact Nat.le_trans (by omega) (ih _ _ _)

theorem grant_keeps (allocated : Nat) (isId : ids.get? partition = some id) :
    (grant first assignment others ids allocated).ids.get? partition = some id := by
  induction assignment generalizing others ids allocated with
  | nil => exact isId
  | cons head rest ih =>
    rw [grant]
    split_ifs with known
    · exact ih others allocated isId
    · have different : partition ≠ head := by
        rintro rfl
        simp [SortedMap.contains, isId] at known
      exact ih _ _ ((get?_insert_of_ne ids _ different).trans isId)

end

/-- The ids that an assignment adds are of its own part of the counter. -/
structure Grants (first : Nat) (ids : OwnershipIds) (allocated : Nat)
    (granted : Granted) : Prop where
  adds : forall partition id, granted.ids.get? partition = some id ->
    ids.get? partition = some id ∨ ids.get? partition = none ∧
      first + allocated ≤ id ∧ id < first + granted.allocated
  distinct : forall partition other id, granted.ids.get? partition = some id ->
    granted.ids.get? other = some id -> ids.get? partition = none -> ids.get? other = none ->
    partition = other

theorem grant_grants (assignment : List TopicPartition) (others : List Nat) (ids : OwnershipIds)
    (bound : first + (grant first assignment others ids allocated).allocated ≤ 2 ^ 64) :
    Grants first ids allocated (grant first assignment others ids allocated) := by
  induction assignment generalizing others ids allocated with
  | nil =>
    refine ⟨fun _ _ known => .inl known, ?_⟩
    intro partition other id isId _ missing
    rw [grant, missing] at isId
    cases isId
  | cons head rest ih =>
    rw [grant] at bound ⊢
    split_ifs at bound ⊢ with known
    · exact ih others ids bound
    · have more := grant_allocated_le first rest others.tail
        (ids.insert head ((first + (allocated + others.headD 0)) % 2 ^ 64))
        (allocated + others.headD 0 + 1)
      have small : (first + (allocated + others.headD 0)) % 2 ^ 64 =
          first + (allocated + others.headD 0) := Nat.mod_eq_of_lt (by omega)
      have grants := ih others.tail _ bound
      have isHead := grant_keeps first rest others.tail (allocated + others.headD 0 + 1)
        (get?_insert_self ids head ((first + (allocated + others.headD 0)) % 2 ^ 64))
      rw [small] at grants more isHead ⊢
      generalize grant first rest others.tail
        (ids.insert head (first + (allocated + others.headD 0)))
        (allocated + others.headD 0 + 1) = granted at grants more isHead ⊢
      have missing : ids.get? head = none := by
        exact Option.not_isSome_iff_eq_none.mp known
      refine ⟨?_, ?_⟩
      · intro partition id isId
        by_cases same : partition = head
        · rw [same] at isId ⊢
          have isNew := Option.some.inj (isHead.symm.trans isId)
          exact .inr ⟨missing, by omega, by omega⟩
        · rcases grants.adds partition id isId with old | ⟨absent, lower, upper⟩
          · exact .inl ((get?_insert_of_ne ids _ same).symm.trans old)
          · exact .inr ⟨(get?_insert_of_ne ids _ same).symm.trans absent, by omega, upper⟩
      · -- The id of the first partition is below the ids of the later ones.
        have later {partition : TopicPartition} {id : Nat}
            (isId : granted.ids.get? partition = some id) (absent : ids.get? partition = none)
            (different : partition ≠ head) : first + (allocated + others.headD 0) < id := by
          have absentNext := (get?_insert_of_ne ids
            (first + (allocated + others.headD 0)) different).trans absent
          rcases grants.adds partition id isId with old | ⟨_, lower, _⟩
          · rw [absentNext] at old
            cases old
          · omega
        intro partition other id isId isOther absent absentOther
        by_cases same : partition = head
        · by_cases sameOther : other = head
          · rw [same, sameOther]
          · have after := later isOther absentOther sameOther
            rw [same] at isId
            have isNew := Option.some.inj (isHead.symm.trans isId)
            omega
        · by_cases sameOther : other = head
          · have after := later isId absent same
            rw [sameOther] at isOther
            have isNew := Option.some.inj (isHead.symm.trans isOther)
            omega
          · exact grants.distinct partition other id isId isOther
              ((get?_insert_of_ne ids _ same).trans absent)
              ((get?_insert_of_ne ids _ sameOther).trans absentOther)

/-- Exactly the assigned partitions and those that had an id have one. -/
theorem grant_contains (first : Nat) (assignment : List TopicPartition) (others : List Nat)
    (ids : OwnershipIds) (allocated : Nat) :
    (grant first assignment others ids allocated).ids.contains partition = true <->
      ids.contains partition = true ∨ partition ∈ assignment := by
  induction assignment generalizing others ids allocated with
  | nil => simp [grant]
  | cons head rest ih =>
    rw [grant, List.mem_cons]
    split_ifs with known
    · rw [ih]
      constructor
      · exact fun either => either.imp_right .inr
      · rintro (old | same | inRest)
        · exact .inl old
        · exact .inl (same ▸ known)
        · exact .inr inRest
    · rw [ih, contains_insert, or_assoc, or_left_comm]

theorem get?_retainAssigned :
    (retainAssigned ids assignment).get? partition =
      if partition ∈ assignment then ids.get? partition else none := by
  rw [retainAssigned, get?_filter]
  cases ids.get? partition with
  | none => simp
  | some id => simp [Option.filter]

theorem mem_of_retained (retained : (retainAssigned ids assignment).contains partition = true) :
    partition ∈ assignment := by
  rw [SortedMap.contains, get?_retainAssigned] at retained
  split_ifs at retained with member
  · exact member
  · cases retained

end Grant

end Consumer
end Krabka
