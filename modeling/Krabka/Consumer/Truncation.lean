import Krabka.Consumer.Validation

namespace Krabka
namespace Consumer
namespace Validation

open Collections List SortedMap

/-!
# Truncated logs

What `update_fetch_positions` does with the answers of the leaders when no other task runs
between its sections, and how the two sources of a truncation, validation and a diverging
epoch in a fetch response, go on when the leader answers from a fixed table of epochs.

The safe offset comes from the answer alone, and the position keeps its epoch: an answer of an
older epoch may name a larger offset, and the same answer comes again for the new position.
-/

variable {position : PartitionPosition}

section Round

variable {answers : TopicPartition -> EpochEndOffset} {shared : SharedState}

/-- What a truncation of a round says about its partition. -/
def Reported (answers : TopicPartition -> EpochEndOffset)
    (before after : SortedMap TopicPartition PartitionPosition) (entry : Asked × Int) : Prop :=
  classify entry.1.offset entry.1.offsetEpoch (answers entry.1.key).leaderEpoch
      (answers entry.1.key).endOffset = .truncated entry.2 ∧
    after.get? entry.1.key = (before.get? entry.1.key).map fun position =>
      { position with awaitingValidation := false }

end Round

/-! ## Truncations move positions back -/

variable {key : TopicPartition}

/-- The state after the metadata response `rows` of the next poll. -/
def refreshed (shared : SharedState) (rows : List LeaderRow) : SharedState :=
  withPositions shared (refreshLeaderEpochs shared.consumed.positions rows)

/-- The epochs of a log with their start offsets, and its end offset. -/
structure EpochTable where
  entries : List (Int × Int)
  endOffset : Int
  increasing : entries.Pairwise fun early late => early.1 < late.1 ∧ early.2 < late.2
  inside : forall entry, entry ∈ entries -> 0 ≤ entry.1 ∧ 0 ≤ entry.2 ∧ entry.2 ≤ endOffset

namespace EpochTable

def lastUpTo (table : EpochTable) (epoch : Int) : Option (Int × Int) :=
  (table.entries.filter fun entry => decide (entry.1 ≤ epoch)).getLast?

/-- The answer of the leader: the end of the last epoch up to `epoch`, or no offset. -/
def answer (table : EpochTable) (epoch : Int) : EpochEndOffset :=
  match table.entries.find? fun entry => decide (epoch < entry.1) with
  | some next => ⟨((table.lastUpTo epoch).map Prod.fst).getD epoch, next.2, 0⟩
  | none =>
    if (table.lastUpTo epoch).map Prod.fst = some epoch then ⟨epoch, table.endOffset, 0⟩
    else ⟨-1, -1, 0⟩

theorem mem_of_lastUpTo {table : EpochTable} {epoch : Int} {last : Int × Int}
    (isLast : table.lastUpTo epoch = some last) : last ∈ table.entries ∧ last.1 ≤ epoch := by
  rcases mem_filter.mp (mem_of_getLast? isLast) with ⟨member, upTo⟩
  exact ⟨member, of_decide_eq_true upTo⟩

/-- The leader answers for the epoch or an older one; its answer for the epoch itself has an
offset. -/
theorem answer_spec (table : EpochTable) {epoch : Int} (known : 0 ≤ epoch) :
    (table.answer epoch).errorCode = 0 ∧ (table.answer epoch).leaderEpoch ≤ epoch ∧
      ((table.answer epoch).leaderEpoch = epoch -> 0 ≤ (table.answer epoch).endOffset) := by
  unfold answer
  split
  · rename_i next isNext
    refine ⟨rfl, ?_, fun _ => (table.inside _ (mem_of_find?_eq_some isNext)).2.1⟩
    cases isLast : table.lastUpTo epoch with
    | none => exact le_refl _
    | some last => exact (mem_of_lastUpTo isLast).2
  · split_ifs with isLatest
    · rcases Option.map_eq_some_iff.mp isLatest with ⟨last, isLast, _⟩
      have inside := (table.inside _ (mem_of_lastUpTo isLast).1).2
      exact ⟨rfl, le_refl _, fun _ => le_trans inside.1 inside.2⟩
    · exact ⟨rfl, le_trans (by decide) known, fun same => absurd (same ▸ known) (by decide)⟩

/-- The end offset of the diverging epoch in a fetch response, if there is one. -/
def diverging (table : EpochTable) (offset epoch : Int) : Option Int :=
  let answer := table.answer epoch
  if 0 ≤ answer.endOffset ∧ (answer.leaderEpoch < epoch ∨ answer.endOffset < offset) then
    some answer.endOffset
  else none

end EpochTable

def safeOffset? : ValidationOutcome -> Option Int
  | .valid _ => none
  | .truncated safeOffset => some safeOffset

inductive Check where
  | validate
  | fetch
deriving DecidableEq, Repr

/-- Validate or fetch a position: the position after a reported truncation. -/
def recheck (table : EpochTable) (offset : Int) (position : PartitionPosition) :
    Check -> Option (Int × PartitionPosition)
  | .validate =>
    let applied := position.applyEpochAnswer (table.answer position.offsetEpoch) offset
      position.offsetEpoch position.leaderEpoch
    applied.2.map fun safeOffset => (safeOffset, applied.1)
  | .fetch => (table.diverging offset position.offsetEpoch).map fun safeOffset =>
    (safeOffset, position)

section Recheck

variable {table : EpochTable} {offset safeOffset : Int} {position after : PartitionPosition}

variable (known : 0 ≤ position.offsetEpoch)

include known

theorem recheck_validate :
    recheck table offset position .validate = (safeOffset? (classify offset position.offsetEpoch
        (table.answer position.offsetEpoch).leaderEpoch
        (table.answer position.offsetEpoch).endOffset)).map
          fun safeOffset => (safeOffset, { position with awaitingValidation := false }) := by
  simp only [recheck, PartitionPosition.applyEpochAnswer, (table.answer_spec known).1, ne_eq,
    not_true_eq_false, if_false]
  cases classify offset position.offsetEpoch (table.answer position.offsetEpoch).leaderEpoch
    (table.answer position.offsetEpoch).endOffset <;> rfl

theorem recheck_spec {check : Check}
    (reset : recheck table offset position check = some (safeOffset, after)) :
    after.offsetEpoch = position.offsetEpoch ∧
      safeOffset = max 0 (table.answer position.offsetEpoch).endOffset := by
  cases check with
  | validate =>
    rw [recheck_validate known, classify] at reset
    split_ifs at reset with _ missing <;> cases reset
    · exact ⟨rfl, (max_eq_left (le_of_lt missing)).symm⟩
    · exact ⟨rfl, (max_eq_right (not_lt.mp missing)).symm⟩
  | fetch =>
    rcases Option.map_eq_some_iff.mp reset with ⟨ended, diverged, isReset⟩
    cases isReset
    simp only [EpochTable.diverging] at diverged
    split_ifs at diverged with reported
    cases diverged
    exact ⟨rfl, (max_eq_right reported.1).symm⟩

/-- After a reset no check reports a truncation, exactly if the leader answers for the epoch of
the position itself. -/
theorem recovery_settles_iff {check : Check}
    (reset : recheck table offset position check = some (safeOffset, after)) :
    (forall again, recheck table safeOffset after again = none) <->
      (table.answer position.offsetEpoch).leaderEpoch = position.offsetEpoch := by
  rcases recheck_spec known reset with ⟨sameEpoch, isSafe⟩
  rcases table.answer_spec known with ⟨_, below, ended⟩
  have knownAfter : 0 ≤ after.offsetEpoch := sameEpoch ▸ known
  constructor
  · intro settled
    have valid := settled .validate
    rw [recheck_validate knownAfter, sameEpoch] at valid
    unfold classify at valid
    split_ifs at valid with truncated
    · cases valid
    · cases valid
    · omega
  · intro same again
    rw [max_eq_right (ended same)] at isSafe
    cases again with
    | validate =>
      rw [recheck_validate knownAfter, sameEpoch, classify, same, isSafe,
        if_neg (by have := ended same; omega)]
      rfl
    | fetch =>
      rw [recheck, EpochTable.diverging, sameEpoch, same, isSafe, if_neg (by omega)]
      rfl

end Recheck

/-- Epoch 1 from offset 0 and epoch 3 from offset 5, in a log that ends at 9. -/
def twoEpochs : EpochTable :=
  ⟨[(1, 0), (3, 5)], 9, by decide, by decide⟩

/-- A position at 7 of epoch 1 is reset once. -/
theorem recovery_settles_iff_known :
    recheck twoEpochs 7 ⟨1, 1, 3, true⟩ .validate = some (5, ⟨1, 1, 3, false⟩) ∧
      forall again, recheck twoEpochs 5 ⟨1, 1, 3, false⟩ again = none :=
  have reset : recheck twoEpochs 7 ⟨1, 1, 3, true⟩ .validate = some (5, ⟨1, 1, 3, false⟩) := rfl
  ⟨reset, (recovery_settles_iff (by decide) reset).mpr rfl⟩

/-- A position of epoch 2, which the log does not have: every check resets it again. -/
theorem unknown_epoch_resets_forever :
    recheck twoEpochs 7 ⟨2, 1, 3, true⟩ .validate = some (5, ⟨2, 1, 3, false⟩) ∧
      forall again, recheck twoEpochs 5 ⟨2, 1, 3, false⟩ again = some (5, ⟨2, 1, 3, false⟩) :=
  ⟨rfl, fun again => by cases again <;> rfl⟩

/-! ## Positions from committed offsets -/

/-- `parse_committed_offsets` of one row: its offset and leader epoch, if it has them. -/
def parseCommitted (row : CommittedOffset) : Option (Int × Option Int) :=
  if 0 ≤ row.offset then
    some (row.offset, if 0 ≤ row.leaderEpoch then some row.leaderEpoch else none)
  else none

/-- One partition of `resolve_committed_sentinels`. -/
def resolveCommitted (policy : AutoOffsetReset) (committed : Option (Int × Option Int))
    (consumed : Consumed) (key : TopicPartition) : Consumed :=
  if consumed.offsets.get? key ≠ some COMMITTED_SENTINEL then consumed
  else
    match committed with
    | some (offset, leaderEpoch) =>
      consumed.set ⟨key, offset, fun position =>
        { position with
          offsetEpoch := leaderEpoch.getD (-1)
          awaitingValidation := PartitionPosition.shouldAwaitValidation position.leaderEpoch
            (leaderEpoch.getD (-1)) }⟩
    | none => { consumed with
        offsets := consumed.offsets.insert key (resetStartingOffset policy) }

/-- `prime_offsets` and `resolve_committed_sentinels` make the same position of a committed
offset, exactly if the flag of the position is the one that the committed epoch asks for. -/
theorem prime_eq_resolve_iff (policy : AutoOffsetReset) {consumed : Consumed}
    {row : CommittedOffset} (committed : 0 ≤ row.offset)
    (waiting : consumed.offsets.get? row.key = some COMMITTED_SENTINEL) :
    let primed := consumed.setAll (primeSettings policy [row.key] [row])
    let resolved := resolveCommitted policy (parseCommitted row) consumed row.key
    let position := (consumed.positions.get? row.key).getD .default
    primed.offsets.get? row.key = resolved.offsets.get? row.key ∧
      (primed.positions.get? row.key = resolved.positions.get? row.key <->
        -1 ≤ row.leaderEpoch ∧ position.awaitingValidation =
          PartitionPosition.shouldAwaitValidation position.leaderEpoch row.leaderEpoch) := by
  intro primed resolved position
  have isPrimed : primed.positions.get? row.key =
      some { position with offsetEpoch := row.leaderEpoch } := by
    simp [primed, position, primeSettings, Consumed.setAll, Consumed.set]
  simp only [resolved, resolveCommitted, parseCommitted, waiting, committed, isPrimed]
  refine ⟨by simp [primed, primeSettings, Consumed.setAll, Consumed.set, startingOffset, committed],
    ?_⟩
  by_cases known : 0 ≤ row.leaderEpoch
  · have atLeast : -1 ≤ row.leaderEpoch := le_trans (by decide) known
    simp [Consumed.set, position, known, atLeast]
  · have epoch : row.leaderEpoch = -1 <-> -1 ≤ row.leaderEpoch := by omega
    simp +contextual [Consumed.set, position, known, <- epoch]

theorem prime_eq_resolve_iff_no_leader :
    let consumed : Consumed := ⟨SortedMap.ofList [(⟨"orders", 0⟩, COMMITTED_SENTINEL)],
      SortedMap.ofList [(⟨"orders", 0⟩, .default)]⟩
    (consumed.setAll (primeSettings .latest [⟨"orders", 0⟩]
        [⟨⟨"orders", 0⟩, 100, 2⟩])).positions.get? ⟨"orders", 0⟩ =
      (resolveCommitted .latest (some (100, some 2)) consumed ⟨"orders", 0⟩).positions.get?
        ⟨"orders", 0⟩ :=
  (@prime_eq_resolve_iff .latest _ ⟨⟨"orders", 0⟩, 100, 2⟩ (by decide) rfl).2.mpr ⟨by decide, rfl⟩

/-- The leader epoch is 5 and the committed epoch 2: only one of the two waits for the
validation of the offset. -/
theorem prime_skips_validation :
    let consumed : Consumed := ⟨SortedMap.ofList [(⟨"orders", 0⟩, COMMITTED_SENTINEL)],
      SortedMap.ofList [(⟨"orders", 0⟩, ⟨-1, 1, 5, false⟩)]⟩
    (consumed.setAll (primeSettings .latest [⟨"orders", 0⟩]
        [⟨⟨"orders", 0⟩, 100, 2⟩])).positions.get? ⟨"orders", 0⟩ = some ⟨2, 1, 5, false⟩ ∧
      (resolveCommitted .latest (some (100, some 2)) consumed ⟨"orders", 0⟩).positions.get?
        ⟨"orders", 0⟩ = some ⟨2, 1, 5, true⟩ :=
  ⟨rfl, rfl⟩

end Validation

end Consumer
end Krabka
