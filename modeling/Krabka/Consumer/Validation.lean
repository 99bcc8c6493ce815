import Krabka.Consumer.SharedState
import Krabka.Transition

namespace Krabka
namespace Consumer

open Collections List SortedMap Option Transition

/-!
# Validation of positions

`validate.rs`, `seek.rs` and `apply_truncation` of `poll.rs`.  A validation round
takes a snapshot of the positions that wait for validation, asks the leader of
each about its epoch, applies each answer and at the end the truncations.  These
are separate critical sections: seeks, rebalances and other rounds run between
them.

An answer is compared with the leader epoch of the position only.  `Holds` says
that the position is still the one of the snapshot.
-/

def isKnown (epoch : Int) : Bool := decide (0 ≤ epoch)

inductive ValidationOutcome where
  | valid (leaderEpoch : Int)
  | truncated (safeOffset : Int)
deriving DecidableEq, Repr

def classify (offset offsetEpoch leaderEpoch leaderEndOffset : Int) : ValidationOutcome :=
  if leaderEndOffset < 0 ∨ leaderEpoch < offsetEpoch ∨ leaderEndOffset < offset then
    .truncated (if leaderEndOffset < 0 then 0 else leaderEndOffset)
  else .valid leaderEpoch

structure EpochEndOffset where
  leaderEpoch : Int
  endOffset : Int
  errorCode : Int
deriving DecidableEq, Repr

namespace PartitionPosition

def markValidationError (position : PartitionPosition) : PartitionPosition :=
  { position with leaderEpoch := -1, awaitingValidation := true }

def applyEpochAnswer (position : PartitionPosition) (answer : EpochEndOffset)
    (offset offsetEpoch leaderEpoch : Int) : PartitionPosition × Option Int :=
  if position.leaderEpoch ≠ leaderEpoch then (position, none)
  else if answer.errorCode ≠ 0 then (position.markValidationError, none)
  else
    match classify offset offsetEpoch answer.leaderEpoch answer.endOffset with
    | .valid epoch => ({ position with offsetEpoch := epoch, awaitingValidation := false }, none)
    | .truncated safeOffset => ({ position with awaitingValidation := false }, some safeOffset)

def shouldAwaitValidation (leaderEpoch offsetEpoch : Int) : Bool :=
  decide (offsetEpoch < leaderEpoch) && isKnown offsetEpoch

def updateLeaderEpoch (position : PartitionPosition) (leaderEpoch : Int) : PartitionPosition :=
  if position.leaderEpoch < leaderEpoch then
    { position with
      leaderEpoch := leaderEpoch
      awaitingValidation := shouldAwaitValidation leaderEpoch position.offsetEpoch ||
        position.awaitingValidation }
  else position

def clearUnvalidatablePosition (position : PartitionPosition) : PartitionPosition :=
  if position.awaitingValidation && !isKnown position.offsetEpoch then
    { position with awaitingValidation := false }
  else position

def shouldValidatePosition (position : PartitionPosition) : Bool :=
  position.awaitingValidation && isKnown position.offsetEpoch

def seekPosition (leaderEpoch : Option Int) (position : PartitionPosition) : PartitionPosition :=
  let offsetEpoch := leaderEpoch.getD (-1)
  { position with
    offsetEpoch := offsetEpoch
    awaitingValidation := isKnown offsetEpoch && isKnown position.leaderEpoch }

end PartitionPosition

/-- A partition row of a metadata response. -/
structure LeaderRow where
  key : TopicPartition
  leaderId : Int
  leaderEpoch : Int
deriving DecidableEq, Repr

variable {policy : AutoOffsetReset}

namespace Validation

/-- A position to validate, as the snapshot has it.  The code does not keep
`ownership`, the id of the partition at the snapshot. -/
structure Asked where
  key : TopicPartition
  offset : Int
  offsetEpoch : Int
  leaderEpoch : Int
  ownership : Option Nat
deriving DecidableEq, Repr

/-- A validation round: the positions without an answer, and the truncations to
apply when all are answered. -/
structure Round where
  toValidate : List Asked
  truncated : List (Asked × Int)

structure World where
  shared : SharedState
  rounds : List Round

inductive Act where
  | snapshot
  /-- The answer for the next position of a round. -/
  | answer (round : Nat) (answer : EpochEndOffset)
  | applyTruncation (round : Nat)
  /-- A request of a round failed or was woken up. -/
  | abandon (round : Nat)
  | seek (key : TopicPartition) (offset : Int) (leaderEpoch : Option Int)
  | requestOffsetReset (partitions : List TopicPartition) (sentinel : Int)
  | refreshLeaderEpochs (rows : List LeaderRow)
  /-- The sections of a rebalance. -/
  | publish (assignment : List TopicPartition) (preserveRetained : Bool)
  | prime (partitions : List TopicPartition) (response : List CommittedOffset)
  | retain (kept : List TopicPartition)
  | unsubscribe
deriving DecidableEq, Repr

/-- The positions without those that have nothing to validate. -/
def clearedPositions (shared : SharedState) : SortedMap TopicPartition PartitionPosition :=
  shared.consumed.positions.mapValues PartitionPosition.clearUnvalidatablePosition

def toValidate (shared : SharedState) : List Asked :=
  (clearedPositions shared).entries.filterMap fun entry =>
    if entry.2.shouldValidatePosition then
      (shared.consumed.offsets.get? entry.1).map fun offset =>
        ⟨entry.1, offset, entry.2.offsetEpoch, entry.2.leaderEpoch, shared.ids.get? entry.1⟩
    else none

def withConsumed (shared : SharedState) (consumed : Consumed) : SharedState :=
  { shared with consumed := consumed }

def withPositions (shared : SharedState)
    (positions : SortedMap TopicPartition PartitionPosition) : SharedState :=
  withConsumed shared { shared.consumed with positions := positions }

/-- Apply an answer to the position of its partition, if the consumer holds it. -/
def applyAnswer (shared : SharedState) (asked : Asked) (answer : EpochEndOffset) :
    SharedState × Option Int :=
  match shared.consumed.positions.get? asked.key with
  | none => (shared, none)
  | some position =>
    let applied := position.applyEpochAnswer answer asked.offset asked.offsetEpoch
      asked.leaderEpoch
    (withPositions shared (shared.consumed.positions.insert asked.key applied.1), applied.2)

def applyTruncation (policy : AutoOffsetReset) (shared : SharedState)
    (truncated : List (Asked × Int)) : SharedState :=
  if policy = .none then shared
  else withConsumed shared { shared.consumed with
    offsets := (truncated.map fun entry => (entry.1.key, entry.2)).foldl
      (fun offsets entry => offsets.insert entry.1 entry.2) shared.consumed.offsets }

def refreshLeaderEpochs (positions : SortedMap TopicPartition PartitionPosition)
    (rows : List LeaderRow) : SortedMap TopicPartition PartitionPosition :=
  rows.foldl
    (fun positions row =>
      let entry := (positions.get? row.key).getD .default
      positions.insert row.key
        ({ entry with leaderId := row.leaderId }.updateLeaderEpoch row.leaderEpoch))
    positions

/-- The partitions of `request_offset_reset`, or `none` when it fails. -/
def resetTargets (shared : SharedState) (partitions : List TopicPartition) :
    Option (List TopicPartition) :=
  if partitions = [] then some shared.assigned
  else if partitions.all shared.assigned.contains then some partitions
  else none

def resetSettings (targets : List TopicPartition) (sentinel : Int) : List Setting :=
  targets.map (fun key => ⟨key, sentinel, PartitionPosition.seekPosition none⟩)

def World.step (policy : AutoOffsetReset) (world : World) : Act -> Option World
  | .snapshot =>
    some ⟨withPositions world.shared (clearedPositions world.shared),
      world.rounds ++ [⟨toValidate world.shared, []⟩]⟩
  | .answer index answer =>
    match world.rounds[index]? with
    | some ⟨asked :: rest, truncated⟩ =>
      let applied := applyAnswer world.shared asked answer
      some ⟨applied.1, world.rounds.set index
        ⟨rest, truncated ++ (applied.2.map fun safeOffset => (asked, safeOffset)).toList⟩⟩
    | _ => none
  | .applyTruncation index =>
    match world.rounds[index]? with
    | some ⟨[], truncated⟩ =>
      some ⟨applyTruncation policy world.shared truncated, world.rounds.eraseIdx index⟩
    | _ => none
  | .abandon index => some ⟨world.shared, world.rounds.eraseIdx index⟩
  | .seek key offset leaderEpoch =>
    if offset < 0 ∨ ¬ world.shared.assigned.contains key then some world
    else
      let setting : Setting := ⟨key, offset, PartitionPosition.seekPosition leaderEpoch⟩
      some ⟨withConsumed world.shared (world.shared.consumed.setAll [setting]), world.rounds⟩
  | .requestOffsetReset partitions sentinel =>
    match resetTargets world.shared partitions with
    | none => some world
    | some targets =>
      let settings := resetSettings targets sentinel
      some ⟨withConsumed world.shared (world.shared.consumed.setAll settings), world.rounds⟩
  | .refreshLeaderEpochs rows =>
    let positions := refreshLeaderEpochs world.shared.consumed.positions rows
    some ⟨withPositions world.shared positions, world.rounds⟩
  | .publish assignment preserveRetained =>
    some ⟨world.shared.installAssignment assignment preserveRetained, world.rounds⟩
  | .prime partitions response =>
    let settings := primeSettings policy partitions response
    some ⟨withConsumed world.shared (world.shared.consumed.setAll settings), world.rounds⟩
  | .retain kept =>
    some ⟨withConsumed world.shared (world.shared.consumed.retain kept.contains), world.rounds⟩
  | .unsubscribe => some ⟨world.shared.clearAssignment.clearConsumed, world.rounds⟩

/-! ## What an answer may change -/

/-- The position is still the one asked about. -/
def Holds (shared : SharedState) (asked : Asked) : Prop :=
  shared.consumed.offsets.get? asked.key = some asked.offset ∧
  (shared.consumed.positions.get? asked.key).map PartitionPosition.offsetEpoch =
    some asked.offsetEpoch ∧
  shared.ids.get? asked.key = asked.ownership
deriving Decidable

def positionOf (shared : SharedState) (key : TopicPartition) : Option Int × Option (Int × Bool) :=
  (shared.consumed.offsets.get? key, (shared.consumed.positions.get? key).map
    fun position => (position.offsetEpoch, position.awaitingValidation))

/-- The positions asked about whose answers an act applies. -/
def answered (world : World) : Act -> List Asked
  | .answer index _ => (world.rounds[index]?.bind (fun round => round.toValidate.head?)).toList
  | .applyTruncation index =>
    (world.rounds[index]?.map (fun round => round.truncated.map Prod.fst)).getD []
  | _ => []

/-- An act that applies answers changes only positions that are still the ones
asked about. -/
def AnswersFit (policy : AutoOffsetReset) (world : World) (act : Act) : Prop :=
  answered world act ≠ [] -> forall next, world.step policy act = some next ->
    forall key, positionOf next.shared key ≠ positionOf world.shared key ->
      Exists fun asked => asked ∈ answered world act ∧ asked.key = key ∧ Holds world.shared asked

/-- The positions of a round whose answers are not all applied. -/
def Round.asked (round : Round) : List Asked :=
  round.toValidate ++ round.truncated.map Prod.fst

def World.asked (world : World) : List Asked :=
  world.rounds.flatMap Round.asked

/-- The partitions with an answer that is not applied yet. -/
def World.outstanding (world : World) : List TopicPartition :=
  world.asked.map Asked.key

/-- No seek, reset, rebalance or second validation round touches a partition with
an answer that is not applied yet. -/
def Undisturbed (policy : AutoOffsetReset) (world : World) : Act -> Prop
  | .snapshot =>
    forall asked, asked ∈ toValidate world.shared -> asked.key ∉ world.outstanding
  | .seek key _ _ => key ∉ world.outstanding
  | .requestOffsetReset partitions _ =>
    forall targets, targets ∈ resetTargets world.shared partitions ->
      forall key, key ∈ targets -> key ∉ world.outstanding
  | .publish assignment preserveRetained =>
    forall key, key ∈ world.outstanding ->
      (world.shared.installAssignment assignment preserveRetained).ids.get? key =
        world.shared.ids.get? key
  | .prime partitions response =>
    forall setting, setting ∈ primeSettings policy partitions response ->
      setting.key ∉ world.outstanding
  | .retain kept => forall key, key ∈ world.outstanding -> key ∈ kept
  | .unsubscribe => world.outstanding = []
  | .answer _ _ | .applyTruncation _ | .abandon _ | .refreshLeaderEpochs _ => True

instance (policy : AutoOffsetReset) (world : World) (act : Act) :
    Decidable (Undisturbed policy world act) := by
  cases act <;> unfold Undisturbed <;> infer_instance

/-! ## Answers that are not applied yet -/

/-- The positions asked about are of different partitions and still hold. -/
structure Fits (shared : SharedState) (asked : List Asked) : Prop where
  nodup : (asked.map Asked.key).Nodup
  holds : forall entry, entry ∈ asked -> Holds shared entry

section Fits

variable {shared next : SharedState} {asked others : List Asked} {entry : Asked}

theorem Holds.congr (holds : Holds shared entry)
    (sameOffset : next.consumed.offsets.get? entry.key = shared.consumed.offsets.get? entry.key)
    (samePosition : (next.consumed.positions.get? entry.key).map PartitionPosition.offsetEpoch =
      (shared.consumed.positions.get? entry.key).map PartitionPosition.offsetEpoch)
    (sameId : next.ids.get? entry.key = shared.ids.get? entry.key) : Holds next entry :=
  ⟨sameOffset.trans holds.1, samePosition.trans holds.2.1, sameId.trans holds.2.2⟩

theorem Fits.perm (fits : Fits shared asked) (same : asked.Perm others) : Fits shared others :=
  ⟨(same.map Asked.key).nodup_iff.mp fits.nodup,
    fun entry isEntry => fits.holds entry (same.mem_iff.mpr isEntry)⟩

theorem Fits.of_append (fits : Fits shared (asked ++ others)) : Fits shared others := by
  refine ⟨?_, fun entry isEntry => fits.holds entry (mem_append_right _ isEntry)⟩
  have nodup := fits.nodup
  rw [map_append] at nodup
  exact nodup.of_append_right

/-- A change that keeps the positions asked about. -/
theorem Fits.congr (fits : Fits shared asked)
    (keeps : forall entry, entry ∈ asked -> Holds shared entry -> Holds next entry) :
    Fits next asked :=
  ⟨fits.nodup, fun entry isEntry => keeps entry isEntry (fits.holds entry isEntry)⟩

/-- New offsets and positions of partitions that nothing was asked about. -/
theorem Fits.setAll {settings : List Setting} (fits : Fits shared asked)
    (absent : forall setting, setting ∈ settings -> setting.key ∉ asked.map Asked.key) :
    Fits (withConsumed shared (shared.consumed.setAll settings)) asked := by
  refine fits.congr fun entry isEntry holds => ?_
  have same := @get?_setAll_of_notMem shared.consumed entry.key settings
    fun setting isSetting isKey =>
      absent setting isSetting (isKey ▸ mem_map_of_mem isEntry)
  exact holds.congr same.1 (congrArg _ same.2) rfl

end Fits

/-! ## Rounds -/

theorem asked_of_round {rounds : List Round} {index : Nat} {round : Round}
    (found : rounds[index]? = some round) :
    Exists fun others =>
      (rounds.flatMap Round.asked).Perm (round.asked ++ others) ∧
      (forall new, ((rounds.set index new).flatMap Round.asked).Perm (new.asked ++ others)) ∧
      ((rounds.eraseIdx index).flatMap Round.asked).Perm others := by
  rcases List.getElem?_eq_some_iff.mp found with ⟨inRange, isRound⟩
  have split : rounds = rounds.take index ++ round :: rounds.drop (index + 1) := by
    rw [<- isRound, <- drop_eq_getElem_cons inRange, take_append_drop]
  refine ⟨(rounds.take index).flatMap Round.asked ++ (rounds.drop (index + 1)).flatMap Round.asked,
    ?_, fun new => ?_, ?_⟩
  · nth_rewrite 1 [split]
    rw [flatMap_append, flatMap_cons]
    exact perm_append_comm_assoc _ _ _
  · rw [set_eq_take_append_cons_drop, if_pos inRange, flatMap_append, flatMap_cons]
    exact perm_append_comm_assoc _ _ _
  · rw [eraseIdx_eq_take_drop_succ, flatMap_append]

/-! ## The steps -/

section Steps

variable {shared : SharedState} {asked : Asked} {answer : EpochEndOffset}

theorem applyAnswer_frame :
    (applyAnswer shared asked answer).1.consumed.offsets = shared.consumed.offsets ∧
    (applyAnswer shared asked answer).1.ids = shared.ids ∧
    forall key, key ≠ asked.key -> (applyAnswer shared asked answer).1.consumed.positions.get? key =
        shared.consumed.positions.get? key := by
  unfold applyAnswer
  cases shared.consumed.positions.get? asked.key with
  | none => exact ⟨rfl, rfl, fun _ _ => rfl⟩
  | some position =>
    exact ⟨rfl, rfl, fun key different => get?_insert_of_ne _ _ different⟩

theorem applyAnswer_truncated {safeOffset : Int}
    (truncated : (applyAnswer shared asked answer).2 = some safeOffset) :
    ((applyAnswer shared asked answer).1.consumed.positions.get? asked.key).map
        PartitionPosition.offsetEpoch =
      (shared.consumed.positions.get? asked.key).map PartitionPosition.offsetEpoch := by
  unfold applyAnswer at truncated ⊢
  cases found : shared.consumed.positions.get? asked.key with
  | none => simp only [found]
  | some position =>
    simp only [found, PartitionPosition.applyEpochAnswer] at truncated ⊢
    simp only [withPositions, withConsumed, get?_insert_self, map_some]
    split_ifs at truncated ⊢
    split at truncated
    · cases truncated
    · rfl

theorem fits_answer (answer : EpochEndOffset) {rest others : List Asked}
    (fits : Fits shared (asked :: (rest ++ others))) :
    let applied := applyAnswer shared asked answer
    Fits applied.1 ((applied.2.map fun safeOffset => (asked, safeOffset)).toList.map Prod.fst ++
      (rest ++ others)) := by
  intro applied
  rcases (applyAnswer_frame : _ ∧ _ ∧ _) with ⟨sameOffsets, sameIds, samePositions⟩
  have distinct := fits.nodup
  rw [map_cons, nodup_cons] at distinct
  have keeps : Fits applied.1 (rest ++ others) := by
    refine ⟨distinct.2, fun entry isEntry => ?_⟩
    have different : entry.key ≠ asked.key := fun same => distinct.1 (same ▸ mem_map_of_mem isEntry)
    exact (fits.holds entry (mem_cons_of_mem _ isEntry)).congr
      (congrArg (SortedMap.get? · _) sameOffsets) (congrArg _ (samePositions _ different))
      (congrArg (SortedMap.get? · _) sameIds)
  cases isSafe : applied.2 with
  | none => exact keeps
  | some safeOffset =>
    refine ⟨fits.nodup, fun entry isEntry => ?_⟩
    rcases mem_cons.mp isEntry with isAsked | isOther
    · rw [isAsked]
      exact (fits.holds asked mem_cons_self).congr
        (congrArg (SortedMap.get? · _) sameOffsets) (applyAnswer_truncated isSafe)
        (congrArg (SortedMap.get? · _) sameIds)
    · exact keeps.holds entry isOther

theorem map_offsetEpoch_clearedPositions (key : TopicPartition) :
    ((clearedPositions shared).get? key).map PartitionPosition.offsetEpoch =
      (shared.consumed.positions.get? key).map PartitionPosition.offsetEpoch := by
  rw [clearedPositions, get?_mapValues, Option.map_map]
  refine congrArg (Option.map · _) (funext fun position => ?_)
  unfold Function.comp PartitionPosition.clearUnvalidatablePosition
  split_ifs <;> rfl

theorem mem_toValidate (isAsked : asked ∈ toValidate shared) :
    Holds (withPositions shared (clearedPositions shared)) asked := by
  rcases mem_filterMap.mp isAsked with ⟨⟨key, position⟩, isEntry, isSome⟩
  split_ifs at isSome
  rcases map_eq_some_iff.mp isSome with ⟨offset, found, rfl⟩
  have isPosition := (mem_entries_iff _ _ _).mp isEntry
  exact ⟨found, congrArg (Option.map PartitionPosition.offsetEpoch) isPosition, rfl⟩

theorem nodup_toValidate : ((toValidate shared).map Asked.key).Nodup := by
  have distinct := keys_nodup (clearedPositions shared)
  rw [SortedMap.keys, List.Nodup, pairwise_map] at distinct
  rw [List.Nodup, pairwise_map, toValidate]
  refine List.Pairwise.filterMap _ (fun first second different left isLeft right isRight => ?_)
    distinct
  split_ifs at isLeft isRight
  rcases map_eq_some_iff.mp isLeft with ⟨_, _, rfl⟩
  rcases map_eq_some_iff.mp isRight with ⟨_, _, rfl⟩
  exact different

theorem map_offsetEpoch_refreshLeaderEpochs {key : TopicPartition} {epoch : Int}
    {positions : SortedMap TopicPartition PartitionPosition} (rows : List LeaderRow)
    (isEpoch : (positions.get? key).map PartitionPosition.offsetEpoch = some epoch) :
    ((refreshLeaderEpochs positions rows).get? key).map PartitionPosition.offsetEpoch =
      some epoch := by
  induction rows generalizing positions with
  | nil => exact isEpoch
  | cons row rest ih =>
    refine ih ?_
    by_cases same : key = row.key
    · rw [same] at isEpoch ⊢
      rcases map_eq_some_iff.mp isEpoch with ⟨position, found, rfl⟩
      simp only [get?_insert_self, found, getD_some, map_some, PartitionPosition.updateLeaderEpoch]
      split_ifs <;> rfl
    · rw [get?_insert_of_ne _ _ same]
      exact isEpoch

variable {policy : AutoOffsetReset} {truncated : List (Asked × Int)}

theorem applyTruncation_frame :
    (applyTruncation policy shared truncated).consumed.positions = shared.consumed.positions ∧
      (applyTruncation policy shared truncated).ids = shared.ids := by
  unfold applyTruncation
  split_ifs
  · exact ⟨rfl, rfl⟩
  · exact ⟨rfl, rfl⟩

theorem get?_applyTruncation_of_notMem {key : TopicPartition}
    (absent : forall entry, entry ∈ truncated -> entry.1.key ≠ key) :
    (applyTruncation policy shared truncated).consumed.offsets.get? key =
      shared.consumed.offsets.get? key := by
  unfold applyTruncation
  split_ifs
  · rfl
  · refine get?_foldl_insert_of_notMem _ _ ?_
    simpa [Function.comp_def] using fun entry safeOffset isEntry => absent (entry, safeOffset) isEntry

theorem fits_applyTruncation
    {others : List Asked} (fits : Fits shared (Round.asked ⟨[], truncated⟩ ++ others)) :
    Fits (applyTruncation policy shared truncated) others := by
  have distinct := fits.nodup
  rw [map_append, nodup_append] at distinct
  refine fits.of_append.congr fun entry isEntry holds => ?_
  have sameOffset := @get?_applyTruncation_of_notMem shared policy truncated entry.key
    fun other isOther same => by
      refine distinct.2.2 other.1.key ?_ entry.key (mem_map_of_mem isEntry) same
      exact mem_map_of_mem (mem_map_of_mem isOther)
  rcases (applyTruncation_frame : _ ∧ _) with ⟨samePositions, sameIds⟩
  exact holds.congr sameOffset (by rw [samePositions]) (by rw [sameIds])

end Steps

theorem World.step_fits {world next : World} (act : Act) (fits : Fits world.shared world.asked)
    (undisturbed : Undisturbed policy world act) (stepped : world.step policy act = some next) :
    Fits next.shared next.asked := by
  cases act with
  | snapshot =>
    cases stepped
    have kept : Fits (withPositions world.shared (clearedPositions world.shared)) world.asked :=
      fits.congr fun entry _ holds =>
        holds.congr rfl (map_offsetEpoch_clearedPositions entry.key) rfl
    have isAsked : World.asked ⟨withPositions world.shared (clearedPositions world.shared),
        world.rounds ++ [⟨toValidate world.shared, []⟩]⟩ =
          world.asked ++ toValidate world.shared := by
      simp [World.asked, Round.asked]
    rw [isAsked]
    refine ⟨?_, fun entry isEntry => ?_⟩
    · rw [map_append, nodup_append]
      refine ⟨kept.nodup, nodup_toValidate, fun key isKey other isOther same => ?_⟩
      rcases mem_map.mp isOther with ⟨asked, isAsked, rfl⟩
      exact undisturbed asked isAsked (same ▸ isKey)
    · rcases mem_append.mp isEntry with old | new
      · exact kept.holds entry old
      · exact mem_toValidate new
  | answer index answer =>
    simp only [World.step] at stepped
    split at stepped <;> cases stepped
    rename_i asked rest truncated found
    rcases asked_of_round found with ⟨others, same, sameSet, _⟩
    have split : Fits world.shared (asked :: (rest ++ (truncated.map Prod.fst ++ others))) := by
      refine (fits.perm same).perm ?_
      rw [Round.asked, append_assoc]
      exact .refl _
    refine (fits_answer answer split).perm ?_
    refine .trans ?_ (sameSet _).symm
    rw [Round.asked, map_append, append_assoc, append_assoc]
    exact (perm_append_comm_assoc _ _ _).trans ((perm_append_comm_assoc _ _ _).append_left rest)
  | applyTruncation index =>
    simp only [World.step] at stepped
    split at stepped <;> cases stepped
    rename_i truncated found
    rcases asked_of_round found with ⟨others, same, _, sameErase⟩
    exact (fits_applyTruncation (fits.perm same)).perm sameErase.symm
  | abandon index =>
    cases stepped
    cases found : world.rounds[index]? with
    | none =>
      have same := eraseIdx_of_length_le (getElem?_eq_none_iff.mp found)
      rw [World.asked, same]
      exact fits
    | some round =>
      rcases asked_of_round found with ⟨others, same, _, sameErase⟩
      exact (fits.perm same).of_append.perm sameErase.symm
  | seek key offset leaderEpoch =>
    simp only [World.step] at stepped
    split_ifs at stepped <;> cases stepped
    · exact fits
    · refine fits.setAll fun setting isSetting => ?_
      rw [mem_singleton.mp isSetting]
      exact undisturbed
  | requestOffsetReset partitions sentinel =>
    simp only [World.step] at stepped
    split at stepped <;> cases stepped
    · exact fits
    · rename_i targets isTargets
      refine fits.setAll fun setting isSetting => ?_
      rcases mem_map.mp isSetting with ⟨key, isKey, rfl⟩
      exact undisturbed targets isTargets key isKey
  | refreshLeaderEpochs rows =>
    cases stepped
    exact fits.congr fun entry _ holds =>
      ⟨holds.1, map_offsetEpoch_refreshLeaderEpochs rows holds.2.1, holds.2.2⟩
  | publish assignment preserveRetained =>
    cases stepped
    exact fits.congr fun entry isEntry holds =>
      holds.congr rfl rfl (undisturbed entry.key (mem_map_of_mem isEntry))
  | prime partitions response =>
    cases stepped
    exact fits.setAll undisturbed
  | retain kept =>
    cases stepped
    refine fits.congr fun entry isEntry holds => ?_
    have isKept := contains_iff_mem.mpr (undisturbed entry.key (mem_map_of_mem isEntry))
    have same := @get?_retain_of_keep world.shared.consumed entry.key kept.contains isKept
    exact holds.congr same.1 (congrArg _ same.2) rfl
  | unsubscribe =>
    cases stepped
    have nothing : world.asked = [] := map_eq_nil_iff.mp undisturbed
    refine fits.congr fun entry isEntry => ?_
    rw [show World.asked ⟨_, world.rounds⟩ = world.asked from rfl, nothing] at isEntry
    cases isEntry

/-- Answers to positions that still hold fit. -/
theorem answersFit_of_fits {world : World} {act : Act} (fits : Fits world.shared world.asked) :
    AnswersFit policy world act := by
  intro answers next stepped key changed
  cases act with
  | answer index answer =>
    simp only [World.step] at stepped
    split at stepped <;> cases stepped
    rename_i asked rest truncated found
    have isAsked : asked ∈ answered world (.answer index answer) := by simp [answered, found]
    refine ⟨asked, isAsked, ?_, fits.holds asked ?_⟩
    · -- The answer changes the position of its own partition only.
      by_contra different
      rcases (applyAnswer_frame : _ ∧ _ ∧ _) with ⟨sameOffsets, _, samePositions⟩
      apply changed
      rw [positionOf, sameOffsets, samePositions key (Ne.symm different), positionOf]
    · rcases asked_of_round found with ⟨others, same, _⟩
      exact same.mem_iff.mpr (by simp [Round.asked])
  | applyTruncation index =>
    simp only [World.step] at stepped
    split at stepped <;> cases stepped
    rename_i truncated found
    by_cases isKey : Exists fun entry => entry ∈ truncated ∧ entry.1.key = key
    · rcases isKey with ⟨entry, isEntry, isKey⟩
      have isAsked : entry.1 ∈ truncated.map Prod.fst := mem_map_of_mem isEntry
      refine ⟨entry.1, ?_, isKey, fits.holds entry.1 ?_⟩
      · simpa only [answered, found, map_some, getD_some] using isAsked
      · rcases asked_of_round found with ⟨others, same, _⟩
        exact same.mem_iff.mpr (mem_append_left _ isAsked)
    · refine absurd ?_ changed
      have absent : forall entry, entry ∈ truncated -> entry.1.key ≠ key :=
        fun entry isEntry same => isKey ⟨entry, isEntry, same⟩
      rcases (applyTruncation_frame : _ ∧ _) with ⟨samePositions, _⟩
      rw [positionOf, get?_applyTruncation_of_notMem absent, samePositions, positionOf]
  | _ => exact absurd rfl answers

/-- Validation answers change only the positions that they were asked for, in
every run in which no seek, reset, rebalance or second round touches a partition
between the snapshot and the application of its answer. -/
theorem run_answersFit (policy : AutoOffsetReset) (shared : SharedState) {acts : List Act}
    (along : Transition.Along (World.step policy) (Undisturbed policy) ⟨shared, []⟩ acts) :
    Transition.Along (World.step policy) (AnswersFit policy) ⟨shared, []⟩ acts :=
  along_of_invariant (fun world => Fits world.shared world.asked)
    (fun _ act _ => World.step_fits act)
    (fun _ _ => answersFit_of_fits) (⟨nodup_nil, nofun⟩ : Fits shared []) along

/-- A consumer of `orders-0` at offset 100, of epoch 2 before leader epoch 5, and
of `orders-1`. -/
def awaiting : SharedState where
  assigned := [⟨"orders", 0⟩, ⟨"orders", 1⟩]
  ids := SortedMap.ofList [(⟨"orders", 0⟩, 1), (⟨"orders", 1⟩, 2)]
  allocated := 2
  consumed :=
    ⟨SortedMap.ofList [(⟨"orders", 0⟩, 100), (⟨"orders", 1⟩, 7)],
      SortedMap.ofList [(⟨"orders", 0⟩, ⟨2, 1, 5, true⟩), (⟨"orders", 1⟩, ⟨-1, 1, 5, false⟩)]⟩

/-- The log of `orders-0` was truncated at 80, while the application moved
`orders-1`. -/
theorem run_answersFit_other_seek :
    let acts : List Act := [.snapshot, .seek ⟨"orders", 1⟩ 3 (some 4), .answer 0 ⟨2, 80, 0⟩,
      .applyTruncation 0]
    (run (World.step .earliest) ⟨awaiting, []⟩ acts).map
        (fun world => world.shared.consumed.offsets.entries) =
      some [(⟨"orders", 0⟩, 80), (⟨"orders", 1⟩, 3)] ∧
    Along (World.step .earliest) (AnswersFit .earliest) ⟨awaiting, []⟩ acts := by
  intro acts
  exact ⟨by decide, run_answersFit .earliest awaiting (by decide)⟩

/-- A seek to offset 10 between the snapshot and the answer: the answer for offset
100 clears the flag of the new position, and the truncation moves it to 80. -/
theorem answer_moves_sought_position :
    let key : TopicPartition := ⟨"orders", 0⟩
    let acts : List Act := [.snapshot, .seek key 10 (some 4)]
    Exists fun sought => Exists fun validated => Exists fun moved =>
      run (World.step .earliest) ⟨awaiting, []⟩ acts = some sought ∧
      sought.step .earliest (.answer 0 ⟨2, 80, 0⟩) = some validated ∧
      validated.step .earliest (.applyTruncation 0) = some moved ∧
      positionOf sought.shared key = (some 10, some (4, true)) ∧
      positionOf validated.shared key = (some 10, some (4, false)) ∧
      positionOf moved.shared key = (some 80, some (4, false)) ∧
      ¬ AnswersFit .earliest sought (.answer 0 ⟨2, 80, 0⟩) := by
  intro key acts
  have ran : run (World.step .earliest) ⟨awaiting, []⟩ acts = some _ := rfl
  refine ⟨_, _, _, ran, rfl, rfl, by decide, by decide, by decide, fun fit => ?_⟩
  rcases fit (by decide) _ rfl key (by decide) with ⟨asked, isAsked, _, holds⟩
  rw [mem_singleton.mp isAsked] at holds
  exact absurd holds (by decide)

end Validation

end Consumer
end Krabka
