import Krabka.Consumer.CommitSlot
import Krabka.Consumer.Delivery
import Krabka.Consumer.SharedState
import Krabka.Transition

namespace Krabka
namespace Consumer

open Collections List SortedMap Transition

universe u

/-!
# The commits of a consumer

`commit.rs`, and `commit_consumed_before_join` of `coordinator.rs`: the tasks that
send `OffsetCommit` requests.  `commit_serialization` is the commit lock.  Only the
task that holds it has offsets to send, so a task that waits for the lock needs no
state.  Each act is one critical section.

Without auto commit there are no `polled` positions, no interval commit and no
commit before a join: such a consumer takes only the other acts, and no act of
these reads `polled`.  The metadata of commits is left out.
-/

/-- `ConsumedPosition`.  The code does not keep `readAt`, the time at which the
offset was read. -/
structure ConsumedPosition where
  offset : Int
  leaderEpoch : Int
  ownershipId : Nat
  readAt : Nat
deriving DecidableEq, Repr

abbrev ConsumedPositions := SortedMap TopicPartition ConsumedPosition

def hasValidPosition (nextOffset : Int) : Bool :=
  decide (0 ≤ nextOffset) && !isResetSentinel nextOffset

def validOffsets (readAt : Nat) (ids : OwnershipIds) (offsets : SortedMap TopicPartition Int) :
    ConsumedPositions :=
  offsets.filterMap fun partition offset =>
    if hasValidPosition offset then
      (ids.get? partition).map fun id => ⟨offset, -1, id, readAt⟩
    else none

def withLeaderEpochs (positions : SortedMap TopicPartition PartitionPosition)
    (consumed : ConsumedPositions) : ConsumedPositions :=
  consumed.filterMap fun partition position => some { position with
    leaderEpoch := ((positions.get? partition).map PartitionPosition.offsetEpoch).getD (-1) }

def allConsumed (readAt : Nat) (ids : OwnershipIds) (consumed : Consumed) : ConsumedPositions :=
  withLeaderEpochs consumed.positions (validOffsets readAt ids consumed.offsets)

/-- `owned_offsets`, and `retain_continuously_owned` of a synchronous commit. -/
def ownedOffsets (consumed : ConsumedPositions) (ids : OwnershipIds) : ConsumedPositions :=
  consumed.filter fun partition position => decide (ids.get? partition = some position.ownershipId)

def mergeSentPosition (known position : ConsumedPosition) : ConsumedPosition :=
  if known.ownershipId ≠ position.ownershipId ∨ known.offset < position.offset then position
  else known

def mergeSentPositions (polled sent : ConsumedPositions) : ConsumedPositions :=
  SortedMap.mergeWith mergeSentPosition polled sent

def resetPolled (polled : ConsumedPositions) (key : TopicPartition) (offset : Int) :
    ConsumedPositions :=
  match polled.get? key with
  | none => polled
  | some position => polled.insert key { position with offset := offset, leaderEpoch := -1 }

variable {consumed : ConsumedPositions} {position : Option Int}

namespace CommitTasks

/-! ## Tasks -/

/-- `maybe_auto_commit_async` at the start of `poll`, and `poll` after it. -/
inductive Poll where
  | idle
  | identified (ids : OwnershipIds)
  | read (ids : OwnershipIds) (consumed : ConsumedPositions)
  | consumed (ids : OwnershipIds) (consumed : ConsumedPositions)
  | recorded (ids : OwnershipIds) (consumed : ConsumedPositions)
  | ready

inductive Commit where
  | syncLocked
  | syncPending (pending : ConsumedPositions)
  /-- `commit_pending_offsets` after `retain_continuously_owned`. -/
  | syncOwned (pending : ConsumedPositions)
  | syncReady (pending : ConsumedPositions)
  | asyncLocked
  | asyncIdentified (ids : OwnershipIds)
  | asyncRead (consumed : ConsumedPositions)
  | asyncConsumed (consumed : ConsumedPositions)
  | asyncReady (consumed : ConsumedPositions)
  | intervalReady (consumed : ConsumedPositions)
  | joinLocked
  | joinReady (consumed : ConsumedPositions)

structure SentOffset where
  key : TopicPartition
  position : ConsumedPosition
  consumed : Option Int
deriving DecidableEq, Repr

structure World (Data : Type u) where
  shared : SharedState
  buffer : List (BufferedPartition Data)
  poll : Poll
  holder : Option Commit
  /-- `AutoCommit.polled`. -/
  polled : ConsumedPositions
  log : List SentOffset
  clock : Nat

/-- Decoded data of a `Fetch` response. -/
structure Fetched (Data : Type u) where
  partition : BufferedPartition Data
  wellFormed : partition.WellFormed

/-- Which commit takes the lock. -/
inductive Kind where
  | sync
  | async
  | join
deriving DecidableEq, Repr

inductive Act (Data : Type u) where
  | pollStart
  | pollOffsets
  | pollPositions
  | pollRecord
  | pollCommit (due : Bool)
  /-- `poll` without auto commit. -/
  | pollReady
  | pollEnd
  | fetched (data : Fetched Data)
  | drain (maxRecords : Nat) (paused : TopicPartition -> Bool)
  | lock (kind : Kind)
  /-- The next section of the commit. -/
  | advance
  /-- The commit sends a request. -/
  | send
  /-- The commit tries again, for the partitions that were not acknowledged. -/
  | retry (acknowledged : List TopicPartition)
  /-- The commit ends. -/
  | release
  /-- The sections of a rebalance. -/
  | publish (assignment : List TopicPartition) (preserveRetained : Bool)
  | prime (settings : List Setting)
  | retain (kept : List TopicPartition)
  | seek (setting : Setting)
  | reset (key : TopicPartition) (offset : Int)

/-- The next section of a commit, with the positions for the commit before a
join. -/
def Commit.advance (world : World Data) : Commit -> Option (Commit × ConsumedPositions)
  | .syncLocked =>
    some (.syncPending (allConsumed world.clock world.shared.ids world.shared.consumed),
      world.polled)
  | .syncPending pending =>
    some (.syncOwned (ownedOffsets pending world.shared.ids), world.polled)
  | .syncOwned pending => some (.syncReady pending, mergeSentPositions world.polled pending)
  | .asyncLocked => some (.asyncIdentified world.shared.ids, world.polled)
  | .asyncIdentified ids =>
    some (.asyncRead (validOffsets world.clock ids world.shared.consumed.offsets), world.polled)
  | .asyncRead consumed =>
    some (.asyncConsumed (withLeaderEpochs world.shared.consumed.positions consumed),
      world.polled)
  | .asyncConsumed consumed =>
    some (.asyncReady consumed, mergeSentPositions world.polled consumed)
  | .joinLocked => some (.joinReady (ownedOffsets world.polled world.shared.ids), world.polled)
  | .syncReady _ | .asyncReady _ | .intervalReady _ | .joinReady _ => none

/-- The offsets that a commit sends, when it is about to. -/
def Commit.request : Commit -> Option ConsumedPositions
  | .syncReady consumed | .asyncReady consumed | .intervalReady consumed | .joinReady consumed =>
    some consumed
  | _ => none

def Commit.retry (acknowledged : List TopicPartition) : Commit -> Option Commit
  | .syncReady pending =>
    some (.syncPending (pending.filter fun partition _ => !acknowledged.contains partition))
  | .joinReady _ => some .joinLocked
  | _ => none

def Kind.locked : Kind -> Commit
  | .sync => .syncLocked
  | .async => .asyncLocked
  | .join => .joinLocked

def sentOffsets (shared : SharedState) (consumed : ConsumedPositions) : List SentOffset :=
  consumed.entries.map fun entry =>
    ⟨entry.1, entry.2, shared.consumed.offsets.get? entry.1⟩

/-- The state after an act, without the clock. -/
def World.act (world : World Data) : Act Data -> Option (World Data)
  | .pollStart =>
    match world.poll with
    | .idle => some { world with poll := .identified world.shared.ids }
    | _ => none
  | .pollOffsets =>
    match world.poll with
    | .identified ids =>
      let consumed := validOffsets world.clock ids world.shared.consumed.offsets
      some { world with poll := .read ids consumed }
    | _ => none
  | .pollPositions =>
    match world.poll with
    | .read ids consumed =>
      let known := withLeaderEpochs world.shared.consumed.positions consumed
      some { world with poll := .consumed ids known }
    | _ => none
  | .pollRecord =>
    match world.poll with
    | .consumed ids consumed =>
      some { world with poll := .recorded ids consumed, polled := consumed }
    | _ => none
  | .pollCommit due =>
    match world.poll with
    | .recorded ids consumed =>
      -- `try_lock_owned` fails while another commit holds the lock.
      if due ∧ world.holder.isNone ∧ (ownedOffsets consumed ids).entries ≠ [] then
        let commit := Commit.intervalReady (ownedOffsets consumed ids)
        some { world with poll := .ready, holder := some commit }
      else some { world with poll := .ready }
    | _ => none
  | .pollReady =>
    match world.poll with
    | .idle => some { world with poll := .ready }
    | _ => none
  | .pollEnd => some { world with poll := .idle }
  | .fetched data => some { world with buffer := world.buffer ++ [data.partition] }
  | .drain maxRecords paused =>
    match world.poll with
    | .ready =>
      let view : View := ⟨world.shared.assigned.contains, paused⟩
      let drained := Krabka.Consumer.drain maxRecords view world.buffer world.shared.consumed
      let shared := { world.shared with consumed := drained.consumed }
      some { world with shared := shared, buffer := drained.buffer }
    | _ => none
  | .lock kind =>
    match world.holder with
    | none => some { world with holder := some kind.locked }
    | some _ => none
  | .advance => do
      let commit <- world.holder
      let (next, polled) <- Commit.advance world commit
      return { world with holder := some next, polled := polled }
  | .send => do
      let commit <- world.holder
      let consumed <- Commit.request commit
      return { world with log := world.log ++ sentOffsets world.shared consumed }
  | .retry acknowledged => do
      let commit <- world.holder
      let next <- Commit.retry acknowledged commit
      return { world with holder := some next }
  | .release => some { world with holder := none }
  | .publish assignment preserveRetained =>
    some { world with shared := world.shared.installAssignment assignment preserveRetained }
  | .prime settings =>
    -- The coordinator task primes partitions that the consumer does not own.
    if settings.all (fun setting => !world.shared.ids.contains setting.key) then
      let consumed := world.shared.consumed.setAll settings
      some { world with shared := { world.shared with consumed := consumed } }
    else none
  | .retain kept =>
    if world.shared.ids.keys.all kept.contains then
      let consumed := world.shared.consumed.retain kept.contains
      some { world with shared := { world.shared with consumed := consumed } }
    else none
  | .seek setting =>
    let consumed := world.shared.consumed.set setting
    some { world with shared := { world.shared with consumed := consumed } }
  | .reset key offset =>
    let offsets := world.shared.consumed.offsets.insert key offset
    let consumed := { world.shared.consumed with offsets := offsets }
    let shared := { world.shared with consumed := consumed }
    some { world with shared := shared, polled := resetPolled world.polled key offset }

def World.step (world : World Data) (act : Act Data) : Option (World Data) :=
  (world.act act).map fun next => { next with clock := world.clock + 1 }

/-- A consumer before its first commit. -/
def World.start (shared : SharedState) : World Data :=
  ⟨shared, [], .idle, none, .empty, [], 0⟩

def Continuous (key : TopicPartition) (id : Nat) (world : World Data) (act : Act Data) : Prop :=
  world.shared.ids.get? key = some id ∧
    match act with
    | .seek setting => setting.key ≠ key
    | .reset other _ => other ≠ key
    | _ => True

instance (key : TopicPartition) (id : Nat) (world : World Data) (act : Act Data) :
    Decidable (Continuous key id world act) := by
  cases act <;> unfold Continuous <;> infer_instance

/-! ## One partition -/

def readOf (position : ConsumedPosition) : Read :=
  ⟨position.offset, position.ownershipId, position.readAt⟩

section Reads

variable {key : TopicPartition} {ids : OwnershipIds}

variable {position : ConsumedPosition}

theorem get?_validOffsets {readAt : Nat} {offsets : SortedMap TopicPartition Int}
    (found : (validOffsets readAt ids offsets).get? key = some position) :
    offsets.get? key = some position.offset ∧ ids.get? key = some position.ownershipId ∧
      position.readAt = readAt := by
  rw [validOffsets, get?_filterMap, Option.bind_eq_some_iff] at found
  rcases found with ⟨offset, isOffset, valid⟩
  split_ifs at valid
  rcases Option.map_eq_some_iff.mp valid with ⟨id, isId, rfl⟩
  exact ⟨isOffset, isId, rfl⟩

theorem get?_ownedOffsets (found : (ownedOffsets consumed ids).get? key = some position) :
    consumed.get? key = some position ∧ ids.get? key = some position.ownershipId := by
  rw [ownedOffsets, get?_filter, Option.filter_eq_some_iff] at found
  exact ⟨found.1, of_decide_eq_true found.2⟩

theorem map_readOf_mergeSentPositions (polled sent : ConsumedPositions) :
    ((mergeSentPositions polled sent).get? key).map readOf =
      match (sent.get? key).map readOf with
      | none => (polled.get? key).map readOf
      | some held => some (Slot.merge ((polled.get? key).map readOf) held) := by
  rw [mergeSentPositions, get?_mergeWith]
  cases sent.get? key with
  | none => rfl
  | some position =>
    cases polled.get? key with
    | none => rfl
    | some known => exact congrArg some (apply_ite readOf _ _ _)

variable {polled : ConsumedPositions} {other : TopicPartition}

theorem get?_resetPolled (offset : Int) (different : other ≠ key) :
    (resetPolled polled other offset).get? key = polled.get? key := by
  rw [resetPolled]
  cases polled.get? other with
  | none => rfl
  | some position => exact get?_insert_of_ne _ _ (Ne.symm different)

/-- A reset keeps the time of the read. -/
theorem readAt_resetPolled {offset : Int} {read : Read}
    (isRead : read ∈ ((resetPolled polled other offset).get? key).map readOf) :
    Exists fun old => old ∈ (polled.get? key).map readOf ∧ read.readAt = old.readAt := by
  by_cases same : other = key
  · rw [same, resetPolled] at isRead
    cases found : polled.get? key with
    | none =>
      rw [found] at isRead
      exact ⟨read, found ▸ isRead, rfl⟩
    | some position =>
      rw [found] at isRead
      rw [get?_insert_self] at isRead
      cases isRead
      exact ⟨readOf position, rfl, rfl⟩
  · rw [get?_resetPolled offset same] at isRead
    exact ⟨read, isRead, rfl⟩

theorem reads_validOffsets {slot : Slot} {offsets : SortedMap TopicPartition Int}
    (same : slot.position = offsets.get? key) :
    slot.Reads (((validOffsets slot.clock ids offsets).get? key).map readOf) := by
  intro entry isEntry
  rcases Option.map_eq_some_iff.mp isEntry with ⟨position, found, rfl⟩
  have parts := get?_validOffsets found
  exact ⟨same.trans parts.1, parts.2.2⟩

end Reads

/-! ## The slot of a partition -/

def Poll.ids : Poll -> Option OwnershipIds
  | .identified ids | .read ids _ | .consumed ids _ | .recorded ids _ => some ids
  | .idle | .ready => none

def Poll.positions : Poll -> ConsumedPositions
  | .read _ known | .consumed _ known | .recorded _ known => known
  | .idle | .identified _ | .ready => .empty

def Poll.isRecorded : Poll -> Bool
  | .recorded _ _ => true
  | _ => false

def Commit.positions : Commit -> ConsumedPositions
  | .syncPending consumed | .syncOwned consumed | .syncReady consumed | .asyncRead consumed
  | .asyncConsumed consumed | .asyncReady consumed | .intervalReady consumed
  | .joinReady consumed => consumed
  | .syncLocked | .asyncLocked | .asyncIdentified _ | .joinLocked => .empty

def holderPositions : Option Commit -> ConsumedPositions
  | some commit => Commit.positions commit
  | none => .empty

def holderReady : Option Commit -> Bool
  | some commit => (Commit.request commit).isSome
  | none => false

def World.slot (world : World Data) (key : TopicPartition) : Slot where
  owner := world.shared.ids.get? key
  position := world.shared.consumed.offsets.get? key
  identity := (Poll.ids world.poll).bind (SortedMap.get? · key)
  poll := ((Poll.positions world.poll).get? key).map readOf
  recorded := Poll.isRecorded world.poll
  holder := ((holderPositions world.holder).get? key).map readOf
  ready := holderReady world.holder
  polled := (world.polled.get? key).map readOf
  sent := (world.log.filter (fun sent => sent.key = key)).map
    (fun sent => ⟨readOf sent.position, sent.consumed⟩)
  clock := world.clock

theorem filter_sentOffsets (shared : SharedState) (consumed : ConsumedPositions)
    (key : TopicPartition) :
    ((sentOffsets shared consumed).filter (fun sent => sent.key = key)).map
        (fun sent => Sent.mk (readOf sent.position) sent.consumed) =
      ((consumed.get? key).map readOf).toList.map
        (Sent.mk · (shared.consumed.offsets.get? key)) := by
  have entries : consumed.entries.filter (fun entry => entry.1 = key) =
      ((consumed.get? key).map (Prod.mk key)).toList := by
    convert filter_entries_key consumed key
  rw [sentOffsets, filter_map]
  change (List.map _ (List.map _ (consumed.entries.filter fun entry => entry.1 = key))) = _
  rw [entries]
  cases consumed.get? key <;> rfl

section Slots

variable {slot : Slot} {shared : SharedState} {buffer : List (BufferedPartition Data)}
  {poll : Poll} {holder : Option Commit} {commit : Commit} {polled : ConsumedPositions}
  {log : List SentOffset} {clock : Nat} {next : World Data} {key : TopicPartition}

theorem step_withLeaderEpochs (change : Option Read -> Slot)
    {positions : SortedMap TopicPartition PartitionPosition}
    (step : slot.Step (change ((consumed.get? key).map readOf))) :
    slot.Step (change (((withLeaderEpochs positions consumed).get? key).map readOf)) := by
  rw [withLeaderEpochs, get?_filterMap]
  cases found : consumed.get? key <;> rw [found] at step <;> exact step

theorem step_mergeSentPositions {sent : ConsumedPositions}
    (isHeld : (sent.get? key).map readOf = slot.holder)
    (isPolled : (polled.get? key).map readOf = slot.polled) :
    slot.Step { slot with
      polled := ((mergeSentPositions polled sent).get? key).map readOf, ready := true }.tick := by
  rw [map_readOf_mergeSentPositions, isHeld, isPolled]
  rcases found : slot.holder with _ | held
  · have step := Slot.Step.pass found
    rw [found] at step
    exact step
  · have step := Slot.Step.raise found
    rw [found] at step
    exact step

theorem advance_slot
    (stepped : (World.mk shared buffer poll (some commit) polled log clock).step .advance =
      some next) :
    ((World.mk shared buffer poll (some commit) polled log clock).slot key).Step
      (next.slot key) := by
  cases commit with
  | syncLocked =>
    cases stepped
    exact step_withLeaderEpochs (fun read => Slot.tick ⟨_, _, _, _, _, read, _, _, _, _⟩)
      (.readHolder (reads_validOffsets rfl))
  | syncPending pending =>
    cases stepped
    refine .narrow fun entry isEntry => ?_
    rcases Option.map_eq_some_iff.mp isEntry with ⟨position, found, rfl⟩
    exact congrArg (Option.map readOf) (get?_ownedOffsets found).1
  | syncOwned | asyncConsumed =>
    cases stepped
    exact step_mergeSentPositions rfl rfl
  | asyncLocked =>
    cases stepped
    exact .idle
  | asyncIdentified ids =>
    cases stepped
    exact .readHolder (reads_validOffsets rfl)
  | asyncRead consumed =>
    cases stepped
    exact step_withLeaderEpochs (fun read => Slot.tick ⟨_, _, _, _, _, read, _, _, _, _⟩) .idle
  | joinLocked =>
    cases stepped
    refine .join fun entry isEntry => ?_
    rcases Option.map_eq_some_iff.mp isEntry with ⟨position, found, rfl⟩
    have parts := get?_ownedOffsets found
    exact ⟨congrArg (Option.map readOf) parts.1, parts.2⟩
  | _ => cases stepped

theorem retry_slot {acknowledged : List TopicPartition}
    (stepped : (World.mk shared buffer poll (some commit) polled log clock).step
      (.retry acknowledged) = some next) :
    ((World.mk shared buffer poll (some commit) polled log clock).slot key).Step
      (next.slot key) := by
  cases commit with
  | syncReady pending =>
    cases stepped
    refine .narrow fun entry isEntry => ?_
    rcases Option.map_eq_some_iff.mp isEntry with ⟨position, found, rfl⟩
    have parts := (get?_filter pending _ key).symm.trans found
    exact congrArg (Option.map readOf) (Option.filter_eq_some_iff.mp parts).1
  | joinReady consumed =>
    cases stepped
    exact .dropHolder
  | _ => cases stepped

theorem send_slot
    (stepped : (World.mk shared buffer poll (some commit) polled log clock).step .send =
      some next) :
    ((World.mk shared buffer poll (some commit) polled log clock).slot key).Step
      (next.slot key) := by
  have request (isReady : commit.request = some commit.positions) :
      ((World.mk shared buffer poll (some commit) polled log clock).slot key).Step
        (World.slot ⟨shared, buffer, poll, some commit, polled,
          log ++ sentOffsets shared commit.positions, clock + 1⟩ key) := by
    have step := @Slot.Step.send
      ((World.mk shared buffer poll (some commit) polled log clock).slot key)
      (congrArg Option.isSome isReady)
    rw [show Slot.sent _ ++ _ = ((log ++ sentOffsets shared commit.positions).filter
      (fun sent => sent.key = key)).map (fun sent => ⟨readOf sent.position, sent.consumed⟩) by
        rw [filter_append, map_append, filter_sentOffsets]; rfl] at step
    exact step
  cases commit with
  | syncReady | asyncReady | intervalReady | joinReady =>
    cases stepped
    exact request rfl
  | _ => cases stepped

theorem step_same {polled : Option Read} (samePosition : position = slot.position)
    (samePolled : polled = slot.polled) :
    slot.Step { slot with position := position, polled := polled }.tick := by
  rw [samePosition, samePolled]
  exact .idle

theorem disturb_position :
    slot.Disturb { slot with position := position }.tick :=
  .disturb fun entry isEntry => ⟨entry, isEntry, rfl⟩

theorem World.step_slot {world : World Data} {act : Act Data}
    (wellFormed : forall partition, partition ∈ world.buffer -> partition.WellFormed)
    (stepped : world.step act = some next) :
    (world.slot key).Step (next.slot key) ∨ (world.slot key).Disturb (next.slot key) ∧
      forall id, ¬ Continuous key id world act := by
  rcases world with ⟨shared, buffer, poll, holder, polled, log, clock⟩
  cases act with
  | pollStart =>
    cases poll with
    | idle => cases stepped; exact .inl .startPoll
    | _ => cases stepped
  | pollOffsets =>
    cases poll with
    | identified ids =>
      cases stepped
      refine .inl (.readPoll (reads_validOffsets rfl) fun entry isEntry => ?_)
      rcases Option.map_eq_some_iff.mp isEntry with ⟨position, found, rfl⟩
      exact (get?_validOffsets found).2.1
    | _ => cases stepped
  | pollPositions =>
    cases poll with
    | read ids consumed =>
      cases stepped
      exact .inl (step_withLeaderEpochs
        (fun read => Slot.tick ⟨_, _, _, read, _, _, _, _, _, _⟩) .idle)
    | _ => cases stepped
  | pollRecord =>
    cases poll with
    | consumed ids consumed => cases stepped; exact .inl .record
    | _ => cases stepped
  | pollCommit due =>
    cases poll with
    | recorded ids consumed =>
      simp only [World.step, World.act] at stepped
      split_ifs at stepped with taken <;> cases stepped
      · refine .inl (.interval rfl fun entry isEntry => ?_)
        rcases Option.map_eq_some_iff.mp isEntry with ⟨position, found, rfl⟩
        exact congrArg (Option.map readOf) (get?_ownedOffsets found).1
      · exact .inl .dropPoll
    | _ => cases stepped
  | pollReady =>
    cases poll with
    | idle => cases stepped; exact .inl .dropPoll
    | _ => cases stepped
  | pollEnd => cases stepped; exact .inl .dropPoll
  | fetched data => cases stepped; exact .inl .idle
  | drain maxRecords paused =>
    cases poll with
    | ready =>
      cases stepped
      exact .inl (.forward (fun before isBefore =>
        (drain_passes maxRecords _ buffer shared.consumed).forward wellFormed isBefore) rfl rfl)
    | _ => cases stepped
  | lock kind =>
    cases holder with
    | none => cases kind <;> cases stepped <;> exact .inl .dropHolder
    | some commit => cases stepped
  | advance =>
    cases holder with
    | none => cases stepped
    | some commit => exact .inl (advance_slot stepped)
  | send =>
    cases holder with
    | none => cases stepped
    | some commit => exact .inl (send_slot stepped)
  | retry acknowledged =>
    cases holder with
    | none => cases stepped
    | some commit => exact .inl (retry_slot stepped)
  | release => cases stepped; exact .inl .dropHolder
  | publish assignment preserveRetained => cases stepped; exact .inl .own
  | prime settings =>
    simp only [World.step, World.act] at stepped
    split_ifs at stepped with unowned <;> cases stepped
    rw [all_eq_true] at unowned
    cases owner : shared.ids.get? key with
    | none => exact .inr ⟨disturb_position, fun id owned => nomatch owner.symm.trans owned.1⟩
    | some id =>
      have absent (setting : Setting) (isSetting : setting ∈ settings) :
          setting.key ≠ key := by
        rintro rfl
        have free := unowned setting isSetting
        rw [SortedMap.contains, owner] at free
        cases free
      exact .inl (step_same (get?_setAll_of_notMem absent).1 rfl)
  | retain kept =>
    simp only [World.step, World.act] at stepped
    split_ifs at stepped with all <;> cases stepped
    rw [all_eq_true] at all
    cases owner : shared.ids.get? key with
    | none => exact .inr ⟨disturb_position, fun id owned => nomatch owner.symm.trans owned.1⟩
    | some id =>
      have isOwned : key ∈ shared.ids.keys :=
        (mem_keys_iff shared.ids key).mpr (congrArg Option.isSome owner)
      exact .inl (step_same (get?_retain_of_keep (all key isOwned)).1 rfl)
  | seek setting =>
    cases stepped
    by_cases same : setting.key = key
    · exact .inr ⟨disturb_position, fun id undisturbed => undisturbed.2 same⟩
    · exact .inl (step_same (get?_insert_of_ne _ _ (Ne.symm same)) rfl)
  | reset other offset =>
    cases stepped
    by_cases same : other = key
    · refine .inr ⟨.disturb fun entry isEntry => ?_, fun id undisturbed => undisturbed.2 same⟩
      exact readAt_resetPolled isEntry
    · exact .inl (step_same (get?_insert_of_ne _ _ (Ne.symm same))
        (congrArg (Option.map readOf) (get?_resetPolled offset same)))

theorem World.step_wellFormed {world : World Data} {act : Act Data}
    (stepped : world.step act = some next)
    (wellFormed : forall partition, partition ∈ world.buffer -> partition.WellFormed) :
    forall partition, partition ∈ next.buffer -> partition.WellFormed := by
  rcases world with ⟨shared, buffer, poll, holder, polled, log, clock⟩
  cases act with
  | fetched data =>
    cases stepped
    intro partition isPartition
    rcases mem_append.mp isPartition with isOld | isNew
    · exact wellFormed partition isOld
    · exact mem_singleton.mp isNew ▸ data.wellFormed
  | drain maxRecords paused =>
    cases poll with
    | ready =>
      cases stepped
      exact (drain_passes maxRecords _ buffer shared.consumed).wellFormed wellFormed nofun
    | _ => cases stepped
  | pollStart | pollOffsets | pollPositions | pollRecord | pollReady =>
    cases poll <;> cases stepped
    exact wellFormed
  | pollCommit due =>
    cases poll with
    | recorded ids consumed =>
      simp only [World.step, World.act] at stepped
      split_ifs at stepped <;> cases stepped <;> exact wellFormed
    | _ => cases stepped
  | lock kind =>
    cases holder <;> cases stepped
    exact wellFormed
  | advance | send | retry _ =>
    cases holder with
    | none => cases stepped
    | some commit => cases commit <;> cases stepped <;> exact wellFormed
  | prime | retain =>
    simp only [World.step, World.act] at stepped
    split_ifs at stepped <;> cases stepped
    exact wellFormed
  | pollEnd | release | publish | seek | reset => cases stepped; exact wellFormed

end Slots

/-! ## Whole runs -/

/-- The reads of a consumer are of the past. -/
structure World.Sound (world : World Data) : Prop where
  wellFormed : forall partition, partition ∈ world.buffer -> partition.WellFormed
  past : forall key, (world.slot key).Past

theorem World.Sound.step {world next : World Data} {act : Act Data} (sound : world.Sound)
    (stepped : world.step act = some next) : next.Sound := by
  refine ⟨World.step_wellFormed stepped sound.wellFormed, fun key => ?_⟩
  rcases World.step_slot sound.wellFormed stepped with step | ⟨disturb, _⟩
  · exact step.past (sound.past key)
  · exact disturb.past (sound.past key)

private def orders : TopicPartition := ⟨"orders", 0⟩

end CommitTasks

end Consumer
end Krabka
