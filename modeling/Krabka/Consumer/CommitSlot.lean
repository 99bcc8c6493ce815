import Mathlib.Data.List.Basic
import Mathlib.Data.List.Pairwise

namespace Krabka
namespace Consumer

open List Option

/-!
# The commits of one partition

What the tasks of a consumer can do with the offsets of one partition.  `poll`
reads the position and records it for the commit before a rejoin, and each
commit reads an offset and sends it while it holds the commit lock.

A read has the time at which the position was read, and the ownership id that the
task had seen before.  `Ordered` is about the reads since a given time: as long as
the ownership stays the same, they are sent in increasing order.
-/

/-- An offset that a task took from the positions. -/
structure Read where
  offset : Int
  ownershipId : Nat
  readAt : Nat
deriving DecidableEq, Repr

/-- An offset in an `OffsetCommit` request, with the position at that time. -/
structure Sent where
  read : Read
  position : Option Int
deriving DecidableEq, Repr

structure Slot where
  owner : Option Nat
  position : Option Int
  /-- The owner that the current `poll` saw, until it drains records. -/
  identity : Option Nat
  poll : Option Read
  /-- `poll` has recorded what it read. -/
  recorded : Bool
  /-- What the commit that holds the lock read. -/
  holder : Option Read
  /-- The commit is about to send. -/
  ready : Bool
  /-- The offset for the commit before a rejoin. -/
  polled : Option Read
  sent : List Sent
  clock : Nat

variable {slot : Slot} {entry : Read}

namespace Slot

def tick (slot : Slot) : Slot := { slot with clock := slot.clock + 1 }

def Reads (slot : Slot) (read : Option Read) : Prop :=
  forall entry, entry ∈ read -> slot.position = some entry.offset ∧ entry.readAt = slot.clock

/-- `merge_sent_positions` for one partition. -/
def merge (polled : Option Read) (sent : Read) : Read :=
  match polled with
  | none => sent
  | some known =>
    if known.ownershipId ≠ sent.ownershipId ∨ known.offset < sent.offset then sent else known

/-- The steps of the tasks. -/
inductive Step (slot : Slot) : Slot -> Prop where
  | idle : Step slot slot.tick
  /-- `poll` returns records. -/
  | forward {position : Option Int}
      (moves : forall before, slot.position = some before -> Exists fun behind =>
        position = some behind ∧ before ≤ behind)
      (unseen : slot.identity = none) (free : slot.poll = none) :
      Step slot { slot with position := position }.tick
  | startPoll :
      Step slot { slot with identity := slot.owner, poll := none, recorded := false }.tick
  | dropPoll : Step slot { slot with identity := none, poll := none, recorded := false }.tick
  | readPoll {read : Option Read} (reads : slot.Reads read)
      (tagged : forall entry, entry ∈ read -> slot.identity = some entry.ownershipId) :
      Step slot { slot with poll := read, recorded := false }.tick
  | record : Step slot { slot with polled := slot.poll, recorded := true }.tick
  /-- The interval commit takes the lock. -/
  | interval {holder : Option Read} (recorded : slot.recorded = true)
      (takes : forall entry, entry ∈ holder -> entry ∈ slot.poll) :
      Step slot { slot with
        holder := holder, ready := true, identity := none, poll := none, recorded := false }.tick
  | dropHolder : Step slot { slot with holder := none, ready := false }.tick
  | readHolder {read : Option Read} (reads : slot.Reads read) :
      Step slot { slot with holder := read, ready := false }.tick
  | narrow {holder : Option Read} (keeps : forall entry, entry ∈ holder -> entry ∈ slot.holder) :
      Step slot { slot with holder := holder, ready := false }.tick
  /-- A commit records its offset before it sends. -/
  | raise {held : Read} (isHeld : slot.holder = some held) :
      Step slot { slot with polled := some (merge slot.polled held), ready := true }.tick
  | pass (free : slot.holder = none) : Step slot { slot with ready := true }.tick
  /-- The commit before a rejoin. -/
  | join {holder : Option Read} (takes : forall entry, entry ∈ holder ->
      entry ∈ slot.polled ∧ slot.owner = some entry.ownershipId) :
      Step slot { slot with holder := holder, ready := true }.tick
  | send (ready : slot.ready = true) :
      Step slot { slot with
        sent := slot.sent ++ slot.holder.toList.map (Sent.mk · slot.position) }.tick
  | own {owner : Option Nat} : Step slot { slot with owner := owner }.tick

/-- A seek, a reset or a new ownership: the position and the recorded offset may
change. -/
inductive Disturb (slot : Slot) : Slot -> Prop where
  | disturb {owner : Option Nat} {position : Option Int} {polled : Option Read}
      (same : forall entry, entry ∈ polled -> Exists fun old => old ∈ slot.polled ∧
        entry.readAt = old.readAt) :
      Disturb slot { slot with owner := owner, position := position, polled := polled }.tick

section Merge

variable {polled : Option Read} {held : Read}

theorem merge_eq_or (polled : Option Read) (held : Read) :
    merge polled held = held ∨ (merge polled held ∈ polled ∧
      (merge polled held).ownershipId = held.ownershipId ∧
      held.offset ≤ (merge polled held).offset) := by
  cases polled with
  | none => exact .inl rfl
  | some known =>
    rw [merge]
    split_ifs with replaced
    · exact .inl rfl
    · rw [not_or, not_not, Int.not_lt] at replaced
      exact .inr ⟨rfl, replaced.1, replaced.2⟩

theorem merge_ownershipId : (merge polled held).ownershipId = held.ownershipId := by
  rcases merge_eq_or polled held with same | ⟨_, same, _⟩
  · rw [same]
  · exact same

theorem held_le_merge : held.offset ≤ (merge polled held).offset := by
  rcases merge_eq_or polled held with same | ⟨_, _, above⟩
  · exact Int.le_of_eq (congrArg Read.offset same.symm)
  · exact above

theorem le_merge {known : Read} (isKnown : known ∈ polled)
    (same : known.ownershipId = held.ownershipId) :
    known.offset ≤ (merge polled held).offset := by
  cases isKnown
  rw [merge]
  split_ifs with replaced
  · rcases replaced with different | lower
    · exact absurd same different
    · exact Int.le_of_lt lower
  · exact Int.le_refl _

end Merge

/-! ## Reads are of the past -/

/-- Everything read was read before now. -/
structure Past (slot : Slot) : Prop where
  poll : forall entry, entry ∈ slot.poll -> entry.readAt < slot.clock
  holder : forall entry, entry ∈ slot.holder -> entry.readAt < slot.clock
  polled : forall entry, entry ∈ slot.polled -> entry.readAt < slot.clock
  sent : forall entry, entry ∈ slot.sent -> entry.read.readAt < slot.clock
  tagged : forall entry, entry ∈ slot.poll -> slot.identity = some entry.ownershipId

theorem Past.later (past : slot.Past) : slot.tick.Past :=
  ⟨fun entry isEntry => Nat.lt_succ_of_lt (past.poll entry isEntry),
    fun entry isEntry => Nat.lt_succ_of_lt (past.holder entry isEntry),
    fun entry isEntry => Nat.lt_succ_of_lt (past.polled entry isEntry),
    fun entry isEntry => Nat.lt_succ_of_lt (past.sent entry isEntry), past.tagged⟩

theorem Reads.past {read : Option Read} (reads : slot.Reads read) (entry : Read)
    (isEntry : entry ∈ read) : entry.readAt < slot.clock + 1 := by
  rw [(reads entry isEntry).2]
  exact Nat.lt_succ_self _

theorem Step.past {next : Slot} (step : slot.Step next) (past : slot.Past) : next.Past := by
  have later := past.later
  cases step with
  | idle => exact later
  | forward | pass | own => exact { later with }
  | startPoll | dropPoll => exact { later with poll := nofun, tagged := nofun }
  | readPoll reads tagged => exact { later with poll := reads.past, tagged := tagged }
  | record => exact { later with polled := later.poll }
  | interval recorded takes =>
    exact { later with
      poll := nofun
      holder := fun entry isEntry => later.poll entry (takes entry isEntry)
      tagged := nofun }
  | dropHolder => exact { later with holder := nofun }
  | readHolder reads => exact { later with holder := reads.past }
  | narrow keeps =>
    exact { later with holder := fun entry isEntry => later.holder entry (keeps entry isEntry) }
  | @raise held isHeld =>
    refine { later with polled := fun entry isEntry => ?_ }
    rcases merge_eq_or slot.polled held with same | ⟨isOld, _⟩
    · rw [same] at isEntry
      exact later.holder entry (isHeld.trans isEntry)
    · exact later.polled entry (some.inj isEntry ▸ isOld)
  | join takes =>
    exact { later with
      holder := fun entry isEntry => later.polled entry (takes entry isEntry).1 }
  | send ready =>
    refine { later with sent := fun entry isEntry => ?_ }
    rcases mem_append.mp isEntry with isOld | isNew
    · exact later.sent entry isOld
    · rcases mem_map.mp isNew with ⟨held, isHeld, rfl⟩
      exact later.holder held (mem_toList.mp isHeld)

theorem Disturb.past {next : Slot} (disturb : slot.Disturb next) (past : slot.Past) :
    next.Past := by
  have later := past.later
  cases disturb with
  | disturb same =>
    refine { later with polled := fun entry isEntry => ?_ }
    rcases same entry isEntry with ⟨old, isOld, sameTime⟩
    exact sameTime ▸ later.polled old isOld

/-! ## Reads of one ownership -/

structure Ordered (id since : Nat) (slot : Slot) : Prop where
  past : slot.Past
  started : since ≤ slot.clock
  sorted : slot.sent.Pairwise (fun early late => since ≤ early.read.readAt ->
    since ≤ late.read.readAt -> early.read.offset ≤ late.read.offset)
  bounded : forall entry, entry ∈ slot.sent -> since ≤ entry.read.readAt ->
    Exists fun position => entry.position = some position ∧ entry.read.offset ≤ position
  sentBelow : forall entry, entry ∈ slot.sent -> since ≤ entry.read.readAt ->
    Exists fun position => slot.position = some position ∧ entry.read.offset ≤ position
  /-- The position does not move while `poll` commits. -/
  pollFresh : forall entry, entry ∈ slot.poll -> since ≤ entry.readAt ->
    slot.position = some entry.offset
  holderBelow : forall entry, entry ∈ slot.holder -> since ≤ entry.readAt ->
    Exists fun position => slot.position = some position ∧ entry.offset ≤ position
  holderAfter : forall entry, entry ∈ slot.holder -> since ≤ entry.readAt ->
    forall earlier, earlier ∈ slot.sent -> since ≤ earlier.read.readAt ->
      earlier.read.offset ≤ entry.offset
  polledBelow : forall entry, entry ∈ slot.polled -> since ≤ entry.readAt ->
    Exists fun position => slot.position = some position ∧ entry.offset ≤ position
  polledAfter : forall entry, entry ∈ slot.polled -> since ≤ entry.readAt ->
    entry.ownershipId = id -> forall earlier, earlier ∈ slot.sent ->
      since ≤ earlier.read.readAt -> earlier.read.offset ≤ entry.offset
  /-- What is about to be sent is recorded. -/
  readyBefore : slot.ready = true -> forall held, held ∈ slot.holder -> since ≤ held.readAt ->
    forall entry, entry ∈ slot.polled -> since ≤ entry.readAt -> entry.ownershipId = id ->
      held.offset ≤ entry.offset
  /-- A `poll` that saw another owner started before, and nothing moved since. -/
  still : forall seen, slot.identity = some seen -> seen ≠ id ->
    (forall entry, entry ∈ slot.holder -> since ≤ entry.readAt ->
      slot.position = some entry.offset) ∧
    (forall entry, entry ∈ slot.polled -> since ≤ entry.readAt ->
      slot.position = some entry.offset)
  recordedBelow : slot.recorded = true -> forall mine, mine ∈ slot.poll ->
    since ≤ mine.readAt -> mine.ownershipId = id -> forall entry, entry ∈ slot.polled ->
      entry.ownershipId = id -> mine.offset ≤ entry.offset
  /-- A commit that read an older position finds the record of `poll` in place. -/
  recordedKept : slot.recorded = true -> forall mine, mine ∈ slot.poll ->
    since ≤ mine.readAt -> mine.ownershipId = id -> forall held, held ∈ slot.holder ->
      held.ownershipId = id -> mine.offset ≤ held.offset ∨
        Exists fun entry => entry ∈ slot.polled ∧ entry.ownershipId = id

section Ordered

variable {id since : Nat} {slot next : Slot}

theorem Past.ordered (past : slot.Past) (id : Nat) : slot.Ordered id slot.clock := by
  have notSent {entry : Sent} (isEntry : entry ∈ slot.sent) :
      ¬ slot.clock ≤ entry.read.readAt := Nat.not_le.mpr (past.sent entry isEntry)
  have notPoll {entry : Read} (isEntry : entry ∈ slot.poll) :
      ¬ slot.clock ≤ entry.readAt := Nat.not_le.mpr (past.poll entry isEntry)
  have notHeld {entry : Read} (isEntry : entry ∈ slot.holder) :
      ¬ slot.clock ≤ entry.readAt := Nat.not_le.mpr (past.holder entry isEntry)
  have notPolled {entry : Read} (isEntry : entry ∈ slot.polled) :
      ¬ slot.clock ≤ entry.readAt := Nat.not_le.mpr (past.polled entry isEntry)
  refine ⟨past, Nat.le_refl _, ?_, ?_, ?_, ?_, ?_, ?_, ?_, ?_, ?_, ?_, ?_, ?_⟩
  · exact List.Pairwise.imp_of_mem (fun isEarly _ _ early => absurd early (notSent isEarly))
      (pairwise_of_forall fun _ _ => trivial)
  · exact fun entry isEntry recent => absurd recent (notSent isEntry)
  · exact fun entry isEntry recent => absurd recent (notSent isEntry)
  · exact fun entry isEntry recent => absurd recent (notPoll isEntry)
  · exact fun entry isEntry recent => absurd recent (notHeld isEntry)
  · exact fun entry isEntry recent => absurd recent (notHeld isEntry)
  · exact fun entry isEntry recent => absurd recent (notPolled isEntry)
  · exact fun entry isEntry recent => absurd recent (notPolled isEntry)
  · exact fun _ held isHeld recent => absurd recent (notHeld isHeld)
  · exact fun seen _ _ => ⟨fun entry isEntry recent => absurd recent (notHeld isEntry),
      fun entry isEntry recent => absurd recent (notPolled isEntry)⟩
  · exact fun _ mine isMine recent => absurd recent (notPoll isMine)
  · exact fun _ mine isMine recent => absurd recent (notPoll isMine)

theorem le_of_below {offset : Int}
    (below : Exists fun position => slot.position = some position ∧ offset ≤ position)
    (isPosition : slot.position = some entry.offset) : offset ≤ entry.offset := by
  rcases below with ⟨position, same, below⟩
  cases isPosition.symm.trans same
  exact below

section

variable (ordered : slot.Ordered id since)

include ordered

theorem Ordered.later : slot.tick.Ordered id since :=
  { ordered with past := ordered.past.later, started := Nat.le_succ_of_le ordered.started }

/-- The position now is after every request so far. -/
theorem Ordered.reads_after (isPosition : slot.position = some entry.offset) :
    forall earlier, earlier ∈ slot.sent -> since ≤ earlier.read.readAt ->
      earlier.read.offset ≤ entry.offset :=
  fun earlier isEarlier recent => le_of_below (ordered.sentBelow earlier isEarlier recent) isPosition

theorem Ordered.recorded_le (recorded : slot.recorded = true) {mine : Read}
    (isMine : mine ∈ slot.poll) (recent : since ≤ mine.readAt) (isEntry : entry ∈ slot.polled)
    (entryRecent : since ≤ entry.readAt) (isId : entry.ownershipId = id) :
    mine.offset ≤ entry.offset := by
  by_cases same : mine.ownershipId = id
  · exact ordered.recordedBelow recorded mine isMine recent same entry isEntry isId
  · have isPosition := (ordered.still _ (ordered.past.tagged mine isMine) same).2 entry isEntry
      entryRecent
    have fresh := ordered.pollFresh mine isMine recent
    rw [isPosition] at fresh
    exact Int.le_of_eq (some.inj fresh).symm

end

theorem below_forward {position : Option Int} {offset : Int}
    (moves : forall before, slot.position = some before -> Exists fun behind =>
      position = some behind ∧ before ≤ behind)
    (below : Exists fun before => slot.position = some before ∧ offset ≤ before) :
    Exists fun behind => position = some behind ∧ offset ≤ behind := by
  rcases below with ⟨before, isBefore, below⟩
  rcases moves before isBefore with ⟨behind, isBehind, further⟩
  exact ⟨behind, isBehind, Int.le_trans below further⟩

/-- A commit records the offset that it is about to send. -/
theorem Ordered.raise (ordered : slot.Ordered id since) {held : Read}
    (isHeld : slot.holder = some held)
    (past : ({ slot with polled := some (merge slot.polled held), ready := true } : Slot).tick.Past) :
    ({ slot with polled := some (merge slot.polled held), ready := true } : Slot).tick.Ordered id
      since := by
  -- What is recorded now is what was held, or what was recorded before.
  have either {holds : Read -> Prop} (ofHeld : forall entry, entry ∈ slot.holder -> holds entry)
      (ofPolled : forall entry, entry ∈ slot.polled -> holds entry) (entry : Read)
      (isEntry : some (merge slot.polled held) = some entry) : holds entry := by
    cases isEntry
    rcases merge_eq_or slot.polled held with same | ⟨isOld, _⟩
    · rw [same]
      exact ofHeld held isHeld
    · exact ofPolled _ isOld
  refine { ordered.later with
    past := past
    polledBelow := either ordered.holderBelow ordered.polledBelow
    polledAfter := either (fun entry isEntry recent _ => ordered.holderAfter entry isEntry recent)
      ordered.polledAfter
    readyBefore := fun _ other isOther _ entry isEntry _ _ => ?_
    still := fun seen isSeen different =>
      ⟨(ordered.still seen isSeen different).1, either (ordered.still seen isSeen different).1
        (ordered.still seen isSeen different).2⟩
    recordedBelow := fun recorded mine isMine recent isId entry isEntry entryId => ?_
    recordedKept := fun _ _ _ _ _ other isOther otherId => .inr ⟨_, rfl, ?_⟩ }
  · rw [<- some.inj isEntry, <- some.inj (isHeld.symm.trans isOther)]
    exact held_le_merge
  · rw [<- some.inj isEntry] at entryId ⊢
    rw [merge_ownershipId] at entryId
    rcases ordered.recordedKept recorded mine isMine recent isId held isHeld entryId with
      below | ⟨known, isKnown, knownId⟩
    · exact Int.le_trans below held_le_merge
    · exact Int.le_trans (ordered.recordedBelow recorded mine isMine recent isId known isKnown knownId)
        (le_merge isKnown (knownId.trans entryId.symm))
  · rw [merge_ownershipId, some.inj (isHeld.symm.trans isOther)]
    exact otherId

theorem Ordered.send (ordered : slot.Ordered id since) (ready : slot.ready = true)
    (past : ({ slot with
      sent := slot.sent ++ slot.holder.toList.map (Sent.mk · slot.position) } : Slot).tick.Past) :
    ({ slot with
      sent := slot.sent ++ slot.holder.toList.map (Sent.mk · slot.position) } : Slot).tick.Ordered id
        since := by
  -- A request is an earlier one or the one sent now.
  have either {holds : Sent -> Prop} (ofOld : forall entry, entry ∈ slot.sent -> holds entry)
      (ofHeld : forall held, held ∈ slot.holder -> holds ⟨held, slot.position⟩) (entry : Sent)
      (isEntry : entry ∈ slot.sent ++ slot.holder.toList.map (Sent.mk · slot.position)) :
      holds entry := by
    rcases mem_append.mp isEntry with isOld | isNew
    · exact ofOld entry isOld
    · rcases mem_map.mp isNew with ⟨held, isHeld, rfl⟩
      exact ofHeld held (mem_toList.mp isHeld)
  refine { ordered.later with
    past := past
    sorted := ?_
    bounded := either ordered.bounded ordered.holderBelow
    sentBelow := either ordered.sentBelow ordered.holderBelow
    holderAfter := fun entry isEntry recent => either (ordered.holderAfter entry isEntry recent)
      fun held isHeld _ => ?_
    polledAfter := fun entry isEntry recent isId =>
      either (ordered.polledAfter entry isEntry recent isId) fun held isHeld heldRecent =>
        ordered.readyBefore ready held isHeld heldRecent entry isEntry recent isId }
  · refine pairwise_append.mpr ⟨ordered.sorted, ?_, ?_⟩
    · cases slot.holder with
      | none => exact .nil
      | some held => exact pairwise_singleton _ _
    · intro early isEarly late isLate earlyRecent lateRecent
      rcases mem_map.mp isLate with ⟨held, isHeld, rfl⟩
      exact ordered.holderAfter held (mem_toList.mp isHeld) lateRecent early isEarly earlyRecent
  · exact Int.le_of_eq (congrArg Read.offset (some.inj (isHeld.symm.trans isEntry)))

theorem Step.ordered (step : slot.Step next) (owned : slot.owner = some id)
    (ordered : slot.Ordered id since) : next.Ordered id since := by
  have past := step.past ordered.past
  have later := ordered.later
  cases step with
  | idle | own => exact { later with past := past }
  | forward moves unseen free =>
    have notPoll {entry : Read} (isEntry : entry ∈ slot.poll) : False := by
      rw [free] at isEntry
      cases isEntry
    exact { later with
      past := past
      sentBelow := fun entry isEntry recent =>
        below_forward moves (ordered.sentBelow entry isEntry recent)
      pollFresh := fun entry isEntry => (notPoll isEntry).elim
      holderBelow := fun entry isEntry recent =>
        below_forward moves (ordered.holderBelow entry isEntry recent)
      polledBelow := fun entry isEntry recent =>
        below_forward moves (ordered.polledBelow entry isEntry recent)
      still := fun seen isSeen => nomatch unseen.symm.trans isSeen }
  | startPoll =>
    exact { later with
      past := past
      pollFresh := nofun
      still := fun seen isSeen other => absurd (some.inj (isSeen.symm.trans owned)) other
      recordedBelow := nofun
      recordedKept := nofun }
  | dropPoll =>
    exact { later with
      past := past
      pollFresh := nofun
      still := nofun
      recordedBelow := nofun
      recordedKept := nofun }
  | readPoll reads tagged =>
    exact { later with
      past := past
      pollFresh := fun entry isEntry _ => (reads entry isEntry).1
      recordedBelow := nofun
      recordedKept := nofun }
  | record =>
    exact { later with
      past := past
      polledBelow := fun entry isEntry recent =>
        ⟨_, ordered.pollFresh entry isEntry recent, Int.le_refl _⟩
      polledAfter := fun entry isEntry recent _ =>
        ordered.reads_after (ordered.pollFresh entry isEntry recent)
      readyBefore := fun _ held isHeld recent entry isEntry entryRecent _ =>
        le_of_below (ordered.holderBelow held isHeld recent)
          (ordered.pollFresh entry isEntry entryRecent)
      still := fun seen isSeen other =>
        ⟨(ordered.still seen isSeen other).1, ordered.pollFresh⟩
      recordedBelow := fun _ mine isMine _ _ entry isEntry _ =>
        Int.le_of_eq (congrArg Read.offset (some.inj (isMine.symm.trans isEntry)))
      recordedKept := fun _ mine isMine _ isId _ _ _ => .inr ⟨mine, isMine, isId⟩ }
  | interval recorded takes =>
    exact { later with
      past := past
      pollFresh := nofun
      holderBelow := fun entry isEntry recent =>
        ⟨_, ordered.pollFresh entry (takes entry isEntry) recent, Int.le_refl _⟩
      holderAfter := fun entry isEntry recent =>
        ordered.reads_after (ordered.pollFresh entry (takes entry isEntry) recent)
      readyBefore := fun _ held isHeld recent entry isEntry entryRecent isId =>
        ordered.recorded_le recorded (takes held isHeld) recent isEntry entryRecent isId
      still := nofun
      recordedBelow := nofun
      recordedKept := nofun }
  | dropHolder =>
    exact { later with
      past := past
      holderBelow := nofun
      holderAfter := nofun
      readyBefore := nofun
      still := fun seen isSeen other => ⟨nofun, (ordered.still seen isSeen other).2⟩
      recordedKept := fun _ _ _ _ _ _ isHeld => nomatch isHeld }
  | readHolder reads =>
    refine { later with
      past := past
      holderBelow := fun entry isEntry _ => ⟨_, (reads entry isEntry).1, Int.le_refl _⟩
      holderAfter := fun entry isEntry _ => ordered.reads_after (reads entry isEntry).1
      readyBefore := nofun
      still := fun seen isSeen other =>
        ⟨fun entry isEntry _ => (reads entry isEntry).1, (ordered.still seen isSeen other).2⟩
      recordedKept := fun recorded mine isMine recent _ held isHeld _ => .inl ?_ }
    have fresh := ordered.pollFresh mine isMine recent
    rw [(reads held isHeld).1] at fresh
    exact Int.le_of_eq (some.inj fresh).symm
  | narrow keeps =>
    exact { later with
      past := past
      holderBelow := fun entry isEntry => ordered.holderBelow entry (keeps entry isEntry)
      holderAfter := fun entry isEntry => ordered.holderAfter entry (keeps entry isEntry)
      readyBefore := nofun
      still := fun seen isSeen other =>
        ⟨fun entry isEntry => (ordered.still seen isSeen other).1 entry (keeps entry isEntry),
          (ordered.still seen isSeen other).2⟩
      recordedKept := fun recorded mine isMine recent isId held isHeld =>
        ordered.recordedKept recorded mine isMine recent isId held (keeps held isHeld) }
  | raise isHeld => exact ordered.raise isHeld past
  | pass free =>
    refine { later with
      past := past
      readyBefore := fun _ held isHeld => ?_ }
    rw [show Slot.holder _ = slot.holder from rfl, free] at isHeld
    cases isHeld
  | join takes =>
    exact { later with
      past := past
      holderBelow := fun entry isEntry => ordered.polledBelow entry (takes entry isEntry).1
      holderAfter := fun entry isEntry recent => ordered.polledAfter entry (takes entry isEntry).1
        recent (some.inj ((takes entry isEntry).2.symm.trans owned))
      readyBefore := fun _ held isHeld _ entry isEntry _ _ => Int.le_of_eq (congrArg Read.offset
        (some.inj ((takes held isHeld).1.symm.trans isEntry)))
      still := fun seen isSeen other =>
        ⟨fun entry isEntry => (ordered.still seen isSeen other).2 entry (takes entry isEntry).1,
          (ordered.still seen isSeen other).2⟩
      recordedKept := fun _ _ _ _ _ held isHeld isId => .inr ⟨held, (takes held isHeld).1, isId⟩ }
  | send ready => exact ordered.send ready past

end Ordered

end Slot

end Consumer
end Krabka
