import Krabka.Producer.History

namespace Krabka
namespace Producer

open Collections List Option Multiset

/-!
# Every record is resolved once

What custody says about one accepted record and about the in-flight counter.
A reader of the accumulators, such as `schedule` or `flush`, looks at one of
them at a time.  `Clear since remaining` says what it knows on the way: the
accumulators it is done with hold no record accepted before `since`.
-/

/-- The records that were acknowledged or failed, in that order of time. -/
def resolvedHandles (log : List Event) : List Nat := (resolutions log).map Prod.fst

theorem resolvedHandles_append (left right : List Event) :
    resolvedHandles (left ++ right) = resolvedHandles left ++ resolvedHandles right := by
  simp [resolvedHandles]

/-- Each resolution is an acknowledgement or a failure. -/
theorem resolvedHandles_perm (log : List Event) :
    (resolvedHandles log).Perm (ackedHandles log ++ failedHandles log) := by
  unfold resolvedHandles ackedHandles failedHandles
  induction resolutions log with
  | nil => exact List.Perm.nil
  | cons resolution rest ih =>
    obtain ⟨record, outcome⟩ := resolution
    cases outcome with
    | acked metadata => exact List.Perm.cons record ih
    | failed error =>
      apply (List.Perm.cons record ih).trans
      exact perm_middle.symm

namespace World

def Settled (world : World) (since : Nat) : Prop :=
  forall record, record < since -> record ∈ resolvedHandles world.log

/-- The accumulators outside `remaining` hold no record accepted before
`since`. -/
def Clear (world : World) (since : Nat) (remaining : List TopicPartition) : Prop :=
  forall key, key ∉ remaining -> forall record, record ∈ world.queue key -> since ≤ record

section Readers

variable {world next : World} {since : Nat} {remaining : List TopicPartition}

/-- The records that wait in accumulators without an entry are none. -/
theorem clear_keys (world : World) (since : Nat) (choice : Choice) :
    world.Clear since (world.keys choice) := by
  intro key absent record queued
  have noAccumulator : world.accumulators.get? key = none := by
    rw [keys, (arrange_perm choice id world.accumulators.keys).mem_iff, SortedMap.mem_keys_iff,
      SortedMap.contains, Bool.not_eq_true, isSome_eq_false_iff, isNone_iff_eq_none]
      at absent
    exact absent
  rw [queue, noAccumulator] at queued
  cases queued

/-- The reader is done with `key`. -/
theorem Clear.drop {key : TopicPartition} (clear : world.Clear since (key :: remaining))
    (none : forall record, record ∈ world.queue key -> since ≤ record) :
    world.Clear since remaining := by
  intro other absent
  by_cases same : other = key
  · exact same ▸ none
  · apply clear other
    intro member
    rcases mem_cons.mp member with here | later
    · exact same here
    · exact absent later

/-- A step keeps what a reader knows, unless it gives a batch back to an
accumulator that the reader is done with. -/
theorem Clear.step {returned : Option TopicPartition} (clear : world.Clear since remaining)
    (begun : since ≤ (acceptances world.log).length) (refined : RefinedBy returned world next)
    (ahead : forall key, returned = some key -> key ∈ remaining) :
    next.Clear since remaining := by
  intro key absent record queued
  rcases refined.move.mem_queue queued with before | isNew | back
  · exact clear key absent record before
  · apply begun.trans
    simpa [ledger] using isNew
  · exact absurd (ahead key back) absent

theorem Invariant.drained_eq_zero (invariant : world.Invariant) (idle : world.inFlight = 0) :
    world.drained = 0 := by
  have counted : world.inFlight = world.drained.card + world.finishing := invariant.sound.counted
  apply card_eq_zero.mp
  omega

/-- An idle counter and clear accumulators leave no record behind. -/
theorem settled_of_clear (invariant : world.Invariant) (clear : world.Clear since [])
    (begun : since ≤ (acceptances world.log).length) (noneTaken : world.phase.taken = [])
    (idle : world.inFlight = 0) : world.Settled since := by
  have noneDrained := invariant.drained_eq_zero idle
  intro record early
  have accepted : record < world.ledger.owner.length := by
    simpa [ledger] using early.trans_le begun
  rcases invariant.sound.resolved_or_held accepted with resolved | queued | taken | drained
  · exact (resolvedHandles_perm world.log).mem_iff.mpr resolved
  · obtain ⟨key, member⟩ := queued
    exact absurd (clear key not_mem_nil record member) (Nat.not_le.mpr early)
  · exact absurd (noneTaken ▸ taken : record ∈ ([] : List Nat)) not_mem_nil
  · obtain ⟨parcel, member, _⟩ := drained
    exact absurd (noneDrained ▸ member : parcel ∈ (0 : Multiset Parcel)) (notMem_zero parcel)

theorem Settled.step {config : Config} {act : Act} (settled : world.Settled since)
    (stepped : world.step config act = some next) : next.Settled since := by
  obtain ⟨events, log, _⟩ := step_adds stepped
  intro record early
  rw [log, resolvedHandles_append]
  exact mem_append_left _ (settled record early)

end Readers

/-! ## `schedule` -/

end World

/-- Whether `schedule` is at work. -/
def Phase.scans : Phase -> Bool
  | .scan _ _ _ => true
  | _ => false

namespace World

variable {config : Config} {world next : World} {choice : Choice}

/-- `schedule` starts only at the top of the loop. -/
theorem execPhase_scans (stepped : world.execPhase config choice = some next)
    (scans : next.phase.scans = true) : world.phase = .schedule ∨ world.phase.scans = true := by
  unfold execPhase at stepped
  cases atPhase : world.phase <;>
    simp only [atPhase, some.injEq, reduceCtorEq] at stepped <;> subst stepped
  case schedule => exact .inl rfl
  case scan => exact .inr rfl
  all_goals
    exfalso
    revert scans
    simp only [drainStart, sweepStart, sweepKey, retrySlotsStart, retrySlotStep, takeExpiredKey,
      failUnsentStep, collectRetries, expireStart, expireStep, barRetryStep, routeStep,
      checkEpochStep, drainKeyStep, popReadyStep, barPoppedStep, allocateStep, snapshotStateStep,
      snapshotIdentityStep, addBuilt, recordStep, recordLive, recordFenced, recordRetry, applyCycle,
      settleStep, requeueStep]
    repeat' split
    all_goals exact Bool.noConfusion

theorem execCall_phase (call : Call) : (world.execCall choice call).phase = world.phase := by
  cases call with
  | fenceKeys keys => cases keys <;> rfl
  | _ => rfl

/-- What `schedule` knows at its place: when it may report that the producer is
settled, the accumulators it looked at are clear. -/
def Scanning (world : World) : Prop :=
  forall schedule began keys, world.phase = .scan schedule began keys ->
    world.calls = [] ∧ (schedule.settled = true ->
      began ≤ (acceptances world.log).length ∧ world.inFlight = 0 ∧ world.Clear began keys)

theorem includeDeadline_settled (schedule : Schedule) (deadline now : Nat) :
    (includeDeadline schedule deadline now).settled = schedule.settled := by
  unfold includeDeadline
  split_ifs <;> rfl

theorem scheduleRetry_settled (schedule : Schedule) (batch : PreparedBatch) :
    (world.scheduleRetry config schedule batch).settled = false := by
  unfold scheduleRetry
  split_ifs
  · rfl
  · cases batch.backoffUntil <;> simp only [includeDeadline_settled]
  · rw [includeDeadline_settled]

/-- `schedule` starts settled when nothing is parked or in flight. -/
theorem scheduleStart_settled {slots : List (TopicPartition × PreparedBatch)} {first : Schedule}
    (settled : (slots.foldl (fun schedule slot => world.scheduleRetry config schedule slot.2)
      first).settled = true) : first.settled = true := by
  induction slots generalizing first with
  | nil => exact settled
  | cons slot rest ih =>
    have started := ih settled
    rw [scheduleRetry_settled] at started
    simp at started

/-- `schedule` stays settled only at an accumulator without records. -/
theorem scheduleKey_settled {schedule : Schedule} {key : TopicPartition} {accumulator : Accumulator}
    (settled : (world.scheduleKey config schedule key accumulator).settled = true) :
    schedule.settled = true ∧ accumulator.queued = [] := by
  unfold scheduleKey at settled
  by_cases isEmpty : (!accumulator.hasCurrent && accumulator.ready.isEmpty) = true
  · rw [if_pos isEmpty] at settled
    simp only [Bool.and_eq_true, Bool.not_eq_true', List.isEmpty_iff] at isEmpty
    exact ⟨settled, Accumulator.queued_eq_nil isEmpty.1 isEmpty.2⟩
  · exfalso
    revert settled
    cases accumulator.ready.head?.or accumulator.current <;> cases accumulator.current <;>
      dsimp only <;> split_ifs <;> simp [includeDeadline_settled]

/-- One step of `schedule` keeps what it knows. -/
theorem Scanning.senderStep (scanning : world.Scanning)
    (stepped : world.senderStep config choice = some next) : next.Scanning := by
  intro schedule began keys atNext
  unfold World.senderStep at stepped
  cases pending : world.calls with
  | cons call rest =>
    rw [pending] at stepped
    rw [← some.inj stepped, execCall_phase] at atNext
    have noCalls := (scanning schedule began keys atNext).1
    exact absurd (pending.symm.trans noCalls) (by simp)
  | nil =>
    rw [pending] at stepped
    rcases execPhase_scans stepped (by rw [atNext]; rfl) with atTop | scans
    · rw [execPhase, atTop, some.injEq] at stepped
      subst stepped
      cases atNext
      refine ⟨pending, fun settled => ⟨Nat.le_refl _, ?_, clear_keys world _ choice⟩⟩
      have idle := scheduleStart_settled settled
      rw [Bool.and_eq_true, beq_iff_eq] at idle
      exact idle.2
    · cases atPhase : world.phase with
      | scan before beganBefore keysBefore =>
        rw [execPhase, atPhase, some.injEq] at stepped
        subst stepped
        have known := scanning before beganBefore keysBefore atPhase
        cases keysBefore with
        | nil =>
          rw [scanStep, afterSchedule] at atNext
          split_ifs at atNext <;> cases atNext
        | cons key rest =>
          rw [scanStep] at atNext ⊢
          cases found : world.accumulators.get? key with
          | none =>
            rw [found] at atNext
            cases atNext
            refine ⟨pending, fun settled => ?_⟩
            obtain ⟨begun, idle, clear⟩ := known.2 settled
            refine ⟨begun, idle, clear.drop ?_⟩
            intro record queued
            rw [queue, found] at queued
            cases queued
          | some accumulator =>
            rw [found] at atNext
            cases atNext
            refine ⟨pending, fun settled => ?_⟩
            obtain ⟨settledBefore, noneQueued⟩ := scheduleKey_settled settled
            obtain ⟨begun, idle, clear⟩ := known.2 settledBefore
            refine ⟨begun, idle, clear.drop ?_⟩
            intro record queued
            rw [queue_of_get? found, noneQueued] at queued
            cases queued
      | _ =>
        rw [atPhase] at scans
        simp [Phase.scans] at scans

theorem Scanning.step {act : Act} (invariant : world.Invariant) (scanning : world.Scanning)
    (stepped : world.step config act = some next) : next.Scanning := by
  rcases act.sender_or_outside with ⟨choice, rfl⟩ | notSender
  · exact scanning.senderStep stepped
  · have refined := invariant.refined stepped
    have outside := step_outside notSender stepped
    have back : world.returned act = none := by
      cases act with
      | sender choice => exact absurd rfl (notSender choice)
      | _ => rfl
    intro schedule began keys atNext
    rcases outside.phase with same | ⟨_, woken | ⟨results, woken⟩⟩
    · obtain ⟨noCalls, known⟩ := scanning schedule began keys (same ▸ atNext)
      refine ⟨outside.calls.trans noCalls, fun settled => ?_⟩
      obtain ⟨begun, idle, clear⟩ := known settled
      have grown : (acceptances world.log).length ≤ (acceptances next.log).length := by
        simpa [ledger] using refined.move.length_le
      refine ⟨begun.trans grown, outside.inFlight.trans idle, clear.step begun refined ?_⟩
      intro key returned
      exact absurd (back.symm.trans returned) (by simp)
    · exact absurd (woken.symm.trans atNext) (by simp)
    · exact absurd (woken.symm.trans atNext) (by simp)

/-! ## Runs -/

structure Accounted (world : World) : Prop where
  /-- The counter is the number of batches that are on the wire, in a retry slot
  or held by the current step. -/
  counted : world.inFlight =
    world.requests.length + world.retry.entries.length + (world.inHand.card + world.finishing)
  nonneg : 0 ≤ world.inFlight
  once : (resolvedHandles world.log).Nodup
  kept : forall record, record < (acceptances world.log).length <->
    record ∈ resolvedHandles world.log ∨ world.ledger.Held record
  apart : forall record, record ∈ resolvedHandles world.log -> ¬ world.ledger.Held record
  /-- When `schedule` reports settled, what was accepted before it is resolved. -/
  settled : forall schedule began, world.phase = .scan schedule began [] ->
    schedule.settled = true -> world.Settled began

theorem Invariant.accounted (invariant : world.Invariant) (scanning : world.Scanning) :
    world.Accounted := by
  have sound := invariant.sound
  have mem_resolved : forall record, record ∈ resolvedHandles world.log <->
      record ∈ world.ledger.acked ++ world.ledger.failed :=
    fun record => (resolvedHandles_perm world.log).mem_iff
  have length : world.ledger.owner.length = (acceptances world.log).length := by
    simp [ledger]
  have counted : world.inFlight =
      world.requests.length + world.retry.entries.length + (world.inHand.card + world.finishing) := by
    have exact_ : world.inFlight = world.drained.card + world.finishing := sound.counted
    rw [exact_, drained, card_add, card_add]
    simp only [parked, onWire, parcels, coe_card, length_map]
    omega
  refine ⟨counted, ?_, ?_, ?_, ?_, ?_⟩
  · rw [counted]
    exact Int.natCast_nonneg _
  · exact (resolvedHandles_perm world.log).nodup_iff.mpr sound.resolved_nodup
  · intro record
    rw [mem_resolved, ← length]
    constructor
    · exact sound.resolved_or_held
    · rintro (resolved | held)
      · exact sound.lt_of_resolved resolved
      · rcases sound.pending_of_held held with ⟨key, records, holds, member⟩
        exact (List.getElem?_eq_some_iff.mp (sound.owner_of_pending holds member)).1
  · intro record resolved
    exact sound.not_held_of_resolved ((mem_resolved record).mp resolved)
  · intro schedule began atPhase settled
    rcases (scanning schedule began [] atPhase).2 settled with ⟨begun, idle, clear⟩
    exact settled_of_clear invariant clear begun (by rw [atPhase]; rfl) idle

theorem run_scanning {acts : List Act} (ran : (start config).run config acts = some world) :
    world.Scanning := by
  apply run_induction Scanning (fun _ _ _ invariant scanning => scanning.step invariant) ?_ ran
  intro schedule began keys atPhase
  cases atPhase

/-- In every run each accepted record is resolved exactly once or still held, and
the in-flight counter is exact. -/
theorem run_accounted {acts : List Act} (ran : (start config).run config acts = some world) :
    world.Accounted :=
  (run_custody ran).accounted (run_scanning ran)

/-- Every run of the producer is a run of moves of the ledger. -/
theorem run_refines_ledger {acts : List Act} (ran : (start config).run config acts = some world) :
    Relation.ReflTransGen (fun before after => Exists fun returned =>
      Ledger.Move returned before after) (start config).ledger world.ledger := by
  refine run_induction (Relation.ReflTransGen _ (start config).ledger ∘ ledger)
    (fun _ _ _ invariant moves stepped => ?_) .refl ran
  exact Relation.ReflTransGen.tail moves ⟨_, (invariant.refined stepped).move⟩

end World

/-- An idempotent producer that lets no record linger. -/
def Config.idempotent : Config :=
  ⟨.all, 0, 100, 3, 5, 100, ⟨7, 0⟩, none, by simp, by simp, by simp⟩

namespace Sample

def orders : TopicPartition := ⟨"orders", 0⟩

def payload : Payload := ⟨0, none, none, []⟩

def cuts (count : Nat) : List Act := List.replicate count (.sender ⟨[], none, true⟩)

/-- The sender drains two records of `orders` into one batch, which the broker
appends at offset 10. -/
def delivery : List Act :=
  [.openAccumulator orders, .append orders payload, .append orders payload] ++ cuts 25 ++
    [.poll 0 true 0, .answer 0 (some ⟨0, 10, -1, 0⟩) (-1) 0, .complete [0]] ++ cuts 8

end Sample

namespace World

open Sample

theorem run_accounted_delivery :
    Exists fun world => (start .idempotent).run .idempotent delivery = some world ∧
      resolvedHandles world.log = [0, 1] ∧ world.Accounted :=
  ⟨_, rfl, rfl, @run_accounted .idempotent _ delivery rfl⟩

theorem run_refines_ledger_delivery :
    Exists fun world => (start .idempotent).run .idempotent delivery = some world ∧
      world.ledger.acked = [0, 1] ∧ Relation.ReflTransGen (fun before after =>
        Exists fun returned => Ledger.Move returned before after) (start .idempotent).ledger
          world.ledger :=
  ⟨_, rfl, rfl, @run_refines_ledger .idempotent _ delivery rfl⟩

/-- `enqueue` may reach an accumulator that `schedule` already looked at: then
`schedule` reports settled while an accepted record is not resolved. -/
theorem schedule_settles_before_append :
    Exists fun world => (start .idempotent).run .idempotent
        ([.openAccumulator orders] ++ cuts 2 ++ [.append orders payload]) = some world ∧
      (Exists fun schedule => Exists fun began =>
        world.phase = .scan schedule began [] ∧ schedule.settled = true) ∧
      0 < (acceptances world.log).length ∧ 0 ∉ resolvedHandles world.log :=
  ⟨_, rfl, ⟨_, _, rfl, rfl⟩, by decide, by decide⟩

end World

end Producer
end Krabka
