import Krabka.Producer.Refinement.Run

namespace Krabka
namespace Producer

open Collections List

/-!
# What each party adds to the history

The history of a run only grows.  The events that the statements about runs
look at come alone, and only from one kind of act: `Adds` lists them with what
the world was like at that moment.  The rest of the events are resolutions and
the stamps of the sender.
-/

/-- The events that a step adds alone. -/
def Event.marked : Event -> Bool
  | .sent _ _ _ => true
  | .appended _ _ _ => true
  | .flushed _ => true
  | .endTxn _ _ => true
  | .ended _ _ => true
  | .accepted _ => true
  | .aborting _ => true
  | _ => false

/-- The act of a party other than the sender and the client calls in progress. -/
def Act.aside : Act -> Bool
  | .sender _ => false
  | .task _ _ => false
  | _ => true

theorem Act.sender_or_outside (act : Act) :
    (Exists fun choice => act = .sender choice) ∨ forall choice, act ≠ .sender choice := by
  cases act with
  | sender choice => exact .inl ⟨choice, rfl⟩
  | _ => exact .inr nofun

theorem Act.task_or_not (act : Act) : (Exists fun index => Exists fun choice =>
    act = .task index choice) ∨ forall index choice, act ≠ .task index choice := by
  cases act with
  | task index choice => exact .inl ⟨index, choice, rfl⟩
  | _ => exact .inr nofun

def partitionOf (log : List Event) (record : Nat) : Option TopicPartition :=
  (acceptances log)[record]?.map Acceptance.key

theorem partitionOf_append {log : List Event} {record : Nat} (events : List Event)
    (accepted : record < (acceptances log).length) :
    partitionOf (log ++ events) record = partitionOf log record := by
  rw [partitionOf, partitionOf, acceptances_append, getElem?_append_left accepted]

theorem partitionOf_isSome {log : List Event} {record : Nat} :
    (Exists fun key => partitionOf log record = some key) <->
      record < (acceptances log).length := by
  rw [← Option.isSome_iff_exists, partitionOf, Option.isSome_map]
  simp

variable {events : List Event}

theorem acceptances_of_unmarked (unmarked : forall event, event ∈ events -> event.marked = false) :
    acceptances events = [] := by
  apply filterMap_eq_nil_iff.mpr
  intro event member
  have plain := unmarked event member
  cases event with
  | accepted acceptance => simp [Event.marked] at plain
  | _ => rfl

variable {claim : List Event -> Event -> Prop} {config : Config} {world next : World}

namespace World

theorem owner_eq_partitionOf (world : World) (record : Nat) :
    world.ledger.owner[record]? = partitionOf world.log record :=
  getElem?_map

/-- What the sender leaves to the client calls, and what it adds to the
history. -/
structure Frame (world next : World) : Prop where
  tasks : next.tasks = world.tasks
  transactions : next.transactions = world.transactions
  txnState : next.txnState = world.txnState
  txnIdentity : next.txnIdentity = world.txnIdentity
  recoveryRequired : next.recoveryRequired = world.recoveryRequired
  recoveryGeneration : next.recoveryGeneration = world.recoveryGeneration
  /-- No accumulator is removed. -/
  opened : forall key, world.accumulators.contains key = true ->
    next.accumulators.contains key = true
  log : Exists fun events => next.log = world.log ++ events ∧
    forall event, event ∈ events -> event.marked = false

namespace Frame

variable {world other next : World}

theorem of_eq (tasks : next.tasks = world.tasks) (transactions : next.transactions = world.transactions)
    (txnState : next.txnState = world.txnState) (txnIdentity : next.txnIdentity = world.txnIdentity)
    (recoveryRequired : next.recoveryRequired = world.recoveryRequired)
    (recoveryGeneration : next.recoveryGeneration = world.recoveryGeneration)
    (accumulators : next.accumulators = world.accumulators) (log : next.log = world.log) :
    Frame world next := by
  refine ⟨tasks, transactions, txnState, txnIdentity, recoveryRequired, recoveryGeneration, ?_, [],
    ?_, ?_⟩
  · rw [accumulators]
    exact fun _ => id
  · rw [log, append_nil]
  · simp

theorem refl (world : World) : Frame world world := .of_eq rfl rfl rfl rfl rfl rfl rfl rfl

theorem goto {calls : List Call} {phase : Phase} (frame : Frame world other) :
    Frame world (other.goto calls phase) :=
  { frame with }

theorem setAccumulator {key : TopicPartition} {accumulator : Accumulator}
    (frame : Frame world other) : Frame world (other.setAccumulator key accumulator) := by
  refine { frame with opened := ?_ }
  intro known opened
  exact (SortedMap.contains_insert _ _ _ _).mpr (.inr (frame.opened known opened))

theorem emit (plain : forall event, event ∈ events -> event.marked = false) :
    Frame world (world.emit events) :=
  ⟨rfl, rfl, rfl, rfl, rfl, rfl, fun _ => id, events, rfl, plain⟩

theorem resolve (records : List PendingRecord) (outcome : PendingRecord -> Outcome) :
    Frame world (world.resolve records outcome) := by
  apply emit
  intro event member
  obtain ⟨record, _, rfl⟩ := mem_map.mp member
  rfl

end Frame

section Sender

variable {config : Config} {world : World} {choice : Choice}

theorem failBarred_frame (batches : List InProgressBatch) :
    Frame world (world.failBarred batches) := by
  apply Frame.emit
  intro event member
  obtain ⟨batch, _, resolved⟩ := mem_flatMap.mp member
  cases barred : world.undrainedBarrier batch.transactionGeneration with
  | none => simp [barred] at resolved
  | some barrier =>
    simp only [barred, mem_map] at resolved
    obtain ⟨record, _, rfl⟩ := resolved
    rfl

theorem execPhase_frame (stepped : world.execPhase config choice = some next) :
    Frame world next := by
  have counted : Frame world { world with inFlight := world.inFlight + 1 } :=
    .of_eq rfl rfl rfl rfl rfl rfl rfl rfl
  unfold execPhase at stepped
  cases atPhase : world.phase <;>
    simp only [atPhase, Option.some.injEq, reduceCtorEq] at stepped <;> subst stepped
  all_goals
    simp only [scheduleStart, scanStep, afterSchedule, drainStart, sweepStart, sweepKey,
      retrySlotsStart, retrySlotStep, takeExpiredKey, failUnsentStep, collectRetries, expireStart,
      bumpIdempotentEpoch, expireStep, repair, barRetryStep, routeStep, checkEpochStep,
      drainKeyStep, launch, popReadyStep, barPoppedStep, allocateStep, snapshotStateStep,
      snapshotIdentityStep, addBuilt, recordStep, applyCycle, recordFenced, recordLive, recordRetry,
      recordAck, recordTransactionFatalError, settleStep, splitSequence, requeueStep, restart,
      failBatch, foldl_park]
    repeat' split
    all_goals first
      | exact .of_eq rfl rfl rfl rfl rfl rfl rfl rfl
      | exact (Frame.refl world).setAccumulator.goto
      | exact counted.setAccumulator.goto
      | exact (failBarred_frame _).setAccumulator.goto
      | exact (Frame.resolve _ _).goto
      | exact ⟨rfl, rfl, rfl, rfl, rfl, rfl, fun _ => id, _, rfl, by simp [Event.marked]⟩

theorem execCall_frame (call : Call) : Frame world (world.execCall choice call) := by
  cases call with
  | ack | fail => exact (Frame.resolve _ _).goto
  | terminalFail batch error =>
    apply Frame.goto
    unfold flagFailure
    by_cases transactional : batch.mode = .transactional
    · rw [if_pos transactional]
      exact .of_eq rfl rfl rfl rfl rfl rfl rfl rfl
    · rw [if_neg transactional]
      exact .refl world
  | fenceKeys keys =>
    cases keys with
    | nil => exact .refl world
    | cons key rest =>
      apply Frame.goto
      unfold fenceKey
      cases world.accumulators.get? key with
      | none => exact .refl world
      | some accumulator =>
        split_ifs
        · exact (Frame.resolve _ _).setAccumulator
        · exact .refl world
  | _ => exact .of_eq rfl rfl rfl rfl rfl rfl rfl rfl

/-- The sender writes no transaction state, and adds resolutions and stamps to
the history. -/
theorem senderStep_frame (stepped : world.senderStep config choice = some next) :
    Frame world next := by
  unfold senderStep at stepped
  cases pending : world.calls with
  | cons call rest =>
    rw [pending] at stepped
    cases stepped
    have called := @execCall_frame { world with calls := rest } choice call
    exact { called with }
  | nil =>
    rw [pending] at stepped
    exact execPhase_frame stepped

end Sender

/-! ## Every party -/

inductive Adds (config : Config) (world : World) : Act -> List Event -> Prop where
  | plain {act : Act} {events : List Event}
      (unmarked : forall event, event ∈ events -> event.marked = false) :
      Adds config world act events
  | accepted {key : TopicPartition} {payload : Payload} {generation : Option Nat}
      (generated : world.appendGeneration config = some generation)
      (active : world.state = .active) (opened : world.accumulators.contains key = true) :
      Adds config world (.append key payload) [.accepted ⟨key, world.openTransaction config⟩]
  | sent {index backoff : Nat} {request : Request}
      (found : world.requests[index]? = some request) (queued : request.progress = .queued)
      (unbarred : world.drainedBarrier request.batch.transactionGeneration = none) :
      Adds config world (.poll index true backoff)
        [.sent request.batch.key request.batch.recordBatch (handles request.batch.records)]
  | appended {index : Nat} {request : Request} (found : world.requests[index]? = some request)
      (sent : request.progress = .sent) :
      Adds config world (.brokerAppend index)
        [.appended request.batch.key request.batch.recordBatch (handles request.batch.records)]
  | flushed {index : Nat} {choice : TaskChoice} {purpose : Purpose} {since : Nat}
      {scanned : List TopicPartition}
      (found : world.tasks[index]? = some (.flush purpose since (.scan scanned [])))
      (idle : world.inFlight = 0) :
      Adds config world (.task index choice) [.flushed since]
  | aborting {index : Nat} {choice : TaskChoice} {previous : TxnState}
      (found : world.tasks[index]? = some (.abortUndrained previous)) :
      Adds config world (.task index choice) [.aborting world.transactions]
  | endTxn {index : Nat} {choice : TaskChoice} {committed : Bool} {previous : TxnState}
      (found : world.tasks[index]? = some (.sendEndTxn committed previous)) :
      Adds config world (.task index choice) [.endTxn world.transactions committed]
  | ended {index : Nat} {choice : TaskChoice} {committed : Bool}
      (found : world.tasks[index]? = some (.becomeReady committed)) :
      Adds config world (.task index choice) [.ended world.transactions committed]

section Parties

variable {config : Config} {world next : World}

variable {act : Act}

/-- A step that adds nothing. -/
theorem adds_none (log : next.log = world.log) :
    Exists fun events => next.log = world.log ++ events ∧ Adds config world act events :=
  ⟨[], by rw [log, append_nil], .plain (by simp)⟩

variable {choice : TaskChoice}

/-- `flush` returns `Ok` after it saw every accumulator and an idle counter. -/
theorem flushStep_ok {flushing : Flushing} (result : world.flushStep choice flushing = .ok) :
    Exists fun scanned => flushing = .scan scanned [] ∧ world.inFlight = 0 := by
  cases flushing with
  | start | waiting =>
    rw [flushStep] at result
    split_ifs at result
  | scan scanned remaining =>
    cases remaining with
    | nil =>
      rw [flushStep] at result
      split_ifs at result with late idle
      exact ⟨scanned, rfl, idle⟩
    | cons key rest =>
      rw [flushStep] at result
      split_ifs at result

theorem taskStep_adds {index : Nat} {task after : Task} (found : world.tasks[index]? = some task)
    (stepped : world.taskStep choice task = some (next, after)) :
    Exists fun events => next.log = world.log ++ events ∧
      Adds config world (.task index choice) events := by
  cases task with
  | sweep previous swept remaining =>
    cases remaining with
    | nil =>
      cases stepped
      exact adds_none rfl
    | cons key rest =>
      cases stepped
      unfold abortKey
      cases world.accumulators.get? key with
      | none => exact adds_none rfl
      | some accumulator =>
        refine ⟨_, rfl, .plain ?_⟩
        intro event member
        obtain ⟨record, _, rfl⟩ := mem_map.mp member
        rfl
  | flush purpose since flushing =>
    simp only [taskStep] at stepped
    cases result : world.flushStep choice flushing <;> simp only [result] at stepped <;>
      cases stepped
    · exact adds_none rfl
    · obtain ⟨scanned, rfl, idle⟩ := flushStep_ok result
      exact ⟨_, rfl, .flushed found idle⟩
    · exact adds_none rfl
  | endTransaction committed =>
    simp only [taskStep, endTransactionStep] at stepped
    split_ifs at stepped <;> cases stepped <;> exact adds_none rfl
  | applyEndTxn committed previous decision identity =>
    apply adds_none
    cases decision with
    | complete => cases identity <;> cases stepped <;> rfl
    | _ =>
      cases stepped
      rfl
  | sendEndTxn committed previous =>
    simp only [taskStep] at stepped
    cases attempt : choice.attempt <;> simp only [attempt] at stepped <;> cases stepped <;>
      exact ⟨_, rfl, .endTxn found⟩
  | abortUndrained previous =>
    simp only [taskStep] at stepped
    split_ifs at stepped <;> cases stepped
    · exact ⟨_, rfl, .aborting found⟩
    · exact adds_none rfl
  | becomeReady committed =>
    cases stepped
    exact ⟨_, rfl, .ended found⟩
  | done => cases stepped
  | _ =>
    simp only [taskStep] at stepped
    try split_ifs at stepped
    all_goals
      cases stepped
      exact adds_none rfl

/-- The history only grows, and by what the act may add. -/
theorem step_adds (stepped : world.step config act = some next) :
    Exists fun events => next.log = world.log ++ events ∧ Adds config world act events := by
  have quiet : forall {index : Nat} {progress : Progress} {onward : Request -> World},
      world.onRequest index progress onward = some next ->
        (forall request, (onward request).log = world.log) -> next.log = world.log := by
    intro index progress onward acted same
    unfold onRequest at acted
    cases found : world.requests[index]? with
    | none => simp [found] at acted
    | some request =>
      simp only [found, Option.ite_none_right_eq_some, Option.some.injEq] at acted
      rw [← acted.2, same]
  cases act with
  | sender choice =>
    obtain ⟨events, log, plain⟩ := (senderStep_frame stepped).log
    exact ⟨events, log, .plain plain⟩
  | poll index encodes backoff =>
    simp only [step, onRequest] at stepped
    cases found : world.requests[index]? with
    | none => simp [found] at stepped
    | some request =>
      simp only [found, Option.ite_none_right_eq_some, Option.some.injEq] at stepped
      rw [← stepped.2, pollRequest]
      cases barred : world.drainedBarrier request.batch.transactionGeneration with
      | some barrier => exact adds_none rfl
      | none =>
        cases encodes with
        | false => exact adds_none rfl
        | true => exact ⟨_, rfl, .sent found stepped.1.2 barred⟩
  | brokerAppend index =>
    simp only [step] at stepped
    cases found : world.requests[index]? with
    | none => simp [found] at stepped
    | some request =>
      simp only [found, Option.ite_none_right_eq_some, Option.some.injEq] at stepped
      rw [← stepped.2]
      exact ⟨_, rfl, .appended found stepped.1⟩
  | answer index answer leaderHint backoff =>
    simp only [step, Option.ite_none_left_eq_some] at stepped
    refine adds_none (quiet stepped.2 ?_)
    intro request
    dsimp only [answerRequest]
    split_ifs <;> rfl
  | lose index backoff => exact adds_none (quiet stepped (fun _ => rfl))
  | accept index =>
    simp only [step, Option.ite_none_right_eq_some] at stepped
    exact adds_none (quiet stepped.2 (fun _ => rfl))
  | complete picks =>
    simp only [step, complete, Option.ite_none_right_eq_some] at stepped
    cases taken : pick picks world.requests with
    | none => simp [taken] at stepped
    | some parts =>
      simp only [taken, Option.ite_none_right_eq_some, Option.some.injEq] at stepped
      rw [← stepped.2.2]
      exact adds_none rfl
  | sealFull key payload =>
    simp only [step, sealFull] at stepped
    split at stepped
    · split_ifs at stepped <;> cases stepped <;> exact adds_none rfl
    · cases stepped
  | append key payload =>
    simp only [step, append] at stepped
    split at stepped
    · rename_i generation accumulator generated found
      split_ifs at stepped with active
      cases stepped
      exact ⟨_, rfl, .accepted generated active (by rw [SortedMap.contains, found]; rfl)⟩
    · cases stepped
  | registerFails error =>
    simp only [step, registerFails] at stepped
    split at stepped <;> cases stepped
    exact adds_none rfl
  | call call =>
    simp only [step] at stepped
    cases opened : world.openTask config call <;> simp only [opened] at stepped <;>
      cases stepped <;> exact adds_none rfl
  | task index choice =>
    obtain ⟨task, result, after, found, cut, rfl⟩ := advanceTask_cut stepped
    obtain ⟨events, log, adds⟩ := @taskStep_adds config world result choice _ _ _ found cut
    exact ⟨events, log, adds⟩
  | openAccumulator key =>
    simp only [step, openAccumulator] at stepped
    split_ifs at stepped <;> cases stepped <;> exact adds_none rfl
  | _ =>
    simp only [step] at stepped
    try split_ifs at stepped
    all_goals
      cases stepped
      exact adds_none rfl

/-- What the parties other than the sender leave alone.  They wake it at most. -/
structure Outside (world next : World) : Prop where
  inFlight : next.inFlight = world.inFlight
  calls : next.calls = world.calls
  retry : next.retry = world.retry
  identity : next.identity = world.identity
  lastAckedOffset : next.lastAckedOffset = world.lastAckedOffset
  phase : next.phase = world.phase ∨ world.phase = .select ∧
    (next.phase = .schedule ∨ Exists fun results =>
      next.phase = .record CycleVerdicts.default results)

/-- What a cut of a client call leaves alone, and what it may change. -/
structure TaskFrame (world next : World) (after : Task) : Prop where
  inFlight : next.inFlight = world.inFlight
  calls : next.calls = world.calls
  retry : next.retry = world.retry
  identity : next.identity = world.identity
  lastAckedOffset : next.lastAckedOffset = world.lastAckedOffset
  requests : next.requests = world.requests
  phase : next.phase = world.phase
  state : next.state = world.state ∨ next.state ≠ .active
  transactions : next.transactions = world.transactions ∨
    next.transactions = world.transactions + 1 ∧ next.log = world.log ∧ world.txnState = .ready
  recovery : (next.recoveryRequired = world.recoveryRequired ∧
      next.recoveryGeneration = world.recoveryGeneration) ∨
    next.recoveryRequired = true ∧ after = .requireRecovery
  accumulators : next.accumulators = world.accumulators ∨
    Exists fun key => next = world.abortKey key

theorem taskStep_frame {task after : Task}
    (stepped : world.taskStep choice task = some (next, after)) :
    TaskFrame world next after := by
  cases task with
  | sweep previous swept remaining =>
    cases remaining with
    | nil =>
      cases stepped
      exact ⟨rfl, rfl, rfl, rfl, rfl, rfl, rfl, .inl rfl, .inl rfl, .inl ⟨rfl, rfl⟩, .inl rfl⟩
    | cons key rest =>
      cases stepped
      refine ⟨?_, ?_, ?_, ?_, ?_, ?_, ?_, .inl ?_, .inl ?_, .inl ⟨?_, ?_⟩, .inr ⟨key, rfl⟩⟩
      all_goals
        unfold abortKey
        split <;> rfl
  | done => cases stepped
  | _ =>
    simp only [taskStep, applyEndTxnStep, endTransactionStep, afterFlush] at stepped
    repeat' split at stepped
    all_goals cases stepped
    all_goals
      refine ⟨rfl, rfl, rfl, rfl, rfl, rfl, rfl, ?_, ?_, ?_, .inl rfl⟩
      · first
          | exact .inl rfl
          | exact .inr (by simp)
      · first
          | exact .inl rfl
          | exact .inr ⟨rfl, rfl, by assumption⟩
      · first
          | exact .inl ⟨rfl, rfl⟩
          | exact .inr ⟨rfl, rfl⟩

/-- What the other parties leave alone. -/
structure Aside (world next : World) (act : Act) : Prop extends Outside world next where
  state : next.state = world.state
  transactions : next.transactions = world.transactions
  recovery : next.recoveryRequired = world.recoveryRequired ∧
    next.recoveryGeneration = world.recoveryGeneration
  /-- Only a failed registration writes the transaction. -/
  txn : (next.txnState = world.txnState ∧ next.txnError = world.txnError) ∨
    Exists fun error => act = .registerFails error
  /-- Only a new client call changes the client calls. -/
  tasks : next.tasks = world.tasks ∨ Exists fun call => act = .call call
  opened : forall key, world.accumulators.contains key = true ->
    next.accumulators.contains key = true
  log : next.log = world.log ∨ Exists fun event => event.marked = true ∧
    next.log = world.log ++ [event]

theorem step_aside (aside : act.aside = true)
    (stepped : world.step config act = some next) : Aside world next act := by
  have inserted : forall (changed : TopicPartition) (accumulator : Accumulator) key,
      world.accumulators.contains key = true ->
        (world.accumulators.insert changed accumulator).contains key = true :=
    fun changed accumulator key opened => (SortedMap.contains_insert _ _ _ _).mpr (.inr opened)
  have idle : world.atSelect = true -> world.phase = .select := by
    intro waiting
    have both : world.phase = .select ∧ world.calls = [] := by simpa [atSelect] using waiting
    exact both.1
  cases act with
  | sender | task => cases aside
  | complete picks =>
    simp only [step, complete] at stepped
    repeat' split at stepped
    all_goals cases stepped
    exact ⟨⟨rfl, rfl, rfl, rfl, rfl, .inr ⟨idle (by assumption), .inr ⟨_, rfl⟩⟩⟩, rfl, rfl,
      ⟨rfl, rfl⟩, .inl ⟨rfl, rfl⟩, .inl rfl, fun _ => id, .inl rfl⟩
  | wake | shutdown =>
    simp only [step, Option.ite_none_right_eq_some, Option.some.injEq] at stepped
    rw [← stepped.2]
    exact ⟨⟨rfl, rfl, rfl, rfl, rfl, .inr ⟨idle stepped.1.1, .inl rfl⟩⟩, rfl, rfl,
      ⟨rfl, rfl⟩, .inl ⟨rfl, rfl⟩, .inl rfl, fun _ => id, .inl rfl⟩
  | timer =>
    simp only [step, Option.ite_none_right_eq_some, Option.some.injEq] at stepped
    rw [← stepped.2]
    exact ⟨⟨rfl, rfl, rfl, rfl, rfl, .inr ⟨idle stepped.1, .inl rfl⟩⟩, rfl, rfl,
      ⟨rfl, rfl⟩, .inl ⟨rfl, rfl⟩, .inl rfl, fun _ => id, .inl rfl⟩
  | _ =>
    simp only [step, onRequest, pollRequest, answerRequest, loseRequest, acceptRequest,
      openAccumulator, sealFull, append, registerFails] at stepped
    repeat' split at stepped
    all_goals cases stepped
    all_goals
      refine ⟨⟨rfl, rfl, rfl, rfl, rfl, .inl rfl⟩, rfl, rfl, ⟨rfl, rfl⟩, ?_, ?_, ?_, ?_⟩
      · first
          | exact .inl ⟨rfl, rfl⟩
          | exact .inr ⟨_, rfl⟩
      · first
          | exact .inl rfl
          | exact .inr ⟨_, rfl⟩
      · first
          | exact fun _ => id
          | exact inserted _ _
      · first
          | exact .inl rfl
          | exact .inr ⟨_, rfl, rfl⟩

theorem step_outside (outside : forall choice, act ≠ .sender choice)
    (stepped : world.step config act = some next) : Outside world next := by
  cases act with
  | sender choice => exact absurd rfl (outside choice)
  | task index choice =>
    obtain ⟨task, result, after, found, cut, rfl⟩ := advanceTask_cut stepped
    have same := taskStep_frame cut
    exact { same with phase := .inl same.phase }
  | _ => exact (step_aside rfl stepped).toOutside

theorem abortKey_opened {known : TopicPartition} (key : TopicPartition)
    (opened : world.accumulators.contains known = true) :
    (world.abortKey key).accumulators.contains known = true := by
  unfold abortKey
  cases world.accumulators.get? key with
  | none => exact opened
  | some accumulator => exact (SortedMap.contains_insert _ _ _ _).mpr (.inr opened)

/-- Only client calls change the client calls in progress. -/
theorem step_tasks (stepped : world.step config act = some next) :
    next.tasks = world.tasks ∨ (Exists fun call => Exists fun task => act = .call call ∧
        world.openTask config call = some task ∧
          next = { world with tasks := world.tasks ++ [task] }) ∨
      Exists fun index => Exists fun choice => Exists fun task => Exists fun result =>
        Exists fun after => act = .task index choice ∧ world.tasks[index]? = some task ∧
          world.taskStep choice task = some (result, after) ∧
            next = { result with tasks := world.tasks.set index after } := by
  cases act with
  | sender choice => exact .inl (senderStep_frame stepped).tasks
  | task index choice =>
    rcases advanceTask_cut stepped with ⟨task, result, after, found, cut, rfl⟩
    exact .inr (.inr ⟨index, choice, task, result, after, rfl, found, cut, rfl⟩)
  | call call =>
    simp only [step] at stepped
    cases opened : world.openTask config call with
    | none =>
      simp only [opened, Option.some.injEq] at stepped
      exact .inl (stepped ▸ rfl)
    | some task =>
      simp only [opened, Option.some.injEq] at stepped
      exact .inr (.inl ⟨call, task, rfl, opened, stepped.symm⟩)
  | _ =>
    left
    rcases (step_aside rfl stepped).tasks with same | ⟨call, isCall⟩
    · exact same
    · cases isCall

/-- No accumulator is removed. -/
theorem step_opened (stepped : world.step config act = some next)
    (key : TopicPartition) (opened : world.accumulators.contains key = true) :
    next.accumulators.contains key = true := by
  cases act with
  | sender choice => exact (senderStep_frame stepped).opened key opened
  | task index choice =>
    rcases advanceTask_cut stepped with ⟨task, result, after, found, cut, rfl⟩
    rcases (taskStep_frame cut).accumulators with same | ⟨changed, rfl⟩
    · rwa [same]
    · exact abortKey_opened changed opened
  | _ => exact (step_aside rfl stepped).opened key opened

end Parties

variable {act : Act}

/-- Only `enqueue` accepts a record. -/
theorem Adds.acceptances_eq (adds : Adds config world act events) :
    acceptances events = [] ∨ Exists fun key => Exists fun generation =>
      world.appendGeneration config = some generation ∧ world.accumulators.contains key = true ∧
          acceptances events = [⟨key, world.openTransaction config⟩] := by
  cases adds with
  | plain unmarked => exact .inl (acceptances_of_unmarked unmarked)
  | accepted generated active opened => exact .inr ⟨_, _, generated, opened, rfl⟩
  | _ => exact .inl rfl

/-! ## Statements about the history -/

def Recorded (claim : List Event -> Event -> Prop) (world : World) : Prop :=
  forall before event after, world.log = before ++ event :: after -> event.marked = true ->
    claim before event

/-- A marked event of a longer history is old, or it is the new one. -/
theorem Adds.split (adds : Adds config world act events) {before after : List Event} {event : Event}
    (log : world.log ++ events = before ++ event :: after) (marked : event.marked = true) :
    (Exists fun rest => world.log = before ++ event :: rest) ∨
      before = world.log ∧ events = [event] := by
  rcases append_eq_append_iff.mp log with ⟨middle, isLonger, parts⟩ | ⟨rest, isLonger, parts⟩
  · right
    have single : middle = [] ∧ events = [event] := by
      have member : event ∈ events := by simp [parts]
      cases adds with
      | plain unmarked => exact absurd (unmarked event member) (by simp [marked])
      | _ => cases middle <;> simp_all
    exact ⟨by simp [isLonger, single.1], single.2⟩
  · cases rest with
    | nil =>
      right
      simp only [append_nil, nil_append] at isLonger parts
      have single : events = [event] := by
        have member : event ∈ events := by simp [← parts]
        cases adds with
        | plain unmarked => exact absurd (unmarked event member) (by simp [marked])
        | _ => simp_all
      exact ⟨isLonger.symm, single⟩
    | cons head rest =>
      left
      rw [cons_append, List.cons.injEq] at parts
      exact ⟨rest, by rw [isLonger, parts.1]⟩

/-- A claim about the history survives a step that adds nothing against it. -/
theorem Recorded.step (recorded : world.Recorded claim)
    (now : forall event, Adds config world act [event] -> event.marked = true ->
      claim world.log event) (stepped : world.step config act = some next) :
    next.Recorded claim := by
  rcases step_adds stepped with ⟨events, log, adds⟩
  intro before event after whole marked
  rcases adds.split (log ▸ whole) marked with ⟨rest, old⟩ | ⟨rfl, rfl⟩
  · exact recorded before event rest old marked
  · exact now event adds marked

theorem recorded_start (config : Config) :
    (start config).Recorded claim := by
  intro before event after whole marked
  simp [start] at whole

end World

end Producer
end Krabka
