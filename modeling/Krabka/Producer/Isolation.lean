import Krabka.Producer.Flush
import Krabka.Producer.Transaction

namespace Krabka
namespace Producer

open Collections List

/-!
# The end of a transaction

`end_transaction` sends `EndTxn` after it emptied the producer: a commit
flushes, an abort sweeps the accumulators and then waits for the in-flight
counter.  A split batch that goes back to an accumulator behind the flush pass
or behind the sweep escapes both.  `EndSafe` excludes that step.  Then no
record of a finished transaction is left, and every record of a transaction is
sent in a transactional batch.
-/

/-- Whether the task is an `end_transaction` that is done with the accumulator
of `key`: its flush looked at it, or its abort swept it. -/
def Task.finished (task : Task) (key : TopicPartition) : Bool :=
  match task with
  | .flush (.commit _) _ (.scan scanned _) => scanned.contains key
  | .sweep _ swept _ => swept.contains key
  | .awaitInFlight _ => true
  | _ => false

/-- The `end_transaction` of the task found the producer empty. -/
def Task.emptied : Task -> Bool
  | .checkCommit _ => true
  | .coordinator _ _ => true
  | .sendEndTxn _ _ => true
  | .applyEndTxn _ _ _ _ => true
  | .clearAbortable _ => true
  | .becomeReady _ => true
  | .requireRecovery => true
  | _ => false

variable {task : Task}

namespace World

/-- No split batch goes back to an accumulator that an `end_transaction` in
progress is done with. -/
def EndSafe (world : World) (act : Act) : Prop :=
  (world.returned act).any (fun key => world.tasks.any (fun task => task.finished key)) = false
deriving Decidable

/-- A record waits in an accumulator, or it is in a drained batch: in a retry
slot, in a request or in the hands of the sender. -/
def Left (world : World) (record : Nat) : Prop := world.ledger.Live record

def Gone (world : World) (since : Nat) : Prop := forall record, world.Left record -> since ≤ record

/-- No accepted record is left. -/
def Empty (world : World) : Prop := world.Gone (acceptances world.log).length

variable {config : Config} {world next : World} {act : Act}

theorem Gone.step {since : Nat} (gone : world.Gone since) (invariant : world.Invariant)
    (begun : since ≤ (acceptances world.log).length)
    (stepped : world.step config act = some next) : next.Gone since := by
  intro record left
  rcases (invariant.refined stepped).move.live left with before | isNew
  · exact gone record before
  · apply begun.trans
    simpa [ledger] using isNew

theorem Empty.step (isEmpty : world.Empty) (invariant : world.Invariant)
    (accepted : acceptances next.log = acceptances world.log)
    (stepped : world.step config act = some next) : next.Empty := by
  have gone := Gone.step isEmpty invariant (Nat.le_refl _) stepped
  rwa [Empty, accepted]

/-- Idle and with nothing in the accumulators. -/
theorem empty_of_idle (invariant : world.Invariant) (idle : world.inFlight = 0)
    (queues : forall key record, record ∈ world.queue key -> (acceptances world.log).length ≤ record) :
    world.Empty := by
  intro record left
  rcases left with ⟨key, queued⟩ | ⟨parcel, member, _⟩
  · exact queues key record queued
  · have none : world.ledger.drained = 0 := invariant.drained_eq_zero idle
    rw [none] at member
    exact absurd member (Multiset.notMem_zero parcel)

/-! ## What an `end_transaction` knows -/

/-- What an `end_transaction` knows at its place. -/
def EndKnows (world : World) (task : Task) : Prop :=
  match task with
  | .flush (.commit _) since _ =>
    since = (acceptances world.log).length ∧ world.FlushKnows task
  | .sweep _ swept remaining =>
    (forall key, key ∈ swept -> world.queue key = []) ∧
      forall record key, partitionOf world.log record = some key ->
        key ∈ swept ∨ key ∈ remaining
  | .awaitInFlight _ => forall key, world.queue key = []
  | _ => task.emptied = true -> world.Empty

/-- An accumulator that an `end_transaction` is done with stays empty. -/
theorem queue_stays_nil {key : TopicPartition} (invariant : world.Invariant)
    (accepted : acceptances next.log = acceptances world.log) (isEmpty : world.queue key = [])
    (ahead : world.returned act ≠ some key) (stepped : world.step config act = some next) :
    next.queue key = [] := by
  apply eq_nil_iff_forall_not_mem.mpr
  intro record queued
  rcases (invariant.refined stepped).move.mem_queue queued with before | isNew | back
  · have inOld : record ∈ world.queue key := before
    rw [isEmpty] at inOld
    cases inOld
  · have bound := (List.getElem?_eq_some_iff.mp
      ((invariant.step stepped).sound.owner_of_queued queued)).1
    simp only [ledger, length_map, accepted] at bound isNew
    omega
  · exact ahead back

theorem EndKnows.step (knows : world.EndKnows task) (invariant : world.Invariant)
    (ahead : (world.returned act).any task.finished = false)
    (accepted : task.ending = true -> acceptances next.log = acceptances world.log)
    (stepped : world.step config act = some next) : next.EndKnows task := by
  have behind : forall {key : TopicPartition}, task.finished key = true ->
      world.returned act ≠ some key := by
    intro key isDone back
    rw [back, Option.any_some, isDone] at ahead
    cases ahead
  have emptied : (task.emptied = true -> world.Empty) -> task.ending = true ->
      task.emptied = true -> next.Empty :=
    fun known ends isEmptied => (known isEmptied).step invariant (accepted ends) stepped
  cases task with
  | flush purpose since flushing =>
    cases purpose with
    | commit previous =>
      refine ⟨by rw [accepted rfl]; exact knows.1, knows.2.step invariant ?_ stepped⟩
      cases flushing <;> exact ahead
    | _ => exact fun isEmptied => absurd isEmptied (by simp [Task.emptied])
  | sweep previous swept remaining =>
    have same := accepted rfl
    refine ⟨?_, ?_⟩
    · intro key looked
      exact queue_stays_nil invariant same (knows.1 key looked)
        (behind (by simpa [Task.finished] using looked)) stepped
    · intro record key owned
      rw [partitionOf, same] at owned
      exact knows.2 record key owned
  | awaitInFlight previous =>
    intro key
    exact queue_stays_nil invariant (accepted rfl) (knows key) (behind rfl) stepped
  | _ => first
      | exact emptied knows rfl
      | exact fun isEmptied => absurd isEmptied (by simp [Task.emptied])

/-- The flush of a commit ends with an empty producer. -/
theorem FlushKnows.empty {purpose : Purpose} {scanned : List TopicPartition}
    (knows : world.FlushKnows (.flush purpose (acceptances world.log).length (.scan scanned [])))
    (invariant : world.Invariant) (idle : world.inFlight = 0) : world.Empty := by
  apply empty_of_idle invariant idle
  intro key record queued
  have owned := invariant.sound.owner_of_queued queued
  rw [owner_eq_partitionOf] at owned
  have accepted := partitionOf_isSome.mp ⟨key, owned⟩
  rcases knows.2.2 record accepted key owned with here | nowhere
  · exact knows.2.1 key here record queued
  · cases nowhere

theorem queue_abortKey (key other : TopicPartition) :
    (world.abortKey key).queue other = if other = key then [] else world.queue other := by
  unfold abortKey
  cases found : world.accumulators.get? key with
  | none =>
    split_ifs with same
    · rw [queue, same, found]
    · rfl
  | some accumulator =>
    rw [queue_setAccumulator]
    split_ifs with same
    · rw [same, Function.update_self]
      rfl
    · rw [Function.update_of_ne same]
      rfl

/-- A cut of an `end_transaction` leaves it with what it knows.  `kept` is what
it knows after the cut if it stayed at its place. -/
theorem EndKnows.cut {choice : TaskChoice} {task after : Task} {result : World} {tasks : List Task}
    (knows : world.EndKnows task) (kept : EndKnows { result with tasks := tasks } task)
    (invariant : world.Invariant) (opened : world.Opened)
    (stepped : world.taskStep choice task = some (result, after)) :
    EndKnows { result with tasks := tasks } after := by
  have nothing : after.emptied = false -> after.emptied = true -> Empty { result with tasks := tasks } :=
    fun isFalse isTrue => absurd isTrue (by simp [isFalse])
  cases task with
  | flush purpose since flushing =>
    simp only [taskStep] at stepped
    cases result' : world.flushStep choice flushing with
    | again next =>
      simp only [result'] at stepped
      cases stepped
      cases purpose with
      | commit previous => exact ⟨knows.1, knows.2.again opened result'⟩
      | _ => exact nothing rfl
    | ok =>
      simp only [result'] at stepped
      rcases flushStep_ok result' with ⟨scanned, rfl, idle⟩
      cases stepped
      cases purpose with
      | commit previous =>
        have isEmpty : world.Empty := by
          have flushed := knows.2
          rw [knows.1] at flushed
          exact flushed.empty invariant idle
        have accepted : acceptances (world.log ++ [Event.flushed since]) =
            acceptances world.log := by simp [acceptances]
        intro _ record left
        change (acceptances (world.log ++ [Event.flushed since])).length ≤ record
        rw [accepted]
        exact isEmpty record left
      | _ => exact nothing rfl
    | failed =>
      simp only [result'] at stepped
      cases stepped
      cases purpose <;> exact nothing rfl
  | endTransaction committed =>
    simp only [taskStep, endTransactionStep] at stepped
    split_ifs at stepped <;> cases stepped
    · exact ⟨rfl, Nat.le_refl _, trivial⟩
    · exact nothing rfl
    · exact nothing rfl
  | abortUndrained previous =>
    simp only [taskStep] at stepped
    split_ifs at stepped <;> cases stepped
    · refine ⟨fun key looked => absurd looked not_mem_nil, ?_⟩
      intro record key owned
      right
      rw [keys, (arrange_perm _ id world.accumulators.keys).mem_iff, SortedMap.mem_keys_iff]
      apply opened record key
      have accepted : acceptances (world.log ++ [Event.aborting world.transactions]) =
          acceptances world.log := by simp [acceptances]
      rw [partitionOf, ← accepted]
      exact owned
    · exact nothing rfl
  | sweep previous swept remaining =>
    cases remaining with
    | nil =>
      cases stepped
      refine fun key => eq_nil_iff_forall_not_mem.mpr fun record queued => ?_
      have owned := invariant.sound.owner_of_queued queued
      rw [owner_eq_partitionOf] at owned
      exact absurd queued
        (knows.1 key ((knows.2 record key owned).resolve_right not_mem_nil) ▸ not_mem_nil)
    | cons key rest =>
      cases stepped
      refine ⟨?_, ?_⟩
      · intro other looked
        rcases mem_append.mp looked with before | here
        · exact kept.1 other before
        · have emptied := @queue_abortKey world key other
          rw [if_pos (mem_singleton.mp here)] at emptied
          exact emptied
      · intro record other owned
        rcases kept.2 record other owned with before | later
        · exact .inl (mem_append_left _ before)
        · rcases mem_cons.mp later with here | later
          · exact .inl (mem_append_right _ (mem_singleton.mpr here))
          · exact .inr later
  | awaitInFlight previous =>
    simp only [taskStep] at stepped
    split_ifs at stepped with late idle <;> cases stepped
    · exact nothing rfl
    · intro _
      apply empty_of_idle invariant idle
      intro key record queued
      rw [knows key] at queued
      cases queued
    · exact knows
  | done => cases stepped
  | sendEndTxn committed previous =>
    simp only [taskStep] at stepped
    split at stepped <;> cases stepped <;> exact kept
  | _ =>
    simp only [taskStep, applyEndTxnStep] at stepped
    repeat' split at stepped
    all_goals cases stepped
    all_goals first
      | exact kept
      | exact nothing rfl

/-- Every `end_transaction` in progress knows what it needs. -/
def Ends (world : World) : Prop :=
  world.Opened ∧ world.Exclusive ∧ forall task, task ∈ world.tasks -> world.EndKnows task

theorem Ends.step (ends : world.Ends) (transactional : config.transactional = true)
    (invariant : world.Invariant) (safe : world.EndSafe act)
    (stepped : world.step config act = some next) : next.Ends := by
  refine ⟨ends.1.step stepped, ends.2.1.step stepped, ?_⟩
  have kept : forall task, task ∈ world.tasks -> next.EndKnows task := by
    intro task member
    refine (ends.2.2 task member).step invariant ?_
      (fun isEnding => ends.2.1.acceptances_eq transactional member isEnding stepped) stepped
    unfold EndSafe at safe
    cases back : world.returned act with
    | none => rfl
    | some key =>
      rw [back] at safe
      exact Bool.eq_false_of_not_eq_true (any_eq_false.mp safe task member)
  intro task member
  rcases step_tasks stepped with same | ⟨call, opened, rfl, started, rfl⟩ |
    ⟨index, choice, before, result, after, rfl, found, cut, rfl⟩
  · exact kept task (same ▸ member)
  · rcases mem_append.mp member with old | isNew
    · exact kept task old
    · rw [mem_singleton.mp isNew]
      cases call <;> simp only [openTask] at started <;> (try split_ifs at started) <;>
        cases started <;> exact fun isEmptied => absurd isEmptied (by simp [Task.emptied])
  · rcases mem_or_eq_of_mem_set member with old | isNew
    · exact kept task old
    · rw [isNew]
      have inTasks := mem_of_getElem? found
      exact (ends.2.2 before inTasks).cut (kept before inTasks) invariant ends.1 cut

/-! ## Stamps -/

/-- A transaction is active, or a fatal error stops every send, or no record is
left that could be sent. -/
def Covered (world : World) : Prop :=
  (world.txnState = .inTransaction ∨ world.txnState = .committingOrAborting) ∨
    world.txnError.fatal?.isSome = true ∨ world.Empty

/-- The transaction state is given up by an `end_transaction` that found the
producer empty, or given back. -/
theorem taskStep_leaves {choice : TaskChoice} {after : Task}
    (stepped : world.taskStep choice task = some (next, after)) :
    next.txnState = world.txnState ∨ next.txnState = .inTransaction ∨
      next.txnState = .committingOrAborting ∨ task.previous = some next.txnState ∨
        task.emptied = true := by
  cases task with
  | sweep previous swept remaining =>
    left
    cases remaining with
    | nil =>
      cases stepped
      rfl
    | cons key rest =>
      cases stepped
      unfold abortKey
      cases world.accumulators.get? key <;> rfl
  | begin =>
    simp only [taskStep] at stepped
    split_ifs at stepped <;> cases stepped
    · exact .inr (.inl rfl)
    · exact .inl rfl
  | endTransaction committed =>
    simp only [taskStep, endTransactionStep] at stepped
    split_ifs at stepped <;> cases stepped
    · exact .inr (.inr (.inl rfl))
    · exact .inr (.inr (.inl rfl))
    · exact .inl rfl
  | restore previous =>
    cases stepped
    exact .inr (.inr (.inr (.inl rfl)))
  | done => cases stepped
  | _ => first
      | exact .inr (.inr (.inr (.inr rfl)))
      | simp only [taskStep, afterFlush] at stepped
        repeat' split at stepped
        all_goals cases stepped
        all_goals exact .inl rfl

theorem Task.ending_of_emptied (emptied : task.emptied = true) :
    task.ending = true := by
  cases task <;> first
    | rfl
    | cases emptied

theorem EndKnows.empty (knows : world.EndKnows task) (emptied : task.emptied = true) :
    world.Empty := by
  cases task <;> first
    | exact knows emptied
    | cases emptied

theorem Covered.step (covered : world.Covered) (ends : world.Ends)
    (transactional : config.transactional = true) (invariant : world.Invariant)
    (stepped : world.step config act = some next) : next.Covered := by
  by_cases active : next.txnState = .inTransaction ∨ next.txnState = .committingOrAborting
  · exact .inl active
  right
  by_cases same : next.txnState = world.txnState
  · rw [same] at active
    rcases covered with inside | fatal | isEmpty
    · exact absurd inside active
    · exact .inl (step_fatal stepped fatal)
    · refine .inr (isEmpty.step invariant ?_ stepped)
      rcases step_adds stepped with ⟨events, log, adds⟩
      rw [log, acceptances_append]
      rcases adds.acceptances_eq with none | ⟨key, generation, generated, _, _⟩
      · rw [none, append_nil]
      · unfold appendGeneration at generated
        split_ifs at generated with ready
        exact absurd (.inl ready.2.2) active
  · rcases act.task_or_not with ⟨index, choice, rfl⟩ | notTask
    · rcases advanceTask_cut stepped with ⟨task, result, after, found, cut, rfl⟩
      have member := mem_of_getElem? found
      rcases taskStep_leaves cut with unchanged | inside | held | restores | emptied
      · exact absurd unchanged same
      · exact absurd (.inl inside) active
      · exact absurd (.inr held) active
      · exact absurd (.inl (ends.2.1.previous task member _ restores)) active
      · have ending := Task.ending_of_emptied emptied
        exact .inr (((ends.2.2 task member).empty emptied).step invariant
          (ends.2.1.acceptances_eq transactional member ending stepped) stepped)
    · rcases step_txnState notTask stepped with unchanged | ⟨_, fatal, _⟩
      · exact absurd unchanged same
      · exact .inl fatal

/-- Every batch of the producer is stamped transactional, unless a fatal error
stops every send or the batch holds no record. -/
def Stamped (world : World) : Prop :=
  forall batch, world.Carries batch -> batch.recordBatch.transactional = true ∨
    world.txnError.fatal?.isSome = true ∨ batch.records = []

/-- A batch that the sender popped holds no record when none is left. -/
theorem Empty.records_eq_nil {key : TopicPartition} {records : List PendingRecord}
    (isEmpty : world.Empty) (invariant : world.Invariant)
    (member : (key, handles records) ∈ world.drained) : records = [] := by
  cases records with
  | nil => rfl
  | cons record rest =>
    have inside : record.handle ∈ handles (record :: rest) := mem_cons_self
    have late : (acceptances world.log).length ≤ record.handle :=
      isEmpty record.handle (.inr ⟨_, member, inside⟩)
    have owned := invariant.sound.owner_of_held member inside
    rw [owner_eq_partitionOf] at owned
    exact absurd (partitionOf_isSome.mp ⟨key, owned⟩) (Nat.not_lt.mpr late)

theorem Stamped.step (stamped : world.Stamped) (covered : world.Covered)
    (transactional : config.transactional = true) (invariant : world.Invariant)
    (stepped : world.step config act = some next) : next.Stamped := by
  intro batch carried
  have later : batch.recordBatch.transactional = true ∨ world.txnError.fatal?.isSome = true ∨
      batch.records = [] -> batch.recordBatch.transactional = true ∨
        next.txnError.fatal?.isSome = true ∨ batch.records = [] :=
    Or.imp id (Or.imp (step_fatal stepped) id)
  apply later
  cases step_origin stepped batch carried with
  | kept old carriedOld same =>
    rw [same.recordBatch, same.records]
    exact stamped old carriedOld
  | built loop key leader popped baseSequence atPhase outside new =>
    right
    rcases covered with inside | fatal | isEmpty
    · rw [transactional, Bool.true_and] at outside
      rcases inside with inTransaction | held
      · simp [inActiveTransaction, inTransaction] at outside
      · simp [inActiveTransaction, held] at outside
    · exact .inl fatal
    · have held : (key, handles popped.records) ∈ world.phase.held := by
        rw [atPhase]
        exact Multiset.mem_add.mpr (.inl (Multiset.mem_singleton_self _))
      rw [new]
      exact .inr (isEmpty.records_eq_nil invariant (mem_drained_phase held))
  | builtTransactional loop key leader popped baseSequence atPhase new =>
    rw [new]
    exact .inl rfl
  | rewritten cycle old rest atPhase first new
  | restarted bumped cycle old rest atPhase noRewrite noRepair first new =>
    rw [new]
    exact stamped old (.inr (.inr (.inl (by
      simp [atPhase, Phase.batches, CycleVerdicts.batches, first]))))

/-! ## Isolation -/

def Finished (world : World) : Prop :=
  forall before transaction committed after,
    world.log = before ++ .endTxn transaction committed :: after ->
      world.Gone (acceptances before).length

theorem Finished.step (finished : world.Finished) (ends : world.Ends) (invariant : world.Invariant)
    (stepped : world.step config act = some next) : next.Finished := by
  intro before transaction committed after whole
  have kept : forall {since : Nat}, since ≤ (acceptances world.log).length -> world.Gone since ->
      next.Gone since := fun begun gone => gone.step invariant begun stepped
  rcases step_adds stepped with ⟨events, log, adds⟩
  rcases adds.split (log ▸ whole) rfl with ⟨rest, old⟩ | ⟨rfl, rfl⟩
  · refine kept ?_ (finished before transaction committed rest old)
    rw [old, acceptances_append, length_append]
    exact Nat.le_add_right _ _
  · apply kept (Nat.le_refl _)
    cases adds with
    | endTxn found => exact (ends.2.2 _ (mem_of_getElem? found)).empty rfl
    | plain unmarked =>
      have plain := unmarked _ mem_cons_self
      simp [Event.marked] at plain

def SentInTransaction (before : List Event) (event : Event) : Prop :=
  match event with
  | .sent _ batch handles =>
    (forall early transaction committed middle,
      before = early ++ .endTxn transaction committed :: middle ->
        forall record, record ∈ handles -> (acceptances early).length ≤ record) ∧
      (batch.transactional = true ∨ handles = [])
  | _ => True

theorem sentInTransaction {index : Nat} {request : Request} (finished : world.Finished)
    (stamped : world.Stamped) (generations : world.Generations)
    (found : world.requests[index]? = some request)
    (unbarred : world.drainedBarrier request.batch.transactionGeneration = none) :
    SentInTransaction world.log
      (.sent request.batch.key request.batch.recordBatch (handles request.batch.records)) := by
  have member := mem_of_getElem? found
  have carried : world.Carries request.batch := .inr (.inl ⟨request, member, rfl⟩)
  refine ⟨?_, ?_⟩
  · intro early transaction committed middle whole record inside
    exact finished early transaction committed middle whole record
      (.inr ⟨_, mem_drained_request member, inside⟩)
  · rcases stamped request.batch carried with isTrue | fatal | none
    · exact .inl isTrue
    · rcases generations _ (.inr ⟨request.batch, carried, rfl⟩) with ⟨number, isNumber, _⟩
      rcases Option.isSome_iff_exists.mp fatal with ⟨error, isFatal⟩
      rw [isNumber, drainedBarrier, isFatal] at unbarred
      cases unbarred
    · exact .inr (by rw [none]; rfl)

/-- What holds of the transactions of a producer at any time. -/
structure Isolated (world : World) : Prop where
  /-- Once `EndTxn` is sent, no record that was accepted in the transaction is
  left in an accumulator, in a retry slot or in flight. -/
  left : forall before transaction committed after,
    world.log = before ++ .endTxn transaction committed :: after ->
      forall record, transactionOf before record = some transaction -> ¬ world.Left record
  /-- No later request carries such a record. -/
  sent : forall before transaction committed middle key batch handles after,
    world.log = before ++ .endTxn transaction committed ::
      (middle ++ .sent key batch handles :: after) ->
      forall record, record ∈ handles -> transactionOf before record ≠ some transaction
  stamped : forall key batch handles, Event.sent key batch handles ∈ world.log ->
    forall record, record ∈ handles -> (transactionOf world.log record).isSome = true ->
      batch.transactional = true

theorem isolated_of_finished (finished : world.Finished)
    (recorded : world.Recorded SentInTransaction) : world.Isolated := by
  refine ⟨?_, ?_, ?_⟩
  · intro before transaction committed after whole record inside left
    exact absurd (finished before transaction committed after whole record left)
      (Nat.not_le.mpr (lt_of_transactionOf inside))
  · intro before transaction committed middle key batch handles after whole record member inside
    have claim := recorded (before ++ .endTxn transaction committed :: middle)
      (.sent key batch handles) after (by simp [whole]) rfl
    exact absurd (claim.1 before transaction committed middle rfl record member)
      (Nat.not_le.mpr (lt_of_transactionOf inside))
  · intro key batch handles member record inside _
    rcases append_of_mem member with ⟨before, after, whole⟩
    rcases (recorded before _ after whole rfl).2 with isTrue | none
    · exact isTrue
    · rw [none] at inside
      cases inside

/-- In every run of a transactional producer in which no split batch goes back to
an accumulator that an `end_transaction` in progress is done with, the
transactions are isolated. -/
theorem run_isolated {config : Config} {acts : List Act} {world : World}
    (transactional : config.transactional = true)
    (safe : Transition.Along (step config) EndSafe (start config) acts)
    (ran : (start config).run config acts = some world) : world.Isolated := by
  have known : (world.Ends ∧ world.Covered ∧ world.Stamped ∧ world.Generations) ∧
      world.Finished ∧ world.Recorded SentInTransaction := by
    apply run_induction_along (fun world => (world.Ends ∧ world.Covered ∧ world.Stamped ∧
      world.Generations) ∧ world.Finished ∧ world.Recorded SentInTransaction) ?_ ?_ safe ran
    · intro before act after invariant known admitted stepped
      rcases known with ⟨⟨ends, covered, stamped, generations⟩, finished, recorded⟩
      refine ⟨⟨ends.step transactional invariant admitted stepped,
        covered.step ends transactional invariant stepped,
        stamped.step covered transactional invariant stepped,
        generations.step transactional stepped⟩, finished.step ends invariant stepped,
        recorded.step ?_ stepped⟩
      intro event adds marked
      cases adds with
      | sent found queued unbarred => exact sentInTransaction finished stamped generations found unbarred
      | plain unmarked =>
        have plain := unmarked event mem_cons_self
        simp [plain] at marked
      | _ => trivial
    · refine ⟨⟨⟨?_, start_exclusive config, ?_⟩, ?_, ?_, start_generations config⟩, ?_,
        recorded_start config⟩
      · intro record key owned
        simp [start, partitionOf, acceptances] at owned
      · exact fun task member => absurd member not_mem_nil
      · exact .inr (.inr (fun record _ => Nat.zero_le record))
      · intro batch carried
        rcases carried with ⟨key, found⟩ | ⟨request, member, _⟩ | inPhase | ⟨call, member, _⟩
        · simp [start] at found
        · cases member
        · simp [start, Phase.batches] at inPhase
        · cases member
      · intro before transaction committed after whole
        simp [start] at whole
  exact isolated_of_finished known.2.1 known.2.2

end World

/-- A transactional producer that lets no record linger. -/
def Config.transacting : Config :=
  ⟨.all, 0, 100, 3, 5, 100, ⟨7, 0⟩, some ⟨8, 0⟩, fun _ => rfl, by simp, by simp⟩

namespace Sample

/-- The next cut of a client call.  `EndTxn` completes at the first attempt. -/
def cut (call : Nat) : Act := .task call ⟨[], false, true, some (.complete, none)⟩

/-- Two records of `orders` are sent in a transaction.  `between` happens before
the answer, which has the code `code`. -/
def transaction (between : List Act) (code : Int) : List Act :=
  [.call .beginTransaction, cut 0, .openAccumulator orders, .append orders payload,
    .append orders payload] ++ cuts 26 ++ [.poll 0 true 0] ++ between ++
    [.answer 0 (some ⟨code, 10, -1, 0⟩) (-1) 0, .complete [0]]

def ending (committed : Bool) (count : Nat) : List Act :=
  .call (.endTransaction committed) :: List.replicate count (cut 1)

/-- An abort begins while a commit is under way. -/
def overlap : List Act :=
  transaction [] 0 ++ cuts 8 ++ ending true 4 ++ [.call (.endTransaction false), cut 2]

end Sample

namespace World

open Sample

theorem run_isolated_commit :
    Exists fun world => (start .transacting).run .transacting
        (transaction [] 0 ++ cuts 8 ++ ending true 11) = some world ∧
      Event.ended 1 true ∈ world.log ∧ world.Isolated :=
  ⟨_, rfl, by decide, run_isolated rfl
    (by decide : Transition.Along (step .transacting) EndSafe (start .transacting)
      (transaction [] 0 ++ cuts 8 ++ ending true 11)) rfl⟩

/-- The abort sweeps the accumulators while the batch is on the wire, then the
batch is split and goes back, and `EndTxn` is sent with both records in the
accumulator.  The first of them is sent afterwards, without a transaction. -/
theorem abort_leaves_split :
    Exists fun world => (start .transacting).run .transacting
        (transaction (ending false 4) Codes.MESSAGE_TOO_LARGE ++ cuts 5 ++
          List.replicate 6 (cut 1) ++ cuts 24 ++ [.poll 0 true 0]) = some world ∧
      transactionOf world.log 0 = some 1 ∧ transactionOf world.log 1 = some 1 ∧
      1 ∈ world.queue orders ∧
      world.log.dropWhile (fun event => event != .endTxn 1 false) =
        [.endTxn 1 false, .ended 1 false, .built orders ⟨false, 0, ⟨7, 0⟩, 0⟩ [0],
          .sent orders ⟨false, 0, ⟨7, 0⟩, 0⟩ [0]] ∧ ¬ world.Isolated :=
  ⟨_, rfl, rfl, rfl, by decide, by decide, fun isolated => absurd
    (isolated.stamped orders ⟨false, 0, ⟨7, 0⟩, 0⟩ [0] (by decide) 0 (by decide) (by decide))
    (by decide)⟩

/-! ## What every run keeps -/

/-- Whatever calls overlap, at most one of them ends the transaction, and no record is accepted
meanwhile. -/
theorem run_one_ends {config : Config} {acts : List Act} {world : World}
    (transactional : config.transactional = true)
    (ran : (start config).run config acts = some world) :
    world.Exclusive ∧ forall task, task ∈ world.tasks -> task.ending = true ->
      forall act next, world.step config act = some next ->
        acceptances next.log = acceptances world.log := by
  have exclusive := Transition.run_keeps Exclusive (fun _ _ _ => Exclusive.step)
    (start_exclusive config) ran
  exact ⟨exclusive, fun _ member ends _ _ => exclusive.acceptances_eq transactional member ends⟩

theorem run_one_ends_overlap :
    Exists fun world => (start .transacting).run .transacting overlap = some world ∧
      world.tasks.map Task.ending = [false, true, false] ∧ world.Exclusive :=
  ⟨_, rfl, rfl, (@run_one_ends .transacting overlap _ rfl rfl).1⟩

end World

/-- The header on the wire says what the sender decides by. -/
def PreparedBatch.Labelled (batch : PreparedBatch) : Prop :=
  batch.recordBatch.baseSequence = batch.baseSequence ∧
    batch.recordBatch.lastOffsetDelta = batch.records.length - 1

namespace World

open Sample

theorem labelled_step {config : Config} {world next : World} {act : Act} {batch : PreparedBatch}
    (labelled : forall batch, world.Carries batch -> batch.Labelled)
    (stepped : world.step config act = some next) (carried : next.Carries batch) :
    batch.Labelled := by
  have inPhase (old : PreparedBatch) (member : old ∈ world.phase.batches) : old.Labelled :=
    labelled old (.inr (.inr (.inl member)))
  cases step_origin stepped batch carried with
  | kept old carried same =>
    rw [PreparedBatch.Labelled, same.baseSequence, same.recordBatch, same.records]
    exact labelled old carried
  | built _ _ _ _ _ _ _ new | builtTransactional _ _ _ _ _ _ new => exact new ▸ ⟨rfl, rfl⟩
  | rewritten cycle old rest atPhase first new | restarted _ cycle old rest atPhase _ _ first new =>
    refine new ▸ ⟨rfl, (inPhase old ?_).2⟩
    simp [atPhase, Phase.batches, CycleVerdicts.batches, first]

/-- Retries, restarts and raised epochs leave the header of every batch in step. -/
theorem run_headers_agree {config : Config} {acts : List Act} {world : World}
    (ran : (start config).run config acts = some world) (batch : PreparedBatch)
    (carried : world.Carries batch) : batch.Labelled := by
  refine Transition.run_keeps (fun world => forall batch, world.Carries batch -> batch.Labelled)
    (fun _ _ _ labelled stepped _ => labelled_step labelled stepped) ?_ ran batch carried
  rintro batch (⟨key, found⟩ | ⟨request, member, _⟩ | inPhase | ⟨call, member, _⟩)
  · simp [start] at found
  · cases member
  · simp [start, Phase.batches] at inPhase
  · cases member

theorem run_headers_agree_sent :
    Exists fun world => (start .idempotent).run .idempotent (delivery.take 29) = some world ∧
      world.requests.length = 1 ∧ forall request, request ∈ world.requests ->
        request.batch.Labelled :=
  ⟨_, rfl, rfl, fun request member => @run_headers_agree .idempotent (delivery.take 29) _ rfl _
    (.inr (.inl ⟨request, member, rfl⟩))⟩

end World

end Producer
end Krabka
