import Krabka.Producer.Failure
import Krabka.Producer.Isolation

namespace Krabka
namespace Producer

open Collections List Option

/-!
# Atomic commit

`end_transaction(true)` flushes, looks for an abortable error of the
transaction and sends `EndTxn`.  The look misses three kinds of failure: a
fatal error or a fence, an abort that was started before and given up, and the
records that escape the flush.  `CommitSafe` excludes them.  Then every record
of a transaction that is committed was acknowledged.
-/

/-- `EndTxn` commits, and `end_transaction(true)` returns `Ok`, only when every
record of the transaction was acknowledged and none of them failed. -/
def CommitAtomic (before : List Event) (event : Event) : Prop :=
  match event with
  | .endTxn transaction true | .ended transaction true =>
    forall record, transactionOf before record = some transaction ->
      record ∈ ackedHandles before ∧ record ∉ failedHandles before
  | _ => True

/-- The `end_transaction` of the task is a commit that passed its checks. -/
def Task.committing : Task -> Bool
  | .coordinator committed _ => committed
  | .sendEndTxn committed _ => committed
  | .applyEndTxn committed _ _ _ => committed
  | .clearAbortable committed => committed
  | .becomeReady committed => committed
  | _ => false

variable {task : Task}

namespace World

/-- The client call that `act` continues. -/
def taskAt (world : World) : Act -> Option Task
  | .task index _ => world.tasks[index]?
  | _ => none

/-- A commit looks at the in-flight counter while the sender holds no expired
batches, and at the error of the transaction while there is no fatal error, no
fence and no earlier abort. -/
def looksSafe (world : World) (act : Act) : Bool :=
  match world.taskAt act with
  | some (.flush (.commit _) _ (.scan _ [])) => world.phase.taken.isEmpty
  | some (.checkCommit _) =>
    world.state = .active && world.txnError.fatal?.isNone &&
      !world.log.contains (.aborting world.transactions)
  | _ => true

/-- The looks of a commit are safe, and no split batch goes back to an
accumulator that the flush pass of a commit is done with. -/
def CommitSafe (world : World) (act : Act) : Prop :=
  (world.returned act).any (fun key =>
    world.tasks.any (fun task => task.ending && task.passed key)) = false ∧
      world.looksSafe act = true
deriving Decidable

variable {config : Config} {world next : World} {act : Act}

/-! ## What a commit knows -/

def Acknowledged (world : World) : Prop :=
  forall record, transactionOf world.log record = some world.transactions ->
    record ∈ ackedHandles world.log

def CommitKnows (world : World) (task : Task) : Prop :=
  match task with
  | .flush (.commit _) since _ => since = (acceptances world.log).length ∧ world.FlushKnows task
  | .checkCommit _ => world.Settled (acceptances world.log).length
  | _ => task.committing = true -> world.Acknowledged

theorem Task.ending_of_committing (committing : task.committing = true) :
    task.ending = true := by
  cases task <;> first
    | rfl
    | cases committing

/-- A required recovery ends the transaction. -/
def Recovering (world : World) : Prop :=
  world.recoveryRequired = true ->
    world.txnState = .recoveryRequired ∨ Task.requireRecovery ∈ world.tasks

theorem Recovering.step (recovering : world.Recovering) (exclusive : world.Exclusive)
    (stepped : world.step config act = some next) : next.Recovering := by
  intro required
  rcases step_recovery stepped with ⟨same, _⟩ | ⟨_, member⟩
  · rcases recovering (same ▸ required) with stopped | member
    · left
      rcases act.task_or_not with ⟨index, choice, rfl⟩ | notTask
      · rcases advanceTask_cut stepped with ⟨task, result, after, found, cut, rfl⟩
        rcases taskStep_txnState cut with kept | ending | ⟨_, free, _⟩ | ⟨_, ready, _⟩
        · exact kept.trans stopped
        · have held := exclusive.busy task (mem_of_getElem? found) ending
          rw [stopped] at held
          cases held
        · rw [stopped] at free
          rcases free with inside | prepared
          · cases inside
          · cases prepared
        · rw [stopped] at ready
          cases ready
      · rcases step_txnState notTask stepped with kept | ⟨inside, _, _⟩
        · exact kept.trans stopped
        · rw [stopped] at inside
          cases inside
    · rcases step_tasks stepped with kept | ⟨call, task, _, _, rfl⟩ |
        ⟨index, choice, task, result, after, rfl, found, cut, rfl⟩
      · exact .inr (kept ▸ member)
      · exact .inr (mem_append_left _ member)
      · rcases mem_iff_getElem?.mp member with ⟨other, atOther⟩
        by_cases sameIndex : other = index
        · subst sameIndex
          rw [atOther] at found
          cases found
          cases cut
          exact .inl rfl
        · right
          apply mem_of_getElem? (i := other)
          rw [getElem?_set_ne (Ne.symm sameIndex)]
          exact atOther
  · exact .inr member

theorem Acknowledged.grown {events : List Event} (acknowledged : world.Acknowledged)
    (same : next.transactions = world.transactions) (log : next.log = world.log ++ events)
    (accepted : acceptances next.log = acceptances world.log) : next.Acknowledged := by
  intro record ofOpen
  rw [transactionOf, accepted, same] at ofOpen
  rw [log, ackedHandles_append]
  exact mem_append_left _ (acknowledged record ofOpen)

theorem CommitKnows.step (knows : world.CommitKnows task) (member : task ∈ world.tasks)
    (exclusive : world.Exclusive) (transactional : config.transactional = true)
    (invariant : world.Invariant)
    (ahead : task.ending = true -> (world.returned act).any task.passed = false)
    (stepped : world.step config act = some next) : next.CommitKnows task := by
  have accepted : task.ending = true -> acceptances next.log = acceptances world.log :=
    fun ends => exclusive.acceptances_eq transactional member ends stepped
  have acknowledged : (task.committing = true -> world.Acknowledged) ->
      task.committing = true -> next.Acknowledged := by
    intro known committing
    have ends := Task.ending_of_committing committing
    rcases step_transactions stepped with same | ⟨_, _, ready⟩
    · rcases step_adds stepped with ⟨events, log, _⟩
      exact (known committing).grown same log (accepted ends)
    · have held := exclusive.busy task member ends
      rw [ready] at held
      cases held
  cases task with
  | flush purpose since flushing =>
    cases purpose with
    | commit previous =>
      exact ⟨by rw [accepted rfl]; exact knows.1, knows.2.step invariant (ahead rfl) stepped⟩
    | _ => exact fun committing => by cases committing
  | checkCommit previous =>
    have settled : next.Settled (acceptances world.log).length := Settled.step knows stepped
    rw [← accepted rfl] at settled
    exact settled
  | _ => exact acknowledged knows

/-! ## The look at the error -/

/-- Nothing failed in a transaction whose commit finds no error. -/
theorem clean_of_checkCommit {index : Nat} {choice : TaskChoice} {previous : TxnState}
    (found : world.tasks[index]? = some (.checkCommit previous)) (exclusive : world.Exclusive)
    (recovering : world.Recovering) (safe : world.looksSafe (.task index choice) = true)
    (noAbortable : world.txnError.abortable?.isSome = false) : world.Clean := by
  have alone : forall task, task ∈ world.tasks -> task.ending = true ->
      task = .checkCommit previous := by
    intro task member ends
    rcases mem_iff_getElem?.mp member with ⟨other, atOther⟩
    have same := exclusive.single other index task _ atOther found ends rfl
    rw [same, found] at atOther
    exact (some.inj atOther).symm
  have busy := exclusive.busy _ (mem_of_getElem? found) rfl
  simp only [looksSafe, taskAt, found, Bool.and_eq_true, decide_eq_true_eq,
    isNone_iff_eq_none, Bool.not_eq_true', contains_eq_mem,
    decide_eq_false_iff_not] at safe
  refine ⟨.inr ⟨busy, ?_⟩, ?_, safe.1.1, ?_, safe.2⟩
  · intro committed member
    exact absurd (alone _ member rfl) (by simp)
  · cases isError : world.txnError with
    | none => rfl
    | abortable error =>
      rw [isError] at noAbortable
      cases noAbortable
    | fatal error =>
      have noFatal := safe.1.2
      rw [isError] at noFatal
      cases noFatal
  · by_contra required
    rcases recovering (Bool.eq_true_of_not_eq_false required) with stopped | member
    · rw [busy] at stopped
      cases stopped
    · exact absurd (alone _ member rfl) (by simp)

theorem acknowledged_of_settled (settled : world.Settled (acceptances world.log).length)
    (clean : world.Clean) (reported : world.Reported) : world.Acknowledged := by
  intro record ofOpen
  have resolved := settled record (lt_of_transactionOf ofOpen)
  rcases mem_append.mp ((resolvedHandles_perm world.log).mem_iff.mp resolved) with acked | failed
  · exact acked
  · exact absurd (.inl failed) (reported clean record ofOpen)

/-- The flush of a commit ends at its look at the counter. -/
theorem scan_of_ok {choice : TaskChoice} {flushing : Flushing}
    (ended : world.flushStep choice flushing = .ok) :
    (Exists fun scanned => flushing = .scan scanned []) ∧ world.inFlight = 0 := by
  unfold flushStep at ended
  repeat' split at ended
  all_goals first
    | cases ended; done
    | exact ⟨⟨_, rfl⟩, by assumption⟩

theorem CommitKnows.cut {index : Nat} {choice : TaskChoice} {task after : Task}
    (knows : world.CommitKnows task) (found : world.tasks[index]? = some task)
    (reports : world.Reports) (recovering : world.Recovering) (invariant : world.Invariant)
    (safe : world.looksSafe (.task index choice) = true)
    (stepped : world.taskStep choice task = some (next, after)) : next.CommitKnows after := by
  cases task with
  | flush purpose since flushing =>
    simp only [taskStep] at stepped
    cases result : world.flushStep choice flushing with
    | again following =>
      simp only [result] at stepped
      cases stepped
      cases purpose with
      | commit previous => exact ⟨knows.1, knows.2.again reports.opened result⟩
      | _ => exact fun committing => by cases committing
    | ok =>
      simp only [result] at stepped
      cases stepped
      cases purpose with
      | commit previous =>
        rcases scan_of_ok result with ⟨⟨scanned, rfl⟩, zero⟩
        simp only [looksSafe, taskAt, found, List.isEmpty_iff] at safe
        have settled := knows.2.settled invariant safe zero
        rw [knows.1] at settled
        intro record early
        have same : acceptances (world.log ++ [Event.flushed since]) = acceptances world.log := by
          simp [acceptances]
        simp only [emit] at early
        rw [same] at early
        rw [emit, resolvedHandles_append]
        exact mem_append_left _ (settled record early)
      | _ => exact fun committing => by cases committing
    | failed =>
      simp only [result] at stepped
      cases stepped
      cases purpose <;> exact fun committing => by cases committing
  | endTransaction committed =>
    simp only [taskStep, endTransactionStep] at stepped
    split_ifs at stepped <;> cases stepped
    · exact ⟨rfl, Nat.le_refl _, trivial⟩
    · exact fun committing => by cases committing
    · exact fun committing => by cases committing
  | checkCommit previous =>
    simp only [taskStep] at stepped
    split_ifs at stepped with abortable <;> cases stepped
    · exact fun committing => by cases committing
    · intro _
      have clean := clean_of_checkCommit found reports.exclusive recovering safe
        (Bool.eq_false_of_not_eq_true abortable)
      exact acknowledged_of_settled knows clean reports.reported
  | sendEndTxn committed previous =>
    have grown : (committed = true -> world.Acknowledged) -> committed = true ->
        (world.emit [.endTxn world.transactions committed]).Acknowledged := by
      intro known committing
      exact (known committing).grown rfl rfl (by simp [emit, acceptances])
    simp only [taskStep] at stepped
    split at stepped <;> cases stepped <;> exact grown knows
  | applyEndTxn committed previous decision identity =>
    simp only [taskStep, applyEndTxnStep] at stepped
    repeat' split at stepped
    all_goals cases stepped
    all_goals first
      | exact knows
      | exact fun committing => by cases committing
  | coordinator committed previous =>
    simp only [taskStep] at stepped
    split_ifs at stepped <;> cases stepped
    · exact knows
    · exact fun committing => by cases committing
  | clearAbortable committed =>
    cases stepped
    exact knows
  | sweep previous swept remaining =>
    cases remaining <;> cases stepped <;> exact fun committing => by cases committing
  | done => cases stepped
  | _ =>
    simp only [taskStep] at stepped
    repeat' split at stepped
    all_goals
      cases stepped
      exact fun committing => by cases committing

/-! ## Runs -/

/-- What a transactional producer keeps about its commits. -/
structure Commits (world : World) : Prop where
  reports : world.Reports
  recovering : world.Recovering
  knows : forall task, task ∈ world.tasks -> world.CommitKnows task

theorem Commits.step (commits : world.Commits) (transactional : config.transactional = true)
    (invariant : world.Invariant) (safe : world.CommitSafe act)
    (stepped : world.step config act = some next) : next.Commits := by
  refine ⟨commits.reports.step transactional invariant stepped,
    commits.recovering.step commits.reports.exclusive stepped, ?_⟩
  have kept : forall task, task ∈ world.tasks -> next.CommitKnows task := by
    intro task member
    refine (commits.knows task member).step member commits.reports.exclusive transactional invariant
      ?_ stepped
    intro ends
    have unpassed := safe.1
    cases back : world.returned act with
    | none => rfl
    | some key =>
      rw [back, any_some] at unpassed
      have notPassed := any_eq_false.mp unpassed task member
      rw [ends, Bool.true_and] at notPassed
      exact Bool.eq_false_of_not_eq_true notPassed
  intro task member
  rcases step_tasks stepped with same | ⟨call, opened, rfl, started, rfl⟩ |
    ⟨index, choice, before, result, after, rfl, found, cut, rfl⟩
  · exact kept task (same ▸ member)
  · rcases mem_append.mp member with old | isNew
    · exact kept task old
    · rw [mem_singleton.mp isNew]
      cases call <;> simp only [openTask] at started <;> (try split_ifs at started) <;>
        cases started <;> exact fun committing => by cases committing
  · rcases mem_or_eq_of_mem_set member with old | isNew
    · exact kept task old
    · rw [isNew]
      have knows : result.CommitKnows after :=
        (commits.knows before (mem_of_getElem? found)).cut found commits.reports
          commits.recovering invariant safe.2 cut
      exact knows

theorem Commits.atomic (commits : world.Commits) (invariant : world.Invariant)
    (member : task ∈ world.tasks) (committing : task.committing = true) (record : Nat)
    (inside : transactionOf world.log record = some world.transactions) :
    record ∈ ackedHandles world.log ∧ record ∉ failedHandles world.log := by
  have knows := commits.knows task member
  have acknowledged : world.Acknowledged := by
    cases task <;> first
      | exact knows committing
      | cases committing
  have acked := acknowledged record inside
  exact ⟨acked, disjoint_of_nodup_append invariant.sound.resolved_nodup acked⟩

/-- In every run of a transactional producer whose commits look safely, a
transaction is committed only when every record of it was acknowledged. -/
theorem run_commit_atomic {config : Config} {acts : List Act} {world : World}
    (transactional : config.transactional = true)
    (safe : Transition.Along (step config) CommitSafe (start config) acts)
    (ran : (start config).run config acts = some world) : world.Recorded CommitAtomic := by
  have known : world.Commits ∧ world.Recorded CommitAtomic := by
    apply run_induction_along (fun world => world.Commits ∧ world.Recorded CommitAtomic) ?_ ?_
      safe ran
    · intro before act after invariant known admitted stepped
      refine ⟨known.1.step transactional invariant admitted stepped, known.2.step ?_ stepped⟩
      intro event adds marked
      cases adds with
      | @endTxn _ _ committed _ found | @ended _ _ committed found =>
        cases committed with
        | true => exact known.1.atomic invariant (mem_of_getElem? found) rfl
        | false => trivial
      | plain unmarked =>
        have plain := unmarked event mem_cons_self
        simp [plain] at marked
      | _ => trivial
    · refine ⟨⟨start_reports config, ?_, ?_⟩, recorded_start config⟩
      · exact fun required => by cases required
      · exact nofun
  exact known.2

open Sample

theorem run_commit_atomic_delivery :
    Exists fun world => (start .transacting).run .transacting
        (transaction [] 0 ++ cuts 8 ++ ending true 11) = some world ∧
      ackedHandles world.log = [0, 1] ∧ Event.endTxn 1 true ∈ world.log ∧
      world.Recorded CommitAtomic :=
  ⟨_, rfl, rfl, by decide, run_commit_atomic rfl
    (by decide : Transition.Along (step .transacting) CommitSafe (start .transacting)
      (transaction [] 0 ++ cuts 8 ++ ending true 11)) rfl⟩

/-- The broker refuses the transactional id while the commit waits in its flush.
Both records fail, the error of the transaction is fatal, and the commit sends
`EndTxn` all the same and returns `Ok`. -/
theorem commit_after_fatal :
    Exists fun world => (start .transacting).run .transacting
        (transaction (ending true 2) Codes.TRANSACTIONAL_ID_AUTHORIZATION_FAILED ++ cuts 8 ++
          List.replicate 9 (cut 1)) = some world ∧
      transactionOf world.log 0 = some 1 ∧ transactionOf world.log 1 = some 1 ∧
      ackedHandles world.log = [] ∧ failedHandles world.log = [0, 1] ∧
      world.log.dropWhile (fun event => event != .flushed 2) =
        [.flushed 2, .endTxn 1 true, .ended 1 true] :=
  ⟨_, rfl, rfl, rfl, rfl, rfl, by decide⟩

end World

end Producer
end Krabka
