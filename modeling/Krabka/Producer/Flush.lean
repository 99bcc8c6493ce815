import Krabka.Producer.Resolution

namespace Krabka
namespace Producer

open Collections List

/-!
# `flush`

`flush` looks at one accumulator after another and then at the in-flight
counter, while the sender moves records both ways between them.  A record
accepted before the call escapes both looks in two ways only: a split batch
goes back to an accumulator that the pass is done with, or the sender holds
expired batches that it took from the accumulators and did not fail yet.
-/

/-- `flush` returns `Ok` only when every record accepted before the call is
resolved. -/
def FlushComplete (before : List Event) (event : Event) : Prop :=
  match event with
  | .flushed since => forall record, record < since -> record ∈ resolvedHandles before
  | _ => True

/-- Whether the task is a flush pass that is done with the accumulator of
`key`. -/
def Task.passed (task : Task) (key : TopicPartition) : Bool :=
  match task with
  | .flush _ _ (.scan scanned _) => scanned.contains key
  | _ => false

namespace World

/-- Whether a flush pass in progress is done with the accumulator of `key`. -/
def passed (world : World) (key : TopicPartition) : Bool :=
  world.tasks.any (fun task => task.passed key)

/-- Whether `act` is the look of a flush at the in-flight counter. -/
def readsCounter (world : World) : Act -> Bool
  | .task index _ =>
    match world.tasks[index]? with
    | some (.flush _ _ (.scan _ [])) => true
    | _ => false
  | _ => false

/-- No batch goes back behind a flush pass, and no flush looks at the counter
while the sender holds expired batches. -/
def FlushSafe (world : World) (act : Act) : Prop :=
  (world.returned act).any world.passed = false ∧
    (world.readsCounter act = true -> world.phase.taken = [])
deriving Decidable

def Opened (world : World) : Prop :=
  forall record key, partitionOf world.log record = some key ->
    world.accumulators.contains key = true

/-- What a flush knows at its place: the accumulators it looked at hold no record
accepted before the call, and it looks at those of every such record. -/
def FlushKnows (world : World) : Task -> Prop
  | .flush _ since flushing => since ≤ (acceptances world.log).length ∧
      match flushing with
      | .scan scanned remaining =>
        (forall key, key ∈ scanned -> forall record, record ∈ world.queue key ->
          since ≤ record) ∧
        forall record, record < since -> forall key, partitionOf world.log record = some key ->
          key ∈ scanned ∨ key ∈ remaining
      | _ => True
  | _ => True

theorem queue_eq_nil {world : World} {key : TopicPartition} (isEmpty : world.isEmptyAt key = true) :
    world.queue key = [] := by
  rw [isEmptyAt] at isEmpty
  rw [queue]
  cases found : world.accumulators.get? key with
  | none => rfl
  | some accumulator =>
    rw [found] at isEmpty
    simp only [Bool.and_eq_true, Bool.not_eq_true', List.isEmpty_iff] at isEmpty
    exact congrArg handles (Accumulator.queued_eq_nil isEmpty.1 isEmpty.2)

section Steps

variable {config : Config} {world next : World} {act : Act}

theorem Opened.step (opened : world.Opened) (stepped : world.step config act = some next) :
    next.Opened := by
  rcases step_adds stepped with ⟨events, log, adds⟩
  intro record key owned
  apply step_opened stepped
  by_cases old : record < (acceptances world.log).length
  · rw [log, partitionOf_append events old] at owned
    exact opened record key owned
  · rw [log, partitionOf, acceptances_append, getElem?_append_right (Nat.not_lt.mp old)] at owned
    rcases adds.acceptances_eq with none | ⟨added, generation, _, known, one⟩
    · rw [none] at owned
      simp at owned
    · rw [one] at owned
      cases position : record - (acceptances world.log).length with
      | zero =>
        rw [position] at owned
        have same : added = key := by simpa using owned
        exact same ▸ known
      | succ later =>
        rw [position] at owned
        simp at owned

/-- A step keeps what a flush knows, unless it gives a batch back behind it. -/
theorem FlushKnows.step {task : Task} (knows : world.FlushKnows task)
    (invariant : world.Invariant) (ahead : (world.returned act).any task.passed = false)
    (stepped : world.step config act = some next) : next.FlushKnows task := by
  rcases step_adds stepped with ⟨events, log, _⟩
  have refined := invariant.refined stepped
  have grown : (acceptances world.log).length ≤ (acceptances next.log).length := by
    rw [log, acceptances_append, length_append]
    exact Nat.le_add_right _ _
  cases task with
  | flush purpose since flushing =>
    refine ⟨knows.1.trans grown, ?_⟩
    cases flushing with
    | scan scanned remaining =>
      refine ⟨?_, ?_⟩
      · intro key looked record queued
        rcases refined.move.mem_queue queued with before | isNew | back
        · exact knows.2.1 key looked record before
        · apply knows.1.trans
          simpa [ledger] using isNew
        · rw [back, Option.any_some] at ahead
          exact absurd looked (by simpa [Task.passed] using ahead)
      · intro record early key owned
        rw [log, partitionOf_append events (early.trans_le knows.1)] at owned
        exact knows.2.2 record early key owned
    | _ => trivial
  | _ => trivial

/-- The next cut of a flush. -/
theorem FlushKnows.again {choice : TaskChoice} {purpose : Purpose} {since : Nat}
    {flushing after : Flushing} (knows : world.FlushKnows (.flush purpose since flushing))
    (opened : world.Opened) (stepped : world.flushStep choice flushing = .again after) :
    world.FlushKnows (.flush purpose since after) := by
  refine ⟨knows.1, ?_⟩
  cases flushing with
  | start =>
    rw [flushStep] at stepped
    split_ifs at stepped
    cases stepped
    trivial
  | waiting =>
    rw [flushStep] at stepped
    split_ifs at stepped
    cases stepped
    refine ⟨fun key looked => absurd looked not_mem_nil, ?_⟩
    intro record early key owned
    right
    rw [keys, (arrange_perm _ id world.accumulators.keys).mem_iff, SortedMap.mem_keys_iff]
    exact opened record key owned
  | scan scanned remaining =>
    cases remaining with
    | nil =>
      rw [flushStep] at stepped
      split_ifs at stepped
      cases stepped
      trivial
    | cons key rest =>
      rw [flushStep] at stepped
      split_ifs at stepped with late isEmpty <;> cases stepped
      · refine ⟨?_, ?_⟩
        · intro other looked record queued
          rcases mem_append.mp looked with before | here
          · exact knows.2.1 other before record queued
          · rw [mem_singleton.mp here, queue_eq_nil isEmpty] at queued
            cases queued
        · intro record early other owned
          rcases knows.2.2 record early other owned with before | after
          · exact .inl (mem_append_left _ before)
          · rcases mem_cons.mp after with here | later
            · exact .inl (mem_append_right _ (mem_singleton.mpr here))
            · exact .inr later
      · trivial

/-- A cut of a client call leaves its task with what it knows. -/
theorem FlushKnows.cut {choice : TaskChoice} {task after : Task} (knows : world.FlushKnows task)
    (opened : world.Opened) (stepped : world.taskStep choice task = some (next, after)) :
    next.FlushKnows after := by
  cases task with
  | flush purpose since flushing =>
    simp only [taskStep] at stepped
    cases result : world.flushStep choice flushing <;> simp only [result] at stepped <;>
      cases stepped
    · exact knows.again opened result
    · cases purpose <;> trivial
    · cases purpose <;> trivial
  | endTransaction committed =>
    simp only [taskStep, endTransactionStep] at stepped
    split_ifs at stepped <;> cases stepped
    · exact ⟨Nat.le_refl _, trivial⟩
    · trivial
    · trivial
  | sweep previous swept remaining => cases remaining <;> cases stepped <;> trivial
  | done => cases stepped
  | _ =>
    simp only [taskStep, applyEndTxnStep] at stepped
    repeat' split at stepped
    all_goals
      cases stepped
      trivial

/-- Every flush in progress knows what it needs. -/
def Flushes (world : World) : Prop :=
  world.Opened ∧ forall task, task ∈ world.tasks -> world.FlushKnows task

theorem Flushes.step (flushes : world.Flushes) (invariant : world.Invariant)
    (safe : world.FlushSafe act) (stepped : world.step config act = some next) :
    next.Flushes := by
  refine ⟨flushes.1.step stepped, ?_⟩
  have kept : forall task, task ∈ world.tasks -> next.FlushKnows task := by
    intro task member
    refine (flushes.2 task member).step invariant ?_ stepped
    have unpassed := safe.1
    cases back : world.returned act with
    | none => rfl
    | some key =>
      rw [back] at unpassed
      exact Bool.eq_false_of_not_eq_true (any_eq_false.mp unpassed task member)
  intro task member
  rcases step_tasks stepped with same | ⟨call, opened, rfl, started, rfl⟩ |
    ⟨index, choice, before, result, after, rfl, found, cut, rfl⟩
  · exact kept task (same ▸ member)
  · rcases mem_append.mp member with old | isNew
    · exact kept task old
    · rw [mem_singleton.mp isNew]
      cases call with
      | flush | close =>
        cases started
        exact ⟨Nat.le_refl _, trivial⟩
      | _ =>
        simp only [openTask] at started
        try split_ifs at started
        all_goals
          cases started
          trivial
  · rcases mem_or_eq_of_mem_set member with old | isNew
    · exact kept task old
    · rw [isNew]
      have knows : result.FlushKnows after :=
        (flushes.2 before (mem_of_getElem? found)).cut flushes.1 cut
      exact knows

/-- The look at the counter ends a complete flush. -/
theorem FlushKnows.settled {purpose : Purpose} {since : Nat} {scanned : List TopicPartition}
    (knows : world.FlushKnows (.flush purpose since (.scan scanned []))) (invariant : world.Invariant)
    (noneTaken : world.phase.taken = []) (idle : world.inFlight = 0) : world.Settled since := by
  rcases knows with ⟨begun, looked, all⟩
  refine settled_of_clear invariant ?_ begun noneTaken idle
  intro key _ record queued
  by_contra early
  have owned := invariant.sound.owner_of_queued queued
  rw [owner_eq_partitionOf] at owned
  rcases all record (Nat.not_le.mp early) key owned with here | nowhere
  · exact early (looked key here record queued)
  · cases nowhere

end Steps

theorem run_flushes {config : Config} {acts : List Act} {world : World}
    (safe : Transition.Along (step config) FlushSafe (start config) acts)
    (ran : (start config).run config acts = some world) :
    world.Flushes ∧ world.Recorded FlushComplete := by
  apply run_induction_along (fun world => world.Flushes ∧ world.Recorded FlushComplete) ?_ ?_
    safe ran
  · intro before act after invariant known admitted stepped
    refine ⟨known.1.step invariant admitted stepped, known.2.step ?_ stepped⟩
    intro event adds marked
    cases adds with
    | flushed found idle =>
      refine (known.1.2 _ (mem_of_getElem? found)).settled invariant ?_ idle
      apply admitted.2
      simp only [readsCounter, found]
    | plain unmarked =>
      have plain := unmarked event mem_cons_self
      simp [plain] at marked
    | _ => trivial
  · refine ⟨⟨?_, ?_⟩, recorded_start config⟩
    · intro record key owned
      simp [start, partitionOf, acceptances] at owned
    · intro task member
      cases member

/-- In every run in which no batch goes back behind a flush pass and no flush
looks at the counter while the sender holds expired batches, a flush that
returns `Ok` leaves no record behind that was accepted before the call. -/
theorem run_flush_complete {config : Config} {acts : List Act} {world : World}
    (safe : Transition.Along (step config) FlushSafe (start config) acts)
    (ran : (start config).run config acts = some world) : world.Recorded FlushComplete :=
  (run_flushes safe ran).2

end World

namespace Sample

/-- The next cut of the first client call. -/
def look : Act := .task 0 ⟨[], false, true, none⟩

def sendTwo (between : List Act) (code : Int) : List Act :=
  [.openAccumulator orders, .append orders payload, .append orders payload, .call .flush, look] ++
    cuts 25 ++ [.poll 0 true 0] ++ between ++ [.answer 0 (some ⟨code, 10, -1, 0⟩) (-1) 0,
      .complete [0]] ++ cuts 8

end Sample

namespace World

open Sample

theorem run_flush_complete_delivery :
    Exists fun world => (start .idempotent).run .idempotent
        (sendTwo [] 0 ++ [look, look, look]) = some world ∧
      Event.flushed 2 ∈ world.log ∧ world.Recorded FlushComplete :=
  ⟨_, rfl, by decide, run_flush_complete
    (by decide : Transition.Along (step .idempotent) FlushSafe (start .idempotent)
      (sendTwo [] 0 ++ [look, look, look])) rfl⟩

/-- The flush finds the accumulator empty while the batch is on the wire, then the
batch is split and goes back, and the flush finds the counter at 0. -/
theorem flush_misses_split :
    Exists fun world => (start .idempotent).run .idempotent
        (sendTwo [look, look] Codes.MESSAGE_TOO_LARGE ++ [look]) = some world ∧
      Event.flushed 2 ∈ world.log ∧ resolvedHandles world.log = [] :=
  ⟨_, rfl, by decide, rfl⟩

-- The other escape: the sender took an expired batch and did not fail it yet.
example : Exists fun world => (start .idempotent).run .idempotent
        ([.openAccumulator orders, .append orders payload, .call .flush, look, .tick 200] ++
          cuts 10 ++ [look, look, look]) = some world ∧
      Event.flushed 1 ∈ world.log ∧ resolvedHandles world.log = [] :=
  ⟨_, rfl, by decide, rfl⟩

end World

end Producer
end Krabka
