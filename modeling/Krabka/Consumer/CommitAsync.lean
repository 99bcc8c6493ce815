import Krabka.Transition
import Mathlib.Data.List.Basic
import Mathlib.Data.List.Nodup
import Mathlib.Data.List.Perm.Basic

namespace Krabka
namespace Consumer
namespace CommitAsync

open List Option

/-!
# Coalesced asynchronous commits

`commit_async` and `commit_async_with_callback` of `commit.rs`.  Every caller and
every worker is a program with a place in it, and a step is one atomic access to
the shared state: the flag, the callback queue, the commit mutex or the offsets.
The group id check at the start and the result of the request are left out.

At any time one party is in charge, `Token`: nobody while the flag is `IDLE`, the
caller between its compare-exchange and the spawn, or the worker.  `Moves` says
what each step does to the token, and the invariants are proved from it.
-/

inductive AsyncState where
  | idle
  | running
  | dirty
deriving DecidableEq, Repr

/-- The place of a caller in `commit_async_with_callback`. -/
inductive CallPlace where
  /-- Push the callback. -/
  | push
  | load
  /-- Exchange `IDLE` for `RUNNING`. -/
  | tryStart
  /-- Exchange `RUNNING` for `DIRTY`. -/
  | tryMark
  | spawn
  | done
deriving DecidableEq, Repr

structure Caller where
  callback : Bool
  place : CallPlace
deriving DecidableEq, Repr

/-- The place of a worker, with the callbacks it took. -/
inductive Worker where
  | lock
  | store
  | take
  | snapshot (waiting : List Nat)
  | send (waiting : List Nat)
  | callbacks (waiting : List Nat)
  /-- Exchange `RUNNING` for `IDLE`. -/
  | finish
  /-- Exchange `DIRTY` for `RUNNING`. -/
  | again
  | gone
deriving DecidableEq, Repr

/-- `commit_serialization`. -/
inductive Mutex where
  | free
  | worker
  | other
deriving DecidableEq, Repr

/-- A caller is named by its number. -/
inductive Event where
  | called (call : Nat)
  /-- The step that makes the call part of a commit. -/
  | scheduled (call : Nat)
  /-- A worker read the offsets that it commits. -/
  | snapshot
  | ran (call : Nat)
deriving DecidableEq, Repr

structure World where
  flag : AsyncState
  queue : List Nat
  callers : List Caller
  workers : List Worker
  mutex : Mutex
  log : List Event
deriving DecidableEq, Repr

inductive Act where
  /-- A new call, with or without a callback. -/
  | call (callback : Bool)
  | caller (index : Nat)
  | worker (index : Nat)
  /-- Another commit takes the mutex. -/
  | lockOther
  | unlockOther
deriving DecidableEq, Repr

namespace World

def start : World := ⟨.idle, [], [], [], .free, []⟩

def emit (world : World) (event : Event) : World := { world with log := world.log ++ [event] }

def setPlace (world : World) (index : Nat) (callback : Bool) (place : CallPlace) : World :=
  { world with callers := world.callers.set index ⟨callback, place⟩ }

def setWorker (world : World) (index : Nat) (worker : Worker) : World :=
  { world with workers := world.workers.set index worker }

def call (world : World) (callback : Bool) : World :=
  { world with
    callers := world.callers ++ [⟨callback, if callback then .push else .load⟩]
    log := world.log ++ [.called world.callers.length] }

def callerStep (world : World) (index : Nat) (caller : Caller) : Option World :=
  match caller.place with
  | .push =>
    some ({ world with queue := world.queue ++ [index] }.setPlace index caller.callback .load)
  | .load =>
    match world.flag with
    | .idle => some (world.setPlace index caller.callback .tryStart)
    | .running => some (world.setPlace index caller.callback .tryMark)
    | .dirty => some ((world.setPlace index caller.callback .done).emit (.scheduled index))
  | .tryStart =>
    if world.flag = .idle then
      some (({ world with flag := .running }.setPlace index caller.callback .spawn).emit
        (.scheduled index))
    else some (world.setPlace index caller.callback .load)
  | .tryMark =>
    if world.flag = .running then
      some (({ world with flag := .dirty }.setPlace index caller.callback .done).emit
        (.scheduled index))
    else some (world.setPlace index caller.callback .load)
  | .spawn =>
    some ({ world with workers := world.workers ++ [Worker.lock] }.setPlace index caller.callback .done)
  | .done => none

def workerStep (world : World) (index : Nat) : Worker -> Option World
  | .lock =>
    if world.mutex = .free then some ({ world with mutex := .worker }.setWorker index .store)
    else none
  | .store => some ({ world with flag := .running }.setWorker index .take)
  | .take => some ({ world with queue := [] }.setWorker index (.snapshot world.queue))
  | .snapshot waiting => some ((world.setWorker index (.send waiting)).emit .snapshot)
  | .send waiting => some (world.setWorker index (.callbacks waiting))
  | .callbacks (call :: rest) => some ((world.setWorker index (.callbacks rest)).emit (.ran call))
  | .callbacks [] => some ({ world with mutex := .free }.setWorker index .finish)
  | .finish =>
    if world.flag = .running then some ({ world with flag := .idle }.setWorker index .gone)
    else some (world.setWorker index .again)
  | .again =>
    if world.flag = .dirty then some ({ world with flag := .running }.setWorker index .lock)
    else some (world.setWorker index .gone)
  | .gone => none

def step (world : World) : Act -> Option World
  | .call callback => some (world.call callback)
  | .caller index => (world.callers[index]?).bind (world.callerStep index)
  | .worker index => (world.workers[index]?).bind (world.workerStep index)
  | .lockOther => if world.mutex = .free then some { world with mutex := .other } else none
  | .unlockOther => if world.mutex = .other then some { world with mutex := .free } else none

def run (world : World) (acts : List Act) : Option World := Transition.run step world acts

end World

/-! ## Who is in charge -/

/-- The party in charge of the next commit. -/
inductive Token where
  | free
  | caller (index : Nat)
  | worker (index : Nat) (worker : Worker)
deriving DecidableEq, Repr

namespace World

variable {world next : World} {token after : Token} {act : Act}

def Stands (callers : List Caller) (call : Nat) (stands : Caller -> Prop) : Prop :=
  Exists fun caller => callers[call]? = some caller ∧ stands caller

variable {callers : List Caller} {index call : Nat} {old caller : Caller} {stands : Caller -> Prop}

section

variable (found : callers[index]? = some old)

include found

theorem stands_set :
    Stands (callers.set index caller) call stands <->
      if call = index then stands caller else Stands callers call stands := by
  unfold Stands
  split_ifs with here
  · subst here
    rw [List.getElem?_set_self (List.getElem?_eq_some_iff.mp found).1]
    simp
  · rw [getElem?_set_ne (Ne.symm here)]

/-- A change at one caller that what it stands for does not see. -/
theorem stands_set_same (same : stands caller <-> stands old) :
    Stands (callers.set index caller) call stands <-> Stands callers call stands := by
  rw [stands_set found]
  split_ifs with here
  · subst here
    simp [Stands, found, same]
  · rfl

theorem stands_set_self (isNew : stands caller) :
    Stands (callers.set index caller) call stands <-> call = index ∨ Stands callers call stands := by
  rw [stands_set found]
  split_ifs with here <;> simp [here, isNew]

end

theorem stands_append (notNew : ¬ stands caller) :
    Stands (callers ++ [caller]) call stands <-> Stands callers call stands := by
  unfold Stands
  rw [getElem?_append]
  split_ifs with old
  · rfl
  · rw [getElem?_eq_none (Nat.not_lt.mp old), getElem?_singleton]
    refine ⟨fun ⟨found, isFound, holds⟩ => ?_, nofun⟩
    split_ifs at isFound
    cases isFound
    exact absurd holds notNew

theorem asks_ne {place : CallPlace} (asks : place = .load ∨ place = .tryStart ∨ place = .tryMark) :
    place ≠ .push ∧ place ≠ .spawn ∧ place ≠ .done := by
  rcases asks with rfl | rfl | rfl <;> decide

/-- A caller is about to spawn its worker. -/
def Spawns (callers : List Caller) (index : Nat) : Prop :=
  Exists fun callback => callers[index]? = some ⟨callback, .spawn⟩

/-- The token says who is in charge: every other worker is gone and no other
caller is about to spawn one. -/
structure Holds (world : World) (token : Token) : Prop where
  idle : world.flag = .idle <-> token = .free
  spawns : forall index, Spawns world.callers index <-> token = .caller index
  alive : forall index worker, world.workers[index]? = some worker ->
    worker = .gone ∨ token = .worker index worker
  placed : forall index worker, token = .worker index worker ->
    world.workers[index]? = some worker ∧ worker ≠ .gone ∧ (worker = .again -> world.flag = .dirty)

/-- What a step does, and what it does to the token. -/
inductive Moves (world : World) : Token -> Act -> World -> Token -> Prop where
  | call {token : Token} (callback : Bool) :
      Moves world token (.call callback) (world.call callback) token
  | push {token : Token} {index : Nat} {callback : Bool}
      (found : world.callers[index]? = some ⟨callback, .push⟩) :
      Moves world token (.caller index)
        ({ world with queue := world.queue ++ [index] }.setPlace index callback .load) token
  | look {token : Token} {index : Nat} {callback : Bool} {before place : CallPlace}
      (found : world.callers[index]? = some ⟨callback, before⟩)
      (asks : before = .load ∨ before = .tryStart ∨ before = .tryMark)
      (looks : place = .load ∨ place = .tryStart ∨ place = .tryMark) :
      Moves world token (.caller index) (world.setPlace index callback place) token
  | join {token : Token} {index : Nat} {callback : Bool} {before : CallPlace}
      (found : world.callers[index]? = some ⟨callback, before⟩)
      (asks : before = .load ∨ before = .tryStart ∨ before = .tryMark)
      (busy : world.flag ≠ .idle) :
      Moves world token (.caller index)
        (({ world with flag := .dirty }.setPlace index callback .done).emit (.scheduled index)) token
  | start {index : Nat} {callback : Bool}
      (found : world.callers[index]? = some ⟨callback, .tryStart⟩) :
      Moves world .free (.caller index)
        (({ world with flag := .running }.setPlace index callback .spawn).emit (.scheduled index))
        (.caller index)
  | spawn {index : Nat} {callback : Bool}
      (found : world.callers[index]? = some ⟨callback, .spawn⟩) :
      Moves world (.caller index) (.caller index)
        ({ world with workers := world.workers ++ [Worker.lock] }.setPlace index callback .done)
        (.worker world.workers.length .lock)
  | lock {index : Nat} (free : world.mutex = .free) :
      Moves world (.worker index .lock) (.worker index)
        ({ world with mutex := .worker }.setWorker index .store) (.worker index .store)
  | store {index : Nat} :
      Moves world (.worker index .store) (.worker index)
        ({ world with flag := .running }.setWorker index .take) (.worker index .take)
  | take {index : Nat} :
      Moves world (.worker index .take) (.worker index)
        ({ world with queue := [] }.setWorker index (.snapshot world.queue))
        (.worker index (.snapshot world.queue))
  | snapshot {index : Nat} {waiting : List Nat} :
      Moves world (.worker index (.snapshot waiting)) (.worker index)
        ((world.setWorker index (.send waiting)).emit .snapshot) (.worker index (.send waiting))
  | send {index : Nat} {waiting : List Nat} :
      Moves world (.worker index (.send waiting)) (.worker index)
        (world.setWorker index (.callbacks waiting)) (.worker index (.callbacks waiting))
  | callback {index call : Nat} {rest : List Nat} :
      Moves world (.worker index (.callbacks (call :: rest))) (.worker index)
        ((world.setWorker index (.callbacks rest)).emit (.ran call))
        (.worker index (.callbacks rest))
  | unlock {index : Nat} :
      Moves world (.worker index (.callbacks [])) (.worker index)
        ({ world with mutex := .free }.setWorker index .finish) (.worker index .finish)
  | rest {index : Nat} (running : world.flag = .running) :
      Moves world (.worker index .finish) (.worker index)
        ({ world with flag := .idle }.setWorker index .gone) .free
  | turn {index : Nat} (dirty : world.flag = .dirty) :
      Moves world (.worker index .finish) (.worker index) (world.setWorker index .again)
        (.worker index .again)
  | again {index : Nat} (dirty : world.flag = .dirty) :
      Moves world (.worker index .again) (.worker index)
        ({ world with flag := .running }.setWorker index .lock) (.worker index .lock)
  | lockOther {token : Token} (free : world.mutex = .free) :
      Moves world token .lockOther { world with mutex := .other } token
  | unlockOther {token : Token} (other : world.mutex = .other) :
      Moves world token .unlockOther { world with mutex := .free } token

theorem Holds.moves (holds : world.Holds token) (stepped : world.step act = some next) :
    Exists fun after => Moves world token act next after := by
  cases act with
  | call callback =>
    cases stepped
    exact ⟨token, .call callback⟩
  | lockOther =>
    simp only [step] at stepped
    split_ifs at stepped with isFree
    cases stepped
    exact ⟨token, .lockOther isFree⟩
  | unlockOther =>
    simp only [step] at stepped
    split_ifs at stepped with isOther
    cases stepped
    exact ⟨token, .unlockOther isOther⟩
  | caller index =>
    rcases bind_eq_some_iff.mp stepped with ⟨⟨callback, place⟩, found, stepped⟩
    cases place <;> simp only [callerStep] at stepped
    case push =>
        cases stepped
        exact ⟨token, .push found⟩
    case load =>
        cases isFlag : world.flag <;> simp only [isFlag] at stepped <;> cases stepped
        · exact ⟨token, .look found (.inl rfl) (.inr (.inl rfl))⟩
        · exact ⟨token, .look found (.inl rfl) (.inr (.inr rfl))⟩
        · have joined : Moves world token (.caller index)
              (({ world with flag := .dirty }.setPlace index callback .done).emit
                (.scheduled index)) token :=
            .join found (.inl rfl) (by simp [isFlag])
          rw [← isFlag] at joined
          exact ⟨token, joined⟩
    case tryStart =>
        split_ifs at stepped with isIdle <;> cases stepped
        · rw [holds.idle.mp isIdle]
          exact ⟨.caller index, .start found⟩
        · exact ⟨token, .look found (.inr (.inl rfl)) (.inl rfl)⟩
    case tryMark =>
        split_ifs at stepped with isRunning <;> cases stepped
        · exact ⟨token, .join found (.inr (.inr rfl)) (by simp [isRunning])⟩
        · exact ⟨token, .look found (.inr (.inr rfl)) (.inl rfl)⟩
    case spawn =>
        cases stepped
        rw [(holds.spawns index).mp ⟨callback, found⟩]
        exact ⟨_, .spawn found⟩
    case done => cases stepped
  | worker index =>
    rcases bind_eq_some_iff.mp stepped with ⟨worker, found, stepped⟩
    rcases holds.alive index worker found with rfl | rfl
    · cases stepped
    · cases worker with
      | lock =>
        simp only [workerStep] at stepped
        split_ifs at stepped with free
        cases stepped
        exact ⟨_, .lock free⟩
      | finish =>
        simp only [workerStep] at stepped
        split_ifs at stepped with isRunning <;> cases stepped
        · exact ⟨_, .rest isRunning⟩
        · refine ⟨_, .turn ?_⟩
          cases isFlag : world.flag with
          | idle => cases holds.idle.mp isFlag
          | running => exact absurd isFlag isRunning
          | dirty => rfl
      | again =>
        have dirty := (holds.placed index .again rfl).2.2 rfl
        simp only [workerStep, if_pos dirty] at stepped
        cases stepped
        exact ⟨_, .again dirty⟩
      | callbacks waiting =>
        cases waiting <;> cases stepped
        · exact ⟨_, .unlock⟩
        · exact ⟨_, .callback⟩
      | gone => cases stepped
      | store => cases stepped; exact ⟨_, .store⟩
      | take => cases stepped; exact ⟨_, .take⟩
      | snapshot waiting => cases stepped; exact ⟨_, .snapshot⟩
      | send waiting => cases stepped; exact ⟨_, .send⟩

/-! ## The token is kept -/

theorem spawns_iff : Spawns callers call <-> Stands callers call (·.place = .spawn) := by
  refine ⟨fun ⟨_, found⟩ => ⟨_, found, rfl⟩, ?_⟩
  rintro ⟨⟨callback, place⟩, found, rfl⟩
  exact ⟨callback, found⟩

/-- A step of a caller that is not in charge. -/
theorem Holds.setPlace {changed : World} {callback : Bool} {before place : CallPlace}
    (holds : world.Holds token) (found : world.callers[index]? = some ⟨callback, before⟩)
    (notBefore : before ≠ .spawn) (notAfter : place ≠ .spawn)
    (callers : changed.callers = world.callers.set index ⟨callback, place⟩)
    (workers : changed.workers = world.workers) (idle : changed.flag = .idle <-> world.flag = .idle)
    (dirty : world.flag = .dirty -> changed.flag = .dirty) : changed.Holds token where
  idle := idle.trans holds.idle
  spawns := fun other => by
    rw [callers, ← holds.spawns other, spawns_iff, spawns_iff]
    exact stands_set_same found (by simp [notBefore, notAfter])
  alive := fun other worker isWorker => holds.alive other worker (workers ▸ isWorker)
  placed := fun other worker isToken => by
    have known := holds.placed other worker isToken
    rw [workers]
    exact ⟨known.1, known.2.1, fun isAgain => dirty (known.2.2 isAgain)⟩

theorem Holds.alive_set {other : Nat} {before worker found : Worker}
    (holds : world.Holds (.worker index before))
    (isFound : (world.workers.set index worker)[other]? = some found) :
    found = .gone ∨ other = index ∧ found = worker := by
  rw [getElem?_set] at isFound
  split_ifs at isFound with same
  · exact .inr ⟨same.symm, (some.inj isFound).symm⟩
  · refine (holds.alive other found isFound).imp id fun isToken => ?_
    cases isToken
    exact absurd rfl same

/-- A step of the worker in charge after which it still is. -/
theorem Holds.setWorker {changed : World} {before worker : Worker}
    (holds : world.Holds (.worker index before)) (callers : changed.callers = world.callers)
    (workers : changed.workers = world.workers.set index worker) (busy : changed.flag ≠ .idle)
    (alive : worker ≠ .gone) (dirty : worker = .again -> changed.flag = .dirty) :
    changed.Holds (.worker index worker) where
  idle := ⟨fun isIdle => absurd isIdle busy, nofun⟩
  spawns := fun other => by
    rw [callers, holds.spawns other]
    exact ⟨nofun, nofun⟩
  alive := fun other found isFound => by
    rw [workers] at isFound
    exact (holds.alive_set isFound).imp id fun ⟨same, isWorker⟩ => by rw [same, isWorker]
  placed := fun other found isToken => by
    cases isToken
    have bound := (List.getElem?_eq_some_iff.mp (holds.placed index before rfl).1).1
    rw [workers, getElem?_set_self bound]
    exact ⟨rfl, alive, dirty⟩

theorem Moves.holds (moves : Moves world token act next after) (holds : world.Holds token) :
    next.Holds after := by
  have busy : forall index worker, token = .worker index worker -> world.flag ≠ .idle := by
    intro index worker isToken isIdle
    rw [holds.idle.mp isIdle] at isToken
    cases isToken
  cases moves with
  | call callback =>
    refine { holds with spawns := fun index => ?_ }
    rw [← holds.spawns index, spawns_iff, spawns_iff]
    exact stands_append (by cases callback <;> exact nofun)
  | push found =>
    exact holds.setPlace found (by decide) (by decide) rfl rfl Iff.rfl id
  | look found asks looks =>
    exact holds.setPlace found (asks_ne asks).2.1 (asks_ne looks).2.1 rfl rfl Iff.rfl id
  | join found asks notIdle =>
    exact holds.setPlace found (asks_ne asks).2.1 (by decide) rfl rfl
      ⟨nofun, fun isIdle => absurd isIdle notIdle⟩ (fun _ => rfl)
  | @start index callback found =>
    refine ⟨⟨nofun, nofun⟩, fun other => ?_, fun other worker isWorker => ?_, nofun⟩
    · rw [spawns_iff]
      refine (stands_set found).trans ?_
      rw [← spawns_iff, holds.spawns other]
      simp [eq_comm]
    · rcases holds.alive other worker isWorker with gone | isToken
      · exact .inl gone
      · cases isToken
  | @spawn index callback found =>
    refine ⟨⟨fun isIdle => ?_, nofun⟩, fun other => ?_, fun other worker isWorker => ?_,
      fun other worker isToken => ?_⟩
    · cases holds.idle.mp isIdle
    · rw [spawns_iff]
      refine (stands_set found).trans ?_
      rw [← spawns_iff, holds.spawns other]
      simp [eq_comm]
    · have isWorker : (world.workers ++ [Worker.lock])[other]? = some worker := isWorker
      rw [getElem?_append] at isWorker
      split_ifs at isWorker with old
      · rcases holds.alive other worker isWorker with gone | isToken
        · exact .inl gone
        · cases isToken
      · rw [getElem?_singleton] at isWorker
        split_ifs at isWorker with last
        cases isWorker
        have place : other = world.workers.length := by omega
        exact .inr (by rw [place])
    · cases isToken
      exact ⟨getElem?_concat_length, nofun, nofun⟩
  | lock | take | snapshot | send | callback | unlock =>
    exact holds.setWorker rfl rfl (busy _ _ rfl) nofun nofun
  | store | again => exact holds.setWorker rfl rfl nofun nofun nofun
  | @rest index running =>
    refine ⟨⟨fun _ => rfl, fun _ => rfl⟩, fun other => ?_, fun other worker isWorker => ?_, nofun⟩
    · exact (holds.spawns other).trans ⟨nofun, nofun⟩
    · exact .inl ((holds.alive_set isWorker).elim id And.right)
  | turn dirty => exact holds.setWorker rfl rfl (busy _ _ rfl) nofun (fun _ => dirty)
  | lockOther | unlockOther => exact { holds with }

theorem start_holds : start.Holds .free where
  idle := ⟨fun _ => rfl, fun _ => rfl⟩
  spawns := fun _ => ⟨nofun, nofun⟩
  alive := nofun
  placed := nofun

/-! ## Commits and callbacks -/

end World

/-- The callbacks that ran, in order. -/
def ranCalls (log : List Event) : List Nat :=
  log.filterMap fun
    | .ran call => some call
    | _ => none

/-- The offsets were read after the call began. -/
def Answered (log : List Event) (call : Nat) : Prop :=
  Exists fun before => Exists fun after => log = before ++ .called call :: after ∧
    Event.snapshot ∈ after

/-- The offsets were read after each step that scheduled the call. -/
def Covered (log : List Event) (call : Nat) : Prop :=
  forall before after, log = before ++ .scheduled call :: after -> Event.snapshot ∈ after

variable {call : Nat}

theorem Answered.append {log : List Event} (answered : Answered log call) (events : List Event) :
    Answered (log ++ events) call := by
  rcases answered with ⟨before, after, rfl, read⟩
  exact ⟨before, after ++ events, by simp, mem_append_left _ read⟩

theorem answered_of_called {log : List Event} (called : Event.called call ∈ log) :
    Answered (log ++ [.snapshot]) call := by
  rcases append_of_mem called with ⟨before, after, rfl⟩
  exact ⟨before, after ++ [.snapshot], by simp, mem_concat_self⟩

variable {event : Event}

theorem split_concat {log before after : List Event} {marker : Event}
    (whole : log ++ [event] = before ++ marker :: after) :
    after = [] ∧ event = marker ∨
      Exists fun middle => log = before ++ marker :: middle ∧ after = middle ++ [event] := by
  rcases eq_nil_or_concat after with rfl | ⟨middle, last, rfl⟩
  · have parts := append_inj' whole rfl
    exact .inl ⟨rfl, singleton_inj.mp parts.2⟩
  · have whole : log ++ [event] = (before ++ marker :: middle) ++ [last] := by simpa using whole
    have parts := append_inj' whole rfl
    rw [singleton_inj.mp parts.2, concat_eq_append]
    exact .inr ⟨middle, parts.1, rfl⟩

theorem Covered.concat {log : List Event} (covered : Covered log call)
    (notScheduled : event ≠ .scheduled call) : Covered (log ++ [event]) call := by
  intro before after whole
  rcases split_concat whole with ⟨_, same⟩ | ⟨middle, old, rfl⟩
  · exact absurd same notScheduled
  · exact mem_append_left _ (covered before middle old)

theorem covered_snapshot (log : List Event) (call : Nat) : Covered (log ++ [.snapshot]) call := by
  intro before after whole
  rcases split_concat whole with ⟨_, same⟩ | ⟨middle, _, rfl⟩
  · cases same
  · exact mem_concat_self

namespace Token

/-- The callbacks that the worker in charge took and did not run yet. -/
def waiting : Token -> List Nat
  | .worker _ (.snapshot waiting) => waiting
  | .worker _ (.send waiting) => waiting
  | .worker _ (.callbacks waiting) => waiting
  | _ => []

/-- The party in charge will take the callbacks. -/
def takes : Token -> Bool
  | .caller _ => true
  | .worker _ .lock => true
  | .worker _ .store => true
  | .worker _ .take => true
  | _ => false

/-- The party in charge will read the offsets. -/
def reads : Token -> Bool
  | .worker _ (.snapshot _) => true
  | token => token.takes

/-- The worker in charge has the mutex. -/
def locks : Token -> Bool
  | .worker _ .store => true
  | .worker _ .take => true
  | .worker _ (.snapshot _) => true
  | .worker _ (.send _) => true
  | .worker _ (.callbacks _) => true
  | _ => false

end Token

namespace World

variable {world next : World} {token after : Token} {act : Act}

def Pushed (caller : Caller) : Prop := caller.callback = true ∧ caller.place ≠ .push

/-- The caller did not make its last access to the flag. -/
def Asks (caller : Caller) : Prop :=
  caller.place = .load ∨ caller.place = .tryStart ∨ caller.place = .tryMark

/-- The call was made part of a commit. -/
def Settled (caller : Caller) : Prop := caller.place = .spawn ∨ caller.place = .done

/-- The callbacks that are queued, waiting and done. -/
def custody (world : World) (token : Token) : List Nat :=
  world.queue ++ token.waiting ++ ranCalls world.log

/-- What holds of the commits and callbacks while the token is known. -/
structure Serves (world : World) (token : Token) : Prop where
  covered : world.flag = .dirty ∨ token.reads = true ∨ forall call, Covered world.log call
  queued : forall call, call ∈ world.queue ->
    world.flag = .dirty ∨ token.takes = true ∨ Stands world.callers call Asks
  registers : forall (call : Nat) (callback : Bool),
    world.callers[call]? = some ⟨callback, .push⟩ -> callback = true
  nodup : (world.custody token).Nodup
  pushed : forall call, Stands world.callers call Pushed <-> call ∈ world.custody token
  called : forall call, call < world.callers.length -> Event.called call ∈ world.log
  answered : forall index waiting, token = .worker index (.send waiting) ∨
    token = .worker index (.callbacks waiting) -> forall call, call ∈ waiting ->
      Answered world.log call
  told : forall before call behind, world.log = before ++ .ran call :: behind -> Answered before call
  scheduled : forall call, Stands world.callers call Settled -> Event.scheduled call ∈ world.log
  mutex : world.mutex = .worker <-> token.locks = true

section

variable (moves : Moves world token act next after)

include moves

theorem Moves.log :
    next.log = world.log ∨ Exists fun event => next.log = world.log ++ [event] ∧
      forall call, event = .ran call ->
        Exists fun index => Exists fun rest => token = .worker index (.callbacks (call :: rest)) := by
  cases moves with
  | call | join | start | snapshot => exact .inr ⟨_, rfl, nofun⟩
  | @callback index call rest =>
    refine .inr ⟨_, rfl, fun other same => ?_⟩
    cases same
    exact ⟨index, rest, rfl⟩
  | _ => exact .inl rfl

theorem Moves.mem_log (member : event ∈ world.log) : event ∈ next.log := by
  rcases moves.log with same | ⟨added, log, _⟩
  · exact same ▸ member
  · exact log ▸ mem_append_left _ member

theorem Moves.answered_kept (answered : Answered world.log call) :
    Answered next.log call := by
  rcases moves.log with same | ⟨added, log, _⟩
  · exact same ▸ answered
  · exact log ▸ answered.append [added]

variable (serves : world.Serves token)

include serves

theorem Moves.covered :
    next.flag = .dirty ∨ after.reads = true ∨ forall call, Covered next.log call := by
  have known := serves.covered
  have quiet : token.reads = false -> world.flag = .dirty ∨ forall call, Covered world.log call := by
    intro notReads
    rw [notReads] at known
    exact known.imp id (Or.resolve_left · nofun)
  cases moves with
  | call callback =>
    exact known.imp id (Or.imp id fun covered call => (covered call).concat nofun)
  | push | look | lockOther | unlockOther => exact known
  | join found asks busy => exact .inl rfl
  | snapshot => exact .inr (.inr fun call => covered_snapshot world.log call)
  | send | unlock => exact (quiet rfl).imp id .inr
  | callback => exact (quiet rfl).imp id fun covered => .inr fun call => (covered call).concat nofun
  | rest running =>
    -- The worker rests only when no caller marked the flag since it read the offsets.
    rcases quiet rfl with dirty | covered
    · rw [running] at dirty
      cases dirty
    · exact .inr (.inr covered)
  | turn dirty => exact .inl dirty
  | _ => exact .inr (.inl rfl)

theorem Moves.queued :
    forall call, call ∈ next.queue ->
      next.flag = .dirty ∨ after.takes = true ∨ Stands next.callers call Asks := by
  intro call member
  have quiet : token.takes = false -> call ∈ world.queue ->
      world.flag = .dirty ∨ Stands world.callers call Asks := by
    intro notTakes queued
    have known := serves.queued call queued
    rw [notTakes] at known
    exact known.imp id (Or.resolve_left · nofun)
  cases moves with
  | call callback =>
    refine (serves.queued call member).imp id (Or.imp id ?_)
    rintro ⟨caller, found, asks⟩
    refine ⟨caller, ?_, asks⟩
    exact (List.getElem?_append_left (List.getElem?_eq_some_iff.mp found).1).trans found
  | @push _ index callback found =>
    have asks : forall call, Stands (world.callers.set index ⟨callback, .load⟩) call Asks <->
        call = index ∨ Stands world.callers call Asks :=
      fun _ => stands_set_self found (.inl rfl)
    rcases mem_append.mp member with old | isNew
    · exact (serves.queued call old).imp id (Or.imp id fun stands => (asks call).mpr (.inr stands))
    · exact .inr (.inr ((asks call).mpr (.inl (mem_singleton.mp isNew))))
  | look found asks looks =>
    exact (serves.queued call member).imp id
      (Or.imp id fun stands => (stands_set_self found looks).mpr (.inr stands))
  | join found asks busy => exact .inl rfl
  | take => cases member
  | snapshot | send | callback | unlock => exact (quiet rfl member).imp id .inr
  | rest running =>
    rcases quiet rfl member with dirty | stands
    · rw [running] at dirty
      cases dirty
    · exact .inr (.inr stands)
  | turn dirty => exact .inl dirty
  | lockOther | unlockOther => exact serves.queued call member
  | _ => exact .inr (.inl rfl)

/-- A step moves callbacks, and only `push` adds one. -/
theorem Moves.custody :
    ((next.custody after).Perm (world.custody token) ∧
      forall call, Stands next.callers call Pushed <-> Stands world.callers call Pushed) ∨
    (Exists fun index => ¬ Stands world.callers index Pushed ∧
      (next.custody after).Perm (index :: world.custody token) ∧
      forall call, Stands next.callers call Pushed <->
        call = index ∨ Stands world.callers call Pushed) := by
  have same : forall {index : Nat} {callback : Bool} {before place : CallPlace},
      world.callers[index]? = some ⟨callback, before⟩ -> before ≠ .push -> place ≠ .push ->
      forall call, Stands (world.callers.set index ⟨callback, place⟩) call Pushed <->
        Stands world.callers call Pushed := by
    intro index callback before place found notBefore notAfter
    exact fun _ => stands_set_same found (by simp [Pushed, notBefore, notAfter])
  cases moves with
  | call callback =>
    refine .inl ⟨?_, fun call => stands_append ?_⟩
    · simp [World.custody, World.call, ranCalls]
    · cases callback <;> simp [Pushed]
  | @push _ index callback found =>
    cases serves.registers index callback found
    refine .inr ⟨index, ?_, ?_, fun call => stands_set_self found ⟨rfl, nofun⟩⟩
    · rintro ⟨caller, isCaller, pushed⟩
      rw [found] at isCaller
      cases isCaller
      exact pushed.2 rfl
    · simp only [World.custody, World.setPlace, append_assoc, singleton_append]
      exact perm_middle
  | look found asks looks =>
    exact .inl ⟨List.Perm.refl _, same found (asks_ne asks).1 (asks_ne looks).1⟩
  | join found asks busy =>
    refine .inl ⟨?_, same found (asks_ne asks).1 (by decide)⟩
    simp [World.custody, World.setPlace, World.emit, ranCalls]
  | start found =>
    refine .inl ⟨?_, same found (by decide) (by decide)⟩
    simp [World.custody, World.setPlace, World.emit, ranCalls, Token.waiting]
  | spawn found => exact .inl ⟨List.Perm.refl _, same found (by decide) (by decide)⟩
  | take =>
    refine .inl ⟨?_, fun _ => Iff.rfl⟩
    simp [World.custody, World.setWorker, Token.waiting]
  | snapshot =>
    refine .inl ⟨?_, fun _ => Iff.rfl⟩
    simp [World.custody, World.setWorker, World.emit, Token.waiting, ranCalls]
  | @callback index call rest =>
    refine .inl ⟨?_, fun _ => Iff.rfl⟩
    simp only [World.custody, World.setWorker, World.emit, Token.waiting, ranCalls,
      filterMap_append, filterMap_cons, filterMap_nil, append_assoc,
      cons_append]
    apply List.Perm.append_left
    rw [← append_assoc]
    exact perm_append_comm
  | _ => exact .inl ⟨List.Perm.refl _, fun _ => Iff.rfl⟩

theorem Moves.told :
    forall before call behind, next.log = before ++ .ran call :: behind -> Answered before call := by
  intro before call behind whole
  rcases moves.log with same | ⟨event, log, ran⟩
  · exact serves.told before call behind (same ▸ whole)
  · rw [log] at whole
    rcases split_concat whole with ⟨rfl, isRan⟩ | ⟨middle, old, _⟩
    · rcases ran call isRan with ⟨index, rest, isToken⟩
      have here := (append_inj' whole rfl).1
      rw [← here]
      exact serves.answered index _ (.inr isToken) call (.head _)
    · exact serves.told before call middle old

theorem Moves.answered :
    forall index waiting, after = .worker index (.send waiting) ∨
      after = .worker index (.callbacks waiting) -> forall call, call ∈ waiting ->
        Answered next.log call := by
  intro index waiting isAfter call member
  have kept : token = after -> Answered next.log call := by
    intro same
    exact moves.answered_kept (serves.answered index waiting (same ▸ isAfter) call member)
  cases moves with
  | snapshot =>
    rcases isAfter with same | same <;> cases same
    apply answered_of_called
    have custody : call ∈ world.custody (.worker index (.snapshot waiting)) :=
      mem_append_left _ (mem_append_right _ member)
    rcases (serves.pushed call).mpr custody with ⟨caller, found, _⟩
    exact serves.called call (List.getElem?_eq_some_iff.mp found).1
  | send =>
    rcases isAfter with same | same <;> cases same
    exact serves.answered index waiting (.inl rfl) call member
  | @callback other ran rest =>
    rcases isAfter with same | same <;> cases same
    exact (serves.answered index _ (.inr rfl) call (.tail _ member)).append _
  | call | push | look | join | lockOther | unlockOther => exact kept rfl
  | _ => rcases isAfter with same | same <;> cases same

theorem Moves.scheduled :
    forall call, Stands next.callers call Settled -> Event.scheduled call ∈ next.log := by
  intro call settled
  have kept : Stands world.callers call Settled -> Event.scheduled call ∈ next.log :=
    fun known => moves.mem_log (serves.scheduled call known)
  cases moves with
  | call callback => exact kept ((stands_append (by cases callback <;> simp [Settled])).mp settled)
  | push found | spawn found => exact kept ((stands_set_same found (by simp [Settled])).mp settled)
  | look found asks looks =>
    exact kept ((stands_set_same found (by simp [Settled, asks_ne asks, asks_ne looks])).mp settled)
  | join found asks busy =>
    rcases (stands_set_self found (.inr rfl)).mp settled with rfl | known
    · exact mem_concat_self
    · exact kept known
  | start found =>
    rcases (stands_set_self found (.inl rfl)).mp settled with rfl | known
    · exact mem_concat_self
    · exact kept known
  | _ => exact kept settled

theorem Moves.called :
    forall call, call < next.callers.length -> Event.called call ∈ next.log := by
  intro call bound
  have kept : call < world.callers.length -> Event.called call ∈ next.log :=
    fun known => moves.mem_log (serves.called call known)
  cases moves with
  | call callback =>
    have bound : call < (world.callers ++ [_]).length := bound
    rw [length_append, length_singleton] at bound
    rcases Nat.lt_or_eq_of_le (Nat.lt_succ_iff.mp bound) with old | last
    · exact kept old
    · subst last
      exact mem_concat_self
  | push | look | join | start | spawn => exact kept (length_set ▸ bound)
  | _ => exact kept bound

theorem Moves.registers :
    forall (call : Nat) (callback : Bool),
      next.callers[call]? = some ⟨callback, .push⟩ -> callback = true := by
  intro call callback found
  have elsewhere : forall {index : Nat} {caller : Caller},
      (world.callers.set index caller)[call]? = some ⟨callback, .push⟩ -> caller.place ≠ .push ->
        callback = true := by
    intro index caller isFound notPush
    rw [getElem?_set] at isFound
    split_ifs at isFound
    · cases isFound
      exact absurd rfl notPush
    · exact serves.registers call callback isFound
  cases moves with
  | call isCallback =>
    have found : (world.callers ++ [_])[call]? = some ⟨callback, .push⟩ := found
    rw [getElem?_append, getElem?_singleton] at found
    split_ifs at found with old last isCall
    · exact serves.registers call callback found
    · cases found
      exact isCall
    · cases found
  | push | join | start | spawn => exact elsewhere found nofun
  | look isFound asks looks =>
    exact elsewhere found (asks_ne looks).1
  | _ => exact serves.registers call callback found

theorem Moves.mutex_kept : next.mutex = .worker <-> after.locks = true := by
  have known := serves.mutex
  cases moves with
  | lockOther free =>
    refine ⟨nofun, fun locks => ?_⟩
    rw [known.mpr locks] at free
    cases free
  | unlockOther other =>
    refine ⟨nofun, fun locks => ?_⟩
    rw [known.mpr locks] at other
    cases other
  | lock free => exact ⟨fun _ => rfl, fun _ => rfl⟩
  | unlock => exact ⟨nofun, nofun⟩
  | start | spawn | rest | turn | again => exact known.trans ⟨nofun, nofun⟩
  | store | take | snapshot | send | callback => exact known.trans ⟨fun _ => rfl, fun _ => rfl⟩
  | _ => exact known

end

theorem Moves.serves (moves : Moves world token act next after) (serves : world.Serves token) :
    next.Serves after := by
  have custody : (next.custody after).Nodup ∧
      forall call, Stands next.callers call Pushed <-> call ∈ next.custody after := by
    rcases moves.custody serves with ⟨perm, same⟩ | ⟨index, fresh, perm, more⟩
    · refine ⟨perm.nodup_iff.mpr serves.nodup, fun call => ?_⟩
      rw [same call, serves.pushed call, perm.mem_iff]
    · refine ⟨perm.nodup_iff.mpr (nodup_cons.mpr ⟨?_, serves.nodup⟩), fun call => ?_⟩
      · rw [← serves.pushed index]
        exact fresh
      · rw [more call, serves.pushed call, perm.mem_iff, mem_cons]
  exact ⟨moves.covered serves, moves.queued serves, moves.registers serves, custody.1, custody.2,
    moves.called serves, moves.answered serves, moves.told serves, moves.scheduled serves,
    moves.mutex_kept serves⟩

theorem start_serves : start.Serves .free where
  covered := .inr (.inr fun call before behind whole => by
    exact absurd whole (by simp [start]))
  queued := nofun
  registers := nofun
  nodup := nodup_nil
  pushed := fun call => ⟨nofun, nofun⟩
  called := nofun
  answered := nofun
  told := fun before call behind whole => absurd whole (by simp [start])
  scheduled := nofun
  mutex := ⟨nofun, nofun⟩

/-! ## The way back to `IDLE` -/

end World

def Act.isWorker : Act -> Bool
  | .worker _ => true
  | _ => false

def Act.isCall : Act -> Bool
  | .call _ => true
  | _ => false

/-- A dirty flag makes the worker go around once more. -/
def AsyncState.around : AsyncState -> Nat
  | .dirty => 9
  | _ => 0

def Worker.stepsLeft : Worker -> Nat
  | .lock => 7
  | .store => 6
  | .take => 5
  | .snapshot waiting => 4 + waiting.length
  | .send waiting => 3 + waiting.length
  | .callbacks waiting => 2 + waiting.length
  | .finish => 1
  | .again => 0
  | .gone => 0

namespace World

variable {world next : World} {token after : Token} {act : Act}

/-- The steps that are left when no caller is at work. -/
def stepsLeft (world : World) : Token -> Nat
  | .worker _ worker => worker.stepsLeft + world.queue.length + world.flag.around
  | _ => 0

def Returned (world : World) : Prop :=
  forall (call : Nat) (caller : Caller), world.callers[call]? = some caller -> caller.place = .done

/-- Each step of the worker brings it closer to the end. -/
theorem Moves.stepsLeft (moves : Moves world token act next after) (returned : world.Returned)
    (notCall : act.isCall = false) :
    next.Returned ∧
      next.stepsLeft after + (if act.isWorker then 1 else 0) ≤ world.stepsLeft token := by
  have absurdCaller : forall {index : Nat} {callback : Bool} {place : CallPlace},
      world.callers[index]? = some ⟨callback, place⟩ -> place = .done :=
    fun found => returned _ _ found
  cases moves with
  | call callback => cases notCall
  | push found | start found | spawn found => cases absurdCaller found
  | look found asks looks | join found asks busy =>
    exact absurd (absurdCaller found) (asks_ne asks).2.2
  | again dirty =>
    refine ⟨returned, ?_⟩
    simp [World.stepsLeft, Worker.stepsLeft, World.setWorker, Act.isWorker, dirty,
      AsyncState.around]
    omega
  | _ =>
    refine ⟨returned, ?_⟩
    simp only [World.stepsLeft, Worker.stepsLeft, World.setWorker, World.emit, Act.isWorker,
      AsyncState.around, length_cons, length_nil, ↓reduceIte, Bool.false_eq_true]
    omega

/-- While the flag is not `IDLE` the worker has a step, or it waits for another
commit that has the mutex. -/
theorem Holds.enabled (holds : world.Holds token) (serves : world.Serves token)
    (returned : world.Returned) (busy : world.flag ≠ .idle) :
    world.mutex = .other ∨ Exists fun index => (world.step (.worker index)).isSome = true := by
  cases token with
  | free => exact absurd (holds.idle.mpr rfl) busy
  | caller index =>
    rcases (holds.spawns index).mpr rfl with ⟨callback, found⟩
    cases returned index _ found
  | worker index worker =>
    have placed := holds.placed index worker rfl
    have steps : (world.workerStep index worker).isSome = true ->
        (world.step (.worker index)).isSome = true := by
      intro isSome
      rw [step, placed.1]
      exact isSome
    cases worker with
    | gone => exact absurd rfl placed.2.1
    | lock =>
      have notWorker : world.mutex ≠ .worker := fun isWorker => by cases serves.mutex.mp isWorker
      cases isMutex : world.mutex with
      | worker => exact absurd isMutex notWorker
      | other => exact .inl rfl
      | free => exact .inr ⟨index, steps (by simp [workerStep, isMutex])⟩
    | callbacks waiting =>
      refine .inr ⟨index, steps ?_⟩
      cases waiting <;> rfl
    | finish | again =>
      refine .inr ⟨index, steps ?_⟩
      rw [workerStep]
      split <;> rfl
    | _ => exact .inr ⟨index, steps rfl⟩

/-! ## Every run -/

theorem run_serves {acts : List Act} (ran : start.run acts = some world) :
    Exists fun token => world.Holds token ∧ world.Serves token := by
  apply Transition.run_keeps (fun world => Exists fun token => world.Holds token ∧
    world.Serves token) ?_ ⟨.free, start_holds, start_serves⟩ ran
  rintro before act behind ⟨token, holds, serves⟩ stepped
  rcases holds.moves stepped with ⟨token, moves⟩
  exact ⟨token, moves.holds holds, moves.serves serves⟩

/-- The flag comes back to `IDLE`: without new calls the worker makes at most
`bound` steps, and until then it has a step or waits for another commit. -/
def ComesToRest (world : World) : Prop :=
  Exists fun bound => forall more last, world.run more = some last ->
    (forall act, act ∈ more -> act.isCall = false) ->
      (more.filter Act.isWorker).length ≤ bound ∧
        (last.flag ≠ .idle ->
          last.mutex = .other ∨ Exists fun index => (last.step (.worker index)).isSome = true)

theorem Holds.comesToRest (holds : world.Holds token) (serves : world.Serves token)
    (returned : world.Returned) : world.ComesToRest := by
  refine ⟨world.stepsLeft token, ?_⟩
  intro more last ran noCalls
  induction more generalizing world token with
  | nil =>
    cases ran
    exact ⟨Nat.zero_le _, holds.enabled serves returned⟩
  | cons act rest ih =>
    rw [run, Transition.run, bind_eq_some_iff] at ran
    rcases ran with ⟨next, stepped, ran⟩
    rcases holds.moves stepped with ⟨after, moves⟩
    have left := moves.stepsLeft returned (noCalls act (.head _))
    have later := ih (moves.holds holds) (moves.serves serves) left.1 ran
      (fun other member => noCalls other (.tail _ member))
    refine ⟨?_, later.2⟩
    have bound := left.2
    cases isWorker : act.isWorker
    · rw [isWorker] at bound
      rw [filter_cons_of_neg (by simp [isWorker])]
      exact Nat.le_trans later.1 (by simpa using bound)
    · rw [isWorker] at bound
      rw [filter_cons_of_pos isWorker, length_cons]
      have one : next.stepsLeft after + 1 ≤ world.stepsLeft token := by simpa using bound
      exact Nat.le_trans (Nat.succ_le_succ later.1) one

/-- What the coalescing of asynchronous commits promises. -/
structure Coalesces (world : World) : Prop where
  oneWorker : forall (first second : Nat) (left right : Worker), world.workers[first]? = some left ->
    world.workers[second]? = some right -> left ≠ .gone -> right ≠ .gone -> first = second
  ranOnce : (ranCalls world.log).Nodup ∧ forall call, call ∈ ranCalls world.log ->
    Stands world.callers call Pushed
  /-- The offsets that a callback gets were read after its call began. -/
  ranAfter : forall before call behind, world.log = before ++ .ran call :: behind ->
    Answered before call
  /-- Once the calls returned, the flag comes back to `IDLE`. -/
  rests : world.Returned -> world.ComesToRest
  atRest : world.Returned -> world.flag = .idle ->
    forall (call : Nat) (caller : Caller), world.callers[call]? = some caller ->
      Event.scheduled call ∈ world.log ∧ Covered world.log call ∧
        (caller.callback = true -> call ∈ ranCalls world.log)

/-- For any number of calls and any interleaving of their steps with those of the
workers. -/
theorem run_coalesces {acts : List Act} {world : World} (ran : start.run acts = some world) :
    world.Coalesces := by
  rcases run_serves ran with ⟨token, holds, serves⟩
  refine ⟨?_, ⟨?_, ?_⟩, serves.told, holds.comesToRest serves, ?_⟩
  · intro first second left right atFirst atSecond leftAlive rightAlive
    rcases holds.alive first left atFirst with gone | isFirst
    · exact absurd gone leftAlive
    · rcases holds.alive second right atSecond with gone | isSecond
      · exact absurd gone rightAlive
      · cases isFirst.symm.trans isSecond
        rfl
  · exact (nodup_append.mp serves.nodup).2.1
  · exact fun call member => (serves.pushed call).mpr (mem_append_right _ member)
  · intro returned isIdle call caller found
    have isFree := holds.idle.mp isIdle
    subst isFree
    have isDone := returned call caller found
    refine ⟨serves.scheduled call ⟨caller, found, .inr isDone⟩, ?_, ?_⟩
    · rcases serves.covered with dirty | reads | covered
      · rw [isIdle] at dirty
        cases dirty
      · cases reads
      · exact covered call
    · intro hasCallback
      have custody := (serves.pushed call).mp ⟨caller, found, hasCallback, by simp [isDone]⟩
      rcases mem_append.mp custody with early | ran
      · rcases mem_append.mp early with queued | waiting
        · rcases serves.queued call queued with dirty | takes | ⟨other, isOther, asks⟩
          · rw [isIdle] at dirty
            cases dirty
          · cases takes
          · rw [found] at isOther
            cases isOther
            exact absurd isDone (asks_ne asks).2.2
        · cases waiting
      · exact ran

/-- The second call marks the flag while the worker reads the offsets for the first
one, and its callback runs after the second commit. -/
theorem run_coalesces_two_calls :
    Exists fun world => start.run ([.call true, .caller 0, .caller 0, .caller 0, .caller 0] ++
        List.replicate 3 (.worker 0) ++ [.call true, .caller 1, .caller 1, .caller 1] ++
        List.replicate 14 (.worker 0)) = some world ∧
      world.flag = .idle ∧ ranCalls world.log = [0, 1] ∧ world.Coalesces :=
  ⟨_, rfl, rfl, rfl, run_coalesces (rfl : start.run
    ([.call true, .caller 0, .caller 0, .caller 0, .caller 0] ++ List.replicate 3 (.worker 0) ++
      [.call true, .caller 1, .caller 1, .caller 1] ++ List.replicate 14 (.worker 0)) = some _)⟩

end World

end CommitAsync
end Consumer
end Krabka
