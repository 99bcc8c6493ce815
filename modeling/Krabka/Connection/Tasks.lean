import Krabka.Connection.Model

namespace Krabka
namespace Connection
namespace Tasks

open Collections (SortedMap)

/-!
# The calls and the two tasks of a connection

A connection at the granularity of its shared operations: the map `pending`, the channel to
the writer task, the cancellation token `shutdown`, the one-shot channels of the requests and
the lock of the due time.  The peer may send any frame at any time.

A call on its way out still has operations to make: its drop guard removes its id from
`pending`, and a failure cancels the token.  `unwind` lists them.  `log` is history.
-/

/-- What the one-shot channel of a request holds. -/
inductive Slot where
  | empty
  | body
  | disconnected
deriving DecidableEq, Repr

/-- A registered request with the receiver of its one-shot channel. -/
structure Request where
  tag : Tag
  corrId : Int
  slot : Slot
deriving DecidableEq, Repr

/-- What a call returns. -/
inductive Outcome where
  | body
  /-- The frame of a `send_no_response` is queued. -/
  | sent
  | disconnected
  | timeout
  /-- The error of the re-authentication that the call itself ran. -/
  | sasl
  /-- The caller dropped the future. -/
  | dropped
deriving DecidableEq, Repr

/-- An operation that a call makes on its way out. -/
inductive Op where
  | erase (corrId : Int)
  | cancel
deriving DecidableEq, Repr

/-- The guard of the due time's lock that a call holds. -/
inductive Guard where
  | none
  | read
  | write
deriving DecidableEq, Repr

inductive Stage where
  /-- It waits for the read lock of the due time. -/
  | checking
  /-- It found the re-authentication due and waits for the write lock. -/
  | waiting
  /-- It runs the exchange, after `answered` answers. -/
  | exchange (saslId : Int) (answered : Nat)
  | exchangeQueue (saslId : Int) (answered : Nat) (request : Request)
  | exchangeAwait (saslId : Int) (answered : Nat) (request : Request)
  /-- It has an answer of the exchange, and the drop guard of the request is next. -/
  | exchangeTaken (saslId : Int) (answered : Nat) (corrId : Int)
  | submit
  | queue (request : Request)
  | await (request : Request)
  | unwind (ops : List Op) (guard : Guard) (outcome : Outcome)
deriving DecidableEq, Repr

namespace Stage

/-- The registered request whose receiver the call holds. -/
def request? : Stage -> Option Request
  | .exchangeQueue _ _ request | .exchangeAwait _ _ request | .queue request | .await request =>
    some request
  | _ => none

/-- The request whose frame is queued and whose answer the call waits for. -/
def awaited? : Stage -> Option Request
  | .exchangeAwait _ _ request | .await request => some request
  | _ => none

def guard : Stage -> Guard
  | .exchange _ _ | .exchangeQueue _ _ _ | .exchangeAwait _ _ _ | .exchangeTaken _ _ _ => .write
  | .submit | .queue _ => .read
  | .unwind _ guard _ => guard
  | .checking | .waiting | .await _ => .none

/-- The frame that the call gives to the writer. -/
def frame? (id : Nat) : Stage -> Option Tag
  | .submit => some (.own id)
  | .queue request | .exchangeQueue _ _ request => some request.tag
  | _ => none

/-- The writer's channel took the frame. -/
def pushed : Stage -> Stage
  | .submit => .unwind [] .read .sent
  | .queue request => .await request
  | .exchangeQueue saslId answered request => .exchangeAwait saslId answered request
  | stage => stage

/-- The writer's channel is closed. -/
def refused : Stage -> Stage
  | .submit => .unwind [] .read .disconnected
  | .queue request => .unwind [.erase request.corrId] .read .disconnected
  | .exchangeQueue _ _ request => .unwind [.erase request.corrId, .cancel] .write .sasl
  | stage => stage

/-- The one-shot channel gave a body. -/
def took : Stage -> Stage
  | .await request => .unwind [.erase request.corrId] .none .body
  | .exchangeAwait saslId answered request => .exchangeTaken saslId (answered + 1) request.corrId
  | stage => stage

/-- The one-shot channel gave `Disconnected`, or its sender is gone. -/
def lost : Stage -> Stage
  | .await request => .unwind [.erase request.corrId] .none .disconnected
  | .exchangeAwait _ _ request => .unwind [.erase request.corrId, .cancel] .write .sasl
  | stage => stage

/-- The request timeout passed.  The drop guard removes the id once more. -/
def expired : Stage -> Stage
  | .await request =>
    .unwind [.erase request.corrId, .cancel, .erase request.corrId] .none .timeout
  | .exchangeAwait _ _ request =>
    .unwind [.erase request.corrId, .cancel, .erase request.corrId, .cancel] .write .sasl
  | stage => stage

/-- Put `slot` into the one-shot channel of `tag`. -/
def fill (tag : Tag) (slot : Slot) : Stage -> Stage
  | .exchangeQueue saslId answered request =>
    .exchangeQueue saslId answered
      (if request.tag = tag then { request with slot := slot } else request)
  | .exchangeAwait saslId answered request =>
    .exchangeAwait saslId answered
      (if request.tag = tag then { request with slot := slot } else request)
  | .queue request =>
    .queue (if request.tag = tag then { request with slot := slot } else request)
  | .await request =>
    .await (if request.tag = tag then { request with slot := slot } else request)
  | stage => stage

end Stage

structure Call where
  kind : Kind
  corrId : Int
  stage : Stage
deriving DecidableEq, Repr

/-! ## The tasks -/

inductive Reader where
  | running
  /-- It took the sender of `tag` out of `pending`, with a body for it. -/
  | fulfilling (tag : Tag)
  /-- It has left its loop. -/
  | left
  /-- It has cancelled the token, and goes through the shards of `pending` for their keys. -/
  | collecting (visited : Nat) (keys : List Int)
  | failing (keys : List Int)
  /-- It took the sender of `tag` out of `pending`, to fail its request. -/
  | failingOne (tag : Tag) (keys : List Int)
  | ended
deriving DecidableEq, Repr

def Reader.hand? : Reader -> Option Tag
  | .fulfilling tag | .failingOne tag _ => some tag
  | _ => none

inductive Writer where
  | running
  /-- It writes a frame. -/
  | writing
  /-- It is idle and found `pending` empty. -/
  | idling
  | left
  /-- It has cancelled the token. -/
  | cancelled
  /-- It has ended, and its channel is closed. -/
  | ended
deriving DecidableEq, Repr

inductive Event where
  | queued (tag : Tag)
  | foundDue (call : Nat)
  | succeeded (call : Nat)
  | closed
  | ended (call : Nat) (outcome : Outcome)
deriving DecidableEq, Repr

/-- The capacity of the channel to the writer, and the shards of `pending`. -/
structure Setup where
  capacity : Nat
  shards : Nat
  shardOf : Int -> Nat
  shardOf_lt : forall key, shardOf key < shards

structure Shared where
  nextCorrId : Int
  pending : SortedMap Int Tag
  /-- The frames in the channel to the writer. -/
  channel : List Tag
  shutdown : Bool
  /-- Whether a re-authentication is due. -/
  due : Bool
  reader : Reader
  writer : Writer
  calls : SortedMap Nat Call
  allocated : Nat
  /-- The number of requests that the re-authentications made. -/
  exchanged : Nat
  log : List Event
deriving DecidableEq

namespace Shared

def start : Shared where
  nextCorrId := 0
  pending := SortedMap.empty
  channel := []
  shutdown := false
  due := false
  reader := .running
  writer := .running
  calls := SortedMap.empty
  allocated := 0
  exchanged := 0
  log := []

def locked (tasks : Shared) : Bool :=
  tasks.calls.entries.any fun entry => entry.2.stage.guard = .write

/-- Whether a call holds the read or the write lock. -/
def held (tasks : Shared) : Bool :=
  tasks.calls.entries.any fun entry => entry.2.stage.guard ≠ .none

def cancel (tasks : Shared) : Shared :=
  { tasks with shutdown := true, log := .closed :: tasks.log }

def note (tasks : Shared) (event : Event) : Shared :=
  { tasks with log := event :: tasks.log }

/-- The call goes on. -/
def move (tasks : Shared) (id : Nat) (call : Call) (stage : Stage) : Shared :=
  { tasks with calls := tasks.calls.insert id { call with stage := stage } }

def erase (tasks : Shared) (corrId : Int) : Shared :=
  { tasks with pending := tasks.pending.erase corrId }

def register (tasks : Shared) (tag : Tag) (corrId : Int) : Shared :=
  { tasks with pending := tasks.pending.insert corrId tag }

def push (tasks : Shared) (tag : Tag) : Shared :=
  { tasks with channel := tasks.channel ++ [tag], log := .queued tag :: tasks.log }

/-- The call is over. -/
def finish (tasks : Shared) (id : Nat) (outcome : Outcome) : Shared :=
  { tasks with calls := tasks.calls.erase id, log := .ended id outcome :: tasks.log }

/-- Send `slot` through the one-shot channel of `tag`, if its receiver is still there. -/
def fill (tasks : Shared) (tag : Tag) (slot : Slot) : Shared :=
  { tasks with
    calls :=
      match tasks.calls.get? tag.call with
      | none => tasks.calls
      | some call =>
        tasks.calls.insert tag.call { call with stage := call.stage.fill tag slot } }

/-- What the receiver of the request sees.  A sender that was dropped reads as
`Disconnected`. -/
def answer (tasks : Shared) (request : Request) : Slot :=
  match request.slot with
  | .empty =>
    if tasks.pending.get? request.corrId = some request.tag ∨
        tasks.reader.hand? = some request.tag then .empty
    else .disconnected
  | slot => slot

def allocate (tasks : Shared) (kind : Kind) : Shared :=
  { tasks with
    nextCorrId := nextCorrelationId tasks.nextCorrId
    allocated := tasks.allocated + 1
    calls := tasks.calls.insert tasks.allocated ⟨kind, tasks.nextCorrId, .checking⟩ }

/-- The read lock is free: go on when no re-authentication is due. -/
def check (tasks : Shared) (id : Nat) (call : Call) : Shared :=
  if tasks.due then (tasks.note (.foundDue id)).move id call .waiting
  else match call.kind with
    | .sendNoResponse => tasks.move id call .submit
    | .send =>
      (tasks.register (.own id) call.corrId).move id call
        (.queue ⟨.own id, call.corrId, .empty⟩)

def exchangeRequest (tasks : Shared) (id : Nat) (call : Call) (saslId : Int) (answered : Nat) :
    Shared :=
  let tag := Tag.sasl id tasks.exchanged
  let next := nextReservedId saslId
  { (tasks.register tag next.1).move id call
      (.exchangeQueue next.2 answered ⟨tag, next.1, .empty⟩) with
    exchanged := tasks.exchanged + 1 }

end Shared

/-! ## Steps -/

/-- What a call does when it is polled. -/
inductive Move where
  | readLock
  | writeLock
  | saslRequest
  /-- The exchange succeeds, after `SaslHandshake` and at least one `SaslAuthenticate`. -/
  | authenticated
  /-- The exchange fails with an error of its own. -/
  | rejected
  | push
  | take
  | timeout
  /-- The next operation of the way out. -/
  | unwind
deriving DecidableEq, Repr

inductive ReaderAct where
  /-- A frame comes, with its correlation id unless it is too short for one. -/
  | receive (corrId : Option Int)
  | fulfil
  | endOfStream
  | readError
  | cancelled
  | cancel
  | collect
  | remove
  | fail
  | finish
deriving DecidableEq, Repr

inductive WriterAct where
  | dequeue
  | written
  | writeError
  | cancelled
  /-- Nothing was sent or received for `max_idle`. -/
  | idle
  | idleClose
  /-- The idle writer finds a queued frame. -/
  | busy
  | cancel
  | finish
deriving DecidableEq, Repr

inductive Act where
  | begin (kind : Kind)
  /-- The due time of the re-authentication passes. -/
  | expire
  | close
  | poll (id : Nat) (move : Move)
  /-- The caller drops the call at its await point. -/
  | drop (id : Nat)
  | reader (act : ReaderAct)
  | writer (act : WriterAct)
deriving DecidableEq, Repr

namespace Shared

def pushFrame (setup : Setup) (tasks : Shared) (id : Nat) (call : Call) (tag : Tag) :
    Option Shared :=
  if tasks.writer = .ended then some (tasks.move id call call.stage.refused)
  else if tasks.channel.length < setup.capacity then
    some ((tasks.push tag).move id call call.stage.pushed)
  else none

def takeAnswer (tasks : Shared) (id : Nat) (call : Call) (request : Request) : Option Shared :=
  match tasks.answer request with
  | .empty => none
  | .body => some (tasks.move id call call.stage.took)
  | .disconnected => some (tasks.move id call call.stage.lost)

def pollStep (setup : Setup) (tasks : Shared) (id : Nat) (call : Call) (move : Move) :
    Option Shared :=
  match move, call.stage with
  | .readLock, .checking => if tasks.locked then none else some (tasks.check id call)
  | .writeLock, .waiting =>
    if tasks.held then none
    else if tasks.due then some (tasks.move id call (.exchange 0 0))
    -- Another call has authenticated meanwhile.
    else some (tasks.move id call .checking)
  | .saslRequest, .exchange saslId answered =>
    some (tasks.exchangeRequest id call saslId answered)
  | .authenticated, .exchange _ answered =>
    if 2 ≤ answered then
      some { (tasks.note (.succeeded id)).move id call .checking with due := false }
    else none
  | .rejected, .exchange _ _ => some (tasks.move id call (.unwind [.cancel] .write .sasl))
  | .push, stage => (stage.frame? id).bind (tasks.pushFrame setup id call)
  | .take, stage => stage.awaited?.bind (tasks.takeAnswer id call)
  | .timeout, stage => stage.awaited?.bind fun request =>
    -- The timer is looked at after the one-shot channel.
    if tasks.answer request = .empty then some (tasks.move id call stage.expired) else none
  | .unwind, .unwind (.erase corrId :: ops) guard outcome =>
    some ((tasks.erase corrId).move id call (.unwind ops guard outcome))
  | .unwind, .unwind (.cancel :: ops) guard outcome =>
    some (tasks.cancel.move id call (.unwind ops guard outcome))
  | .unwind, .unwind [] _ outcome => some (tasks.finish id outcome)
  | .unwind, .exchangeTaken saslId answered corrId =>
    some ((tasks.erase corrId).move id call (.exchange saslId answered))
  | _, _ => none

/-- The future of the call is dropped.  A call on its way out has no await point any more. -/
def dropCall (tasks : Shared) (id : Nat) (call : Call) : Option Shared :=
  match call.stage with
  | .unwind _ _ _ | .exchangeTaken _ _ _ => none
  | .exchangeQueue _ _ request | .exchangeAwait _ _ request | .queue request | .await request =>
    some ((tasks.erase request.corrId).finish id .dropped)
  | .checking | .waiting | .exchange _ _ | .submit => some (tasks.finish id .dropped)

def readerStep (setup : Setup) (tasks : Shared) (act : ReaderAct) : Option Shared :=
  match tasks.reader, act with
  | .running, .receive none => some tasks
  | .running, .receive (some corrId) =>
    match tasks.pending.get? corrId with
    | none => some tasks
    | some tag => some { tasks.erase corrId with reader := .fulfilling tag }
  | .fulfilling tag, .fulfil => some { tasks.fill tag .body with reader := .running }
  | .running, .endOfStream | .running, .readError => some { tasks with reader := .left }
  | .running, .cancelled => if tasks.shutdown then some { tasks with reader := .left } else none
  | .left, .cancel => some { tasks.cancel with reader := .collecting 0 [] }
  | .collecting visited keys, .collect =>
    if visited < setup.shards then
      some { tasks with
        reader := .collecting (visited + 1)
          (keys ++ tasks.pending.keys.filter fun key => setup.shardOf key = visited) }
    else some { tasks with reader := .failing keys }
  | .failing (key :: keys), .remove =>
    match tasks.pending.get? key with
    | none => some { tasks with reader := .failing keys }
    | some tag => some { tasks.erase key with reader := .failingOne tag keys }
  | .failingOne tag keys, .fail =>
    some { tasks.fill tag .disconnected with reader := .failing keys }
  | .failing [], .finish => some { tasks with reader := .ended }
  | _, _ => none

def writerStep (tasks : Shared) (act : WriterAct) : Option Shared :=
  match tasks.writer, act with
  | .running, .dequeue =>
    match tasks.channel with
    | [] => none
    | _ :: rest => some { tasks with channel := rest, writer := .writing }
  | .writing, .written => some { tasks with writer := .running }
  | .writing, .writeError => some { tasks with writer := .left }
  | .running, .cancelled | .writing, .cancelled =>
    if tasks.shutdown then some { tasks with writer := .left } else none
  | .running, .idle =>
    if tasks.pending.entries = [] then some { tasks with writer := .idling } else none
  | .idling, .idleClose => if tasks.channel = [] then some { tasks with writer := .left } else none
  | .idling, .busy =>
    if tasks.channel = [] then none else some { tasks with writer := .running }
  | .left, .cancel => some { tasks.cancel with writer := .cancelled }
  | .cancelled, .finish => some { tasks with writer := .ended, channel := [] }
  | _, _ => none

def step (setup : Setup) (tasks : Shared) : Act -> Option Shared
  | .begin kind => some (tasks.allocate kind)
  | .expire => some { tasks with due := true }
  | .close => some tasks.cancel
  | .poll id move => (tasks.calls.get? id).bind fun call => tasks.pollStep setup id call move
  | .drop id => (tasks.calls.get? id).bind fun call => tasks.dropCall id call
  | .reader act => tasks.readerStep setup act
  | .writer act => tasks.writerStep act

end Shared

/-! ## What a step does -/

inductive Poll (tasks : Shared) (id : Nat) (call : Call) : Move -> Shared -> Prop where
  | due (checking : call.stage = .checking) (isDue : tasks.due = true) :
      Poll tasks id call .readLock ((tasks.note (.foundDue id)).move id call .waiting)
  | submit (checking : call.stage = .checking) (free : tasks.locked = false)
      (notDue : tasks.due = false) :
      Poll tasks id call .readLock (tasks.move id call .submit)
  | register (checking : call.stage = .checking) (free : tasks.locked = false)
      (notDue : tasks.due = false) :
      Poll tasks id call .readLock
        ((tasks.register (.own id) call.corrId).move id call
          (.queue ⟨.own id, call.corrId, .empty⟩))
  | exchange (waiting : call.stage = .waiting) (free : tasks.held = false)
      (isDue : tasks.due = true) :
      Poll tasks id call .writeLock (tasks.move id call (.exchange 0 0))
  | again (waiting : call.stage = .waiting) (notDue : tasks.due = false) :
      Poll tasks id call .writeLock (tasks.move id call .checking)
  | saslRequest {saslId : Int} {answered : Nat} (exchange : call.stage = .exchange saslId answered) :
      Poll tasks id call .saslRequest (tasks.exchangeRequest id call saslId answered)
  | authenticated {saslId : Int} {answered : Nat}
      (exchange : call.stage = .exchange saslId answered) (enough : 2 ≤ answered) :
      Poll tasks id call .authenticated
        { (tasks.note (.succeeded id)).move id call .checking with due := false }
  | rejected {saslId : Int} {answered : Nat} (exchange : call.stage = .exchange saslId answered) :
      Poll tasks id call .rejected (tasks.move id call (.unwind [.cancel] .write .sasl))
  | refused {tag : Tag} (framed : call.stage.frame? id = some tag)
      (closed : tasks.writer = .ended) :
      Poll tasks id call .push (tasks.move id call call.stage.refused)
  | pushed {tag : Tag} (framed : call.stage.frame? id = some tag)
      (opened : tasks.writer ≠ .ended) :
      Poll tasks id call .push ((tasks.push tag).move id call call.stage.pushed)
  | took {request : Request} (awaits : call.stage.awaited? = some request)
      (answered : tasks.answer request = .body) :
      Poll tasks id call .take (tasks.move id call call.stage.took)
  | lost {request : Request} (awaits : call.stage.awaited? = some request)
      (answered : tasks.answer request = .disconnected) :
      Poll tasks id call .take (tasks.move id call call.stage.lost)
  | expired {request : Request} (awaits : call.stage.awaited? = some request)
      (unanswered : tasks.answer request = .empty) :
      Poll tasks id call .timeout (tasks.move id call call.stage.expired)
  | erase {corrId : Int} {ops : List Op} {guard : Guard} {outcome : Outcome}
      (unwinds : call.stage = .unwind (.erase corrId :: ops) guard outcome) :
      Poll tasks id call .unwind ((tasks.erase corrId).move id call (.unwind ops guard outcome))
  | cancel {ops : List Op} {guard : Guard} {outcome : Outcome}
      (unwinds : call.stage = .unwind (.cancel :: ops) guard outcome) :
      Poll tasks id call .unwind (tasks.cancel.move id call (.unwind ops guard outcome))
  | finish {guard : Guard} {outcome : Outcome}
      (unwinds : call.stage = .unwind [] guard outcome) :
      Poll tasks id call .unwind (tasks.finish id outcome)
  | release {saslId : Int} {answered : Nat} {corrId : Int}
      (taken : call.stage = .exchangeTaken saslId answered corrId) :
      Poll tasks id call .unwind ((tasks.erase corrId).move id call (.exchange saslId answered))

variable {setup : Setup} {next : Shared}

variable {tasks : Shared}

theorem Shared.pollStep_inv {id : Nat} {call : Call} {move : Move}
    (polled : tasks.pollStep setup id call move = some next) :
    Poll tasks id call move next := by
  rcases call with ⟨kind, corrId, stage⟩
  dsimp only [pollStep] at polled
  split at polled
  · split_ifs at polled with locked
    cases polled
    have free := Bool.of_not_eq_true locked
    unfold check
    split_ifs with due
    · exact .due rfl due
    · have notDue := Bool.of_not_eq_true due
      split
      · exact .submit rfl free notDue
      · exact .register rfl free notDue
  · split_ifs at polled with held due <;> cases polled
    · exact .exchange rfl (Bool.of_not_eq_true held) due
    · exact .again rfl (Bool.of_not_eq_true due)
  · cases polled
    exact .saslRequest rfl
  · split_ifs at polled with enough
    cases polled
    exact .authenticated rfl enough
  · cases polled
    exact .rejected rfl
  · rcases Option.bind_eq_some_iff.mp polled with ⟨tag, framed, pushed⟩
    unfold pushFrame at pushed
    split_ifs at pushed with closed <;> cases pushed
    · exact .refused framed closed
    · exact .pushed framed closed
  · rcases Option.bind_eq_some_iff.mp polled with ⟨request, awaits, taken⟩
    unfold takeAnswer at taken
    split at taken <;> cases taken
    · rename_i answered
      exact .took awaits answered
    · rename_i answered
      exact .lost awaits answered
  · rcases Option.bind_eq_some_iff.mp polled with ⟨request, awaits, expired⟩
    split_ifs at expired with unanswered
    cases expired
    exact .expired awaits unanswered
  · cases polled
    exact .erase rfl
  · cases polled
    exact .cancel rfl
  · cases polled
    exact .finish rfl
  · cases polled
    exact .release rfl
  · cases polled

/-- The reader task makes an operation. -/
inductive Read (setup : Setup) (tasks : Shared) : ReaderAct -> Shared -> Prop where
  | ignore (corrId : Option Int) (running : tasks.reader = .running) :
      Read setup tasks (.receive corrId) tasks
  | receive {corrId : Int} {tag : Tag} (running : tasks.reader = .running)
      (registered : tasks.pending.get? corrId = some tag) :
      Read setup tasks (.receive (some corrId))
        { tasks.erase corrId with reader := .fulfilling tag }
  | fulfil {tag : Tag} (fulfilling : tasks.reader = .fulfilling tag) :
      Read setup tasks .fulfil { tasks.fill tag .body with reader := .running }
  | leave {act : ReaderAct} (running : tasks.reader = .running) :
      Read setup tasks act { tasks with reader := .left }
  | cancel (left : tasks.reader = .left) :
      Read setup tasks .cancel { tasks.cancel with reader := .collecting 0 [] }
  | collect {visited : Nat} {keys : List Int} (collecting : tasks.reader = .collecting visited keys)
      (more : visited < setup.shards) :
      Read setup tasks .collect
        { tasks with
          reader := .collecting (visited + 1)
            (keys ++ tasks.pending.keys.filter fun key => setup.shardOf key = visited) }
  | collected {visited : Nat} {keys : List Int}
      (collecting : tasks.reader = .collecting visited keys) (all : setup.shards ≤ visited) :
      Read setup tasks .collect { tasks with reader := .failing keys }
  | skip {key : Int} {keys : List Int} (failing : tasks.reader = .failing (key :: keys))
      (absent : tasks.pending.get? key = none) :
      Read setup tasks .remove { tasks with reader := .failing keys }
  | remove {key : Int} {keys : List Int} {tag : Tag}
      (failing : tasks.reader = .failing (key :: keys))
      (registered : tasks.pending.get? key = some tag) :
      Read setup tasks .remove { tasks.erase key with reader := .failingOne tag keys }
  | fail {tag : Tag} {keys : List Int} (failing : tasks.reader = .failingOne tag keys) :
      Read setup tasks .fail { tasks.fill tag .disconnected with reader := .failing keys }
  | finish (failing : tasks.reader = .failing []) :
      Read setup tasks .finish { tasks with reader := .ended }

variable {act : ReaderAct}

theorem Read.not_ended (read : Read setup tasks act next) : tasks.reader ≠ .ended := by
  intro ended
  cases read with
  | ignore _ running | receive running _ | leave running => cases ended.symm.trans running
  | fulfil fulfilling => cases ended.symm.trans fulfilling
  | cancel left => cases ended.symm.trans left
  | collect collecting _ | collected collecting _ => cases ended.symm.trans collecting
  | skip failing _ | remove failing _ | fail failing | finish failing =>
    cases ended.symm.trans failing

theorem Shared.readerStep_inv (read : tasks.readerStep setup act = some next) :
    Read setup tasks act next := by
  unfold readerStep at read
  split at read
  case h_12 => cases read
  all_goals rename_i isReader
  · cases read
    exact .ignore none isReader
  · split at read <;> cases read
    · exact .ignore _ isReader
    · rename_i registered
      exact .receive isReader registered
  · cases read
    exact .fulfil isReader
  · cases read
    exact .leave isReader
  · cases read
    exact .leave isReader
  · split_ifs at read
    cases read
    exact .leave isReader
  · cases read
    exact .cancel isReader
  · split_ifs at read with more <;> cases read
    · exact .collect isReader more
    · exact .collected isReader (Nat.le_of_not_lt more)
  · split at read <;> cases read
    · rename_i absent
      exact .skip isReader absent
    · rename_i registered
      exact .remove isReader registered
  · cases read
    exact .fail isReader
  · cases read
    exact .finish isReader

inductive Step (setup : Setup) (tasks : Shared) : Act -> Shared -> Prop where
  | begin (kind : Kind) : Step setup tasks (.begin kind) (tasks.allocate kind)
  | expire : Step setup tasks .expire { tasks with due := true }
  | close : Step setup tasks .close tasks.cancel
  | poll {id : Nat} {call : Call} {move : Move} {next : Shared}
      (found : tasks.calls.get? id = some call) (polled : Poll tasks id call move next) :
      Step setup tasks (.poll id move) next
  | drop {id : Nat} {call : Call} (found : tasks.calls.get? id = some call) :
      Step setup tasks (.drop id) (tasks.finish id .dropped)
  | dropRequest {id : Nat} {call : Call} {request : Request}
      (found : tasks.calls.get? id = some call) (requested : call.stage.request? = some request) :
      Step setup tasks (.drop id) ((tasks.erase request.corrId).finish id .dropped)
  | reader {act : ReaderAct} {next : Shared} (read : Read setup tasks act next) :
      Step setup tasks (.reader act) next
  /-- The writer goes on; nobody else reads what it changes until it has ended. -/
  | writer {act : WriterAct} {channel : List Tag} {writer : Writer}
      (running : tasks.writer ≠ .ended) :
      Step setup tasks (.writer act) { tasks with channel := channel, writer := writer }
  | writerCancel (left : tasks.writer = .left) :
      Step setup tasks (.writer .cancel) { tasks.cancel with writer := .cancelled }

theorem Shared.writerStep_inv {act : WriterAct} (wrote : tasks.writerStep act = some next) :
    Step setup tasks (.writer act) next := by
  have running : tasks.writer ≠ .ended := by
    intro ended
    unfold writerStep at wrote
    rw [ended] at wrote
    cases act <;> cases wrote
  unfold writerStep at wrote
  repeat' split at wrote
  all_goals cases wrote
  all_goals first | exact .writer running | exact .writerCancel ‹_›

theorem Shared.step_inv {act : Act} (stepped : tasks.step setup act = some next) :
    Step setup tasks act next := by
  cases act with
  | begin kind =>
    cases stepped
    exact .begin kind
  | expire =>
    cases stepped
    exact .expire
  | close =>
    cases stepped
    exact .close
  | poll id move =>
    rcases Option.bind_eq_some_iff.mp stepped with ⟨call, found, polled⟩
    exact .poll found (pollStep_inv polled)
  | drop id =>
    rcases Option.bind_eq_some_iff.mp stepped with ⟨⟨kind, corrId, stage⟩, found, dropped⟩
    cases stage with
    | unwind | exchangeTaken => cases dropped
    | exchangeQueue | exchangeAwait | queue | await =>
      cases dropped
      exact .dropRequest found rfl
    | checking | waiting | exchange | submit =>
      cases dropped
      exact .drop found
  | reader act => exact .reader (readerStep_inv stepped)
  | writer act => exact writerStep_inv stepped

/-! ## The calls after a step -/

section Found

variable {tasks : Shared} {id other : Nat} {call otherCall : Call} {stage : Stage}

theorem found_move (found : (tasks.move id call stage).calls.get? other = some otherCall) :
    (other = id ∧ otherCall = { call with stage := stage }) ∨
      (other ≠ id ∧ tasks.calls.get? other = some otherCall) :=
  SortedMap.of_get?_insert found

theorem found_finish {outcome : Outcome}
    (found : (tasks.finish id outcome).calls.get? other = some otherCall) :
    other ≠ id ∧ tasks.calls.get? other = some otherCall := by
  change (tasks.calls.erase id).get? other = some otherCall at found
  rw [SortedMap.get?_erase] at found
  split at found
  · cases found
  · rename_i different
    exact ⟨different, found⟩

theorem found_fill {tag : Tag} {slot : Slot}
    (found : (tasks.fill tag slot).calls.get? other = some otherCall) :
    Exists fun before => tasks.calls.get? other = some before ∧ (otherCall = before ∨
        otherCall = { before with stage := before.stage.fill tag slot }) := by
  unfold Shared.fill at found
  split at found
  · exact ⟨otherCall, found, .inl rfl⟩
  · rename_i filled isFilled
    rcases SortedMap.of_get?_insert found with ⟨same, isOther⟩ | ⟨_, found⟩
    · exact ⟨filled, same ▸ isFilled, .inr isOther⟩
    · exact ⟨otherCall, found, .inl rfl⟩

theorem fill_found (tag : Tag) (slot : Slot) (found : tasks.calls.get? id = some call) :
    Exists fun after => (tasks.fill tag slot).calls.get? id = some after ∧
      (after = call ∨ after = { call with stage := call.stage.fill tag slot }) := by
  unfold Shared.fill
  split
  · exact ⟨call, found, .inl rfl⟩
  · rename_i filled isFilled
    rw [SortedMap.get?_insert]
    split
    · rename_i same
      rw [same, isFilled] at found
      rw [Option.some.inj found]
      exact ⟨_, rfl, .inr rfl⟩
    · exact ⟨call, found, .inl rfl⟩

theorem guard_of_locked (free : tasks.locked = false) (found : tasks.calls.get? id = some call) :
    call.stage.guard ≠ .write := by
  have member := (tasks.calls.mem_entries_iff id call).mpr found
  have unlocked := List.any_eq_false.mp free (id, call) member
  exact fun isWrite => unlocked (decide_eq_true isWrite)

theorem guard_of_held (free : tasks.held = false) (found : tasks.calls.get? id = some call) :
    call.stage.guard = .none := by
  have member := (tasks.calls.mem_entries_iff id call).mpr found
  have unheld := List.any_eq_false.mp free (id, call) member
  by_contra held
  exact unheld (decide_eq_true held)

end Found

namespace Stage

variable {stage : Stage} {id : Nat} {tag : Tag} {request : Request}

section

variable (tag : Tag) (slot : Slot) (stage : Stage)

theorem awaited?_fill :
    (stage.fill tag slot).awaited? = stage.awaited?.map fun request =>
      if request.tag = tag then { request with slot := slot } else request := by
  cases stage <;> rfl

theorem guard_fill :
    (stage.fill tag slot).guard = stage.guard := by
  cases stage <;> rfl

end

theorem request?_of_awaited? (awaits : stage.awaited? = some request) :
    stage.request? = some request := by
  cases stage <;> first | exact awaits | cases awaits

theorem awaited?_of_request? (idle : stage.request? = none) : stage.awaited? = none := by
  cases stage <;> first | rfl | cases idle

/-- A call whose frame was refused is on its way out. -/
theorem refused_spec (framed : stage.frame? id = some tag) :
    stage.refused.request? = none ∧ stage.refused.guard = stage.guard ∧ stage.refused ≠ .waiting := by
  cases stage with
  | submit | queue | exchangeQueue => exact ⟨rfl, rfl, nofun⟩
  | _ => cases framed

theorem pushed_spec (framed : stage.frame? id = some tag) :
    (forall request, stage.pushed.request? = some request -> stage.request? = some request) ∧
      (stage.pushed.guard = .none ∨ stage.pushed.guard = stage.guard) ∧
      stage.pushed ≠ .waiting := by
  cases stage with
  | submit => exact ⟨nofun, .inr rfl, nofun⟩
  | queue queued => exact ⟨fun _ requested => requested, .inl rfl, nofun⟩
  | exchangeQueue saslId answered queued =>
    exact ⟨fun _ requested => requested, .inr rfl, nofun⟩
  | _ => cases framed

section

variable (awaits : stage.awaited? = some request)

include awaits

theorem took_spec :
    stage.took.request? = none ∧ stage.took.guard = stage.guard ∧ stage.took ≠ .waiting := by
  cases stage with
  | await | exchangeAwait => exact ⟨rfl, rfl, nofun⟩
  | _ => cases awaits

theorem lost_spec :
    stage.lost.request? = none ∧ stage.lost.guard = stage.guard ∧ stage.lost ≠ .waiting := by
  cases stage with
  | await | exchangeAwait => exact ⟨rfl, rfl, nofun⟩
  | _ => cases awaits

theorem expired_spec :
    stage.expired.request? = none ∧ stage.expired.guard = stage.guard ∧ stage.expired ≠ .waiting := by
  cases stage with
  | await | exchangeAwait => exact ⟨rfl, rfl, nofun⟩
  | _ => cases awaits

end

end Stage

/-! ## Calls own their requests, and an exchange is alone -/

def Stage.Owns (id : Nat) : Stage -> Prop
  | .exchangeQueue _ _ request | .exchangeAwait _ _ request =>
    Exists fun serial => request.tag = .sasl id serial
  | .queue request | .await request => request.tag = .own id
  | _ => True

namespace Stage

variable {stage : Stage} {id : Nat} {tag : Tag} {request : Request}

theorem Owns.call (owns : stage.Owns id) (requested : stage.request? = some request) :
    request.tag.call = id := by
  cases stage with
  | exchangeQueue | exchangeAwait =>
    rcases owns with ⟨serial, isTag⟩
    rw [<- Option.some.inj requested, isTag]
    rfl
  | queue queued =>
    have isTag : queued.tag = .own id := owns
    rw [<- Option.some.inj requested, isTag]
    rfl
  | await waiting =>
    have isTag : waiting.tag = .own id := owns
    rw [<- Option.some.inj requested, isTag]
    rfl
  | _ => cases requested

theorem owns_of_idle (idle : stage.request? = none) : stage.Owns id := by
  cases stage <;> trivial

theorem Owns.pushed (owns : stage.Owns id) (framed : stage.frame? id = some tag) :
    stage.pushed.Owns id := by
  cases stage with
  | submit => trivial
  | queue | exchangeQueue => exact owns
  | _ => cases framed

theorem Owns.fill (owns : stage.Owns id) (tag : Tag) (slot : Slot) :
    (stage.fill tag slot).Owns id := by
  cases stage with
  | exchangeQueue | exchangeAwait =>
    rcases owns with ⟨serial, isTag⟩
    refine ⟨serial, ?_⟩
    split <;> exact isTag
  | queue queued =>
    change (if queued.tag = tag then { queued with slot := slot } else queued).tag = _
    split <;> exact owns
  | await waiting =>
    change (if waiting.tag = tag then { waiting with slot := slot } else waiting).tag = _
    split <;> exact owns
  | _ => exact owns

end Stage

structure SoundCalls (calls : SortedMap Nat Call) (allocated : Nat) : Prop where
  begun : forall id call, calls.get? id = some call -> id < allocated
  owner : forall id call, calls.get? id = some call -> call.stage.Owns id
  alone : forall id call, calls.get? id = some call -> call.stage.guard = .write ->
    forall other otherCall, calls.get? other = some otherCall ->
      otherCall.stage.guard ≠ .none -> other = id

def Sound (tasks : Shared) : Prop := SoundCalls tasks.calls tasks.allocated

namespace Sound

variable {tasks : Shared} {id : Nat} {call : Call} {stage : Stage}

theorem start : Sound .start := ⟨nofun, nofun, nofun⟩

section

variable (sound : Sound tasks)

include sound

/-- A call goes on to a stage whose guard no other call excludes. -/
theorem move (begun : id < tasks.allocated) (owner : stage.Owns id)
    (writes : stage.guard = .write -> forall other otherCall,
      tasks.calls.get? other = some otherCall -> otherCall.stage.guard ≠ .none -> other = id)
    (reads : stage.guard ≠ .none -> forall other otherCall,
      tasks.calls.get? other = some otherCall -> otherCall.stage.guard = .write -> other = id) :
    Sound (tasks.move id call stage) := by
  refine ⟨SortedMap.All.insert sound.begun begun, SortedMap.All.insert sound.owner owner, ?_⟩
  intro other otherCall found isWrite third thirdCall thirdFound holds
  rcases found_move found with ⟨rfl, rfl⟩ | ⟨different, found⟩
  · rcases found_move thirdFound with ⟨rfl, _⟩ | ⟨_, thirdFound⟩
    · rfl
    · exact writes isWrite third thirdCall thirdFound holds
  · rcases found_move thirdFound with ⟨_, rfl⟩ | ⟨_, thirdFound⟩
    · exact absurd (reads holds other otherCall found isWrite) different
    · exact sound.alone other otherCall found isWrite third thirdCall thirdFound holds

theorem keep (found : tasks.calls.get? id = some call) (owner : stage.Owns id)
    (guard : stage.guard = .none ∨ stage.guard = call.stage.guard) :
    Sound (tasks.move id call stage) := by
  refine sound.move (sound.begun id call found) owner ?_ ?_
  · intro isWrite
    rcases guard with isNone | same
    · cases isNone.symm.trans isWrite
    · exact sound.alone id call found (same.symm.trans isWrite)
  · intro holds other otherCall isOther isWrite
    rcases guard with isNone | same
    · exact absurd isNone holds
    · exact (sound.alone other otherCall isOther isWrite id call found (same ▸ holds)).symm

/-- A call without a request keeps its guard or gives it up. -/
theorem idle (found : tasks.calls.get? id = some call) (requested : stage.request? = none)
    (guard : stage.guard = .none ∨ stage.guard = call.stage.guard) :
    Sound (tasks.move id call stage) :=
  sound.keep found (Stage.owns_of_idle requested) guard

theorem finish (id : Nat) (outcome : Outcome) :
    Sound (tasks.finish id outcome) where
  begun := SortedMap.All.filter sound.begun
  owner := SortedMap.All.filter sound.owner
  alone := fun other otherCall found isWrite third thirdCall thirdFound =>
    sound.alone other otherCall (found_finish found).2 isWrite third thirdCall
      (found_finish thirdFound).2

theorem fill (tag : Tag) (slot : Slot) : Sound (tasks.fill tag slot) := by
  have before : forall id call, (tasks.fill tag slot).calls.get? id = some call ->
      Exists fun earlier => tasks.calls.get? id = some earlier ∧
        call.stage.guard = earlier.stage.guard ∧ call.stage.Owns id := by
    intro id call found
    rcases found_fill found with ⟨earlier, isEarlier, rfl | rfl⟩
    · exact ⟨call, isEarlier, rfl, sound.owner id call isEarlier⟩
    · exact ⟨earlier, isEarlier, Stage.guard_fill tag slot _,
        (sound.owner id earlier isEarlier).fill tag slot⟩
  refine ⟨?_, ?_, ?_⟩
  · intro id call found
    rcases before id call found with ⟨earlier, isEarlier, _⟩
    exact sound.begun id earlier isEarlier
  · intro id call found
    rcases before id call found with ⟨_, _, _, owns⟩
    exact owns
  · intro id call found isWrite other otherCall isOther holds
    rcases before id call found with ⟨earlier, isEarlier, sameGuard, _⟩
    rcases before other otherCall isOther with ⟨otherEarlier, isOtherEarlier, otherGuard, _⟩
    exact sound.alone id earlier isEarlier (sameGuard.symm.trans isWrite) other otherEarlier
      isOtherEarlier (otherGuard ▸ holds)

theorem poll {next : Shared} {move : Move} (found : tasks.calls.get? id = some call)
    (polled : Poll tasks id call move next) :
    Sound next := by
  have begun := sound.begun id call found
  cases polled with
  | due | again | authenticated => exact sound.idle found rfl (.inl rfl)
  | submit checking free | register checking free =>
    exact sound.move begun (by trivial) nofun
      fun _ other otherCall isOther isWrite => absurd isWrite (guard_of_locked free isOther)
  | exchange waiting free isDue =>
    refine sound.move begun trivial ?_ ?_
    · exact fun _ other otherCall isOther holds => absurd (guard_of_held free isOther) holds
    · exact fun _ other otherCall isOther isWrite =>
        absurd ((guard_of_held free isOther).symm.trans isWrite) nofun
  | saslRequest exchange =>
    exact sound.keep found ⟨tasks.exchanged, rfl⟩ (.inr (by rw [exchange]; rfl))
  | rejected isStage | erase isStage | cancel isStage | release isStage =>
    exact sound.idle found rfl (.inr (by rw [isStage]; rfl))
  | refused framed =>
    have spec := Stage.refused_spec framed
    exact sound.idle found spec.1 (.inr spec.2.1)
  | pushed framed =>
    exact sound.keep found ((sound.owner id call found).pushed framed)
      (Stage.pushed_spec framed).2.1
  | took awaits =>
    have spec := Stage.took_spec awaits
    exact sound.idle found spec.1 (.inr spec.2.1)
  | lost awaits =>
    have spec := Stage.lost_spec awaits
    exact sound.idle found spec.1 (.inr spec.2.1)
  | expired awaits =>
    have spec := Stage.expired_spec awaits
    exact sound.idle found spec.1 (.inr spec.2.1)
  | finish => exact sound.finish id _

theorem read {setup : Setup} {next : Shared} (read : Read setup tasks act next) :
    Sound next := by
  cases read with
  | fulfil | fail => exact sound.fill _ _
  | _ => exact sound

theorem allocate (kind : Kind) : Sound (tasks.allocate kind) := by
  have counted : Sound { tasks with allocated := tasks.allocated + 1 } :=
    ⟨fun other otherCall found => Nat.lt_succ_of_lt (sound.begun other otherCall found),
      sound.owner, sound.alone⟩
  exact @move _ _ ⟨kind, tasks.nextCorrId, .checking⟩ .checking counted (Nat.lt_succ_self _)
    trivial nofun (absurd rfl)

end

end Sound

theorem step_sound {act : Act} (sound : Sound tasks) (stepped : tasks.step setup act = some next) :
    Sound next := by
  cases Shared.step_inv stepped with
  | begin kind => exact sound.allocate kind
  | poll found polled => exact sound.poll found polled
  | drop | dropRequest => exact sound.finish _ .dropped
  | reader read => exact sound.read read
  | _ => exact sound

end Tasks
end Connection
end Krabka
