import Krabka.Collections.SortedMap
import Krabka.Transition

namespace Krabka
namespace Connection

open Collections (SortedMap)

/-!
# One connection and its calls

The request path of a connection: correlation ids, the map `pending`, the channel to the
writer task, the frames on the wire, and the calls in progress at their await points.  A
call is a `send`, a `raw_request` or a `send_no_response`; a re-authentication runs inside
the call that found it due, over the same channel and map, with reserved ids.

A `Tag` names a request, and stands for the broker's answer to the frame of that request.
No function of the program reads it.  `allocated`, `exchanged` and `returned` are history
too.  A connection without SASL state is one whose re-authentication never gets due.
-/

/-! ## Correlation ids -/

def MAX_RESERVED_CORRELATION_ID : Int := 2147483647

def MIN_RESERVED_CORRELATION_ID : Int := MAX_RESERVED_CORRELATION_ID - 7

/-- What `next_correlation_id` of the connection leaves in the counter. -/
def nextCorrelationId (current : Int) : Int :=
  if current ≥ MIN_RESERVED_CORRELATION_ID - 1 then 0 else current + 1

/-- `wrapping_add(1)` of an `i32`. -/
def wrappingSucc (value : Int) : Int := if value = 2147483647 then -2147483648 else value + 1

/-- `next_correlation_id` of an exchange: the reserved id, and the counter after it. -/
def nextReservedId (corrId : Int) : Int × Int :=
  let current := if corrId < MIN_RESERVED_CORRELATION_ID then MIN_RESERVED_CORRELATION_ID else corrId
  (current, wrappingSucc current)

/-! ## Calls -/

/-- A request: the one of a call, or one that a re-authentication makes inside a call. -/
inductive Tag where
  | own (call : Nat)
  | sasl (call : Nat) (serial : Nat)
deriving DecidableEq, Repr

namespace Tag

/-- The call that the request belongs to. -/
def call : Tag -> Nat
  | .own call | .sasl call _ => call

end Tag

structure Frame where
  tag : Tag
  corrId : Int
deriving DecidableEq, Repr

/-- A registered request with the receiver of its one-shot channel. -/
structure Request where
  tag : Tag
  corrId : Int
  /-- The frame whose answer the reader put into the channel. -/
  slot : Option Tag
deriving DecidableEq, Repr

inductive Kind where
  | send
  | sendNoResponse
deriving DecidableEq, Repr

/-- The await point of a call. -/
inductive Stage where
  /-- It waits for the read lock of the due time. -/
  | checking
  /-- It found the re-authentication due and waits for the write lock. -/
  | waiting
  /-- It holds the write lock, between two requests of the exchange. -/
  | exchange (saslId : Int)
  /-- A request of the exchange waits for room in the channel to the writer. -/
  | exchangeQueue (saslId : Int) (request : Request)
  | exchangeAwait (saslId : Int) (request : Request)
  /-- A frame without a response waits for room, under the read lock. -/
  | submit
  /-- The request waits for room, under the read lock. -/
  | queue (request : Request)
  | await (request : Request)
deriving DecidableEq, Repr

namespace Stage

/-- The request that the call has registered. -/
def request? : Stage -> Option Request
  | .checking | .waiting | .exchange _ | .submit => none
  | .exchangeQueue _ request | .exchangeAwait _ request | .queue request | .await request =>
    some request

/-- The call holds the write lock. -/
def exclusive : Stage -> Bool
  | .exchange _ | .exchangeQueue _ _ | .exchangeAwait _ _ => true
  | _ => false

/-- The call holds the read lock. -/
def reads : Stage -> Bool
  | .submit | .queue _ => true
  | _ => false

/-- Put an answer into the one-shot channel of `tag`. -/
def fill (tag answer : Tag) : Stage -> Stage
  | .exchangeQueue saslId request =>
    .exchangeQueue saslId
      (if request.tag = tag then { request with slot := some answer } else request)
  | .exchangeAwait saslId request =>
    .exchangeAwait saslId
      (if request.tag = tag then { request with slot := some answer } else request)
  | .queue request =>
    .queue (if request.tag = tag then { request with slot := some answer } else request)
  | .await request =>
    .await (if request.tag = tag then { request with slot := some answer } else request)
  | stage => stage

theorem request?_fill (tag answer : Tag) (stage : Stage) :
    (stage.fill tag answer).request? = stage.request?.map fun request =>
      if request.tag = tag then { request with slot := some answer } else request := by
  cases stage <;> rfl

theorem exclusive_fill (tag answer : Tag) (stage : Stage) :
    (stage.fill tag answer).exclusive = stage.exclusive := by
  cases stage <;> rfl

end Stage

structure Call where
  kind : Kind
  corrId : Int
  stage : Stage
deriving DecidableEq, Repr

structure ConnectionInner where
  nextCorrId : Int
  pending : SortedMap Int Tag
  /-- The frames in the channel to the writer. -/
  queue : List Frame
  /-- The frames written that the broker may still answer, in order. -/
  wire : List Frame
  /-- Whether a re-authentication is due. -/
  due : Bool
  /-- Whether the reader task runs. -/
  reading : Bool
  /-- The calls in progress, each under the number of ids allocated before its own. -/
  calls : SortedMap Nat Call
  allocated : Nat
  exchanged : Nat
  /-- Each request that returned a body, with the frame that the body answers. -/
  returned : List (Tag × Tag)
deriving DecidableEq

namespace ConnectionInner

def start : ConnectionInner where
  nextCorrId := 0
  pending := SortedMap.empty
  queue := []
  wire := []
  due := false
  reading := true
  calls := SortedMap.empty
  allocated := 0
  exchanged := 0
  returned := []

/-- Whether a call holds the write lock. -/
def locked (connection : ConnectionInner) : Bool :=
  connection.calls.entries.any fun entry => entry.2.stage.exclusive

/-- Whether a call holds the read or the write lock. -/
def held (connection : ConnectionInner) : Bool :=
  connection.calls.entries.any fun entry => entry.2.stage.exclusive || entry.2.stage.reads

/-- The call goes on to another await point. -/
def move (connection : ConnectionInner) (id : Nat) (call : Call) (stage : Stage) :
    ConnectionInner :=
  { connection with calls := connection.calls.insert id { call with stage := stage } }

/-- The drop guard of the registered request. -/
def unregister (connection : ConnectionInner) (stage : Stage) : ConnectionInner :=
  { connection with
    pending :=
      match stage.request? with
      | none => connection.pending
      | some request => connection.pending.erase request.corrId }

/-- The call is over: its future is gone, with the guards inside. -/
def finish (connection : ConnectionInner) (id : Nat) (call : Call) : ConnectionInner :=
  { connection.unregister call.stage with calls := connection.calls.erase id }

def allocate (connection : ConnectionInner) (kind : Kind) : ConnectionInner :=
  { connection with
    nextCorrId := nextCorrelationId connection.nextCorrId
    allocated := connection.allocated + 1
    calls := connection.calls.insert connection.allocated
      ⟨kind, connection.nextCorrId, .checking⟩ }

/-- The registration at the start of `enqueue`. -/
def register (connection : ConnectionInner) (tag : Tag) (corrId : Int) : ConnectionInner :=
  { connection with pending := connection.pending.insert corrId tag }

/-- A frame goes into the channel to the writer. -/
def push (connection : ConnectionInner) (tag : Tag) (corrId : Int) : ConnectionInner :=
  { connection with queue := connection.queue ++ [⟨tag, corrId⟩] }

/-- The reader takes the answer to `frame` to the request that is registered for its id. -/
def deliver (connection : ConnectionInner) (frame : Frame) : ConnectionInner :=
  match connection.pending.get? frame.corrId with
  | none => connection
  | some tag =>
    { connection with
      pending := connection.pending.erase frame.corrId
      calls :=
        match connection.calls.get? tag.call with
        | none => connection.calls
        | some call => connection.calls.insert tag.call
            { call with stage := call.stage.fill tag frame.tag } }

/-- The read lock is free: go on when no re-authentication is due. -/
def check (connection : ConnectionInner) (id : Nat) (call : Call) : ConnectionInner :=
  if connection.due then connection.move id call .waiting
  else match call.kind with
    | .sendNoResponse => connection.move id call .submit
    | .send =>
      (connection.register (.own id) call.corrId).move id call
        (.queue ⟨.own id, call.corrId, none⟩)

def exchangeRequest (connection : ConnectionInner) (id : Nat) (call : Call) (saslId : Int) :
    ConnectionInner :=
  let tag := Tag.sasl id connection.exchanged
  let next := nextReservedId saslId
  { (connection.register tag next.1).move id call (.exchangeQueue next.2 ⟨tag, next.1, none⟩) with
    exchanged := connection.exchanged + 1 }

end ConnectionInner

/-! ## Steps -/

inductive Act where
  | begin (kind : Kind)
  /-- The due time of the re-authentication passes. -/
  | expire
  | readLock (id : Nat)
  | writeLock (id : Nat)
  | saslRequest (id : Nat)
  /-- The exchange succeeds. -/
  | authenticated (id : Nat)
  /-- The channel to the writer has room. -/
  | push (id : Nat)
  /-- The writer writes the first frame of its channel. -/
  | write
  /-- The answer to the frame at `index` of the wire arrives.  The broker answers in order,
  so no earlier frame is answered any more. -/
  | receive (index : Nat)
  /-- The call takes the body from its one-shot channel. -/
  | take (id : Nat)
  /-- The call ends without a body: its caller drops it, its request times out, its channel
  is closed, or its re-authentication fails. -/
  | leave (id : Nat)
  /-- The reader stops. -/
  | stop
  /-- The reader fails a pending request at its end. -/
  | drain (corrId : Int)
deriving DecidableEq, Repr

namespace ConnectionInner

def step (connection : ConnectionInner) : Act -> Option ConnectionInner
  | .begin kind => some (connection.allocate kind)
  | .expire => some { connection with due := true }
  | .readLock id =>
    match connection.calls.get? id with
    | some ⟨kind, corrId, .checking⟩ =>
      if connection.locked then none
      else some (connection.check id ⟨kind, corrId, .checking⟩)
    | _ => none
  | .writeLock id =>
    match connection.calls.get? id with
    | some ⟨kind, corrId, .waiting⟩ =>
      if connection.held then none
      else if connection.due then
        some (connection.move id ⟨kind, corrId, .waiting⟩ (.exchange 0))
      -- Another call has authenticated meanwhile.
      else some (connection.move id ⟨kind, corrId, .waiting⟩ .checking)
    | _ => none
  | .saslRequest id =>
    match connection.calls.get? id with
    | some ⟨kind, corrId, .exchange saslId⟩ =>
      some (connection.exchangeRequest id ⟨kind, corrId, .exchange saslId⟩ saslId)
    | _ => none
  | .authenticated id =>
    match connection.calls.get? id with
    | some ⟨kind, corrId, .exchange saslId⟩ =>
      some { connection.move id ⟨kind, corrId, .exchange saslId⟩ .checking with due := false }
    | _ => none
  | .push id =>
    match connection.calls.get? id with
    | some ⟨kind, corrId, .queue request⟩ =>
      some ((connection.push request.tag request.corrId).move id
        ⟨kind, corrId, .queue request⟩ (.await request))
    | some ⟨kind, corrId, .exchangeQueue saslId request⟩ =>
      some ((connection.push request.tag request.corrId).move id
        ⟨kind, corrId, .exchangeQueue saslId request⟩ (.exchangeAwait saslId request))
    | some ⟨kind, corrId, .submit⟩ =>
      some ((connection.push (.own id) corrId).finish id ⟨kind, corrId, .submit⟩)
    | _ => none
  | .write =>
    match connection.queue with
    | [] => none
    | frame :: rest => some { connection with queue := rest, wire := connection.wire ++ [frame] }
  | .receive index =>
    if connection.reading then
      (connection.wire[index]?).map fun frame =>
        { connection with wire := connection.wire.drop (index + 1) }.deliver frame
    else none
  | .take id =>
    match connection.calls.get? id with
    | some ⟨kind, corrId, .await ⟨tag, sentId, some answer⟩⟩ =>
      some { connection.finish id ⟨kind, corrId, .await ⟨tag, sentId, some answer⟩⟩ with
        returned := (tag, answer) :: connection.returned }
    | some ⟨kind, corrId, .exchangeAwait saslId ⟨tag, sentId, some answer⟩⟩ =>
      let stage := Stage.exchangeAwait saslId ⟨tag, sentId, some answer⟩
      some { (connection.unregister stage).move id ⟨kind, corrId, stage⟩ (.exchange saslId) with
        returned := (tag, answer) :: connection.returned }
    | _ => none
  | .leave id => (connection.calls.get? id).map (connection.finish id)
  | .stop => some { connection with reading := false }
  | .drain corrId =>
    if connection.reading then none
    else some { connection with pending := connection.pending.erase corrId }

end ConnectionInner

/-- One act, with what it needs and what it leaves. -/
inductive Step (connection : ConnectionInner) : Act -> ConnectionInner -> Prop where
  | begin (kind : Kind) : Step connection (.begin kind) (connection.allocate kind)
  | expire : Step connection .expire { connection with due := true }
  | due {id : Nat} {call : Call} (found : connection.calls.get? id = some call)
      (checking : call.stage = .checking) :
      Step connection (.readLock id) (connection.move id call .waiting)
  | submit {id : Nat} {call : Call} (found : connection.calls.get? id = some call)
      (checking : call.stage = .checking) :
      Step connection (.readLock id) (connection.move id call .submit)
  | register {id : Nat} {call : Call} (found : connection.calls.get? id = some call)
      (checking : call.stage = .checking) :
      Step connection (.readLock id)
        ((connection.register (.own id) call.corrId).move id call
          (.queue ⟨.own id, call.corrId, none⟩))
  | writeLock {id : Nat} {call : Call} (found : connection.calls.get? id = some call)
      (waiting : call.stage = .waiting) (free : connection.held = false) :
      Step connection (.writeLock id) (connection.move id call (.exchange 0))
  | again {id : Nat} {call : Call} (found : connection.calls.get? id = some call)
      (waiting : call.stage = .waiting) :
      Step connection (.writeLock id) (connection.move id call .checking)
  | saslRequest {id : Nat} {call : Call} {saslId : Int}
      (found : connection.calls.get? id = some call) (exchange : call.stage = .exchange saslId) :
      Step connection (.saslRequest id) (connection.exchangeRequest id call saslId)
  | authenticated {id : Nat} {call : Call} {saslId : Int}
      (found : connection.calls.get? id = some call) (exchange : call.stage = .exchange saslId) :
      Step connection (.authenticated id) { connection.move id call .checking with due := false }
  | push {id : Nat} {call : Call} {request : Request}
      (found : connection.calls.get? id = some call) (queued : call.stage = .queue request) :
      Step connection (.push id)
        ((connection.push request.tag request.corrId).move id call (.await request))
  | saslPush {id : Nat} {call : Call} {saslId : Int} {request : Request}
      (found : connection.calls.get? id = some call)
      (queued : call.stage = .exchangeQueue saslId request) :
      Step connection (.push id)
        ((connection.push request.tag request.corrId).move id call
          (.exchangeAwait saslId request))
  | submitted {id : Nat} {call : Call} (found : connection.calls.get? id = some call)
      (submit : call.stage = .submit) :
      Step connection (.push id) ((connection.push (.own id) call.corrId).finish id call)
  | write {frame : Frame} {rest : List Frame} (queued : connection.queue = frame :: rest) :
      Step connection .write
        { connection with queue := rest, wire := connection.wire ++ [frame] }
  | receive {index : Nat} {frame : Frame} (written : connection.wire[index]? = some frame) :
      Step connection (.receive index)
        ({ connection with wire := connection.wire.drop (index + 1) }.deliver frame)
  | take {id : Nat} {call : Call} {request : Request} {answer : Tag}
      (found : connection.calls.get? id = some call) (awaits : call.stage = .await request)
      (answered : request.slot = some answer) :
      Step connection (.take id)
        { connection.finish id call with
          returned := (request.tag, answer) :: connection.returned }
  | saslTake {id : Nat} {call : Call} {saslId : Int} {request : Request} {answer : Tag}
      (found : connection.calls.get? id = some call)
      (awaits : call.stage = .exchangeAwait saslId request)
      (answered : request.slot = some answer) :
      Step connection (.take id)
        { (connection.unregister call.stage).move id call (.exchange saslId) with
          returned := (request.tag, answer) :: connection.returned }
  | leave {id : Nat} {call : Call} (found : connection.calls.get? id = some call) :
      Step connection (.leave id) (connection.finish id call)
  | stop : Step connection .stop { connection with reading := false }
  | drain (corrId : Int) :
      Step connection (.drain corrId)
        { connection with pending := connection.pending.erase corrId }

theorem ConnectionInner.step_inv {connection next : ConnectionInner} {act : Act}
    (stepped : connection.step act = some next) : Step connection act next := by
  cases act with
  | begin kind =>
    cases stepped
    exact .begin kind
  | expire =>
    cases stepped
    exact .expire
  | readLock id =>
    simp only [step] at stepped
    split at stepped
    · rename_i kind corrId found
      split at stepped <;> cases stepped
      unfold check
      split
      · exact .due found rfl
      · cases kind with
        | send => exact .register found rfl
        | sendNoResponse => exact .submit found rfl
    · cases stepped
  | writeLock id =>
    simp only [step] at stepped
    split at stepped
    · rename_i kind corrId found
      split at stepped
      · cases stepped
      · rename_i free
        split at stepped <;> cases stepped
        · exact .writeLock found rfl (Bool.of_not_eq_true free)
        · exact .again found rfl
    · cases stepped
  | saslRequest id =>
    simp only [step] at stepped
    split at stepped <;> cases stepped
    rename_i kind corrId saslId found
    exact .saslRequest found rfl
  | authenticated id =>
    simp only [step] at stepped
    split at stepped <;> cases stepped
    rename_i kind corrId saslId found
    exact .authenticated found rfl
  | push id =>
    simp only [step] at stepped
    split at stepped <;> cases stepped
    · rename_i kind corrId request found
      exact .push found rfl
    · rename_i kind corrId saslId request found
      exact .saslPush found rfl
    · rename_i kind corrId found
      exact .submitted found rfl
  | write =>
    simp only [step] at stepped
    split at stepped <;> cases stepped
    rename_i frame rest queued
    exact .write queued
  | receive index =>
    simp only [step] at stepped
    split at stepped
    · rcases Option.map_eq_some_iff.mp stepped with ⟨frame, written, delivered⟩
      rw [<- delivered]
      exact .receive written
    · cases stepped
  | take id =>
    simp only [step] at stepped
    split at stepped <;> cases stepped
    · rename_i kind corrId tag sentId answer found
      exact .take found rfl rfl
    · rename_i kind corrId saslId tag sentId answer found
      exact .saslTake found rfl rfl
  | leave id =>
    rcases Option.map_eq_some_iff.mp stepped with ⟨call, found, finished⟩
    rw [<- finished]
    exact .leave found
  | stop =>
    cases stepped
    exact .stop
  | drain corrId =>
    simp only [step] at stepped
    split at stepped <;> cases stepped
    exact .drain corrId

end Connection
end Krabka
