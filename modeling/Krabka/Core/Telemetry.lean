import Krabka.Transition

namespace Krabka
namespace Core
namespace Telemetry

open List

/-!
# The state machine of the telemetry sender

A telemetry sender asks the broker for a subscription, pushes metrics, and sends one terminating
push when the client closes.  A transition outside its table switches telemetry off.  A close can
overtake a request, so that the answer arrives in a state it was not written for: an error
answer to a subscriptions request is looked at before the terminating states are, and a close
counts on a subscription that a retried first request has not brought yet.
-/

inductive TelemetryState where
  | subscriptionNeeded
  | subscriptionInProgress
  | pushNeeded
  | pushInProgress
  | terminatingPushNeeded
  | terminatingPushInProgress
  | terminated
deriving DecidableEq, Repr

namespace TelemetryState

@[simp] def allows (state next : TelemetryState) : Bool :=
  (state = subscriptionNeeded && next ∈ [subscriptionInProgress, terminated]) ||
  (state ∈ [subscriptionInProgress, pushNeeded, pushInProgress] &&
    next ∈ [subscriptionNeeded, terminatingPushNeeded, terminated]) ||
  (state ∈ [subscriptionInProgress, pushInProgress] && next = pushNeeded) ||
  (state = pushNeeded && next = pushInProgress) ||
  (state = terminatingPushNeeded && next ∈ [terminatingPushInProgress, terminated]) ||
  (state = terminatingPushInProgress && next = terminated)

@[simp] def isTerminating (state : TelemetryState) : Bool :=
  state ∈ [terminatingPushNeeded, terminatingPushInProgress, terminated]

end TelemetryState

structure Subscription where
  clientInstanceId : Nat
  id : Int
  pushIntervalMs : Int
deriving DecidableEq, Repr

/-- The wait after an error code. -/
inductive ErrorInterval where
  /-- A retry cannot resolve the error. -/
  | disable
  | retry (interval : Nat)
deriving DecidableEq, Repr

def defaultPushIntervalMs : Int := 5 * 60 * 1000

def errorInterval (errorCode : Int) (pushIntervalMs : Option Int) : Option ErrorInterval :=
  if errorCode = 0 then none
  else if errorCode ∈ [42, 87, 35] then some .disable
  else if errorCode ∈ [117, 76] then some (.retry 0)
  else if errorCode ∈ [118, 89] then
    some (.retry (pushIntervalMs.getD defaultPushIntervalMs).toNat)
  else some .disable

inductive Failure where
  | retriable
  | fatal
deriving DecidableEq, Repr

inductive TelemetryRequest where
  | subscriptions (clientInstanceId : Nat)
  | push (clientInstanceId : Nat) (subscriptionId : Int) (terminating : Bool)
deriving DecidableEq, Repr

structure SubscriptionsResponse where
  errorCode : Int
  /-- Zero is the zero UUID. -/
  clientInstanceId : Nat
  subscriptionId : Int
  pushIntervalMs : Int
  /-- The requested metrics select none. -/
  noMetrics : Bool
deriving DecidableEq, Repr

inductive Answer where
  | subscriptions (response : SubscriptionsResponse) (jittered : Nat)
  | push (errorCode : Int)
  | failed (failure : Failure)
deriving DecidableEq, Repr

@[simp] def Answer.ends : Answer -> TelemetryRequest -> Bool
  | .subscriptions _ _, .push _ _ _ | .push _, .subscriptions _ => false
  | _, _ => true

/-- The answer is an error code or a failure that a retry cannot fix. -/
@[simp] def Answer.unfixable : Answer -> Bool
  | .subscriptions response _ => errorInterval response.errorCode none = some .disable
  | .push errorCode => errorInterval errorCode none = some .disable
  | .failed failure => failure = .fatal

structure TelemetrySender where
  state : TelemetryState
  subscription : Option Subscription
  lastRequest : Option Nat
  interval : Nat
  enabled : Bool
  /-- A transition was refused, for the statements only. -/
  refused : Bool
deriving DecidableEq, Repr

namespace TelemetrySender

def new : TelemetrySender := ⟨.subscriptionNeeded, none, none, 0, true, false⟩

variable (sender : TelemetrySender)

@[simp] def timeToNextUpdate (now requestTimeout : Nat) : Option Nat :=
  if sender.enabled then
    match sender.state with
    | .subscriptionInProgress | .pushInProgress => some requestTimeout
    | .terminatingPushInProgress | .terminated => none
    | .terminatingPushNeeded => some 0
    | .subscriptionNeeded | .pushNeeded =>
      some (sender.lastRequest.elim 0 fun last => last + sender.interval - now)
  else none

@[simp] def setState (next : TelemetryState) : TelemetrySender × Bool :=
  if sender.state.allows next then ({ sender with state := next }, true)
  else ({ sender with enabled := false, refused := true }, false)

@[simp] def updateErrorResult (interval : ErrorInterval) (now : Nat) : TelemetrySender :=
  match interval with
  | .disable => { sender with enabled := false, lastRequest := some now }
  | .retry interval => { sender with interval := interval, lastRequest := some now }

@[simp] def createPushRequest : TelemetrySender × Option TelemetryRequest :=
  match sender.subscription with
  | none => ((sender.setState .subscriptionNeeded).1, none)
  | some subscription =>
    let terminating := sender.state = .terminatingPushNeeded
    let moved := sender.setState
      (if terminating then .terminatingPushInProgress else .pushInProgress)
    (moved.1, if moved.2 then
      some (.push subscription.clientInstanceId subscription.id terminating) else none)

@[simp] def createRequest : TelemetrySender × Option TelemetryRequest :=
  match sender.state with
  | .subscriptionNeeded =>
    let moved := sender.setState .subscriptionInProgress
    (moved.1, if moved.2 then
      some (.subscriptions (sender.subscription.elim 0 (·.clientInstanceId))) else none)
  | .pushNeeded | .terminatingPushNeeded => sender.createPushRequest
  | _ => (sender, none)

/-- `jittered` is the push interval times the jitter, which any number can be here. -/
@[simp] def handleSubscriptionsResponse (response : SubscriptionsResponse) (now jittered : Nat) :
    TelemetrySender :=
  match errorInterval response.errorCode (sender.subscription.map (·.pushIntervalMs)) with
  | some interval => (sender.setState .subscriptionNeeded).1.updateErrorResult interval now
  | none =>
    if sender.state.isTerminating then sender
    else if response.clientInstanceId = 0 then
      (sender.setState .subscriptionNeeded).1.updateErrorResult .disable now
    else
      let pushIntervalMs :=
        if response.pushIntervalMs ≤ 0 then defaultPushIntervalMs else response.pushIntervalMs
      let moved := sender.setState
        (if response.noMetrics then .subscriptionNeeded else .pushNeeded)
      if moved.2 then { moved.1 with
        interval := if moved.1.state = .pushNeeded then jittered else pushIntervalMs.toNat
        lastRequest := some now
        subscription := some ⟨response.clientInstanceId, response.subscriptionId, pushIntervalMs⟩ }
      else moved.1

@[simp] def handlePushResponse (errorCode : Int) (now : Nat) : TelemetrySender :=
  if sender.state.isTerminating then sender
  else
    let pushIntervalMs := sender.subscription.map (·.pushIntervalMs)
    match errorInterval errorCode pushIntervalMs with
    | some interval => (sender.setState .subscriptionNeeded).1.updateErrorResult interval now
    | none =>
      ({ sender with
        lastRequest := some now
        interval := (pushIntervalMs.getD defaultPushIntervalMs).toNat }.setState .pushNeeded).1

@[simp] def handleFailedRequest (failure : Failure) (now : Nat) : TelemetrySender :=
  if sender.state.isTerminating then sender
  else if sender.state ∉ [.subscriptionInProgress, .pushInProgress] then
    sender.updateErrorResult .disable now
  else
    let interval := match failure with
      | .retriable => .retry defaultPushIntervalMs.toNat
      | .fatal => .disable
    ((sender.updateErrorResult interval now).setState .subscriptionNeeded).1

@[simp] def initiateClose : TelemetrySender × Bool :=
  if sender.lastRequest = none ∨ sender.state = .subscriptionNeeded ∨ sender.state.isTerminating
  then (sender, false)
  else sender.setState .terminatingPushNeeded

@[simp] def close : TelemetrySender :=
  if sender.state ≠ .terminated then (sender.setState .terminated).1 else sender

@[simp] def handle (now : Nat) : Answer -> TelemetrySender
  | .subscriptions response jittered => sender.handleSubscriptionsResponse response now jittered
  | .push errorCode => sender.handlePushResponse errorCode now
  | .failed failure => sender.handleFailedRequest failure now

end TelemetrySender

/-! ## Requests, answers and the close in any order -/

inductive Event where
  | create (now requestTimeout : Nat)
  | answer (index : Nat) (answer : Answer) (now : Nat)
  | initiateClose
  | close
deriving DecidableEq, Repr

structure World where
  sender : TelemetrySender
  /-- The requests without an answer. -/
  flight : List TelemetryRequest
  /-- An unfixable answer has come. -/
  unfixable : Bool
  /-- The requests created since `initiate_close` returned true. -/
  sent : Option (List TelemetryRequest)
deriving DecidableEq, Repr

def World.start : World := ⟨.new, [], false, none⟩

/-- `create_request` runs when it is due, and nothing comes after the close. -/
def World.step (world : World) (event : Event) : Option World :=
  if world.sender.state = .terminated then none
  else match event with
  | .create now requestTimeout =>
    if world.sender.timeToNextUpdate now requestTimeout = some 0 then
      let created := world.sender.createRequest
      some { world with
        sender := created.1
        flight := created.2.toList ++ world.flight
        sent := world.sent.map (created.2.toList ++ ·) }
    else none
  | .answer index answer now =>
    if world.flight[index]?.any answer.ends then
      some { world with
        sender := world.sender.handle now answer
        flight := world.flight.eraseIdx index
        unfixable := world.unfixable || answer.unfixable }
    else none
  | .initiateClose =>
    let closed := world.sender.initiateClose
    some { world with
      sender := closed.1
      sent := if closed.2 then some [] else world.sent }
  | .close => some { world with sender := world.sender.close }

/-- A close that announces a terminating push finds a subscription, no subscriptions answer that
comes after it carries an error code, and every other one carries a client instance id. -/
def Gentle (world : World) : Event -> Prop
  | .answer _ (.subscriptions response _) _ =>
    if response.errorCode = 0 then response.clientInstanceId ≠ 0
    else world.sender.state.isTerminating = false
  | .initiateClose => world.sender.initiateClose.2 = true -> world.sender.subscription.isSome
  | _ => True

instance (world : World) (event : Event) : Decidable (Gentle world event) := by
  unfold Gentle
  split <;> infer_instance

/-! ## What holds in each state -/

/-- Only a sender that needs a subscription can be switched off, and a terminating push is the
only request after the close began. -/
@[simp] def Fits (world : World) : TelemetryState -> Prop
  | .subscriptionNeeded => world.sent = none ∧ world.flight = []
  | .subscriptionInProgress => world.sent = none ∧ world.sender.enabled = true ∧
      Exists fun id => world.flight = [.subscriptions id]
  | .pushNeeded => world.sent = none ∧ world.sender.enabled = true ∧
      world.sender.subscription.isSome ∧ world.flight = []
  | .pushInProgress => world.sent = none ∧ world.sender.enabled = true ∧
      Exists fun request => world.flight = [request] ∧ world.sender.subscription.isSome
  | .terminatingPushNeeded => world.sent = some [] ∧ world.sender.enabled = true ∧
      world.sender.subscription.isSome
  | .terminatingPushInProgress => Exists fun id => Exists fun subscription =>
      world.sent = some [.push id subscription true]
  | .terminated => True

structure Sound (world : World) : Prop where
  refused : world.sender.refused = false
  enabled : world.sender.enabled = false -> world.unfixable = true
  fits : Fits world world.sender.state

variable {world next : World} {event : Event}

open TelemetrySender

@[simp] theorem errorInterval_zero (pushIntervalMs : Option Int) :
    errorInterval 0 pushIntervalMs = none :=
  rfl

/-- Whether a retry can resolve an error code does not depend on the push interval. -/
theorem errorInterval_spec (errorCode : Int) (pushIntervalMs : Option Int) :
    errorCode = 0 ∨
      (Exists fun wait => errorInterval errorCode pushIntervalMs = some (.retry wait)) ∨
      errorInterval errorCode pushIntervalMs = some .disable ∧
        errorInterval errorCode none = some .disable := by
  unfold errorInterval
  split_ifs <;> simp_all

theorem step_sound (sound : Sound world) (gentle : Gentle world event)
    (stepped : world.step event = some next) : Sound next := by
  rcases sound with ⟨refused, enabled, fits⟩
  unfold World.step at stepped
  split_ifs at stepped with isOver
  cases event with
  | create now requestTimeout =>
    dsimp only at stepped
    split_ifs at stepped
    cases stepped
    cases state : world.sender.state <;> cases subscribed : world.sender.subscription <;>
      constructor <;> simp_all
  | answer index answer now =>
    dsimp only at stepped
    split_ifs at stepped with found
    cases stepped
    cases state : world.sender.state
    case subscriptionNeeded | pushNeeded => simp_all
    case subscriptionInProgress | pushInProgress =>
      rw [state] at fits
      rcases fits with ⟨unsent, isOn, request, flight⟩
      -- The answer is to the one request in progress.
      obtain rfl : index = 0 := by cases index <;> simp_all
      have errors errorCode :=
        errorInterval_spec errorCode (world.sender.subscription.map (·.pushIntervalMs))
      cases answer with
      | subscriptions response jittered =>
        rcases errors response.errorCode with noError | ⟨wait, retried⟩ | disabled <;>
          cases metrics : response.noMetrics <;> constructor <;> simp_all [Gentle]
      | push errorCode =>
        rcases errors errorCode with noError | ⟨wait, retried⟩ | disabled <;>
          constructor <;> simp_all
      | failed failure => cases failure <;> constructor <;> simp_all
    all_goals cases answer <;> constructor <;> simp_all [Gentle]
  | initiateClose =>
    cases stepped
    by_cases unasked : world.sender.lastRequest = none <;>
      cases state : world.sender.state <;> constructor <;> simp_all [Gentle]
  | close =>
    cases stepped
    cases state : world.sender.state <;> constructor <;> simp_all

/-- In a gentle run no transition is refused and only an unfixable event switches telemetry off.
Once `initiate_close` has returned true, the terminating push is due at once until it is created,
and then nothing more is. -/
theorem run_terminating_push_once (events : List Event) (world : World)
    (ran : Transition.run World.step .start events = some world)
    (gentle : Transition.Along World.step Gentle .start events) :
    world.sender.refused = false ∧ (world.sender.enabled = false -> world.unfixable = true) ∧
      forall sent, world.sent = some sent -> world.sender.state ≠ .terminated ->
        (sent = [] ∧ (forall now timeout, world.sender.timeToNextUpdate now timeout = some 0) ∧
          Exists fun id => Exists fun subscription =>
            world.sender.createRequest.2 = some (.push id subscription true)) ∨
        ((Exists fun id => Exists fun subscription => sent = [.push id subscription true]) ∧
          forall now timeout, world.sender.timeToNextUpdate now timeout = none) := by
  have start : Sound .start := ⟨rfl, nofun, rfl, rfl⟩
  have sound := Transition.run_invariant Sound (fun _ _ _ => step_sound) start gentle ran
  refine ⟨sound.refused, sound.enabled, ?_⟩
  intro sent isSent notOver
  have fits := sound.fits
  cases state : world.sender.state <;> rw [state] at fits
  case terminatingPushNeeded =>
    rcases Option.isSome_iff_exists.mp fits.2.2 with ⟨subscription, subscribed⟩
    refine .inl ⟨?_, ?_, subscription.clientInstanceId, subscription.id, ?_⟩ <;> simp_all
  case terminatingPushInProgress =>
    rcases fits with ⟨id, subscription, pushed⟩
    refine .inr ⟨⟨id, subscription, Option.some.inj (isSent.symm.trans pushed)⟩, ?_⟩
    simp [state]
  case terminated => exact absurd state notOver
  all_goals cases isSent.symm.trans fits.1

/-- The close overtakes the first push, whose answer is an error. -/
def overtaken : List Event :=
  [.create 0 9, .answer 0 (.subscriptions ⟨0, 7, 1, 0, false⟩ 5) 1, .create 6 9, .initiateClose,
    .answer 0 (.push 42) 7, .create 7 9, .answer 0 (.push 0) 8]

theorem run_terminating_push_once_overtaken :
    Exists fun world => Transition.run World.step .start overtaken = some world ∧
      world.sent = some [.push 7 1 true] ∧ world.sender.refused = false :=
  ⟨_, rfl, rfl, (run_terminating_push_once overtaken _ rfl (by decide)).1⟩

/-- The first subscriptions answer asks for a retry, and the close comes before the second. -/
def unsubscribed : List Event :=
  [.create 0 9, .answer 0 (.subscriptions ⟨117, 0, 0, 0, false⟩ 0) 1, .create 1 9, .initiateClose,
    .create 1 9]

/-- The broker answers a subscriptions request with an error after the close began. -/
def answeredLate : List Event :=
  [.create 0 9, .answer 0 (.subscriptions ⟨0, 7, 1, 5, true⟩ 0) 1, .create 6 9, .initiateClose,
    .answer 0 (.subscriptions ⟨117, 0, 0, 0, false⟩ 0) 7]

/-- Both runs attempt a transition outside the table, and the terminating push is never sent. -/
theorem retry_refuses_terminating_push :
    [unsubscribed, answeredLate].map (fun events =>
        (Transition.run World.step .start events).map fun world =>
          (world.sender.refused, world.sender.enabled, world.unfixable, world.sent)) =
      replicate 2 (some (true, false, false, some [])) :=
  rfl

end Telemetry
end Core
end Krabka
