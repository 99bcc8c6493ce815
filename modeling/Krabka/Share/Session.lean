import Krabka.Share.Acknowledgement
import Mathlib.Data.Finset.SDiff

namespace Krabka
namespace Share
namespace Session

open Collections Option

/-!
# Share sessions

The broker keeps one session for the member: the epoch it expects next, and the
partitions it serves.  The client keeps one number, the epoch of its next request,
and advances it with each success.  It never goes back to epoch 0 and never names
a partition to forget.

The broker is the protocol partner of the client, not code of this repository.
-/

/-- The share session that the broker keeps for the member. -/
structure BrokerSession where
  nextEpoch : Int
  partitions : Finset (WireUuid ×ₗ Int)

def SHARE_SESSION_NOT_FOUND : Int := 122

def INVALID_SHARE_SESSION_EPOCH : Int := 123

/-- The epoch after `epoch`.  Epoch 0 opens a session, so the broker wraps to 1. -/
def nextEpoch (epoch : Int) : Int := if epoch = I32_MAX then 1 else epoch + 1

/-- The partitions of a request. -/
def requested (topics : List RequestTopic) : Finset (WireUuid ×ₗ Int) :=
  ((requestRows topics).map Prod.fst).toFinset

def forgotten (topics : List (WireUuid × List Int)) : Finset (WireUuid ×ₗ Int) :=
  (topics.flatMap fun topic => topic.2.map (partitionKey topic.1)).toFinset

def serve (broker : Option BrokerSession) : Request -> Option BrokerSession
  | .fetch request =>
    if request.shareSessionEpoch = 0 then some ⟨nextEpoch 0, requested request.topics⟩
    else match broker with
      | none => none
      | some session =>
        if session.nextEpoch = request.shareSessionEpoch then
          some ⟨nextEpoch request.shareSessionEpoch,
            (session.partitions ∪ requested request.topics) \
              forgotten request.forgottenTopicsData⟩
        else none
  | .acknowledge request =>
    match broker with
    | none => none
    | some session =>
      if session.nextEpoch = request.shareSessionEpoch then
        some ⟨nextEpoch request.shareSessionEpoch, session.partitions⟩
      else none

/-- What happens to an exchange. -/
inductive Fate where
  | delivered
  | requestLost
  | responseLost
deriving DecidableEq, Repr

structure World where
  consumer : ShareConsumer
  broker : Option BrokerSession

inductive Act where
  | poll (remainingMs : Int) (fate : Fate) (rows : List TopicResponse)
  | commit (fate : Fate) (errorCodes : List (List Int))
  | renew (record : ShareConsumerRecord) (fate : Fate) (errorCodes : List (List Int))
  | acknowledge (record : ShareConsumerRecord) (ack : ShareAckType)
  /-- The heartbeat task replaces the assignment. -/
  | heartbeat (topicPartitions : List (WireUuid × List Int))
  /-- The heartbeat task reports an error. -/
  | report (error : ConsumerError)
  /-- The broker evicts the session. -/
  | evict

namespace World

def answerCode (world : World) (request : Request) : Int :=
  match serve world.broker request with
  | some _ => 0
  | none =>
    match world.broker with
    | none => SHARE_SESSION_NOT_FOUND
    | some _ => INVALID_SHARE_SESSION_EPOCH

def fetchNetwork (world : World) (fate : Fate) (rows : List TopicResponse)
    (request : ShareFetchRequest) : Sent ShareFetchResponse :=
  match fate with
  | .delivered => .answered ⟨world.answerCode (.fetch request), rows⟩
  | _ => .failed

def acknowledgeNetwork (world : World) (fate : Fate) (errorCodes : List (List Int))
    (request : ShareAcknowledgeRequest) : Sent ShareAcknowledgeResponse :=
  match fate with
  | .delivered => .answered ⟨world.answerCode (.acknowledge request), errorCodes⟩
  | _ => .failed

def brokerAfter {Result : Type} (world : World) (fate : Fate) (call : Call Result) :
    Option BrokerSession :=
  match call.sent with
  | none => world.broker
  | some (request, _) =>
    if fate = .requestLost then world.broker else (serve world.broker request).or world.broker

def after {Result : Type} (world : World) (fate : Fate) (call : Call Result) : World :=
  ⟨call.consumer, world.brokerAfter fate call⟩

def poll (world : World) (remainingMs : Int) (fate : Fate) (rows : List TopicResponse) :
    Call (List ShareConsumerRecord) :=
  world.consumer.poll remainingMs (world.fetchNetwork fate rows)

def step (world : World) : Act -> Option World
  | .poll remainingMs fate rows => some (world.after fate (world.poll remainingMs fate rows))
  | .commit fate errorCodes =>
    some (world.after fate (world.consumer.commit (world.acknowledgeNetwork fate errorCodes)))
  | .renew record fate errorCodes =>
    some (world.after fate
      (world.consumer.renew record (world.acknowledgeNetwork fate errorCodes)))
  | .acknowledge record ack =>
    some { world with consumer := (world.consumer.acknowledge record ack).consumer }
  | .heartbeat topicPartitions =>
    some { world with consumer := world.consumer.updateAssignment topicPartitions }
  | .report error => some { world with consumer := world.consumer.reportError error }
  | .evict => some { world with broker := none }

/-- The partitions of the assignment. -/
def assigned (consumer : ShareConsumer) : Finset (WireUuid ×ₗ Int) :=
  (consumer.assignment.map Assigned.key).toFinset

def FetchAgrees (world : World) : Act -> Prop
  | .poll remainingMs fate rows => forall request accepted session,
      (world.poll remainingMs fate rows).sent = some (.fetch request, accepted) ->
      fate ≠ .requestLost -> serve world.broker (.fetch request) = some session ->
        session.partitions = assigned world.consumer
  | _ => True

/-- The broker accepts the fetch of a poll without losses. -/
def Accepts (world : World) (remainingMs : Int) (rows : List TopicResponse) : Prop :=
  ((world.poll remainingMs .delivered rows).sent.map Prod.snd) = some true

/-- Once the client has an epoch of its own, no response is lost, the broker does
not evict the session, no partition leaves the assignment, and no request goes out
at the last epoch. -/
def Allowed (world : World) : Act -> Prop
  | .poll _ fate _ | .commit fate _ | .renew _ fate _ =>
    world.consumer.shareSessionEpoch < I32_MAX ∧
      (fate = .responseLost -> world.consumer.shareSessionEpoch = 0)
  | .heartbeat topicPartitions => world.consumer.shareSessionEpoch = 0 ∨
      assigned world.consumer ⊆ assigned (world.consumer.updateAssignment topicPartitions)
  | .evict => world.consumer.shareSessionEpoch = 0
  | _ => True

instance (world : World) (act : Act) : Decidable (world.Allowed act) := by
  cases act <;> unfold Allowed <;> infer_instance

end World

/-! ## One exchange -/

def Request.epoch : Request -> Int
  | .fetch request => request.shareSessionEpoch
  | .acknowledge request => request.shareSessionEpoch

/-- A call that sent `request`: the client moves on exactly when the broker
accepted the request and the answer arrived. -/
structure Exchanged {Result : Type} (world : World) (fate : Fate) (call : Call Result)
    (request : Request) : Prop where
  sent : call.sent = some (request,
    decide (fate = .delivered) && (serve world.broker request).isSome)
  assignment : call.consumer.assignment = world.consumer.assignment
  epoch : call.consumer.shareSessionEpoch =
    if fate = .delivered ∧ (serve world.broker request).isSome = true then
      wrappingSucc world.consumer.shareSessionEpoch
    else world.consumer.shareSessionEpoch
  asked : Request.epoch request = world.consumer.shareSessionEpoch
  partitions : forall fetch, request = .fetch fetch ->
    requested fetch.topics = World.assigned world.consumer ∧ fetch.forgottenTopicsData = []

structure Silent {Result : Type} (world : World) (call : Call Result) : Prop where
  sent : call.sent = none
  assignment : call.consumer.assignment = world.consumer.assignment
  epoch : call.consumer.shareSessionEpoch = world.consumer.shareSessionEpoch

theorem responseHasError_answerCode (world : World) (request : Request) :
    responseHasError (world.answerCode request) = !(serve world.broker request).isSome := by
  unfold World.answerCode
  cases serve world.broker request with
  | some _ => rfl
  | none => cases world.broker <;> rfl

theorem requested_fetch (assignment : List Assigned) (acks : Acks) :
    requested (buildShareFetchTopics assignment acks) = (assignment.map Assigned.key).toFinset := by
  have rows := (requestRows_fetch assignment acks).map Prod.fst
  rw [List.map_map] at rows
  exact List.toFinset_eq_of_perm _ _ rows

theorem takePiggybackAcks_keeps (consumer : ShareConsumer) :
    consumer.takePiggybackAcks.2.shareSessionEpoch = consumer.shareSessionEpoch ∧
      consumer.takePiggybackAcks.2.assignment = consumer.assignment := by
  unfold ShareConsumer.takePiggybackAcks
  cases consumer.ackMode <;> exact ⟨rfl, rfl⟩

/-- The request that a poll sends. -/
def fetchRequest (consumer : ShareConsumer) (remainingMs : Int) : ShareFetchRequest :=
  consumer.takePiggybackAcks.2.buildShareFetchRequest remainingMs
    (buildShareFetchTopics consumer.assignment consumer.takePiggybackAcks.1)

theorem poll_exchanged (world : World) (remainingMs : Int) (fate : Fate)
    (rows : List TopicResponse) :
    (Silent world (world.poll remainingMs fate rows) ∧
      (world.consumer.pollError ≠ none ∨ world.consumer.assignment = [])) ∨
    Exchanged world fate (world.poll remainingMs fate rows)
      (.fetch (fetchRequest world.consumer remainingMs)) := by
  unfold World.poll ShareConsumer.poll
  cases fine : world.consumer.pollError with
  | some error => exact .inl ⟨⟨rfl, rfl, rfl⟩, .inl (some_ne_none error)⟩
  | none =>
    by_cases nothing : world.consumer.assignment = []
    · rw [if_pos nothing]
      exact .inl ⟨⟨rfl, rfl, rfl⟩, .inr nothing⟩
    · rw [if_neg nothing]
      have kept := takePiggybackAcks_keeps world.consumer
      have partitions : forall fetch,
          Request.fetch (fetchRequest world.consumer remainingMs) = .fetch fetch ->
            requested fetch.topics = World.assigned world.consumer ∧
              fetch.forgottenTopicsData = [] := by
        intro fetch same
        rw [<- Request.fetch.inj same]
        exact ⟨requested_fetch _ _, rfl⟩
      refine .inr ?_
      cases fate with
      | requestLost | responseLost => exact ⟨rfl, kept.2, kept.1, kept.1, partitions⟩
      | delivered =>
        have code := responseHasError_answerCode world
          (.fetch (fetchRequest world.consumer remainingMs))
        dsimp only [World.fetchNetwork, ShareConsumer.handleFetchResponse]
        unfold fetchRequest at code partitions ⊢
        cases served : (serve world.broker (.fetch
          (world.consumer.takePiggybackAcks.2.buildShareFetchRequest remainingMs
            (buildShareFetchTopics world.consumer.assignment
              world.consumer.takePiggybackAcks.1)))).isSome with
        | false =>
          rw [served, Bool.not_false] at code
          rw [if_pos code]
          refine ⟨by rw [code, served]; rfl, kept.2, ?_, kept.1, partitions⟩
          rw [served, if_neg fun both => Bool.noConfusion both.2]
          exact kept.1
        | true =>
          rw [served, Bool.not_true] at code
          rw [if_neg (by rw [code]; exact Bool.false_ne_true)]
          refine ⟨by rw [code, served]; rfl, kept.2, ?_, kept.1, partitions⟩
          rw [served, if_pos ⟨rfl, rfl⟩, <- kept.1]

theorem sendAcknowledge_exchanged {world : World} {consumer : ShareConsumer}
    (sameEpoch : consumer.shareSessionEpoch = world.consumer.shareSessionEpoch)
    (sameAssignment : consumer.assignment = world.consumer.assignment) (fate : Fate)
    (errorCodes : List (List Int)) {request : ShareAcknowledgeRequest}
    (asked : request.shareSessionEpoch = world.consumer.shareSessionEpoch) :
    Exchanged world fate
      (consumer.sendAcknowledge request (world.acknowledgeNetwork fate errorCodes))
      (.acknowledge request) := by
  unfold ShareConsumer.sendAcknowledge World.acknowledgeNetwork
  cases fate with
  | requestLost | responseLost => exact ⟨rfl, sameAssignment, sameEpoch, asked, nofun⟩
  | delivered =>
    dsimp only
    rw [responseHasError_answerCode]
    cases served : (serve world.broker (.acknowledge request)).isSome with
    | false =>
      rw [Bool.not_false, if_pos rfl]
      refine ⟨by rw [served]; rfl, sameAssignment, ?_, asked, nofun⟩
      rw [served, if_neg fun both => Bool.noConfusion both.2]
      exact sameEpoch
    | true =>
      simp only [Bool.not_true, Bool.false_eq_true, if_false]
      cases ShareConsumer.firstShareAckPartitionError
          ⟨world.answerCode (.acknowledge request), errorCodes⟩ with
      | none | some =>
        refine ⟨by rw [served]; rfl, sameAssignment, ?_, asked, nofun⟩
        rw [served, if_pos ⟨rfl, rfl⟩, <- sameEpoch]

theorem commit_exchanged (world : World) (fate : Fate) (errorCodes : List (List Int)) :
    Silent world (world.consumer.commit (world.acknowledgeNetwork fate errorCodes)) ∨
    Exists fun request => Exchanged world fate
      (world.consumer.commit (world.acknowledgeNetwork fate errorCodes))
      (.acknowledge request) := by
  unfold ShareConsumer.commit ShareConsumer.flushPendingAcks
  by_cases nothing : world.consumer.pendingAcks = []
  · rw [if_pos nothing]
    exact .inl ⟨rfl, rfl, rfl⟩
  · rw [if_neg nothing]
    refine .inr ⟨_, @sendAcknowledge_exchanged world { world.consumer with pendingAcks := [] }
      rfl rfl fate errorCodes _ rfl⟩

/-! ## Agreement -/

/-- The client is about to open a session, or its epoch is the one the broker
expects, and every partition of the session is assigned. -/
structure InStep (world : World) : Prop where
  lower : 0 ≤ world.consumer.shareSessionEpoch
  upper : world.consumer.shareSessionEpoch ≤ I32_MAX
  positive : forall session, world.broker = some session -> 1 ≤ session.nextEpoch
  agrees : world.consumer.shareSessionEpoch ≠ 0 -> Exists fun session =>
    world.broker = some session ∧ session.nextEpoch = world.consumer.shareSessionEpoch ∧
      session.partitions ⊆ World.assigned world.consumer

theorem nextEpoch_positive {epoch : Int} (lower : 0 ≤ epoch) : 1 ≤ nextEpoch epoch := by
  unfold nextEpoch
  split_ifs <;> omega

variable {next : World}

section Served

variable {world : World}

section

variable (inStep : InStep world)

include inStep

theorem InStep.serve_fetch {request : ShareFetchRequest}
    (asked : request.shareSessionEpoch = world.consumer.shareSessionEpoch)
    (partitions : requested request.topics = World.assigned world.consumer)
    (keeps : request.forgottenTopicsData = []) :
    serve world.broker (.fetch request) =
      some ⟨nextEpoch world.consumer.shareSessionEpoch, World.assigned world.consumer⟩ := by
  dsimp only [serve]
  rw [asked]
  by_cases opens : world.consumer.shareSessionEpoch = 0
  · rw [if_pos opens, partitions, opens]
  · rcases inStep.agrees opens with ⟨session, isSession, expected, within⟩
    rw [if_neg opens, isSession]
    dsimp only
    rw [if_pos expected, partitions, keeps, Finset.union_eq_right.mpr within]
    rfl

/-- An acknowledgement never changes the partitions, and is refused before the
first fetch. -/
theorem InStep.serve_acknowledge {request : ShareAcknowledgeRequest}
    (asked : request.shareSessionEpoch = world.consumer.shareSessionEpoch) :
    (world.consumer.shareSessionEpoch = 0 ∧ serve world.broker (.acknowledge request) = none) ∨
    (world.consumer.shareSessionEpoch ≠ 0 ∧ Exists fun session =>
      serve world.broker (.acknowledge request) = some session ∧
        session.nextEpoch = nextEpoch world.consumer.shareSessionEpoch ∧
        session.partitions ⊆ World.assigned world.consumer) := by
  dsimp only [serve]
  rw [asked]
  by_cases opens : world.consumer.shareSessionEpoch = 0
  · refine .inl ⟨opens, ?_⟩
    cases isSession : world.broker with
    | none => rfl
    | some session =>
      have positive := inStep.positive session isSession
      dsimp only
      rw [if_neg (by omega)]
  · rcases inStep.agrees opens with ⟨session, isSession, expected, within⟩
    refine .inr ⟨opens, ⟨nextEpoch world.consumer.shareSessionEpoch, session.partitions⟩, ?_,
      rfl, within⟩
    rw [isSession]
    dsimp only
    rw [if_pos expected]

/-- Nothing that the invariant reads changed. -/
theorem InStep.unchanged
    (epoch : next.consumer.shareSessionEpoch = world.consumer.shareSessionEpoch)
    (assignment : next.consumer.assignment = world.consumer.assignment)
    (broker : next.broker = world.broker) : InStep next := by
  have sameAssigned : World.assigned next.consumer = World.assigned world.consumer := by
    rw [World.assigned, World.assigned, assignment]
  refine ⟨epoch ▸ inStep.lower, epoch ▸ inStep.upper, broker ▸ inStep.positive, fun opened => ?_⟩
  rw [epoch, broker, sameAssigned]
  exact inStep.agrees (epoch ▸ opened)

theorem InStep.moved (below : world.consumer.shareSessionEpoch < I32_MAX) {session : BrokerSession}
    (epoch : next.consumer.shareSessionEpoch = wrappingSucc world.consumer.shareSessionEpoch)
    (assignment : next.consumer.assignment = world.consumer.assignment)
    (broker : next.broker = some session)
    (expected : session.nextEpoch = nextEpoch world.consumer.shareSessionEpoch)
    (within : session.partitions ⊆ World.assigned world.consumer) : InStep next := by
  have lower := inStep.lower
  have sameAssigned : World.assigned next.consumer = World.assigned world.consumer := by
    rw [World.assigned, World.assigned, assignment]
  rw [wrappingSucc, if_neg (by omega)] at epoch
  rw [nextEpoch, if_neg (by omega)] at expected
  refine ⟨by omega, by omega, fun other isOther => ?_, fun _ => ?_⟩
  · rw [broker] at isOther
    cases isOther
    omega
  · exact ⟨session, broker, expected.trans epoch.symm, sameAssigned ▸ within⟩

theorem InStep.silent {Result : Type} {call : Call Result} (silent : Silent world call)
    (fate : Fate) : InStep (world.after fate call) := by
  refine inStep.unchanged silent.epoch silent.assignment ?_
  unfold World.after World.brokerAfter
  rw [silent.sent]

end

theorem InStep.exchanged {Result : Type} (inStep : InStep world) {call : Call Result}
    {fate : Fate} {request : Request} (exchanged : Exchanged world fate call request)
    (below : world.consumer.shareSessionEpoch < I32_MAX)
    (answered : fate = .responseLost -> world.consumer.shareSessionEpoch = 0) :
    InStep (world.after fate call) := by
  have epoch := exchanged.epoch
  have asked := exchanged.asked
  have brokerNext : world.brokerAfter fate call =
      if fate = .requestLost then world.broker
      else (serve world.broker request).or world.broker := by
    rw [World.brokerAfter, exchanged.sent]
  cases request with
  | fetch fetch =>
    rcases exchanged.partitions fetch rfl with ⟨partitions, keeps⟩
    have served := inStep.serve_fetch asked partitions keeps
    rw [served] at epoch brokerNext
    cases fate with
    | delivered =>
      exact inStep.moved below epoch exchanged.assignment brokerNext rfl (Finset.Subset.refl _)
    | requestLost => exact inStep.unchanged epoch exchanged.assignment brokerNext
    | responseLost =>
      have opens := answered rfl
      rw [if_neg nofun, opens] at epoch
      refine ⟨epoch ▸ Int.le_refl 0, epoch ▸ (by decide), fun session isSession => ?_,
        fun opened => absurd epoch opened⟩
      have same : some (⟨nextEpoch world.consumer.shareSessionEpoch,
          World.assigned world.consumer⟩ : BrokerSession) = some session :=
        brokerNext.symm.trans isSession
      cases same
      exact nextEpoch_positive inStep.lower
  | acknowledge acknowledge =>
    rcases inStep.serve_acknowledge asked with
      ⟨opens, refused⟩ | ⟨opened, session, served, expected, within⟩
    · rw [refused] at epoch brokerNext
      rw [if_neg fun both => Bool.noConfusion both.2] at epoch
      rw [none_or, ite_self] at brokerNext
      exact inStep.unchanged epoch exchanged.assignment brokerNext
    · rw [served] at epoch brokerNext
      cases fate with
      | delivered => exact inStep.moved below epoch exchanged.assignment brokerNext expected within
      | requestLost => exact inStep.unchanged epoch exchanged.assignment brokerNext
      | responseLost => exact absurd (answered rfl) opened

end Served

/-! ## Runs -/

variable {world : World}

theorem step_inStep {act : Act} (inStep : InStep world) (allowed : world.Allowed act)
    (stepped : world.step act = some next) : InStep next := by
  cases act with
  | poll remainingMs fate rows =>
    cases stepped
    rcases poll_exchanged world remainingMs fate rows with ⟨silent, _⟩ | exchanged
    · exact inStep.silent silent fate
    · exact inStep.exchanged exchanged allowed.1 allowed.2
  | commit fate errorCodes =>
    cases stepped
    rcases commit_exchanged world fate errorCodes with silent | ⟨_, exchanged⟩
    · exact inStep.silent silent fate
    · exact inStep.exchanged exchanged allowed.1 allowed.2
  | renew record fate errorCodes =>
    cases stepped
    unfold ShareConsumer.renew
    cases world.consumer.ackMode with
    | implicit => exact inStep.silent ⟨rfl, rfl, rfl⟩ fate
    | explicit =>
      exact inStep.exchanged (sendAcknowledge_exchanged rfl rfl fate errorCodes rfl)
        allowed.1 allowed.2
  | acknowledge record ack =>
    cases stepped
    refine inStep.unchanged ?_ ?_ rfl <;> unfold ShareConsumer.acknowledge
    · cases world.consumer.ackMode <;> rfl
    · cases world.consumer.ackMode <;> rfl
  | heartbeat topicPartitions =>
    cases stepped
    refine ⟨inStep.lower, inStep.upper, inStep.positive, fun opened => ?_⟩
    rcases inStep.agrees opened with ⟨session, isSession, expected, within⟩
    exact ⟨session, isSession, expected, within.trans (allowed.resolve_left opened)⟩
  | report error =>
    cases stepped
    exact inStep.unchanged rfl rfl rfl
  | evict =>
    cases stepped
    exact ⟨inStep.lower, inStep.upper, nofun, fun opened => absurd allowed opened⟩

theorem InStep.fetchAgrees (inStep : InStep world) (act : Act) :
    world.FetchAgrees act := by
  cases act with
  | poll remainingMs fate rows =>
    intro request accepted session sent _ served
    rcases poll_exchanged world remainingMs fate rows with ⟨silent, _⟩ | exchanged
    · rw [silent.sent] at sent
      cases sent
    · rw [exchanged.sent] at sent
      have same := Request.fetch.inj (Prod.mk.inj (some.inj sent)).1
      rcases exchanged.partitions _ rfl with ⟨partitions, keeps⟩
      rw [<- same, inStep.serve_fetch exchanged.asked partitions keeps] at served
      cases served
      rfl
  | _ => trivial

/-- A poll without losses is accepted when it sends a request. -/
theorem InStep.accepts (inStep : InStep world) (fine : world.consumer.pollError = none)
    (assigned : world.consumer.assignment ≠ []) (remainingMs : Int) (rows : List TopicResponse) :
    world.Accepts remainingMs rows := by
  rcases poll_exchanged world remainingMs .delivered rows with ⟨_, failed | nothing⟩ | exchanged
  · exact absurd fine failed
  · exact absurd nothing assigned
  · rcases exchanged.partitions _ rfl with ⟨partitions, keeps⟩
    have sent := exchanged.sent
    rw [inStep.serve_fetch exchanged.asked partitions keeps] at sent
    rw [World.Accepts, sent]
    rfl

/-- In every run whose steps meet the condition, an accepted fetch leaves the
session with the partitions of its assignment, and of two polls without losses one
is accepted. -/
theorem run_share_session_agrees (consumer : ShareConsumer)
    (fresh : consumer.shareSessionEpoch = 0) (acts : List Act)
    (along : Transition.Along World.step World.Allowed ⟨consumer, none⟩ acts) :
    Transition.Along World.step World.FetchAgrees ⟨consumer, none⟩ acts ∧
      forall last, Transition.run World.step ⟨consumer, none⟩ acts = some last ->
        last.consumer.assignment ≠ [] -> forall remainingMs rows middle,
          last.step (.poll remainingMs .delivered rows) = some middle ->
            last.Accepts remainingMs rows ∨
              forall laterMs laterRows, middle.Accepts laterMs laterRows := by
  have started : InStep ⟨consumer, none⟩ := by
    refine ⟨?_, ?_, nofun, fun opened => absurd fresh opened⟩
    · exact fresh ▸ Int.le_refl 0
    · exact fresh ▸ (by decide)
  refine ⟨Transition.along_of_invariant InStep (fun _ _ _ => step_inStep)
    (fun world act inStep => inStep.fetchAgrees act) started along, ?_⟩
  intro last ran assigned remainingMs rows middle stepped
  have inStep := Transition.run_invariant InStep (fun _ _ _ => step_inStep)
    started along ran
  cases fine : last.consumer.pollError with
  | none => exact .inl (inStep.accepts fine assigned remainingMs rows)
  | some error =>
    -- The first poll only takes the reported error.
    have taken : middle = ⟨{ last.consumer with pollError := none }, last.broker⟩ := by
      cases stepped
      unfold World.after World.brokerAfter World.poll ShareConsumer.poll
      rw [fine]
    have kept : InStep middle := by
      rw [taken]
      exact inStep.unchanged rfl rfl rfl
    refine .inr fun laterMs laterRows => kept.accepts ?_ ?_ laterMs laterRows <;> rw [taken]
    exact assigned

/-- The first response is lost, and so is a later request; the assignment grows. -/
def losesEarly : List Act :=
  [.poll 0 .responseLost [], .poll 0 .delivered [], .heartbeat [(1, [0, 1])],
    .poll 0 .requestLost [], .poll 0 .delivered []]

theorem run_share_session_agrees_early :
    Transition.Along World.step World.Allowed ⟨explicitConsumer, none⟩ losesEarly ∧
      Transition.Along World.step World.FetchAgrees ⟨explicitConsumer, none⟩ losesEarly ∧
      Exists fun last => Transition.run World.step ⟨explicitConsumer, none⟩ losesEarly =
        some last ∧ last.consumer.shareSessionEpoch = 2 ∧
        forall middle, last.step (.poll 0 .delivered []) = some middle ->
          last.Accepts 0 [] ∨ forall laterMs laterRows, middle.Accepts laterMs laterRows := by
  have along : Transition.Along World.step World.Allowed ⟨explicitConsumer, none⟩ losesEarly := by
    decide
  rcases run_share_session_agrees explicitConsumer rfl losesEarly along with ⟨agrees, accepted⟩
  exact ⟨along, agrees, _, rfl, by decide, accepted _ rfl (by decide) 0 []⟩

/-- A response is lost in an open session: the client stays at the old epoch, and
no later poll is accepted.  A partition leaves the assignment: the client does not
forget it, and the session keeps it. -/
theorem session_lost_and_partition_kept :
    (Exists fun last => Transition.run World.step ⟨explicitConsumer, none⟩
      [.poll 0 .delivered [], .poll 0 .responseLost []] = some last ∧
      last.consumer.assignment ≠ [] ∧ ¬ last.Accepts 0 [] ∧
      Exists fun middle => last.step (.poll 0 .delivered []) = some middle ∧
        ¬ middle.Accepts 0 []) ∧
    (Exists fun last => Transition.run World.step ⟨explicitConsumer, none⟩
      [.heartbeat [(1, [0, 1])], .poll 0 .delivered [], .heartbeat [(1, [0])],
        .poll 0 .delivered []] = some last ∧ last.consumer.shareSessionEpoch = 2 ∧
      (last.broker.map fun session => decide (session.partitions = World.assigned last.consumer)) =
        some false) := by
  refine ⟨⟨_, rfl, by decide, ?_, _, rfl, ?_⟩, _, rfl, by decide, by decide⟩
  · unfold World.Accepts
    decide
  · unfold World.Accepts
    decide

end Session
end Share
end Krabka
