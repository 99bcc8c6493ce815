import Krabka.FetchSession.Model

namespace Krabka
namespace FetchSession

open Collections Option

/-!
# The two halves of a fetch session agree

The client updates its own partition map when it builds a request.  It can
therefore run ahead of the broker whenever a request or a response is lost,
and only the epoch protects the next incremental request.  The invariant below
says, for each state of the channel, what a broker session with the matching
id and epoch must cache.  A mismatching session carries no obligation, because
the broker refuses the request.
-/

def Agrees (broker : Broker) (id epoch : Int) (wanted : PartitionMap) : Prop :=
  forall session, broker id = some session -> session.nextEpoch = epoch ->
    session.cached = wanted.get?

theorem Agrees.evict {broker : Broker} {id epoch : Int} {wanted : PartitionMap}
    (agrees : Agrees broker id epoch wanted) (evicted : Int) :
    Agrees (broker.evict evicted) id epoch wanted := by
  intro session found
  rw [Broker.evict] at found
  split_ifs at found with same
  exact agrees session found

theorem Agrees.store (broker : Broker) (id : Int) (session : CachedSession)
    {wanted : PartitionMap} (caches : session.cached = wanted.get?) (epoch : Int) :
    Agrees (broker.store id session) id epoch wanted := by
  intro stored found _
  rw [Broker.store, if_pos rfl] at found
  exact some.inj found ▸ caches

theorem Broker.accept_eq_some {broker : Broker} {request : SessionRequest}
    {after : CachedSession} (accepted : broker.accept request = some after) :
    Exists fun session => broker request.sessionId = some session ∧
      session.nextEpoch = request.sessionEpoch ∧ after.cached = session.update request := by
  unfold Broker.accept at accepted
  cases found : broker request.sessionId with
  | none => simp [found] at accepted
  | some session =>
    simp only [found] at accepted
    split_ifs at accepted with matching
    exact ⟨session, rfl, matching, some.inj accepted ▸ rfl⟩

/-! ## Building a request -/

namespace Session

section

variable (session : Session) (wanted : PartitionMap)

include session wanted

theorem requestMetadata_epoch :
    (session.requestMetadata wanted).epoch = session.next.epoch ∨
      (session.requestMetadata wanted).epoch = INITIAL_EPOCH := by
  unfold requestMetadata
  split_ifs
  · exact .inr rfl
  · exact .inl rfl

/-- An incremental request keeps the session fields of the client. -/
theorem requestMetadata_of_incremental
    (incremental : (session.requestMetadata wanted).isFull = false) :
    session.requestMetadata wanted = session.next := by
  unfold requestMetadata at incremental ⊢
  split_ifs at incremental ⊢ with closed
  · cases incremental
  · rfl

theorem build_spec :
    (session.build wanted).2 = ⟨session.requestMetadata wanted, wanted⟩ ∧
      (session.build wanted).1.sessionId = (session.requestMetadata wanted).sessionId ∧
      (session.build wanted).1.sessionEpoch = (session.requestMetadata wanted).epoch ∧
      ((session.requestMetadata wanted).isFull = true ->
        (session.build wanted).1.partitions = wanted ∧ (session.build wanted).1.forgotten = []) := by
  dsimp only [build]
  split_ifs with full
  · exact ⟨rfl, rfl, rfl, fun _ => ⟨rfl, rfl⟩⟩
  · exact ⟨rfl, rfl, rfl, fun isFull => absurd isFull full⟩

/-- The changed and forgotten partitions of an incremental request turn the
session's previous map into the wanted one. -/
theorem update_build (incremental : (session.requestMetadata wanted).isFull = false)
    (cached : CachedSession) (agrees : cached.cached = session.partitions.get?) :
    cached.update (session.build wanted).1 = wanted.get? := by
  have shape : (session.build wanted).1 =
      ⟨(session.requestMetadata wanted).sessionId, (session.requestMetadata wanted).epoch,
        wanted.filter (fun key partition => session.partitions.get? key != some partition),
        (session.partitions.filter (fun key _ => !wanted.contains key)).entries.map
          (fun entry => (entry.1, entry.2.topicId))⟩ := by
    unfold build
    rw [if_neg (Bool.not_eq_true _ ▸ incremental)]
  have forgottenIff : forall key, key ∈ (session.build wanted).1.forgotten.map Prod.fst <->
        (session.partitions.get? key).isSome = true ∧ wanted.get? key = none := by
    intro key
    rw [shape]
    simp only [List.map_map]
    change key ∈ (session.partitions.filter (fun key _ => !wanted.contains key)).keys <-> _
    rw [SortedMap.mem_keys_iff, SortedMap.contains, SortedMap.get?_filter]
    cases found : session.partitions.get? key <;>
      cases target : wanted.get? key <;>
        simp [SortedMap.contains, target]
  funext key
  unfold CachedSession.update
  by_cases forgotten : key ∈ (session.build wanted).1.forgotten.map Prod.fst
  · rw [if_pos forgotten, ((forgottenIff key).mp forgotten).2]
  · rw [if_neg forgotten, shape, SortedMap.get?_filter, agrees]
    cases target : wanted.get? key with
    | none =>
      have absent : session.partitions.get? key = none := by
        cases found : session.partitions.get? key with
        | none => rfl
        | some previous =>
          exact absurd ((forgottenIff key).mpr ⟨by rw [found]; rfl, target⟩) forgotten
      simp [absent]
    | some partition =>
      by_cases unchanged : session.partitions.get? key = some partition
      · simp [unchanged, Option.filter]
      · simp [unchanged, Option.filter]

end

/-- What a response does to the session: it keeps the partitions, and the next
request is full unless the response names a session without an error. -/
theorem handleResponse_cases (session : Session) (errorCode sessionId : Int)
    (partitions : Nat) (throttleTimeMs : Int) :
    let after := (session.handleResponse errorCode sessionId partitions throttleTimeMs).2
    after.partitions = session.partitions ∧ (after.next.epoch = INITIAL_EPOCH ∨
        (errorCode = 0 ∧ sessionId ≠ INVALID_SESSION_ID ∧ ((session.next.isFull = true ∧
              after.next = ⟨sessionId, FetchMetadata.nextEpoch INITIAL_EPOCH⟩) ∨
            (session.next.isFull = false ∧ after.next =
                ⟨session.next.sessionId, FetchMetadata.nextEpoch session.next.epoch⟩)))) := by
  unfold handleResponse
  by_cases failed : errorCode ≠ 0
  · rw [if_pos failed]
    refine ⟨rfl, .inl ?_⟩
    split_ifs <;> rfl
  · rw [if_neg failed]
    by_cases full : session.next.isFull = true
    · rw [if_pos full]
      by_cases throttled : partitions = 0 ∧ throttleTimeMs > 0
      · rw [if_pos throttled]
        exact ⟨rfl, .inl rfl⟩
      · rw [if_neg throttled]
        by_cases unnamed : sessionId = INVALID_SESSION_ID
        · exact ⟨rfl, .inl (by dsimp only; rw [if_pos unnamed]; rfl)⟩
        · exact ⟨rfl, .inr ⟨not_not.mp failed, unnamed,
            .inl ⟨full, by dsimp only; rw [if_neg unnamed]⟩⟩⟩
    · rw [if_neg full]
      by_cases unnamed : sessionId = INVALID_SESSION_ID
      · exact ⟨rfl, .inl (by dsimp only; rw [if_pos unnamed]; rfl)⟩
      · exact ⟨rfl, .inr ⟨not_not.mp failed, unnamed,
          .inr ⟨Bool.not_eq_true _ ▸ full, by dsimp only; rw [if_neg unnamed]⟩⟩⟩

end Session

/-! ## The invariant of the exchange -/

/-- What the channel promises about the broker's matching session. -/
def ChannelAgrees (world : World) : Prop :=
  match world.channel with
  | .idle =>
    world.client.next.isFull = false ->
      Agrees world.broker world.client.next.sessionId world.client.next.epoch
        world.client.partitions
  | .request sent wanted =>
    world.client.partitions = wanted ∧
      sent.sessionId = world.client.next.sessionId ∧
      sent.sessionEpoch = world.client.next.epoch ∧
      (world.client.next.isFull = true -> sent.partitions = wanted ∧ sent.forgotten = []) ∧
      (world.client.next.isFull = false ->
        forall session, world.broker sent.sessionId = some session ->
          session.nextEpoch = sent.sessionEpoch -> session.update sent = wanted.get?)
  | .response answer =>
    answer.errorCode = 0 -> answer.sessionId ≠ INVALID_SESSION_ID ->
      (world.client.next.isFull = true ->
        Agrees world.broker answer.sessionId (FetchMetadata.nextEpoch INITIAL_EPOCH)
          world.client.partitions) ∧
      (world.client.next.isFull = false ->
        Agrees world.broker world.client.next.sessionId
          (FetchMetadata.nextEpoch world.client.next.epoch) world.client.partitions)
  | .lost => True

/-- The inductive invariant: the client's epoch is never the final one, and
the channel keeps its promise. -/
structure Invariant (world : World) : Prop where
  lower : 0 ≤ world.client.next.epoch
  upper : world.client.next.epoch ≤ I32_MAX
  channel : ChannelAgrees world

theorem nextEpoch_bounds {epoch : Int} (lower : 0 ≤ epoch) (upper : epoch ≤ I32_MAX) :
    1 ≤ FetchMetadata.nextEpoch epoch ∧ FetchMetadata.nextEpoch epoch ≤ I32_MAX := by
  unfold FetchMetadata.nextEpoch
  unfold I32_MAX at upper ⊢
  split_ifs <;> omega

theorem isFull_eq_false_iff (metadata : FetchMetadata) :
    metadata.isFull = false <-> metadata.epoch ≠ INITIAL_EPOCH ∧ metadata.epoch ≠ FINAL_EPOCH := by
  simp [FetchMetadata.isFull]

variable {world : World}

theorem isIncremental_eq_isFull {sent : SessionRequest}
    (epoch : sent.sessionEpoch = world.client.next.epoch) :
    Broker.isIncremental sent = !world.client.next.isFull := by
  rw [Broker.isIncremental, FetchMetadata.isFull, epoch, Bool.not_or]
  rfl

theorem invariant_start : Invariant World.start where
  lower := Int.le_refl 0
  upper := by decide
  channel := fun incremental => by cases incremental

theorem build_invariant (wanted : PartitionMap)
    (idle : world.channel = .idle) (invariant : Invariant world) :
    Invariant { world with
      client := (world.client.build wanted).2
      channel := .request (world.client.build wanted).1 wanted } := by
  have agrees := invariant.channel
  unfold ChannelAgrees at agrees
  rw [idle] at agrees
  rcases Session.build_spec world.client wanted with ⟨session, sessionId, sessionEpoch, isFull⟩
  have bounds : 0 ≤ (world.client.requestMetadata wanted).epoch ∧
      (world.client.requestMetadata wanted).epoch ≤ I32_MAX := by
    rcases world.client.requestMetadata_epoch wanted with same | initial
    · exact same ▸ ⟨invariant.lower, invariant.upper⟩
    · rw [initial]
      decide
  refine ⟨?_, ?_, ?_⟩
  · rw [session]
    exact bounds.1
  · rw [session]
    exact bounds.2
  · unfold ChannelAgrees
    rw [session]
    refine ⟨rfl, sessionId, sessionEpoch, isFull, ?_⟩
    intro incremental cached found expected
    have same := Session.requestMetadata_of_incremental world.client wanted incremental
    rw [sessionId, same] at found
    rw [sessionEpoch, same] at expected
    exact Session.update_build world.client wanted incremental cached
      (agrees (same ▸ incremental) cached found expected)

theorem evict_invariant (id : Int) (invariant : Invariant world) :
    Invariant { world with broker := world.broker.evict id } := by
  refine ⟨invariant.lower, invariant.upper, ?_⟩
  have agrees := invariant.channel
  unfold ChannelAgrees at agrees ⊢
  dsimp only
  cases state : world.channel with
  | idle =>
    rw [state] at agrees
    exact fun incremental => (agrees incremental).evict id
  | request sent wanted =>
    rw [state] at agrees
    refine ⟨agrees.1, agrees.2.1, agrees.2.2.1, agrees.2.2.2.1, ?_⟩
    intro incremental session found
    rw [Broker.evict] at found
    split_ifs at found
    exact agrees.2.2.2.2 incremental session found
  | response answer =>
    rw [state] at agrees
    intro noError named
    have kept := agrees noError named
    exact ⟨fun full => (kept.1 full).evict id, fun incremental => (kept.2 incremental).evict id⟩
  | lost => trivial

/-- A client that asks for a full fetch next has no promise to keep. -/
theorem idle_full_invariant {client : Session} (broker : Broker)
    (initial : client.next.epoch = INITIAL_EPOCH) : Invariant ⟨client, broker, .idle⟩ where
  lower := by rw [initial]; decide
  upper := by rw [initial]; decide
  channel := fun incremental => absurd initial ((isFull_eq_false_iff _).mp incremental).1

variable {answer : Response}

theorem deliver_invariant
    (arrived : world.channel = .response answer) (invariant : Invariant world) :
    Invariant { world with
      client := (world.client.handleResponse answer.errorCode answer.sessionId
        answer.partitions answer.throttleTimeMs).2
      channel := .idle } := by
  have agrees := invariant.channel
  unfold ChannelAgrees at agrees
  rw [arrived] at agrees
  rcases world.client.handleResponse_cases answer.errorCode answer.sessionId answer.partitions
      answer.throttleTimeMs with ⟨partitions, initial | ⟨noError, named, continued⟩⟩
  · exact idle_full_invariant world.broker initial
  · have kept := agrees noError named
    rcases continued with ⟨full, next⟩ | ⟨incremental, next⟩
    · have bounds := @nextEpoch_bounds INITIAL_EPOCH (by decide) (by decide)
      refine ⟨next ▸ Int.le_trans (by decide) bounds.1, next ▸ bounds.2, fun _ => ?_⟩
      rw [partitions, next]
      exact kept.1 full
    · have bounds := nextEpoch_bounds invariant.lower invariant.upper
      refine ⟨next ▸ Int.le_trans (by decide) bounds.1, next ▸ bounds.2, fun _ => ?_⟩
      rw [partitions, next]
      exact kept.2 incremental

variable {next : World}

theorem serveFull_invariant {opened : Option Int}
    (stepped : world.step (.serveFull opened answer) = some next) (invariant : Invariant world) :
    Invariant next := by
  have agrees := invariant.channel
  unfold ChannelAgrees at agrees
  cases state : world.channel with
  | idle | response | lost => simp [World.step, state] at stepped
  | request sent wanted =>
    rw [state] at agrees
    rcases agrees with ⟨recorded, _, epoch, fullShape, _⟩
    simp only [World.step, state] at stepped
    by_cases incremental : Broker.isIncremental sent = true
    · rw [if_pos incremental] at stepped
      cases stepped
    have full : world.client.next.isFull = true := by
      rw [isIncremental_eq_isFull epoch] at incremental
      simpa using incremental
    cases opened with
    | none =>
      split_ifs at stepped with honest
      cases some.inj stepped
      refine ⟨invariant.lower, invariant.upper, ?_⟩
      intro noError named
      rcases honest with failed | unnamed
      · exact absurd noError failed
      · exact absurd unnamed named
    | some id =>
      dsimp only at stepped
      split_ifs at stepped with honest
      cases some.inj stepped
      refine ⟨invariant.lower, invariant.upper, ?_⟩
      intro noError named
      rcases honest.2.2 with failed | same | unnamed
      · exact absurd noError failed
      · refine ⟨fun _ => ?_, fun incremental => absurd full (by rw [incremental]; decide)⟩
        rw [same, recorded]
        exact Agrees.store _ _ _ (by rw [(fullShape full).1]) _
      · exact absurd unnamed named

theorem serveIncremental_invariant
    (stepped : world.step (.serveIncremental answer) = some next) (invariant : Invariant world) :
    Invariant next := by
  have agrees := invariant.channel
  unfold ChannelAgrees at agrees
  cases state : world.channel with
  | idle | response | lost => simp [World.step, state] at stepped
  | request sent wanted =>
    rw [state] at agrees
    rcases agrees with ⟨recorded, sessionId, epoch, _, updates⟩
    simp only [World.step, state] at stepped
    by_cases incremental : Broker.isIncremental sent = true
    · have notFull : world.client.next.isFull = false := by
        rw [isIncremental_eq_isFull epoch] at incremental
        simpa using incremental
      cases accepted : world.broker.accept sent with
      | none => simp [accepted] at stepped
      | some after =>
        simp only [accepted] at stepped
        split_ifs at stepped with honest
        cases some.inj stepped
        refine ⟨invariant.lower, invariant.upper, ?_⟩
        intro _ _
        refine ⟨fun full => absurd full (by rw [notFull]; decide), fun _ => ?_⟩
        rw [← sessionId, recorded]
        rcases Broker.accept_eq_some accepted with ⟨session, found, matching, cached⟩
        exact Agrees.store _ _ _ (cached.trans (updates notFull session found matching)) _
    · rw [if_neg incremental] at stepped
      cases stepped

/-- Every step of the exchange keeps the invariant. -/
theorem step_invariant (act : Act)
    (stepped : world.step act = some next) (invariant : Invariant world) : Invariant next := by
  cases act with
  | build wanted =>
    cases state : world.channel with
    | idle =>
      simp only [World.step, state] at stepped
      cases some.inj stepped
      exact build_invariant wanted state invariant
    | request | response | lost => simp [World.step, state] at stepped
  | serveFull opened answer => exact serveFull_invariant stepped invariant
  | serveIncremental answer => exact serveIncremental_invariant stepped invariant
  | refuse answer =>
    cases state : world.channel with
    | request sent wanted =>
      simp only [World.step, state] at stepped
      split_ifs at stepped with refused
      cases some.inj stepped
      exact ⟨invariant.lower, invariant.upper, fun noError => absurd noError refused.2.2⟩
    | idle | response | lost => simp [World.step, state] at stepped
  | lose =>
    cases state : world.channel with
    | request | response =>
      simp only [World.step, state] at stepped
      cases some.inj stepped
      exact ⟨invariant.lower, invariant.upper, trivial⟩
    | idle | lost => simp [World.step, state] at stepped
  | deliver =>
    cases state : world.channel with
    | response answer =>
      simp only [World.step, state] at stepped
      cases some.inj stepped
      exact deliver_invariant state invariant
    | idle | request | lost => simp [World.step, state] at stepped
  | fail =>
    cases state : world.channel with
    | lost =>
      simp only [World.step, state] at stepped
      cases some.inj stepped
      exact idle_full_invariant world.broker rfl
    | idle | request | response => simp [World.step, state] at stepped
  | evict id =>
    cases some.inj stepped
    exact evict_invariant id invariant

theorem run_invariant (acts : List Act)
    (reached : world.run acts = some next) (invariant : Invariant world) : Invariant next := by
  induction acts generalizing world with
  | nil => exact some.inj reached ▸ invariant
  | cons act rest ih =>
    rw [World.run, bind_eq_some_iff] at reached
    rcases reached with ⟨middle, stepped, reached⟩
    exact ih reached (step_invariant act stepped invariant)

/-! ## Agreement over whole runs -/

/-- In every run, an incremental request that the broker accepts leaves the
broker with exactly the partitions its build wanted.  A request that does not
carry the whole wanted map has an epoch from 1 to `i32::MAX`, also after the
epoch wrapped. -/
theorem incremental_fetch_agrees (acts : List Act) (world : World)
    (reached : World.start.run acts = some world) (sent : SessionRequest)
    (wanted : PartitionMap) (inFlight : world.channel = .request sent wanted) :
    (forall session, Broker.isIncremental sent = true ->
      world.broker.accept sent = some session -> session.cached = wanted.get?) ∧
    ((sent.sessionEpoch = INITIAL_EPOCH ∧ sent.partitions = wanted ∧ sent.forgotten = []) ∨
      (1 ≤ sent.sessionEpoch ∧ sent.sessionEpoch ≤ I32_MAX)) := by
  have invariant := run_invariant acts reached invariant_start
  have agrees := invariant.channel
  unfold ChannelAgrees at agrees
  rw [inFlight] at agrees
  rcases agrees with ⟨_, sessionId, epoch, fullShape, updates⟩
  constructor
  · intro session incremental accepted
    have notFull : world.client.next.isFull = false := by
      rw [isIncremental_eq_isFull epoch] at incremental
      simpa using incremental
    rcases Broker.accept_eq_some accepted with ⟨before, found, matching, cached⟩
    exact cached.trans (updates notFull before found matching)
  · rw [epoch]
    by_cases full : world.client.next.isFull = true
    · have initial : world.client.next.epoch = INITIAL_EPOCH := by
        have lower := invariant.lower
        unfold FetchMetadata.isFull at full
        simp only [Bool.or_eq_true, beq_iff_eq] at full
        rcases full with initial | final
        · exact initial
        · rw [final] at lower
          exact absurd lower (by decide)
      exact .inl ⟨initial, fullShape full⟩
    · have nonzero := ((isFull_eq_false_iff _).mp (Bool.not_eq_true _ ▸ full)).1
      refine .inr ⟨?_, invariant.upper⟩
      have lower := invariant.lower
      unfold INITIAL_EPOCH at nonzero
      omega

def ordersPartition (offset : Int) : PartitionMap :=
  SortedMap.empty.insert ⟨"orders", 0⟩ ⟨1, offset, 3, 2, 1024⟩

/-- A full fetch opens session 77, and the next build moves the offset. -/
def ordersRun : List Act :=
  [.build (ordersPartition 10), .serveFull (some 77) ⟨0, 77, 1, 0⟩, .deliver,
    .build (ordersPartition 15)]

/-- The broker accepts the incremental request of `ordersRun`. -/
theorem incremental_fetch_agrees_orders :
    Exists fun world : World => Exists fun sent : SessionRequest =>
      World.start.run ordersRun = some world ∧ world.channel = .request sent (ordersPartition 15) ∧
        Broker.isIncremental sent = true ∧ (world.broker.accept sent).isSome = true ∧
        ((forall session, Broker.isIncremental sent = true ->
          world.broker.accept sent = some session -> session.cached = (ordersPartition 15).get?) ∧
        ((sent.sessionEpoch = INITIAL_EPOCH ∧ sent.partitions = ordersPartition 15 ∧
            sent.forgotten = []) ∨
          (1 ≤ sent.sessionEpoch ∧ sent.sessionEpoch ≤ I32_MAX))) :=
  ⟨_, _, rfl, rfl, rfl, rfl, incremental_fetch_agrees ordersRun _ rfl _ _ rfl⟩

end FetchSession
end Krabka
