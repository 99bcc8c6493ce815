import Krabka.Collections.SortedMap
import Krabka.Consumer.Position
import Krabka.Transition

namespace Krabka
namespace Core

open Collections (SortedMap)
open Consumer (PartitionPosition)
open List Option

/-!
# The topics of the metadata requests

`MetadataTopics` holds the topics that a client names in its metadata requests, and a flag that
asks for a refresh before the metadata expires.  A refresh builds its request, waits for the
network, and then clears the flag.  A request for an update that comes in between is cleared
with it, although the answer could not have known of it.
-/

inductive MetadataScope where
  | allTopics
  | topics (allowAutoTopicCreation : Bool)
deriving DecidableEq, Repr

structure MetadataRequest where
  /-- The named topics, or every topic. -/
  topics : Option (List String)
  allowAutoTopicCreation : Bool
deriving DecidableEq, Repr

def allTopicsRequest : MetadataRequest := ⟨none, true⟩

def topicsRequest (topics : List String) (allowAutoTopicCreation : Bool) : MetadataRequest :=
  ⟨some topics, allowAutoTopicCreation⟩

structure MetadataTopics where
  scope : MetadataScope
  /-- The topics, with the time each was last used. -/
  topics : SortedMap String Nat
  /-- When a request of this scope last succeeded. -/
  refreshed : Option Nat
  updateRequested : Bool
deriving DecidableEq

namespace MetadataTopics

def new (scope : MetadataScope) : MetadataTopics := ⟨scope, SortedMap.empty, none, false⟩

def requestUpdate (metadata : MetadataTopics) : MetadataTopics :=
  { metadata with updateRequested := true }

def names (metadata : MetadataTopics) : List String := metadata.topics.keys

def request (metadata : MetadataTopics) : MetadataRequest :=
  match metadata.scope with
  | .allTopics => allTopicsRequest
  | .topics allowAutoTopicCreation => topicsRequest metadata.names allowAutoTopicCreation

def requestLocks (metadata : MetadataTopics) : Bool :=
  match metadata.scope with
  | .allTopics => false
  | .topics _ => true

/-- Add `topic`, or mark it as used now, and say whether it is new. -/
def add (metadata : MetadataTopics) (topic : String) (now : Nat) : MetadataTopics × Bool :=
  ({ metadata with topics := metadata.topics.insert topic now },
    (metadata.topics.get? topic).isNone)

def removeIdle (metadata : MetadataTopics) (now idle : Nat) : MetadataTopics × List String :=
  ({ metadata with topics := metadata.topics.filter fun _ used => now - used < idle },
    (metadata.topics.filter fun _ used => ¬now - used < idle).keys)

/-- The topics that `set` stores. -/
def collected (topics : List String) (now : Nat) : SortedMap String Nat :=
  SortedMap.ofList (topics.map fun topic => (topic, now))

/-- Whether `set` changes the topic set. -/
def changes (metadata : MetadataTopics) (topics : SortedMap String Nat) : Bool :=
  metadata.topics.keys ≠ topics.keys

/-- The first part of `set`, under the lock: a change asks for an update. -/
def setAsk (metadata : MetadataTopics) (topics : SortedMap String Nat) : MetadataTopics :=
  if metadata.changes topics then metadata.requestUpdate else metadata

/-- The last part of `set`, before the lock is released. -/
def setStore (metadata : MetadataTopics) (topics : SortedMap String Nat) : MetadataTopics :=
  { metadata with topics := topics }

/-- The first part of `mark_refreshed`. -/
def markClear (metadata : MetadataTopics) : MetadataTopics :=
  { metadata with updateRequested := false }

/-- The last part of `mark_refreshed`. -/
def markStamp (metadata : MetadataTopics) (now : Nat) : MetadataTopics :=
  { metadata with refreshed := some now }

def metadataDue (metadata : MetadataTopics) (now metadataMaxAge : Nat)
    (assigned : List TopicPartition) (positions : SortedMap TopicPartition PartitionPosition) :
    Bool :=
  metadata.updateRequested ||
    (match metadata.refreshed with
    | none => true
    | some refreshedAt => metadataMaxAge ≤ now - refreshedAt) ||
    assigned.any fun key =>
      match positions.get? key with
      | none => true
      | some position => position.leaderId < 0

end MetadataTopics

/-! ## Tasks that share the topics -/

/-- What happened, for the statements only. -/
inductive Event where
  /-- An update is requested. -/
  | asked
  /-- `set` stores another topic set. -/
  | changed
  | built (refresh : Nat) (request : MetadataRequest)
  /-- A successful refresh clears the flag. -/
  | refreshed (refresh : Nat)
deriving DecidableEq, Repr

def Event.asks : Event -> Bool
  | .asked | .changed => true
  | .built _ _ | .refreshed _ => false

inductive Refresh where
  /-- The request is under way. -/
  | waits
  /-- The flag is cleared, and the time is not stored yet. -/
  | cleared
deriving DecidableEq, Repr

structure World where
  metadata : MetadataTopics
  /-- The topics of the `set` that holds the lock. -/
  setting : Option (SortedMap String Nat)
  refreshes : SortedMap Nat Refresh
  begun : Nat
  now : Nat
  /-- The newest event is first. -/
  log : List Event
deriving DecidableEq

inductive Act where
  | tick
  | requestUpdate
  | add (topic : String)
  | removeIdle (idle : Nat)
  | setAsk (topics : List String)
  | setStore
  /-- `refresh_metadata` builds its request. -/
  | build
  /-- The request fails, or the caller drops the refresh. -/
  | fail (refresh : Nat)
  /-- The response is there: `mark_refreshed` clears the flag. -/
  | clear (refresh : Nat)
  | stamp (refresh : Nat)
deriving DecidableEq, Repr

namespace World

def start (scope : MetadataScope) : World where
  metadata := MetadataTopics.new scope
  setting := none
  refreshes := SortedMap.empty
  begun := 0
  now := 0
  log := []

def step (world : World) : Act -> Option World
  | .tick => some { world with now := world.now + 1 }
  | .requestUpdate => some { world with
      metadata := world.metadata.requestUpdate
      log := .asked :: world.log }
  | .add topic =>
    if world.setting.isSome then none
    else some { world with metadata := (world.metadata.add topic world.now).1 }
  | .removeIdle idle =>
    if world.setting.isSome then none
    else some { world with metadata := (world.metadata.removeIdle world.now idle).1 }
  | .setAsk topics =>
    if world.setting.isSome then none
    else
      let collected := MetadataTopics.collected topics world.now
      some { world with
        metadata := world.metadata.setAsk collected
        setting := some collected
        log := if world.metadata.changes collected then .asked :: world.log else world.log }
  | .setStore =>
    world.setting.map fun topics => { world with
      metadata := world.metadata.setStore topics
      setting := none
      log := if world.metadata.changes topics then .changed :: world.log else world.log }
  | .build =>
    if world.metadata.requestLocks && world.setting.isSome then none
    else some { world with
      refreshes := world.refreshes.insert world.begun .waits
      begun := world.begun + 1
      log := .built world.begun world.metadata.request :: world.log }
  | .fail refresh =>
    if world.refreshes.get? refresh = some .waits then
      some { world with refreshes := world.refreshes.erase refresh }
    else none
  | .clear refresh =>
    if world.refreshes.get? refresh = some .waits then
      some { world with
        metadata := world.metadata.markClear
        refreshes := world.refreshes.insert refresh .cleared
        log := .refreshed refresh :: world.log }
    else none
  | .stamp refresh =>
    if world.refreshes.get? refresh = some .cleared then
      some { world with
        metadata := world.metadata.markStamp world.now
        refreshes := world.refreshes.erase refresh }
    else none

/-- The refresh at the start of the consumer's `update_fetch_positions`. -/
def pollRefresh (world : World) (metadataMaxAge : Nat) (assigned : List TopicPartition)
    (positions : SortedMap TopicPartition PartitionPosition) : Option World :=
  if world.metadata.metadataDue world.now metadataMaxAge assigned positions then world.step .build
  else some world

end World

/-! ## Requests that no refresh has answered -/

/-- An update was requested, or the topics changed, and no refresh that built its request later
has succeeded. -/
def Unanswered (log : List Event) : Prop :=
  Exists fun newer => Exists fun event => Exists fun older =>
    log = newer ++ event :: older ∧ event.asks = true ∧
      forall refresh request, .built refresh request ∈ newer -> .refreshed refresh ∉ newer

def since (refresh : Nat) (log : List Event) : List Event :=
  log.takeWhile fun event =>
    match event with
    | .built other _ => other ≠ refresh
    | _ => true

/-- A successful refresh clears the flag only when no update was requested and no topics changed
since it built its request, and no `set` that changes them is under way. -/
def Undisturbed (world : World) : Act -> Prop
  | .clear refresh => (forall event, event ∈ since refresh world.log -> event.asks = false) ∧
      forall topics, topics ∈ world.setting -> world.metadata.changes topics = false
  | _ => True

instance (world : World) (act : Act) : Decidable (Undisturbed world act) := by
  cases act <;> unfold Undisturbed <;> infer_instance

theorem not_unanswered_nil : ¬Unanswered [] := by
  rintro ⟨newer, event, older, log, _⟩
  exact append_ne_nil_of_right_ne_nil _ (cons_ne_nil _ _) log.symm

/-- An event that asks for nothing leaves every request answered. -/
theorem not_unanswered_cons {log : List Event} (answered : ¬Unanswered log) {event : Event}
    (quiet : event.asks = false) : ¬Unanswered (event :: log) := by
  rintro ⟨newer, asking, older, isLog, asks, unrefreshed⟩
  cases newer with
  | nil =>
    rw [(List.cons.inj isLog).1, asks] at quiet
    cases quiet
  | cons newest rest =>
    refine answered ⟨rest, asking, older, (List.cons.inj isLog).2, asks, ?_⟩
    intro refresh request built refreshed
    exact unrefreshed refresh request (.tail _ built) (.tail _ refreshed)

/-- An event before which the refresh did not build its request came since. -/
theorem mem_since {refresh : Nat} {newer older : List Event} {event : Event}
    (asks : event.asks = true)
    (unbuilt : forall request, .built refresh request ∉ newer) :
    event ∈ since refresh (newer ++ event :: older) := by
  induction newer with
  | nil =>
    cases event with
    | asked | changed => exact .head _
    | built | refreshed => cases asks
  | cons newest rest ih =>
    have later := ih (fun request member => unbuilt request (.tail _ member))
    unfold since at later ⊢
    rw [cons_append, takeWhile_cons_of_pos]
    · exact .tail _ later
    · cases newest with
      | built other request =>
        refine decide_eq_true ?_
        intro same
        exact unbuilt request (same ▸ (.head _))
      | _ => rfl

/-- A refresh that nothing disturbed answers every request. -/
theorem not_unanswered_refreshed {log : List Event} {refresh : Nat}
    (undisturbed : forall event, event ∈ since refresh log -> event.asks = false) :
    ¬Unanswered (.refreshed refresh :: log) := by
  rintro ⟨newer, asking, older, isLog, asks, unrefreshed⟩
  cases newer with
  | nil =>
    rw [<- (List.cons.inj isLog).1] at asks
    cases asks
  | cons newest rest =>
    have parts := List.cons.inj isLog
    by_cases built : Exists fun request => .built refresh request ∈ rest
    · rcases built with ⟨request, member⟩
      refine unrefreshed refresh request (.tail _ member) ?_
      rw [<- parts.1]
      exact .head _
    · have member : asking ∈ since refresh log := by
        rw [parts.2]
        exact mem_since asks (fun request isBuilt => built ⟨request, isBuilt⟩)
      rw [undisturbed asking member] at asks
      cases asks

/-! ## Runs -/

/-- While the flag is down, every request is answered and no change is under way. -/
def Kept (world : World) : Prop :=
  world.metadata.updateRequested = false -> ¬Unanswered world.log ∧
    forall topics, topics ∈ world.setting -> world.metadata.changes topics = false

variable {world : World}

theorem step_kept {next : World} {act : Act} (kept : Kept world)
    (undisturbed : Undisturbed world act) (stepped : world.step act = some next) :
    Kept next := by
  cases act with
  | tick =>
    cases stepped
    exact kept
  | requestUpdate =>
    cases stepped
    exact fun isDown => absurd isDown nofun
  | add _ | removeIdle _ =>
    simp only [World.step] at stepped
    split at stepped <;> cases stepped
    rename_i free
    refine fun isDown => ⟨(kept isDown).1, ?_⟩
    intro topics isSetting
    exact absurd (isSome_of_mem isSetting) free
  | setAsk topics =>
    simp only [World.step] at stepped
    split at stepped <;> cases stepped
    unfold MetadataTopics.setAsk
    cases isChange : world.metadata.changes (MetadataTopics.collected topics world.now) with
    | true => exact fun isDown => absurd isDown nofun
    | false =>
      refine fun isDown => ⟨(kept isDown).1, ?_⟩
      intro collected isSetting
      cases isSetting
      exact isChange
  | setStore =>
    rcases map_eq_some_iff.mp stepped with ⟨topics, isSetting, isNext⟩
    rw [<- isNext]
    intro isDown
    have before := kept isDown
    refine ⟨?_, nofun⟩
    rw [before.2 topics isSetting]
    exact before.1
  | build =>
    simp only [World.step] at stepped
    split at stepped <;> cases stepped
    exact fun isDown => ⟨not_unanswered_cons (kept isDown).1 rfl, (kept isDown).2⟩
  | fail | stamp =>
    simp only [World.step] at stepped
    split at stepped <;> cases stepped
    exact kept
  | clear refresh =>
    simp only [World.step] at stepped
    split at stepped <;> cases stepped
    exact fun _ => ⟨not_unanswered_refreshed undisturbed.1, undisturbed.2⟩

theorem build_log {next : World} (built : world.step .build = some next) :
    next.log = .built world.begun world.metadata.request :: world.log := by
  simp only [World.step] at built
  split at built <;> cases built
  rfl

/-- In a run whose refreshes are undisturbed, a request for an update that no later request has
answered keeps the flag up, and the next poll builds a new request of the topics it finds. -/
theorem run_update_requests_kept (scope : MetadataScope) (acts : List Act) (world : World)
    (ran : Transition.run World.step (.start scope) acts = some world)
    (undisturbed : Transition.Along World.step Undisturbed (.start scope) acts)
    (unanswered : Unanswered world.log) :
    world.metadata.updateRequested = true ∧ forall metadataMaxAge assigned positions next,
        world.pollRefresh metadataMaxAge assigned positions = some next ->
          next.log = .built world.begun world.metadata.request :: world.log := by
  have kept : Kept world := Transition.run_invariant Kept (fun _ _ _ => step_kept)
    (fun _ => ⟨not_unanswered_nil, fun _ isSetting => absurd isSetting (not_mem_none _)⟩)
    undisturbed ran
  have isUp : world.metadata.updateRequested = true := by
    by_contra isDown
    exact (kept (Bool.of_not_eq_true isDown)).1 unanswered
  refine ⟨isUp, ?_⟩
  intro metadataMaxAge assigned positions next polled
  rw [World.pollRefresh, MetadataTopics.metadataDue, isUp, Bool.true_or, Bool.true_or] at polled
  exact build_log polled

/-- A refresh answers the first topics, and then the topics change while another refresh that
will fail is under way. -/
def changedTopics : List Act :=
  [.setAsk ["a"], .setStore, .build, .clear 0, .stamp 0, .build, .setAsk ["a", "b"], .setStore,
    .add "c", .fail 1]

theorem run_update_requests_kept_changed :
    Exists fun world =>
      Transition.run World.step (.start (.topics true)) changedTopics = some world ∧
        world.metadata.updateRequested = true ∧
        world.metadata.request = ⟨some ["a", "b", "c"], true⟩ :=
  ⟨_, rfl, (run_update_requests_kept (.topics true) changedTopics _ rfl (by decide)
    ⟨[], .changed, _, rfl, rfl, nofun⟩).1, rfl⟩

/-- An update is requested while a refresh waits for its answer. -/
def disturbed : List Act :=
  [.setAsk ["a"], .setStore, .build, .setAsk ["a", "b"], .setStore, .requestUpdate, .clear 0,
    .stamp 0]

/-- The answer to a request that named one topic clears the flag that two topics raised. -/
theorem disturbed_refresh_loses_request :
    (Transition.run World.step (.start (.topics true)) disturbed).map
        (fun world => (world.metadata.updateRequested, world.metadata.names, world.log)) =
      some (false, ["a", "b"], [.refreshed 0, .asked, .changed, .asked,
        .built 0 ⟨some ["a"], true⟩, .changed, .asked]) :=
  rfl

end Core
end Krabka
