import Krabka.Consumer.GroupMember
import Mathlib.Data.List.Dedup

namespace Krabka
namespace Consumer
namespace GroupMember
namespace HeartbeatFields

open Collections Option

/-!
# The fields of a heartbeat

`build_heartbeat` sends a field only when it differs from a cache of what was sent.
`heartbeat_once` writes the cache before it knows the outcome, and resets it when the
heartbeat fails.  `heartbeat_during_callback` sends from a copy of the cache that it throws
away.  The coordinator keeps the last value that it got of each field.

The leave heartbeats and the reconciliation of an answer are what the member meets from
outside: `rejoin` comes after a leave, and `assign` changes the owned partitions.
-/

abbrev OwnedByTopicId := SortedMap WireUuid (List Int)

def ownedByTopicId (owned : List TopicPartition) (topicIds : SortedMap String WireUuid) :
    OwnedByTopicId :=
  (owned.foldl (fun byId key =>
    match topicIds.get? key.topic with
    | some topicId =>
      byId.insert topicId (((byId.get? topicId).getD []) ++ [key.partition])
    | none => byId) SortedMap.empty).mapValues fun partitions : List Int =>
      partitions.insertionSort (· ≤ ·)

/-- The fields of the last heartbeat. -/
structure SentFields where
  rebalanceTimeoutMs : Option Int
  subscribedTopicNames : Option (List String)
  regex : Option String
  serverAssignor : Option String
  topicPartitions : Option OwnedByTopicId
deriving DecidableEq

def SentFields.default : SentFields := ⟨none, none, none, none, none⟩

/-- What the member sends in its next heartbeat. -/
structure Fields where
  groupId : String
  memberId : String
  memberEpoch : Int
  instanceId : Option String
  rackId : Option String
  rebalanceTimeoutMs : Int
  subscribedTopicNames : List String
  regex : Option String
  serverAssignor : Option String
  owned : OwnedByTopicId
  joining : Bool
deriving DecidableEq

structure ConsumerGroupHeartbeatRequest where
  groupId : String
  memberId : String
  memberEpoch : Int
  instanceId : Option String
  rackId : Option String
  rebalanceTimeoutMs : Int
  subscribedTopicNames : Option (List String)
  subscribedTopicRegex : Option String
  serverAssignor : Option String
  topicPartitions : Option Assignment
deriving DecidableEq, Repr

/-- Build the next heartbeat and record the fields that it carries. -/
def buildHeartbeat (fields : Fields) (sent : SentFields) :
    ConsumerGroupHeartbeatRequest × SentFields :=
  let all := fields.joining
  let sent := if all then .default else sent
  let timeout := all || sent.rebalanceTimeoutMs != some fields.rebalanceTimeoutMs
  let names := all || sent.subscribedTopicNames != some fields.subscribedTopicNames
  let regex := (all && fields.regex.isSome) || sent.regex != fields.regex
  let assignor :=
    fields.serverAssignor.isSome && (all || sent.serverAssignor != fields.serverAssignor)
  let owned := all || sent.topicPartitions != some fields.owned
  ({  groupId := fields.groupId
      memberId := fields.memberId
      memberEpoch := fields.memberEpoch
      instanceId := fields.instanceId
      rackId := if all then fields.rackId else none
      rebalanceTimeoutMs := if timeout then fields.rebalanceTimeoutMs else -1
      subscribedTopicNames := if names then some fields.subscribedTopicNames else none
      -- An empty expression removes a pattern subscription.
      subscribedTopicRegex := if regex then some (fields.regex.getD "") else none
      serverAssignor := if assignor then fields.serverAssignor else none
      topicPartitions := if owned then some fields.owned.entries else none },
    { rebalanceTimeoutMs :=
        if timeout then some fields.rebalanceTimeoutMs else sent.rebalanceTimeoutMs
      subscribedTopicNames :=
        if names then some fields.subscribedTopicNames else sent.subscribedTopicNames
      regex := if regex then fields.regex else sent.regex
      serverAssignor := if assignor then fields.serverAssignor else sent.serverAssignor
      topicPartitions := if owned then some fields.owned else sent.topicPartitions })

/-! ## The coordinator -/

/-- What the coordinator keeps about the member. -/
@[ext] structure Registration where
  rebalanceTimeoutMs : Int
  subscribedTopicNames : List String
  regex : Option String
  serverAssignor : Option String
  topicPartitions : Assignment
deriving DecidableEq, Repr

def Registration.empty : Registration := ⟨-1, [], none, none, []⟩

/-- An absent field leaves the value, and a join replaces all of them. -/
def Registration.receive (registration : Registration)
    (request : ConsumerGroupHeartbeatRequest) : Registration :=
  let old := if request.memberEpoch = JOIN_GROUP_MEMBER_EPOCH then empty else registration
  { rebalanceTimeoutMs :=
      if request.rebalanceTimeoutMs = -1 then old.rebalanceTimeoutMs
      else request.rebalanceTimeoutMs
    subscribedTopicNames := request.subscribedTopicNames.getD old.subscribedTopicNames
    regex :=
      match request.subscribedTopicRegex with
      | none => old.regex
      | some regex => if regex = "" then none else some regex
    serverAssignor := request.serverAssignor.or old.serverAssignor
    topicPartitions := request.topicPartitions.getD old.topicPartitions }

/-- The fields of the member, as the coordinator keeps them. -/
def Fields.registration (fields : Fields) : Registration :=
  { rebalanceTimeoutMs := fields.rebalanceTimeoutMs
    subscribedTopicNames := fields.subscribedTopicNames
    regex := fields.regex
    serverAssignor := fields.serverAssignor
    topicPartitions := fields.owned.entries }

/-! ## The member -/

structure Config where
  groupId : String
  groupInstanceId : Option String
  clientRack : Option String
  maxPollInterval : Nat
  serverAssignor : Option String

structure World where
  memberId : String
  memberEpoch : Int
  topics : List String
  regex : Option String
  assigned : List TopicPartition
  topicIds : SortedMap String WireUuid
  sentHeartbeatFields : SentFields
  coordinator : Registration
  /-- The fields that the heartbeats during callbacks carried to the coordinator since the
  last heartbeat of the task. -/
  callbacks : List Fields

def World.start : World :=
  ⟨"", JOIN_GROUP_MEMBER_EPOCH, [], none, [], SortedMap.empty, .default, .empty, []⟩

inductive HeartbeatKind where
  | join
  | interval
deriving DecidableEq, Repr

def World.heartbeatFields (config : Config) (world : World) (kind : HeartbeatKind) : Fields :=
  { groupId := config.groupId
    memberId := world.memberId
    memberEpoch := world.memberEpoch
    instanceId := config.groupInstanceId
    rackId := config.clientRack
    rebalanceTimeoutMs := config.maxPollInterval
    -- The coordinator matches a regular expression, so it goes without topic names.
    subscribedTopicNames := if world.regex.isSome then [] else world.topics
    regex := world.regex
    serverAssignor := config.serverAssignor
    owned := ownedByTopicId world.assigned world.topicIds
    joining := kind = .join }

/-- What becomes of a heartbeat. -/
inductive Delivery where
  | succeeds (memberId : Option String) (memberEpoch : Int)
  | lostBefore
  | lostAfter
  | fails (errorCode : Int)
deriving DecidableEq, Repr

inductive Act where
  | subscribe (topics : List String)
  | subscribePattern
  | subscribeRegex (regex : String)
  /-- The topics that a pattern matched, or those of an assignment. -/
  | storeTopics (topics : List String)
  | assign (assigned : List TopicPartition) (topicIds : SortedMap String WireUuid)
  /-- `heartbeat_once`. -/
  | heartbeat (delivery : Delivery)
  /-- A heartbeat of `heartbeat_during_callback`. -/
  | callback (delivery : Delivery)
  /-- The member left the group, and joins again. -/
  | rejoin

namespace World

def sortedTopics (topics : List String) : List String := topics.dedup.insertionSort (· ≤ ·)

/-- The kind of the next heartbeat of the task. -/
def heartbeatKind (world : World) : HeartbeatKind :=
  if world.memberEpoch = JOIN_GROUP_MEMBER_EPOCH then .join else .interval

def heartbeatOnce (config : Config) (world : World) (delivery : Delivery) : Option World :=
  let built :=
    buildHeartbeat (world.heartbeatFields config world.heartbeatKind) world.sentHeartbeatFields
  let received := world.coordinator.receive built.1
  let reset := { world with sentHeartbeatFields := .default, callbacks := [] }
  match delivery with
  | .succeeds memberId memberEpoch =>
    -- The coordinator counts the epochs of a member from 1.
    if 0 < memberEpoch then
      some { world with
        memberId := (memberId.filter fun id => id ≠ "").getD world.memberId
        memberEpoch := memberEpoch
        sentHeartbeatFields := built.2
        coordinator := received
        callbacks := [] }
    else none
  | .lostBefore => some reset
  | .lostAfter => some { reset with coordinator := received }
  | .fails errorCode =>
    match heartbeatAction errorCode with
    | .ok => none
    | .fenced => some { reset with memberEpoch := JOIN_GROUP_MEMBER_EPOCH, assigned := [] }
    | _ => some reset

def heartbeatDuringCallback (config : Config) (world : World) (delivery : Delivery) :
    Option World :=
  let fields := world.heartbeatFields config .interval
  let received := { world with
    coordinator := world.coordinator.receive
      (buildHeartbeat fields world.sentHeartbeatFields).1
    callbacks := fields :: world.callbacks }
  match delivery with
  | .succeeds _ _ | .lostAfter => some received
  | .lostBefore | .fails _ => some world

def step (config : Config) (world : World) : Act -> Option World
  | .subscribe topics =>
    if topics ≠ [] ∧ "" ∉ topics then
      some { world with topics := sortedTopics topics, regex := none }
    else none
  | .subscribePattern => some { world with topics := [], regex := none }
  | .subscribeRegex regex =>
    if regex = "" then none else some { world with regex := some regex }
  | .storeTopics topics => some { world with topics := topics }
  | .assign assigned topicIds => some { world with assigned := assigned, topicIds := topicIds }
  | .heartbeat delivery => world.heartbeatOnce config delivery
  | .callback delivery => world.heartbeatDuringCallback config delivery
  | .rejoin =>
    some { world with
      memberEpoch := JOIN_GROUP_MEMBER_EPOCH, sentHeartbeatFields := .default }

end World

/-! ## One heartbeat -/

section Heartbeat

variable {fields : Fields} {sent : SentFields} {old : Registration}

/-- The coordinator has what a heartbeat does not send. -/
structure Agrees (sent : SentFields) (fields : Fields) (old : Registration) : Prop where
  timeout : old.rebalanceTimeoutMs = fields.rebalanceTimeoutMs
  names : sent.subscribedTopicNames = some fields.subscribedTopicNames ->
    old.subscribedTopicNames = fields.subscribedTopicNames
  regex : sent.regex = fields.regex -> old.regex = fields.regex
  assignor : old.serverAssignor = fields.serverAssignor
  owned : sent.topicPartitions = some fields.owned -> old.topicPartitions = fields.owned.entries

/-- A heartbeat of a member that joined brings the coordinator up to date. -/
theorem receive_of_agrees (joined : fields.memberEpoch ≠ JOIN_GROUP_MEMBER_EPOCH)
    (interval : fields.joining = false) (nonempty : fields.regex ≠ some "")
    (agrees : Agrees sent fields old) :
    old.receive (buildHeartbeat fields sent).1 = fields.registration := by
  simp only [Registration.receive, buildHeartbeat, interval, if_neg joined, Bool.false_or,
    Bool.false_and, Bool.false_eq_true, if_false, bne_iff_ne, Bool.and_eq_true]
  refine Registration.ext ?_ ?_ ?_ ?_ ?_
  · have known := agrees.timeout
    dsimp only [Fields.registration]
    split_ifs <;> simp_all
  · dsimp only [Fields.registration]
    split_ifs with changed
    · rfl
    · exact agrees.names (not_not.mp changed)
  · dsimp only [Fields.registration]
    split_ifs with changed
    · cases isRegex : fields.regex with
      | none => rfl
      | some regex => exact if_neg fun isEmpty => nonempty (isRegex.trans (congrArg some isEmpty))
    · exact agrees.regex (not_not.mp changed)
  · dsimp only [Fields.registration]
    rw [agrees.assignor]
    split_ifs <;> cases fields.serverAssignor <;> rfl
  · dsimp only [Fields.registration]
    split_ifs with changed
    · rfl
    · exact agrees.owned (not_not.mp changed)

/-- A heartbeat with epoch 0 carries every field when the cache is empty. -/
theorem receive_of_fresh (joins : fields.memberEpoch = JOIN_GROUP_MEMBER_EPOCH)
    (fresh : sent = .default) (nonnegative : 0 ≤ fields.rebalanceTimeoutMs)
    (nonempty : fields.regex ≠ some "") :
    old.receive (buildHeartbeat fields sent).1 = fields.registration := by
  have carried : fields.rebalanceTimeoutMs ≠ -1 := by omega
  have cache : (if fields.joining = true then SentFields.default else sent) = .default := by
    rw [fresh, ite_self]
  simp only [Registration.receive, buildHeartbeat, cache, if_pos joins]
  refine Registration.ext ?_ ?_ ?_ ?_ ?_
  · simp [SentFields.default, Fields.registration, carried]
  · simp [SentFields.default, Fields.registration]
  · cases isRegex : fields.regex with
    | none => simp [SentFields.default, Fields.registration, Registration.empty, isRegex]
    | some regex =>
      have isText : regex ≠ "" := fun isEmpty => nonempty (isRegex.trans (congrArg some isEmpty))
      simp [SentFields.default, Fields.registration, isRegex, isText]
  · cases isAssignor : fields.serverAssignor <;>
      simp [SentFields.default, Fields.registration, Registration.empty, isAssignor]
  · simp [SentFields.default, Fields.registration]

theorem ite_changed {Value : Type} [BEq Value] [LawfulBEq Value] (forced : Bool)
    (cached value : Value) :
    (if (forced || cached != value) = true then value else cached) = value := by
  split_ifs with changed
  · rfl
  · rw [Bool.or_eq_true, not_or, bne_iff_ne, not_not] at changed
    exact changed.2

theorem buildHeartbeat_sent : (buildHeartbeat fields sent).2.subscribedTopicNames =
      some fields.subscribedTopicNames ∧ (buildHeartbeat fields sent).2.regex = fields.regex ∧
    (buildHeartbeat fields sent).2.topicPartitions = some fields.owned :=
  ⟨ite_changed _ _ _, ite_changed _ _ _, ite_changed _ _ _⟩

end Heartbeat

/-! ## Every heartbeat -/

/-- A heartbeat during a callback carried no other value of a field that is back at the value
of the cache. -/
def Steady (config : Config) (world : World) : Prop :=
  let sent := world.sentHeartbeatFields
  let fields := world.heartbeatFields config .interval
  forall carried, carried ∈ world.callbacks ->
    (sent.subscribedTopicNames = some fields.subscribedTopicNames ->
      carried.subscribedTopicNames = fields.subscribedTopicNames) ∧
    (sent.regex = fields.regex -> carried.regex = fields.regex) ∧
    (sent.topicPartitions = some fields.owned -> carried.owned = fields.owned)

/-- After the join, the member drops its expression only while the cache holds it, and the
heartbeat that reports this does not fail. -/
def Recalls (config : Config) (world : World) : Act -> Prop
  | .subscribe _ | .subscribePattern =>
    world.memberEpoch = JOIN_GROUP_MEMBER_EPOCH ∨ world.regex = none ∨
      world.sentHeartbeatFields.regex = world.regex
  | .heartbeat (.succeeds _ _) | .callback _ =>
    world.memberEpoch = JOIN_GROUP_MEMBER_EPOCH ∨ Steady config world
  | .heartbeat _ =>
    world.memberEpoch = JOIN_GROUP_MEMBER_EPOCH ∨ Steady config world ∧
      (world.regex = none -> world.sentHeartbeatFields.regex = none)
  | _ => True

/-- What a member that joined knows about the coordinator: each field of the cache is there,
unless a heartbeat during a callback brought another value, or the cache was reset under an
expression that the member still has. -/
structure Joined (config : Config) (coordinator : Registration) (sent : SentFields)
    (regex : Option String) (callbacks : List Fields) : Prop where
  timeout : coordinator.rebalanceTimeoutMs = config.maxPollInterval
  assignor : coordinator.serverAssignor = config.serverAssignor
  names : forall names, sent.subscribedTopicNames = some names ->
    coordinator.subscribedTopicNames = names ∨ Exists fun carried =>
      carried ∈ callbacks ∧ coordinator.subscribedTopicNames = carried.subscribedTopicNames
  expression : coordinator.regex = sent.regex ∨
    (Exists fun carried => carried ∈ callbacks ∧ coordinator.regex = carried.regex) ∨
    sent.regex = none ∧ regex ≠ none
  owned : forall owned, sent.topicPartitions = some owned ->
    coordinator.topicPartitions = owned.entries ∨ Exists fun carried =>
      carried ∈ callbacks ∧ coordinator.topicPartitions = carried.owned.entries

structure InStep (config : Config) (world : World) : Prop where
  fresh : world.memberEpoch = JOIN_GROUP_MEMBER_EPOCH -> world.sentHeartbeatFields = .default
  nonempty : world.regex ≠ some ""
  joined : world.memberEpoch ≠ JOIN_GROUP_MEMBER_EPOCH ->
    Joined config world.coordinator world.sentHeartbeatFields world.regex world.callbacks

section Steps

variable {config : Config} {world next : World} {act : Act} {delivery : Delivery}

section

variable (inStep : InStep config world)

include inStep

theorem InStep.agrees (isJoined : world.memberEpoch ≠ JOIN_GROUP_MEMBER_EPOCH)
    (steady : Steady config world) :
    Agrees world.sentHeartbeatFields (world.heartbeatFields config .interval)
      world.coordinator := by
  have joined := inStep.joined isJoined
  refine ⟨joined.timeout, ?_, ?_, joined.assignor, ?_⟩
  · intro cached
    rcases joined.names _ cached with same | ⟨carried, member, same⟩
    · exact same
    · exact same.trans ((steady carried member).1 cached)
  · intro cached
    rcases joined.expression with same | ⟨carried, member, same⟩ | ⟨forgotten, present⟩
    · exact same.trans cached
    · exact same.trans ((steady carried member).2.1 cached)
    · exact absurd (cached.symm.trans forgotten) present
  · intro cached
    rcases joined.owned _ cached with same | ⟨carried, member, same⟩
    · exact same
    · exact same.trans (congrArg SortedMap.entries ((steady carried member).2.2 cached))

/-- What reaches the coordinator brings it up to date. -/
theorem InStep.received (steady : world.memberEpoch = JOIN_GROUP_MEMBER_EPOCH ∨ Steady config world)
    {kind : HeartbeatKind}
    (isKind : world.memberEpoch ≠ JOIN_GROUP_MEMBER_EPOCH -> kind = .interval) :
    world.coordinator.receive
        (buildHeartbeat (world.heartbeatFields config kind) world.sentHeartbeatFields).1 =
      (world.heartbeatFields config .interval).registration := by
  by_cases joins : world.memberEpoch = JOIN_GROUP_MEMBER_EPOCH
  · exact @receive_of_fresh (world.heartbeatFields config kind) _ _ joins (inStep.fresh joins)
      (Int.natCast_nonneg _) inStep.nonempty
  · cases isKind joins
    exact @receive_of_agrees (world.heartbeatFields config .interval) _ _ joins rfl
      inStep.nonempty (inStep.agrees joins (steady.resolve_left joins))

omit inStep in
theorem kind_of_joined (world : World) (joined : world.memberEpoch ≠ JOIN_GROUP_MEMBER_EPOCH) :
    world.heartbeatKind = .interval :=
  if_neg joined

omit inStep in
/-- The cache after a failure holds nothing. -/
theorem Joined.reset {coordinator : Registration} {regex : Option String}
    (timeout : coordinator.rebalanceTimeoutMs = config.maxPollInterval)
    (assignor : coordinator.serverAssignor = config.serverAssignor)
    (dropped : regex = none -> coordinator.regex = none) :
    Joined config coordinator .default regex [] := by
  refine ⟨timeout, assignor, nofun, ?_, nofun⟩
  by_cases isNone : regex = none
  · exact .inl (dropped isNone)
  · exact .inr (.inr ⟨rfl, isNone⟩)

theorem InStep.heartbeatOnce (recalls : Recalls config world (.heartbeat delivery))
    (stepped : world.heartbeatOnce config delivery = some next) : InStep config next := by
  -- A failed heartbeat without an expression finds none at the coordinator.
  have reset : (world.memberEpoch = JOIN_GROUP_MEMBER_EPOCH ∨ Steady config world ∧
      (world.regex = none -> world.sentHeartbeatFields.regex = none)) ->
        world.memberEpoch ≠ JOIN_GROUP_MEMBER_EPOCH ->
          Joined config world.coordinator .default world.regex [] := by
    intro allowed isJoined
    have joined := inStep.joined isJoined
    rcases allowed.resolve_left isJoined with ⟨steady, reported⟩
    refine .reset joined.timeout joined.assignor fun isNone => ?_
    have cached := (reported isNone).trans isNone.symm
    exact ((inStep.agrees isJoined steady).regex cached).trans isNone
  unfold World.heartbeatOnce at stepped
  cases delivery with
  | succeeds memberId memberEpoch =>
    rcases @buildHeartbeat_sent (world.heartbeatFields config world.heartbeatKind)
      world.sentHeartbeatFields with ⟨names, regex, owned⟩
    dsimp only at stepped
    rw [inStep.received recalls (kind_of_joined world), ite_none_right_eq_some] at stepped
    rcases stepped with ⟨positive, isNext⟩
    cases isNext
    refine ⟨fun joins => absurd joins (Int.ne_of_gt positive), inStep.nonempty,
      fun _ => ⟨rfl, rfl, fun _ cached => ?_, .inl regex.symm, fun _ cached => ?_⟩⟩
    · exact .inl (some.inj (names.symm.trans cached))
    · exact .inl (congrArg SortedMap.entries (some.inj (owned.symm.trans cached)))
  | lostBefore =>
    cases stepped
    exact ⟨fun _ => rfl, inStep.nonempty, reset recalls⟩
  | lostAfter =>
    dsimp only at stepped
    rw [inStep.received (recalls.imp_right And.left) (kind_of_joined world)] at stepped
    cases stepped
    exact ⟨fun _ => rfl, inStep.nonempty, fun _ => .reset rfl rfl id⟩
  | fails errorCode =>
    dsimp only at stepped
    split at stepped <;> cases stepped
    · exact ⟨fun _ => rfl, inStep.nonempty, fun joined => absurd rfl joined⟩
    · exact ⟨fun _ => rfl, inStep.nonempty, reset recalls⟩

theorem InStep.heartbeatDuringCallback (recalls : Recalls config world (.callback delivery))
    (stepped : world.heartbeatDuringCallback config delivery = some next) :
    InStep config next := by
  have received := inStep.received recalls (fun _ => rfl)
  dsimp only [World.heartbeatDuringCallback] at stepped
  rw [received] at stepped
  cases delivery with
  | succeeds | lostAfter =>
    cases stepped
    refine ⟨inStep.fresh, inStep.nonempty, fun _ => ⟨rfl, rfl, fun _ _ => ?_, ?_, fun _ _ => ?_⟩⟩
    · exact .inr ⟨_, .head _, rfl⟩
    · exact .inr (.inl ⟨_, .head _, rfl⟩)
    · exact .inr ⟨_, .head _, rfl⟩
  | lostBefore | fails =>
    cases stepped
    exact inStep

theorem step_inStep (recalls : Recalls config world act)
    (stepped : world.step config act = some next) : InStep config next := by
  have dropped : forall topics, (world.memberEpoch = JOIN_GROUP_MEMBER_EPOCH ∨
      world.regex = none ∨ world.sentHeartbeatFields.regex = world.regex) ->
        InStep config { world with topics := topics, regex := none } := by
    intro topics allowed
    refine ⟨inStep.fresh, nofun, fun joined => ?_⟩
    rcases inStep.joined joined with ⟨timeout, assignor, names, regex, owned⟩
    refine ⟨timeout, assignor, names, ?_, owned⟩
    rcases regex with same | carried | ⟨forgotten, present⟩
    · exact .inl same
    · exact .inr (.inl carried)
    · rcases allowed.resolve_left joined with isNone | cached
      · exact absurd isNone present
      · exact absurd (cached.symm.trans forgotten) present
  cases act with
  | subscribe topics =>
    rw [World.step, ite_none_right_eq_some] at stepped
    cases stepped.2
    exact dropped _ recalls
  | subscribePattern =>
    cases stepped
    exact dropped _ recalls
  | subscribeRegex regex =>
    rw [World.step, ite_none_left_eq_some] at stepped
    cases stepped.2
    refine ⟨inStep.fresh, fun isEmpty => stepped.1 (some.inj isEmpty), fun joined => ?_⟩
    rcases inStep.joined joined with ⟨timeout, assignor, names, regex, owned⟩
    refine ⟨timeout, assignor, names, regex.imp_right (Or.imp_right fun forgotten => ?_), owned⟩
    exact ⟨forgotten.1, nofun⟩
  | storeTopics | assign =>
    cases stepped
    exact { inStep with }
  | heartbeat delivery => exact inStep.heartbeatOnce recalls stepped
  | callback delivery => exact inStep.heartbeatDuringCallback recalls stepped
  | rejoin =>
    cases stepped
    exact ⟨fun _ => rfl, inStep.nonempty, fun joined => absurd rfl joined⟩

end

end Steps

def Act.succeeds : Act -> Bool
  | .heartbeat (.succeeds _ _) | .callback (.succeeds _ _) => true
  | _ => false

end HeartbeatFields
end GroupMember
end Consumer
end Krabka
