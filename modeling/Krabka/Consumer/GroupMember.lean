import Krabka.Collections.SortedMap
import Krabka.TopicPartition
import Krabka.Transition
import Mathlib.Data.List.Sort

namespace Krabka
namespace Consumer
namespace GroupMember

open Collections

/-!
# A member of a group with server-side assignment

The member task of `consumer_group.rs`: the actions on heartbeat error codes, the
resolution of an assignment that names its topics by id, `reconcile`, and
`heartbeat_once` around them.  The metadata refresh, the rebalance callbacks and the
offsets of new partitions are what the member meets from outside.

The fields that a heartbeat repeats only when they changed, and the heartbeat interval,
are left out.
-/

/-- A topic id.  The source has 16 bytes. -/
abbrev WireUuid := Nat

/-- The partitions of an assignment, by topic id. -/
abbrev Assignment := List (WireUuid × List Int)

/-! ## Heartbeat responses -/

def JOIN_GROUP_MEMBER_EPOCH : Int := 0
def LEAVE_GROUP_MEMBER_EPOCH : Int := -1
def LEAVE_GROUP_STATIC_MEMBER_EPOCH : Int := -2

def COORDINATOR_LOAD_IN_PROGRESS : Int := 14
def COORDINATOR_NOT_AVAILABLE : Int := 15
def NOT_COORDINATOR : Int := 16
def UNKNOWN_MEMBER_ID : Int := 25
def FENCED_MEMBER_EPOCH : Int := 110

structure HeartbeatResponse where
  errorCode : Int
  memberId : Option String
  memberEpoch : Int
  assignment : Option Assignment
deriving DecidableEq, Repr

inductive HeartbeatAction where
  | ok
  | retry
  | findCoordinator
  | fenced
  | fatal
deriving DecidableEq, Repr

def heartbeatAction (errorCode : Int) : HeartbeatAction :=
  if errorCode = 0 then .ok
  else if errorCode = COORDINATOR_NOT_AVAILABLE ∨ errorCode = NOT_COORDINATOR then
    .findCoordinator
  else if errorCode = COORDINATOR_LOAD_IN_PROGRESS then .retry
  else if errorCode = FENCED_MEMBER_EPOCH ∨ errorCode = UNKNOWN_MEMBER_ID then .fenced
  else .fatal

/-! ## Topic ids -/

structure MetadataTopic where
  name : Option String
  errorCode : Int
  topicId : WireUuid
deriving DecidableEq, Repr

def ZERO : WireUuid := 0

def trackTopic (topicIds : SortedMap String WireUuid) (topic : MetadataTopic) :
    SortedMap String WireUuid :=
  match topic.name with
  | none => topicIds
  | some name =>
    if topic.errorCode ≠ 0 ∨ topic.topicId = ZERO then topicIds
    else topicIds.insert name topic.topicId

def refreshTrackedTopicIds (topicIds : SortedMap String WireUuid) (metadata : List MetadataTopic) :
    SortedMap String WireUuid :=
  metadata.foldl trackTopic topicIds

def idToName (topicIds : SortedMap String WireUuid) (topicId : WireUuid) : Option String :=
  (topicIds.entries.find? fun entry => entry.2 = topicId).map Prod.fst

def namedPartitions (names : WireUuid -> Option String) (topic : WireUuid × List Int) :
    List TopicPartition :=
  match names topic.1 with
  | some name => topic.2.map fun partition => ⟨name, partition⟩
  | none => []

/-- The partitions of an assignment by topic name, and the topic ids that stay unresolved. -/
def assignmentPartitions (assignment : Assignment) (names : WireUuid -> Option String) :
    List TopicPartition × List WireUuid :=
  ((assignment.flatMap (namedPartitions names)).insertionSort (· ≤ ·),
    (assignment.filter fun topic => (names topic.1).isNone).map Prod.fst)

/-! ## The member -/

structure Member where
  memberId : String
  memberEpoch : Int
  topicIds : SortedMap String WireUuid
  assigned : List TopicPartition
  rebalancePending : Bool

/-- What the member meets while it takes an assignment. -/
structure Surroundings where
  /-- The answer to the metadata refresh, empty when it fails. -/
  refreshed : List MetadataTopic
  /-- Whether the revoke callback succeeds. -/
  revoked : Bool
  /-- Whether the offsets of the new partitions are found. -/
  primed : Bool
  /-- Whether the assign callback succeeds. -/
  assigned : Bool
deriving DecidableEq, Repr

/-- The partitions that an assignment takes away. -/
def revokedPartitions (owned target : List TopicPartition) : List TopicPartition :=
  (owned.filter fun key => key ∉ target).insertionSort (· ≤ ·)

def addedPartitions (owned target : List TopicPartition) : List TopicPartition :=
  (target.filter fun key => key ∉ owned).insertionSort (· ≤ ·)

/-- Reconcile `target` with the partitions that the member owns.  The result says whether
the member gave up or took a partition, and is absent for an error. -/
def reconcile (member : Member) (target : List TopicPartition) (surroundings : Surroundings) :
    Member × Option Bool :=
  let revoked := revokedPartitions member.assigned target
  let added := addedPartitions member.assigned target
  if revoked = [] ∧ added = [] then ({ member with rebalancePending := false }, some false)
  else
    let pending := { member with rebalancePending := true }
    if revoked ≠ [] ∧ surroundings.revoked = false then (pending, none)
    else
      let kept :=
        if revoked = [] then pending
        else { pending with assigned := member.assigned.filter fun key => key ∈ target }
      if surroundings.primed = false then (kept, none)
      else
        ({ kept with assigned := target, rebalancePending := false },
          if surroundings.assigned then some true else none)

inductive HeartbeatOutcome where
  | interval
  | reconciled
  | backoff
  | stop
deriving DecidableEq, Repr

def resolvingIds (topicIds : SortedMap String WireUuid) (assignment : Assignment)
    (refreshed : List MetadataTopic) : SortedMap String WireUuid :=
  if (assignmentPartitions assignment (idToName topicIds)).2 = [] then topicIds
  else refreshTrackedTopicIds topicIds refreshed

/-- Act on a response without an error. -/
def acceptResponse (member : Member) (response : HeartbeatResponse)
    (surroundings : Surroundings) : Member × HeartbeatOutcome :=
  let joined :=
    { member with
      memberId := (response.memberId.filter fun id => id ≠ "").getD member.memberId
      memberEpoch := response.memberEpoch }
  match response.assignment with
  | none => ({ joined with rebalancePending := false }, .interval)
  | some assignment =>
    let topicIds := resolvingIds member.topicIds assignment surroundings.refreshed
    let target := (assignmentPartitions assignment (idToName topicIds)).1
    let reconciled := reconcile { joined with topicIds := topicIds } target surroundings
    (reconciled.1,
      match reconciled.2 with
      | some true => .reconciled
      | some false => .interval
      | none => .backoff)

/-- What comes back for a heartbeat. -/
inductive Reply where
  | response (response : HeartbeatResponse)
  /-- The request failed in transport. -/
  | failed (retriable : Bool)
deriving DecidableEq, Repr

/-- Send one heartbeat and act on the response. -/
def heartbeatOnce (member : Member) (reply : Reply) (surroundings : Surroundings) :
    Member × HeartbeatOutcome :=
  match reply with
  | .failed retriable => (member, if retriable then .backoff else .stop)
  | .response response =>
    match heartbeatAction response.errorCode with
    | .ok => acceptResponse member response surroundings
    | .retry | .findCoordinator => (member, .backoff)
    | .fenced =>
      ({ member with
        memberEpoch := JOIN_GROUP_MEMBER_EPOCH
        assigned := []
        rebalancePending := true }, .backoff)
    | .fatal => (member, .stop)

theorem heartbeatOnce_ok {member : Member} {response : HeartbeatResponse}
    {surroundings : Surroundings} (succeeded : response.errorCode = 0) :
    heartbeatOnce member (.response response) surroundings =
      acceptResponse member response surroundings := by
  have isOk : heartbeatAction response.errorCode = .ok := if_pos succeeded
  dsimp only [heartbeatOnce]
  rw [isOk]

end GroupMember
end Consumer
end Krabka
