import Krabka.Collections.Buckets
import Krabka.TopicPartition

namespace Krabka
namespace Assignor

open Collections

/-!
# The sticky assignors

`cooperative_sticky.rs`: the eager sticky assignment and the cooperative one
of KIP-429, both over one raw assignment.  The raw assignment resolves the
members' ownership claims by generation, and then takes the constrained path
when all subscriptions are equal and the general path otherwise.

Tree maps and hash maps are both sorted maps here.  The only hash map whose
iteration order is used is `best` in `prepopulateCurrentAssignments`, and the
lists filled from it are sorted afterwards.
-/

/-- One member's input to the assignor. -/
structure MemberInput where
  id : String
  subscribed : List String
  owned : List TopicPartition
  generation : Int
deriving DecidableEq, Repr

/-- The partitions of each member. -/
abbrev Assignment := Buckets String TopicPartition

/-- The subscribed topics of each member. -/
abbrev Subscriptions := SortedMap String (SortedSet String)

abbrev TopicPartitions := SortedMap String Int

/-- The order `sort` uses on partitions and on member ids. -/
def sorted {Value : Type} [LinearOrder Value] (values : List Value) : List Value :=
  values.insertionSort (· ≤ ·)

/-- The number of partitions that `id` holds. -/
def load (assignment : Assignment) (id : String) : Nat := (assignment.bucket id).length

/-! ## Ownership claims -/

/-- The best claim on a partition so far.  A tied claim counts for no one. -/
structure Claim where
  generation : Int
  owner : String
  tied : Bool
deriving DecidableEq, Repr

abbrev Claims := SortedMap TopicPartition Claim

def recordClaim (best : Claims) (id : String) (generation : Int) (tp : TopicPartition) : Claims :=
  match best.get? tp with
  | none => best.insert tp ⟨generation, id, false⟩
  | some existing =>
    if generation > existing.generation then best.insert tp ⟨generation, id, false⟩
    else if generation = existing.generation then best.insert tp { existing with tied := true }
    else best

/-- Claim one owned partition of a member, unless the ownership is stale. -/
def claimOwned (topicPartitions : TopicPartitions) (idSubs : SortedSet String) (id : String)
    (generation : Int) (best : Claims) (tp : TopicPartition) : Claims :=
  match topicPartitions.get? tp.topic with
  | none => best
  | some pcount =>
    if tp.partition < 0 ∨ tp.partition ≥ pcount then best
    else if !idSubs.contains tp.topic then best
    else recordClaim best id generation tp

def claimAll (members : List MemberInput) (subs : Subscriptions)
    (topicPartitions : TopicPartitions) : Claims :=
  members.foldl (fun best member =>
    let idSubs := (subs.get? member.id).getD SortedMap.empty
    member.owned.foldl (claimOwned topicPartitions idSubs member.id member.generation) best)
    SortedMap.empty

/-- Resolve conflicting claims by generation.  The generations that the source
also passes as a map are not used. -/
def prepopulateCurrentAssignments (members : List MemberInput) (subs : Subscriptions)
    (topicPartitions : TopicPartitions) : Assignment :=
  let best := claimAll members subs topicPartitions
  let out : Assignment := Buckets.ofKeys (members.map MemberInput.id)
  let out := best.entries.foldl (fun (out : Assignment) entry =>
    if entry.2.tied then out else out.push entry.2.owner entry.1) out
  out.mapValues sorted

def previousOwners (currentAssignment : Assignment) : SortedMap TopicPartition String :=
  currentAssignment.entries.foldl (fun owners entry =>
    entry.2.foldl (fun owners tp => owners.insert tp entry.1) owners) SortedMap.empty

/-! ## The constrained path -/

def partitionsOf (topic : String) (count : Int) : List TopicPartition :=
  (List.range count.toNat).map (fun index : Nat => ⟨topic, (index : Int)⟩)

def allPartitions (topics : SortedSet String) (topicPartitions : TopicPartitions) :
    List TopicPartition :=
  (topics.keys.filterMap (fun topic =>
    (topicPartitions.get? topic).map (fun count => (topic, count)))).flatMap
      (fun entry => partitionsOf entry.1 entry.2)

/-- The numbers of partitions that the constrained path gives to a member. -/
structure Quotas where
  minQuota : Nat
  maxQuota : Nat
  /-- How many members get more than the minimum. -/
  expectedOverMin : Nat
deriving DecidableEq, Repr

def Quotas.of (total numMembers : Nat) : Quotas :=
  ⟨total / numMembers, (total + numMembers - 1) / numMembers, total % numMembers⟩

/-- The variables of `constrained_assign` after some members kept what they
own. -/
structure OwnedState where
  currentOverMin : Nat
  assignment : Assignment
  assigned : SortedSet TopicPartition
  underMin : List String
  exactlyMin : List String

/-- Let a member keep `kept`. -/
def OwnedState.keep (state : OwnedState) (id : String) (kept : List TopicPartition) :
    OwnedState :=
  { state with
    assigned := kept.foldl (fun assigned tp => assigned.insert tp ()) state.assigned
    assignment := state.assignment.extend id kept }

/-- The order of a member's owned partitions: by index, then by topic. -/
def sortOwned (owned : List TopicPartition) : List TopicPartition :=
  owned.insertionSort (fun left right =>
    toLex (left.partition, left.topic) ≤ toLex (right.partition, right.topic))

/-- One round of `assignOwnedPartitions`. -/
def assignOwned (quotas : Quotas) (currentAssignment : Assignment) (state : OwnedState)
    (id : String) : OwnedState :=
  let owned := sortOwned (currentAssignment.bucket id)
  if owned.length < quotas.minQuota then
    let kept := state.keep id owned
    { kept with underMin := kept.underMin ++ [id] }
  else if owned.length ≥ quotas.maxQuota ∧ state.currentOverMin < quotas.expectedOverMin then
    let aboveMin := state.currentOverMin + 1
    let kept := state.keep id (owned.take quotas.maxQuota)
    { kept with
      currentOverMin := aboveMin
      exactlyMin := if aboveMin = quotas.expectedOverMin then [] else kept.exactlyMin }
  else
    let kept := state.keep id (owned.take quotas.minQuota)
    { kept with
      exactlyMin := if state.currentOverMin < quotas.expectedOverMin then kept.exactlyMin ++ [id]
        else kept.exactlyMin }

structure RoundRobin where
  assignment : Assignment
  underMin : List String
  exactlyMin : List String
  cursor : Nat

/-- Give `partition` to `member`, and move a member that reached the minimum
from the under-min list to the exactly-min queue. -/
def RoundRobin.give (state : RoundRobin) (minQuota : Nat) (member : String)
    (partition : TopicPartition) : RoundRobin :=
  let assignment := state.assignment.push member partition
  if state.underMin[state.cursor]? = some member then
    if load assignment member = minQuota then
      { state with
        assignment := assignment
        underMin := state.underMin.eraseIdx state.cursor
        exactlyMin := state.exactlyMin ++ [member] }
    else { state with assignment := assignment, cursor := state.cursor + 1 }
  else { state with assignment := assignment }

def RoundRobin.place (state : RoundRobin) (minQuota : Nat) (partition : TopicPartition) :
    Option RoundRobin :=
  match state.underMin[state.cursor]? with
  | some member => some (state.give minQuota member partition)
  | none =>
    match state.underMin with
    | first :: _ => some ({ state with cursor := 0 }.give minQuota first partition)
    | [] =>
      match state.exactlyMin with
      | [] => none
      | member :: rest =>
        some ({ state with exactlyMin := rest }.give minQuota member partition)

def RoundRobin.placeAll (minQuota : Nat) : RoundRobin -> List TopicPartition -> RoundRobin
  | state, [] => state
  | state, partition :: rest =>
    match state.place minQuota partition with
    | some next => next.placeAll minQuota rest
    | none => state

def constrainedAssign (memberIds : List String) (subs : Subscriptions)
    (currentAssignment : Assignment) (topicPartitions : TopicPartitions) : Assignment :=
  if memberIds.length = 0 then SortedMap.empty
  else
    let shared := (memberIds.head?.bind subs.get?).getD SortedMap.empty
    let all := allPartitions shared topicPartitions
    let quotas := Quotas.of all.length memberIds.length
    let kept := memberIds.foldl (assignOwned quotas currentAssignment)
      ⟨0, Buckets.ofKeys memberIds, SortedMap.empty, [], []⟩
    let unassigned := all.filter (fun partition => !kept.assigned.contains partition)
    let placed := RoundRobin.placeAll quotas.minQuota
      ⟨kept.assignment, sorted kept.underMin, sorted kept.exactlyMin, 0⟩ unassigned
    placed.assignment.mapValues sorted

/-! ## The general path -/

def subscribersPerTopic (subs : Subscriptions) (topicPartitions : TopicPartitions) :
    SortedMap String (SortedSet String) :=
  subs.entries.foldl (fun subscribers entry =>
    entry.2.keys.foldl (fun subscribers topic =>
      if topicPartitions.contains topic then
        subscribers.insert topic
          (((subscribers.get? topic).getD SortedMap.empty).insert entry.1 ())
      else subscribers) subscribers) SortedMap.empty

/-- The partitions of all topics with a subscriber, the topics with the
fewest subscribers first. -/
def sortedPartitions (subscribers : SortedMap String (SortedSet String))
    (topicPartitions : TopicPartitions) : List TopicPartition :=
  let rarity := fun (tp : TopicPartition) =>
    ((subscribers.get? tp.topic).map (fun ids => ids.keys.length)).getD 0
  (subscribers.keys.flatMap (fun topic =>
    match topicPartitions.get? topic with
    | some count => partitionsOf topic count
    | none => [])).insertionSort
      (fun left right => toLex (rarity left, left) ≤ toLex (rarity right, right))

def leastLoaded (subscribed : SortedSet String) (assignment : Assignment) :
    Option (Nat × String) :=
  subscribed.keys.foldl (fun best id =>
    match best with
    | none => some (load assignment id, id)
    | some (bestLoad, bestId) =>
      if load assignment id < bestLoad then some (load assignment id, id)
      else some (bestLoad, bestId)) none

def pickLeastLoaded (subscribed : SortedSet String) (assignment : Assignment) : Option String :=
  (leastLoaded subscribed assignment).map Prod.snd

def chooseAssignmentOwner (tp : TopicPartition) (subscribed : SortedSet String)
    (prevOwner : SortedMap TopicPartition String) (assignment : Assignment) : Option String :=
  match leastLoaded subscribed assignment with
  | none => none
  | some (minLoad, _) =>
    match prevOwner.get? tp with
    | some prev =>
      if subscribed.contains prev then
        if load assignment prev ≤ minLoad then some prev
        else pickLeastLoaded subscribed assignment
      else pickLeastLoaded subscribed assignment
    | none => pickLeastLoaded subscribed assignment

/-- Place one partition on the general path. -/
def placePartition (subscribers : SortedMap String (SortedSet String))
    (prevOwner : SortedMap TopicPartition String) (assignment : Assignment)
    (tp : TopicPartition) : Assignment :=
  match subscribers.get? tp.topic with
  | none => assignment
  | some subscribed =>
    match chooseAssignmentOwner tp subscribed prevOwner assignment with
    | none => assignment
    | some chosen => assignment.push chosen tp

def USIZE_MAX : Nat := 18446744073709551615

/-- `saturating_mul`, then 16 more. -/
def maxBalanceIters (partitions members : Nat) : Nat := min (partitions * members) USIZE_MAX + 16

/-- The least loaded of the ids that hold at least two partitions less than
`ownerLoad`, then the lowest id. -/
def lighterTarget (assignment : Assignment) (ownerLoad : Nat) (subscribers : List String) :
    Option String :=
  (subscribers.filter (fun id => decide (ownerLoad > load assignment id + 1))).foldl
    (fun best id =>
      match best with
      | none => some id
      | some current =>
        if toLex (load assignment id, id) < toLex (load assignment current, current)
        then some id else some current) none

def balanceTarget (memberIds : List String) (subs : Subscriptions)
    (prevOwner : SortedMap TopicPartition String) (assignment : Assignment)
    (partition : TopicPartition) (owner : String) : Option String :=
  let ownerLoad := load assignment owner
  let subscribers := memberIds.filter (fun id =>
    ((subs.get? id).map (fun topics => topics.contains partition.topic)).getD false)
  if subscribers.length ≤ 1 then none
  else
    match prevOwner.get? partition with
    | some previous =>
      if previous ≠ owner ∧ previous ∈ subscribers ∧
          ownerLoad > load assignment previous + 1 then some previous
      else lighterTarget assignment ownerLoad subscribers
    | none => lighterTarget assignment ownerLoad subscribers

structure Balance where
  assignment : Assignment
  moves : Nat
  modified : Bool

/-- One pass over a list of partitions with their owners.  `false` in the
result says that the pass stopped at the bound on the moves. -/
def balancePass (memberIds : List String) (subs : Subscriptions)
    (prevOwner : SortedMap TopicPartition String) (maxIters : Nat) :
    Balance -> List (TopicPartition × String) -> Bool × Balance
  | state, [] => (true, state)
  | state, (partition, owner) :: rest =>
    if state.moves ≥ maxIters then (false, state)
    else
      match balanceTarget memberIds subs prevOwner state.assignment partition owner with
      | none => balancePass memberIds subs prevOwner maxIters state rest
      | some target =>
        balancePass memberIds subs prevOwner maxIters
          ⟨(state.assignment.erase owner partition).push target partition,
            state.moves + 1, true⟩ rest

/-- The partitions with their owners, in partition order. -/
def ownedPartitions (assignment : Assignment) : List (TopicPartition × String) :=
  (assignment.entries.flatMap (fun entry =>
    entry.2.map (fun tp => (tp, entry.1)))).insertionSort (fun left right =>
      toLex left ≤ toLex right)

/-- The passes of `balance_assignment`.  Every pass but the last one moves a
partition, so `fuel` bounds no run that has more fuel than moves left. -/
def balanceLoop (memberIds : List String) (subs : Subscriptions)
    (prevOwner : SortedMap TopicPartition String) (maxIters : Nat) :
    Nat -> Assignment -> Nat -> Assignment
  | 0, assignment, _ => assignment
  | fuel + 1, assignment, moves =>
    match balancePass memberIds subs prevOwner maxIters ⟨assignment, moves, false⟩
        (ownedPartitions assignment) with
    | (false, state) => state.assignment
    | (true, state) =>
      if state.modified then
        balanceLoop memberIds subs prevOwner maxIters fuel state.assignment state.moves
      else state.assignment

def balanceAssignment (memberIds : List String) (subs : Subscriptions)
    (prevOwner : SortedMap TopicPartition String) (assignment : Assignment) (maxIters : Nat) :
    Assignment :=
  balanceLoop memberIds subs prevOwner maxIters (maxIters + 1) assignment 0

def generalAssign (memberIds : List String) (subs : Subscriptions)
    (currentAssignment : Assignment) (topicPartitions : TopicPartitions) : Assignment :=
  let subscribers := subscribersPerTopic subs topicPartitions
  let partitions := sortedPartitions subscribers topicPartitions
  let prevOwner := previousOwners currentAssignment
  let placed := partitions.foldl (placePartition subscribers prevOwner)
    (Buckets.ofKeys memberIds)
  (balanceAssignment memberIds subs prevOwner placed
    (maxBalanceIters partitions.length memberIds.length)).mapValues sorted

/-! ## The two assignors -/

structure StickyAssignment where
  memberIds : List String
  previousOwner : SortedMap TopicPartition String
  rawAssignment : Assignment

def subscriptionsOf (members : List MemberInput) : Subscriptions :=
  SortedMap.ofList (members.map (fun member =>
    (member.id, SortedSet.ofValues member.subscribed)))

/-- Whether all members subscribe to the same topics. -/
def allEqual (subs : Subscriptions) : Bool :=
  match subs.entries with
  | [] => true
  | first :: rest => rest.all (fun entry => entry.2 = first.2)

def stickyAssignment (members : List MemberInput) (topicPartitions : TopicPartitions) :
    StickyAssignment :=
  let memberIds := sorted (members.map MemberInput.id)
  let subs := subscriptionsOf members
  let currentAssignment := prepopulateCurrentAssignments members subs topicPartitions
  let rawAssignment :=
    if allEqual subs then constrainedAssign memberIds subs currentAssignment topicPartitions
    else generalAssign memberIds subs currentAssignment topicPartitions
  ⟨memberIds, previousOwners currentAssignment, rawAssignment⟩

/-- The cooperative assignor: a partition that moves off a previous owner is
left out of this round. -/
def assign (members : List MemberInput) (topicPartitions : TopicPartitions) : Assignment :=
  if members.isEmpty then SortedMap.empty
  else
    let sticky := stickyAssignment members topicPartitions
    let adjusted := SortedMap.ofList (sticky.memberIds.map (fun id =>
      (id, (sticky.rawAssignment.bucket id).filter (fun tp =>
        match sticky.previousOwner.get? tp with
        | some prev => prev = id
        | none => true))))
    adjusted.mapValues sorted

/-- The eager assignor: a partition goes to its new owner at once. -/
def assignEager (members : List MemberInput) (topicPartitions : TopicPartitions) : Assignment :=
  if members.isEmpty then SortedMap.empty
  else
    let sticky := stickyAssignment members topicPartitions
    SortedMap.ofList (sticky.memberIds.map (fun id =>
      (id, sorted (sticky.rawAssignment.bucket id))))

end Assignor
end Krabka
