import Krabka.Collections.SortedMap
import Krabka.Transition
import Mathlib.Data.Prod.Lex

namespace Krabka
namespace Core
namespace Pool

open Collections (SortedMap)
open List

/-!
# The broker pool

`BrokerPool` at the granularity of its map and lock operations: the registry `by_endpoint`, the
map `nodes` with one entry per broker id, the state of each node behind its mutex, the gate that
lets one call at a time make a connection attempt, and the bootstrap list.  A call reads the
registry, takes its node from the map and uses the state of the node in separate steps, and so
does a refresh that changes the registry and then removes the node.

A node that was removed from the map lives on in the calls that hold it.  The name server and
the dialed brokers may answer anything; the backoff wait ends at any time.  `Source` says where
an address comes from, and `returned` is history: no function reads them.
-/

/-- Synthetic broker id under which the bootstrap connection is cached. -/
def BOOTSTRAP_ID : Int := -1

structure SocketAddr where
  ip : String
  port : Nat
deriving DecidableEq, Repr

structure Endpoint where
  host : String
  port : Nat
deriving DecidableEq, Repr

structure BrokerInfo where
  id : Int
  host : String
  port : Int
deriving DecidableEq, Repr

/-- Where an address comes from. -/
inductive Source where
  | resolved (endpoint : Endpoint)
  | bootstrap
deriving DecidableEq, Repr

/-- An address with its TLS server name. -/
structure Target where
  addr : SocketAddr
  serverName : String
  source : Source
deriving DecidableEq, Repr

/-- A connection, and the target that was dialed for it. -/
structure Conn where
  serial : Nat
  target : Target
deriving DecidableEq, Repr

/-! ## Nodes -/

structure NodeState where
  connection : Option Conn
  /-- The pool resolves the addresses again when the list is empty. -/
  addresses : List Target
  addressIndex : Nat
  lastAttempted : Option SocketAddr
deriving DecidableEq, Repr

namespace NodeState

def default : NodeState := ⟨none, [], 0, none⟩

def ready (state : NodeState) (connection : Conn) : NodeState :=
  { state with connection := some connection }

/-- An open connection closed. -/
def disconnected (state : NodeState) : NodeState :=
  { state with connection := none, addresses := [] }

/-- A connection attempt failed.  The host is resolved again after the last address. -/
def connectFailed (state : NodeState) : NodeState :=
  { state with
    addressIndex := state.addressIndex + 1
    addresses :=
      if state.addressIndex + 1 ≥ state.addresses.length then [] else state.addresses }

/-- Use `addresses`, and skip the first one when the last attempt used it. -/
def setAddresses (state : NodeState) (addresses : List Target) : NodeState :=
  { state with
    addressIndex :=
      if addresses.length > 1 ∧ addresses.head?.map Target.addr = state.lastAttempted then 1 else 0
    addresses := addresses }

def nextAttempt (state : NodeState) : Option (Target × NodeState) :=
  (state.addresses[state.addressIndex]?).map fun target =>
    (target, { state with lastAttempted := some target.addr })

def install (state : NodeState) (bootstrap : List Target) : NodeState :=
  { state with
    addressIndex := state.addressIndex % max bootstrap.length 1
    addresses := bootstrap }

/-- Go on to the next of `rounds` bootstrap addresses. -/
def rotate (state : NodeState) (rounds : Nat) : NodeState :=
  { state with addressIndex := (state.addressIndex + 1) % rounds }

/-- What a replacement of the bootstrap list does to the bootstrap node. -/
def replaced (state : NodeState) : NodeState :=
  { state with connection := none, addresses := [], addressIndex := 0 }

def targets (state : NodeState) : List Target :=
  state.addresses ++ state.connection.toList.map Conn.target

end NodeState

/-- A node: the entry of `nodes` for `id`, of which several may have lived. -/
structure NodeRef where
  id : Int
  serial : Nat
deriving DecidableEq, Repr

namespace NodeRef

def toPair (node : NodeRef) : Int ×ₗ Nat := toLex (node.id, node.serial)

theorem toPair_injective : Function.Injective toPair := by
  rintro ⟨leftId, leftSerial⟩ ⟨rightId, rightSerial⟩ same
  have parts := Prod.mk.inj (congrArg ofLex same)
  exact mk.injEq .. ▸ parts

instance linearOrder : LinearOrder NodeRef := LinearOrder.lift' toPair toPair_injective

end NodeRef

/-! ## Calls -/

inductive Request where
  | get (id : Int)
  | bootstrapConnection
deriving DecidableEq, Repr

def Request.id : Request -> Int
  | .get id => id
  | .bootstrapConnection => BOOTSTRAP_ID

inductive Stage where
  /-- `get` reads the registry. -/
  | lookup
  /-- The call takes its node from the map.  Only a `get` has an endpoint. -/
  | entry (endpoint : Option Endpoint)
  /-- It looks for a cached connection. -/
  | cached (endpoint : Option Endpoint) (node : Nat)
  | gate (endpoint : Option Endpoint) (node : Nat)
  /-- It holds the gate and looks again. -/
  | cachedAgain (endpoint : Option Endpoint) (node : Nat)
  | backoff (endpoint : Option Endpoint) (node : Nat)
  /-- `get` looks whether the node has addresses. -/
  | addresses (endpoint : Endpoint) (node : Nat)
  | resolving (endpoint : Endpoint) (node : Nat)
  | attempt (endpoint : Endpoint) (node : Nat)
  | dialing (node : Nat) (target : Target)
  /-- `connect_failed` is next, and then the error. -/
  | failing (node : Nat)
  /-- `bootstrap_connection` reads the list. -/
  | list (node : Nat)
  | install (node : Nat) (bootstrap : List Target)
  /-- The loop over the bootstrap addresses. -/
  | seedAttempt (node : Nat) (rounds left : Nat)
  | seedDialing (node : Nat) (rounds left : Nat) (target : Target)
  | seedRotate (node : Nat) (rounds left : Nat)
deriving DecidableEq, Repr

namespace Stage

/-- The node that the call holds. -/
def node? : Stage -> Option Nat
  | .lookup | .entry _ => none
  | .cached _ node | .gate _ node | .cachedAgain _ node | .backoff _ node | .addresses _ node
  | .resolving _ node | .attempt _ node | .dialing node _ | .failing node | .list node
  | .install node _ | .seedAttempt node _ _ | .seedDialing node _ _ _ | .seedRotate node _ _ =>
    some node

/-- The call holds the gate of its node. -/
def gated : Stage -> Bool
  | .lookup | .entry _ | .cached _ _ | .gate _ _ => false
  | _ => true

def source? : Stage -> Option Source
  | .entry endpoint | .cached endpoint _ | .gate endpoint _ | .cachedAgain endpoint _
  | .backoff endpoint _ => endpoint.map .resolved
  | .addresses endpoint _ | .resolving endpoint _ | .attempt endpoint _ =>
    some (.resolved endpoint)
  | .dialing _ target => some target.source
  | _ => none

end Stage

/-- The stage in which a call begins. -/
def Request.first : Request -> Stage
  | .get _ => .lookup
  | .bootstrapConnection => .entry none

structure Call where
  request : Request
  stage : Stage
deriving DecidableEq, Repr

inductive Refresh where
  | retainEndpoints (named : List Int) (shard : Nat) (brokers : List BrokerInfo)
  | retainNodes (named : List Int) (shard : Nat) (brokers : List BrokerInfo)
  | insert (brokers : List BrokerInfo)
  /-- The endpoint of `id` changed, and its node is removed next. -/
  | remove (id : Int) (brokers : List BrokerInfo)
deriving DecidableEq, Repr

inductive Replace where
  | write (bootstrap : List (SocketAddr × String))
  | clear
deriving DecidableEq, Repr

/-- The shards of the maps. -/
structure Shards where
  count : Nat
  of : Int -> Nat
  of_lt : forall id, of id < count

structure BrokerPool where
  nodes : SortedMap Int Nat
  states : SortedMap NodeRef NodeState
  byEndpoint : SortedMap Int Endpoint
  bootstrap : List (SocketAddr × String)
  /-- The connections that have closed. -/
  closed : List Nat
  calls : SortedMap Nat Call
  refreshes : SortedMap Nat Refresh
  replaces : SortedMap Nat Replace
  /-- The number of calls, refreshes and replacements that have begun. -/
  begun : Nat
  /-- The number of nodes that were made. -/
  made : Nat
  /-- The number of connections that were dialed. -/
  dialed : Nat
  /-- The calls that returned a connection. -/
  returned : List (Nat × Request × Conn)
deriving DecidableEq

namespace BrokerPool

def start (bootstrap : List (SocketAddr × String)) : BrokerPool where
  nodes := SortedMap.empty
  states := SortedMap.empty
  byEndpoint := SortedMap.empty
  bootstrap := bootstrap
  closed := []
  calls := SortedMap.empty
  refreshes := SortedMap.empty
  replaces := SortedMap.empty
  begun := 0
  made := 0
  dialed := 0
  returned := []

def stateOf (pool : BrokerPool) (node : NodeRef) : NodeState :=
  (pool.states.get? node).getD .default

def setState (pool : BrokerPool) (node : NodeRef) (state : NodeState) : BrokerPool :=
  { pool with states := pool.states.insert node state }

/-- `node`: the entry of the map, made when it is absent. -/
def makeNode (pool : BrokerPool) (id : Int) : BrokerPool × Nat :=
  match pool.nodes.get? id with
  | some node => (pool, node)
  | none =>
    ({ pool with
      nodes := pool.nodes.insert id pool.made
      states := pool.states.insert ⟨id, pool.made⟩ .default
      made := pool.made + 1 }, pool.made)

def moveTo (pool : BrokerPool) (number : Nat) (call : Call) (stage : Stage) : BrokerPool :=
  { pool with calls := pool.calls.insert number { call with stage := stage } }

/-- The call returns an error, or its caller drops it. -/
def leave (pool : BrokerPool) (number : Nat) : BrokerPool :=
  { pool with calls := pool.calls.erase number }

def giveBack (pool : BrokerPool) (number : Nat) (call : Call) (connection : Conn) : BrokerPool :=
  { pool with
    calls := pool.calls.erase number
    returned := (number, call.request, connection) :: pool.returned }

/-- The cached connection of the node when it is still open; a closed one counts as a
disconnect.  Without one, the call goes on to `stage`. -/
def lookCached (pool : BrokerPool) (number : Nat) (call : Call) (node : NodeRef) (stage : Stage) :
    BrokerPool :=
  let state := pool.stateOf node
  match state.connection with
  | none => pool.moveTo number call stage
  | some connection =>
    if connection.serial ∈ pool.closed then
      (pool.setState node state.disconnected).moveTo number call stage
    else pool.giveBack number call connection

def gateHeld (pool : BrokerPool) (node : NodeRef) : Bool :=
  pool.calls.entries.any fun entry =>
    entry.2.stage.gated ∧ entry.2.request.id = node.id ∧ entry.2.stage.node? = some node.serial

/-- The dialed connection is stored and returned. -/
def connect (pool : BrokerPool) (number : Nat) (call : Call) (node : NodeRef) (target : Target) :
    BrokerPool :=
  let connection : Conn := ⟨pool.dialed, target⟩
  { (pool.setState node ((pool.stateOf node).ready connection)).giveBack number call
      connection with
    dialed := pool.dialed + 1 }

end BrokerPool

/-! ## Steps -/

/-- What the network answers at the await point of a call. -/
inductive Answer where
  | none
  | resolved (addresses : List SocketAddr)
  | resolveFailed
  | dialed
  | dialFailed (authentication : Bool)
deriving DecidableEq, Repr

inductive Act where
  | begin (request : Request)
  | poll (number : Nat) (answer : Answer)
  | drop (number : Nat)
  /-- `least_loaded` looks at the node of `id`. -/
  | touch (id : Int)
  | evict (id : Int)
  /-- The connection closes. -/
  | disconnect (serial : Nat)
  | refreshBrokers (brokers : List BrokerInfo)
  | refreshStep (number : Nat)
  | replaceBootstrap (bootstrap : List (SocketAddr × String))
  | replaceStep (number : Nat)
deriving DecidableEq, Repr

/-- The port as a dialable `u16`. -/
def BrokerInfo.endpoint? (broker : BrokerInfo) : Option Endpoint :=
  if 0 < broker.port ∧ broker.port ≤ 65535 then some ⟨broker.host, broker.port.toNat⟩ else none

namespace BrokerPool

def seeds (bootstrap : List (SocketAddr × String)) : List Target :=
  bootstrap.map fun seed => ⟨seed.1, seed.2, .bootstrap⟩

def pollStep (pool : BrokerPool) (number : Nat) (call : Call) (answer : Answer) :
    Option BrokerPool :=
  let id := call.request.id
  match call.stage, answer with
  | .lookup, .none =>
    match pool.byEndpoint.get? id with
    | none => some (pool.leave number)
    | some endpoint => some (pool.moveTo number call (.entry (some endpoint)))
  | .entry endpoint, .none =>
    let made := pool.makeNode id
    some (made.1.moveTo number call (.cached endpoint made.2))
  | .cached endpoint node, .none =>
    some (pool.lookCached number call ⟨id, node⟩ (.gate endpoint node))
  | .gate endpoint node, .none =>
    if pool.gateHeld ⟨id, node⟩ then none
    else some (pool.moveTo number call (.cachedAgain endpoint node))
  | .cachedAgain endpoint node, .none =>
    some (pool.lookCached number call ⟨id, node⟩ (.backoff endpoint node))
  | .backoff (some endpoint) node, .none =>
    some (pool.moveTo number call (.addresses endpoint node))
  | .backoff none node, .none => some (pool.moveTo number call (.list node))
  | .addresses endpoint node, .none =>
    if (pool.stateOf ⟨id, node⟩).addresses = [] then
      some (pool.moveTo number call (.resolving endpoint node))
    else some (pool.moveTo number call (.attempt endpoint node))
  | .resolving endpoint node, .resolved addresses =>
    let targets := addresses.map fun addr => ⟨addr, endpoint.host, .resolved endpoint⟩
    some ((pool.setState ⟨id, node⟩ ((pool.stateOf ⟨id, node⟩).setAddresses targets)).moveTo
      number call (.attempt endpoint node))
  | .resolving _ node, .resolveFailed => some (pool.moveTo number call (.failing node))
  | .attempt _ node, .none =>
    match (pool.stateOf ⟨id, node⟩).nextAttempt with
    | none => some (pool.moveTo number call (.failing node))
    | some (target, state) =>
      some ((pool.setState ⟨id, node⟩ state).moveTo number call (.dialing node target))
  | .dialing node target, .dialed => some (pool.connect number call ⟨id, node⟩ target)
  | .dialing node _, .dialFailed _ => some (pool.moveTo number call (.failing node))
  | .failing node, .none =>
    some ((pool.setState ⟨id, node⟩ (pool.stateOf ⟨id, node⟩).connectFailed).leave number)
  | .list node, .none => some (pool.moveTo number call (.install node (seeds pool.bootstrap)))
  | .install node bootstrap, .none =>
    some ((pool.setState ⟨id, node⟩ ((pool.stateOf ⟨id, node⟩).install bootstrap)).moveTo number
      call (.seedAttempt node bootstrap.length bootstrap.length))
  | .seedAttempt _ _ 0, .none => some (pool.leave number)
  | .seedAttempt node rounds (left + 1), .none =>
    match (pool.stateOf ⟨id, node⟩).nextAttempt with
    | none => some (pool.leave number)
    | some (target, state) =>
      some ((pool.setState ⟨id, node⟩ state).moveTo number call
        (.seedDialing node rounds left target))
  | .seedDialing node _ _ target, .dialed => some (pool.connect number call ⟨id, node⟩ target)
  -- An authentication failure ends the loop.
  | .seedDialing node _ _ _, .dialFailed true => some (pool.moveTo number call (.failing node))
  | .seedDialing node rounds left _, .dialFailed false =>
    some (pool.moveTo number call (.seedRotate node rounds left))
  | .seedRotate node rounds left, .none =>
    some ((pool.setState ⟨id, node⟩ ((pool.stateOf ⟨id, node⟩).rotate rounds)).moveTo number call
      (.seedAttempt node rounds left))
  | _, _ => none

def refreshOne (shards : Shards) (pool : BrokerPool) (number : Nat) : Refresh -> BrokerPool
  | .retainEndpoints named shard brokers =>
    if shard < shards.count then
      { pool with
        byEndpoint := pool.byEndpoint.filter fun id _ => shards.of id ≠ shard ∨ id ∈ named
        refreshes := pool.refreshes.insert number (.retainEndpoints named (shard + 1) brokers) }
    else
      { pool with refreshes := pool.refreshes.insert number (.retainNodes named 0 brokers) }
  | .retainNodes named shard brokers =>
    if shard < shards.count then
      { pool with
        nodes := pool.nodes.filter fun id _ =>
          shards.of id ≠ shard ∨ id = BOOTSTRAP_ID ∨ id ∈ named
        refreshes := pool.refreshes.insert number (.retainNodes named (shard + 1) brokers) }
    else { pool with refreshes := pool.refreshes.insert number (.insert brokers) }
  | .insert [] => { pool with refreshes := pool.refreshes.erase number }
  | .insert (broker :: brokers) =>
    match broker.endpoint? with
    | none => { pool with refreshes := pool.refreshes.insert number (.insert brokers) }
    | some endpoint =>
      { pool with
        byEndpoint := pool.byEndpoint.insert broker.id endpoint
        refreshes := pool.refreshes.insert number
          (match pool.byEndpoint.get? broker.id with
          | none => .insert brokers
          | some previous =>
            if previous = endpoint then .insert brokers else .remove broker.id brokers) }
  | .remove id brokers =>
    { pool with
      nodes := pool.nodes.erase id
      refreshes := pool.refreshes.insert number (.insert brokers) }

def replaceOne (pool : BrokerPool) (number : Nat) : Replace -> BrokerPool
  | .write bootstrap =>
    { pool with bootstrap := bootstrap, replaces := pool.replaces.insert number .clear }
  | .clear =>
    let next := { pool with replaces := pool.replaces.erase number }
    match pool.nodes.get? BOOTSTRAP_ID with
    | none => next
    | some node =>
      next.setState ⟨BOOTSTRAP_ID, node⟩ (pool.stateOf ⟨BOOTSTRAP_ID, node⟩).replaced

/-- Drop the cached connection of `id`. -/
def evictNode (pool : BrokerPool) (id : Int) : BrokerPool :=
  match pool.nodes.get? id with
  | none => pool
  | some node =>
    let state := pool.stateOf ⟨id, node⟩
    if state.connection.isSome then pool.setState ⟨id, node⟩ state.disconnected else pool

def step (shards : Shards) (pool : BrokerPool) : Act -> Option BrokerPool
  | .begin request => some { pool with
      calls := pool.calls.insert pool.begun ⟨request, request.first⟩
      begun := pool.begun + 1 }
  | .poll number answer =>
    (pool.calls.get? number).bind fun call => pool.pollStep number call answer
  | .drop number => (pool.calls.get? number).map fun _ => pool.leave number
  | .touch id => some (pool.makeNode id).1
  | .evict id => some (pool.evictNode id)
  | .disconnect serial => some { pool with closed := serial :: pool.closed }
  | .refreshBrokers brokers => some { pool with
      refreshes := pool.refreshes.insert pool.begun
        (if brokers.isEmpty then .insert []
        else .retainEndpoints (brokers.map BrokerInfo.id) 0 brokers)
      begun := pool.begun + 1 }
  | .refreshStep number =>
    (pool.refreshes.get? number).map (pool.refreshOne shards number)
  | .replaceBootstrap bootstrap => some { pool with
      replaces := pool.replaces.insert pool.begun (.write bootstrap)
      begun := pool.begun + 1 }
  | .replaceStep number => (pool.replaces.get? number).map (pool.replaceOne number)

end BrokerPool

/-! ## What a poll does -/

namespace Stage

/-- The stage is one of `bootstrap_connection`. -/
def seeds : Stage -> Bool
  | .entry endpoint | .cached endpoint _ | .gate endpoint _ | .cachedAgain endpoint _
  | .backoff endpoint _ => endpoint.isNone
  | .list _ | .install _ _ | .seedAttempt _ _ _ | .seedDialing _ _ _ _ | .seedRotate _ _ _ => true
  | _ => false

/-- The call goes on with the same node and no new source. -/
structure Onward (before after : Stage) : Prop where
  node : after.node? = before.node?
  source : after.source? = none ∨ after.source? = before.source?
  seeds : after.seeds = true -> before.seeds = true
  lookup : after ≠ .lookup

/-- A failed attempt has no source and is of both calls. -/
theorem onward_failing {stage : Stage} {node : Nat} (holds : stage.node? = some node) :
    stage.Onward (.failing node) :=
  ⟨holds.symm, .inl rfl, nofun, nofun⟩

end Stage

inductive Poll (pool : BrokerPool) (number : Nat) (call : Call) : Answer -> BrokerPool -> Prop where
  | leave (answer : Answer) : Poll pool number call answer (pool.leave number)
  | found {endpoint : Endpoint} (lookup : call.stage = .lookup)
      (registered : pool.byEndpoint.get? call.request.id = some endpoint) :
      Poll pool number call .none (pool.moveTo number call (.entry (some endpoint)))
  | entry {endpoint : Option Endpoint} (enters : call.stage = .entry endpoint) :
      Poll pool number call .none
        ((pool.makeNode call.request.id).1.moveTo number call
          (.cached endpoint (pool.makeNode call.request.id).2))
  | returns {node : Nat} {connection : Conn} (holds : call.stage.node? = some node)
      (cached : (pool.stateOf ⟨call.request.id, node⟩).connection = some connection) :
      Poll pool number call .none (pool.giveBack number call connection)
  | move {answer : Answer} {node : Nat} {stage : Stage} (holds : call.stage.node? = some node)
      (onward : call.stage.Onward stage) :
      Poll pool number call answer (pool.moveTo number call stage)
  | change {answer : Answer} {node : Nat} {stage : Stage} {state : NodeState}
      (holds : call.stage.node? = some node) (onward : call.stage.Onward stage)
      (targets : forall target, target ∈ state.targets ->
        target ∈ (pool.stateOf ⟨call.request.id, node⟩).targets ∨
          call.stage.source? = some target.source) :
      Poll pool number call answer
        ((pool.setState ⟨call.request.id, node⟩ state).moveTo number call stage)
  | dial {node : Nat} {target : Target} {state : NodeState} {endpoint : Endpoint}
      (attempts : call.stage = .attempt endpoint node)
      (next : (pool.stateOf ⟨call.request.id, node⟩).nextAttempt = some (target, state)) :
      Poll pool number call .none
        ((pool.setState ⟨call.request.id, node⟩ state).moveTo number call (.dialing node target))
  | install {node : Nat} {bootstrap : List Target} (installs : call.stage = .install node bootstrap) :
      Poll pool number call .none
        ((pool.setState ⟨call.request.id, node⟩
          ((pool.stateOf ⟨call.request.id, node⟩).install bootstrap)).moveTo number call
            (.seedAttempt node bootstrap.length bootstrap.length))
  | fail {node : Nat} (holds : call.stage.node? = some node) :
      Poll pool number call .none
        ((pool.setState ⟨call.request.id, node⟩
          (pool.stateOf ⟨call.request.id, node⟩).connectFailed).leave number)
  | dialed {node : Nat} {target : Target} (dials : call.stage = .dialing node target) :
      Poll pool number call .dialed (pool.connect number call ⟨call.request.id, node⟩ target)
  | seedDialed {node rounds left : Nat} {target : Target}
      (dials : call.stage = .seedDialing node rounds left target) :
      Poll pool number call .dialed (pool.connect number call ⟨call.request.id, node⟩ target)

namespace NodeState

variable {state : NodeState} {target : Target}

theorem mem_targets_connectFailed
    (member : target ∈ state.connectFailed.targets) : target ∈ state.targets := by
  unfold targets connectFailed at member
  split at member
  · exact mem_append_right _ member
  · exact member

theorem mem_targets_nextAttempt {next : NodeState} {attempt : Target}
    (attempted : state.nextAttempt = some (attempt, next)) :
    attempt ∈ state.targets ∧ next.targets = state.targets := by
  rcases Option.map_eq_some_iff.mp attempted with ⟨target, found, same⟩
  have parts := Prod.mk.inj same
  rw [<- parts.1, <- parts.2]
  exact ⟨mem_append_left _ (mem_of_getElem? found), rfl⟩

theorem mem_targets_ready {connection : Conn} (member : target ∈ (state.ready connection).targets) :
    target ∈ state.targets ∨ target = connection.target := by
  rcases mem_append.mp member with address | connected
  · exact .inl (mem_append_left _ address)
  · exact .inr (mem_singleton.mp connected)

theorem mem_targets_of_connection {next : NodeState} (member : target ∈ next.targets)
    (same : next.connection = state.connection) : target ∈ state.targets ∨ target ∈ next.addresses := by
  rcases mem_append.mp member with address | connected
  · exact .inr address
  · exact .inl (mem_append_right _ (same ▸ connected))

end NodeState

namespace BrokerPool

variable {pool next : BrokerPool} {number : Nat} {call : Call}

theorem lookCached_inv {node : Nat} {stage : Stage} (holds : call.stage.node? = some node)
    (onward : call.stage.Onward stage) :
    Poll pool number call .none (pool.lookCached number call ⟨call.request.id, node⟩ stage) := by
  dsimp only [lookCached]
  split
  · exact .move holds onward
  · rename_i connection cached
    split
    · exact .change holds onward nofun
    · exact .returns holds cached

theorem pollStep_inv {answer : Answer} (polled : pool.pollStep number call answer = some next) :
    Poll pool number call answer next := by
  rcases call with ⟨request, stage⟩
  dsimp only [pollStep] at polled
  split at polled
  · split at polled <;> cases polled
    · exact .leave _
    · rename_i registered
      exact .found rfl registered
  · cases polled
    exact .entry rfl
  · cases polled
    exact lookCached_inv rfl ⟨rfl, .inr rfl, id, nofun⟩
  · split at polled <;> cases polled
    exact .move rfl ⟨rfl, .inr rfl, id, nofun⟩
  · cases polled
    exact lookCached_inv rfl ⟨rfl, .inr rfl, id, nofun⟩
  · cases polled
    exact .move rfl ⟨rfl, .inr rfl, nofun, nofun⟩
  · cases polled
    exact .move rfl ⟨rfl, .inr rfl, id, nofun⟩
  · split at polled
    all_goals
      cases polled
      exact .move rfl ⟨rfl, .inr rfl, nofun, nofun⟩
  · cases polled
    refine .change rfl ⟨rfl, .inr rfl, nofun, nofun⟩ fun target member => ?_
    refine (@NodeState.mem_targets_of_connection (pool.stateOf _) _ _ member rfl).imp_right
      fun resolved => ?_
    rcases mem_map.mp resolved with ⟨addr, _, same⟩
    rw [<- same]
    rfl
  · cases polled
    exact .move rfl (Stage.onward_failing rfl)
  · split at polled <;> cases polled
    · exact .move rfl (Stage.onward_failing rfl)
    · rename_i attempted
      exact .dial rfl attempted
  · cases polled
    exact .dialed rfl
  · cases polled
    exact .move rfl (Stage.onward_failing rfl)
  · cases polled
    exact .fail rfl
  · cases polled
    exact .move rfl ⟨rfl, .inl rfl, fun _ => rfl, nofun⟩
  · cases polled
    exact .install rfl
  · cases polled
    exact .leave _
  · split at polled <;> cases polled
    · exact .leave _
    · rename_i attempted
      refine .change rfl ⟨rfl, .inl rfl, fun _ => rfl, nofun⟩ fun other member => .inl ?_
      rw [(NodeState.mem_targets_nextAttempt attempted).2] at member
      exact member
  · cases polled
    exact .seedDialed rfl
  · cases polled
    exact .move rfl (Stage.onward_failing rfl)
  · cases polled
    exact .move rfl ⟨rfl, .inl rfl, fun _ => rfl, nofun⟩
  · cases polled
    exact .change rfl ⟨rfl, .inl rfl, fun _ => rfl, nofun⟩ fun target member => .inl member
  · cases polled

end BrokerPool

end Pool
end Core
end Krabka
