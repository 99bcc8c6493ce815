import Krabka.Core.Pool

namespace Krabka
namespace Core
namespace Pool

open Collections (SortedMap)
open Transition (run Along)
open List Collections.SortedMap Option

/-!
# The addresses that the pool serves

A refresh writes a new endpoint and then removes the node of the broker; a replacement of the
bootstrap list writes the list and then clears the bootstrap node.  A call that took its
endpoint, its list or its target before the change can still store a connection to an old
address after it, and the pool then serves that connection to later calls.

`Fresh` names the three steps at which this happens, and rules out a broker that has the id
of the bootstrap node.  In a run of fresh steps, each address in a node of the map comes from
the endpoint in the registry, or a refresh in progress is about to remove the node.
-/

/-! ## What is about to be removed -/

namespace Refresh

/-- The refresh will still remove the node of `id`. -/
def removes (shards : Shards) (id : Int) : Refresh -> Prop
  | .retainEndpoints named _ _ => id ≠ BOOTSTRAP_ID ∧ id ∉ named
  | .retainNodes named shard _ => id ≠ BOOTSTRAP_ID ∧ id ∉ named ∧ shard ≤ shards.of id
  | .insert _ => False
  | .remove changed _ => changed = id

instance (shards : Shards) (id : Int) (refresh : Refresh) :
    Decidable (refresh.removes shards id) := by
  cases refresh <;> unfold removes <;> infer_instance

def brokers : Refresh -> List BrokerInfo
  | .retainEndpoints _ _ brokers | .retainNodes _ _ brokers | .insert brokers
  | .remove _ brokers => brokers

end Refresh

namespace BrokerPool

/-- A refresh in progress will remove the node of `id`. -/
def Pending (shards : Shards) (pool : BrokerPool) (id : Int) : Prop :=
  Exists fun entry => entry ∈ pool.refreshes.entries ∧ entry.2.removes shards id
deriving Decidable

/-- A replacement in progress will clear the bootstrap node. -/
def Clearing (pool : BrokerPool) : Prop :=
  Exists fun entry => entry ∈ pool.replaces.entries ∧ entry.2 = .clear
deriving Decidable

def Registered (pool : BrokerPool) (id : Int) : Source -> Prop
  | .resolved endpoint => pool.byEndpoint.get? id = some endpoint
  | .bootstrap => False

instance (pool : BrokerPool) (id : Int) (source : Source) :
    Decidable (pool.Registered id source) := by
  cases source <;> unfold Registered <;> infer_instance

def Current (shards : Shards) (pool : BrokerPool) (id : Int) (source : Source) : Prop :=
  pool.Pending shards id ∨ pool.Registered id source
deriving Decidable

def Listed (pool : BrokerPool) (target : Target) : Prop :=
  (target.addr, target.serverName) ∈ pool.bootstrap
deriving Decidable

def Seeded (pool : BrokerPool) (target : Target) : Prop :=
  pool.Clearing ∨ pool.Listed target
deriving Decidable

/-- The node of `id` may hold the target. -/
def Right (shards : Shards) (pool : BrokerPool) (id : Int) (target : Target) : Prop :=
  (id ≠ BOOTSTRAP_ID -> pool.Current shards id target.source) ∧
    (id = BOOTSTRAP_ID -> pool.Seeded target)

/-- What the stage and the answer of a poll must have for it to store nothing old. -/
def FreshPoll (shards : Shards) (pool : BrokerPool) (id : Int) (answer : Answer) : Stage -> Prop
  -- The endpoint was read before the node is taken.
  | .entry (some endpoint) => pool.Current shards id (.resolved endpoint)
  -- The list was read before it is installed.
  | .install _ bootstrap => forall target, target ∈ bootstrap -> pool.Seeded target
  -- The target was taken before the dial.
  | .seedDialing _ _ _ target => answer = .dialed -> pool.Seeded target
  | _ => True

instance (shards : Shards) (pool : BrokerPool) (id : Int) (answer : Answer) (stage : Stage) :
    Decidable (pool.FreshPoll shards id answer stage) := by
  unfold FreshPoll
  split <;> infer_instance

/-- The act stores nothing old. -/
def Fresh (shards : Shards) (pool : BrokerPool) : Act -> Prop
  | .poll number answer => forall call, call ∈ pool.calls.get? number ->
      pool.FreshPoll shards call.request.id answer call.stage
  | .refreshBrokers brokers => BOOTSTRAP_ID ∉ brokers.map BrokerInfo.id
  | _ => True

instance (shards : Shards) (pool : BrokerPool) (act : Act) :
    Decidable (pool.Fresh shards act) := by
  cases act <;> unfold Fresh <;> infer_instance

end BrokerPool

/-! ## The invariant -/

structure Call.Fits (call : Call) : Prop where
  get : forall id, call.request = .get id ->
    call.stage.seeds = false ∧ (call.stage ≠ .lookup -> id ≠ BOOTSTRAP_ID)
  bootstrap : call.request = .bootstrapConnection ->
    call.stage.source? = none ∧ call.stage ≠ .lookup

def Goes (shards : Shards) (pool : BrokerPool) (call : Call) : Prop :=
  call.Fits ∧
    (forall node source, call.stage.node? = some node ->
      pool.nodes.get? call.request.id = some node -> call.stage.source? = some source ->
        pool.Current shards call.request.id source) ∧
    forall node, call.stage.node? = some node -> node < pool.made

structure Served (shards : Shards) (pool : BrokerPool) : Prop where
  nodes : pool.nodes.All fun id node => node < pool.made ∧
    forall target, target ∈ (pool.stateOf ⟨id, node⟩).targets -> pool.Right shards id target
  calls : pool.calls.All fun number call => number < pool.begun ∧ Goes shards pool call
  registry : pool.byEndpoint.get? BOOTSTRAP_ID = none
  refreshes : pool.refreshes.All fun number refresh => number < pool.begun ∧
    BOOTSTRAP_ID ∉ refresh.brokers.map BrokerInfo.id
  replaces : pool.replaces.All fun number _ => number < pool.begun
  returned : forall entry, entry ∈ pool.returned -> entry.1 < pool.begun

variable {stage : Stage} {source : Source}

namespace Call.Fits

variable {call : Call}

/-- A call with a source is a `get` past the lookup. -/
theorem id_ne_of_source (fits : call.Fits) (isSource : call.stage.source? = some source) :
    call.request.id ≠ BOOTSTRAP_ID := by
  have past : call.stage ≠ .lookup := by
    intro lookup
    rw [lookup] at isSource
    cases isSource
  cases isRequest : call.request with
  | get id => exact (fits.get id isRequest).2 past
  | bootstrapConnection =>
    rw [(fits.bootstrap isRequest).1] at isSource
    cases isSource

theorem request_of_seeds (fits : call.Fits) (seeds : call.stage.seeds = true) :
    call.request = .bootstrapConnection := by
  cases isRequest : call.request with
  | get id =>
    rw [(fits.get id isRequest).1] at seeds
    cases seeds
  | bootstrapConnection => rfl

theorem onward {stage : Stage} {node : Nat} (fits : call.Fits)
    (holds : call.stage.node? = some node) (onward : call.stage.Onward stage) :
    Call.Fits { call with stage := stage } := by
  have past : call.stage ≠ .lookup := by
    intro lookup
    rw [lookup] at holds
    cases holds
  refine ⟨fun id isRequest => ⟨?_, fun _ => (fits.get id isRequest).2 past⟩,
    fun isRequest => ⟨?_, onward.lookup⟩⟩
  · cases seeds : stage.seeds with
    | false => rfl
    | true =>
      have before := onward.seeds seeds
      rw [(fits.get id isRequest).1] at before
      cases before
  · rcases onward.source with none | same
    · exact none
    · exact same.trans (fits.bootstrap isRequest).1

/-- A new stage of a `get` that has a source. -/
theorem of_source (fits : call.Fits) (isSource : call.stage.source? = some source)
    (seeds : stage.seeds = false) :
    Call.Fits { call with stage := stage } := by
  have different := fits.id_ne_of_source isSource
  refine ⟨fun id isRequest => ⟨seeds, fun _ same => ?_⟩, fun isRequest => ?_⟩
  · rw [isRequest] at different
    exact different same
  · rw [isRequest] at different
    exact absurd rfl different

end Call.Fits

variable {number : Nat} {call : Call} {node : NodeRef} {target : Target}

namespace BrokerPool

variable {shards : Shards} {pool next : BrokerPool}

/-! ## Updates -/

theorem stateOf_setState_self (pool : BrokerPool) (node : NodeRef) (state : NodeState) :
    (pool.setState node state).stateOf node = state := by
  unfold stateOf setState
  rw [get?_insert_self]
  rfl

theorem stateOf_setState_of_ne (pool : BrokerPool) {other : NodeRef} (state : NodeState)
    (different : other ≠ node) : (pool.setState node state).stateOf other = pool.stateOf other := by
  unfold stateOf setState
  rw [get?_insert_of_ne _ _ different]

section

variable (served : Served shards pool)

include served

theorem served_setState {state : NodeState} (right : pool.nodes.get? node.id = some node.serial ->
      forall target, target ∈ state.targets -> pool.Right shards node.id target) :
    Served shards (pool.setState node state) := by
  refine { served with nodes := fun id serial found => ?_ }
  refine ⟨(served.nodes id serial found).1, fun target member => ?_⟩
  by_cases same : (⟨id, serial⟩ : NodeRef) = node
  · subst same
    rw [stateOf_setState_self] at member
    exact right found target member
  · rw [stateOf_setState_of_ne _ _ same] at member
    exact (served.nodes id serial found).2 target member

theorem served_moveTo (begun : number < pool.begun)
    (goes : Goes shards pool { call with stage := stage }) :
    Served shards (pool.moveTo number call stage) :=
  { served with calls := served.calls.insert ⟨begun, goes⟩ }

theorem served_leave :
    Served shards (pool.leave number) :=
  { served with calls := served.calls.filter }

omit served in
theorem served_giveBack {number : Nat} {call : Call} {connection : Conn}
    (served : Served shards pool) (begun : number < pool.begun) :
    Served shards (pool.giveBack number call connection) :=
  { served with
    calls := served.calls.filter
    returned := forall_mem_cons.mpr ⟨begun, served.returned⟩ }

theorem served_connect (begun : number < pool.begun)
    (right : pool.nodes.get? node.id = some node.serial -> pool.Right shards node.id target) :
    Served shards (pool.connect number call node target) := by
  have stored : Served shards
      (pool.setState node ((pool.stateOf node).ready ⟨pool.dialed, target⟩)) := by
    refine served_setState served fun found other member => ?_
    rcases NodeState.mem_targets_ready member with older | rfl
    · exact (served.nodes node.id node.serial found).2 other older
    · exact right found
  have given := @served_giveBack shards _ number call ⟨pool.dialed, target⟩ stored begun
  exact { given with nodes := given.nodes }

end

theorem served_makeNode (served : Served shards pool) (id : Int) :
    Served shards (pool.makeNode id).1 := by
  unfold makeNode
  split
  · exact served
  · refine { served with nodes := SortedMap.All.insert ?_ ?_, calls := ?_ }
    · refine served.nodes.imp fun other node ⟨older, right⟩ => ⟨Nat.lt_succ_of_lt older, ?_⟩
      have different : (⟨other, node⟩ : NodeRef) ≠ ⟨id, pool.made⟩ :=
        fun equal => Nat.ne_of_lt older (congrArg NodeRef.serial equal)
      have kept := stateOf_setState_of_ne pool .default different
      exact fun target member => right target (kept ▸ member)
    · refine ⟨Nat.lt_succ_self _, fun target member => ?_⟩
      have fresh := stateOf_setState_self pool ⟨id, pool.made⟩ .default
      exact absurd (fresh ▸ member) not_mem_nil
    · refine served.calls.imp fun number call ⟨begun, fits, source, made⟩ =>
        ⟨begun, fits, ?_, fun node holds => Nat.lt_succ_of_lt (made node holds)⟩
      intro node isSource holds mapped
      rw [get?_insert] at mapped
      split_ifs at mapped with same
      · -- No call holds the new node.
        exact absurd (made node holds) (some.inj mapped ▸ lt_irrefl _)
      · exact source node isSource holds mapped

/-- The node that was taken is in the map. -/
theorem makeNode_spec (pool : BrokerPool) (id : Int) :
    (pool.makeNode id).1.nodes.get? id = some (pool.makeNode id).2 ∧
      (forall other node, pool.nodes.get? other = some node ->
        (pool.makeNode id).1.nodes.get? other = some node) ∧
      (pool.makeNode id).1.begun = pool.begun := by
  cases known : pool.nodes.get? id with
  | some node =>
    simp only [makeNode, known]
    exact ⟨trivial, fun _ _ found => found, trivial⟩
  | none =>
    simp only [makeNode, known]
    refine ⟨get?_insert_self _ _ _, fun other node found => ?_, trivial⟩
    have different : other ≠ id := by
      intro same
      rw [same, known] at found
      cases found
    exact (get?_insert_of_ne _ _ different).trans found

variable {id : Int}

theorem current_makeNode {other : Int} (current : pool.Current shards id source) :
    (pool.makeNode other).1.Current shards id source := by
  unfold makeNode
  split <;> exact current

/-! ## Polls -/

section

variable {node : Nat} (goes : Goes shards pool call) (holds : call.stage.node? = some node)

include goes holds

theorem goes_onward (onward : call.stage.Onward stage) :
    Goes shards pool { call with stage := stage } := by
  rcases goes with ⟨fits, source, made⟩
  refine ⟨fits.onward holds onward, fun other isSource held mapped sourced => ?_,
    fun other held => made other (onward.node.symm.trans held)⟩
  rcases onward.source with none | same
  · cases sourced.symm.trans none
  · exact source other isSource (onward.node.symm.trans held) mapped (same.symm.trans sourced)

theorem goes_right (mapped : pool.nodes.get? call.request.id = some node)
    (sourced : call.stage.source? = some target.source) :
    pool.Right shards call.request.id target :=
  ⟨fun _ => goes.2.1 node _ holds mapped sourced,
    fun same => absurd same (goes.1.id_ne_of_source sourced)⟩

end

/-- The target that `bootstrap_connection` dials. -/
theorem seeds_right (fits : call.Fits) (seeds : call.stage.seeds = true)
    (seeded : pool.Seeded target) :
    pool.Right shards call.request.id target := by
  refine ⟨fun different => ?_, fun _ => seeded⟩
  rw [fits.request_of_seeds seeds] at different
  exact absurd rfl different

theorem poll_served {answer : Answer} (served : Served shards pool)
    (found : pool.calls.get? number = some call)
    (fresh : pool.FreshPoll shards call.request.id answer call.stage)
    (polled : Poll pool number call answer next) : Served shards next := by
  rcases served.calls number call found with ⟨begun, goes⟩
  have older {node : Nat} (mapped : pool.nodes.get? call.request.id = some node) :=
    (served.nodes _ _ mapped).2
  cases polled with
  | leave => exact served_leave served
  | @found endpoint lookup registered =>
    refine served_moveTo served begun ⟨⟨fun id isRequest => ⟨rfl, fun _ same => ?_⟩,
      fun isRequest => ?_⟩, nofun, nofun⟩
    · rw [isRequest, same] at registered
      cases registered.symm.trans served.registry
    · exact absurd lookup (goes.1.bootstrap isRequest).2
  | @entry endpoint enters =>
    have spec := makeNode_spec pool call.request.id
    refine served_moveTo (served_makeNode served _) (spec.2.2 ▸ begun) ⟨?_, ?_, ?_⟩
    · refine ⟨fun id isRequest => ?_, fun isRequest => ?_⟩
      · have before := goes.1.get id isRequest
        rw [enters] at before
        exact ⟨before.1, fun _ => before.2 nofun⟩
      · have before := (goes.1.bootstrap isRequest).1
        rw [enters] at before
        exact ⟨before, nofun⟩
    · intro node source holds mapped isSource
      rcases map_eq_some_iff.mp isSource with ⟨known, isKnown, isResolved⟩
      rw [enters, isKnown] at fresh
      rw [<- isResolved]
      exact current_makeNode fresh
    · intro node holds
      cases holds
      exact ((served_makeNode served _).nodes _ _ spec.1).1
  | @returns node connection holds cached => exact served_giveBack served begun
  | @move answer node stage holds onward =>
    exact served_moveTo served begun (goes_onward goes holds onward)
  | @change answer node stage state holds onward targets =>
    have stored : Served shards (pool.setState ⟨call.request.id, node⟩ state) :=
      served_setState served fun mapped target member => (targets target member).elim
        (older mapped target) (goes_right goes holds mapped)
    exact served_moveTo stored begun (goes_onward goes holds onward)
  | @dial node target state endpoint attempts attempted =>
    have spec := NodeState.mem_targets_nextAttempt attempted
    have holds : call.stage.node? = some node := by rw [attempts]; rfl
    have isSource : call.stage.source? = some (.resolved endpoint) := by rw [attempts]; rfl
    have stored : Served shards (pool.setState ⟨call.request.id, node⟩ state) :=
      served_setState served fun mapped other member => older mapped other (spec.2 ▸ member)
    refine served_moveTo stored begun ⟨goes.1.of_source isSource rfl, ?_,
      fun other held => goes.2.2 other (holds.trans held)⟩
    intro other source held mapped isTarget
    cases held
    cases isTarget
    exact (older mapped target spec.1).1 (goes.1.id_ne_of_source isSource)
  | @install node bootstrap installs =>
    have seeds : call.stage.seeds = true := by rw [installs]; rfl
    have holds : call.stage.node? = some node := by rw [installs]; rfl
    rw [installs] at fresh
    have stored : Served shards (pool.setState ⟨call.request.id, node⟩
        ((pool.stateOf ⟨call.request.id, node⟩).install bootstrap)) :=
      served_setState served fun mapped target member =>
        (@NodeState.mem_targets_of_connection (pool.stateOf _) _ _ member rfl).elim (older mapped target)
          fun listed => seeds_right goes.1 seeds (fresh target listed)
    refine served_moveTo stored begun ⟨⟨fun id isGet => ?_, fun _ => ⟨rfl, nofun⟩⟩, nofun,
        fun other held => goes.2.2 other (holds.trans held)⟩
    exact absurd (isGet.symm.trans (goes.1.request_of_seeds seeds)) nofun
  | @fail node holds =>
    exact served_leave (served_setState served fun mapped target member =>
      older mapped target (NodeState.mem_targets_connectFailed member))
  | @dialed node target dials =>
    exact served_connect served begun fun mapped =>
      goes_right goes (by rw [dials]; rfl) mapped (by rw [dials]; rfl)
  | @seedDialed node rounds left target dials =>
    refine served_connect served begun fun mapped => seeds_right goes.1 (by rw [dials]; rfl) ?_
    rw [dials] at fresh
    exact fresh rfl

/-! ## Refreshes -/

theorem pending_iff : pool.Pending shards id <-> Exists fun number =>
    Exists fun refresh => pool.refreshes.get? number = some refresh ∧ refresh.removes shards id := by
  constructor
  · rintro ⟨⟨number, refresh⟩, member, removes⟩
    exact ⟨number, refresh, (mem_entries_iff _ _ _).mp member, removes⟩
  · rintro ⟨number, refresh, found, removes⟩
    exact ⟨(number, refresh), (mem_entries_iff _ _ _).mpr found, removes⟩

variable {refresh : Refresh}

section

variable (found : pool.refreshes.get? number = some refresh)

include found

/-- A refresh goes on, and what it was about to remove it is still about to remove. -/
theorem pending_insert {later : Refresh}
    (goesOn : next.refreshes = pool.refreshes.insert number later)
    (kept : refresh.removes shards id -> later.removes shards id) (pending : pool.Pending shards id) :
    next.Pending shards id := by
  rcases pending_iff.mp pending with ⟨other, removing, isOther, removes⟩
  refine pending_iff.mpr ?_
  by_cases same : other = number
  · subst same
    rw [found] at isOther
    have equal := some.inj isOther
    subst equal
    exact ⟨other, later, by rw [goesOn, get?_insert_self], kept removes⟩
  · exact ⟨other, removing, by rw [goesOn, get?_insert_of_ne _ _ same, isOther], removes⟩

theorem pending_erase (ends : next.refreshes = pool.refreshes.erase number)
    (idle : ¬ refresh.removes shards id) (pending : pool.Pending shards id) :
    next.Pending shards id := by
  rcases pending_iff.mp pending with ⟨other, removing, isOther, removes⟩
  refine pending_iff.mpr ⟨other, removing, ?_, removes⟩
  have different : other ≠ number := by
    intro same
    rw [same, found] at isOther
    exact idle (some.inj isOther ▸ removes)
  rw [ends, get?_erase, if_neg different, isOther]

end

/-- A step of a refresh removes nodes, adds endpoints of its brokers, and goes on or ends. -/
theorem refreshOne_inv (shards : Shards) (pool : BrokerPool) (number : Nat) (refresh : Refresh) :
    Exists fun nodes => Exists fun byEndpoint => Exists fun refreshes =>
      pool.refreshOne shards number refresh =
          { pool with nodes := nodes, byEndpoint := byEndpoint, refreshes := refreshes } ∧
        (nodes.All fun id node => pool.nodes.get? id = some node) ∧
        (byEndpoint.All fun id endpoint => pool.byEndpoint.get? id = some endpoint ∨
          id ∈ refresh.brokers.map BrokerInfo.id) ∧
        (refreshes = pool.refreshes.erase number ∨ Exists fun later =>
          refreshes = pool.refreshes.insert number later ∧ later.brokers <:+ refresh.brokers) := by
  have same : pool.nodes.All fun id node => pool.nodes.get? id = some node := fun _ _ => id
  have known : pool.byEndpoint.All fun id endpoint => pool.byEndpoint.get? id = some endpoint ∨
      id ∈ refresh.brokers.map BrokerInfo.id := fun _ _ found => .inl found
  cases refresh with
  | retainEndpoints named shard brokers =>
    dsimp only [refreshOne]
    split
    · exact ⟨_, _, _, rfl, same, known.filter, .inr ⟨_, rfl, suffix_refl _⟩⟩
    · exact ⟨_, _, _, rfl, same, known, .inr ⟨_, rfl, suffix_refl _⟩⟩
  | retainNodes named shard brokers =>
    dsimp only [refreshOne]
    split
    · exact ⟨_, _, _, rfl, same.filter, known, .inr ⟨_, rfl, suffix_refl _⟩⟩
    · exact ⟨_, _, _, rfl, same, known, .inr ⟨_, rfl, suffix_refl _⟩⟩
  | insert brokers =>
    cases brokers with
    | nil => exact ⟨_, _, _, rfl, same, known, .inl rfl⟩
    | cons broker brokers =>
      dsimp only [refreshOne]
      split
      · exact ⟨_, _, _, rfl, same, known, .inr ⟨_, rfl, suffix_cons _ _⟩⟩
      · refine ⟨_, _, _, rfl, same, known.insert (.inr (.head _)), .inr ⟨_, rfl, ?_⟩⟩
        split
        · exact suffix_cons _ _
        · split
          · exact suffix_cons _ _
          · exact suffix_cons _ _
  | remove id brokers =>
    exact ⟨_, _, _, rfl, same.filter, known, .inr ⟨_, rfl, suffix_refl _⟩⟩

/-- As long as the node of `id` stays, a current source stays current: the refresh writes
the new endpoint, and from then on it is about to remove the node. -/
theorem refreshOne_current {number : Nat} {refresh : Refresh} {id : Int} {node : Nat}
    {source : Source} (found : pool.refreshes.get? number = some refresh)
    (different : id ≠ BOOTSTRAP_ID)
    (mapped : (pool.refreshOne shards number refresh).nodes.get? id = some node)
    (current : pool.Current shards id source) :
    (pool.refreshOne shards number refresh).Current shards id source := by
  cases refresh with
  | retainEndpoints named shard brokers =>
    dsimp only [refreshOne] at mapped ⊢
    split at mapped
    · rename_i inside
      rw [if_pos inside]
      rcases current with pending | registered
      · exact .inl (pending_insert found rfl (fun removes => removes) pending)
      · cases source with
        | bootstrap => exact registered.elim
        | resolved endpoint =>
          by_cases named : id ∈ named
          · refine .inr ?_
            change (pool.byEndpoint.filter _).get? id = _
            rw [get?_filter, filter_eq_some_iff]
            exact ⟨registered, decide_eq_true (.inr named)⟩
          · exact .inl (pending_iff.mpr ⟨number, _, get?_insert_self _ _ _, different, named⟩)
    · rename_i outside
      rw [if_neg outside]
      exact current.imp_left (pending_insert found rfl fun removes =>
        ⟨removes.1, removes.2, Nat.zero_le _⟩)
  | retainNodes named shard brokers =>
    dsimp only [refreshOne] at mapped ⊢
    split at mapped
    · rename_i inside
      rw [if_pos inside]
      refine current.imp_left (pending_insert found rfl fun removes =>
        ⟨removes.1, removes.2.1, ?_⟩)
      -- The node would be gone if its shard were the one that was just swept.
      rw [get?_filter, filter_eq_some_iff] at mapped
      rcases of_decide_eq_true mapped.2 with other | isBootstrap | isNamed
      · exact lt_of_le_of_ne removes.2.2 (Ne.symm other)
      · exact absurd isBootstrap different
      · exact absurd isNamed removes.2.1
    · rename_i outside
      rw [if_neg outside]
      refine current.imp_left (pending_insert found rfl fun removes => ?_)
      exact outside (lt_of_le_of_lt removes.2.2 (shards.of_lt id))
  | insert brokers =>
    cases brokers with
    | nil => exact current.imp_left (pending_erase found rfl fun removes => removes)
    | cons broker brokers =>
      dsimp only [refreshOne]
      split
      · exact current.imp_left (pending_insert found rfl fun removes => removes)
      · rename_i endpoint isEndpoint
        rcases current with pending | registered
        · exact .inl (pending_insert found rfl (fun removes => removes.elim) pending)
        · cases source with
          | bootstrap => exact registered.elim
          | resolved previous =>
            by_cases same : id = broker.id
            · rw [same] at registered ⊢
              by_cases unchanged : previous = endpoint
              · refine .inr ?_
                rw [unchanged]
                exact get?_insert_self _ _ _
              · refine .inl (pending_iff.mpr ⟨number, _, get?_insert_self _ _ _, ?_⟩)
                rw [registered]
                dsimp only
                rw [if_neg unchanged]
                rfl
            · exact .inr ((get?_insert_of_ne _ _ same).trans registered)
  | remove changed brokers =>
    refine current.imp_left (pending_insert found rfl fun removes => ?_)
    change (pool.nodes.erase changed).get? id = _ at mapped
    rw [get?_erase, if_pos removes.symm] at mapped
    cases mapped

theorem refreshOne_served (served : Served shards pool)
    (found : pool.refreshes.get? number = some refresh) :
    Served shards (pool.refreshOne shards number refresh) := by
  have goesOn {id : Int} {node : Nat} {source : Source} :=
    @refreshOne_current shards pool number refresh id node source found
  rcases refreshOne_inv shards pool number refresh with
    ⟨nodes, byEndpoint, refreshes, isNext, kept, known, later⟩
  rw [isNext] at goesOn ⊢
  rcases served.refreshes number refresh found with ⟨begun, unnamed⟩
  refine { served with
    nodes := fun id node mapped => ?_, calls := ?_, registry := ?_, refreshes := ?_ }
  · rcases served.nodes id node (kept id node mapped) with ⟨made, right⟩
    exact ⟨made, fun target member => ⟨fun different =>
      goesOn different mapped ((right target member).1 different), (right target member).2⟩⟩
  · refine served.calls.imp fun other call ⟨isBegun, fits, source, made⟩ =>
      ⟨isBegun, fits, fun node isSource holds mapped sourced => ?_, made⟩
    exact goesOn (fits.id_ne_of_source sourced) mapped
      (source node isSource holds (kept _ _ mapped) sourced)
  · cases registered : byEndpoint.get? BOOTSTRAP_ID with
    | none => rfl
    | some endpoint =>
      rcases known _ _ registered with older | named
      · cases older.symm.trans served.registry
      · exact absurd named unnamed
  · rcases later with rfl | ⟨goingOn, rfl, rest⟩
    · exact served.refreshes.filter
    · exact served.refreshes.insert
        ⟨begun, fun member => unnamed ((rest.map BrokerInfo.id).subset member)⟩

/-! ## Replacements -/

theorem clearing_iff : pool.Clearing <->
    Exists fun number => pool.replaces.get? number = some .clear := by
  constructor
  · rintro ⟨⟨number, replace⟩, member, same⟩
    exact ⟨number, same ▸ (mem_entries_iff _ _ _).mp member⟩
  · rintro ⟨number, found⟩
    exact ⟨(number, .clear), (mem_entries_iff _ _ _).mpr found, rfl⟩

theorem replaceOne_served {replace : Replace} (served : Served shards pool)
    (found : pool.replaces.get? number = some replace) :
    Served shards (pool.replaceOne number replace) := by
  cases replace with
  | write bootstrap =>
    refine { served with
      nodes := ?_, replaces := served.replaces.insert (served.replaces number _ found) }
    -- From here on the bootstrap node is about to be cleared.
    exact served.nodes.imp fun id node ⟨made, right⟩ =>
      ⟨made, fun target member => ⟨(right target member).1, fun _ => .inl
        (clearing_iff.mpr ⟨number, get?_insert_self _ _ _⟩)⟩⟩
  | clear =>
    dsimp only [replaceOne]
    split
    · rename_i absent
      refine { served with nodes := fun id node mapped => ?_, replaces := served.replaces.filter }
      rcases served.nodes id node mapped with ⟨made, right⟩
      refine ⟨made, fun target member => ⟨(right target member).1, fun same => ?_⟩⟩
      subst same
      cases absent.symm.trans mapped
    · rename_i cleared isCleared
      refine { served with nodes := fun id node mapped => ?_, replaces := served.replaces.filter }
      rcases served.nodes id node mapped with ⟨made, right⟩
      refine ⟨made, fun target member => ?_⟩
      by_cases same : id = BOOTSTRAP_ID
      · subst same
        cases isCleared.symm.trans mapped
        rw [stateOf_setState_self] at member
        cases member
      · have different : (⟨id, node⟩ : NodeRef) ≠ ⟨BOOTSTRAP_ID, cleared⟩ :=
          fun equal => same (congrArg NodeRef.id equal)
        rw [stateOf_setState_of_ne _ _ different] at member
        exact ⟨(right target member).1, fun isBootstrap => absurd isBootstrap same⟩

/-! ## Steps and runs -/

theorem evictNode_served (served : Served shards pool) (id : Int) :
    Served shards (pool.evictNode id) := by
  unfold evictNode
  split
  · exact served
  · dsimp only
    split
    · exact served_setState served nofun
    · exact served

theorem begin_fits (request : Request) : Call.Fits ⟨request, request.first⟩ := by
  cases request with
  | get id => exact ⟨fun _ _ => ⟨rfl, fun past => absurd rfl past⟩, nofun⟩
  | bootstrapConnection => exact ⟨nofun, fun _ => ⟨rfl, nofun⟩⟩

theorem begin_node (request : Request) : request.first.node? = none := by
  cases request with
  | get | bootstrapConnection => rfl

/-- A number that is in use is not the next one. -/
theorem ne_begun {Value : Type} {map : SortedMap Nat Value} {value : Value}
    (used : map.All fun number _ => number < pool.begun) (found : map.get? number = some value) :
    number ≠ pool.begun :=
  Nat.ne_of_lt (used number value found)

theorem step_served {act : Act} (served : Served shards pool) (fresh : pool.Fresh shards act)
    (stepped : pool.step shards act = some next) : Served shards next := by
  have calls := served.calls.imp fun number call ⟨begun, goes⟩ =>
    And.intro (Nat.lt_succ_of_lt begun) goes
  have refreshes := served.refreshes.imp fun number refresh ⟨begun, unnamed⟩ =>
    And.intro (Nat.lt_succ_of_lt begun) unnamed
  have replaces := served.replaces.imp fun number _ begun => Nat.lt_succ_of_lt begun
  have returned := fun entry member => Nat.lt_succ_of_lt (served.returned entry member)
  cases act with
  | begin request =>
    cases stepped
    have node := begin_node request
    refine { served with
      calls := calls.insert ⟨Nat.lt_succ_self _, begin_fits request, fun _ _ holds => ?_,
        fun _ holds => ?_⟩
      refreshes := refreshes, replaces := replaces, returned := returned }
    · cases node.symm.trans holds
    · cases node.symm.trans holds
  | poll number answer =>
    rcases bind_eq_some_iff.mp stepped with ⟨call, found, polled⟩
    exact poll_served served found (fresh call found) (pollStep_inv polled)
  | drop number =>
    rcases map_eq_some_iff.mp stepped with ⟨call, found, rfl⟩
    exact served_leave served
  | touch id =>
    cases stepped
    exact served_makeNode served id
  | evict id =>
    cases stepped
    exact evictNode_served served id
  | disconnect serial =>
    cases stepped
    exact { served with nodes := served.nodes }
  | refreshBrokers brokers =>
    cases stepped
    have kept {id : Int} {source : Source} (current : pool.Current shards id source) :
        Current shards { pool with
          refreshes := pool.refreshes.insert pool.begun (if brokers.isEmpty then .insert []
            else .retainEndpoints (brokers.map BrokerInfo.id) 0 brokers)
          begun := pool.begun + 1 } id source := by
      refine current.imp_left fun pending => ?_
      rcases pending_iff.mp pending with ⟨number, refresh, found, removes⟩
      have different := ne_begun (served.refreshes.imp fun _ _ both => both.1) found
      exact pending_iff.mpr ⟨number, refresh,
        (get?_insert_of_ne _ _ different).trans found, removes⟩
    refine { served with
      nodes := served.nodes.imp fun id node ⟨made, right⟩ => ⟨made, fun target member => ?_⟩
      calls := calls.imp fun number call ⟨begun, fits, source, made⟩ =>
        ⟨begun, fits, fun node isSource holds mapped sourced =>
          kept (source node isSource holds mapped sourced), made⟩
      refreshes := refreshes.insert ⟨Nat.lt_succ_self _, ?_⟩
      replaces := replaces, returned := returned }
    · exact ⟨fun different => kept ((right target member).1 different), (right target member).2⟩
    · split
      · exact not_mem_nil
      · exact fresh
  | refreshStep number =>
    rcases map_eq_some_iff.mp stepped with ⟨refresh, found, rfl⟩
    exact refreshOne_served served found
  | replaceBootstrap bootstrap =>
    cases stepped
    refine { served with
      nodes := served.nodes.imp fun id node ⟨made, right⟩ => ⟨made, fun target member => ?_⟩
      calls := calls, refreshes := refreshes
      replaces := replaces.insert (Nat.lt_succ_self _), returned := returned }
    refine ⟨(right target member).1, fun same => ((right target member).2 same).imp_left ?_⟩
    intro clearing
    rcases clearing_iff.mp clearing with ⟨number, found⟩
    exact clearing_iff.mpr ⟨number,
      (get?_insert_of_ne _ _ (ne_begun served.replaces found)).trans found⟩
  | replaceStep number =>
    rcases map_eq_some_iff.mp stepped with ⟨replace, found, rfl⟩
    exact replaceOne_served served found

theorem start_served (shards : Shards) (bootstrap : List (SocketAddr × String)) :
    Served shards (start bootstrap) :=
  ⟨nofun, nofun, rfl, nofun, nofun, nofun⟩

end BrokerPool

/-! ## Calls that begin after the change -/

def Act.replacing : Act -> Bool
  | .refreshBrokers _ | .replaceBootstrap _ => true
  | _ => false

namespace BrokerPool

variable {shards : Shards} {pool next : BrokerPool}

/-- The connection was dialed to an address resolved from the endpoint that the registry holds
for the broker, or to an address of the bootstrap list. -/
def Proper (pool : BrokerPool) (request : Request) (connection : Conn) : Prop :=
  match request with
  | .get id => Exists fun endpoint =>
    connection.target.source = .resolved endpoint ∧ pool.byEndpoint.get? id = some endpoint
  | .bootstrapConnection => pool.Listed connection.target

structure Steady (first : Nat) (pool : BrokerPool) : Prop where
  refreshes : pool.refreshes = SortedMap.empty
  replaces : pool.replaces = SortedMap.empty
  calls : pool.calls.All fun number call => first ≤ number ->
    forall node, call.stage.node? = some node -> pool.nodes.get? call.request.id = some node
  returned : forall number request connection, (number, request, connection) ∈ pool.returned ->
    first ≤ number -> pool.Proper request connection

variable {first : Nat}

theorem right_proper {call : Call} {connection : Conn} (steady : Steady first pool)
    (fits : call.Fits) (past : call.stage ≠ .lookup)
    (right : pool.Right shards call.request.id connection.target) :
    pool.Proper call.request connection := by
  cases isRequest : call.request with
  | get id =>
    rw [isRequest] at right
    have current := right.1 ((fits.get id isRequest).2 past)
    rcases current with pending | registered
    · rcases pending_iff.mp pending with ⟨number, refresh, found, _⟩
      rw [steady.refreshes] at found
      cases found
    · unfold Proper
      cases isSource : connection.target.source with
      | resolved endpoint =>
        rw [isSource] at registered
        exact ⟨endpoint, rfl, registered⟩
      | bootstrap =>
        rw [isSource] at registered
        exact registered.elim
  | bootstrapConnection =>
    rw [isRequest] at right
    rcases right.2 rfl with clearing | listed
    · rcases clearing_iff.mp clearing with ⟨number, found⟩
      rw [steady.replaces] at found
      cases found
    · exact listed

section

variable (steady : Steady first pool)

include steady

theorem steady_moveTo (holds : first ≤ number -> forall node, stage.node? = some node ->
      pool.nodes.get? call.request.id = some node) :
    Steady first (pool.moveTo number call stage) :=
  { steady with calls := steady.calls.insert holds }

theorem steady_leave :
    Steady first (pool.leave number) :=
  { steady with calls := steady.calls.filter }

theorem steady_giveBack {connection : Conn}
    (proper : first ≤ number -> pool.Proper call.request connection) :
    Steady first (pool.giveBack number call connection) := by
  refine { steady with calls := steady.calls.filter, returned := ?_ }
  intro other request given member late
  rcases mem_cons.mp member with new | older
  · cases new
    exact proper late
  · exact steady.returned other request given older late

theorem steady_setState {state : NodeState} :
    Steady first (pool.setState node state) :=
  { steady with }

theorem steady_connect (proper : first ≤ number -> pool.Proper call.request ⟨pool.dialed, target⟩) :
    Steady first (pool.connect number call node target) := by
  have given : Steady first ((pool.setState node
      ((pool.stateOf node).ready ⟨pool.dialed, target⟩)).giveBack number call
        ⟨pool.dialed, target⟩) := steady_giveBack (steady_setState steady) proper
  exact { given with calls := given.calls }

theorem steady_makeNode (id : Int) :
    Steady first (pool.makeNode id).1 := by
  have kept := (makeNode_spec pool id).2.1
  unfold makeNode at kept ⊢
  split at kept
  · exact steady
  · refine { steady with calls := steady.calls.imp fun number call mapped late node holds => ?_ }
    exact kept _ _ (mapped late node holds)

end

section

variable (served : Served shards pool) (steady : Steady first pool)

include served steady

theorem poll_steady {answer : Answer} (found : pool.calls.get? number = some call)
    (fresh : pool.FreshPoll shards call.request.id answer call.stage)
    (polled : Poll pool number call answer next) : Steady first next := by
  rcases served.calls number call found with ⟨_, goes⟩
  have mapped := steady.calls number call found
  have past {node : Nat} (holds : call.stage.node? = some node) : call.stage ≠ .lookup := by
    intro lookup
    rw [lookup] at holds
    cases holds
  cases polled with
  | leave => exact steady_leave steady
  | found lookup registered => exact steady_moveTo steady nofun
  | entry enters =>
    refine steady_moveTo (steady_makeNode steady _) fun _ node isNode => ?_
    cases isNode
    exact (makeNode_spec pool call.request.id).1
  | @returns node connection holds cached =>
    refine steady_giveBack steady fun late => ?_
    refine right_proper steady goes.1 (past holds)
      ((served.nodes _ node (mapped late node holds)).2 connection.target ?_)
    unfold NodeState.targets
    rw [cached]
    exact mem_append_right _ (.head _)
  | move holds onward =>
    exact steady_moveTo steady fun late node isNode =>
      mapped late node (onward.node.symm.trans isNode)
  | change holds onward targets =>
    exact steady_moveTo (steady_setState steady) fun late node isNode =>
      mapped late node (onward.node.symm.trans isNode)
  | @dial node target state endpoint attempts attempted =>
    have holds : call.stage.node? = some node := by rw [attempts]; rfl
    exact steady_moveTo (steady_setState steady) fun late other isNode =>
      mapped late other (holds.trans isNode)
  | @install node bootstrap installs =>
    have holds : call.stage.node? = some node := by rw [installs]; rfl
    exact steady_moveTo (steady_setState steady) fun late other isNode =>
      mapped late other (holds.trans isNode)
  | fail holds => exact steady_leave (steady_setState steady)
  | @dialed node target dials =>
    have holds : call.stage.node? = some node := by rw [dials]; rfl
    exact steady_connect steady fun late => right_proper steady goes.1 (past holds)
      (goes_right goes holds (mapped late node holds) (by rw [dials]; rfl))
  | @seedDialed node rounds left target dials =>
    have holds : call.stage.node? = some node := by rw [dials]; rfl
    have seeds : call.stage.seeds = true := by rw [dials]; rfl
    rw [dials] at fresh
    exact steady_connect steady fun _ => @right_proper shards _ _ _ _ steady goes.1 (past holds)
      (seeds_right goes.1 seeds (fresh rfl))

theorem step_steady {act : Act} (settled : act.replacing = false) (fresh : pool.Fresh shards act)
    (stepped : pool.step shards act = some next) : Steady first next := by
  cases act with
  | begin request =>
    cases stepped
    refine { steady with calls := steady.calls.insert fun _ node isNode => ?_ }
    exact absurd ((begin_node request).symm.trans isNode) nofun
  | poll number answer =>
    rcases bind_eq_some_iff.mp stepped with ⟨call, found, polled⟩
    exact poll_steady served steady found (fresh call found) (pollStep_inv polled)
  | drop number =>
    rcases map_eq_some_iff.mp stepped with ⟨call, found, rfl⟩
    exact steady_leave steady
  | touch id =>
    cases stepped
    exact steady_makeNode steady id
  | evict id =>
    cases stepped
    unfold evictNode
    split
    · exact steady
    · dsimp only
      split
      · exact steady_setState steady
      · exact steady
  | disconnect serial =>
    cases stepped
    exact { steady with }
  | refreshBrokers | replaceBootstrap => cases settled
  | refreshStep number =>
    rcases map_eq_some_iff.mp stepped with ⟨refresh, found, _⟩
    rw [steady.refreshes] at found
    cases found
  | replaceStep number =>
    rcases map_eq_some_iff.mp stepped with ⟨replace, found, _⟩
    rw [steady.replaces] at found
    cases found

theorem run_steady {acts : List Act} {last : BrokerPool}
    (settled : forall act, act ∈ acts -> act.replacing = false)
    (fresh : Along (step shards) (Fresh shards) pool acts)
    (ran : run (step shards) pool acts = some last) : Steady first last := by
  induction acts generalizing pool with
  | nil => exact some.inj ran ▸ steady
  | cons act rest ih =>
    rcases bind_eq_some_iff.mp ran with ⟨next, stepped, ran⟩
    rw [Along, stepped] at fresh
    have isSettled := settled act (.head _)
    exact ih (step_served served fresh.1 stepped)
      (step_steady served steady isSettled fresh.1 stepped)
      (fun other member => settled other (.tail _ member)) fresh.2 ran

end

/-- A call that begins when no refresh and no replacement is in progress returns a connection
to an address of the endpoint in the registry, or of the bootstrap list, as long as no other
refresh or replacement begins. -/
theorem run_serves_current (shards : Shards) (bootstrap : List (SocketAddr × String))
    {before during : List Act} {changed last : BrokerPool}
    (ran : run (step shards) (start bootstrap) before = some changed)
    (fresh : Along (step shards) (Fresh shards) (start bootstrap) before)
    (refreshed : changed.refreshes = SortedMap.empty)
    (replaced : changed.replaces = SortedMap.empty)
    (later : run (step shards) changed during = some last)
    (freshLater : Along (step shards) (Fresh shards) changed during)
    (settled : forall act, act ∈ during -> act.replacing = false)
    {number : Nat} {request : Request} {connection : Conn}
    (returned : (number, request, connection) ∈ last.returned)
    (begun : changed.begun ≤ number) : last.Proper request connection := by
  have served : Served shards changed := Transition.run_invariant (Served shards)
      (fun _ _ _ => step_served)
      (start_served shards bootstrap) fresh ran
  have steady : Steady changed.begun changed := by
    refine ⟨refreshed, replaced, fun other call found late => ?_, fun other _ _ member late => ?_⟩
    · exact absurd late (Nat.not_le_of_lt (served.calls other call found).1)
    · exact absurd late (Nat.not_le_of_lt (served.returned _ member))
  exact (run_steady served steady settled freshLater later).returned
    number request connection returned begun

/-- Maps with one shard. -/
def oneShard : Shards := ⟨1, fun _ => 0, fun _ => Nat.zero_lt_one⟩

/-- The acts of refresh `number` of one broker, of which the map has another endpoint or none. -/
def refreshTo (number : Nat) (host : String) (known : Bool) : List Act :=
  .refreshBrokers [⟨5, host, 9092⟩] ::
    List.replicate (if known then 7 else 6) (.refreshStep number)

/-- The acts of `get` from its node on, when it has to dial. -/
def dialing (number : Nat) (addr : SocketAddr) : List Act :=
  List.replicate 6 (.poll number .none) ++
    [.poll number (.resolved [addr]), .poll number .none, .poll number .dialed]

/-- The broker moves while its old connection is cached, and a later `get` dials again. -/
def movedBroker : List Act :=
  refreshTo 0 "old" false ++ [.begin (.get 5), .poll 1 .none] ++ dialing 1 ⟨"10.0.0.1", 9092⟩ ++
    refreshTo 2 "new" true

def laterGet : List Act :=
  [.begin (.get 5), .poll 3 .none] ++ dialing 3 ⟨"10.0.0.2", 9092⟩

theorem run_serves_current_moved : Exists fun changed => Exists fun last =>
    run (step oneShard) (start []) movedBroker = some changed ∧
      run (step oneShard) changed laterGet = some last ∧
      last.Proper (.get 5) ⟨1, ⟨⟨"10.0.0.2", 9092⟩, "new", .resolved ⟨"new", 9092⟩⟩⟩ :=
  ⟨_, _, rfl, rfl, @run_serves_current oneShard [] movedBroker laterGet _ _ rfl (by decide) rfl rfl
    rfl (by decide) (by decide) 3 (.get 5)
    ⟨1, ⟨⟨"10.0.0.2", 9092⟩, "new", .resolved ⟨"new", 9092⟩⟩⟩ (.head _) (by decide)⟩

/-- `get` read the registry before the broker moved and takes its node after that. -/
def staleGet : List Act :=
  refreshTo 0 "old" false ++ [.begin (.get 5), .poll 1 .none] ++ refreshTo 2 "new" true ++
    dialing 1 ⟨"10.0.0.1", 9092⟩

/-- The call read the bootstrap list before it was replaced and installs it after that. -/
def staleSeeds : List Act :=
  .begin .bootstrapConnection :: List.replicate 6 (.poll 0 .none) ++
    [.replaceBootstrap [(⟨"10.0.0.2", 9092⟩, "new")], .replaceStep 1, .replaceStep 1,
      .poll 0 .none, .poll 0 .none, .poll 0 .dialed]

/-- A later `get` is given the connection to the old address of the broker, and a later
`bootstrap_connection` the connection to an address of the old list. -/
theorem stale_call_serves_old_address :
    ((run (step oneShard) (start []) staleGet).map (fun pool =>
        (pool.refreshes.entries, pool.replaces.entries, pool.begun)) = some ([], [], 3) ∧
      (run (step oneShard) (start [])
        (staleGet ++ [.begin (.get 5), .poll 3 .none, .poll 3 .none, .poll 3 .none])).map
          (fun pool => (pool.byEndpoint.get? 5, pool.returned.head?)) =
        some (some ⟨"new", 9092⟩, some (3, .get 5,
          ⟨0, ⟨⟨"10.0.0.1", 9092⟩, "old", .resolved ⟨"old", 9092⟩⟩⟩))) ∧
    (run (step oneShard) (start [(⟨"10.0.0.1", 9092⟩, "old")]) staleSeeds).map (fun pool =>
        (pool.refreshes.entries, pool.replaces.entries, pool.begun)) = some ([], [], 2) ∧
      (run (step oneShard) (start [(⟨"10.0.0.1", 9092⟩, "old")])
        (staleSeeds ++ [.begin .bootstrapConnection, .poll 2 .none, .poll 2 .none])).map
          (fun pool => (pool.bootstrap, pool.returned.head?)) =
        some ([(⟨"10.0.0.2", 9092⟩, "new")], some (2, .bootstrapConnection,
          ⟨0, ⟨⟨"10.0.0.1", 9092⟩, "old", .bootstrap⟩⟩)) :=
  ⟨⟨rfl, rfl⟩, rfl, rfl⟩

end BrokerPool

end Pool
end Core
end Krabka
