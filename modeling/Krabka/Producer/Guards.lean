import Krabka.Producer.TxnCalls
import Mathlib.Data.List.Perm.Subperm

namespace Krabka
namespace Producer
namespace TxnCalls

open List Option Shared

/-!
# Transaction guards

The guard generation is odd while a transaction is open under its guard.
`begin_transaction` makes it odd under the lock of the state, and hands the value out.
The drop of the guard and the end of the transaction each make it even again, whichever
comes first, and only the drop asks for recovery.

The end of a transaction is two operations: a call moves the state, and lets the guard go
a moment later.  A begin or a guard drop between the two meets the generation of a
transaction that is over.
-/

variable {call : Call}

namespace Call

def previous? : Call -> Option TxnState
  | .initializing _ previous | .initRestore previous | .ending _ _ previous
  | .endRestore _ previous | .endApply _ previous _ => some previous
  | _ => none

/-- The generation that the call has loaded to let the guard go. -/
def loaded? : Call -> Option Nat
  | .endCas _ generation | .resolveCas _ generation => some generation
  | _ => none

theorem of_not_moved (notMoved : call.moved = false) :
    call.settling = false ∧ call.previous? = none ∧ call.loaded? = none := by
  cases call <;> first | exact ⟨rfl, rfl, rfl⟩ | cases notMoved

end Call

/-- No call is between the end of a transaction and the release of its guard. -/
def Calm (calls : List Call) : Prop := forall call, call ∈ calls -> call.settling = false
deriving Decidable

/-- No transaction begins while another call has moved the state and not returned, and no
guard is dropped while a call has ended a transaction and not yet let its guard go. -/
def Undisturbed (world : World) : Act -> Prop
  | .advance index _ => world.calls[index]? = some .beginEnter ->
      world.shared.fields.txnState = .ready ->
        forall call, call ∈ world.calls -> call.moved = false
  | .dropGuard _ => Calm world.calls
  | .cancel index => forall call, world.calls[index]? = some call ->
      call.guard?.isSome = true -> Calm world.calls
  | _ => True

instance (world : World) (act : Act) : Decidable (Undisturbed world act) := by
  cases act <;> unfold Undisturbed <;> infer_instance

/-- The guards that are alive: with the application, or inside the futures of `calls`. -/
def alive (shared : Shared) (calls : List Call) : List Nat :=
  shared.guards ++ calls.filterMap Call.guard?

structure Guarded (shared : Shared) (calls : List Call) : Prop where
  odd : forall guard, guard ∈ alive shared calls ->
    guard % 2 = 1 ∧ guard ≤ shared.fields.guardGeneration
  nodup : (alive shared calls).Nodup
  opened_odd : forall guard, shared.opened = some guard -> guard % 2 = 1
  opened_generation : forall guard, shared.opened = some guard ->
    shared.fields.guardGeneration = guard ∨
      shared.fields.guardGeneration = guard + 1 ∧ guard ∉ alive shared calls
  opened_state : shared.opened ≠ none -> shared.fields.txnState ≠ .ready
  opened_calls : shared.opened ≠ none -> forall call, call ∈ calls ->
    call.settling = false ∧ call.previous? ≠ some .ready
  closed : shared.opened = none -> Calm calls -> shared.fields.guardGeneration % 2 = 0
  loaded : forall call, call ∈ calls -> forall generation, call.loaded? = some generation ->
    generation % 2 = 1 ∧ (shared.fields.guardGeneration = generation ∨
      shared.fields.guardGeneration = generation + 1)

/-! ## The effect of one operation -/

/-- No operation but the end of `init_transactions` withdraws a request for recovery. -/
structure Carries (shared : Shared) (call : Call) (next : Shared) : Prop where
  abandoning : next.abandoning = shared.abandoning
  recovery : call = .initClear ∨
    (shared.fields.recoveryRequired = true -> next.fields.recoveryRequired = true)

inductive Effect (shared : Shared) (call : Call) : Shared -> List Call -> Prop where
  /-- It leaves the guard generation and the open transaction alone. -/
  | quiet (next : Shared) (calls : List Call) (carries : Carries shared call next)
      (generation : next.fields.guardGeneration = shared.fields.guardGeneration)
      (opened : next.opened = shared.opened)
      (state : next.fields.txnState = shared.fields.txnState ∨ next.fields.txnState ≠ .ready ∨
        call.previous? = some next.fields.txnState)
      (waits : call.settling = false)
      (later : forall later, later ∈ calls -> later.settling = false ∧ later.loaded? = none ∧
        (later.previous? = none ∨ later.previous? = call.previous? ∨
          later.previous? = some shared.fields.txnState))
      (alive : (alive next calls).Perm (alive shared [call])) :
      Effect shared call next calls
  | begins (next : Shared) (carries : Carries shared call next) (isBegin : call = .beginEnter)
      (ready : shared.fields.txnState = .ready)
      (generation : next.fields.guardGeneration = shared.fields.guardGeneration + 1)
      (opened : next.opened = some (shared.fields.guardGeneration + 1))
      (state : next.fields.txnState = .inTransaction)
      (guards : next.guards = (shared.fields.guardGeneration + 1) :: shared.guards) :
      Effect shared call next []
  /-- It moves the state out of the open transaction. -/
  | closes (next : Shared) (later : Call) (carries : Carries shared call next)
      (generation : next.fields.guardGeneration = shared.fields.guardGeneration)
      (opened : next.opened = none) (settling : later.settling = true)
      (loaded : later.loaded? = none) (alive : (alive next [later]).Perm (alive shared [call])) :
      Effect shared call next [later]
  /-- It is on its way to let the guard go. -/
  | settles (next : Shared) (later : Call) (carries : Carries shared call next)
      (generation : next.fields.guardGeneration = shared.fields.guardGeneration)
      (opened : next.opened = shared.opened) (settling : call.settling = true)
      (goesOn : later.settling = true)
      (loaded : forall generation, later.loaded? = some generation ->
        generation = shared.fields.guardGeneration ∧ generation % 2 = 1)
      (alive : (alive next [later]).Perm (alive shared [call])) :
      Effect shared call next [later]
  /-- It finds the generation even, or makes it even with a compare-exchange. -/
  | settled (next : Shared) (carries : Carries shared call next)
      (opened : next.opened = shared.opened) (settling : call.settling = true)
      (generation :
        next.fields.guardGeneration = shared.fields.guardGeneration ∧
            (shared.fields.guardGeneration % 2 = 0 ∨ Exists fun generation =>
              call.loaded? = some generation ∧ shared.fields.guardGeneration ≠ generation) ∨
          call.loaded? = some shared.fields.guardGeneration ∧
            next.fields.guardGeneration = shared.fields.guardGeneration + 1)
      (alive : (alive next []).Subperm (alive shared [call])) :
      Effect shared call next []

theorem alive_one (shared : Shared) (call : Call) :
    alive shared [call] = shared.guards ++ call.guard?.toList := by
  unfold alive
  cases held : call.guard? with
  | none => rw [filterMap_cons_none held]; rfl
  | some guard => rw [filterMap_cons_some held]; rfl

variable {shared next : Shared} {later : Call}

theorem alive_same (guards : next.guards = shared.guards) (held : later.guard? = call.guard?) :
    (alive next [later]).Perm (alive shared [call]) := by
  rw [alive_one, alive_one, guards, held]

theorem Effect.returns {shared next : Shared} {call : Call} (carries : Carries shared call next)
    (generation : next.fields.guardGeneration = shared.fields.guardGeneration)
    (opened : next.opened = shared.opened)
    (state : next.fields.txnState = shared.fields.txnState ∨ next.fields.txnState ≠ .ready ∨
      call.previous? = some next.fields.txnState)
    (waits : call.settling = false) (guards : next.guards = call.guard?.toList ++ shared.guards) :
    Effect shared call next [] := by
  refine .quiet _ _ carries generation opened state waits (fun _ member => nomatch member) ?_
  rw [alive_one, alive, filterMap_nil, append_nil, guards]
  exact perm_append_comm

theorem Effect.goesOn (carries : Carries shared call next)
    (generation : next.fields.guardGeneration = shared.fields.guardGeneration)
    (opened : next.opened = shared.opened)
    (state : next.fields.txnState = shared.fields.txnState ∨ next.fields.txnState ≠ .ready)
    (waits : call.settling = false) (laterWaits : later.settling = false)
    (notLoaded : later.loaded? = none)
    (previous : later.previous? = none ∨ later.previous? = call.previous? ∨
      later.previous? = some shared.fields.txnState) (guards : next.guards = shared.guards)
    (held : later.guard? = call.guard?) :
    Effect shared call next [later] := by
  refine .quiet _ _ carries generation opened (state.imp_right .inl) waits ?_
    (alive_same guards held)
  intro other member
  rw [mem_singleton.mp member]
  exact ⟨laterWaits, notLoaded, previous⟩

/-- A call goes on, and leaves everything as it was. -/
theorem Effect.stays (waits : call.settling = false) (laterWaits : later.settling = false)
    (notLoaded : later.loaded? = none)
    (previous : later.previous? = none ∨ later.previous? = call.previous?)
    (held : later.guard? = call.guard?) : Effect shared call shared [later] :=
  .goesOn ⟨rfl, .inr id⟩ rfl rfl (.inl rfl) waits laterWaits notLoaded
    (previous.imp_right .inl) rfl held

/-- A call returns its guard, and leaves the rest as it was. -/
theorem Effect.givesBack (waits : call.settling = false) :
    Effect shared call (shared.giveBack call.guard?) [] :=
  .returns ⟨rfl, .inr id⟩ rfl rfl (.inl rfl) waits rfl

theorem Effect.loads (settling : call.settling = true) (goesOn : later.settling = true)
    (loaded : later.loaded? = some shared.fields.guardGeneration)
    (odd : shared.fields.guardGeneration % 2 = 1) (held : later.guard? = call.guard?) :
    Effect shared call shared [later] := by
  refine .settles _ _ ⟨rfl, .inr id⟩ rfl rfl settling goesOn ?_ (alive_same rfl held)
  intro generation isLoaded
  rw [<- some.inj (loaded.symm.trans isLoaded)]
  exact ⟨rfl, odd⟩

section

variable (shared : Shared)

theorem alive_finished (call : Call) :
    (alive shared []).Subperm (alive shared [call]) := by
  rw [alive_one, alive, filterMap_nil, append_nil]
  exact (sublist_append_left _ _).subperm

theorem alive_returned (call : Call) :
    (alive (shared.giveBack call.guard?) []).Subperm (alive shared [call]) := by
  rw [alive_one, alive, filterMap_nil, append_nil]
  exact perm_append_comm.subperm

theorem resolve_generation {generation : Nat} (loaded : call.loaded? = some generation) :
    (shared.resolve generation).fields.guardGeneration = shared.fields.guardGeneration ∧
        (shared.fields.guardGeneration % 2 = 0 ∨ Exists fun generation =>
          call.loaded? = some generation ∧ shared.fields.guardGeneration ≠ generation) ∨
      call.loaded? = some shared.fields.guardGeneration ∧
        (shared.resolve generation).fields.guardGeneration = shared.fields.guardGeneration + 1 := by
  unfold Shared.resolve
  split
  · rename_i same
    refine .inr ⟨by rw [same, loaded], ?_⟩
    rw [same]
  · rename_i differs
    exact .inl ⟨rfl, .inr ⟨generation, loaded, differs⟩⟩

theorem applyEndTxn_effect (guard : Option Nat) (previous : TxnState) (endTxn : EndTxn.LoopResult) :
    Effect shared (.endApply guard previous endTxn) (applyEndTxn shared guard previous endTxn).1
      (applyEndTxn shared guard previous endTxn).2 := by
  cases endTxn with
  | authenticationFailed =>
    exact .returns ⟨rfl, .inr fun _ => rfl⟩ rfl rfl (.inr (.inl nofun)) rfl rfl
  | decided decision identity =>
    cases decision with
    | complete =>
      exact .goesOn ⟨rfl, .inr id⟩ rfl rfl (.inl rfl) rfl rfl rfl (.inl rfl) rfl rfl
    | fenced | fatal _ => exact .closes _ _ ⟨rfl, .inr id⟩ rfl rfl rfl rfl (alive_same rfl rfl)
    | concurrentTransactions | timedOut _ | abortable _ =>
      exact .returns ⟨rfl, .inr id⟩ rfl rfl (.inr (.inr rfl)) rfl rfl
    | outcomeUnknown | retry _ =>
      exact .returns ⟨rfl, .inr fun _ => rfl⟩ rfl rfl (.inr (.inl nofun)) rfl rfl

end

variable {calls : List Call}

/-- The operations of the calls, by what they do to the guards. -/
theorem advance_effect {answer : Answer} (moved : advance shared call answer = some (next, calls)) :
    Effect shared call next calls := by
  cases call with
  | initCheck _ | beginCheck | beginFlag | prepareCheck | prepareFlag | completeCheck _
  | endCheck _ _ =>
    exact of_branch moved (fun _ => .givesBack rfl) fun _ => .stays rfl rfl rfl (.inl rfl) rfl
  | initEnter _ | endEnter _ _ =>
    refine of_branch (of_unlocked moved) (fun _ => ?_) fun _ => .givesBack rfl
    exact .goesOn ⟨rfl, .inr id⟩ rfl rfl (.inr nofun) rfl rfl rfl (.inr (.inr rfl)) rfl rfl
  | prepareEnter =>
    refine of_branch (of_unlocked moved) (fun _ => ?_) fun _ => .givesBack rfl
    exact .goesOn ⟨rfl, .inr id⟩ rfl rfl (.inr nofun) rfl rfl rfl (.inl rfl) rfl rfl
  | completeEnter _ =>
    exact of_branch (of_unlocked moved) (fun _ => .stays rfl rfl rfl (.inl rfl) rfl)
      fun _ => .givesBack rfl
  | initializing keepPrepared previous =>
    cases answer with
    | failed =>
      exact of_branch moved (fun _ => .givesBack rfl) fun _ => .stays rfl rfl rfl (.inr rfl) rfl
    | refused =>
      cases moved
      exact .stays rfl rfl rfl (.inr rfl) rfl
    | fatal error =>
      cases moved
      exact .stays rfl rfl rfl (.inl rfl) rfl
    | initialized identity ongoing =>
      dsimp only [advance] at moved
      split at moved <;> cases moved
      · exact .stays rfl rfl rfl (.inr rfl) rfl
      · exact .goesOn ⟨rfl, .inr id⟩ rfl rfl (.inl rfl) rfl rfl rfl (.inl rfl) rfl rfl
    | flushed | decided _ => cases moved
  | initRestore _ | endRestore _ _ =>
    cases of_unlocked moved
    exact .returns ⟨rfl, .inr id⟩ rfl rfl (.inr (.inr rfl)) rfl rfl
  | prepareRestore =>
    cases of_unlocked moved
    exact .returns ⟨rfl, .inr id⟩ rfl rfl (.inr (.inl nofun)) rfl rfl
  | initStore _ | prepareStore _ | completeRead _ =>
    cases moved
    exact .goesOn ⟨rfl, .inr id⟩ rfl rfl (.inl rfl) rfl rfl rfl (.inl rfl) rfl rfl
  | initMove _ | prepareMove | fatalMove _ =>
    cases of_unlocked moved
    exact .closes _ _ ⟨rfl, .inr id⟩ rfl rfl rfl rfl (alive_same rfl rfl)
  | endFinish _ =>
    cases moved
    exact .closes _ _ ⟨rfl, .inr id⟩ rfl rfl rfl rfl (alive_same rfl rfl)
  | initClear =>
    cases moved
    exact .settles _ _ ⟨rfl, .inl rfl⟩ rfl rfl rfl rfl nofun (alive_same rfl rfl)
  | fatalStore _ _ =>
    cases moved
    exact .settles _ _ ⟨rfl, .inr id⟩ rfl rfl rfl rfl nofun (alive_same rfl rfl)
  | beginEnter =>
    refine of_branch (of_unlocked moved) (fun ready => ?_) fun _ => .givesBack rfl
    exact .begins _ ⟨rfl, .inr id⟩ rfl ready rfl rfl rfl rfl
  | preparing =>
    cases answer with
    | failed =>
      cases moved
      exact .stays rfl rfl rfl (.inl rfl) rfl
    | flushed =>
      dsimp only [advance] at moved
      repeat' split at moved
      all_goals
        cases moved
        exact .stays rfl rfl rfl (.inl rfl) rfl
    | refused | fatal _ | initialized _ _ | decided _ => cases moved
  | ending committed guard previous =>
    cases answer with
    | failed | decided _ =>
      cases moved
      exact .stays rfl rfl rfl (.inr rfl) rfl
    | refused | fatal _ | initialized _ _ | flushed => cases moved
  | endApply guard previous endTxn =>
    have effect := applyEndTxn_effect shared guard previous endTxn
    rwa [some.inj (of_unlocked moved)] at effect
  | endLoad guard =>
    refine of_branch moved (fun odd => .loads rfl rfl rfl odd rfl) fun even => ?_
    exact .settled _ ⟨rfl, .inr id⟩ rfl rfl (.inl ⟨rfl, .inl (by omega)⟩) (alive_finished shared _)
  | resolveLoad guard =>
    refine of_branch moved (fun odd => .loads rfl rfl rfl odd rfl) fun even => ?_
    exact .settled _ ⟨rfl, .inr id⟩ rfl rfl (.inl ⟨rfl, .inl (by omega)⟩)
      (alive_returned shared (.resolveLoad guard))
  | endCas guard generation =>
    rcases shared.resolve_same generation with ⟨same, abandoning⟩
    cases moved
    refine .settled _ ⟨abandoning, .inr same.recoveryRequired.trans⟩ same.opened rfl
      (resolve_generation shared rfl) ?_
    have finished := alive_finished shared (.endCas guard generation)
    rwa [alive, filterMap_nil, <- same.guards] at finished
  | resolveCas guard generation =>
    rcases shared.resolve_same generation with ⟨same, abandoning⟩
    cases moved
    refine .settled _ ⟨abandoning, .inr same.recoveryRequired.trans⟩ same.opened rfl
      (resolve_generation shared rfl) ?_
    have returned := alive_returned shared (.resolveCas guard generation)
    rwa [alive, Shared.giveBack, filterMap_nil, <- same.guards] at returned

/-! ## The invariant -/

theorem alive_perm (shared : Shared) (before calls after : List Call) :
    (alive shared (before ++ calls ++ after)).Perm
      (alive shared calls ++ (before ++ after).filterMap Call.guard?) := by
  unfold alive
  rw [filterMap_append, filterMap_append, filterMap_append, append_assoc, append_assoc]
  refine List.Perm.append_left _ ?_
  rw [<- append_assoc, <- append_assoc]
  exact perm_append_comm.append_right _

theorem alive_step (before after : List Call)
    (alive_le : (alive next calls).Subperm (alive shared [call])) :
    (alive next (before ++ calls ++ after)).Subperm (alive shared (before ++ call :: after)) := by
  have whole := alive_perm shared before [call] after
  rw [append_assoc, singleton_append] at whole
  exact (alive_perm next before calls after).subperm.trans
    (((subperm_append_right _).mpr alive_le).trans whole.symm.subperm)

/-- The guards stay odd, distinct and no newer than the generation when none is added. -/
theorem Guarded.alive_mono {later : List Call} (guarded : Guarded shared calls)
    (alive_le : (alive next later).Subperm (alive shared calls))
    (generation : shared.fields.guardGeneration ≤ next.fields.guardGeneration) :
    (forall guard, guard ∈ alive next later ->
      guard % 2 = 1 ∧ guard ≤ next.fields.guardGeneration) ∧ (alive next later).Nodup := by
  constructor
  · intro guard member
    rcases guarded.odd guard (alive_le.subset member) with ⟨odd, bound⟩
    exact ⟨odd, bound.trans generation⟩
  · rcases alive_le with ⟨kept, perm, sublist⟩
    exact perm.nodup_iff.mp (guarded.nodup.sublist sublist)

/-- An operation that adds no guard keeps the generation and the open transaction. -/
theorem Guarded.mono {later : List Call} (guarded : Guarded shared calls)
    (alive_le : (alive next later).Subperm (alive shared calls))
    (generation : next.fields.guardGeneration = shared.fields.guardGeneration)
    (opened : next.opened = shared.opened)
    (state : shared.opened ≠ none -> next.fields.txnState ≠ .ready) (calm : Calm later -> Calm calls)
    (isLater : forall call, call ∈ later -> call ∈ calls ∨ call.settling = false ∧
      call.loaded? = none ∧ (shared.opened ≠ none -> call.previous? ≠ some .ready)) :
    Guarded next later := by
  rcases guarded.alive_mono alive_le generation.ge with ⟨odd, nodup⟩
  refine ⟨odd, nodup, opened ▸ guarded.opened_odd, ?_, opened ▸ state, ?_, ?_, ?_⟩
  · rw [opened, generation]
    intro guard isOpen
    exact (guarded.opened_generation guard isOpen).imp_right fun dropped =>
      ⟨dropped.1, fun kept => dropped.2 (alive_le.subset kept)⟩
  · rw [opened]
    intro isOpen call member
    rcases isLater call member with old | ⟨waits, _, previous⟩
    · exact guarded.opened_calls isOpen call old
    · exact ⟨waits, previous isOpen⟩
  · rw [opened, generation]
    exact fun isClosed isCalm => guarded.closed isClosed (calm isCalm)
  · rw [generation]
    intro call member number loaded
    rcases isLater call member with old | ⟨_, notLoaded, _⟩
    · exact guarded.loaded call old number loaded
    · cases notLoaded.symm.trans loaded

theorem Guarded.opened_none (guarded : Guarded shared calls) (member : call ∈ calls)
    (settling : call.settling = true) :
    shared.opened = none := by
  by_contra isOpen
  have waits := (guarded.opened_calls isOpen call member).1
  rw [settling] at waits
  cases waits

section Steps

variable {shared next : Shared} {before after : List Call} {call : Call}

theorem mem_whole {other : Call} (member : other ∈ before ∨ other ∈ after) :
    other ∈ before ++ call :: after :=
  mem_append.mpr (member.imp_right (.tail call))

theorem mem_parts {other : Call} (member : other ∈ before ++ calls ++ after) :
    other ∈ calls ∨ other ∈ before ∨ other ∈ after := by
  rcases mem_append.mp member with left | right
  · rcases mem_append.mp left with first | second
    · exact .inr (.inl first)
    · exact .inl second
  · exact .inr (.inr right)

section

variable (guarded : Guarded shared (before ++ call :: after))

include guarded

section

variable (generation : next.fields.guardGeneration = shared.fields.guardGeneration)

include generation

theorem Guarded.quiet (opened : next.opened = shared.opened)
    (state : next.fields.txnState = shared.fields.txnState ∨ next.fields.txnState ≠ .ready ∨
      call.previous? = some next.fields.txnState) (waits : call.settling = false)
    (later : forall later, later ∈ calls -> later.settling = false ∧ later.loaded? = none ∧
      (later.previous? = none ∨ later.previous? = call.previous? ∨
        later.previous? = some shared.fields.txnState))
    (alive_eq : (alive next calls).Perm (alive shared [call])) :
    Guarded next (before ++ calls ++ after) := by
  have member : call ∈ before ++ call :: after := mem_append_right _ (.head _)
  refine guarded.mono (alive_step before after alive_eq.subperm) generation opened ?_ ?_ ?_
  · intro isOpen isReady
    rcases state with same | differs | restored
    · exact guarded.opened_state isOpen (same.symm.trans isReady)
    · exact differs isReady
    · exact (guarded.opened_calls isOpen call member).2 (isReady ▸ restored)
  · intro calm other inside
    rcases mem_append.mp inside with left | right
    · exact calm other (mem_append_left _ (mem_append_left _ left))
    · rcases mem_cons.mp right with same | tail
      · rw [same]
        exact waits
      · exact calm other (mem_append_right _ tail)
  · intro other inside
    rcases mem_parts inside with isLater | beside
    · rcases later other isLater with ⟨laterWaits, notLoaded, previous⟩
      refine .inr ⟨laterWaits, notLoaded, fun isOpen => ?_⟩
      rcases previous with none | same | current
      · rw [none]
        nofun
      · rw [same]
        exact (guarded.opened_calls isOpen call member).2
      · rw [current]
        exact fun isReady => guarded.opened_state isOpen (some.inj isReady)
    · exact .inl (mem_whole beside)

omit generation in
theorem Guarded.begins
    (alone : forall other, other ∈ before ++ call :: after -> other.moved = false)
    (isBegin : call = .beginEnter) (ready : shared.fields.txnState = .ready)
    (generation : next.fields.guardGeneration = shared.fields.guardGeneration + 1)
    (opened : next.opened = some (shared.fields.guardGeneration + 1))
    (state : next.fields.txnState = .inTransaction)
    (guards : next.guards = (shared.fields.guardGeneration + 1) :: shared.guards) :
    Guarded next (before ++ [] ++ after) := by
  have calm : Calm (before ++ call :: after) :=
    fun other inside => (Call.of_not_moved (alone other inside)).1
  have isClosed : shared.opened = none := by
    by_contra isOpen
    exact guarded.opened_state isOpen ready
  have even := guarded.closed isClosed calm
  have alive_eq : alive next (before ++ [] ++ after) =
      (shared.fields.guardGeneration + 1) :: alive shared (before ++ call :: after) := by
    rw [alive, alive, guards, isBegin, append_nil, filterMap_append,
      filterMap_append, filterMap_cons_none rfl, cons_append]
  have fresh : shared.fields.guardGeneration + 1 ∉ alive shared (before ++ call :: after) := by
    intro old
    have bound := (guarded.odd _ old).2
    omega
  have waiting (other : Call) (inside : other ∈ before ++ [] ++ after) : other.moved = false := by
    rcases mem_parts inside with none | beside
    · cases none
    · exact alone other (mem_whole beside)
  refine ⟨?_, ?_, ?_, ?_, ?_, ?_, ?_, ?_⟩
  · rw [alive_eq, generation]
    intro guard member
    rcases mem_cons.mp member with new | old
    · omega
    · have known := guarded.odd guard old
      omega
  · rw [alive_eq]
    exact nodup_cons.mpr ⟨fresh, guarded.nodup⟩
  · rw [opened]
    intro guard same
    have newest := some.inj same
    omega
  · rw [opened, generation]
    exact fun guard same => .inl (some.inj same)
  · rw [state]
    nofun
  · intro _ other inside
    rcases Call.of_not_moved (waiting other inside) with ⟨waits, none, -⟩
    rw [none]
    exact ⟨waits, nofun⟩
  · rw [opened]
    nofun
  · intro other inside number loaded
    rw [(Call.of_not_moved (waiting other inside)).2.2] at loaded
    cases loaded

theorem Guarded.closes (opened : next.opened = none) (settling : later.settling = true)
    (loaded : forall number, later.loaded? = some number ->
      number = shared.fields.guardGeneration ∧ number % 2 = 1)
    (alive_eq : (alive next [later]).Perm (alive shared [call])) :
    Guarded next (before ++ [later] ++ after) := by
  have alive_le := alive_step before after alive_eq.subperm
  rcases guarded.alive_mono alive_le generation.ge with ⟨odd, nodup⟩
  refine ⟨odd, nodup, ?_, ?_, fun isOpen => absurd opened isOpen,
    fun isOpen => absurd opened isOpen, ?_, ?_⟩
  · rw [opened]
    nofun
  · rw [opened]
    nofun
  · intro _ calm
    have waits := calm later (mem_append_left _ (mem_append_right _ (.head _)))
    rw [settling] at waits
    cases waits
  · rw [generation]
    intro other inside number isLoaded
    rcases mem_parts inside with isLater | beside
    · rw [mem_singleton.mp isLater] at isLoaded
      rcases loaded number isLoaded with ⟨current, isOdd⟩
      exact ⟨isOdd, .inl current.symm⟩
    · exact guarded.loaded other (mem_whole beside) number isLoaded

end

theorem Guarded.settled (opened : next.opened = shared.opened) (settling : call.settling = true)
    (generation :
      next.fields.guardGeneration = shared.fields.guardGeneration ∧
          (shared.fields.guardGeneration % 2 = 0 ∨ Exists fun number =>
            call.loaded? = some number ∧ shared.fields.guardGeneration ≠ number) ∨
        call.loaded? = some shared.fields.guardGeneration ∧
          next.fields.guardGeneration = shared.fields.guardGeneration + 1)
    (alive_le : (alive next []).Subperm (alive shared [call])) :
    Guarded next (before ++ [] ++ after) := by
  have member : call ∈ before ++ call :: after := mem_append_right _ (.head _)
  have isClosed : next.opened = none := opened.trans (guarded.opened_none member settling)
  -- The generation is even now: it was, or the loaded odd value has just been passed.
  have evenNow : next.fields.guardGeneration % 2 = 0 ∧
      (next.fields.guardGeneration = shared.fields.guardGeneration ∨
        shared.fields.guardGeneration % 2 = 1 ∧
          next.fields.guardGeneration = shared.fields.guardGeneration + 1) := by
    rcases generation with ⟨same, even | ⟨number, isLoaded, differs⟩⟩ | ⟨isLoaded, advanced⟩
    · exact ⟨same ▸ even, .inl same⟩
    · have known := guarded.loaded call member number isLoaded
      omega
    · have known := guarded.loaded call member _ isLoaded
      omega
  have grows : shared.fields.guardGeneration ≤ next.fields.guardGeneration := by omega
  rcases guarded.alive_mono (alive_step before after alive_le) grows with ⟨odd, nodup⟩
  refine ⟨odd, nodup, ?_, ?_, fun isOpen => absurd isClosed isOpen,
    fun isOpen => absurd isClosed isOpen, fun _ _ => evenNow.1, ?_⟩
  · rw [isClosed]
    nofun
  · rw [isClosed]
    nofun
  · intro other inside number isLoaded
    rcases mem_parts inside with none | beside
    · cases none
    · have known := guarded.loaded other (mem_whole beside) number isLoaded
      omega

/-- An operation of a call keeps the guards in step with the open transaction. -/
theorem Guarded.effect (alone : call = .beginEnter -> shared.fields.txnState = .ready ->
      forall other, other ∈ before ++ call :: after -> other.moved = false)
    (effect : Effect shared call next calls) : Guarded next (before ++ calls ++ after) := by
  cases effect with
  | quiet _ carries generation opened state waits later alive_eq =>
    exact guarded.quiet generation opened state waits later alive_eq
  | begins carries isBegin ready generation opened state guards =>
    exact guarded.begins (alone isBegin ready) isBegin ready generation opened state guards
  | closes later carries generation opened settling loaded alive_eq =>
    refine guarded.closes generation opened settling ?_ alive_eq
    rw [loaded]
    nofun
  | settles later carries generation opened settling goesOn loaded alive_eq =>
    have member : call ∈ before ++ call :: after := mem_append_right _ (.head _)
    exact guarded.closes generation (opened.trans (guarded.opened_none member settling)) goesOn
      loaded alive_eq
  | settled carries opened settling generation alive_le =>
    exact guarded.settled opened settling generation alive_le

end

end Steps

/-! ## Whole steps -/

section WholeSteps

variable {shared next : Shared} {calls : List Call}

section

variable (guarded : Guarded shared calls)

include guarded

theorem Guarded.frame (generation : next.fields.guardGeneration = shared.fields.guardGeneration)
    (opened : next.opened = shared.opened) (state : next.fields.txnState = shared.fields.txnState)
    (guards : next.guards = shared.guards) : Guarded next calls := by
  have alive_eq : alive next calls = alive shared calls := by rw [alive, guards, alive]
  refine guarded.mono (alive_eq ▸ List.Subperm.refl _) generation opened ?_ id fun _ => .inl
  rw [state]
  exact guarded.opened_state

/-- A new call has moved nothing, and may take its guard from the application. -/
theorem Guarded.starts (fields : next.fields = shared.fields) (opened : next.opened = shared.opened)
    (notMoved : call.moved = false)
    (alive_eq : (alive next (calls ++ [call])).Perm (alive shared calls)) :
    Guarded next (calls ++ [call]) := by
  rcases Call.of_not_moved notMoved with ⟨waits, noPrevious, notLoaded⟩
  refine guarded.mono alive_eq.subperm (by rw [fields]) opened ?_ ?_ ?_
  · rw [fields]
    exact guarded.opened_state
  · exact fun calm other old => calm other (mem_append_left _ old)
  · intro other inside
    rcases mem_append.mp inside with old | new
    · exact .inl old
    · rw [mem_singleton.mp new, noPrevious]
      exact .inr ⟨waits, notLoaded, fun _ => nofun⟩

omit guarded in
theorem Call.not_loaded (waits : call.settling = false) : call.loaded? = none := by
  cases call <;> first | rfl | cases waits

/-- A guard is dropped while no call settles. -/
theorem Guarded.drops {later : List Call} (guard : Nat) (calm : Calm calls)
    (kept : forall call, call ∈ later -> call ∈ calls)
    (generation : next.fields.guardGeneration =
      if shared.fields.guardGeneration = guard then shared.fields.guardGeneration + 1
      else shared.fields.guardGeneration) (opened : next.opened = shared.opened)
    (state : next.fields.txnState = shared.fields.txnState)
    (alive_eq : (guard :: alive next later).Perm (alive shared calls)) :
    Guarded next later := by
  have alive_le : (alive next later).Subperm (alive shared calls) :=
    (sublist_cons_self guard _).subperm.trans alive_eq.subperm
  have isOdd := (guarded.odd guard (alive_eq.subset (.head _))).1
  have gone : guard ∉ alive next later := (nodup_cons.mp (alive_eq.nodup_iff.mpr guarded.nodup)).1
  have grows : shared.fields.guardGeneration ≤ next.fields.guardGeneration := by
    rw [generation]
    split <;> omega
  rcases guarded.alive_mono alive_le grows with ⟨odd, nodup⟩
  refine ⟨odd, nodup, ?_, ?_, ?_, ?_, ?_, ?_⟩
  · rw [opened]
    exact guarded.opened_odd
  · rw [opened]
    intro current isOpen
    have currentOdd := guarded.opened_odd current isOpen
    rcases guarded.opened_generation current isOpen with same | ⟨passed, dropped⟩
    · by_cases isCurrent : current = guard
      · rw [generation, if_pos (same.trans isCurrent), same, isCurrent]
        exact .inr ⟨rfl, gone⟩
      · rw [generation, if_neg fun taken => isCurrent (same.symm.trans taken)]
        exact .inl same
    · rw [generation, if_neg (by omega)]
      exact .inr ⟨passed, fun alive => dropped (alive_le.subset alive)⟩
  · rw [opened, state]
    exact guarded.opened_state
  · rw [opened]
    exact fun isOpen call member => guarded.opened_calls isOpen call (kept call member)
  · rw [opened]
    intro isClosed _
    have even := guarded.closed isClosed calm
    rw [generation, if_neg (by omega)]
    exact even
  · intro call member number loaded
    rw [Call.not_loaded (calm call (kept call member))] at loaded
    cases loaded

/-- A send meets a fatal code, and lets the guard of the transaction go. -/
theorem Guarded.fails (opened : next.opened = none) (generation : next.fields.guardGeneration =
      if shared.fields.guardGeneration % 2 = 1 then shared.fields.guardGeneration + 1
      else shared.fields.guardGeneration) (guards : next.guards = shared.guards) :
    Guarded next calls := by
  have alive_eq : alive next calls = alive shared calls := by rw [alive, guards, alive]
  have even : next.fields.guardGeneration % 2 = 0 := by
    rw [generation]
    split <;> omega
  have grows : shared.fields.guardGeneration ≤ next.fields.guardGeneration := by
    rw [generation]
    split <;> omega
  have alive_le : (alive next calls).Subperm (alive shared calls) := by
    rw [alive_eq]
  rcases guarded.alive_mono alive_le grows with ⟨odd, nodup⟩
  refine ⟨odd, nodup, ?_, ?_, fun isOpen => absurd opened isOpen,
    fun isOpen => absurd opened isOpen, fun _ _ => even, ?_⟩
  · rw [opened]
    nofun
  · rw [opened]
    nofun
  · intro call member number loaded
    have known := guarded.loaded call member number loaded
    rw [generation]
    split <;> omega

end

end WholeSteps

theorem Shared.abandon_generation (shared : Shared) (guard : Nat) :
    (shared.abandon guard).fields.guardGeneration =
      if shared.fields.guardGeneration = guard then shared.fields.guardGeneration + 1
      else shared.fields.guardGeneration := by
  unfold abandon
  split
  · rename_i same
    rw [same]
  · rfl

theorem guarded_start (transactionalId : String) (twoPhaseCommitEnabled : Bool) :
    Guarded (World.start transactionalId twoPhaseCommitEnabled).shared
      (World.start transactionalId twoPhaseCommitEnabled).calls where
  odd := nofun
  nodup := nodup_nil
  opened_odd := fun guard isOpen => absurd isOpen.symm (some_ne_none guard)
  opened_generation := fun guard isOpen => absurd isOpen.symm (some_ne_none guard)
  opened_state := fun isOpen => absurd rfl isOpen
  opened_calls := fun isOpen => absurd rfl isOpen
  closed := fun _ _ => rfl
  loaded := nofun

theorem alive_call (shared : Shared) (calls : List Call) (noGuard : call.guard? = none) :
    (alive shared (calls ++ [call])).Perm (alive shared calls) := by
  rw [alive, filterMap_append, filterMap_cons_none noGuard, filterMap_nil, append_nil, alive]

theorem alive_take {guard : Nat} (live : guard ∈ shared.guards) (committed : Bool) :
    (alive { shared with guards := shared.guards.erase guard }
      (calls ++ [.endCheck committed (some guard)])).Perm (alive shared calls) := by
  have held : (Call.endCheck committed (some guard)).guard? = some guard := rfl
  unfold alive
  rw [filterMap_append, filterMap_cons_some held, filterMap_nil, <- append_assoc]
  refine (perm_append_singleton guard _).trans ?_
  exact (perm_cons_erase live).symm.append_right _

theorem alive_cancel {guard : Nat} (held : call.guard? = some guard) (before after : List Call) :
    (guard :: alive shared (before ++ after)).Perm (alive shared (before ++ call :: after)) := by
  have whole := alive_perm shared before [call] after
  rw [append_assoc, singleton_append, alive_one, held] at whole
  refine List.Perm.trans ?_ whole.symm
  unfold alive
  exact (perm_append_singleton guard shared.guards).symm.append_right _

/-- A dropped future leaves the guards in step with the open transaction. -/
theorem Guarded.cancels {before after : List Call}
    (guarded : Guarded shared (before ++ call :: after)) (waits : call.settling = false)
    (calm : call.guard?.isSome = true -> Calm (before ++ call :: after)) :
    Guarded ((shared.unlock call).abandonHeld call.guard?) (before ++ after) := by
  rcases shared.unlock_fields call with ⟨same, generation, -⟩
  cases held : call.guard? with
  | none =>
    have alive_eq : (alive (shared.unlock call) []).Perm (alive shared [call]) := by
      rw [alive_one, held, alive, same.guards]
      rfl
    have kept := guarded.quiet generation same.opened (.inl same.txnState) waits
      (fun _ member => absurd member not_mem_nil) alive_eq
    rwa [append_nil] at kept
  | some guard =>
    have dropped := (shared.unlock call).abandon_same guard
    refine guarded.drops guard (calm (by rw [held]; rfl)) ?_ ?_
      (dropped.opened.trans same.opened) (dropped.txnState.trans same.txnState) ?_
    · exact fun other member => mem_whole (mem_append.mp member)
    · rw [<- generation]
      exact abandon_generation _ guard
    · change (guard :: alive ((shared.unlock call).abandon guard) (before ++ after)).Perm _
      rw [alive, dropped.guards, same.guards]
      exact alive_cancel held before after

theorem step_guarded {world next : World} {act : Act}
    (guarded : Guarded world.shared world.calls) (undisturbed : Undisturbed world act)
    (step : WorldStep world act next) : Guarded next.shared next.calls := by
  cases step with
  | init _ | begin | prepare | complete _ =>
    exact guarded.starts rfl rfl rfl (alive_call _ _ rfl)
  | finish committed guard live => exact guarded.starts rfl rfl rfl (alive_take live committed)
  | sendRefused outcome => exact guarded
  | sent outcome accepts =>
    cases outcome with
    | appended | failed | abortable _ => exact guarded.frame rfl rfl rfl rfl
    | fatal error =>
      refine guarded.fails rfl ?_ rfl
      change (world.shared.fields.fatalError error).guardGeneration = _
      unfold TxnFields.fatalError TxnFields.resolveTransactionGuard
      split <;> rfl
  | senderFatal _ | recover _ => exact guarded.frame rfl rfl rfl rfl
  | advance index answer before after calls call shared found split advanced =>
    rw [split] at guarded
    refine guarded.effect ?_ (advance_effect advanced)
    intro isBegin ready
    rw [<- split]
    exact undisturbed (isBegin ▸ found) ready
  | cancel index before after call found split waits =>
    have calm := undisturbed call found
    rw [split] at guarded calm
    exact guarded.cancels waits calm
  | dropGuard guard live =>
    refine guarded.drops guard undisturbed (fun _ => id) (abandon_generation _ guard)
      (abandon_same _ guard).opened (abandon_same _ guard).txnState ?_
    rw [alive, (abandon_same _ guard).guards]
    exact ((perm_cons_erase live).append_right _).symm

/-! ## Recovery -/

/-- Recovery is required, or a guard drop is about to ask for it. -/
def Recovering (shared : Shared) : Prop :=
  shared.fields.recoveryRequired = true ∨ 0 < shared.abandoning

/-- The step is not the end of an `init_transactions`. -/
def NoNewInit (world : World) : Act -> Prop
  | .advance index _ => world.calls[index]? ≠ some .initClear
  | _ => True

instance (world : World) (act : Act) : Decidable (NoNewInit world act) := by
  cases act <;> unfold NoNewInit <;> infer_instance

theorem Effect.carries (effect : Effect shared call next calls) : Carries shared call next := by
  cases effect <;> assumption

theorem Recovering.abandon (guard : Nat) (recovering : Recovering shared) :
    Recovering (shared.abandon guard) := by
  rcases recovering with required | pending
  · exact .inl ((shared.abandon_same guard).recoveryRequired.trans required)
  · exact .inr (abandoning_abandon guard pending)

theorem step_recovering {world next : World} {act : Act} (recovering : Recovering world.shared)
    (noNewInit : NoNewInit world act) (step : WorldStep world act next) :
    Recovering next.shared := by
  cases step with
  | init _ | begin | prepare | complete _ | finish _ _ _ | sendRefused _ | senderFatal _ =>
    exact recovering
  | sent outcome accepts =>
    cases outcome with
    | appended | failed | abortable _ => exact recovering
    | fatal error =>
      refine recovering.imp_left fun required => ?_
      change (world.shared.fields.fatalError error).recoveryRequired = true
      unfold TxnFields.fatalError TxnFields.resolveTransactionGuard
      split <;> exact required
  | advance index answer before after calls call shared found split advanced =>
    have carries := (advance_effect advanced).carries
    rcases recovering with required | pending
    · refine .inl (carries.recovery.resolve_left ?_ required)
      exact fun isClear => noNewInit (isClear ▸ found)
    · exact .inr (carries.abandoning ▸ pending)
  | cancel index before after call found split waits =>
    rcases world.shared.unlock_fields call with ⟨same, -, abandoning⟩
    have unlocked : Recovering (world.shared.unlock call) :=
      recovering.imp same.recoveryRequired.trans (abandoning ▸ ·)
    cases call.guard? with
    | none => exact unlocked
    | some guard => exact unlocked.abandon guard
  | dropGuard guard live =>
    have erased : Recovering { world.shared with
        guards := world.shared.guards.erase guard } := recovering
    exact erased.abandon guard
  | recover pending => exact .inl rfl

/-- No send and no begin gets past its check of the recovery flag. -/
structure Refuses (shared : Shared) : Prop where
  recoveryRequired : shared.fields.recoveryRequired = true
  send : sendAccepts shared.fields = false
  begin : forall answer, advance shared .beginFlag answer = some (shared, [])

theorem refuses_of_recovering (recovering : Recovering shared) (finished : shared.abandoning = 0) :
    Refuses shared := by
  have required : shared.fields.recoveryRequired = true := recovering.resolve_right (by omega)
  refine ⟨required, ?_, ?_⟩
  · rw [sendAccepts, required]
    rfl
  · exact fun answer => if_pos required

/-- In a run in which no transaction begins beside a call that has moved the state, and no
guard is dropped beside a call that settles, the drop of a guard asks for recovery exactly
when its transaction is open, and the request stands until an `init_transactions` ends. -/
theorem run_guards_kept (transactionalId : String) (twoPhaseCommitEnabled : Bool)
    (acts : List Act) (world dropped : World) (guard : Nat)
    (ran : Transition.run World.step (World.start transactionalId twoPhaseCommitEnabled) acts =
      some world)
    (undisturbed : Transition.Along World.step Undisturbed
      (World.start transactionalId twoPhaseCommitEnabled) acts)
    (calm : Undisturbed world (.dropGuard guard))
    (drops : world.step (.dropGuard guard) = some dropped) :
    (world.shared.opened = some guard ->
      forall later reached, Transition.run World.step dropped later = some reached ->
        Transition.Along World.step NoNewInit dropped later ->
        reached.shared.abandoning = 0 -> Refuses reached.shared) ∧
      (world.shared.opened ≠ some guard -> dropped.shared.fields = world.shared.fields ∧
          dropped.shared.abandoning = world.shared.abandoning) := by
  have guarded := Transition.run_invariant (fun world => Guarded world.shared world.calls)
    (fun _ _ _ guarded allowed stepped => step_guarded guarded allowed (World.step_inv stepped))
    (guarded_start transactionalId twoPhaseCommitEnabled) undisturbed ran
  cases World.step_inv drops with
  | dropGuard _ live =>
    have member : guard ∈ alive world.shared world.calls := mem_append_left _ live
    constructor
    · intro isOpen later reached ranLater noNewInit finished
      have current : world.shared.fields.guardGeneration = guard :=
        (guarded.opened_generation guard isOpen).resolve_right fun gone => gone.2 member
      have recovering : Recovering ({ world.shared with
          guards := world.shared.guards.erase guard }.abandon guard) := by
        refine .inr ?_
        rw [abandon_of_eq (by exact current)]
        exact Nat.succ_pos _
      exact refuses_of_recovering (Transition.run_invariant (fun world => Recovering world.shared)
        (fun _ _ _ recovering allowed stepped =>
          step_recovering recovering allowed (World.step_inv stepped))
        recovering noNewInit ranLater) finished
    · intro notOpen
      have passed : world.shared.fields.guardGeneration ≠ guard := by
        have isOdd := (guarded.odd guard member).1
        intro same
        cases opened : world.shared.opened with
        | none =>
          have even := guarded.closed opened calm
          omega
        | some current =>
          have differs : current ≠ guard := fun same => notOpen (same ▸ opened)
          have currentOdd := guarded.opened_odd current opened
          have generation := guarded.opened_generation current opened
          omega
      rw [abandon_of_ne (by exact passed)]
      exact ⟨rfl, rfl⟩

theorem run_guards_kept_open :
    Exists fun world => Exists fun dropped => Exists fun reached =>
      Transition.run World.step (World.start "orders" true)
          (initStarted ++ initCompleted ++ transactionBegun) = some world ∧
        world.step (.dropGuard 1) = some dropped ∧
        Transition.run World.step dropped [.recover] = some reached ∧
        world.shared.opened = some 1 ∧ Refuses reached.shared :=
  ⟨_, _, _, rfl, rfl, rfl, rfl, (run_guards_kept "orders" true
    (initStarted ++ initCompleted ++ transactionBegun) _ _ 1 rfl (by decide) (by decide) rfl).1
      rfl [.recover] _ rfl (by decide) rfl⟩

/-- `init_transactions` up to the move of the state, and a whole begin beside it. -/
def beginBesideInit : List Act :=
  initStarted ++ [.advance 0 (.initialized ⟨7, 0⟩ ⟨-1, -1⟩), .advance 0 .failed,
    .advance 0 .failed, .begin, .advance 1 .failed, .advance 1 .failed, .advance 1 .failed]

/-- A `prepare` up to the move of the state. -/
def prepareMoved : List Act :=
  initStarted ++ initCompleted ++ transactionBegun ++ prepareStarted ++
    .advance 0 .flushed :: List.replicate 2 (.advance 0 .failed)

/-- A begin between the last operations of `init_transactions` has its guard let go by that
call: its drop asks for nothing, and the transaction stays open.  A guard that is dropped
between the last operations of `prepare` asks for recovery of a prepared transaction. -/
theorem guard_of_another_call :
    ((Transition.run World.step (World.start "orders" true)
        (beginBesideInit ++ List.replicate 3 (.advance 0 .failed) ++ [.dropGuard 1])).map
      fun world => (world.calls, world.shared.opened, world.shared.abandoning,
        world.shared.fields.txnState, world.shared.fields.recoveryRequired)) =
          some ([], some 1, 0, .inTransaction, false) ∧
      ((Transition.run World.step (World.start "orders" true)
          (prepareMoved ++ [.dropGuard 1, .recover, .advance 0 .failed])).map
        fun world => (world.calls, world.shared.opened, world.shared.abandoning,
          world.shared.fields.txnState, world.shared.fields.recoveryRequired)) =
            some ([], none, 0, .prepared, true) :=
  ⟨rfl, rfl⟩

end TxnCalls
end Producer
end Krabka
