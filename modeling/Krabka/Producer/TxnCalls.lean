import Krabka.Producer.EndTxn
import Krabka.Transition

namespace Krabka
namespace Producer

/-!
# Calls on the transaction of a shared producer

`init_transactions`, `begin_transaction`, `prepare_transaction`, `commit`, `abort` and
`complete_transaction` on one producer, at the granularity of their lock sections and
atomic operations.  A call in progress is a program position with its live variables.
A future that is dropped at an await point leaves the fields as they are, and drops the
guard that it owns.

`opened` is history: the guard generation of the transaction that `begin_transaction`
opened last, until a call moves the state out of that transaction.  No call reads it.
-/

variable {shared : Shared}

namespace TxnCalls

open EndTxn (LoopResult)

/-! ## State -/

/-- What the calls share, beside the calls in progress. -/
structure Shared where
  fields : TxnFields
  twoPhaseCommitEnabled : Bool
  /-- `apply_end_txn` holds the lock of `txn_state` over several operations. -/
  stateLocked : Bool
  /-- The unfinished guards that the application holds. -/
  guards : List Nat
  /-- The guard drops that have taken the generation and not yet asked for recovery. -/
  abandoning : Nat
  opened : Option Nat
deriving DecidableEq, Repr

/-- A call in progress, at the operation it makes next. -/
inductive Call where
  | initCheck (keepPrepared : Bool)
  | initEnter (keepPrepared : Bool)
  | initializing (keepPrepared : Bool) (previous : TxnState)
  | initRestore (previous : TxnState)
  | initStore (recovered : Option Identity)
  | initMove (recovered : Option Identity)
  | initClear
  | beginCheck
  | beginFlag
  | beginEnter
  | prepareCheck
  | prepareFlag
  | prepareEnter
  | preparing
  | prepareRestore
  | prepareStore (prepared : Identity)
  | prepareMove
  | completeCheck (token : Identity)
  | completeEnter (token : Identity)
  | completeRead (token : Identity)
  | endCheck (committed : Bool) (guard : Option Nat)
  | endEnter (committed : Bool) (guard : Option Nat)
  | ending (committed : Bool) (guard : Option Nat) (previous : TxnState)
  | endRestore (guard : Option Nat) (previous : TxnState)
  | endApply (guard : Option Nat) (previous : TxnState) (endTxn : LoopResult)
  | endFinish (guard : Option Nat)
  | endLoad (guard : Option Nat)
  | endCas (guard : Option Nat) (generation : Nat)
  | fatalMove (error : FatalError)
  | fatalStore (guard : Option Nat) (error : FatalError)
  | resolveLoad (guard : Option Nat)
  | resolveCas (guard : Option Nat) (generation : Nat)
deriving DecidableEq, Repr

/-- What a call meets while it waits. -/
inductive Answer where
  | failed
  /-- `InitProducerId` answers a code that leaves the producer as it was. -/
  | refused
  | fatal (error : FatalError)
  | initialized (identity ongoing : Identity)
  | flushed
  | decided (endTxn : LoopResult)
deriving DecidableEq, Repr

namespace Call

/-- The guard that the future of the call owns. -/
def guard? : Call -> Option Nat
  | .endCheck _ guard | .endEnter _ guard | .ending _ guard _ | .endRestore guard _
  | .endApply guard _ _ | .endFinish guard | .endLoad guard | .endCas guard _
  | .fatalStore guard _ | .resolveLoad guard | .resolveCas guard _ => guard
  | _ => none

/-- The call has ended the transaction and has not yet let its guard go.  It meets no
await point before it does. -/
def settling : Call -> Bool
  | .initClear | .endLoad _ | .endCas _ _ | .fatalStore _ _ | .resolveLoad _
  | .resolveCas _ _ => true
  | _ => false

/-- The call has moved the transaction state and has not returned. -/
def moved : Call -> Bool
  | .initCheck _ | .initEnter _ | .beginCheck | .beginFlag | .beginEnter | .prepareCheck
  | .prepareFlag | .prepareEnter | .completeCheck _ | .completeEnter _ | .completeRead _
  | .endCheck _ _ | .endEnter _ _ => false
  | _ => true

end Call

/-! ## One operation of a call -/

def preparedTransactionState (identity : Identity) : Option Identity :=
  if identity.producerId < 0 ∨ identity.producerEpoch < 0 then none else some identity

/-- Whether `init_transactions` goes on past its state check. -/
def initAccepts (fields : TxnFields) : Bool :=
  fields.txnState = .uninitialized || fields.txnState = .ready ||
    fields.txnState = .recoveryRequired || fields.recoveryRequired

/-- Whether `end_transaction` goes on past its state check. -/
def endAccepts (fields : TxnFields) : Bool :=
  fields.txnState = .inTransaction || fields.txnState = .prepared

/-- Whether `complete_transaction` goes on past its state check. -/
def completeAccepts (fields : TxnFields) : Bool := fields.txnState = .prepared

/-- Whether a send appends its record. -/
def sendAccepts (fields : TxnFields) : Bool :=
  fields.recoveryRequired = false && fields.txnError = .none && fields.txnState = .inTransaction

/-- Whether a check of the transactional id and of the stored fatal error fails a call. -/
def barred (fields : TxnFields) : Bool :=
  fields.transactionalId.isNone || fields.txnError.fatal?.isSome

namespace Shared

def moveTo (shared : Shared) (state : TxnState) : Shared :=
  { shared with fields := { shared.fields with txnState := state } }

def closeTo (shared : Shared) (state : TxnState) : Shared :=
  { shared.moveTo state with opened := none }

/-- A failed `commit` or `abort` hands its guard back. -/
def giveBack (shared : Shared) (guard : Option Nat) : Shared :=
  { shared with guards := guard.toList ++ shared.guards }

/-- The compare-exchange of `abandon_transaction_guard`. -/
def abandon (shared : Shared) (guard : Nat) : Shared :=
  if shared.fields.guardGeneration = guard then
    { shared with
      fields := { shared.fields with guardGeneration := guard + 1 }
      abandoning := shared.abandoning + 1 }
  else shared

/-- The compare-exchange of `resolve_transaction_guard`. -/
def resolve (shared : Shared) (generation : Nat) : Shared :=
  if shared.fields.guardGeneration = generation then
    { shared with fields := { shared.fields with guardGeneration := generation + 1 } }
  else shared

/-- The guard inside a dropped future is dropped with it. -/
def abandonHeld (shared : Shared) : Option Nat -> Shared
  | some guard => shared.abandon guard
  | none => shared

/-- A dropped future releases the lock of the state. -/
def unlock (shared : Shared) : Call -> Shared
  | .endFinish _ => { shared with stateLocked := false }
  | _ => shared

end Shared

def recoveredTransaction (keepPrepared : Bool) (ongoing : Identity) : Option (Option Identity) :=
  if keepPrepared ∧ ongoing.producerId ≥ 0 then
    (preparedTransactionState ongoing).map some
  else some none

/-- `apply_end_txn`, up to the operations that it makes after its lock section. -/
def applyEndTxn (shared : Shared) (guard : Option Nat) (previous : TxnState) :
    LoopResult -> Shared × List Call
  | .decided .complete identity =>
    ({ shared with
        stateLocked := true
        fields := { shared.fields with
          pidEpoch := identity.getD shared.fields.pidEpoch } }, [.endFinish guard])
  | .decided .fenced _ => (shared.closeTo .fenced, [.fatalStore guard .fenced])
  | .decided (.fatal code) _ => (shared.closeTo .fatalError, [.fatalStore guard (.server code)])
  | .decided .concurrentTransactions _ | .decided (.timedOut _) _ =>
    ((shared.moveTo previous).giveBack guard, [])
  | .decided (.abortable code) _ =>
    (({ shared with
        fields := { shared.fields with
          txnState := previous
          txnError := shared.fields.txnError.setAbortable code } }).giveBack guard, [])
  | .decided .outcomeUnknown _ | .decided (.retry _) _ | .authenticationFailed =>
    (({ shared with
        fields := { shared.fields.requireTransactionRecovery with
          txnState := .recoveryRequired } }).giveBack guard, [])

/-- The next operation of a call: what it leaves, and the call after it.  A call that waits
for the lock of the state does not move. -/
def advance (shared : Shared) (call : Call) (answer : Answer) : Option (Shared × List Call) :=
  let fields := shared.fields
  match call, answer with
  | .initCheck keepPrepared, _ =>
    if barred fields then some (shared, []) else some (shared, [.initEnter keepPrepared])
  | .initEnter keepPrepared, _ =>
    if shared.stateLocked then none
    else if initAccepts fields then
      some (shared.moveTo .initializing, [.initializing keepPrepared fields.txnState])
    else some (shared, [])
  | .initializing _ previous, .failed =>
    -- A fatal lookup answer has moved the state already.
    if fields.txnError.fatal?.isSome then some (shared, [])
    else some (shared, [.initRestore previous])
  | .initializing _ previous, .refused => some (shared, [.initRestore previous])
  | .initializing _ _, .fatal error => some (shared, [.fatalMove error])
  | .initializing keepPrepared previous, .initialized identity ongoing =>
    match recoveredTransaction keepPrepared ongoing with
    | none => some (shared, [.initRestore previous])
    | some recovered =>
      some ({ shared with fields := { fields with
          pidEpoch := identity
          txnError := fields.txnError.clearAbortable } }, [.initStore recovered])
  | .initRestore previous, _ =>
    if shared.stateLocked then none else some (shared.moveTo previous, [])
  | .initStore recovered, _ =>
    some ({ shared with fields := { fields with preparedTransactionState := recovered } },
      [.initMove recovered])
  | .initMove recovered, _ =>
    if shared.stateLocked then none
    else some (shared.closeTo (if recovered.isSome then .prepared else .ready), [.initClear])
  | .initClear, _ =>
    some ({ shared with fields := { fields with recoveryRequired := false } },
      [.resolveLoad none])
  | .beginCheck, _ => if barred fields then some (shared, []) else some (shared, [.beginFlag])
  | .beginFlag, _ =>
    if fields.recoveryRequired then some (shared, []) else some (shared, [.beginEnter])
  | .beginEnter, _ =>
    if shared.stateLocked then none
    else if fields.txnState = .ready then
      some ({ shared with
        fields := { fields with
          txnState := .inTransaction
          guardGeneration := fields.guardGeneration + 1 }
        guards := (fields.guardGeneration + 1) :: shared.guards
        opened := some (fields.guardGeneration + 1) }, [])
    else some (shared, [])
  | .prepareCheck, _ =>
    if barred fields || !shared.twoPhaseCommitEnabled then some (shared, [])
    else some (shared, [.prepareFlag])
  | .prepareFlag, _ =>
    if fields.recoveryRequired then some (shared, []) else some (shared, [.prepareEnter])
  | .prepareEnter, _ =>
    if shared.stateLocked then none
    else if fields.txnState = .inTransaction then
      some (shared.moveTo .preparing, [.preparing])
    else some (shared, [])
  | .preparing, .failed => some (shared, [.prepareRestore])
  | .preparing, .flushed =>
    if fields.txnError ≠ .none then some (shared, [.prepareRestore])
    else match preparedTransactionState fields.pidEpoch with
      | none => some (shared, [.prepareRestore])
      | some prepared => some (shared, [.prepareStore prepared])
  | .prepareRestore, _ =>
    if shared.stateLocked then none else some (shared.moveTo .inTransaction, [])
  | .prepareStore prepared, _ =>
    some ({ shared with fields := { fields with preparedTransactionState := some prepared } },
      [.prepareMove])
  | .prepareMove, _ =>
    if shared.stateLocked then none else some (shared.closeTo .prepared, [.resolveLoad none])
  | .completeCheck token, _ =>
    if fields.txnError.fatal?.isSome then some (shared, [])
    else some (shared, [.completeEnter token])
  | .completeEnter token, _ =>
    if shared.stateLocked then none
    else if completeAccepts fields then some (shared, [.completeRead token])
    else some (shared, [])
  | .completeRead token, _ =>
    some (shared, [.endCheck (fields.preparedTransactionState = some token) none])
  | .endCheck committed guard, _ =>
    if barred fields then some (shared.giveBack guard, [])
    else some (shared, [.endEnter committed guard])
  | .endEnter committed guard, _ =>
    if shared.stateLocked then none
    else if endAccepts fields then
      some (shared.moveTo .committingOrAborting, [.ending committed guard fields.txnState])
    else some (shared.giveBack guard, [])
  | .ending _ guard previous, .failed => some (shared, [.endRestore guard previous])
  | .ending _ guard previous, .decided endTxn => some (shared, [.endApply guard previous endTxn])
  | .endRestore guard previous, _ =>
    if shared.stateLocked then none else some ((shared.moveTo previous).giveBack guard, [])
  | .endApply guard previous endTxn, _ =>
    if shared.stateLocked then none else some (applyEndTxn shared guard previous endTxn)
  | .endFinish guard, _ =>
    some ({ shared with fields := { fields with
        preparedTransactionState := none
        txnError := fields.txnError.clearAbortable } }.closeTo .ready, [.endLoad guard])
  | .endLoad guard, _ =>
    if fields.guardGeneration % 2 = 1 then
      some (shared, [.endCas guard fields.guardGeneration])
    else some ({ shared with stateLocked := false }, [])
  | .endCas _ generation, _ => some ({ shared.resolve generation with stateLocked := false }, [])
  | .fatalMove error, _ =>
    if shared.stateLocked then none
    else some (shared.closeTo error.state, [.fatalStore none error])
  | .fatalStore guard error, _ =>
    some ({ shared with fields := { fields with txnError := .fatal error } },
      [.resolveLoad guard])
  | .resolveLoad guard, _ =>
    if fields.guardGeneration % 2 = 1 then
      some (shared, [.resolveCas guard fields.guardGeneration])
    else some (shared.giveBack guard, [])
  | .resolveCas guard generation, _ => some ((shared.resolve generation).giveBack guard, [])
  | _, _ => none

/-! ## The system -/

structure World where
  shared : Shared
  calls : List Call
deriving DecidableEq, Repr

/-- What a send leaves behind.  It holds the lock of the state from its check on. -/
inductive SendOutcome where
  | appended
  | failed
  | abortable (code : Int)
  | fatal (error : FatalError)
deriving DecidableEq, Repr

inductive Act where
  | init (keepPrepared : Bool)
  | begin
  | prepare
  | finish (committed : Bool) (guard : Nat)
  | complete (token : Identity)
  | send (outcome : SendOutcome)
  | senderFatal (error : FatalError)
  | advance (index : Nat) (answer : Answer)
  /-- The future of a call is dropped. -/
  | cancel (index : Nat)
  | dropGuard (guard : Nat)
  /-- A guard drop asks for recovery. -/
  | recover
deriving DecidableEq, Repr

/-- The fields after a send that the producer accepts. -/
def sendFields (fields : TxnFields) : SendOutcome -> TxnFields
  | .appended | .failed => fields
  | .abortable code => { fields with txnError := fields.txnError.setAbortable code }
  | .fatal error => { fields.fatalError error with txnState := error.state }

namespace World

def start (transactionalId : String) (twoPhaseCommitEnabled : Bool) : World where
  shared :=
    { fields := ⟨some transactionalId, .uninitialized, .none, false, 0, 0, none, ⟨-1, -1⟩⟩
      twoPhaseCommitEnabled := twoPhaseCommitEnabled
      stateLocked := false
      guards := []
      abandoning := 0
      opened := none }
  calls := []

def call (world : World) (call : Call) : World := { world with calls := world.calls ++ [call] }

/-- Put `calls` in the place of the call at `index`. -/
def replace (world : World) (index : Nat) (calls : List Call) : World :=
  { world with calls := world.calls.take index ++ calls ++ world.calls.drop (index + 1) }

def step (world : World) : Act -> Option World
  | .init keepPrepared => some (world.call (.initCheck keepPrepared))
  | .begin => some (world.call .beginCheck)
  | .prepare => some (world.call .prepareCheck)
  | .finish committed guard =>
    if guard ∈ world.shared.guards then
      some ({ world with shared := { world.shared with
        guards := world.shared.guards.erase guard } }.call (.endCheck committed (some guard)))
    else none
  | .complete token => some (world.call (.completeCheck token))
  | .send outcome =>
    if world.shared.stateLocked then none
    else if sendAccepts world.shared.fields then
      some { world with shared := { world.shared with
        fields := sendFields world.shared.fields outcome
        opened := match outcome with
          | .fatal _ => none
          | _ => world.shared.opened } }
    else some world
  | .senderFatal error =>
    some { world with shared := { world.shared with
      fields := { world.shared.fields with txnError := .fatal error } } }
  | .advance index answer =>
    (world.calls[index]?).bind fun call =>
      (TxnCalls.advance world.shared call answer).map fun moved =>
        { world with shared := moved.1 }.replace index moved.2
  | .cancel index =>
    (world.calls[index]?).bind fun call =>
      if call.settling then none
      else
        some ({ world with
          shared := (world.shared.unlock call).abandonHeld call.guard? }.replace index [])
  | .dropGuard guard =>
    if guard ∈ world.shared.guards then
      some { world with shared := { world.shared with
        guards := world.shared.guards.erase guard }.abandon guard }
    else none
  | .recover =>
    if world.shared.abandoning = 0 then none
    else some { world with shared := { world.shared with
      fields := world.shared.fields.requireTransactionRecovery
      abandoning := world.shared.abandoning - 1 } }

end World

/-! ## Small facts -/

theorem setAbortable_isSome {old : TxnError} (code : Int) (fatal : old.fatal?.isSome = true) :
    (old.setAbortable code).fatal?.isSome = true := by
  cases old with
  | fatal error => rfl
  | _ => cases fatal

theorem of_unlocked {locked : Bool} {result : Option (Shared × List Call)}
    {moved : Shared × List Call} (stepped : (if locked then none else result) = some moved) :
    result = some moved := by
  cases locked with
  | true => cases stepped
  | false => exact stepped

@[elab_as_elim]
theorem of_branch {condition : Prop} [Decidable condition] {yes no : Shared × List Call}
    {next : Shared} {calls : List Call} {motive : Shared -> List Call -> Prop}
    (stepped : (if condition then some yes else some no) = some (next, calls))
    (first : condition -> motive yes.1 yes.2) (second : ¬condition -> motive no.1 no.2) :
    motive next calls := by
  split_ifs at stepped with isFirst <;> cases stepped
  · exact first isFirst
  · exact second isFirst

namespace Shared

/-- What a compare-exchange on the guard generation leaves alone. -/
structure SameButGeneration (shared next : Shared) : Prop where
  txnState : next.fields.txnState = shared.fields.txnState
  txnError : next.fields.txnError = shared.fields.txnError
  recoveryRequired : next.fields.recoveryRequired = shared.fields.recoveryRequired
  guards : next.guards = shared.guards
  opened : next.opened = shared.opened

section

variable (shared : Shared)

theorem resolve_same (generation : Nat) :
    SameButGeneration shared (shared.resolve generation) ∧
      (shared.resolve generation).abandoning = shared.abandoning := by
  unfold resolve
  split
  · exact ⟨⟨rfl, rfl, rfl, rfl, rfl⟩, rfl⟩
  · exact ⟨⟨rfl, rfl, rfl, rfl, rfl⟩, rfl⟩

theorem abandon_same (guard : Nat) :
    SameButGeneration shared (shared.abandon guard) := by
  unfold abandon
  split
  · exact ⟨rfl, rfl, rfl, rfl, rfl⟩
  · exact ⟨rfl, rfl, rfl, rfl, rfl⟩

theorem unlock_fields (call : Call) :
    SameButGeneration shared (shared.unlock call) ∧
      (shared.unlock call).fields.guardGeneration = shared.fields.guardGeneration ∧
      (shared.unlock call).abandoning = shared.abandoning := by
  cases call <;> exact ⟨⟨rfl, rfl, rfl, rfl, rfl⟩, rfl, rfl⟩

end

theorem abandon_of_eq {guard : Nat} (same : shared.fields.guardGeneration = guard) :
    (shared.abandon guard).abandoning = shared.abandoning + 1 := by
  rw [abandon, if_pos same]

theorem abandon_of_ne {guard : Nat} (differs : shared.fields.guardGeneration ≠ guard) :
    shared.abandon guard = shared :=
  if_neg differs

theorem abandoning_abandon (guard : Nat) (pending : 0 < shared.abandoning) :
    0 < (shared.abandon guard).abandoning := by
  by_cases taken : shared.fields.guardGeneration = guard
  · rw [abandon_of_eq taken]
    exact Nat.succ_pos _
  · rw [abandon_of_ne taken]
    exact pending

end Shared

/-! ## What a step does -/

/-- The steps of the system, one constructor for each way an act goes. -/
inductive WorldStep (world : World) : Act -> World -> Prop where
  | init (keepPrepared : Bool) :
      WorldStep world (.init keepPrepared) (world.call (.initCheck keepPrepared))
  | begin : WorldStep world .begin (world.call .beginCheck)
  | prepare : WorldStep world .prepare (world.call .prepareCheck)
  | finish (committed : Bool) (guard : Nat) (live : guard ∈ world.shared.guards) :
      WorldStep world (.finish committed guard)
        ⟨{ world.shared with guards := world.shared.guards.erase guard },
          world.calls ++ [.endCheck committed (some guard)]⟩
  | complete (token : Identity) :
      WorldStep world (.complete token) (world.call (.completeCheck token))
  | sendRefused (outcome : SendOutcome) : WorldStep world (.send outcome) world
  | sent (outcome : SendOutcome) (accepts : sendAccepts world.shared.fields = true) :
      WorldStep world (.send outcome)
        ⟨{ world.shared with
            fields := sendFields world.shared.fields outcome
            opened := match outcome with
              | .fatal _ => none
              | _ => world.shared.opened }, world.calls⟩
  | senderFatal (error : FatalError) :
      WorldStep world (.senderFatal error)
        ⟨{ world.shared with fields := { world.shared.fields with txnError := .fatal error } },
          world.calls⟩
  | advance (index : Nat) (answer : Answer) (before after calls : List Call) (call : Call)
      (shared : Shared) (found : world.calls[index]? = some call)
      (split : world.calls = before ++ call :: after)
      (advanced : TxnCalls.advance world.shared call answer = some (shared, calls)) :
      WorldStep world (.advance index answer) ⟨shared, before ++ calls ++ after⟩
  | cancel (index : Nat) (before after : List Call) (call : Call)
      (found : world.calls[index]? = some call) (split : world.calls = before ++ call :: after)
      (waits : call.settling = false) :
      WorldStep world (.cancel index)
        ⟨(world.shared.unlock call).abandonHeld call.guard?, before ++ after⟩
  | dropGuard (guard : Nat) (live : guard ∈ world.shared.guards) :
      WorldStep world (.dropGuard guard)
        ⟨{ world.shared with guards := world.shared.guards.erase guard }.abandon guard,
          world.calls⟩
  | recover (pending : world.shared.abandoning ≠ 0) :
      WorldStep world .recover
        ⟨{ world.shared with
            fields := world.shared.fields.requireTransactionRecovery
            abandoning := world.shared.abandoning - 1 }, world.calls⟩

theorem split_at_index {calls : List Call} {index : Nat} {call : Call}
    (found : calls[index]? = some call) :
    calls = calls.take index ++ call :: calls.drop (index + 1) := by
  rcases List.getElem?_eq_some_iff.mp found with ⟨bound, same⟩
  rw [<- same, List.getElem_cons_drop, List.take_append_drop]

theorem World.step_inv {world next : World} {act : Act} (stepped : world.step act = some next) :
    WorldStep world act next := by
  cases act with
  | init keepPrepared => exact Option.some.inj stepped ▸ .init keepPrepared
  | begin => exact Option.some.inj stepped ▸ .begin
  | prepare => exact Option.some.inj stepped ▸ .prepare
  | complete token => exact Option.some.inj stepped ▸ .complete token
  | senderFatal error => exact Option.some.inj stepped ▸ .senderFatal error
  | finish committed guard =>
    simp only [step] at stepped
    split at stepped
    · exact Option.some.inj stepped ▸ .finish committed guard ‹_›
    · cases stepped
  | send outcome =>
    simp only [step] at stepped
    split at stepped
    · cases stepped
    · split at stepped
      · exact Option.some.inj stepped ▸ .sent outcome ‹_›
      · exact Option.some.inj stepped ▸ .sendRefused outcome
  | advance index answer =>
    rcases Option.bind_eq_some_iff.mp stepped with ⟨call, found, advanced⟩
    rcases Option.map_eq_some_iff.mp advanced with ⟨⟨shared, calls⟩, operated, same⟩
    rw [<- same]
    exact .advance index answer _ _ calls call shared found (split_at_index found) operated
  | cancel index =>
    rcases Option.bind_eq_some_iff.mp stepped with ⟨call, found, dropped⟩
    split at dropped
    · cases dropped
    · rename_i waits
      rw [<- Option.some.inj dropped, replace, List.append_nil]
      exact .cancel index _ _ call found (split_at_index found) (Bool.eq_false_iff.mpr waits)
  | dropGuard guard =>
    simp only [step] at stepped
    split at stepped
    · exact Option.some.inj stepped ▸ .dropGuard guard ‹_›
    · cases stepped
  | recover =>
    simp only [step] at stepped
    split at stepped
    · cases stepped
    · exact Option.some.inj stepped ▸ .recover ‹_›

/-! ## The acts of one undisturbed call -/

/-- `init_transactions` up to the end of its request. -/
def initStarted : List Act :=
  [.init false, .advance 0 .failed, .advance 0 .failed]

/-- The rest of a successful `init_transactions`. -/
def initCompleted : List Act :=
  .advance 0 (.initialized ⟨7, 0⟩ ⟨-1, -1⟩) :: List.replicate 4 (.advance 0 .failed)

def transactionBegun : List Act := .begin :: List.replicate 3 (.advance 0 .failed)

/-- `prepare` up to its flush. -/
def prepareStarted : List Act := .prepare :: List.replicate 3 (.advance 0 .failed)

/-- The rest of a successful `prepare`. -/
def prepareCompleted : List Act := .advance 0 .flushed :: List.replicate 4 (.advance 0 .failed)

end TxnCalls
end Producer
end Krabka
