import Krabka.Producer.TxnCalls

namespace Krabka
namespace Producer
namespace TxnCalls

open List Shared

/-!
# Recovery after a dropped future

One call at a time on the producer, each of which may be dropped while it waits.  A
call that has moved the transaction state to a transient value moves it back on each
of its return paths, and on no other path.  What is left after a drop is therefore
covered by the guard that the dropped future owned, or by nothing.
-/

/-- Some call gets the producer out of this state: a new `init_transactions`, `commit` or
`abort` on the guard of the open transaction, or `complete_transaction`. -/
def Recoverable (shared : Shared) : Prop :=
  initAccepts shared.fields = true ∨
    (Exists fun guard => guard ∈ shared.guards ∧ shared.opened = some guard ∧
      shared.fields.guardGeneration = guard ∧ endAccepts shared.fields = true) ∨
    completeAccepts shared.fields = true
deriving Decidable

/-- A call starts when no other call runs. -/
def OneAtATime (world : World) : Act -> Prop
  | .init _ | .begin | .prepare | .finish _ _ | .complete _ | .send _ => world.calls = []
  | .senderFatal _ | .advance _ _ | .cancel _ | .dropGuard _ | .recover => True

/-- A call is dropped before it moves the state, or while the producer is recovery-required
or fatal already, or together with the guard of the open transaction. -/
def CoveredDrop (world : World) : Act -> Prop
  | .cancel index => forall call, world.calls[index]? = some call -> call.moved = true ->
      world.shared.fields.recoveryRequired = true ∨
        world.shared.fields.txnError.fatal?.isSome = true ∨
        call.guard? = some world.shared.fields.guardGeneration
  | _ => True

instance (world : World) : (act : Act) -> Decidable (OneAtATime world act)
  | .init _ | .begin | .prepare | .finish _ _ | .complete _ | .send _ =>
    inferInstanceAs (Decidable (world.calls = []))
  | .senderFatal _ | .advance _ _ | .cancel _ | .dropGuard _ | .recover =>
    inferInstanceAs (Decidable True)

instance (world : World) : (act : Act) -> Decidable (CoveredDrop world act)
  | .cancel index => inferInstanceAs (Decidable (forall call, world.calls[index]? = some call ->
      call.moved = true -> world.shared.fields.recoveryRequired = true ∨
        world.shared.fields.txnError.fatal?.isSome = true ∨
        call.guard? = some world.shared.fields.guardGeneration))
  | .init _ | .begin | .prepare | .finish _ _ | .complete _ | .send _ | .senderFatal _
  | .advance _ _ | .dropGuard _ | .recover => inferInstanceAs (Decidable True)

/-! ## What holds between and inside calls -/

/-- Recovery is required or on its way, or the producer has failed for good. -/
def Safe (shared : Shared) : Prop :=
  shared.fields.recoveryRequired = true ∨ 0 < shared.abandoning ∨
    shared.fields.txnError.fatal?.isSome = true

def Anchored (shared : Shared) (held : Option Nat) : Prop :=
  shared.opened = some shared.fields.guardGeneration ∧
    (shared.fields.guardGeneration ∈ shared.guards ∨ held = some shared.fields.guardGeneration)

/-- `state` is one that some call leaves.  `held` is the guard inside the future of the
running call. -/
def Rests (shared : Shared) (held : Option Nat) (state : TxnState) : Prop :=
  state = .uninitialized ∨ state = .ready ∨ state = .recoveryRequired ∨ state = .prepared ∨
    (state = .inTransaction ∧ Anchored shared held)

/-- The producer can be left in `state`. -/
def Covered (shared : Shared) (held : Option Nat) (state : TxnState) : Prop :=
  Safe shared ∨ Rests shared held state

/-- The transaction is over, and `state` says so. -/
def Settled (state : TxnState) : Prop := state = .ready ∨ state = .prepared

/-- The producer while `call` runs.  The state to restore is one that the producer can rest
in, unless recovery covers the call. -/
def Sound (shared : Shared) : Call -> Prop
  | .initializing _ previous | .initRestore previous => Covered shared none previous
  | .preparing | .prepareRestore => Covered shared none .inTransaction
  | .ending _ guard previous | .endRestore guard previous | .endApply guard previous _ =>
    Covered shared guard previous
  | .initStore _ | .initMove _ | .prepareStore _ | .prepareMove | .endFinish _ | .fatalMove _
  | .fatalStore _ _ => True
  -- The next operation clears the recovery flag, so the state has to be good without it.
  | .initClear => Settled shared.fields.txnState
  | .endLoad _ | .endCas _ _ | .resolveLoad _ | .resolveCas _ _ =>
    Safe shared ∨ Settled shared.fields.txnState
  | call => Covered shared call.guard? shared.fields.txnState

/-- At most one call runs, and the producer is as that call left it. -/
inductive Kept : World -> Prop where
  | quiet (shared : Shared) (covered : Covered shared none shared.fields.txnState) :
      Kept ⟨shared, []⟩
  | running (shared : Shared) (call : Call) (sound : Sound shared call) : Kept ⟨shared, [call]⟩

variable {shared : Shared} {state : TxnState}

theorem Settled.rests (settled : Settled state) (held : Option Nat) : Rests shared held state := by
  rcases settled with ready | prepared
  · exact .inr (.inl ready)
  · exact .inr (.inr (.inr (.inl prepared)))

variable {held : Option Nat}

theorem Rests.imp {next : Shared} {kept : Option Nat}
    (anchored : Anchored shared held -> Anchored next kept) (rests : Rests shared held state) :
    Rests next kept state := by
  rcases rests with first | second | third | fourth | ⟨inTransaction, anchor⟩
  · exact .inl first
  · exact .inr (.inl second)
  · exact .inr (.inr (.inl third))
  · exact .inr (.inr (.inr (.inl fourth)))
  · exact .inr (.inr (.inr (.inr ⟨inTransaction, anchored anchor⟩)))

/-- The guard of a call that fails goes back to the application. -/
theorem Anchored.giveBack {shared : Shared} {held : Option Nat}
    (anchored : Anchored shared held) : Anchored (shared.giveBack held) none := by
  refine ⟨anchored.1, .inl ?_⟩
  rcases anchored.2 with member | same
  · exact mem_append_right _ member
  · exact mem_append_left _ (Option.mem_toList.mpr same)

/-- A call takes its guard from the application. -/
theorem Anchored.take {shared : Shared} (guard : Nat) (anchored : Anchored shared none) :
    Anchored { shared with guards := shared.guards.erase guard } (some guard) := by
  refine ⟨anchored.1, ?_⟩
  rcases anchored.2 with member | same
  · by_cases taken : shared.fields.guardGeneration = guard
    · exact .inr (congrArg some taken.symm)
    · exact .inl ((mem_erase_of_ne taken).mpr member)
  · cases same

/-! ## One operation -/

/-- A call that fails hands its guard back, and restores `state`. -/
theorem kept_giveBack (covered : Covered shared held state) :
    Kept ⟨(shared.moveTo state).giveBack held, []⟩ :=
  .quiet _ (covered.imp id (Rests.imp (@Anchored.giveBack (shared.moveTo state) held)))

theorem applyEndTxn_kept {guard : Option Nat} {previous : TxnState} (endTxn : EndTxn.LoopResult)
    (covered : Covered shared guard previous) :
    Kept ⟨(applyEndTxn shared guard previous endTxn).1,
      (applyEndTxn shared guard previous endTxn).2⟩ := by
  cases endTxn with
  | authenticationFailed => exact .quiet _ (.inl (.inl rfl))
  | decided decision identity =>
    cases decision with
    | complete => exact .running _ _ trivial
    | fenced | fatal _ => exact .running _ _ trivial
    | concurrentTransactions | timedOut _ => exact kept_giveBack covered
    | abortable code =>
      refine .quiet _ ?_
      rcases covered with (required | pending | fatal) | rests
      · exact .inl (.inl required)
      · exact .inl (.inr (.inl pending))
      · exact .inl (.inr (.inr (setAbortable_isSome code fatal)))
      · exact .inr (rests.imp Anchored.giveBack)
    | outcomeUnknown | retry _ => exact .quiet _ (.inl (.inl rfl))

theorem resolve_settled (generation : Nat) (settled : Safe shared ∨ Settled shared.fields.txnState) :
    Safe (shared.resolve generation) ∨ Settled (shared.resolve generation).fields.txnState := by
  rcases shared.resolve_same generation with ⟨same, abandoning⟩
  unfold Safe
  rw [same.txnState, same.txnError, same.recoveryRequired, abandoning]
  exact settled

/-- `init_transactions` starts from a state it can restore. -/
theorem rests_of_initAccepts (accepts : initAccepts shared.fields = true) :
    Covered shared none shared.fields.txnState := by
  simp only [initAccepts, Bool.or_eq_true, decide_eq_true_eq] at accepts
  rcases accepts with ((uninitialized | ready) | recoveryRequired) | required
  · exact .inr (.inl uninitialized)
  · exact .inr (.inr (.inl ready))
  · exact .inr (.inr (.inr (.inl recoveryRequired)))
  · exact .inl (.inl required)

/-- An operation leaves what the rest of its call, or the application after it, can go on
from. -/
theorem advance_kept {next : Shared} {call : Call} {answer : Answer} {calls : List Call}
    (sound : Sound shared call) (moved : advance shared call answer = some (next, calls)) :
    Kept ⟨next, calls⟩ := by
  cases call with
  | initCheck _ | beginCheck | beginFlag | prepareCheck | prepareFlag | completeCheck _ =>
    exact of_branch moved (fun _ => .quiet _ sound) fun _ => .running _ _ sound
  | initEnter keepPrepared =>
    exact of_branch (of_unlocked moved)
      (fun accepts => .running _ _ (rests_of_initAccepts accepts)) fun _ => .quiet _ sound
  | initializing keepPrepared previous =>
    cases answer with
    | failed =>
      exact of_branch moved (fun fatal => .quiet _ (.inl (.inr (.inr fatal))))
        fun _ => .running _ _ sound
    | refused =>
      cases moved
      exact .running _ _ sound
    | fatal error =>
      cases moved
      exact .running _ _ trivial
    | initialized identity ongoing =>
      dsimp only [advance] at moved
      split at moved <;> cases moved
      · exact .running _ _ sound
      · exact .running _ _ trivial
    | flushed | decided _ => cases moved
  | initRestore _ | prepareRestore =>
    cases of_unlocked moved
    exact .quiet _ sound
  | initStore _ | prepareStore _ =>
    cases moved
    exact .running _ _ trivial
  | initMove recovered =>
    cases of_unlocked moved
    refine .running _ _ ?_
    cases recovered with
    | none => exact .inl rfl
    | some _ => exact .inr rfl
  | initClear =>
    cases moved
    exact .running _ _ (.inr sound)
  | beginEnter =>
    refine of_branch (of_unlocked moved) (fun _ => ?_) fun _ => .quiet _ sound
    exact .quiet _ (.inr (.inr (.inr (.inr (.inr ⟨rfl, rfl, .inl mem_cons_self⟩)))))
  | prepareEnter =>
    refine of_branch (of_unlocked moved) (fun inTransaction => ?_) fun _ => .quiet _ sound
    refine .running _ _ (sound.imp_right fun rests => ?_)
    rwa [inTransaction] at rests
  | preparing =>
    cases answer with
    | failed =>
      cases moved
      exact .running _ _ sound
    | flushed =>
      dsimp only [advance] at moved
      split at moved
      · cases moved
        exact .running _ _ sound
      · split at moved <;> cases moved
        · exact .running _ _ sound
        · exact .running _ _ trivial
    | refused | fatal _ | initialized _ _ | decided _ => cases moved
  | prepareMove =>
    cases of_unlocked moved
    exact .running _ _ (.inr (.inr rfl))
  | completeEnter token =>
    exact of_branch (of_unlocked moved) (fun _ => .running _ _ sound) fun _ => .quiet _ sound
  | completeRead token =>
    cases moved
    exact .running _ _ sound
  | endCheck committed guard =>
    exact of_branch moved (fun _ => kept_giveBack sound) fun _ => .running _ _ sound
  | endEnter committed guard =>
    exact of_branch (of_unlocked moved) (fun _ => .running _ _ sound) fun _ => kept_giveBack sound
  | ending committed guard previous =>
    cases answer with
    | failed | decided =>
      cases moved
      exact .running _ _ sound
    | refused | fatal _ | initialized _ _ | flushed => cases moved
  | endRestore guard previous =>
    cases of_unlocked moved
    exact kept_giveBack sound
  | endApply guard previous endTxn =>
    have kept := applyEndTxn_kept endTxn sound
    rwa [Option.some.inj (of_unlocked moved)] at kept
  | endFinish guard =>
    cases moved
    exact .running _ _ (.inr (.inl rfl))
  | endLoad _ | resolveLoad _ =>
    exact of_branch moved (fun _ => .running _ _ sound) fun _ =>
      .quiet _ (sound.imp_right (Settled.rests · none))
  | endCas _ generation | resolveCas _ generation =>
    cases moved
    exact .quiet _ ((resolve_settled generation sound).imp_right (Settled.rests · none))
  | fatalMove error =>
    cases of_unlocked moved
    exact .running _ _ trivial
  | fatalStore guard error =>
    cases moved
    exact .running _ _ (.inl (.inr (.inr rfl)))

/-! ## Guards and futures that are dropped -/

/-- What a running call needs carries over to a producer with the same transaction state
that is as well covered as before. -/
theorem Sound.mono {shared next : Shared} {call : Call}
    (state : next.fields.txnState = shared.fields.txnState) (safe : Safe shared -> Safe next)
    (anchored : forall held, Anchored shared held -> Safe next ∨ Anchored next held)
    (sound : Sound shared call) : Sound next call := by
  have covers (held : Option Nat) (previous : TxnState) (covered : Covered shared held previous) :
      Covered next held previous := by
    rcases covered with isSafe | rests
    · exact .inl (safe isSafe)
    · by_cases nextSafe : Safe next
      · exact .inl nextSafe
      · exact .inr (rests.imp fun anchor => (anchored held anchor).resolve_left nextSafe)
  have settles (settled : Safe shared ∨ Settled shared.fields.txnState) :
      Safe next ∨ Settled next.fields.txnState := by
    rw [state]
    exact settled.imp_left safe
  cases call with
  | initStore _ | initMove _ | prepareStore _ | prepareMove | endFinish _ | fatalMove _
  | fatalStore _ _ => trivial
  | initClear =>
    unfold Sound
    rwa [state]
  | endLoad _ | endCas _ _ | resolveLoad _ | resolveCas _ _ => exact settles sound
  | initializing _ _ | initRestore _ | preparing | prepareRestore | ending _ _ _
  | endRestore _ _ | endApply _ _ _ => exact covers _ _ sound
  | _ =>
    unfold Sound
    rw [state]
    exact covers _ _ sound

/-- A guard drop takes the generation of the open transaction, or leaves the producer as
it was. -/
theorem Anchored.drop {shared : Shared} {held : Option Nat} (guard : Nat)
    (anchored : Anchored shared held) :
    Safe ({ shared with guards := shared.guards.erase guard }.abandon guard) ∨
      Anchored ({ shared with guards := shared.guards.erase guard }.abandon guard) held := by
  by_cases same : shared.fields.guardGeneration = guard
  · refine .inl (.inr (.inl ?_))
    rw [abandon_of_eq (by exact same)]
    exact Nat.succ_pos _
  · rw [abandon_of_ne (by exact same)]
    refine .inr ⟨anchored.1, anchored.2.imp_left fun member => ?_⟩
    exact (mem_erase_of_ne same).mpr member

theorem Safe.abandon (guard : Nat) (safe : Safe shared) :
    Safe (shared.abandon guard) := by
  have same := shared.abandon_same guard
  rcases safe with required | pending | fatal
  · exact .inl (same.recoveryRequired.trans required)
  · exact .inr (.inl (abandoning_abandon guard pending))
  · refine .inr (.inr ?_)
    rw [same.txnError]
    exact fatal

theorem sound_of_not_moved {call : Call} (notMoved : call.moved = false) (sound : Sound shared call) :
    Covered shared call.guard? shared.fields.txnState := by
  cases call <;> first | exact sound | cases notMoved

theorem unlock_of_not_moved {call : Call} (notMoved : call.moved = false) :
    shared.unlock call = shared := by
  cases call <;> first | rfl | cases notMoved

/-- The producer rests with the guard that a dropped future owned, or recovers from its
drop. -/
theorem Covered.abandonHeld (covered : Covered shared held state) :
    Covered (shared.abandonHeld held) none state := by
  cases held with
  | none => exact covered
  | some guard =>
    by_cases taken : shared.fields.guardGeneration = guard
    · refine .inl (.inr (.inl ?_))
      change 0 < (shared.abandon guard).abandoning
      rw [abandon_of_eq taken]
      exact Nat.succ_pos _
    · change Covered (shared.abandon guard) none state
      rw [abandon_of_ne taken]
      refine covered.imp_right (Rests.imp fun anchored => ⟨anchored.1, ?_⟩)
      exact anchored.2.imp_right fun same => absurd (Option.some.inj same).symm taken

/-- A future that is dropped after it moved the state leaves a producer that recovers. -/
theorem safe_of_covered_drop {call : Call} (covered : shared.fields.recoveryRequired = true ∨
      shared.fields.txnError.fatal?.isSome = true ∨
      call.guard? = some shared.fields.guardGeneration) :
    Safe ((shared.unlock call).abandonHeld call.guard?) := by
  rcases shared.unlock_fields call with ⟨same, generation, abandoning⟩
  have abandons (safe : Safe (shared.unlock call)) :
      Safe ((shared.unlock call).abandonHeld call.guard?) := by
    cases call.guard? with
    | none => exact safe
    | some guard => exact safe.abandon guard
  rcases covered with required | fatal | held
  · exact abandons (.inl (same.recoveryRequired.trans required))
  · refine abandons (.inr (.inr ?_))
    rw [same.txnError]
    exact fatal
  · rw [held]
    refine .inr (.inl ?_)
    change 0 < ((shared.unlock call).abandon _).abandoning
    rw [abandon_of_eq generation]
    exact Nat.succ_pos _

theorem Shared.abandonHeld_txnState (shared : Shared) (held : Option Nat) :
    (shared.abandonHeld held).fields.txnState = shared.fields.txnState := by
  cases held with
  | none => rfl
  | some guard => exact (shared.abandon_same guard).txnState

theorem singleton_split {running call : Call} {before after : List Call}
    (split : [running] = before ++ call :: after) : running = call ∧ before = [] ∧ after = [] := by
  cases before with
  | nil =>
    cases split
    exact ⟨rfl, rfl, rfl⟩
  | cons head tail =>
    have tooLong := congrArg List.length split
    simp only [length_cons, length_append, length_nil] at tooLong
    omega

/-! ## Runs -/

theorem kept_start (transactionalId : String) (twoPhaseCommitEnabled : Bool) :
    Kept (World.start transactionalId twoPhaseCommitEnabled) :=
  .quiet _ (.inr (.inl rfl))

/-- A change of the producer that no call makes. -/
theorem Kept.mono {shared next : Shared} {calls : List Call} (kept : Kept ⟨shared, calls⟩)
    (state : next.fields.txnState = shared.fields.txnState) (safe : Safe shared -> Safe next)
    (anchored : forall held, Anchored shared held -> Safe next ∨ Anchored next held) :
    Kept ⟨next, calls⟩ := by
  cases kept with
  | quiet _ covered =>
    -- The check of `begin_transaction` needs what an idle producer needs.
    exact .quiet _ (@Sound.mono shared next .beginCheck state safe anchored covered)
  | running _ call sound => exact .running _ _ (sound.mono state safe anchored)

/-- A new call finds an idle producer. -/
theorem Kept.call {world : World} (kept : Kept world) (idle : world.calls = []) {call : Call}
    (sound : Covered world.shared none world.shared.fields.txnState -> Sound world.shared call) :
    Kept (world.call call) := by
  cases kept with
  | quiet shared covered => exact .running _ _ (sound covered)
  | running _ _ _ => cases idle

theorem sendFields_kept (outcome : SendOutcome)
    (covered : Covered shared none shared.fields.txnState) :
    Kept ⟨{ shared with
      fields := sendFields shared.fields outcome
      opened := match outcome with
        | .fatal _ => none
        | _ => shared.opened }, []⟩ := by
  refine .quiet _ ?_
  cases outcome with
  | appended | failed => exact covered
  | abortable code =>
    rcases covered with (required | pending | fatal) | rests
    · exact .inl (.inl required)
    · exact .inl (.inr (.inl pending))
    · exact .inl (.inr (.inr (setAbortable_isSome code fatal)))
    · exact .inr rests
  | fatal error =>
    refine .inl (.inr (.inr ?_))
    change (shared.fields.fatalError error).txnError.fatal?.isSome = true
    unfold TxnFields.fatalError TxnFields.resolveTransactionGuard
    split <;> rfl

theorem step_kept {world next : World} {act : Act} (kept : Kept world)
    (allowed : OneAtATime world act ∧ CoveredDrop world act) (step : WorldStep world act next) :
    Kept next := by
  cases step with
  | init _ | begin | prepare | complete _ => exact kept.call allowed.1 id
  | finish committed guard live =>
    cases kept with
    | quiet shared covered =>
      exact .running _ _ (covered.imp_right (Rests.imp (Anchored.take guard)))
    | running _ _ _ => cases allowed.1
  | sendRefused outcome => exact kept
  | sent outcome accepts =>
    cases kept with
    | quiet shared covered => exact sendFields_kept outcome covered
    | running _ _ _ => cases allowed.1
  | senderFatal error =>
    exact kept.mono rfl (fun _ => .inr (.inr rfl)) fun _ _ => .inl (.inr (.inr rfl))
  | advance index answer before after calls call shared found split advanced =>
    cases kept with
    | quiet _ _ => cases found
    | running _ running sound =>
      rcases singleton_split split with ⟨same, noneBefore, noneAfter⟩
      rw [noneBefore, noneAfter, nil_append, append_nil]
      rw [same] at sound
      exact advance_kept sound advanced
  | cancel index before after call found split waits =>
    have covers := allowed.2 call found
    cases kept with
    | quiet _ _ => cases found
    | running _ running sound =>
      rcases singleton_split split with ⟨same, noneBefore, noneAfter⟩
      rw [noneBefore, noneAfter, nil_append]
      rw [same] at sound
      refine .quiet _ ?_
      cases isMoved : call.moved with
      | true => exact .inl (safe_of_covered_drop (covers isMoved))
      | false =>
        rw [unlock_of_not_moved isMoved, abandonHeld_txnState]
        exact (sound_of_not_moved isMoved sound).abandonHeld
  | dropGuard guard live =>
    refine kept.mono (abandon_same _ guard).txnState (fun safe => ?_)
      fun _ anchored => anchored.drop guard
    have erased : Safe { world.shared with guards := world.shared.guards.erase guard } := safe
    exact erased.abandon guard
  | recover pending =>
    exact kept.mono rfl (fun _ => .inl rfl) fun _ _ => .inl (.inl rfl)

theorem recoverable_of_covered (covered : Covered shared none shared.fields.txnState)
    (idle : shared.abandoning = 0) (healthy : shared.fields.txnError.fatal? = none) :
    Recoverable shared := by
  rcases covered with (required | pending | fatal) | rests
  · refine .inl ?_
    rw [initAccepts, required, Bool.or_true]
  · omega
  · rw [healthy] at fatal
    cases fatal
  · rcases rests with state | state | state | state | ⟨state, opened, member | held⟩
    · exact .inl (by rw [initAccepts, state]; rfl)
    · exact .inl (by rw [initAccepts, state]; rfl)
    · exact .inl (by rw [initAccepts, state]; rfl)
    · exact .inr (.inr (decide_eq_true state))
    · refine .inr (.inl ⟨_, member, opened, rfl, ?_⟩)
      rw [endAccepts, state]
      rfl
    · cases held

/-- One call at a time, with guards dropped at any moment: between calls the producer is
never stuck, when each future that is dropped after it moved the state is dropped with the
guard of the open transaction, or in a producer that is recovery-required or fatal. -/
theorem run_recoverable (transactionalId : String) (twoPhaseCommitEnabled : Bool)
    (acts : List Act) (world : World)
    (ran : Transition.run World.step (World.start transactionalId twoPhaseCommitEnabled) acts =
      some world)
    (sequential : Transition.Along World.step
      (fun world act => OneAtATime world act ∧ CoveredDrop world act)
      (World.start transactionalId twoPhaseCommitEnabled) acts)
    (noCall : world.calls = []) (noDrop : world.shared.abandoning = 0)
    (healthy : world.shared.fields.txnError.fatal? = none) : Recoverable world.shared := by
  have kept := Transition.run_invariant Kept
    (fun _ _ _ kept allowed stepped => step_kept kept allowed (World.step_inv stepped))
    (kept_start transactionalId twoPhaseCommitEnabled) sequential ran
  cases kept with
  | quiet shared covered => exact recoverable_of_covered covered noDrop healthy
  | running _ _ _ => cases noCall

/-- A commit that is dropped while it waits for the coordinator. -/
def droppedCommit : List Act :=
  initStarted ++ initCompleted ++ transactionBegun ++
    [.finish true 1, .advance 0 .failed, .advance 0 .failed, .cancel 0, .recover]

theorem run_recoverable_commit :
    Exists fun world =>
      Transition.run World.step (World.start "orders" true) droppedCommit = some world ∧
        world.shared.fields.txnState = .committingOrAborting ∧ Recoverable world.shared :=
  ⟨_, rfl, rfl, run_recoverable "orders" true droppedCommit _ rfl (by decide) rfl rfl rfl⟩

def droppedCalls : List (List Act) :=
  [initStarted ++ [.cancel 0],
    initStarted ++ initCompleted ++ transactionBegun ++ prepareStarted ++ [.cancel 0],
    initStarted ++ initCompleted ++ transactionBegun ++ prepareStarted ++ prepareCompleted ++
      [.complete ⟨7, 0⟩] ++ List.replicate 5 (.advance 0 .failed) ++ [.cancel 0]]

/-- The dropped calls leave `Initializing`, `Preparing` and `CommittingOrAborting`.  No call
is running, no fatal error is stored, and no call helps. -/
theorem dropped_call_is_stuck :
    (droppedCalls.map fun acts =>
      (decide (Transition.Along World.step OneAtATime (World.start "orders" true) acts),
        (Transition.run World.step (World.start "orders" true) acts).map fun world =>
          (world.calls, world.shared.abandoning, world.shared.fields.txnError,
            decide (Recoverable world.shared)))) =
      List.replicate 3 (true, some ([], 0, .none, false)) := by
  decide

end TxnCalls
end Producer
end Krabka
