import Krabka.Producer.Verdict

namespace Krabka
namespace Producer

open Option

/-!
# The outcome of `EndTxn`

The decision tables of `txn_retry.rs` for `EndTxn`, the retry loop of
`send_end_txn_until_decided`, and `end_transaction` around it.  A request that is
lost in transport may have ended the transaction, so the loop remembers that one
was lost.  An error other than `RecoveryRequired` promises that no request of the
call changed the transaction.

The coordinator is the protocol partner of the producer, not code of this
repository.  It may act on a lost request at once, later, or never.
-/

namespace Codes

def COORDINATOR_NOT_AVAILABLE : Int := 15
def NOT_COORDINATOR : Int := 16
def INVALID_PRODUCER_EPOCH : Int := 47
def CONCURRENT_TRANSACTIONS : Int := 51
def TRANSACTION_ABORTABLE : Int := 120

end Codes

def ErrorClass.isRetriable : ErrorClass -> Bool
  | .invalidMetadata | .retriable => true
  | .none | .notRetriable => false

inductive CallError where
  | notTransactional
  | invalidTransactionState (message : String)
  | concurrentTransactions
  /-- `ProducerError::Client`, from a failed authentication. -/
  | client
  | producer (error : ProducerError)
deriving DecidableEq, Repr

/-- The fields of `Producer` that the calls on a transaction share. -/
structure TxnFields where
  transactionalId : Option String
  txnState : TxnState
  txnError : TxnError
  recoveryRequired : Bool
  recoveryGeneration : Nat
  /-- Odd while a transaction is open under a guard. -/
  guardGeneration : Nat
  preparedTransactionState : Option Identity
  pidEpoch : Identity
deriving DecidableEq, Repr

namespace TxnFields

def requireTransactionRecovery (fields : TxnFields) : TxnFields :=
  { fields with
    recoveryRequired := true
    recoveryGeneration :=
      if fields.recoveryRequired then fields.recoveryGeneration
      else fields.recoveryGeneration + 1 }

def resolveTransactionGuard (fields : TxnFields) : TxnFields :=
  if fields.guardGeneration % 2 = 1 then
    { fields with guardGeneration := fields.guardGeneration + 1 }
  else fields

/-- `fatal_error`: keep the error, and let the guard of the transaction go. -/
def fatalError (fields : TxnFields) (error : FatalError) : TxnFields :=
  { fields with txnError := .fatal error }.resolveTransactionGuard

end TxnFields

variable {rest : List Round}

namespace EndTxn

/-! ## Decisions -/

inductive CoordinatorAttempt where
  | answered (code : Int)
  | lost
deriving DecidableEq, Repr

inductive EndTxnDecision where
  | complete
  | retry (rediscover : Bool)
  | fenced
  | concurrentTransactions
  | abortable (code : Int)
  | fatal (code : Int)
  | timedOut (code : Int)
  | outcomeUnknown
deriving DecidableEq, Repr

/-- A `FindCoordinator` answer that ends the lookup with no coordinator. -/
inductive LookupRefusal where
  | abortable (code : Int)
  | fatal (code : Int)
deriving DecidableEq, Repr

open Codes in
def decideEndTxn (attempt : CoordinatorAttempt) (earlierAttemptLost committed : Bool) :
    EndTxnDecision :=
  match attempt with
  | .lost => .retry true
  | .answered code =>
    if code = NONE then .complete
    else if code = COORDINATOR_NOT_AVAILABLE ∨ code = NOT_COORDINATOR then .retry true
    else if (errorClass code).isRetriable then .retry false
    else if earlierAttemptLost then .outcomeUnknown
    else if code = INVALID_PRODUCER_EPOCH ∨ code = PRODUCER_FENCED then .fenced
    else if code = TRANSACTION_ABORTABLE ∧ committed = false then .fatal TRANSACTION_ABORTABLE
    else if code = UNKNOWN_PRODUCER_ID ∨ code = TRANSACTION_ABORTABLE then .abortable code
    else .fatal code

def decideEndTxnAtDeadline (last : CoordinatorAttempt) (earlierAttemptLost : Bool) :
    EndTxnDecision :=
  match last with
  | .lost => .outcomeUnknown
  | .answered code =>
    if earlierAttemptLost then .outcomeUnknown
    else if code = Codes.CONCURRENT_TRANSACTIONS then .concurrentTransactions
    else .timedOut code

def decideEndTxnAfterRefusedLookup (refusal : LookupRefusal)
    (earlierAttemptLost committed : Bool) : EndTxnDecision :=
  match refusal with
  | .fatal code => .fatal code
  | .abortable code =>
    if committed = false then .retry true
    else if earlierAttemptLost then .outcomeUnknown
    else .abortable code

/-- Whether the decision reports that no request changed the transaction. -/
def EndTxnDecision.unchanged : EndTxnDecision -> Bool
  | .fenced | .concurrentTransactions | .abortable _ | .fatal _ | .timedOut _ => true
  | .complete | .retry _ | .outcomeUnknown => false

/-! ## The retry loop -/

/-- The result of one send. -/
inductive Sent where
  | answered (code producerId producerEpoch : Int)
  | lost
  | authenticationFailed
deriving DecidableEq, Repr

/-- The result of `reconnect_txn_coordinator`. -/
inductive Lookup where
  | found
  | refused (refusal : LookupRefusal)
  | unresolved
deriving DecidableEq, Repr

/-- What the coordinator side does before it handles an attempt. -/
inductive Interlude where
  | nothing
  /-- A request that was lost earlier takes effect now. -/
  | late
  /-- A newer epoch takes over the transactional id, and aborts what is ongoing. -/
  | takenOver
deriving DecidableEq, Repr

/-- One turn of the loop: the attempt, and what the producer meets after it. -/
structure Round where
  before : Interlude
  sent : Sent
  /-- Whether the attempt changed the transaction.  The producer does not see it. -/
  effect : Bool
  atDeadline : Bool
  /-- The lookup of the coordinator, when the producer makes one. -/
  lookup : Lookup
deriving DecidableEq, Repr

namespace Sent

def attempt : Sent -> Option CoordinatorAttempt
  | .answered code _ _ => some (.answered code)
  | .lost => some .lost
  | .authenticationFailed => none

/-- The identity in an answer, absent from a coordinator that does not bump the epoch. -/
def identity : Sent -> Option Identity
  | .answered _ producerId producerEpoch =>
    if producerId ≥ 0 then some ⟨producerId, producerEpoch⟩ else none
  | .lost | .authenticationFailed => none

end Sent

inductive LoopResult where
  | decided (decision : EndTxnDecision) (identity : Option Identity)
  | authenticationFailed
deriving DecidableEq, Repr

def turn (committed earlierAttemptLost : Bool) (round : Round) : Option LoopResult :=
  match round.sent.attempt with
  | none => some .authenticationFailed
  | some attempt =>
    match decideEndTxn attempt earlierAttemptLost committed with
    | .retry rediscover =>
      let lost := earlierAttemptLost || attempt = .lost
      if round.atDeadline then some (.decided (decideEndTxnAtDeadline attempt lost) none)
      else if rediscover then
        match round.lookup with
        | .found | .unresolved => none
        | .refused refusal =>
          match decideEndTxnAfterRefusedLookup refusal lost committed with
          | .retry _ => none
          | decision => some (.decided decision none)
      else none
    | decision => some (.decided decision round.sent.identity)

/-- The loop over the rounds that the network gives it, with the rounds it did not
reach.  It is still running when the rounds run out. -/
def sendEndTxnUntilDecided (committed : Bool) :
    Bool -> List Round -> Option (LoopResult × List Round)
  | _, [] => none
  | earlierAttemptLost, round :: rest =>
    match turn committed earlierAttemptLost round with
    | some result => some (result, rest)
    | none => sendEndTxnUntilDecided committed (earlierAttemptLost || round.sent = .lost) rest

/-! ## The call -/

def applyEndTxn (fields : TxnFields) (endTxn : LoopResult) (previous : TxnState) :
    Except CallError Unit × TxnFields :=
  match endTxn with
  | .authenticationFailed =>
    (.error .client, { fields.requireTransactionRecovery with txnState := .recoveryRequired })
  | .decided .complete identity =>
    (.ok (), { fields with
      pidEpoch := identity.getD fields.pidEpoch
      preparedTransactionState := none
      txnError := fields.txnError.clearAbortable
      txnState := .ready }.resolveTransactionGuard)
  | .decided .fenced _ =>
    (.error (.producer .fencedProducer), { fields with txnState := .fenced }.fatalError .fenced)
  | .decided (.fatal code) _ =>
    (.error (.producer (.fatalTransactionError code)),
      { fields with txnState := .fatalError }.fatalError (.server code))
  | .decided .concurrentTransactions _ =>
    (.error .concurrentTransactions, { fields with txnState := previous })
  | .decided (.abortable code) _ =>
    (.error (.producer (.server code)),
      { fields with txnState := previous, txnError := fields.txnError.setAbortable code })
  | .decided (.timedOut code) _ =>
    (.error (.producer (.server code)), { fields with txnState := previous })
  | .decided .outcomeUnknown _ | .decided (.retry _) _ =>
    (.error (.producer .recoveryRequired),
      { fields.requireTransactionRecovery with txnState := .recoveryRequired })

/-- What `end_transaction` meets on its way. -/
structure Surroundings where
  /-- The result of `flush`, or of `abort_undrained_batches`. -/
  drained : Except CallError Unit
  /-- The error that the sender has stored by the end of it. -/
  storedError : TxnError
  coordinatorCached : Bool
  rounds : List Round

def endTransaction (fields : TxnFields) (committed : Bool) (surroundings : Surroundings) :
    Option ((Except CallError Unit × TxnFields) × List Round) :=
  let rounds := surroundings.rounds
  if fields.transactionalId = none then some ((.error .notTransactional, fields), rounds)
  else match fields.txnError.fatal? with
    | some error => some ((.error (.producer error.error), fields), rounds)
    | none =>
      let previous := fields.txnState
      if previous = .inTransaction ∨ previous = .prepared then
        let drained := { fields with txnError := surroundings.storedError }
        match surroundings.drained with
        | .error error => some ((.error error, drained), rounds)
        | .ok () =>
          match committed, surroundings.storedError.abortable? with
          | true, some error =>
            some ((.error (.producer (Barrier.abortable error).error), drained), rounds)
          | _, _ =>
            if surroundings.coordinatorCached then
              (sendEndTxnUntilDecided committed false rounds).map fun answer =>
                (applyEndTxn { drained with txnState := .committingOrAborting }
                  answer.1 previous, answer.2)
            else
              some ((.error (.invalidTransactionState
                "no txn coordinator cached — did init_transactions succeed?"),
                drained), rounds)
      else
        some ((.error (.invalidTransactionState
          "commit/abort_transaction must follow begin_transaction"), fields), rounds)

/-! ## The coordinator -/

structure Coordinator where
  /-- The result of the transaction, absent while it is ongoing. -/
  outcome : Option Bool
  /-- Whether the epoch of the producer is the current one. -/
  current : Bool
  /-- Whether an attempt of the call was lost, so that it can have changed the transaction. -/
  lost : Bool
  /-- Whether an attempt of the call changed the transaction. -/
  changed : Bool
deriving DecidableEq, Repr

namespace Coordinator

def atCall (outcome : Option Bool) (current : Bool) : Coordinator :=
  ⟨outcome, current, false, false⟩

/-- End an ongoing transaction for a request with the current epoch. -/
def end? (coordinator : Coordinator) (committed : Bool) : Option Coordinator :=
  if coordinator.outcome = none ∧ coordinator.current = true then
    some { coordinator with outcome := some committed, changed := true }
  else none

def interlude (coordinator : Coordinator) (committed : Bool) : Interlude -> Option Coordinator
  | .nothing => some coordinator
  | .late => if coordinator.lost then coordinator.end? committed else none
  | .takenOver =>
    some { coordinator with
      outcome := coordinator.outcome.or (some false)
      current := false }

/-- One attempt.  `NONE` says that the transaction has the requested result, and any
other answer says that this attempt did nothing.  There is no next state when the round is
not one that the coordinator can give. -/
def attempt (coordinator : Coordinator) (committed : Bool) (round : Round) : Option Coordinator :=
  match round.sent, round.effect with
  | .authenticationFailed, false => some coordinator
  | .authenticationFailed, true => none
  | .lost, false => some { coordinator with lost := true }
  | .lost, true => { coordinator with lost := true }.end? committed
  | .answered code _ _, true => if code = Codes.NONE then coordinator.end? committed else none
  | .answered code _ _, false =>
    if code = Codes.NONE ∧ coordinator.outcome ≠ some committed then none else some coordinator

def run (committed : Bool) : Coordinator -> List Round -> Option Coordinator
  | coordinator, [] => some coordinator
  | coordinator, round :: rest =>
    ((coordinator.interlude committed round.before).bind fun next =>
      next.attempt committed round).bind fun next => run committed next rest

/-- Whether some attempt of the call changed the transaction, or can have changed it. -/
def touched (coordinator : Coordinator) : Bool := coordinator.lost || coordinator.changed

end Coordinator

/-- No authentication failure and no fatal refusal of a lookup comes after a lost attempt. -/
def Informed : Bool -> List Round -> Prop
  | _, [] => True
  | lost, round :: rest =>
    (round.sent = .authenticationFailed -> lost = false) ∧
      ((Exists fun code => round.lookup = .refused (.fatal code)) ->
        lost = false ∧ round.sent ≠ .lost) ∧
      Informed (lost || round.sent = .lost) rest

/-! ## What a decision tells -/

variable {attempt : CoordinatorAttempt} {lost committed : Bool}

theorem decideEndTxn_complete (complete : decideEndTxn attempt lost committed = .complete) :
    attempt = .answered Codes.NONE := by
  cases attempt with
  | lost => cases complete
  | answered code =>
    by_cases isNone : code = Codes.NONE
    · rw [isNone]
    · simp only [decideEndTxn, isNone, if_false] at complete
      repeat' split at complete
      all_goals cases complete

/-- An answer blames the coordinator only when no earlier attempt was lost. -/
theorem decideEndTxn_unchanged
    (unchanged : (decideEndTxn attempt lost committed).unchanged = true) :
    lost = false ∧ attempt ≠ .lost ∧ attempt ≠ .answered Codes.NONE := by
  cases attempt with
  | lost => cases unchanged
  | answered code =>
    unfold decideEndTxn at unchanged
    by_cases isNone : code = Codes.NONE
    · simp only [isNone, if_true] at unchanged
      cases unchanged
    · cases lost with
      | false =>
        exact ⟨rfl, nofun, fun same => isNone (CoordinatorAttempt.answered.inj same)⟩
      | true =>
        simp only [isNone, if_false, if_true] at unchanged
        repeat' split at unchanged
        all_goals cases unchanged

theorem decideEndTxnAtDeadline_unchanged {last : CoordinatorAttempt}
    (unchanged : (decideEndTxnAtDeadline last lost).unchanged = true) : lost = false := by
  cases lost with
  | false => rfl
  | true => cases last <;> cases unchanged

theorem decideEndTxnAtDeadline_ne_complete (last : CoordinatorAttempt) (lost : Bool) :
    decideEndTxnAtDeadline last lost ≠ .complete := by
  unfold decideEndTxnAtDeadline
  repeat' split
  all_goals nofun

theorem decideEndTxnAfterRefusedLookup_unchanged {refusal : LookupRefusal}
    (unchanged : (decideEndTxnAfterRefusedLookup refusal lost committed).unchanged = true) :
    lost = false ∨ Exists fun code => refusal = .fatal code := by
  cases refusal with
  | fatal code => exact .inr ⟨code, rfl⟩
  | abortable code =>
    cases lost with
    | false => exact .inl rfl
    | true => cases committed <;> cases unchanged

theorem decideEndTxnAfterRefusedLookup_ne_complete (refusal : LookupRefusal)
    (lost committed : Bool) :
    decideEndTxnAfterRefusedLookup refusal lost committed ≠ .complete := by
  unfold decideEndTxnAfterRefusedLookup
  repeat' split
  all_goals nofun

/-! ## One turn -/

/-- The attempt was accepted. -/
def Sent.accepted : Sent -> Bool
  | .answered code _ _ => code = Codes.NONE
  | .lost | .authenticationFailed => false

def LoopResult.unchanged : LoopResult -> Bool
  | .decided decision _ => decision.unchanged
  | .authenticationFailed => true

theorem Sent.accepted_iff (sent : Sent) :
    sent.accepted = true <-> sent.attempt = some (.answered Codes.NONE) := by
  cases sent with
  | answered code producerId producerEpoch => simp [accepted, attempt]
  | lost | authenticationFailed => exact ⟨nofun, nofun⟩

theorem Sent.lost_iff (sent : Sent) : sent = .lost <-> sent.attempt = some .lost := by
  cases sent with
  | answered | authenticationFailed => exact ⟨nofun, nofun⟩
  | lost => exact ⟨fun _ => rfl, fun _ => rfl⟩

inductive TurnStep (committed lost : Bool) (round : Round) : Option LoopResult -> Prop where
  | refusedToSend (sent : round.sent = .authenticationFailed) :
      TurnStep committed lost round (some .authenticationFailed)
  | decided (attempt : CoordinatorAttempt) (sent : round.sent.attempt = some attempt) :
      TurnStep committed lost round
        (some (.decided (decideEndTxn attempt lost committed) round.sent.identity))
  | deadline (attempt : CoordinatorAttempt) (sent : round.sent.attempt = some attempt)
      (unanswered : round.sent.accepted = false) :
      TurnStep committed lost round
        (some (.decided (decideEndTxnAtDeadline attempt (lost || attempt = .lost)) none))
  | lookup (refusal : LookupRefusal) (refused : round.lookup = .refused refusal)
      (unanswered : round.sent.accepted = false) :
      TurnStep committed lost round
        (some (.decided (decideEndTxnAfterRefusedLookup refusal
          (lost || round.sent = .lost) committed) none))
  | again (unanswered : round.sent.accepted = false) : TurnStep committed lost round none

variable {round : Round}

theorem not_accepted_of_retry {rediscover : Bool} (sent : round.sent.attempt = some attempt)
    (retry : decideEndTxn attempt lost committed = .retry rediscover) :
    round.sent.accepted = false := by
  apply Bool.eq_false_iff.mpr
  intro accepted
  rw [some.inj (sent.symm.trans (round.sent.accepted_iff.mp accepted))] at retry
  cases retry

theorem turn_step (committed lost : Bool) (round : Round) :
    TurnStep committed lost round (turn committed lost round) := by
  unfold turn
  split
  · rename_i failed
    refine .refusedToSend ?_
    cases sent : round.sent with
    | authenticationFailed => rfl
    | answered | lost => rw [sent] at failed; cases failed
  · rename_i attempt sent
    split
    · rename_i rediscover retry
      have unanswered := not_accepted_of_retry sent retry
      have sameLost : decide (round.sent = .lost) = decide (attempt = .lost) := by
        simp only [round.sent.lost_iff, sent, some.injEq]
      split
      · exact .deadline attempt sent unanswered
      · split
        · split
          · exact .again unanswered
          · exact .again unanswered
          · rename_i refusal refused
            dsimp only
            split
            · exact .again unanswered
            · rw [<- sameLost]
              exact .lookup refusal refused unanswered
        · exact .again unanswered
    · exact .decided attempt sent

/-- `Ok` follows an accepted attempt. -/
theorem TurnStep.accepted {identity : Option Identity}
    (step : TurnStep committed lost round (some (.decided .complete identity))) :
    round.sent.accepted = true := by
  generalize same : some (LoopResult.decided EndTxnDecision.complete identity) = result at step
  cases step with
  | refusedToSend | again => cases same
  | decided attempt sent =>
    have complete := (LoopResult.decided.inj (some.inj same)).1.symm
    rw [decideEndTxn_complete complete] at sent
    exact round.sent.accepted_iff.mpr sent
  | deadline attempt sent unanswered =>
    exact absurd (LoopResult.decided.inj (some.inj same)).1.symm
      (decideEndTxnAtDeadline_ne_complete _ _)
  | lookup refusal refused unanswered =>
    exact absurd (LoopResult.decided.inj (some.inj same)).1.symm
      (decideEndTxnAfterRefusedLookup_ne_complete _ _ _)

/-- A turn that blames the coordinator ends a call without a lost or an accepted attempt. -/
theorem TurnStep.unchanged {result : LoopResult}
    (step : TurnStep committed lost round (some result)) (informed : Informed lost (round :: rest))
    (unchanged : result.unchanged = true) :
    (lost || round.sent = .lost) = false ∧ round.sent.accepted = false := by
  generalize same : some result = ended at step
  cases step with
  | refusedToSend sent =>
    rw [sent, informed.1 sent]
    exact ⟨rfl, rfl⟩
  | decided attempt sent =>
    rw [some.inj same] at unchanged
    rcases decideEndTxn_unchanged unchanged with ⟨notLost, answered, refused⟩
    constructor
    · rw [notLost, Bool.false_or]
      apply decide_eq_false
      intro lostNow
      exact answered (some.inj (sent.symm.trans (round.sent.lost_iff.mp lostNow)))
    · apply Bool.eq_false_iff.mpr
      intro accepted
      exact refused (some.inj (sent.symm.trans (round.sent.accepted_iff.mp accepted)))
  | deadline attempt sent unanswered =>
    rw [some.inj same] at unchanged
    have notLost := decideEndTxnAtDeadline_unchanged unchanged
    refine ⟨?_, unanswered⟩
    simp only [round.sent.lost_iff, sent, some.injEq]
    exact notLost
  | lookup refusal refused unanswered =>
    rw [some.inj same] at unchanged
    refine ⟨?_, unanswered⟩
    rcases decideEndTxnAfterRefusedLookup_unchanged unchanged with notLost | ⟨code, fatal⟩
    · exact notLost
    · rw [fatal] at refused
      rcases informed.2.1 ⟨code, refused⟩ with ⟨notLost, answered⟩
      rw [notLost, decide_eq_false answered]
      rfl
  | again unanswered => cases same

/-! ## The coordinator beside the loop -/

/-- The coordinator agrees with what the loop remembers: only a lost attempt has changed
the transaction. -/
structure Tracked (coordinator : Coordinator) (lost : Bool) : Prop where
  lost_eq : coordinator.lost = lost
  changed : coordinator.changed = true -> lost = true

namespace Coordinator

variable {coordinator next : Coordinator} {committed : Bool}

theorem end?_eq (ended : coordinator.end? committed = some next) :
    next = { coordinator with outcome := some committed, changed := true } := by
  unfold end? at ended
  split at ended
  · exact (some.inj ended).symm
  · cases ended

theorem tracked_interlude {before : Interlude} (tracked : Tracked coordinator lost)
    (moved : coordinator.interlude committed before = some next) : Tracked next lost := by
  cases before with
  | nothing => rwa [<- some.inj moved]
  | takenOver =>
    cases moved
    exact ⟨tracked.lost_eq, tracked.changed⟩
  | late =>
    simp only [interlude] at moved
    split at moved
    · rename_i wasLost
      rw [end?_eq moved]
      exact ⟨tracked.lost_eq, fun _ => tracked.lost_eq.symm.trans wasLost⟩
    · cases moved

variable {round : Round}

theorem tracked_attempt (tracked : Tracked coordinator lost)
    (unanswered : round.sent.accepted = false)
    (moved : coordinator.attempt committed round = some next) :
    Tracked next (lost || round.sent = .lost) := by
  unfold attempt at moved
  split at moved
  · rename_i sent effect
    rw [<- some.inj moved, sent]
    exact ⟨tracked.lost_eq.trans (Bool.or_false _).symm,
      fun changed => Bool.or_eq_true_iff.mpr (.inl (tracked.changed changed))⟩
  · cases moved
  · rename_i sent effect
    rw [<- some.inj moved, sent]
    exact ⟨(Bool.or_true _).symm, fun _ => Bool.or_true _⟩
  · rename_i sent effect
    rw [end?_eq moved, sent]
    exact ⟨(Bool.or_true _).symm, fun _ => Bool.or_true _⟩
  · rename_i sent effect
    rw [sent] at unanswered
    rw [if_neg (of_decide_eq_false unanswered)] at moved
    cases moved
  · rename_i sent effect
    rw [sent] at unanswered
    rw [if_neg fun both => of_decide_eq_false unanswered both.1] at moved
    rw [<- some.inj moved, sent]
    exact ⟨tracked.lost_eq.trans (Bool.or_false _).symm,
      fun changed => Bool.or_eq_true_iff.mpr (.inl (tracked.changed changed))⟩

theorem outcome_of_accepted (accepted : round.sent.accepted = true)
    (moved : coordinator.attempt committed round = some next) :
    next.outcome = some committed := by
  unfold attempt at moved
  split at moved
  · rename_i sent effect
    rw [sent] at accepted
    cases accepted
  · cases moved
  · rename_i sent effect
    rw [sent] at accepted
    cases accepted
  · rename_i sent effect
    rw [sent] at accepted
    cases accepted
  · rename_i sent effect
    rw [sent] at accepted
    rw [if_pos (of_decide_eq_true accepted)] at moved
    rw [end?_eq moved]
  · rename_i sent effect
    rw [sent] at accepted
    split at moved <;> cases moved
    rename_i consistent
    by_contra differs
    exact consistent ⟨of_decide_eq_true accepted, differs⟩

theorem run_cons {final : Coordinator}
    (ran : coordinator.run committed (round :: rest) = some final) :
    Exists fun met => Exists fun next =>
      coordinator.interlude committed round.before = some met ∧
        met.attempt committed round = some next ∧ next.run committed rest = some final := by
  rcases bind_eq_some_iff.mp ran with ⟨next, moved, ranRest⟩
  rcases bind_eq_some_iff.mp moved with ⟨met, waited, attempted⟩
  exact ⟨met, next, waited, attempted, ranRest⟩

end Coordinator

theorem Tracked.untouched {coordinator : Coordinator} (tracked : Tracked coordinator false) :
    coordinator.touched = false := by
  have unchanged : coordinator.changed = false :=
    Bool.eq_false_iff.mpr fun changed => Bool.false_ne_true (tracked.changed changed)
  rw [Coordinator.touched, tracked.lost_eq, unchanged]
  rfl

structure Honest (committed : Bool) (coordinator : Coordinator) (result : LoopResult) : Prop where
  complete : forall identity, result = .decided .complete identity ->
    coordinator.outcome = some committed
  unchanged : result.unchanged = true -> coordinator.touched = false

/-- The loop tells the truth, by induction on the rounds it takes. -/
theorem loop_honest {rounds : List Round} {result : LoopResult} :
    forall {lost : Bool} {coordinator final : Coordinator},
      Tracked coordinator lost -> Informed lost rounds ->
      coordinator.run committed rounds = some final ->
      sendEndTxnUntilDecided committed lost rounds = some (result, []) ->
      Honest committed final result := by
  induction rounds with
  | nil => exact fun _ _ _ ended => nomatch ended
  | cons round rest ih =>
    intro lost coordinator final tracked informed ran ended
    rcases Coordinator.run_cons ran with ⟨met, next, waited, attempted, ranRest⟩
    have trackedMet := Coordinator.tracked_interlude tracked waited
    have step := turn_step committed lost round
    unfold sendEndTxnUntilDecided at ended
    split at ended
    · rename_i stopped turned
      rw [turned] at step
      rcases Prod.mk.inj (some.inj ended) with ⟨sameResult, noRest⟩
      -- The call is over with this round, so the coordinator stands where it left it.
      rw [noRest] at ranRest
      cases ranRest
      subst sameResult
      constructor
      · intro identity complete
        rw [complete] at step
        exact Coordinator.outcome_of_accepted step.accepted attempted
      · intro unchanged
        rcases step.unchanged informed unchanged with ⟨notLost, unanswered⟩
        have trackedNext := Coordinator.tracked_attempt trackedMet unanswered attempted
        rw [notLost] at trackedNext
        exact trackedNext.untouched
    · rename_i turned
      rw [turned] at step
      cases step with
      | again unanswered =>
        exact ih (Coordinator.tracked_attempt trackedMet unanswered attempted)
          informed.2.2 ranRest ended

/-! ## The whole call -/

variable {fields : TxnFields}

theorem applyEndTxn_ok {endTxn : LoopResult} {previous : TxnState}
    (ok : (applyEndTxn fields endTxn previous).1 = .ok ()) :
    Exists fun identity => endTxn = .decided .complete identity := by
  cases endTxn with
  | authenticationFailed => cases ok
  | decided decision identity =>
    cases decision with
    | complete => exact ⟨identity, rfl⟩
    | _ => cases ok

theorem applyEndTxn_error {endTxn : LoopResult} {previous : TxnState}
    {error : CallError} (failed : (applyEndTxn fields endTxn previous).1 = .error error)
    (known : error ≠ .producer .recoveryRequired) : endTxn.unchanged = true := by
  cases endTxn with
  | authenticationFailed => rfl
  | decided decision identity =>
    cases decision with
    | complete => cases failed
    | retry | outcomeUnknown => exact absurd (Except.error.inj failed).symm known
    | _ => rfl

/-- A call fails before it sends a request, or applies the result of the loop. -/
theorem endTransaction_cases {surroundings : Surroundings}
    {answer : Except CallError Unit × TxnFields}
    (returned : endTransaction fields committed surroundings = some (answer, rest)) :
    (rest = surroundings.rounds ∧ Exists fun error => answer.1 = .error error) ∨
      Exists fun moved => Exists fun endTxn =>
        sendEndTxnUntilDecided committed false surroundings.rounds = some (endTxn, rest) ∧
          answer = applyEndTxn moved endTxn fields.txnState := by
  dsimp only [endTransaction] at returned
  repeat' split at returned
  all_goals first
    | cases returned
      exact .inl ⟨rfl, _, rfl⟩
    | rcases map_eq_some_iff.mp returned with ⟨ended, looped, same⟩
      cases same
      exact .inr ⟨_, _, looped, rfl⟩

/-- `Ok` says that the coordinator applied the requested result, and an error other than
`RecoveryRequired` that no attempt of the call can have changed the transaction, when no
authentication failure and no fatal refusal of a lookup comes after a lost attempt. -/
theorem end_transaction_honest (fields : TxnFields) (committed : Bool)
    (surroundings : Surroundings) (outcome : Option Bool) (current : Bool)
    (final : Coordinator) (result : Except CallError Unit) (after : TxnFields)
    (ran : (Coordinator.atCall outcome current).run committed surroundings.rounds = some final)
    (informed : Informed false surroundings.rounds)
    (returned : endTransaction fields committed surroundings = some ((result, after), [])) :
    (result = .ok () -> final.outcome = some committed) ∧
      forall error, result = .error error -> error ≠ .producer .recoveryRequired ->
        final.touched = false := by
  have tracked : Tracked (Coordinator.atCall outcome current) false := ⟨rfl, nofun⟩
  rcases endTransaction_cases returned with
    ⟨noRounds, error, failed⟩ | ⟨moved, endTxn, looped, same⟩
  · constructor
    · intro ok
      exact nomatch failed.symm.trans ok
    · intro _ _ _
      rw [<- noRounds] at ran
      cases ran
      exact tracked.untouched
  · have honest := loop_honest tracked informed ran looped
    have sameResult : (applyEndTxn moved endTxn fields.txnState).1 = result := by rw [<- same]
    constructor
    · intro ok
      rcases applyEndTxn_ok (sameResult.trans ok) with ⟨identity, complete⟩
      exact honest.complete identity complete
    · intro error failed known
      exact honest.unchanged (applyEndTxn_error (sameResult.trans failed) known)

def openTransaction : TxnFields :=
  ⟨some "orders", .inTransaction, .none, false, 0, 1, none, ⟨7, 0⟩⟩

/-- A flushed transaction whose `EndTxn` meets `rounds`. -/
def flushed (rounds : List Round) : Surroundings := ⟨.ok (), .none, true, rounds⟩

/-- The first commit is lost after it took effect. -/
def lostCommit (lookup : Lookup) : Round := ⟨.nothing, .lost, true, false, lookup⟩

theorem end_transaction_honest_retry :
    Exists fun final => Exists fun after =>
      (Coordinator.atCall none true).run true
          [lostCommit .found, ⟨.nothing, .answered 0 7 1, false, false, .found⟩] = some final ∧
        endTransaction openTransaction true (flushed
          [lostCommit .found, ⟨.nothing, .answered 0 7 1, false, false, .found⟩]) =
            some ((.ok (), after), []) ∧ final.outcome = some true :=
  ⟨_, _, rfl, rfl, (end_transaction_honest openTransaction true (flushed
    [lostCommit .found, ⟨.nothing, .answered 0 7 1, false, false, .found⟩]) none true _ _ _
    rfl ⟨nofun, nofun, nofun, nofun, trivial⟩ rfl).1 rfl⟩

/-- A commit takes effect and its answer is lost.  A lookup that is refused for good then
gives `FatalTransactionError`, and a failed authentication gives `Client`. -/
theorem end_transaction_blames_after_lost :
    (Exists fun final => Exists fun after =>
      (Coordinator.atCall none true).run true [lostCommit (.refused (.fatal 53))] = some final ∧
        endTransaction openTransaction true (flushed [lostCommit (.refused (.fatal 53))]) =
          some ((.error (.producer (.fatalTransactionError 53)), after), []) ∧
        final.changed = true) ∧
      Exists fun final => Exists fun after =>
        (Coordinator.atCall none true).run true
            [lostCommit .found, ⟨.nothing, .authenticationFailed, false, false, .found⟩] =
              some final ∧
          endTransaction openTransaction true (flushed
            [lostCommit .found, ⟨.nothing, .authenticationFailed, false, false, .found⟩]) =
              some ((.error .client, after), []) ∧
          final.changed = true :=
  ⟨⟨_, _, rfl, rfl, rfl⟩, ⟨_, _, rfl, rfl, rfl⟩⟩

end EndTxn
end Producer
end Krabka
