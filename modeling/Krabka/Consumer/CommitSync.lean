import Krabka.Consumer.Assignment
import Mathlib.Data.Finset.Lattice.Lemmas

namespace Krabka
namespace Consumer
namespace CommitSync

open Collections List

/-!
# Synchronous commits

`commit_response_outcome` walks over the rows of an `OffsetCommit` response.  A final error
returns from inside the loop, and of the other classes the first row is kept.  So the worst class
of the rows decides, but among the rows of that class the first one does.

`commit_pending_offsets` sends what is pending until every partition is acknowledged or lost.
-/

/-- The classes of the error codes of a row, of `PartitionCommitError`. -/
inductive PartitionCommitError where
  | none | topicAuthorization | retriable | coordinatorUnknown | rebalance | fencedInstanceId
  | groupAuthorization | fatal
deriving DecidableEq, Repr

def REBALANCE_IN_PROGRESS : Int := 27

def PartitionCommitError.of (code : Int) : PartitionCommitError :=
  if code = 0 then .none
  else if code = 29 then .topicAuthorization
  else if code = 3 ∨ code = 14 then .retriable
  else if code = 7 ∨ code = 15 ∨ code = 16 then .coordinatorUnknown
  else if code = 22 ∨ code = 25 ∨ code = REBALANCE_IN_PROGRESS then .rebalance
  else if code = 82 then .fencedInstanceId
  else if code = 30 then .groupAuthorization
  else .fatal

structure CommitRow where
  key : TopicPartition
  errorCode : Int
deriving DecidableEq, Repr

def CommitRow.kind (row : CommitRow) : PartitionCommitError := .of row.errorCode

/-- A topic of the response, with the index and the error code of each partition. -/
structure CommitTopic where
  name : String
  partitions : List (Int × Int)
deriving DecidableEq, Repr

/-- The rows in the order of the two loops. -/
def rowsOf (topics : List CommitTopic) : List CommitRow :=
  topics.flatMap fun topic => topic.partitions.map fun row => ⟨⟨topic.name, row.1⟩, row.2⟩

structure CommitResponseContext where
  groupId : String
  groupInstanceId : Option String
  coordinatorAlive : Bool
  generationUnchanged : Bool
deriving DecidableEq, Repr

inductive CommitError where
  | fencedInstanceId (instanceId : String)
  | groupAuthorizationFailed (groupId : String)
  | topicAuthorizationFailed (topics : Finset String)
  | server (code : Int)
  | commitFailed
  | rebalanceInProgress (groupId : String)
  | illegalState
  | client
  | timeout (cause : CommitError)
deriving DecidableEq

inductive CommitOutcome where
  | acked (acknowledged : Finset TopicPartition)
  | retriable (code : Int) (acknowledged : Finset TopicPartition) (findCoordinator : Bool)
deriving DecidableEq

def CommitOutcome.acknowledged : CommitOutcome -> Finset TopicPartition
  | .acked acknowledged | .retriable _ acknowledged _ => acknowledged

/-- The error of a row that asks for a rebalance, of `RebalanceCommitFailure`. -/
def rebalanceFailure (context : CommitResponseContext) (row : CommitRow) : CommitError :=
  if context.coordinatorAlive ∧
      (row.errorCode = REBALANCE_IN_PROGRESS ∨ context.generationUnchanged = false) then
    .rebalanceInProgress context.groupId
  else .commitFailed

/-- The variables of the loop. -/
structure Scan where
  rebalance : Option CommitError
  retriable : Option Int
  findCoordinator : Bool
  unauthorizedTopics : Finset String
  acknowledged : Finset TopicPartition

def scanRow (context : CommitResponseContext) (scan : Scan) (row : CommitRow) :
    Except CommitError Scan :=
  let rebalances :=
    { scan with rebalance := scan.rebalance.or (some (rebalanceFailure context row)) }
  match row.kind with
  | .none => .ok { scan with acknowledged := insert row.key scan.acknowledged }
  | .topicAuthorization =>
    .ok { scan with unauthorizedTopics := insert row.key.topic scan.unauthorizedTopics }
  | .retriable => .ok { scan with retriable := scan.retriable.or (some row.errorCode) }
  | .coordinatorUnknown =>
    .ok { scan with
      retriable := scan.retriable.or (some row.errorCode), findCoordinator := true }
  | .fencedInstanceId =>
    if context.generationUnchanged then
      .error (.fencedInstanceId (context.groupInstanceId.getD ""))
    else .ok rebalances
  | .rebalance => .ok rebalances
  | .groupAuthorization => .error (.groupAuthorizationFailed context.groupId)
  | .fatal => .error (.server row.errorCode)

/-- The outcome after the loop. -/
def finish (scan : Scan) : Except CommitError CommitOutcome :=
  match scan.rebalance, scan.retriable with
  | some failure, _ => .error failure
  | none, some code => .ok (.retriable code scan.acknowledged scan.findCoordinator)
  | none, none =>
    if scan.unauthorizedTopics = ∅ then .ok (.acked scan.acknowledged)
    else .error (.topicAuthorizationFailed scan.unauthorizedTopics)

def commitResponseOutcome (context : CommitResponseContext) (topics : List CommitTopic) :
    Except CommitError CommitOutcome := do
  finish (<- (rowsOf topics).foldlM (scanRow context) ⟨none, none, false, ∅, ∅⟩)

/-! ## The row that decides -/

/-- The precedence of the classes: final errors, rebalances, retries, authorization. -/
def severity (context : CommitResponseContext) (row : CommitRow) : Nat :=
  match row.kind with
  | .none => 0
  | .topicAuthorization => 1
  | .retriable | .coordinatorUnknown => 2
  | .rebalance => 3
  | .fencedInstanceId => if context.generationUnchanged then 4 else 3
  | .groupAuthorization | .fatal => 4

def acknowledgedOf (rows : List CommitRow) : Finset TopicPartition :=
  ((rows.filter fun row => row.kind = .none).map CommitRow.key).toFinset

def unauthorizedOf (rows : List CommitRow) : Finset String :=
  ((rows.filter fun row => row.kind = .topicAuthorization).map fun row => row.key.topic).toFinset

def finalError (context : CommitResponseContext) (row : CommitRow) : CommitError :=
  match row.kind with
  | .fencedInstanceId => .fencedInstanceId (context.groupInstanceId.getD "")
  | .groupAuthorization => .groupAuthorizationFailed context.groupId
  | _ => .server row.errorCode

/-- The outcome when `row` decides among `rows`. -/
def rowOutcome (context : CommitResponseContext) (rows : List CommitRow) (row : CommitRow) :
    Except CommitError CommitOutcome :=
  match severity context row with
  | 0 => .ok (.acked (acknowledgedOf rows))
  | 1 => .error (.topicAuthorizationFailed (unauthorizedOf rows))
  | 2 => .ok (.retriable row.errorCode (acknowledgedOf rows)
      (rows.any fun row => row.kind = .coordinatorUnknown))
  | 3 => .error (rebalanceFailure context row)
  | _ => .error (finalError context row)

section Scans

variable {context : CommitResponseContext} {rows : List CommitRow} {row : CommitRow}

theorem severity_le_four : severity context row ≤ 4 := by
  unfold severity
  split
  all_goals try split
  all_goals decide

theorem unauthorizedOf_eq_empty :
    unauthorizedOf rows = ∅ <-> forall row, row ∈ rows -> severity context row ≠ 1 := by
  have isKind (row : CommitRow) :
      severity context row = 1 <-> row.kind = .topicAuthorization := by
    unfold severity
    cases row.kind <;> simp
    split <;> simp
  simp [unauthorizedOf, isKind]

/-- What the loop knows after `rows`, none of them with a final error. -/
def summary (context : CommitResponseContext) (rows : List CommitRow) : Scan :=
  ⟨(rows.find? fun row => severity context row = 3).map (rebalanceFailure context),
    (rows.find? fun row => severity context row = 2).map CommitRow.errorCode,
    rows.any fun row => row.kind = .coordinatorUnknown, unauthorizedOf rows, acknowledgedOf rows⟩

theorem scanRow_summary (calm : severity context row ≠ 4) :
    scanRow context (summary context rows) row = .ok (summary context (rows ++ [row])) := by
  unfold severity at calm
  cases isKind : row.kind <;> simp_all [scanRow, summary, severity, find?_append, acknowledgedOf,
    unauthorizedOf]

theorem scanRow_final (scan : Scan) (final : severity context row = 4) :
    scanRow context scan row = .error (finalError context row) := by
  unfold severity at final
  cases isKind : row.kind <;> simp_all [scanRow, finalError]

def IsWorst (context : CommitResponseContext) (rows : List CommitRow) (row : CommitRow) : Prop :=
  row ∈ rows ∧ forall other, other ∈ rows -> severity context other ≤ severity context row

/-- A row of the class `level` comes first, or all rows are of lower classes. -/
theorem isWorst_or_lower {level : Nat}
    (bound : forall other, other ∈ rows -> severity context other < level + 1) :
    (Exists fun row => rows.find? (fun row => severity context row = level) = some row ∧
        severity context row = level ∧ IsWorst context rows row) ∨
      rows.find? (fun row => severity context row = level) = none ∧
        forall other, other ∈ rows -> severity context other < level := by
  have below (other : CommitRow) (member : other ∈ rows) : severity context other ≤ level :=
    Nat.le_of_lt_succ (bound other member)
  cases found : rows.find? fun row => severity context row = level with
  | none =>
    refine .inr ⟨rfl, fun other member => Nat.lt_of_le_of_ne (below other member) ?_⟩
    simpa using find?_eq_none.mp found other member
  | some row =>
    have atLevel : severity context row = level := by simpa using find?_some found
    exact .inl ⟨row, rfl, atLevel, mem_of_find?_eq_some found, atLevel ▸ below⟩

/-- After a loop without a final error, a row of the worst class decides. -/
theorem finish_summary (nonempty : rows ≠ [])
    (calm : forall other, other ∈ rows -> severity context other < 4) :
    Exists fun row => IsWorst context rows row ∧
      finish (summary context rows) = rowOutcome context rows row := by
  rcases isWorst_or_lower calm with ⟨row, found, level, worst⟩ | ⟨noRebalance, lower⟩
  · refine ⟨row, worst, ?_⟩
    simp only [finish, summary, rowOutcome, found, level, Option.map_some]
  rcases isWorst_or_lower lower with ⟨row, found, level, worst⟩ | ⟨noRetriable, lower⟩
  · refine ⟨row, worst, ?_⟩
    simp only [finish, summary, rowOutcome, noRebalance, found, level, Option.map_some,
      Option.map_none]
  rcases isWorst_or_lower lower with ⟨row, found, level, worst⟩ | ⟨_, lower⟩
  · have someTopic : unauthorizedOf rows ≠ ∅ := fun isEmpty =>
      unauthorizedOf_eq_empty.mp isEmpty row worst.1 level
    refine ⟨row, worst, ?_⟩
    simp only [finish, summary, rowOutcome, noRebalance, noRetriable, level, Option.map_none,
      someTopic, if_false]
  · have noTopic : unauthorizedOf rows = ∅ := unauthorizedOf_eq_empty.mpr
      fun other member => Nat.ne_of_lt (lower other member)
    rcases exists_mem_of_ne_nil rows nonempty with ⟨row, member⟩
    have level := Nat.lt_one_iff.mp (lower row member)
    refine ⟨row, ⟨member, fun other isOther => ?_⟩, ?_⟩
    · exact level ▸ Nat.le_of_lt_succ (lower other isOther)
    · simp only [finish, summary, rowOutcome, noRebalance, noRetriable, level, Option.map_none,
        noTopic, if_true]

/-- The loop from any place on. -/
theorem foldlM_scanRow {before rest : List CommitRow} (nonempty : before ++ rest ≠ [])
    (calm : forall other, other ∈ before -> severity context other < 4) :
    Exists fun row => IsWorst context (before ++ rest) row ∧
      (rest.foldlM (scanRow context) (summary context before) >>= finish) =
        rowOutcome context (before ++ rest) row := by
  induction rest generalizing before with
  | nil =>
    rw [append_nil] at nonempty ⊢
    exact finish_summary nonempty calm
  | cons row rest ih =>
    rw [foldlM_cons]
    by_cases final : severity context row = 4
    · refine ⟨row, ⟨by simp, fun other member => final ▸ severity_le_four⟩, ?_⟩
      rw [scanRow_final _ final, rowOutcome, final]
      rfl
    · rw [scanRow_summary final]
      have later := @ih (before ++ [row]) (by simp) fun other member => by
        rcases mem_append.mp member with old | new
        · exact calm other old
        · rw [mem_singleton.mp new]
          exact Nat.lt_of_le_of_ne severity_le_four final
      rwa [append_assoc, singleton_append] at later

variable {topics : List CommitTopic}

theorem outcome_of_worst (nonempty : rowsOf topics ≠ []) :
    Exists fun row => IsWorst context (rowsOf topics) row ∧
      commitResponseOutcome context topics = rowOutcome context (rowsOf topics) row :=
  @foldlM_scanRow _ [] _ nonempty nofun

end Scans

/-- What a turn of the loop gets for its request. -/
inductive Reply where
  /-- A transport error or a timeout, after which the loop tries again. -/
  | lost
  | failed
  | response (context : CommitResponseContext) (topics : List CommitTopic)

/-- What a turn of the loop meets: whether the group is active, the current ownership ids, the
reply, and whether the deadline leaves time for another turn. -/
structure Turn where
  active : Bool
  ids : OwnershipIds
  reply : Reply
  timeLeft : Bool

inductive Event where
  | identity (ids : OwnershipIds)
  | sent (pending : PendingOffsets)
  | answered (topics : List CommitTopic)

def retainUnacknowledged (pending : PendingOffsets) (acknowledged : Finset TopicPartition) :
    PendingOffsets :=
  pending.filter fun partition _ => decide (partition ∉ acknowledged)

/-- What a turn leaves pending after a response, and the error of the call if that is not empty
and the call does not try again. -/
def answerTurn (turn : Turn) (pending : PendingOffsets) :
    CommitOutcome -> PendingOffsets × Option CommitError
  | .acked acknowledged => (retainUnacknowledged pending acknowledged, some .illegalState)
  | .retriable code acknowledged _ => (retainUnacknowledged pending acknowledged,
      if turn.timeLeft then none else some (.timeout (.server code)))

def attempt (turn : Turn) (pending : PendingOffsets) :
    List Event × Except CommitError (PendingOffsets × Option CommitError) :=
  if turn.active = false then ([.identity turn.ids], .error .commitFailed)
  else
    let owned := retainContinuouslyOwned pending turn.ids
    if owned.entries = [] then ([.identity turn.ids], .ok (owned, none))
    else
      match turn.reply with
      | .lost => ([.identity turn.ids, .sent owned],
          .ok (owned, if turn.timeLeft then none else some (.timeout .client)))
      | .failed => ([.identity turn.ids, .sent owned], .error .client)
      | .response context topics => ([.identity turn.ids, .sent owned, .answered topics],
          (commitResponseOutcome context topics).map (answerTurn turn owned))

/-- The events of the loop, and its result if it returns within `turns`. -/
def commitPendingOffsets : List Turn -> PendingOffsets ->
    List Event × Option (Except CommitError Unit)
  | [], _ => ([], none)
  | turn :: turns, pending =>
    match attempt turn pending with
    | (events, .error error) => (events, some (.error error))
    | (events, .ok (later, stop)) =>
      if later.entries = [] then (events, some (.ok ()))
      else
        match stop with
        | some error => (events, some (.error error))
        | none =>
          let rest := commitPendingOffsets turns later
          (events ++ rest.1, rest.2)

section Loop

variable {context : CommitResponseContext} {topics : List CommitTopic} {key : TopicPartition}
  {pending later : PendingOffsets}

theorem mem_acknowledgedOf {rows : List CommitRow} :
    key ∈ acknowledgedOf rows <-> ⟨key, 0⟩ ∈ rows := by
  have isNone (row : CommitRow) : row.kind = .none <-> row.errorCode = 0 := by
    unfold CommitRow.kind PartitionCommitError.of
    split_ifs <;> simp_all
  simp only [acknowledgedOf, mem_toFinset, mem_map, mem_filter, decide_eq_true_eq, isNone]
  exact ⟨fun ⟨⟨_, _⟩, ⟨member, rfl⟩, rfl⟩ => member, fun member => ⟨_, ⟨member, rfl⟩, rfl⟩⟩

theorem acknowledged_eq {outcome : CommitOutcome}
    (isOk : commitResponseOutcome context topics = .ok outcome) :
    outcome.acknowledged = acknowledgedOf (rowsOf topics) := by
  by_cases isEmpty : rowsOf topics = []
  · rw [commitResponseOutcome, isEmpty] at isOk
    cases isOk
    rw [isEmpty]
    rfl
  · rcases @outcome_of_worst context _ isEmpty with ⟨row, _, decided⟩
    rw [decided, rowOutcome] at isOk
    split at isOk <;> cases isOk <;> rfl

/-- A row acknowledged the partition, or its ownership `id` has ended. -/
def Settled (events : List Event) (key : TopicPartition) (id : Nat) : Prop :=
  (Exists fun topics => .answered topics ∈ events ∧ ⟨key, 0⟩ ∈ rowsOf topics) ∨
    Exists fun ids : OwnershipIds => .identity ids ∈ events ∧ ids.get? key ≠ some id

/-- No partition is sent after a row has acknowledged it. -/
def NeverAgain (events : List Event) : Prop :=
  events.Pairwise fun earlier later => forall topics pending key, earlier = .answered topics ->
    later = .sent pending -> ⟨key, 0⟩ ∈ rowsOf topics -> pending.get? key = none

theorem answerTurn_spec {outcome : CommitOutcome} (turn : Turn)
    (isOk : commitResponseOutcome context topics = .ok outcome) {entry : Int × Nat} :
    (answerTurn turn pending outcome).1.get? key = some entry <->
      pending.get? key = some entry ∧ ⟨key, 0⟩ ∉ rowsOf topics := by
  have retained : (answerTurn turn pending outcome).1 =
      retainUnacknowledged pending (acknowledgedOf (rowsOf topics)) := by
    rw [<- acknowledged_eq isOk]
    cases outcome <;> rfl
  rw [retained, retainUnacknowledged, SortedMap.get?_filter, Option.filter_eq_some_iff,
    decide_eq_true_iff, mem_acknowledgedOf]

/-- One turn sends only what is pending, and leaves what it has not settled. -/
structure TurnSpec (pending : PendingOffsets) (events : List Event)
    (next : Except CommitError (PendingOffsets × Option CommitError)) : Prop where
  within : forall sent key entry, .sent sent ∈ events -> sent.get? key = some entry ->
    pending.get? key = some entry
  once : NeverAgain events
  left : forall later, next = .ok later -> forall key entry, later.1.get? key = some entry <->
    pending.get? key = some entry ∧ ¬Settled events key entry.2

theorem attempt_spec (turn : Turn) (pending : PendingOffsets) :
    TurnSpec pending (attempt turn pending).1 (attempt turn pending).2 := by
  have owned (key : TopicPartition) (entry : Int × Nat) :
      (retainContinuouslyOwned pending turn.ids).get? key = some entry <->
        pending.get? key = some entry ∧ turn.ids.get? key = some entry.2 := by
    rw [retainContinuouslyOwned, SortedMap.get?_filter, Option.filter_eq_some_iff,
      decide_eq_true_iff]
  have keeps (events : List Event) (settled : forall key id,
      Settled events key id <-> turn.ids.get? key ≠ some id) (stop : Option CommitError) :
      forall later, Except.ok (retainContinuouslyOwned pending turn.ids, stop) =
          (.ok later : Except CommitError _) ->
        forall key entry, later.1.get? key = some entry <->
          pending.get? key = some entry ∧ ¬Settled events key entry.2 := by
    rintro _ ⟨⟩ key entry
    rw [owned, settled, not_not]
  dsimp only [attempt]
  split
  · exact ⟨by simp, by simp [NeverAgain], by simp⟩
  split
  · exact ⟨by simp, by simp [NeverAgain], keeps _ (by simp [Settled]) none⟩
  cases turn.reply with
  | lost => exact ⟨by simp +contextual [owned], by simp [NeverAgain], keeps _ (by simp [Settled]) _⟩
  | failed => exact ⟨by simp +contextual [owned], by simp [NeverAgain], by simp⟩
  | response context topics =>
    refine ⟨by simp +contextual [owned], by simp [NeverAgain], fun later left key entry => ?_⟩
    cases isOutcome : commitResponseOutcome context topics with
    | error error => simp [isOutcome, Except.map] at left
    | ok outcome =>
      simp only [isOutcome, Except.map, Except.ok.injEq] at left
      rw [<- left, answerTurn_spec turn isOutcome, owned]
      simp [Settled]
      tauto

theorem Settled.mono {events more : List Event} {id : Nat} (settled : Settled events key id)
    (subset : events ⊆ more) : Settled more key id :=
  settled.imp (fun ⟨topics, member, row⟩ => ⟨topics, subset member, row⟩)
    fun ⟨ids, member, ended⟩ => ⟨ids, subset member, ended⟩

end Loop

/-- A commit sends only pending partitions, none after it was acknowledged, and returns `Ok` only
when each pending partition was acknowledged or its ownership has ended. -/
theorem commitPendingOffsets_settles (turns : List Turn) (pending : PendingOffsets) :
    (forall sent key entry, .sent sent ∈ (commitPendingOffsets turns pending).1 ->
        sent.get? key = some entry -> pending.get? key = some entry) ∧
      NeverAgain (commitPendingOffsets turns pending).1 ∧
      ((commitPendingOffsets turns pending).2 = some (.ok ()) ->
        forall key entry, pending.get? key = some entry ->
          Settled (commitPendingOffsets turns pending).1 key entry.2) := by
  induction turns generalizing pending with
  | nil => exact ⟨by simp [commitPendingOffsets], .nil, by simp [commitPendingOffsets]⟩
  | cons turn turns ih =>
    have spec := attempt_spec turn pending
    rw [commitPendingOffsets]
    generalize attempt turn pending = attempted at spec ⊢
    rcases attempted with ⟨events, error | ⟨later, stop⟩⟩
    · exact ⟨spec.within, spec.once, by simp⟩
    have left := spec.left _ rfl
    dsimp only at left ⊢
    by_cases isEmpty : later.entries = []
    · rw [if_pos isEmpty]
      refine ⟨spec.within, spec.once, fun _ key entry found => ?_⟩
      by_contra unsettled
      have stays := (left key entry).mpr ⟨found, unsettled⟩
      rw [SortedMap.get?, isEmpty] at stays
      cases stays
    rw [if_neg isEmpty]
    cases stop with
    | some error => exact ⟨spec.within, spec.once, by simp⟩
    | none =>
      rcases ih later with ⟨within, once, settled⟩
      refine ⟨fun sent key entry member isSent => ?_, pairwise_append.mpr ⟨spec.once, once, ?_⟩,
        fun isOk key entry found => ?_⟩
      · rcases mem_append.mp member with here | afterwards
        · exact spec.within sent key entry here isSent
        · exact ((left key entry).mp (within sent key entry afterwards isSent)).1
      · rintro _ inEvents _ inLater topics sent key rfl rfl row
        refine Option.eq_none_iff_forall_ne_some.mpr fun entry isSent => ?_
        have unsettled := ((left key entry).mp (within sent key entry inLater isSent)).2
        exact unsettled (.inl ⟨topics, inEvents, row⟩)
      · by_cases here : Settled events key entry.2
        · exact here.mono (subset_append_left _ _)
        · have stays := (left key entry).mpr ⟨found, here⟩
          exact (settled isOk key entry stays).mono (subset_append_right _ _)

end CommitSync
end Consumer
end Krabka
