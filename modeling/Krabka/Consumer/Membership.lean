import Krabka.Consumer.GroupMember

namespace Krabka
namespace Consumer
namespace GroupMember
namespace Membership

/-!
# Membership of the group

The loop of the member task.  Two flags disarm the heartbeat timer and the poll timer:
one after the poll timer expired, one after `unsubscribe`.  The task sends a leave
heartbeat when it sets either flag, and at its end when neither is set.

`inGroup` is the view of the coordinator: a join was accepted since the last leave.  A
request may be accepted although its answer is lost.
-/

inductive GroupMembershipOperation where
  | leaveGroup
  | remainInGroup
  | default
deriving DecidableEq, Repr

/-- The epoch of the heartbeat that leaves the group. -/
def leaveGroupEpoch (groupInstanceId : Option String) (operation : GroupMembershipOperation) :
    Int :=
  if operation = .leaveGroup then LEAVE_GROUP_MEMBER_EPOCH
  else if groupInstanceId.isSome then LEAVE_GROUP_STATIC_MEMBER_EPOCH
  else LEAVE_GROUP_MEMBER_EPOCH

def asksToLeave (groupInstanceId : Option String) (operation : GroupMembershipOperation) : Bool :=
  !(groupInstanceId.isNone && operation = .remainInGroup)

def shouldSendLeaveHeartbeat (memberId : String) (groupInstanceId : Option String)
    (operation : GroupMembershipOperation) : Bool :=
  if memberId = "" then false else asksToLeave groupInstanceId operation

/-- The value of the subscription channel. -/
structure Subscription where
  unsubscribes : Nat
  /-- Whether the consumer subscribes to nothing. -/
  isNone : Bool
deriving DecidableEq, Repr

/-- Where the loop is. -/
inductive Phase where
  /-- It waits for an event. -/
  | waiting
  /-- It sends a heartbeat next. -/
  | sending
  | stopped
deriving DecidableEq, Repr

/-- The end of the task without a fatal error. -/
structure Closing where
  operation : GroupMembershipOperation
  /-- Whether the member was in the group. -/
  inGroup : Bool
  leaveSent : Bool
deriving DecidableEq, Repr

structure Task where
  member : Member
  groupInstanceId : Option String
  phase : Phase
  seenUnsubscribes : Nat
  pollsOpen : Bool
  leftOnPollTimeout : Bool
  unsubscribed : Bool
  fatal : Bool
  /-- Whether a join was accepted since the last leave. -/
  inGroup : Bool
  closed : Option Closing

inductive Act where
  /-- The heartbeat interval elapsed. -/
  | heartbeat
  | poll
  /-- The sender of the poll channel is gone. -/
  | pollsClosed
  | subscription (subscription : Subscription)
  | pollTimeout
  /-- The heartbeat goes out and is answered. -/
  | beat (reply : Reply) (surroundings : Surroundings) (accepted : Bool)
  /-- Shutdown, or the end of the subscription channel.  It may cut a heartbeat that the
  coordinator accepts. -/
  | shutdown (operation : GroupMembershipOperation) (accepted : Bool)

namespace Task

/-- Whether the heartbeat timer and the poll timer are armed. -/
def armed (task : Task) : Bool := !task.leftOnPollTimeout && !task.unsubscribed

def start (memberId : String) (groupInstanceId : Option String) : Task where
  member := ⟨memberId, JOIN_GROUP_MEMBER_EPOCH, Collections.SortedMap.empty, [], false⟩
  groupInstanceId := groupInstanceId
  phase := .sending
  seenUnsubscribes := 0
  pollsOpen := true
  leftOnPollTimeout := false
  unsubscribed := false
  fatal := false
  inGroup := false
  closed := none

/-- Send a leave heartbeat, give up the partitions, and join with the next heartbeat. -/
def leave (task : Task) (rebalancePending : Bool) : Task :=
  { task with
    member := { task.member with
      memberEpoch := JOIN_GROUP_MEMBER_EPOCH
      assigned := []
      rebalancePending := rebalancePending }
    inGroup := false }

/-- Join again with the next heartbeat. -/
def rejoin (task : Task) : Task :=
  { task with
    member := { task.member with memberEpoch := JOIN_GROUP_MEMBER_EPOCH }
    phase := .sending }

/-- The end of the task after shutdown. -/
def close (task : Task) (operation : GroupMembershipOperation) : Task :=
  let leaves := task.armed && !task.fatal &&
    shouldSendLeaveHeartbeat task.member.memberId task.groupInstanceId operation
  { task with
    phase := .stopped
    member :=
      if leaves then
        { task.member with memberEpoch := leaveGroupEpoch task.groupInstanceId operation }
      else task.member
    inGroup := task.inGroup && !leaves
    closed := some ⟨operation, task.inGroup, leaves⟩ }

/-- A subscription event. -/
def subscribe (task : Task) (subscription : Subscription) : Task :=
  if subscription.unsubscribes ≠ task.seenUnsubscribes then
    { task.leave false with
      seenUnsubscribes := subscription.unsubscribes
      unsubscribed := true }
  else if subscription.isNone then task
  else if task.unsubscribed then { task.rejoin with unsubscribed := false }
  else { task with phase := .sending }

/-- One heartbeat with its outcome. -/
def beat (task : Task) (reply : Reply) (surroundings : Surroundings) (accepted : Bool) : Task :=
  let result := heartbeatOnce task.member reply surroundings
  let joined : Bool :=
    match reply with
    | .response response => response.errorCode = 0
    | .failed _ => accepted
  let answered := { task with member := result.1, inGroup := task.inGroup || joined }
  match result.2 with
  | .interval => { answered with phase := .waiting }
  -- The next heartbeat goes out at once.
  | .reconciled | .backoff => { answered with phase := .sending }
  | .stop => { answered with fatal := true, phase := .stopped }

def step (task : Task) (act : Act) : Option Task :=
  match task.phase, act with
  | .waiting, .heartbeat => if task.armed then some { task with phase := .sending } else none
  | .waiting, .poll =>
    if task.pollsOpen then
      if task.leftOnPollTimeout then some { task.rejoin with leftOnPollTimeout := false }
      else some task
    else none
  | .waiting, .pollsClosed => some { task with pollsOpen := false }
  | .waiting, .subscription subscription => some (task.subscribe subscription)
  | .waiting, .pollTimeout =>
    if task.armed then some { task.leave true with leftOnPollTimeout := true } else none
  | .waiting, .shutdown operation _ => some (task.close operation)
  | .sending, .beat reply surroundings accepted => some (task.beat reply surroundings accepted)
  | .sending, .shutdown operation accepted =>
    some ({ task with inGroup := task.inGroup || accepted }.close operation)
  | _, _ => none

end Task

/-- No poll finds both flags set, and no new subscription finds the member left after a poll
timeout. -/
def Undisturbed (task : Task) : Act -> Prop
  | .poll => ¬(task.leftOnPollTimeout = true ∧ task.unsubscribed = true)
  | .subscription subscription => subscription.unsubscribes = task.seenUnsubscribes ->
      subscription.isNone = false -> task.leftOnPollTimeout = false
  | _ => True

instance (task : Task) (act : Act) : Decidable (Undisturbed task act) := by
  cases act <;> unfold Undisturbed <;> infer_instance

/-- The flags say whether the member is in the group. -/
structure Engaged (task : Task) : Prop where
  named : task.member.memberId ≠ ""
  sending : task.phase = .sending -> task.armed = true
  disarmed : task.armed = false -> task.inGroup = false
  fatal : task.phase ≠ .stopped -> task.fatal = false
  closed : forall closing, task.closed = some closing -> closing.inGroup = true ->
    asksToLeave task.groupInstanceId closing.operation = true -> closing.leaveSent = true

/-! ## Heartbeats -/

theorem reconcile_memberId (member : Member) (target : List TopicPartition)
    (surroundings : Surroundings) :
    (reconcile member target surroundings).1.memberId = member.memberId := by
  dsimp only [reconcile]
  repeat' split
  all_goals rfl

theorem filter_getD_ne {memberId : String} (answered : Option String) (named : memberId ≠ "") :
    (answered.filter fun id => id ≠ "").getD memberId ≠ "" := by
  cases kept : answered.filter fun id => id ≠ "" with
  | none => exact named
  | some id =>
    have nonempty := (Option.filter_eq_some_iff.mp kept).2
    exact of_decide_eq_true nonempty

theorem heartbeatOnce_named {member : Member} (reply : Reply) (surroundings : Surroundings)
    (named : member.memberId ≠ "") :
    (heartbeatOnce member reply surroundings).1.memberId ≠ "" := by
  unfold heartbeatOnce
  cases reply with
  | failed retriable => exact named
  | response response =>
    dsimp only
    split
    · unfold acceptResponse
      split
      · exact filter_getD_ne _ named
      · rw [reconcile_memberId]
        exact filter_getD_ne _ named
    · exact named
    · exact named
    · exact named
    · exact named

theorem outside_of_armed {armed inGroup : Bool} (isArmed : armed = true) :
    armed = false -> inGroup = false :=
  fun disarmed => absurd (isArmed.symm.trans disarmed) Bool.true_eq_false_eq_False

variable {task : Task}

section

variable (engaged : Engaged task)

include engaged

theorem engaged_beat (sending : task.phase = .sending) (reply : Reply) (surroundings : Surroundings)
    (accepted : Bool) :
    Engaged (task.beat reply surroundings accepted) := by
  have armed := engaged.sending sending
  have healthy := engaged.fatal (by rw [sending]; nofun)
  have named := heartbeatOnce_named reply surroundings engaged.named
  dsimp only [Task.beat]
  split
  · exact ⟨named, nofun, outside_of_armed armed, fun _ => healthy, engaged.closed⟩
  · exact ⟨named, fun _ => armed, outside_of_armed armed, fun _ => healthy, engaged.closed⟩
  · exact ⟨named, fun _ => armed, outside_of_armed armed, fun _ => healthy, engaged.closed⟩
  · exact ⟨named, nofun, outside_of_armed armed, fun running => absurd rfl running, engaged.closed⟩

/-! ## The other events -/

theorem engaged_close (running : task.phase ≠ .stopped) (operation : GroupMembershipOperation) :
    Engaged (task.close operation) := by
  have healthy := engaged.fatal running
  refine ⟨?_, nofun, ?_, fun isRunning => absurd rfl isRunning, ?_⟩
  · dsimp only [Task.close]
    split
    · exact engaged.named
    · exact engaged.named
  · intro disarmed
    have outside := engaged.disarmed disarmed
    dsimp only [Task.close]
    rw [outside, Bool.false_and]
  · intro closing isClosing inGroup asks
    rw [<- Option.some.inj isClosing] at inGroup asks ⊢
    have armed : task.armed = true := by
      by_contra disarmed
      have outside := engaged.disarmed (Bool.of_not_eq_true disarmed)
      cases outside.symm.trans inGroup
    rw [armed, healthy, shouldSendLeaveHeartbeat, if_neg engaged.named]
    exact asks

theorem engaged_subscribe (waiting : task.phase = .waiting) {subscription : Subscription}
    (undisturbed : Undisturbed task (.subscription subscription)) :
    Engaged (task.subscribe subscription) := by
  have healthy := engaged.fatal (by rw [waiting]; nofun)
  unfold Task.subscribe
  split
  · refine ⟨engaged.named, ?_, fun _ => rfl, fun _ => healthy, engaged.closed⟩
    exact fun sending => absurd (waiting.symm.trans sending) nofun
  · rename_i seen
    split
    · exact engaged
    · rename_i some
      have present := undisturbed (not_not.mp seen) (Bool.of_not_eq_true some)
      split
      · rename_i unsubscribed
        refine ⟨engaged.named, ?_, ?_, fun _ => healthy, engaged.closed⟩
        · intro _
          change (!task.leftOnPollTimeout && !false) = true
          rw [present]
          rfl
        · intro _
          refine engaged.disarmed ?_
          rw [Task.armed, unsubscribed]
          exact Bool.and_false _
      · rename_i subscribed
        have armed : task.armed = true := by
          rw [Task.armed, present, Bool.of_not_eq_true subscribed]
          rfl
        exact { engaged with sending := fun _ => armed, fatal := fun _ => healthy }

theorem engaged_poll (waiting : task.phase = .waiting) (left : task.leftOnPollTimeout = true)
    (undisturbed : Undisturbed task .poll) :
    Engaged { task.rejoin with leftOnPollTimeout := false } := by
  have healthy := engaged.fatal (by rw [waiting]; nofun)
  have subscribed : task.unsubscribed = false :=
    Bool.of_not_eq_true fun unsubscribed => undisturbed ⟨left, unsubscribed⟩
  have armed : (!false && !task.unsubscribed) = true := by
    rw [subscribed]
    rfl
  exact ⟨engaged.named, fun _ => armed, outside_of_armed armed, fun _ => healthy, engaged.closed⟩

theorem step_engaged {next : Task} {act : Act} (undisturbed : Undisturbed task act)
    (stepped : task.step act = some next) :
    Engaged next := by
  unfold Task.step at stepped
  split at stepped
  · rename_i waiting
    split at stepped <;> cases stepped
    rename_i armed
    exact { engaged with
      sending := fun _ => armed, fatal := fun _ => engaged.fatal (by rw [waiting]; nofun) }
  · rename_i waiting
    split at stepped
    · split at stepped
      · rename_i left
        cases stepped
        exact engaged_poll engaged waiting left undisturbed
      · rwa [<- Option.some.inj stepped]
    · cases stepped
  · cases stepped
    exact { engaged with }
  · rename_i waiting
    cases stepped
    exact engaged_subscribe engaged waiting undisturbed
  · rename_i waiting
    split at stepped <;> cases stepped
    exact ⟨engaged.named, fun sending => absurd (waiting.symm.trans sending) nofun,
      fun _ => rfl, engaged.fatal, engaged.closed⟩
  · rename_i waiting
    cases stepped
    exact engaged_close engaged (by rw [waiting]; nofun) _
  · rename_i sending
    cases stepped
    exact engaged_beat engaged sending _ _ _
  · rename_i accepted sending
    cases stepped
    have armed := engaged.sending sending
    have cut : Engaged { task with inGroup := task.inGroup || accepted } :=
      { engaged with disarmed := outside_of_armed armed }
    exact engaged_close cut (by rw [sending]; nofun) _
  · cases stepped

end

theorem engaged_start {memberId : String} (groupInstanceId : Option String)
    (named : memberId ≠ "") : Engaged (Task.start memberId groupInstanceId) :=
  ⟨named, fun _ => rfl, nofun, fun _ => rfl, nofun⟩

/-- The timers are disarmed only outside the group, and a member that is in the group at
shutdown leaves it when the close operation asks for that, in a run in which no poll finds
both flags set and no new subscription finds the member left after a poll timeout. -/
theorem run_flags_agree (memberId : String) (groupInstanceId : Option String)
    (named : memberId ≠ "") (acts : List Act) (task : Task)
    (ran : Transition.run Task.step (Task.start memberId groupInstanceId) acts = some task)
    (undisturbed : Transition.Along Task.step Undisturbed
      (Task.start memberId groupInstanceId) acts) :
    (task.armed = false -> task.inGroup = false) ∧
      forall closing, task.closed = some closing -> closing.inGroup = true ->
        asksToLeave task.groupInstanceId closing.operation = true -> closing.leaveSent = true := by
  have engaged := Transition.run_invariant Engaged
    (fun _ _ _ engaged allowed stepped => step_engaged engaged allowed stepped)
    (engaged_start groupInstanceId named) undisturbed ran
  exact ⟨engaged.disarmed, engaged.closed⟩

/-- A heartbeat that the coordinator accepts. -/
def accepted : Act := .beat (.response ⟨0, none, 1, none⟩) ⟨[], true, true, true⟩ true

theorem run_flags_agree_timeout :
    Exists fun task =>
      Transition.run Task.step (Task.start "m" none)
          [accepted, .pollTimeout, .poll, accepted, .shutdown .default false] = some task ∧
        task.closed = some ⟨.default, true, true⟩ ∧
        (task.armed = false -> task.inGroup = false) :=
  ⟨_, rfl, rfl, (run_flags_agree "m" none (by decide)
    [accepted, .pollTimeout, .poll, accepted, .shutdown .default false] _ rfl (by decide)).1⟩

/-- A new subscription after a poll timeout, and a poll after a poll timeout and an
unsubscribe, each make the member join with its timers disarmed, and shutdown leaves it in
the group. -/
theorem joined_with_timers_disarmed :
    ([[accepted, .pollTimeout, .subscription ⟨0, false⟩, accepted],
        [accepted, .pollTimeout, .subscription ⟨1, true⟩, .poll, accepted]].map fun acts =>
      ((Transition.run Task.step (Task.start "m" none) acts).map fun task =>
          (task.phase, task.armed, task.inGroup),
        (Transition.run Task.step (Task.start "m" none)
            (acts ++ [.shutdown .default false])).map fun task => (task.closed, task.inGroup))) =
      List.replicate 2 (some (.waiting, false, true), some (some ⟨.default, true, false⟩, true)) :=
  rfl

end Membership
end GroupMember
end Consumer
end Krabka
