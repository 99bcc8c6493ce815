import Krabka.Connection.Tasks

namespace Krabka
namespace Connection
namespace Tasks

open Collections (SortedMap)
open List Shared

/-!
# A closed connection leaves no call waiting

The reader fails the requests whose keys it collected, and the writer closes its channel at
another moment.  A request that is registered behind the reader's collection and queued before
the channel closes is seen by neither, and waits for its own timeout.  Without such a request,
once both tasks have ended every call can go on at once, makes a bounded number of moves, and
returns its response or `Disconnected`.
-/

/-- The reader will not look for `corrId` in `pending` any more. -/
def Reader.passed (setup : Setup) (corrId : Int) : Reader -> Prop
  | .running | .fulfilling _ | .left => False
  | .collecting visited keys => setup.shardOf corrId < visited ∧ corrId ∉ keys
  | .failing keys | .failingOne _ keys => corrId ∉ keys
  | .ended => True

instance (setup : Setup) (corrId : Int) (reader : Reader) :
    Decidable (reader.passed setup corrId) := by
  cases reader <;> unfold Reader.passed <;> infer_instance

/-- The request is registered where the reader will not find it. -/
def Missed (setup : Setup) (tasks : Shared) (request : Request) : Prop :=
  tasks.reader.passed setup request.corrId ∧
    tasks.pending.get? request.corrId = some request.tag
deriving Decidable

/-! ## The condition -/

/-- A request that the reader misses goes into the writer's channel only after that is
closed. -/
def Orderly (setup : Setup) (tasks : Shared) : Act -> Prop
  | .poll id .push => tasks.writer ≠ .ended -> forall call, call ∈ tasks.calls.get? id ->
      forall request, request ∈ call.stage.request? -> ¬Missed setup tasks request
  | _ => True

instance (setup : Setup) (tasks : Shared) (act : Act) : Decidable (Orderly setup tasks act) := by
  unfold Orderly
  split <;> infer_instance

/-! ## No request that waits is missed -/

def Caught (setup : Setup) (tasks : Shared) : Prop :=
  forall id call, tasks.calls.get? id = some call ->
    forall request, call.stage.awaited? = some request -> request.slot = .empty ->
      ¬Missed setup tasks request

namespace Caught

variable {setup : Setup} {tasks next : Shared} {id : Nat} {call : Call} {stage : Stage}

section

variable (caught : Caught setup tasks)

include caught

theorem erase (corrId : Int) :
    Caught setup (tasks.erase corrId) :=
  fun id call found request awaits isEmpty missed =>
    caught id call found request awaits isEmpty ⟨missed.1, SortedMap.get?_of_filter missed.2⟩

/-- No call waits for the answer to the new request. -/
theorem register {tag : Tag} (corrId : Int)
    (fresh : forall id call, tasks.calls.get? id = some call ->
      forall request, call.stage.awaited? = some request -> request.tag ≠ tag) :
    Caught setup (tasks.register tag corrId) := by
  intro id call found request awaits isEmpty missed
  rcases SortedMap.of_get?_insert missed.2 with ⟨_, same⟩ | ⟨_, registered⟩
  · exact fresh id call found request awaits same
  · exact caught id call found request awaits isEmpty ⟨missed.1, registered⟩

theorem move (awaits : forall request, stage.awaited? = some request -> request.slot = .empty ->
      ¬Missed setup tasks request) :
    Caught setup (tasks.move id call stage) := by
  intro other otherCall found request isAwaited isEmpty missed
  rcases found_move found with ⟨_, rfl⟩ | ⟨_, found⟩
  · exact awaits request isAwaited isEmpty missed
  · exact caught other otherCall found request isAwaited isEmpty missed

theorem idle (awaits : stage.awaited? = none) :
    Caught setup (tasks.move id call stage) :=
  caught.move (fun _ isAwaited => absurd (awaits.symm.trans isAwaited) nofun)

theorem finish (id : Nat) (outcome : Outcome) :
    Caught setup (tasks.finish id outcome) :=
  fun other otherCall found => caught other otherCall (found_finish found).2

theorem fill (tag : Tag) {slot : Slot} (filled : slot ≠ .empty) :
    Caught setup (tasks.fill tag slot) := by
  intro id call found request awaits isEmpty missed
  rcases found_fill found with ⟨before, isBefore, rfl | rfl⟩
  · exact caught id call isBefore request awaits isEmpty missed
  · rw [Stage.awaited?_fill, Option.map_eq_some_iff] at awaits
    rcases awaits with ⟨old, isOld, rfl⟩
    split at isEmpty
    · exact filled isEmpty
    · rename_i other
      rw [if_neg other] at missed
      exact caught id before isBefore old isOld isEmpty missed

end

/-- While the reader looks at every key, nothing is missed. -/
theorem of_reader (looks : forall corrId, ¬tasks.reader.passed setup corrId) :
    Caught setup tasks :=
  fun _ _ _ request _ _ missed => looks request.corrId missed.1

section

variable (caught : Caught setup tasks)

include caught

/-- The reader goes on, and passes only ids that it passed before or that nobody waits for. -/
theorem onward {reader : Reader} (passed : forall corrId tag, reader.passed setup corrId ->
      tasks.pending.get? corrId = some tag -> tasks.reader.passed setup corrId) :
    Caught setup { tasks with reader := reader } :=
  fun id call found request awaits isEmpty missed =>
    caught id call found request awaits isEmpty
      ⟨passed request.corrId request.tag missed.1 missed.2, missed.2⟩

/-- A call that waits for no answer registers a request. -/
theorem register_own (sound : Sound tasks) (found : tasks.calls.get? id = some call)
    (awaits : call.stage.awaited? = none) (tag : Tag) (isCall : tag.call = id) (corrId : Int) :
    Caught setup (tasks.register tag corrId) := by
  refine caught.register corrId ?_
  intro other otherCall isOther request isAwaited same
  have owner := (sound.owner other otherCall isOther).call (Stage.request?_of_awaited? isAwaited)
  rw [same, isCall] at owner
  rw [<- owner, found] at isOther
  rw [<- Option.some.inj isOther, awaits] at isAwaited
  cases isAwaited

theorem poll (sound : Sound tasks) {move : Move} (orderly : Orderly setup tasks (.poll id move))
    (found : tasks.calls.get? id = some call) (polled : Poll tasks id call move next) :
    Caught setup next := by
  cases polled with
  | register checking free notDue =>
    exact (caught.register_own sound found (by rw [checking]; rfl) (.own id) rfl call.corrId).idle
      rfl
  | @saslRequest saslId answered exchange =>
    have registered := caught.register_own sound found (by rw [exchange]; rfl)
      (.sasl id tasks.exchanged) rfl (nextReservedId saslId).1
    exact @idle _ _ id call _ registered rfl
  | @pushed tag framed opened =>
    refine caught.move fun request isAwaited _ missed => ?_
    have requested := (Stage.pushed_spec framed).1 request (Stage.request?_of_awaited? isAwaited)
    exact orderly opened call found request requested missed
  | refused framed closed =>
    exact caught.idle (Stage.awaited?_of_request? (Stage.refused_spec framed).1)
  | took awaits answered =>
    exact caught.idle (Stage.awaited?_of_request? (Stage.took_spec awaits).1)
  | lost awaits answered =>
    exact caught.idle (Stage.awaited?_of_request? (Stage.lost_spec awaits).1)
  | expired awaits unanswered =>
    exact caught.idle (Stage.awaited?_of_request? (Stage.expired_spec awaits).1)
  | @erase corrId | @release _ _ corrId => exact (caught.erase corrId).idle rfl
  | finish unwinds => exact caught.finish id _
  | _ => exact @idle _ _ id call _ caught rfl

theorem read {act : ReaderAct} (read : Read setup tasks act next) :
    Caught setup next := by
  cases read with
  | ignore _ _ => exact caught
  | receive | fulfil | leave => exact of_reader (fun _ => id)
  | cancel _ => exact of_reader (fun _ passed => absurd passed.1 (Nat.not_lt_zero _))
  | @collect visited keys collecting more =>
    refine caught.onward ?_
    intro corrId tag passed registered
    rw [collecting]
    have unseen := mem_append.not.mp passed.2
    refine ⟨?_, fun seen => unseen (.inl seen)⟩
    -- The id is not in the shard that was just visited, whose keys were all collected.
    rcases Nat.lt_succ_iff_lt_or_eq.mp passed.1 with before | isVisited
    · exact before
    · have member : corrId ∈ tasks.pending.keys := by
        rw [SortedMap.mem_keys_iff, SortedMap.contains, registered]
        rfl
      exact absurd (.inr (mem_filter.mpr ⟨member, decide_eq_true isVisited⟩)) unseen
  | @collected visited keys collecting all =>
    refine caught.onward ?_
    intro corrId tag passed _
    rw [collecting]
    exact ⟨lt_of_lt_of_le (setup.shardOf_lt corrId) all, passed⟩
  | @skip key keys failing absent =>
    refine caught.onward ?_
    intro corrId tag passed registered
    rw [failing]
    intro member
    rcases mem_cons.mp member with same | later
    · rw [same, absent] at registered
      cases registered
    · exact passed later
  | @remove key keys tag failing registered =>
    refine (caught.erase key).onward ?_
    intro corrId other passed stays
    change (tasks.pending.erase key).get? corrId = some other at stays
    change tasks.reader.passed setup corrId
    rw [failing]
    intro member
    rcases mem_cons.mp member with same | later
    · rw [SortedMap.get?_erase, if_pos same] at stays
      cases stays
    · exact passed later
  | @fail tag keys failing =>
    have filled : Caught setup (tasks.fill tag .disconnected) := caught.fill tag (by decide)
    refine filled.onward ?_
    intro corrId _ passed _
    change tasks.reader.passed setup corrId
    rw [failing]
    exact passed
  | finish failing =>
    refine caught.onward ?_
    intro corrId _ _ _
    rw [failing]
    exact not_mem_nil

end

end Caught

variable {act : Act}

variable {tasks next : Shared} {setup : Setup}

theorem step_caught (sound : Sound tasks) (caught : Caught setup tasks)
    (orderly : Orderly setup tasks act) (stepped : tasks.step setup act = some next) :
    Caught setup next := by
  cases step_inv stepped with
  | begin kind => exact @Caught.idle _ _ _ ⟨kind, tasks.nextCorrId, .checking⟩ .checking caught rfl
  | poll found polled => exact caught.poll sound orderly found polled
  | drop found => exact caught.finish _ .dropped
  | @dropRequest id call request found requested =>
    exact (caught.erase request.corrId).finish _ .dropped
  | reader read => exact caught.read read
  | _ => exact caught

/-! ## Both tasks have ended -/

structure Closed (tasks : Shared) : Prop where
  reader : tasks.reader = .ended
  writer : tasks.writer = .ended

/-- The call can make a move that is not its request timeout. -/
def Ready (setup : Setup) (tasks : Shared) (id : Nat) : Prop :=
  Exists fun move => move ≠ .timeout ∧ (tasks.step setup (.poll id move)).isSome = true

theorem Ready.of_poll {id : Nat} {call : Call} (found : tasks.calls.get? id = some call)
    (move : Move) (different : move ≠ .timeout)
    (polled : (tasks.pollStep setup id call move).isSome = true) : Ready setup tasks id := by
  refine ⟨move, different, ?_⟩
  rw [Shared.step, found, Option.bind_some]
  exact polled

namespace Closed

variable {setup : Setup} {tasks next : Shared} {id : Nat} {call : Call}

theorem answered (closed : Closed tasks) (caught : Caught setup tasks)
    (found : tasks.calls.get? id = some call) {request : Request}
    (awaits : call.stage.awaited? = some request) : tasks.answer request ≠ .empty := by
  unfold Shared.answer
  split
  · rename_i isEmpty
    have unregistered : tasks.pending.get? request.corrId ≠ some request.tag := by
      intro registered
      refine caught id call found request awaits isEmpty ⟨?_, registered⟩
      rw [closed.reader]
      trivial
    rw [if_neg]
    · nofun
    · rintro (registered | inHand)
      · exact unregistered registered
      · rw [closed.reader] at inHand
        cases inHand
  · assumption

theorem ready_push (closed : Closed tasks) (found : tasks.calls.get? id = some call) {tag : Tag}
    (framed : call.stage.frame? id = some tag) : Ready setup tasks id := by
  refine .of_poll found .push nofun ?_
  change ((call.stage.frame? id).bind (tasks.pushFrame setup id call)).isSome = true
  rw [framed, Option.bind_some, Shared.pushFrame, if_pos closed.writer]
  rfl

section

variable (closed : Closed tasks) (caught : Caught setup tasks)
  (found : tasks.calls.get? id = some call)

include closed caught found

theorem ready_take {request : Request} (awaits : call.stage.awaited? = some request) :
    Ready setup tasks id := by
  have answered := closed.answered caught found awaits
  refine .of_poll found .take nofun ?_
  change (call.stage.awaited?.bind (tasks.takeAnswer id call)).isSome = true
  rw [awaits, Option.bind_some, Shared.takeAnswer]
  split
  · contradiction
  · rfl
  · rfl

/-- A call that does not wait for the lock of the due time can go on. -/
theorem ready (checks : call.stage ≠ .checking) (waits : call.stage ≠ .waiting) :
    Ready setup tasks id := by
  cases isStage : call.stage with
  | checking => exact absurd isStage checks
  | waiting => exact absurd isStage waits
  | exchange saslId answered =>
    refine .of_poll found .saslRequest nofun ?_
    unfold Shared.pollStep
    rw [isStage]
    rfl
  | exchangeTaken saslId answered corrId =>
    refine .of_poll found .unwind nofun ?_
    unfold Shared.pollStep
    rw [isStage]
    rfl
  | submit | queue | exchangeQueue => exact closed.ready_push found (by rw [isStage]; rfl)
  | await | exchangeAwait => exact closed.ready_take caught found (by rw [isStage]; rfl)
  | unwind ops guard outcome =>
    refine .of_poll found .unwind nofun ?_
    unfold Shared.pollStep
    rw [isStage]
    rcases ops with _ | ⟨op, rest⟩
    · rfl
    · cases op <;> rfl

/-- A call that holds the lock can go on. -/
theorem holder_ready (holds : call.stage.guard ≠ .none) :
    Ready setup tasks id := by
  refine closed.ready caught found ?_ ?_
  · intro checking
    rw [checking] at holds
    exact holds rfl
  · intro waiting
    rw [waiting] at holds
    exact holds rfl

end

end Closed

/-- A call can go on, or it waits for the lock of the due time and a call that holds the lock
can go on. -/
def GoesOn (setup : Setup) (tasks : Shared) (id : Nat) (call : Call) : Prop :=
  Ready setup tasks id ∨
    (call.stage = .checking ∨ call.stage = .waiting) ∧
      Exists fun holder => Exists fun holding => tasks.calls.get? holder = some holding ∧
        holding.stage.guard ≠ .none ∧ Ready setup tasks holder

theorem Closed.goesOn (closed : Closed tasks) (caught : Caught setup tasks) {id : Nat} {call : Call}
    (found : tasks.calls.get? id = some call) : GoesOn setup tasks id call := by
  have of_holder : forall entry, entry ∈ tasks.calls.entries -> entry.2.stage.guard ≠ .none ->
      call.stage = .checking ∨ call.stage = .waiting -> GoesOn setup tasks id call := by
    intro entry member holds waits
    have isHolder := (tasks.calls.mem_entries_iff entry.1 entry.2).mp member
    exact .inr ⟨waits, entry.1, entry.2, isHolder, holds, closed.holder_ready caught isHolder holds⟩
  by_cases checking : call.stage = .checking
  · cases locked : tasks.locked with
    | true =>
      rcases any_eq_true.mp locked with ⟨entry, member, isWrite⟩
      have isWrite := of_decide_eq_true isWrite
      refine of_holder entry member ?_ (.inl checking)
      rw [isWrite]
      nofun
    | false =>
      refine .inl (.of_poll found .readLock nofun ?_)
      unfold Shared.pollStep
      rw [checking]
      rw [locked]
      rfl
  · by_cases waiting : call.stage = .waiting
    · cases held : tasks.held with
      | true =>
        rcases any_eq_true.mp held with ⟨entry, member, holds⟩
        exact of_holder entry member (of_decide_eq_true holds) (.inr waiting)
      | false =>
        refine .inl (.of_poll found .writeLock nofun ?_)
        unfold Shared.pollStep
        rw [waiting]
        rw [held]
        cases tasks.due <;> rfl
    · exact .inl (closed.ready caught found checking waiting)

/-! ## How many moves are left -/

/-- The exchange may still succeed: it has an answer. -/
def Stage.hopeful : Stage -> Bool
  | .exchange _ answered => 0 < answered
  | .exchangeAwait _ _ request => request.slot = .body
  | .exchangeTaken _ _ _ => true
  | _ => false

/-- Whether an exchange may still succeed. -/
def Shared.hope (tasks : Shared) : Bool :=
  tasks.calls.entries.any fun entry => entry.2.stage.hopeful

/-- The moves that are left to a call, once both tasks have ended.  A call that waits for the
lock goes back to its check when an exchange has succeeded meanwhile. -/
def Stage.budget (hope due : Bool) : Stage -> Nat
  | .checking => if hope then 9 else 7
  | .waiting => if hope then if due then 8 else 10 else if due then 6 else 8
  | .exchange _ answered => if answered = 0 then 5 else 8
  | .exchangeQueue _ _ _ => 4
  | .exchangeAwait _ _ request => if request.slot = .body then 10 else 4
  | .exchangeTaken _ _ _ => 9
  | .submit => 2
  | .queue _ | .await _ => 3
  | .unwind ops _ _ => ops.length + 1

/-- Hope and the due time, before and after a step. -/
structure Fades (hope due nextHope nextDue : Bool) : Prop where
  hopes : nextHope = true -> hope = true
  dues : nextDue = due ∨ nextDue = true ∨ (hope = true ∧ nextHope = false)

theorem budget_fades {hope due nextHope nextDue : Bool} (fades : Fades hope due nextHope nextDue)
    (stage : Stage) : stage.budget nextHope nextDue ≤ stage.budget hope due := by
  rcases fades with ⟨hopes, dues⟩
  cases stage with
  | checking | waiting =>
    revert hopes dues
    revert hope due nextHope nextDue
    decide
  | _ => exact le_refl _

theorem hope_iff (tasks : Shared) : tasks.hope = true <->
    Exists fun id => Exists fun call => tasks.calls.get? id = some call ∧
      call.stage.hopeful = true := by
  rw [Shared.hope, any_eq_true]
  constructor
  · rintro ⟨⟨id, call⟩, member, hopeful⟩
    exact ⟨id, call, (tasks.calls.mem_entries_iff id call).mp member, hopeful⟩
  · rintro ⟨id, call, found, hopeful⟩
    exact ⟨(id, call), (tasks.calls.mem_entries_iff id call).mpr found, hopeful⟩

theorem guard_of_hopeful {stage : Stage} (hopeful : stage.hopeful = true) :
    stage.guard = .write := by
  cases stage <;> first | rfl | cases hopeful

/-- The moves that are left to the call `id`, which may also begin later. -/
def Shared.allowance (tasks : Shared) (id : Nat) : Nat :=
  match tasks.calls.get? id with
  | some call => call.stage.budget tasks.hope tasks.due
  | none => if tasks.allocated ≤ id then 10 else 0

def Act.polls (id : Nat) : Act -> Bool
  | .poll other _ => other = id
  | _ => false

section Allowance

variable {setup : Setup} {tasks next : Shared} {id : Nat} {call : Call} {stage : Stage}

section

variable (calls : next.calls = tasks.calls.insert id { call with stage := stage })

include calls

theorem hope_insert (hopeful : stage.hopeful = true -> tasks.hope = true) :
    next.hope = true -> tasks.hope = true := by
  rw [hope_iff next]
  rintro ⟨other, otherCall, isOther, isHopeful⟩
  rw [calls] at isOther
  rcases SortedMap.of_get?_insert isOther with ⟨_, moved⟩ | ⟨_, isOther⟩
  · rw [moved] at isHopeful
    exact hopeful isHopeful
  · exact (hope_iff tasks).mpr ⟨other, otherCall, isOther, isHopeful⟩

omit calls in
theorem hope_finish {outcome : Outcome} (hopes : (tasks.finish id outcome).hope = true) :
    tasks.hope = true := by
  rw [hope_iff] at hopes ⊢
  rcases hopes with ⟨other, otherCall, isOther, hopeful⟩
  exact ⟨other, otherCall, (found_finish isOther).2, hopeful⟩

/-- After an exchange has succeeded, no other one may. -/
theorem hope_succeeded (sound : Sound tasks) (found : tasks.calls.get? id = some call)
    (exclusive : call.stage.guard = .write) (hopeless : stage.hopeful = false) : next.hope = false := by
  rw [Bool.eq_false_iff]
  intro hopes
  rcases (hope_iff next).mp hopes with ⟨other, otherCall, isOther, hopeful⟩
  rw [calls] at isOther
  rcases SortedMap.of_get?_insert isOther with ⟨_, moved⟩ | ⟨different, isOther⟩
  · rw [moved] at hopeful
    cases hopeless.symm.trans hopeful
  · refine different (sound.alone id call found exclusive other otherCall isOther ?_)
    rw [guard_of_hopeful hopeful]
    nofun

omit calls in
/-- A call that stays where it is gets no more moves. -/
theorem allowance_kept {other : Nat} (kept : next.calls.get? other = tasks.calls.get? other)
    (allocated : next.allocated = tasks.allocated)
    (fades : Fades tasks.hope tasks.due next.hope next.due) :
    next.allowance other ≤ tasks.allowance other := by
  unfold Shared.allowance
  rw [kept, allocated]
  cases tasks.calls.get? other with
  | none => exact le_refl _
  | some otherCall => exact budget_fades fades otherCall.stage

theorem allowance_insert (found : tasks.calls.get? id = some call)
    (allocated : next.allocated = tasks.allocated)
    (fades : Fades tasks.hope tasks.due next.hope next.due)
    (fewer : stage.budget next.hope next.due < call.stage.budget tasks.hope tasks.due) (move : Move)
    (other : Nat) :
    next.allowance other + ((Act.poll id move).polls other).toNat ≤ tasks.allowance other := by
  by_cases same : other = id
  · unfold Shared.allowance
    rw [calls, same, SortedMap.get?_insert_self, found, Act.polls, decide_eq_true rfl]
    exact fewer
  · have notPolled : (Act.poll id move).polls other = false :=
      decide_eq_false (fun isSame => same isSame.symm)
    rw [notPolled]
    exact allowance_kept (by rw [calls, SortedMap.get?_insert, if_neg same]) allocated fades

end

/-- Other calls lose no move when a call is over. -/
theorem allowance_finish (sound : Sound tasks) (found : tasks.calls.get? id = some call)
    (outcome : Outcome) (other : Nat) :
    (tasks.finish id outcome).allowance other ≤ tasks.allowance other ∧
      (tasks.finish id outcome).allowance id = 0 := by
  have begun := sound.begun id call found
  have spent : (tasks.finish id outcome).allowance id = 0 := by
    have erased : (tasks.finish id outcome).calls.get? id = none := by
      change (tasks.calls.erase id).get? id = none
      rw [SortedMap.get?_erase, if_pos rfl]
    unfold Shared.allowance
    rw [erased]
    exact if_neg (Nat.not_le_of_lt begun)
  refine ⟨?_, spent⟩
  by_cases same : other = id
  · rw [same, spent]
    exact Nat.zero_le _
  · refine allowance_kept ?_ rfl ⟨hope_finish, .inl rfl⟩
    change (tasks.calls.erase id).get? other = _
    rw [SortedMap.get?_erase, if_neg same]

variable {request : Request}

theorem answer_body (answered : tasks.answer request = .body) :
    request.slot = .body := by
  unfold Shared.answer at answered
  split at answered
  · split at answered <;> cases answered
  · exact answered

/-- The call whose exchange succeeds goes back to its check. -/
theorem allowance_succeeded (sound : Sound tasks) (found : tasks.calls.get? id = some call)
    {saslId : Int} {answered : Nat} (exchange : call.stage = .exchange saslId answered)
    (enough : 2 ≤ answered)
    (calls : next.calls = tasks.calls.insert id { call with stage := .checking })
    (allocated : next.allocated = tasks.allocated) (move : Move) (other : Nat) :
    next.allowance other + ((Act.poll id move).polls other).toNat ≤ tasks.allowance other := by
  have positive : 0 < answered := Nat.lt_of_lt_of_le Nat.zero_lt_two enough
  have hopeful : call.stage.hopeful = true := by
    rw [exchange]
    exact decide_eq_true positive
  have hopes : tasks.hope = true := (hope_iff tasks).mpr ⟨id, call, found, hopeful⟩
  have hopeless : next.hope = false :=
    hope_succeeded calls sound found (guard_of_hopeful hopeful) rfl
  refine allowance_insert calls found allocated ⟨fun _ => hopes, ?_⟩ ?_ move other
  · exact .inr (.inr ⟨hopes, hopeless⟩)
  · rw [hopeless, exchange, Stage.budget, Stage.budget, if_neg (ne_of_gt positive)]
    decide

theorem budget_refused {tag : Tag} (framed : stage.frame? id = some tag) :
    stage.refused.hopeful = false ∧ forall hope due nextHope nextDue,
      stage.refused.budget nextHope nextDue < stage.budget hope due := by
  cases stage with
  | submit => exact ⟨rfl, fun _ _ _ _ => Nat.one_lt_two⟩
  | queue request => exact ⟨rfl, fun _ _ _ _ => Nat.lt_succ_self 2⟩
  | exchangeQueue saslId answered request => exact ⟨rfl, fun _ _ _ _ => Nat.lt_succ_self 3⟩
  | _ => cases framed

theorem budget_lost (awaits : stage.awaited? = some request) :
    stage.lost.hopeful = false ∧ forall hope due nextHope nextDue,
      stage.lost.budget nextHope nextDue < stage.budget hope due := by
  cases stage with
  | await waiting => exact ⟨rfl, fun _ _ _ _ => Nat.lt_succ_self 2⟩
  | exchangeAwait saslId answered waiting =>
    refine ⟨rfl, fun _ _ _ _ => ?_⟩
    simp only [Stage.lost, Stage.budget, length_cons, length_nil]
    split <;> omega
  | _ => cases awaits

theorem budget_took (awaits : stage.awaited? = some request) (answered : request.slot = .body) :
    (stage.took.hopeful = true -> stage.hopeful = true) ∧ forall hope due nextHope nextDue,
      stage.took.budget nextHope nextDue < stage.budget hope due := by
  cases stage with
  | await waiting => exact ⟨nofun, fun _ _ _ _ => Nat.lt_succ_self 2⟩
  | exchangeAwait saslId number waiting =>
    rw [<- Option.some.inj awaits] at answered
    refine ⟨fun _ => decide_eq_true answered, fun _ _ _ _ => ?_⟩
    rw [Stage.took, Stage.budget, Stage.budget, if_pos answered]
    decide
  | _ => cases awaits

section

variable (closed : Closed tasks) (sound : Sound tasks) (caught : Caught setup tasks)

include closed sound caught

/-- Every move of a call costs one of its moves. -/
theorem poll_allowance {move : Move} (found : tasks.calls.get? id = some call)
    (polled : Poll tasks id call move next) (other : Nat) :
    next.allowance other + ((Act.poll id move).polls other).toNat ≤ tasks.allowance other := by
  have to_stage : forall stage, (stage.hopeful = true -> call.stage.hopeful = true) ->
      next.calls = tasks.calls.insert id { call with stage := stage } ->
      next.allocated = tasks.allocated -> next.due = tasks.due ->
      (forall hope, (hope = true -> tasks.hope = true) ->
        stage.budget hope tasks.due < call.stage.budget tasks.hope tasks.due) ->
      next.allowance other + ((Act.poll id move).polls other).toNat ≤ tasks.allowance other := by
    intro stage hopeful calls allocated due fewer
    have hopes := hope_insert calls
      fun isHopeful => (hope_iff tasks).mpr ⟨id, call, found, hopeful isHopeful⟩
    refine allowance_insert calls found allocated ⟨hopes, .inl due⟩ ?_ move other
    rw [due]
    exact fewer next.hope hopes
  cases polled with
  | due isStage due | exchange isStage _ due | again isStage due =>
    refine to_stage _ ?_ rfl rfl rfl ?_
    · nofun
    · rw [isStage, due]
      cases tasks.hope <;> decide
  | submit isStage | register isStage | saslRequest isStage =>
    refine to_stage _ ?_ rfl rfl rfl fun _ _ => ?_
    · nofun
    · rw [isStage]
      simp only [Stage.budget]
      split <;> omega
  | authenticated exchange enough =>
    refine allowance_succeeded sound found exchange enough ?_ ?_ _ other <;> rfl
  | rejected exchange =>
    refine to_stage (.unwind _ _ _) nofun rfl rfl rfl (fun _ _ => ?_)
    rw [exchange]
    simp only [Stage.budget, length_cons, length_nil]
    split <;> omega
  | refused framed _ =>
    have cost := budget_refused framed
    exact to_stage call.stage.refused (fun hopeful => absurd (cost.1.symm.trans hopeful) nofun)
      rfl rfl rfl (fun _ _ => cost.2 _ _ _ _)
  | pushed framed opened => exact absurd closed.writer opened
  | took awaits answered =>
    have cost := budget_took awaits (answer_body answered)
    exact to_stage call.stage.took cost.1 rfl rfl rfl (fun _ _ => cost.2 _ _ _ _)
  | lost awaits answered =>
    have cost := budget_lost awaits
    exact to_stage call.stage.lost (fun hopeful => absurd (cost.1.symm.trans hopeful) nofun)
      rfl rfl rfl (fun _ _ => cost.2 _ _ _ _)
  | expired awaits unanswered =>
    exact absurd unanswered (closed.answered caught found awaits)
  | erase unwinds | cancel unwinds =>
    refine to_stage (.unwind _ _ _) nofun rfl rfl rfl (fun _ _ => ?_)
    rw [unwinds]
    exact Nat.lt_succ_self _
  | @finish guard outcome unwinds =>
    have left := allowance_finish sound found outcome other
    by_cases same : other = id
    · rw [same, left.2, Act.polls, decide_eq_true rfl]
      unfold Shared.allowance
      rw [found]
      dsimp only
      rw [unwinds]
      exact le_refl _
    · have notPolled : (Act.poll id .unwind).polls other = false :=
        decide_eq_false (fun isSame => same isSame.symm)
      rw [notPolled]
      exact left.1
  | release taken =>
    refine to_stage (.exchange _ _) (fun _ => by rw [taken]; rfl) rfl rfl rfl (fun _ _ => ?_)
    rw [taken]
    simp only [Stage.budget]
    split <;> omega

/-- No step of anybody gives a call more moves. -/
theorem step_allowance (stepped : tasks.step setup act = some next) (other : Nat) :
    next.allowance other + (act.polls other).toNat ≤ tasks.allowance other := by
  have same_calls : next.calls = tasks.calls -> next.allocated = tasks.allocated ->
      next.due = tasks.due ∨ next.due = true -> next.allowance other ≤ tasks.allowance other := by
    intro calls allocated due
    have hope : next.hope = tasks.hope := by rw [Shared.hope, Shared.hope, calls]
    exact allowance_kept (by rw [calls]) allocated ⟨hope.symm.trans, due.imp_right .inl⟩
  cases step_inv stepped with
  | begin kind =>
    have hopes : (tasks.allocate kind).hope = true -> tasks.hope = true :=
      @hope_insert tasks _ tasks.allocated ⟨kind, tasks.nextCorrId, .checking⟩ .checking rfl nofun
    unfold Shared.allowance
    change (match (tasks.calls.insert tasks.allocated _).get? other with
      | some call => _
      | none => if tasks.allocated + 1 ≤ other then 10 else 0) ≤ _
    rw [SortedMap.get?_insert]
    by_cases isNew : other = tasks.allocated
    · have absent : tasks.calls.get? other = none := by
        rw [isNew]
        by_contra found
        rcases Option.ne_none_iff_exists'.mp found with ⟨call, isCall⟩
        exact lt_irrefl _ (sound.begun _ call isCall)
      rw [if_pos isNew, absent, if_pos (le_of_eq isNew.symm)]
      simp only [Stage.budget]
      split <;> omega
    · rw [if_neg isNew]
      cases tasks.calls.get? other with
      | none =>
        dsimp only
        split <;> split <;> omega
      | some call => exact budget_fades ⟨hopes, .inl rfl⟩ call.stage
  | expire => exact same_calls rfl rfl (.inr rfl)
  | close => exact same_calls rfl rfl (.inl rfl)
  | poll found polled => exact poll_allowance closed sound caught found polled other
  | drop found => exact (allowance_finish sound found _ other).1
  | @dropRequest id call request found requested =>
    have erased : Sound (tasks.erase request.corrId) := sound
    exact (allowance_finish erased found _ other).1
  | reader read => exact absurd closed.reader read.not_ended
  | writer running => exact absurd closed.writer running
  | writerCancel left => cases closed.writer.symm.trans left

end

end Allowance

/-! ## What the calls return -/

/-- The call has found a re-authentication due, and has not been let through since. -/
def Stage.committed (stage : Stage) : Prop := stage = .waiting ∨ stage.guard = .write

/-- A call runs a re-authentication only after it found one due. -/
def Dues (tasks : Shared) : Prop :=
  forall id call, tasks.calls.get? id = some call -> call.stage.committed ->
    .foundDue id ∈ tasks.log

namespace Dues

variable {setup : Setup} {tasks next : Shared} {id : Nat} {call : Call} {stage : Stage}

section

variable (dues : Dues tasks)

include dues

theorem of_calls (log : forall event, event ∈ tasks.log -> event ∈ next.log)
    (calls : forall id call, next.calls.get? id = some call -> call.stage.committed ->
      Exists fun before => tasks.calls.get? id = some before ∧ before.stage.committed) :
    Dues next := by
  intro id call found committed
  rcases calls id call found committed with ⟨before, isBefore, wasCommitted⟩
  exact log _ (dues id before isBefore wasCommitted)

theorem note (event : Event) : Dues (tasks.note event) :=
  fun id call found committed => mem_cons_of_mem _ (dues id call found committed)

theorem move (committed : stage.committed -> .foundDue id ∈ tasks.log) :
    Dues (tasks.move id call stage) := by
  intro other otherCall found isCommitted
  rcases found_move found with ⟨rfl, rfl⟩ | ⟨_, found⟩
  · exact committed isCommitted
  · exact dues other otherCall found isCommitted

theorem keep (found : tasks.calls.get? id = some call)
    (guard : stage.guard = .none ∨ stage.guard = call.stage.guard) (waits : stage ≠ .waiting) :
    Dues (tasks.move id call stage) := by
  refine dues.move ?_
  rintro (waiting | isWrite)
  · exact absurd waiting waits
  · rcases guard with isNone | same
    · cases isNone.symm.trans isWrite
    · exact dues id call found (.inr (same.symm.trans isWrite))

theorem finish (id : Nat) (outcome : Outcome) :
    Dues (tasks.finish id outcome) :=
  dues.of_calls (fun _ => mem_cons_of_mem _)
    (fun _ otherCall found committed => ⟨otherCall, (found_finish found).2, committed⟩)

theorem fill (tag : Tag) (slot : Slot) : Dues (tasks.fill tag slot) := by
  refine dues.of_calls (fun _ => id) ?_
  intro id call found committed
  rcases found_fill found with ⟨before, isBefore, rfl | rfl⟩
  · exact ⟨call, isBefore, committed⟩
  · refine ⟨before, isBefore, ?_⟩
    rcases committed with waiting | isWrite
    · cases isStage : before.stage with
      | waiting => exact .inl rfl
      | _ =>
        rw [isStage] at waiting
        cases waiting
    · exact .inr ((Stage.guard_fill tag slot _).symm.trans isWrite)

theorem poll {move : Move} (found : tasks.calls.get? id = some call)
    (polled : Poll tasks id call move next) : Dues next := by
  cases polled with
  | due checking isDue => exact (dues.note (.foundDue id)).move fun _ => mem_cons_self
  | submit | register =>
    exact @move _ id call _ dues (by rintro (waiting | isWrite) <;> contradiction)
  | exchange waiting free isDue =>
    exact dues.move (fun _ => dues id call found (.inl waiting))
  | again waiting notDue => exact dues.keep found (.inl rfl) nofun
  | saslRequest isStage | rejected isStage | erase isStage | release isStage =>
    exact dues.keep found (.inr (by rw [isStage]; rfl)) nofun
  | authenticated exchange enough =>
    exact (dues.note (.succeeded id)).keep found (.inl rfl) nofun
  | refused framed closed =>
    have spec := Stage.refused_spec framed
    exact dues.keep found (.inr spec.2.1) spec.2.2
  | @pushed tag framed opened =>
    have spec := Stage.pushed_spec framed
    exact (dues.note (.queued tag)).keep found spec.2.1 spec.2.2
  | took awaits answered =>
    have spec := Stage.took_spec awaits
    exact dues.keep found (.inr spec.2.1) spec.2.2
  | lost awaits answered =>
    have spec := Stage.lost_spec awaits
    exact dues.keep found (.inr spec.2.1) spec.2.2
  | expired awaits unanswered =>
    have spec := Stage.expired_spec awaits
    exact dues.keep found (.inr spec.2.1) spec.2.2
  | cancel unwinds =>
    exact (dues.note .closed).keep found (.inr (by rw [unwinds]; rfl)) nofun
  | finish unwinds => exact dues.finish id _

theorem read {act : ReaderAct} (read : Read setup tasks act next) :
    Dues next := by
  cases read with
  | fulfil | fail => exact dues.fill _ _
  | cancel => exact dues.note .closed
  | _ => exact dues

end

end Dues

theorem step_dues (dues : Dues tasks) (stepped : tasks.step setup act = some next) : Dues next := by
  cases step_inv stepped with
  | begin kind =>
    refine @Dues.move _ _ ⟨kind, tasks.nextCorrId, .checking⟩ .checking dues ?_
    rintro (waiting | isWrite) <;> contradiction
  | poll found polled => exact dues.poll found polled
  | drop | dropRequest => exact dues.finish _ .dropped
  | reader read => exact dues.read read
  | close | writerCancel => exact dues.note .closed
  | _ => exact dues

/-- What a call on its way out will return. -/
def Stage.outcome? : Stage -> Option Outcome
  | .unwind _ _ outcome => some outcome
  | _ => none

/-- The call is on its way out. -/
def Decided (tasks : Shared) (id : Nat) (outcome : Outcome) : Prop :=
  Exists fun call => tasks.calls.get? id = some call ∧ call.stage.outcome? = some outcome

/-- A call returns its response or `Disconnected`, unless its caller drops it, it was on its way
out when both tasks had ended, or it found a re-authentication due. -/
def Settles (first tasks : Shared) (id : Nat) (outcome : Outcome) : Prop :=
  outcome = .body ∨ outcome = .disconnected ∨ outcome = .dropped ∨ Decided first id outcome ∨
    .foundDue id ∈ tasks.log

/-- Since `first`, every call that ended or is on its way out settles. -/
structure Told (first tasks : Shared) : Prop where
  unwinds : forall id outcome, Decided tasks id outcome -> Settles first tasks id outcome
  events : Exists fun events => tasks.log = events ++ first.log ∧
    forall id outcome, .ended id outcome ∈ events -> Settles first tasks id outcome

section Told

variable {setup : Setup} {first tasks next : Shared} {id : Nat} {call : Call}

theorem Settles.mono {outcome : Outcome} (settles : Settles first tasks id outcome)
    (log : forall event, event ∈ tasks.log -> event ∈ next.log) :
    Settles first next id outcome := by
  rcases settles with isBody | isDisconnected | isDropped | decided | found
  · exact .inl isBody
  · exact .inr (.inl isDisconnected)
  · exact .inr (.inr (.inl isDropped))
  · exact .inr (.inr (.inr (.inl decided)))
  · exact .inr (.inr (.inr (.inr (log _ found))))

theorem Told.self : Told tasks tasks :=
  ⟨fun _ _ decided => .inr (.inr (.inr (.inl decided))), [], rfl, nofun⟩

theorem Told.onward (told : Told first tasks) {events : List Event}
    (log : next.log = events ++ tasks.log)
    (ended : forall id outcome, .ended id outcome ∈ events -> Settles first next id outcome)
    (calls : forall id outcome, Decided next id outcome ->
      Settles first next id outcome ∨ Decided tasks id outcome) : Told first next := by
  have longer : forall event, event ∈ tasks.log -> event ∈ next.log := by
    intro event member
    rw [log]
    exact mem_append_right _ member
  refine ⟨?_, ?_⟩
  · intro id outcome decided
    rcases calls id outcome decided with settles | before
    · exact settles
    · exact (told.unwinds id outcome before).mono longer
  · rcases told.events with ⟨earlier, isLog, settle⟩
    refine ⟨events ++ earlier, ?_, ?_⟩
    · rw [log, isLog, append_assoc]
    · intro id outcome member
      rcases mem_append.mp member with new | old
      · exact ended id outcome new
      · exact (settle id outcome old).mono longer

theorem poll_decides (closed : Closed tasks) (caught : Caught setup tasks) {move : Move}
    (found : tasks.calls.get? id = some call) (polled : Poll tasks id call move next) :
    (Exists fun stage => Exists fun events =>
      next.calls = tasks.calls.insert id { call with stage := stage } ∧
      next.log = events ++ tasks.log ∧ (forall id outcome, .ended id outcome ∉ events) ∧
      forall outcome, stage.outcome? = some outcome -> outcome = .body ∨
        outcome = .disconnected ∨ call.stage.guard = .write ∨
        call.stage.outcome? = some outcome) ∨
    Exists fun outcome => call.stage.outcome? = some outcome ∧ next = tasks.finish id outcome := by
  cases polled with
  | due checking isDue => exact .inl ⟨_, [.foundDue id], rfl, rfl, by simp, nofun⟩
  | submit | register | exchange | again | saslRequest | release =>
    exact .inl ⟨_, [], rfl, rfl, nofun, nofun⟩
  | authenticated _ _ => exact .inl ⟨_, [.succeeded id], rfl, rfl, by simp, nofun⟩
  | rejected exchange =>
    refine .inl ⟨_, [], rfl, rfl, nofun, fun _ _ => ?_⟩
    rw [exchange]
    exact .inr (.inr (.inl rfl))
  | refused framed _ =>
    refine .inl ⟨call.stage.refused, [], rfl, rfl, nofun, fun outcome decided => ?_⟩
    cases isStage : call.stage with
    | submit | queue =>
      rw [isStage] at decided
      exact .inr (.inl (Option.some.inj decided).symm)
    | exchangeQueue saslId answered request => exact .inr (.inr (.inl rfl))
    | _ =>
      rw [isStage] at framed
      cases framed
  | pushed framed opened => exact absurd closed.writer opened
  | took awaits _ =>
    refine .inl ⟨call.stage.took, [], rfl, rfl, nofun, fun outcome decided => ?_⟩
    cases isStage : call.stage with
    | await request =>
      rw [isStage] at decided
      exact .inl (Option.some.inj decided).symm
    | exchangeAwait saslId answered request => exact .inr (.inr (.inl rfl))
    | _ =>
      rw [isStage] at awaits
      cases awaits
  | lost awaits _ =>
    refine .inl ⟨call.stage.lost, [], rfl, rfl, nofun, fun outcome decided => ?_⟩
    cases isStage : call.stage with
    | await request =>
      rw [isStage] at decided
      exact .inr (.inl (Option.some.inj decided).symm)
    | exchangeAwait saslId answered request => exact .inr (.inr (.inl rfl))
    | _ =>
      rw [isStage] at awaits
      cases awaits
  | expired awaits unanswered =>
    exact absurd unanswered (closed.answered caught found awaits)
  | erase unwinds =>
    refine .inl ⟨_, [], rfl, rfl, nofun, fun _ decided => ?_⟩
    rw [unwinds]
    exact .inr (.inr (.inr decided))
  | cancel unwinds =>
    refine .inl ⟨_, [.closed], rfl, rfl, by simp, fun _ decided => ?_⟩
    rw [unwinds]
    exact .inr (.inr (.inr decided))
  | finish unwinds => exact .inr ⟨_, by rw [unwinds]; rfl, rfl⟩

theorem decided_finish {outcome ended : Outcome} {other : Nat}
    (decided : Decided (tasks.finish id ended) other outcome) : Decided tasks other outcome := by
  rcases decided with ⟨otherCall, isOther, isOutcome⟩
  exact ⟨otherCall, (found_finish isOther).2, isOutcome⟩

theorem Told.dropped (told : Told first tasks) (id : Nat) :
    Told first (tasks.finish id .dropped) := by
  refine @Told.onward _ _ _ told [.ended id .dropped] rfl ?_ (fun _ _ => .inr ∘ decided_finish)
  intro other outcome member
  cases mem_singleton.mp member
  exact .inr (.inr (.inl rfl))

theorem step_told (closed : Closed tasks) (caught : Caught setup tasks) (dues : Dues tasks)
    (told : Told first tasks) (stepped : tasks.step setup act = some next) :
    Told first next := by
  cases step_inv stepped with
  | begin kind =>
    refine @Told.onward _ _ _ told [] rfl nofun ?_
    rintro id outcome ⟨call, isCall, isOutcome⟩
    rcases SortedMap.of_get?_insert isCall with ⟨_, begun⟩ | ⟨_, isCall⟩
    · rw [begun] at isOutcome
      cases isOutcome
    · exact .inr ⟨call, isCall, isOutcome⟩
  | expire => exact @Told.onward _ _ _ told [] rfl nofun (fun _ _ => .inr)
  | close => exact @Told.onward _ _ _ told [.closed] rfl (by simp) (fun _ _ => .inr)
  | @poll id call move _ found polled =>
    rcases poll_decides closed caught found polled with
      ⟨stage, events, calls, log, notEnded, decides⟩ | ⟨outcome, isOutcome, isNext⟩
    · refine told.onward log (fun _ _ member => absurd member (notEnded _ _)) ?_
      rintro other outcome ⟨otherCall, isOther, isOutcome⟩
      rw [calls] at isOther
      rcases SortedMap.of_get?_insert isOther with ⟨same, moved⟩ | ⟨_, isOther⟩
      · rw [moved] at isOutcome
        rw [same]
        rcases decides outcome isOutcome with isBody | isDisconnected | isWrite | before
        · exact .inl (.inl isBody)
        · exact .inl (.inr (.inl isDisconnected))
        · refine .inl (.inr (.inr (.inr (.inr ?_))))
          rw [log]
          exact mem_append_right _ (dues id call found (.inr isWrite))
        · exact .inr ⟨call, found, before⟩
      · exact .inr ⟨otherCall, isOther, isOutcome⟩
    · rw [isNext]
      refine @Told.onward _ _ _ told [.ended id outcome] rfl ?_ ?_
      · intro other ended member
        cases mem_singleton.mp member
        refine (told.unwinds id outcome ⟨call, found, isOutcome⟩).mono ?_
        exact fun _ earlier => mem_cons_of_mem _ earlier
      · exact fun _ _ decided => .inr (decided_finish decided)
  | drop found => exact told.dropped _
  | dropRequest found requested => exact @Told.dropped _ (tasks.erase _) ⟨told.unwinds, told.events⟩ _
  | reader read => exact absurd closed.reader read.not_ended
  | writer running => exact absurd closed.writer running
  | writerCancel left => cases closed.writer.symm.trans left

end Told

/-! ## Runs -/

/-- The facts that every run keeps, up to and after the end of both tasks. -/
structure Kept (setup : Setup) (tasks : Shared) : Prop where
  sound : Sound tasks
  caught : Caught setup tasks
  dues : Dues tasks

theorem step_kept (kept : Kept setup tasks) (orderly : Orderly setup tasks act)
    (stepped : tasks.step setup act = some next) :
    Kept setup next :=
  ⟨step_sound kept.sound stepped, step_caught kept.sound kept.caught orderly stepped,
    step_dues kept.dues stepped⟩

/-- A closed channel takes no frame, so the condition holds from then on. -/
theorem Closed.orderly (closed : Closed tasks) (act : Act) :
    Orderly setup tasks act := by
  unfold Orderly
  split
  · exact fun opened => absurd closed.writer opened
  · trivial

theorem step_closed (closed : Closed tasks) (stepped : tasks.step setup act = some next) :
    Closed next := by
  have of_tasks : next.reader = tasks.reader -> next.writer = tasks.writer -> Closed next :=
    fun reader writer => ⟨reader.trans closed.reader, writer.trans closed.writer⟩
  cases step_inv stepped with
  | poll found polled => cases polled <;> exact of_tasks rfl rfl
  | reader read => exact absurd closed.reader read.not_ended
  | writer running => exact absurd closed.writer running
  | writerCancel left => cases closed.writer.symm.trans left
  | _ => exact of_tasks rfl rfl

/-- A run after the end of both tasks, from `first`. -/
theorem run_closed {first last : Shared} {more : List Act} (closed : Closed tasks)
    (kept : Kept setup tasks) (told : Told first tasks)
    (continued : Transition.run (Shared.step setup) tasks more = some last) :
    Closed last ∧ Kept setup last ∧ Told first last ∧ (forall id, .poll id .timeout ∉ more) ∧
      forall id, more.countP (Act.polls id) ≤ tasks.allowance id := by
  induction more generalizing tasks with
  | nil =>
    cases continued
    exact ⟨closed, kept, told, fun _ => not_mem_nil, fun _ => Nat.zero_le _⟩
  | cons act rest ih =>
    rw [Transition.run, Option.bind_eq_some_iff] at continued
    rcases continued with ⟨next, stepped, continued⟩
    have stillClosed := step_closed closed stepped
    have stillKept := step_kept kept (closed.orderly act) stepped
    have stillTold := step_told closed kept.caught kept.dues told stepped
    rcases ih stillClosed stillKept stillTold continued with
      ⟨lastClosed, lastKept, lastTold, noTimeout, counts⟩
    refine ⟨lastClosed, lastKept, lastTold, ?_, ?_⟩
    · intro id member
      rcases mem_cons.mp member with isAct | later
      · rw [<- isAct] at stepped
        cases step_inv stepped with
        | poll found polled =>
          cases polled with
          | expired awaits unanswered =>
            exact closed.answered kept.caught found awaits unanswered
      · exact noTimeout id later
    · intro id
      have cost := step_allowance closed kept.sound kept.caught stepped id
      have count := counts id
      rw [countP_cons]
      cases isPoll : act.polls id with
      | true =>
        rw [isPoll] at cost
        exact Nat.le_trans (Nat.add_le_add_right count 1) cost
      | false =>
        rw [isPoll] at cost
        exact le_trans count cost

/-- Whatever the order of the steps and the cause of the close, once both tasks have ended each
call, also one that begins later, goes on without its timeout for a bounded number of moves,
and returns its response or `Disconnected`. -/
theorem run_close_strands_none (setup : Setup) (acts more : List Act) (tasks last : Shared)
    (ran : Transition.run (Shared.step setup) .start acts = some tasks)
    (orderly : Transition.Along (Shared.step setup) (Orderly setup) .start acts)
    (closed : Closed tasks)
    (continued : Transition.run (Shared.step setup) tasks more = some last) :
    (forall id call, last.calls.get? id = some call -> GoesOn setup last id call) ∧
      (forall id, .poll id .timeout ∉ more) ∧
      (forall id, more.countP (Act.polls id) ≤ tasks.allowance id) ∧
      Exists fun events => last.log = events ++ tasks.log ∧
        forall id outcome, .ended id outcome ∈ events -> Settles tasks last id outcome := by
  have kept : Kept setup tasks := Transition.run_invariant (Kept setup) (fun _ _ _ => step_kept)
    ⟨Sound.start, nofun, nofun⟩ orderly ran
  rcases run_closed closed kept Told.self continued with
    ⟨lastClosed, lastKept, lastTold, noTimeout, counts⟩
  exact ⟨fun id call found => lastClosed.goesOn lastKept.caught found, noTimeout, counts,
    lastTold.events⟩

/-- One shard, and room for one frame. -/
def oneShard : Setup := ⟨1, 1, fun _ => 0, fun _ => zero_lt_one⟩

/-- The peer closes the connection.  A call waits for its answer meanwhile. -/
def peerCloses : List Act :=
  [.begin .send, .poll 0 .readLock, .poll 0 .push, .writer .dequeue, .writer .written,
    .reader .endOfStream, .reader .cancel, .reader .collect, .reader .collect, .reader .remove,
    .reader .fail, .reader .finish, .writer .cancelled, .writer .cancel, .writer .finish]

/-- The call takes its answer, and another one begins. -/
def afterPeerCloses : List Act :=
  [.poll 0 .take, .poll 0 .unwind, .poll 0 .unwind, .begin .send, .poll 1 .readLock,
    .poll 1 .push, .poll 1 .unwind, .poll 1 .unwind]

theorem run_close_strands_none_peer :
    Exists fun tasks => Exists fun last =>
      Transition.run (Shared.step oneShard) .start peerCloses = some tasks ∧
        Transition.run (Shared.step oneShard) tasks afterPeerCloses = some last ∧
        last.log = [.ended 1 .disconnected, .ended 0 .disconnected] ++ tasks.log ∧
        forall id, afterPeerCloses.countP (Act.polls id) ≤ tasks.allowance id :=
  ⟨_, _, rfl, rfl, rfl,
    (run_close_strands_none oneShard peerCloses afterPeerCloses _ _ rfl (by decide) ⟨rfl, rfl⟩
      rfl).2.2.1⟩

/-- A call registers after the reader has collected the keys, and queues its frame before the
writer's channel closes. -/
def lateCall : List Act :=
  [.reader .endOfStream, .reader .cancel, .reader .collect, .reader .collect, .begin .send,
    .poll 0 .readLock, .poll 0 .push, .reader .finish, .writer .cancelled, .writer .cancel,
    .writer .finish]

/-- Both tasks have ended, and the one move that the late call can make is its timeout. -/
theorem late_call_waits_for_timeout :
    (Transition.run (Shared.step oneShard) .start lateCall).map
        (fun tasks => (tasks.reader, tasks.writer,
          [Move.readLock, .writeLock, .saslRequest, .authenticated, .rejected, .push, .take,
            .timeout, .unwind].filter fun move =>
              (tasks.step oneShard (.poll 0 move)).isSome)) =
      some (.ended, .ended, [.timeout]) :=
  rfl

end Tasks
end Connection
end Krabka
