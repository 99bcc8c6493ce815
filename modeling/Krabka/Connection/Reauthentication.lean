import Krabka.Connection.Tasks

namespace Krabka
namespace Connection
namespace Tasks

open Collections (SortedMap)
open List Option

/-!
# A re-authentication has the connection to itself

The call that runs an exchange holds the write lock of the due time, and every other frame is
queued under the read lock.  The guard lives in the future of that call: when its caller drops
it in the middle of the exchange, the lock is free, the exchange is neither over nor is the
connection closed, and the next frame in the channel belongs to somebody else.
-/

/-- The call and the serial number of the last frame of an exchange that has not succeeded. -/
def exchangeOf : List Event -> Option (Nat × Nat)
  | [] => none
  | .queued (.sasl call serial) :: _ => some (call, serial)
  | .succeeded call :: rest => (exchangeOf rest).filter fun exchange => exchange.1 ≠ call
  | .queued (.own _) :: rest | .foundDue _ :: rest | .closed :: rest | .ended _ _ :: rest =>
    exchangeOf rest

/-- The exchange that is going on, while the connection is open.  The newest event is first. -/
def ongoing (log : List Event) : Option (Nat × Nat) :=
  if .closed ∈ log then none else exchangeOf log

/-! ## The condition -/

/-- No caller drops the call whose exchange is going on. -/
def Undropped (tasks : Shared) : Act -> Prop
  | .drop id => forall exchange, exchange ∈ ongoing tasks.log -> exchange.1 ≠ id
  | _ => True

instance (tasks : Shared) (act : Act) : Decidable (Undropped tasks act) := by
  cases act <;> unfold Undropped <;> infer_instance

/-! ## The exchange in the log -/

variable {event : Event}

section Log

variable {log : List Event} {id call serial : Nat}

theorem ongoing_cons_quiet (isOpen : event ≠ .closed)
    (same : exchangeOf (event :: log) = exchangeOf log) : ongoing (event :: log) = ongoing log := by
  unfold ongoing
  have iff : .closed ∈ event :: log <-> .closed ∈ log := by
    rw [mem_cons]
    exact or_iff_right (fun isClosed => isOpen isClosed.symm)
  rw [same]
  exact if_congr iff rfl rfl

theorem ongoing_succeeded (going : ongoing (.succeeded id :: log) = some (call, serial)) :
    call ≠ id ∧ ongoing log = some (call, serial) := by
  unfold ongoing at going
  split at going
  · cases going
  · rename_i isOpen
    rw [exchangeOf, filter_eq_some_iff] at going
    refine ⟨of_decide_eq_true going.2, ?_⟩
    rw [ongoing, if_neg (fun closed => isOpen (mem_cons_of_mem _ closed))]
    exact going.1

theorem ongoing_sasl {other frame : Nat}
    (going : ongoing (.queued (.sasl other frame) :: log) = some (call, serial)) :
    call = other ∧ serial = frame := by
  unfold ongoing at going
  split at going
  · cases going
  · have same := some.inj going
    exact ⟨(congrArg Prod.fst same).symm, (congrArg Prod.snd same).symm⟩

end Log

/-! ## The invariant -/

/-- How many requests the exchange has made after its last queued frame. -/
def Stage.made? : Stage -> Option Nat
  | .exchange _ _ | .exchangeAwait _ _ _ | .exchangeTaken _ _ _ => some 0
  | .exchangeQueue _ _ _ => some 1
  | _ => none

/-- The request that an exchange made last has the last serial number, and a call that leaves
its exchange cancels. -/
def Stage.Fits (tasks : Shared) (id : Nat) : Stage -> Prop
  | .exchangeQueue _ _ request => Exists fun serial =>
    request.tag = .sasl id serial ∧ tasks.exchanged = serial + 1
  | .unwind ops .write _ => .cancel ∈ ops ∨ .closed ∈ tasks.log
  | _ => True

/-- The exchange of `call` goes on, after the frame `serial`. -/
def Holds (tasks : Shared) (call serial : Nat) : Prop :=
  Exists fun holding => tasks.calls.get? call = some holding ∧ holding.stage.guard = .write ∧
    forall made, holding.stage.made? = some made -> tasks.exchanged = serial + 1 + made

/-- The frames that follow one of an exchange that goes on are its next ones. -/
def Followed (log : List Event) : Prop :=
  forall newer older frame, log = newer ++ .queued frame :: older ->
    forall call serial, ongoing older = some (call, serial) -> frame = .sasl call (serial + 1)

def Exchanging (tasks : Shared) : Prop :=
  (forall id call, tasks.calls.get? id = some call -> call.stage.Fits tasks id) ∧
    (forall call serial, ongoing tasks.log = some (call, serial) -> Holds tasks call serial) ∧
    Followed tasks.log

theorem made?_fill (tag : Tag) (slot : Slot) (stage : Stage) :
    (stage.fill tag slot).made? = stage.made? := by
  cases stage <;> rfl

namespace Exchanging

variable {setup : Setup} {tasks next : Shared} {id : Nat} {call : Call} {stage : Stage}

theorem start : Exchanging .start := by
  refine ⟨nofun, nofun, ?_⟩
  intro newer older frame log
  exact absurd log.symm (append_ne_nil_of_right_ne_nil _ (cons_ne_nil _ _))

/-- Only the log, the number of requests and the calls matter. -/
theorem fits_mono (fits : stage.Fits tasks id) (exchanged : next.exchanged = tasks.exchanged)
    (log : forall event, event ∈ tasks.log -> event ∈ next.log) : stage.Fits next id := by
  unfold Stage.Fits at fits ⊢
  split at fits
  · rw [exchanged]
    exact fits
  · exact fits.imp_right (log _)
  · trivial

/-- A request of an exchange does not matter to a call that holds no write lock. -/
theorem fits_shared (fits : stage.Fits tasks id) (shared : stage.guard ≠ .write) :
    stage.Fits next id := by
  unfold Stage.Fits at fits ⊢
  split at fits
  · exact absurd rfl shared
  · exact absurd rfl shared
  · trivial

end Exchanging

variable {log : List Event}

/-- The history goes on with one event. -/
theorem Followed.cons (followed : Followed log)
    (follows : forall frame, event = .queued frame -> forall call serial,
      ongoing log = some (call, serial) -> frame = .sasl call (serial + 1)) :
    Followed (event :: log) := by
  intro newer older frame isLog call serial going
  cases newer with
  | nil =>
    have parts := List.cons.inj isLog
    exact follows frame parts.1 call serial (parts.2 ▸ going)
  | cons newest rest => exact followed rest older frame (List.cons.inj isLog).2 call serial going

theorem Followed.quiet (followed : Followed log) (quiet : forall frame, event ≠ .queued frame) :
    Followed (event :: log) :=
  followed.cons fun frame isFrame => absurd isFrame (quiet frame)

namespace Exchanging

variable {setup : Setup} {tasks next : Shared} {id : Nat} {call : Call} {stage : Stage}

/-- A call that does not queue a frame goes on to `stage`. -/
theorem onward (exchanging : Exchanging tasks)
    (calls : next.calls = tasks.calls.insert id { call with stage := stage })
    (exchanged : next.exchanged = tasks.exchanged)
    (longer : forall event, event ∈ tasks.log -> event ∈ next.log)
    (going : forall call serial, ongoing next.log = some (call, serial) ->
      ongoing tasks.log = some (call, serial))
    (followed : Followed next.log) (fits : stage.Fits next id)
    (keeps : forall serial, ongoing next.log = some (id, serial) -> Holds tasks id serial ->
      stage.guard = .write ∧
        forall made, stage.made? = some made -> tasks.exchanged = serial + 1 + made) :
    Exchanging next := by
  refine ⟨?_, ?_, followed⟩
  · intro other otherCall found
    rw [calls] at found
    rcases SortedMap.of_get?_insert found with ⟨rfl, rfl⟩ | ⟨_, found⟩
    · exact fits
    · exact fits_mono (exchanging.1 other otherCall found) exchanged longer
  · intro holder serial isGoing
    have holds := exchanging.2.1 holder serial (going holder serial isGoing)
    unfold Holds
    rw [calls, exchanged]
    by_cases same : holder = id
    · subst same
      exact ⟨_, SortedMap.get?_insert_self _ _ _, keeps serial isGoing holds⟩
    · rw [SortedMap.get?_insert_of_ne _ _ same]
      exact holds

variable {serial : Nat}

section

variable (found : tasks.calls.get? id = some call)

include found

/-- The call whose exchange goes on holds the write lock. -/
theorem holding_write (holds : Holds tasks id serial) :
    call.stage.guard = .write := by
  rcases holds with ⟨holding, isHolding, isWrite, _⟩
  rw [some.inj (found.symm.trans isHolding)]
  exact isWrite

/-- A call without the write lock has no exchange that goes on. -/
theorem not_holding (shared : call.stage.guard ≠ .write) (holds : Holds tasks id serial) : False :=
  shared (holding_write found holds)

theorem holding_made (holds : Holds tasks id serial) :
    forall made, call.stage.made? = some made -> tasks.exchanged = serial + 1 + made := by
  rcases holds with ⟨holding, isHolding, _, made⟩
  rw [some.inj (found.symm.trans isHolding)]
  exact made

end

section

variable (exchanging : Exchanging tasks)

include exchanging

/-- A call goes on and leaves the log alone. -/
theorem silent (fits : stage.Fits tasks id)
    (keeps : forall serial, Holds tasks id serial -> stage.guard = .write ∧
      forall made, stage.made? = some made -> tasks.exchanged = serial + 1 + made) :
    Exchanging (tasks.move id call stage) :=
  exchanging.onward rfl rfl (fun _ member => member) (fun _ _ going => going) exchanging.2.2 fits
    (fun serial _ => keeps serial)

/-- A call without the write lock goes on and leaves the log alone. -/
theorem silent_shared (found : tasks.calls.get? id = some call) (shared : call.stage.guard ≠ .write)
    (fits : stage.Fits tasks id) :
    Exchanging (tasks.move id call stage) :=
  exchanging.silent fits (fun _ holds => (not_holding found shared holds).elim)

/-- The call is over, and no exchange of it goes on. -/
theorem finish (outcome : Outcome) (idle : forall serial, ongoing tasks.log ≠ some (id, serial)) :
    Exchanging (tasks.finish id outcome) := by
  refine ⟨?_, ?_, exchanging.2.2.quiet nofun⟩
  · intro other otherCall found
    exact fits_mono (exchanging.1 other otherCall (found_finish found).2) rfl (fun _ => .tail _)
  · intro holder serial going
    change ongoing (.ended id outcome :: tasks.log) = some (holder, serial) at going
    rw [@ongoing_cons_quiet (.ended id outcome) _ nofun rfl] at going
    have different : holder ≠ id := fun same => idle serial (same ▸ going)
    change Exists fun holding => (tasks.calls.erase id).get? holder = some holding ∧ _
    rw [SortedMap.get?_erase, if_neg different]
    exact exchanging.2.1 holder serial going

/-- The token is cancelled, so no exchange goes on. -/
theorem cancel : Exchanging tasks.cancel := by
  refine ⟨?_, ?_, exchanging.2.2.quiet nofun⟩
  · intro id call found
    exact fits_mono (exchanging.1 id call found) rfl (fun _ => .tail _)
  · intro call serial going
    change ongoing (.closed :: tasks.log) = some (call, serial) at going
    cases going

theorem fill (tag : Tag) (slot : Slot) :
    Exchanging (tasks.fill tag slot) := by
  refine ⟨?_, ?_, exchanging.2.2⟩
  · intro id call found
    rcases found_fill found with ⟨before, isBefore, rfl | rfl⟩
    · exact exchanging.1 id call isBefore
    · have fits := exchanging.1 id before isBefore
      cases isStage : before.stage with
      | exchangeQueue saslId answered request =>
        rw [isStage] at fits
        rcases fits with ⟨serial, isTag, isNext⟩
        refine ⟨serial, ?_, isNext⟩
        split <;> exact isTag
      | unwind ops guard outcome =>
        rw [isStage] at fits
        exact fits
      | _ => trivial
  · intro holder serial going
    rcases exchanging.2.1 holder serial going with ⟨holding, isHolding, isWrite, made⟩
    rcases fill_found tag slot isHolding with ⟨after, isAfter, rfl | rfl⟩
    · exact ⟨after, isAfter, isWrite, made⟩
    · refine ⟨_, isAfter, (Stage.guard_fill tag slot _).trans isWrite, ?_⟩
      rw [made?_fill]
      exact made

theorem saslRequest (sound : Sound tasks) (found : tasks.calls.get? id = some call) {saslId : Int}
    {answered : Nat} (exchange : call.stage = .exchange saslId answered) :
    Exchanging (tasks.exchangeRequest id call saslId answered) := by
  have isWrite : call.stage.guard = .write := by
    rw [exchange]
    rfl
  refine ⟨?_, ?_, exchanging.2.2⟩
  · intro other otherCall isOther
    rcases SortedMap.of_get?_insert isOther with ⟨rfl, rfl⟩ | ⟨different, isOther⟩
    · exact ⟨tasks.exchanged, rfl, rfl⟩
    · refine fits_shared (exchanging.1 other otherCall isOther) ?_
      intro otherWrite
      refine different (sound.alone id call found isWrite other otherCall isOther ?_)
      rw [otherWrite]
      nofun
  · intro holder serial going
    rcases exchanging.2.1 holder serial going with ⟨holding, isHolding, holderWrite, made⟩
    have same : holder = id := by
      refine sound.alone id call found isWrite holder holding isHolding ?_
      rw [holderWrite]
      nofun
    rw [same] at isHolding
    rw [<- some.inj (found.symm.trans isHolding), exchange] at made
    rw [same]
    refine ⟨_, SortedMap.get?_insert_self _ _ _, rfl, ?_⟩
    intro number isNumber
    cases isNumber
    exact congrArg Nat.succ (made 0 rfl)

end

/-- The call that holds the write lock is the one whose exchange goes on. -/
theorem holder_eq (sound : Sound tasks) (found : tasks.calls.get? id = some call)
    (holds : call.stage.guard ≠ .none) {holder : Nat} (isHolder : Holds tasks holder serial) :
    holder = id := by
  rcases isHolder with ⟨holding, isHolding, isWrite, _⟩
  exact (sound.alone holder holding isHolding isWrite id call found holds).symm

section

variable (exchanging : Exchanging tasks) (sound : Sound tasks)
  (found : tasks.calls.get? id = some call)

include exchanging sound found

/-- A call queues the frame of its own request under the read lock. -/
theorem pushOwn (reads : call.stage.guard = .read) (fits : stage.Fits tasks id)
    (shared : stage.guard ≠ .write) :
    Exchanging ((tasks.push (.own id)).move id call stage) := by
  have idle : forall holder serial, ¬Holds tasks holder serial := by
    intro holder serial holds
    have same := holder_eq sound found (by rw [reads]; nofun) holds
    rw [same] at holds
    exact not_holding found (by rw [reads]; nofun) holds
  refine exchanging.onward rfl rfl (fun _ => .tail _) ?_ ?_
    (fits_shared fits shared) (fun _ _ holds => (idle _ _ holds).elim)
  · intro holder serial going
    exact (@ongoing_cons_quiet (.queued (.own id)) _ nofun rfl).symm.trans going
  · refine exchanging.2.2.cons ?_
    intro frame _ holder serial going
    exact (idle holder serial (exchanging.2.1 holder serial going)).elim

/-- An exchange queues its next frame. -/
theorem pushSasl {saslId : Int} {answered : Nat} {request : Request}
    (queued : call.stage = .exchangeQueue saslId answered request) :
    Exchanging ((tasks.push request.tag).move id call
      (.exchangeAwait saslId answered request)) := by
  have fits := exchanging.1 id call found
  rw [queued] at fits
  rcases fits with ⟨serial, isTag, isNext⟩
  rw [isTag]
  refine ⟨?_, ?_, exchanging.2.2.cons ?_⟩
  · intro other otherCall isOther
    rcases found_move isOther with ⟨_, rfl⟩ | ⟨_, isOther⟩
    · trivial
    · exact fits_mono (exchanging.1 other otherCall isOther) rfl (fun _ => .tail _)
  · intro holder last going
    have parts := ongoing_sasl going
    rw [parts.1, parts.2]
    refine ⟨_, SortedMap.get?_insert_self _ _ _, rfl, ?_⟩
    intro made isMade
    cases isMade
    exact isNext
  · intro frame isFrame holder last going
    have holds := exchanging.2.1 holder last going
    have same := holder_eq sound found (by rw [queued]; nofun) holds
    rw [same] at holds ⊢
    have number := holding_made found holds 1 (by rw [queued]; rfl)
    rw [isNext] at number
    rw [<- Event.queued.inj isFrame, Nat.succ.inj number]

theorem poll {move : Move} (polled : Poll tasks id call move next) :
    Exchanging next := by
  cases polled with
  | due checking isDue =>
    refine exchanging.onward rfl rfl (fun _ => .tail _) ?_ (exchanging.2.2.quiet nofun) trivial ?_
    · exact fun _ _ going =>
        (@ongoing_cons_quiet (.foundDue id) _ nofun rfl).symm.trans going
    · exact fun _ _ holds => (not_holding found (by rw [checking]; nofun) holds).elim
  | submit isStage | register isStage | exchange isStage | again isStage =>
    exact @silent_shared _ _ _ _ exchanging found (by rw [isStage]; nofun) trivial
  | saslRequest exchange => exact exchanging.saslRequest sound found exchange
  | authenticated exchange enough =>
    refine exchanging.onward rfl rfl (fun _ => .tail _) ?_ (exchanging.2.2.quiet nofun) trivial ?_
    · exact fun _ _ going => (ongoing_succeeded going).2
    · exact fun _ going _ => absurd rfl (ongoing_succeeded going).1
  | rejected exchange =>
    exact exchanging.silent (.inl (.head _)) (fun _ _ => ⟨rfl, nofun⟩)
  | @refused tag framed closed =>
    cases isStage : call.stage with
    | submit | queue =>
      exact exchanging.silent_shared found (by rw [isStage]; nofun) trivial
    | exchangeQueue =>
      exact exchanging.silent (.inl (.tail _ (.head _))) (fun _ _ => ⟨rfl, nofun⟩)
    | _ =>
      rw [isStage] at framed
      cases framed
  | @pushed tag framed opened =>
    have owns := sound.owner id call found
    cases isStage : call.stage with
    | submit =>
      rw [isStage] at framed
      cases framed
      exact exchanging.pushOwn sound found (by rw [isStage]; rfl) trivial nofun
    | queue request =>
      rw [isStage] at framed owns
      cases framed
      rw [owns]
      exact exchanging.pushOwn sound found (by rw [isStage]; rfl) trivial nofun
    | exchangeQueue saslId answered request =>
      rw [isStage] at framed
      cases framed
      exact exchanging.pushSasl sound found isStage
    | _ =>
      rw [isStage] at framed
      cases framed
  | took awaits answered =>
    cases isStage : call.stage with
    | await request => exact exchanging.silent_shared found (by rw [isStage]; nofun) trivial
    | exchangeAwait saslId number request =>
      refine exchanging.silent trivial (fun serial holds => ⟨rfl, ?_⟩)
      exact fun made isMade => holding_made found holds made (by rw [isStage]; exact isMade)
    | _ =>
      rw [isStage] at awaits
      cases awaits
  | lost awaits | expired awaits =>
    cases isStage : call.stage with
    | await request => exact exchanging.silent_shared found (by rw [isStage]; nofun) trivial
    | exchangeAwait saslId number request =>
      exact exchanging.silent (.inl (.tail _ (.head _))) (fun _ _ => ⟨rfl, nofun⟩)
    | _ =>
      rw [isStage] at awaits
      cases awaits
  | @erase corrId ops guard outcome unwinds =>
    have fits := exchanging.1 id call found
    rw [unwinds] at fits
    refine @silent _ id call _ exchanging ?_ (fun serial holds => ⟨?_, nofun⟩)
    · cases guard with
      | write =>
        refine Or.imp_left (fun member => ?_) fits
        exact (mem_cons.mp member).resolve_left (by nofun)
      | _ => trivial
    · exact (congrArg Stage.guard unwinds).symm.trans (holding_write found holds)
  | @cancel ops guard outcome unwinds =>
    refine exchanging.cancel.silent ?_ (fun serial holds => ⟨?_, nofun⟩)
    · cases guard with
      | write => exact .inr (.head _)
      | _ => trivial
    · exact (congrArg Stage.guard unwinds).symm.trans (holding_write found holds)
  | @finish guard outcome unwinds =>
    refine exchanging.finish outcome ?_
    intro serial going
    have isWrite := holding_write found (exchanging.2.1 id serial going)
    have fits := exchanging.1 id call found
    rw [unwinds] at isWrite fits
    cases isWrite
    rcases fits with impossible | closed
    · cases impossible
    · rw [ongoing, if_pos closed] at going
      cases going
  | release taken =>
    refine @silent _ id call _ exchanging trivial (fun serial holds => ⟨rfl, ?_⟩)
    exact fun made isMade => holding_made found holds made (by rw [taken]; exact isMade)

end

theorem read (exchanging : Exchanging tasks) {act : ReaderAct}
    (read : Read setup tasks act next) : Exchanging next := by
  cases read with
  | fulfil | fail => exact exchanging.fill _ _
  | cancel => exact exchanging.cancel
  | _ => exact exchanging

end Exchanging

theorem step_exchanging {setup : Setup} {tasks next : Shared} {act : Act} (sound : Sound tasks)
    (exchanging : Exchanging tasks) (undropped : Undropped tasks act)
    (stepped : tasks.step setup act = some next) : Exchanging next := by
  cases Shared.step_inv stepped with
  | begin kind =>
    refine @Exchanging.silent _ _ ⟨kind, tasks.nextCorrId, .checking⟩ .checking exchanging trivial ?_
    rintro serial ⟨holding, isHolding, _⟩
    exact absurd (sound.begun _ holding isHolding) (Nat.lt_irrefl _)
  | close | writerCancel => exact exchanging.cancel
  | poll found polled => exact exchanging.poll sound found polled
  | drop | dropRequest =>
    exact Exchanging.finish exchanging .dropped (fun serial going => undropped _ going rfl)
  | reader read => exact exchanging.read read
  | _ => exact exchanging

/-! ## A request that found the session due -/

/-- Since the call last found the re-authentication due, an exchange has succeeded. -/
def Renewed (log : List Event) (id : Nat) : Prop :=
  forall middle older, log = middle ++ .foundDue id :: older ->
    Exists fun call => .succeeded call ∈ middle

theorem Renewed.cons {id : Nat} (renewed : Renewed log id) (other : event ≠ .foundDue id) :
    Renewed (event :: log) id := by
  intro middle older isLog
  cases middle with
  | nil => exact absurd (List.cons.inj isLog).1 other
  | cons newest rest =>
    rcases renewed rest older (List.cons.inj isLog).2 with ⟨call, member⟩
    exact ⟨call, .tail _ member⟩

theorem renewed_succeeded (log : List Event) (call id : Nat) :
    Renewed (.succeeded call :: log) id := by
  intro middle older isLog
  cases middle with
  | nil => cases (List.cons.inj isLog).1
  | cons newest rest => exact ⟨call, (List.cons.inj isLog).1 ▸ (.head _)⟩

structure Admitted (tasks : Shared) : Prop where
  free : tasks.due = false -> forall id, Renewed tasks.log id
  calls : forall id call, tasks.calls.get? id = some call -> call.stage.guard = .read ->
    Renewed tasks.log id
  history : forall newer older id, tasks.log = newer ++ .queued (.own id) :: older ->
    Renewed older id

namespace Admitted

variable {setup : Setup} {tasks next : Shared} {id : Nat} {call : Call} {stage : Stage}

theorem start : Admitted .start := by
  refine ⟨?_, nofun, ?_⟩
  · intro _ id middle older log
    exact absurd log.symm (append_ne_nil_of_right_ne_nil _ (cons_ne_nil _ _))
  · intro newer older id log
    exact absurd log.symm (append_ne_nil_of_right_ne_nil _ (cons_ne_nil _ _))

section

variable (admitted : Admitted tasks)

include admitted

/-- The log stays as it is. -/
theorem silent (log : next.log = tasks.log) (due : next.due = false -> tasks.due = false)
    (calls : forall id call, next.calls.get? id = some call -> call.stage.guard = .read ->
      Renewed tasks.log id) : Admitted next := by
  refine ⟨?_, ?_, ?_⟩ <;> rw [log]
  · exact fun notDue => admitted.free (due notDue)
  · exact calls
  · exact admitted.history

/-- The log goes on with an event that is no finding. -/
theorem onward {event : Event} (log : next.log = event :: tasks.log)
    (different : forall id, event ≠ .foundDue id)
    (due : next.due = false -> forall id, Renewed (event :: tasks.log) id)
    (calls : forall id call, next.calls.get? id = some call -> call.stage.guard = .read ->
      Renewed tasks.log id) (queued : forall id, event = .queued (.own id) -> Renewed tasks.log id) :
    Admitted next := by
  refine ⟨?_, ?_, ?_⟩ <;> rw [log]
  · exact due
  · exact fun id call found reads => (calls id call found reads).cons (different id)
  · intro newer older id isLog
    cases newer with
    | nil =>
      have parts := List.cons.inj isLog
      exact parts.2 ▸ queued id parts.1
    | cons newest rest => exact admitted.history rest older id (List.cons.inj isLog).2

/-- The due time is as it was. -/
theorem due_cons (different : forall id, event ≠ .foundDue id) (notDue : tasks.due = false)
    (id : Nat) :
    Renewed (event :: tasks.log) id :=
  (admitted.free notDue id).cons (different id)

section

variable (calls : next.calls = tasks.calls.insert id { call with stage := stage })

include calls

theorem calls_insert (reads : stage.guard = .read -> Renewed tasks.log id) (other : Nat)
    (otherCall : Call) (found : next.calls.get? other = some otherCall)
    (isRead : otherCall.stage.guard = .read) :
    Renewed tasks.log other := by
  rw [calls] at found
  rcases SortedMap.of_get?_insert found with ⟨same, moved⟩ | ⟨_, found⟩
  · rw [moved] at isRead
    rw [same]
    exact reads isRead
  · exact admitted.calls other otherCall found isRead

/-- A call goes on and leaves the log alone. -/
theorem move (log : next.log = tasks.log) (due : next.due = tasks.due)
    (reads : stage.guard = .read -> Renewed tasks.log id) : Admitted next :=
  admitted.silent log due.symm.trans (admitted.calls_insert calls reads)

end

/-- A call keeps its guard, or gives it up, and leaves the log alone. -/
theorem keep (found : tasks.calls.get? id = some call)
    (calls : next.calls = tasks.calls.insert id { call with stage := stage })
    (log : next.log = tasks.log) (due : next.due = tasks.due)
    (guard : stage.guard = .read -> call.stage.guard = .read) : Admitted next :=
  admitted.move calls log due (fun isRead => admitted.calls id call found (guard isRead))

theorem finish (id : Nat) (outcome : Outcome) :
    Admitted (tasks.finish id outcome) :=
  admitted.onward rfl nofun (admitted.due_cons nofun)
    (fun other otherCall found => admitted.calls other otherCall (found_finish found).2) nofun

theorem cancel : Admitted tasks.cancel :=
  admitted.onward rfl nofun (admitted.due_cons nofun) admitted.calls nofun

theorem of_same (calls : next.calls = tasks.calls) (log : next.log = tasks.log)
    (due : next.due = false -> tasks.due = false) :
    Admitted next :=
  admitted.silent log due (fun id call found => admitted.calls id call (calls ▸ found))

theorem fill (tag : Tag) (slot : Slot) :
    Admitted (tasks.fill tag slot) := by
  refine admitted.silent rfl id ?_
  intro id call found isRead
  rcases found_fill found with ⟨before, isBefore, same | filled⟩
  · rw [same] at isRead
    exact admitted.calls id before isBefore isRead
  · rw [filled] at isRead
    exact admitted.calls id before isBefore ((Stage.guard_fill tag slot _).symm.trans isRead)

/-- The frame of a request that was let through. -/
theorem pushed (sound : Sound tasks) (found : tasks.calls.get? id = some call) {tag : Tag}
    (framed : call.stage.frame? id = some tag) :
    Admitted ((tasks.push tag).move id call call.stage.pushed) := by
  have owns := sound.owner id call found
  refine admitted.onward rfl nofun (admitted.due_cons nofun) (admitted.calls_insert rfl ?_) ?_
  · intro isRead
    refine admitted.calls id call found ?_
    rcases (Stage.pushed_spec framed).2.1 with isNone | same
    · cases isNone.symm.trans isRead
    · exact same.symm.trans isRead
  · intro other isOwn
    have isTag : tag = .own other := Event.queued.inj isOwn
    rw [isTag] at framed
    cases isStage : call.stage with
    | submit =>
      rw [isStage] at framed
      cases some.inj framed
      exact admitted.calls id call found (by rw [isStage]; rfl)
    | queue request =>
      rw [isStage] at framed owns
      cases (some.inj framed).symm.trans owns
      exact admitted.calls id call found (by rw [isStage]; rfl)
    | exchangeQueue saslId answered request =>
      rw [isStage] at framed owns
      rcases owns with ⟨serial, isSasl⟩
      cases (some.inj framed).symm.trans isSasl
    | _ =>
      rw [isStage] at framed
      cases framed

theorem poll (sound : Sound tasks) {move : Move} (found : tasks.calls.get? id = some call)
    (polled : Poll tasks id call move next) :
    Admitted next := by
  cases polled with
  | due checking isDue =>
    refine ⟨fun notDue => absurd (isDue.symm.trans notDue) nofun, ?_, ?_⟩
    · intro other otherCall isOther isRead
      rcases found_move isOther with ⟨_, moved⟩ | ⟨different, isOther⟩
      · rw [moved] at isRead
        cases isRead
      · refine (admitted.calls other otherCall isOther isRead).cons ?_
        exact fun same => different (Event.foundDue.inj same).symm
    · intro newer older other isLog
      cases newer with
      | nil => cases (List.cons.inj isLog).1
      | cons newest rest => exact admitted.history rest older other (List.cons.inj isLog).2
  | submit checking free notDue | register checking free notDue =>
    exact admitted.move rfl rfl rfl (fun _ => admitted.free notDue id)
  | authenticated exchange enough =>
    exact admitted.onward rfl nofun (fun _ => renewed_succeeded _ id)
      (admitted.calls_insert rfl nofun) nofun
  | refused framed closed =>
    exact admitted.keep found rfl rfl rfl ((Stage.refused_spec framed).2.1.symm.trans)
  | pushed framed opened => exact admitted.pushed sound found framed
  | took awaits answered =>
    exact admitted.keep found rfl rfl rfl ((Stage.took_spec awaits).2.1.symm.trans)
  | lost awaits answered =>
    exact admitted.keep found rfl rfl rfl ((Stage.lost_spec awaits).2.1.symm.trans)
  | expired awaits unanswered =>
    exact admitted.keep found rfl rfl rfl ((Stage.expired_spec awaits).2.1.symm.trans)
  | erase unwinds =>
    exact admitted.keep found rfl rfl rfl ((congrArg Stage.guard unwinds).trans)
  | cancel unwinds =>
    exact admitted.cancel.keep found rfl rfl rfl ((congrArg Stage.guard unwinds).trans)
  | finish unwinds => exact admitted.finish id _
  | _ => exact admitted.move rfl rfl rfl nofun

theorem read {act : ReaderAct} (read : Read setup tasks act next) :
    Admitted next := by
  cases read with
  | ignore _ _ => exact admitted
  | fulfil | fail => exact (admitted.fill _ _).of_same rfl rfl id
  | cancel _ => exact admitted.cancel.of_same rfl rfl id
  | _ => exact admitted.of_same rfl rfl id

end

end Admitted

theorem step_admitted {setup : Setup} {tasks next : Shared} {act : Act} (sound : Sound tasks)
    (admitted : Admitted tasks)
    (stepped : tasks.step setup act = some next) : Admitted next := by
  cases Shared.step_inv stepped with
  | begin kind =>
    have counted : Admitted { tasks with
        nextCorrId := nextCorrelationId tasks.nextCorrId
        allocated := tasks.allocated + 1 } := admitted.of_same rfl rfl id
    exact @Admitted.move _ _ _ ⟨kind, tasks.nextCorrId, .checking⟩ .checking counted rfl rfl rfl
      nofun
  | expire => exact admitted.of_same rfl rfl nofun
  | close => exact admitted.cancel
  | poll found polled => exact admitted.poll sound found polled
  | drop found => exact admitted.finish _ _
  | @dropRequest id call request found requested =>
    have erased : Admitted (tasks.erase request.corrId) :=
      admitted.of_same rfl rfl (fun notDue => notDue)
    exact erased.finish _ _
  | reader read => exact admitted.read read
  | writer running => exact admitted.of_same rfl rfl id
  | writerCancel left => exact admitted.cancel.of_same rfl rfl id

/-! ## Runs -/

/-- While an exchange goes on that no caller drops, only its next frames are queued.  In every
run, a request that found the re-authentication due is queued after an exchange has
succeeded. -/
theorem run_exchange_exclusive (setup : Setup) (acts : List Act) (tasks : Shared)
    (ran : Transition.run (Shared.step setup) .start acts = some tasks) :
    (Transition.Along (Shared.step setup) Undropped .start acts ->
      forall newer older frame, tasks.log = newer ++ .queued frame :: older ->
        forall call serial, ongoing older = some (call, serial) ->
          frame = .sasl call (serial + 1)) ∧
      forall newer middle older id,
        tasks.log = newer ++ .queued (.own id) :: (middle ++ .foundDue id :: older) ->
          Exists fun call => .succeeded call ∈ middle := by
  constructor
  · intro undropped
    have kept := Transition.run_invariant (fun tasks => Sound tasks ∧ Exchanging tasks)
      (fun _ _ _ kept allowed stepped =>
        ⟨step_sound kept.1 stepped, step_exchanging kept.1 kept.2 allowed stepped⟩)
      ⟨Sound.start, Exchanging.start⟩ undropped ran
    exact kept.2.2.2
  · have kept := Transition.run_keeps (fun tasks => Sound tasks ∧ Admitted tasks)
      (fun _ _ _ kept stepped =>
        ⟨step_sound kept.1 stepped, step_admitted kept.1 kept.2 stepped⟩)
      ⟨Sound.start, Admitted.start⟩ ran
    intro newer middle older id log
    exact kept.2.history newer (middle ++ .foundDue id :: older) id log middle older rfl

/-- One shard, and room for three frames. -/
def threeFrames : Setup := ⟨3, 1, fun _ => 0, fun _ => Nat.zero_lt_one⟩

/-- Two calls find the re-authentication due.  The first one runs the exchange of two requests,
and then both queue their frames. -/
def dueCalls : List Act :=
  [.expire, .begin .send, .begin .sendNoResponse, .poll 0 .readLock, .poll 1 .readLock,
    .poll 0 .writeLock, .poll 0 .saslRequest, .poll 0 .push, .writer .dequeue, .writer .written,
    .reader (.receive (some MIN_RESERVED_CORRELATION_ID)), .reader .fulfil, .poll 0 .take,
    .poll 0 .unwind, .poll 0 .saslRequest, .poll 0 .push, .writer .dequeue, .writer .written,
    .reader (.receive (some (MIN_RESERVED_CORRELATION_ID + 1))), .reader .fulfil, .poll 0 .take,
    .poll 0 .unwind, .poll 0 .authenticated, .poll 1 .writeLock, .poll 1 .readLock, .poll 1 .push,
    .poll 0 .readLock, .poll 0 .push]

theorem run_exchange_exclusive_due :
    Exists fun tasks =>
      Transition.run (Shared.step threeFrames) .start dueCalls = some tasks ∧
        tasks.log = [.queued (.own 0), .queued (.own 1), .succeeded 0, .queued (.sasl 0 1),
          .queued (.sasl 0 0), .foundDue 1, .foundDue 0] ∧
        forall newer older frame, tasks.log = newer ++ .queued frame :: older ->
          forall call serial, ongoing older = some (call, serial) ->
            frame = .sasl call (serial + 1) :=
  ⟨_, rfl, rfl, (run_exchange_exclusive threeFrames dueCalls _ rfl).1 (by decide)⟩

/-- The caller drops the call that re-authenticates after its first frame is queued, and another
call finds the re-authentication still due. -/
def droppedInExchange : List Act :=
  [.expire, .begin .send, .poll 0 .readLock, .poll 0 .writeLock, .poll 0 .saslRequest,
    .poll 0 .push, .drop 0, .begin .send, .poll 1 .readLock, .poll 1 .writeLock,
    .poll 1 .saslRequest, .poll 1 .push]

/-- The frame after the first one of the dropped exchange is the first one of another exchange,
although the first has not succeeded and the connection is open. -/
theorem dropped_exchange_interrupted :
    (Transition.run (Shared.step threeFrames) .start droppedInExchange).map
        (fun tasks => (tasks.shutdown, tasks.log)) =
      some (false, [.queued (.sasl 1 1), .foundDue 1, .ended 0 .dropped, .queued (.sasl 0 0),
        .foundDue 0]) :=
  rfl

end Tasks
end Connection
end Krabka
