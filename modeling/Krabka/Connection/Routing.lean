import Krabka.Connection.Model

namespace Krabka
namespace Connection

open Collections (SortedMap)
open List Collections.SortedMap Option

/-!
# Answers reach the request they answer

The reader finds the request of an answer by its correlation id alone.  A normal id is the
number of the call modulo the size of the normal range, so two calls share one only when a
whole range of ids is allocated between them.  A reserved id is used again by every
re-authentication, so an answer to a request of an exchange that was given up must not be
under way when a later exchange takes the id.
-/

/-- The number of ids of the normal range. -/
def normalIds : Nat := MIN_RESERVED_CORRELATION_ID.toNat

theorem minReserved_eq : MIN_RESERVED_CORRELATION_ID = 2147483640 := rfl

theorem normalIds_eq : normalIds = 2147483640 := rfl

def normalId (id : Nat) : Int := (id : Int) % MIN_RESERVED_CORRELATION_ID

theorem normalId_lt (id : Nat) : normalId id < MIN_RESERVED_CORRELATION_ID := by
  rw [normalId, minReserved_eq]
  omega

theorem nextCorrelationId_normalId (id : Nat) :
    nextCorrelationId (normalId id) = normalId (id + 1) := by
  rw [nextCorrelationId, normalId, normalId, minReserved_eq, Int.natCast_add]
  split <;> omega

/-- Calls that share an id are a range apart. -/
theorem normalId_injective {left right : Nat} (shared : normalId left = normalId right)
    (below : left < right + normalIds) (above : right < left + normalIds) : left = right := by
  rw [normalId, normalId, minReserved_eq] at shared
  rw [normalIds_eq] at below above
  omega

theorem minReserved_le_nextReservedId (saslId : Int) :
    MIN_RESERVED_CORRELATION_ID ≤ (nextReservedId saslId).1 := by
  unfold nextReservedId
  split
  · exact Int.le_refl _
  · rename_i reserved
    exact Int.not_lt.mp reserved

/-! ## The condition -/

/-- Fewer ids than the normal range holds have been allocated since the one of the frame. -/
def Recent (connection : ConnectionInner) (frame : Frame) : Prop :=
  match frame.tag with
  | .own id => connection.allocated ≤ id + normalIds
  | .sasl _ _ => True

instance (connection : ConnectionInner) (frame : Frame) : Decidable (Recent connection frame) := by
  unfold Recent
  split <;> infer_instance

def reservedNext? (call : Call) : Option Int :=
  match call.stage with
  | .exchange saslId => some (nextReservedId saslId).1
  | _ => none

/-- From the allocation of an id until its call is over, and until the answer to its frame
arrives, fewer ids are allocated than the normal range holds.  A request of an exchange takes
its reserved id only when no frame with that id is queued or may still be answered. -/
def Settled (connection : ConnectionInner) : Act -> Prop
  | .begin _ => forall entry, entry ∈ connection.calls.entries ->
      connection.allocated < entry.1 + normalIds
  | .saslRequest id => forall corrId, corrId ∈ (connection.calls.get? id).bind reservedNext? ->
      forall frame, frame ∈ connection.queue ++ connection.wire -> frame.corrId ≠ corrId
  | .receive index => forall frame, frame ∈ connection.wire[index]? -> Recent connection frame
  | _ => True

instance (connection : ConnectionInner) (act : Act) : Decidable (Settled connection act) := by
  cases act <;> unfold Settled <;> infer_instance

/-! ## The invariant -/

structure Sound (allocated id : Nat) (call : Call) : Prop where
  begun : id < allocated
  recent : allocated ≤ id + normalIds
  corrId : call.corrId = normalId id
  own : call.stage.exclusive = false -> forall request, call.stage.request? = some request ->
    request.tag = .own id ∧ request.corrId = normalId id
  reserved : call.stage.exclusive = true -> forall request, call.stage.request? = some request ->
    (Exists fun serial => request.tag = .sasl id serial) ∧
      MIN_RESERVED_CORRELATION_ID ≤ request.corrId
  answer : forall request, call.stage.request? = some request ->
    forall answer, request.slot = some answer -> answer = request.tag

def Waits (connection : ConnectionInner) (tag : Tag) (corrId : Int) : Prop :=
  Exists fun call => connection.calls.get? tag.call = some call ∧
    Exists fun request => call.stage.request? = some request ∧
      request.tag = tag ∧ request.corrId = corrId

/-- The request of a call in progress. -/
def Running (connection : ConnectionInner) (tag : Tag) : Prop :=
  Exists fun corrId => Waits connection tag corrId

def Sent (allocated : Nat) (frame : Frame) : Prop :=
  match frame.tag with
  | .own id => id < allocated ∧ frame.corrId = normalId id
  | .sasl _ _ => MIN_RESERVED_CORRELATION_ID ≤ frame.corrId

theorem Sound.idle {allocated id : Nat} {call : Call} (sound : Sound allocated id call)
    {stage : Stage} (idle : stage.request? = none) :
    Sound allocated id { call with stage := stage } :=
  { sound with
    own := fun _ _ requested => absurd (idle.symm.trans requested) nofun
    reserved := fun _ _ requested => absurd (idle.symm.trans requested) nofun
    answer := fun _ requested => absurd (idle.symm.trans requested) nofun }

structure Routed (connection : ConnectionInner) : Prop where
  counter : connection.nextCorrId = normalId connection.allocated
  calls : forall id call, connection.calls.get? id = some call ->
    Sound connection.allocated id call
  pending : forall corrId tag, connection.pending.get? corrId = some tag ->
    Waits connection tag corrId
  frames : forall frame, frame ∈ connection.queue ++ connection.wire ->
    Sent connection.allocated frame
  exclusive : forall id call, connection.calls.get? id = some call ->
    call.stage.exclusive = true -> forall other otherCall,
      connection.calls.get? other = some otherCall -> otherCall.stage.exclusive = true ->
        other = id
  settled : forall id call, connection.calls.get? id = some call ->
    call.stage.exclusive = true -> forall request, call.stage.request? = some request ->
      forall frame, frame ∈ connection.queue ++ connection.wire ->
        request.corrId = frame.corrId -> request.tag = frame.tag
  returned : forall entry, entry ∈ connection.returned -> entry.2 = entry.1

theorem start_routed : Routed .start := ⟨rfl, nofun, nofun, nofun, nofun, nofun, nofun⟩

/-! ## Parts of a step -/

variable {stage : Stage} {frame : Frame} {tag : Tag}

namespace Routed

variable {connection : ConnectionInner}

section

variable (routed : Routed connection)

include routed

/-- The answer to a recent frame finds its own request. -/
theorem finds (written : frame ∈ connection.wire) (recent : Recent connection frame)
    (registered : connection.pending.get? frame.corrId = some tag) : tag = frame.tag := by
  have member := mem_append_right connection.queue written
  have sent := routed.frames frame member
  rcases routed.pending frame.corrId tag registered with
    ⟨call, found, request, requested, isTag, sameId⟩
  have sound := routed.calls tag.call call found
  cases exclusive : call.stage.exclusive with
  | true =>
    have settled := routed.settled tag.call call found exclusive request requested
    exact isTag.symm.trans (settled frame member sameId)
  | false =>
    have own := sound.own exclusive request requested
    unfold Sent at sent
    unfold Recent at recent
    cases isFrame : frame.tag with
    | sasl caller serial =>
      -- The id of the frame is reserved, and the request has a normal id.
      rw [isFrame] at sent
      have normal := normalId_lt tag.call
      rw [<- own.2, sameId] at normal
      exact absurd normal (Int.not_lt.mpr sent)
    | own caller =>
      rw [isFrame] at sent recent
      have shared : normalId tag.call = normalId caller := own.2.symm.trans (sameId.trans sent.2)
      have same : tag.call = caller :=
        normalId_injective shared (Nat.lt_of_lt_of_le sound.begun recent)
          (Nat.lt_of_lt_of_le sent.1 sound.recent)
      rw [<- isTag, own.1, same]

/-- Fewer frames. -/
theorem frames_subset {queue wire : List Frame} (subset : forall frame, frame ∈ queue ++ wire ->
      frame ∈ connection.queue ++ connection.wire) :
    Routed { connection with queue := queue, wire := wire } :=
  { routed with
    frames := fun frame member => routed.frames frame (subset frame member)
    settled := fun id call found exclusive request requested frame member =>
      routed.settled id call found exclusive request requested frame (subset frame member) }

theorem erase (corrId : Int) :
    Routed { connection with pending := connection.pending.erase corrId } :=
  { routed with
    pending := fun other tag registered => routed.pending other tag (get?_of_filter registered) }

theorem register {tag : Tag} {corrId : Int} (waits : Waits connection tag corrId) :
    Routed (connection.register tag corrId) := by
  refine { routed with pending := fun other registeredTag registered => ?_ }
  rcases of_get?_insert registered with ⟨rfl, rfl⟩ | ⟨_, registered⟩
  · exact waits
  · exact routed.pending other registeredTag registered

/-- A frame is queued that belongs to the one exchange that may be going on. -/
theorem push {tag : Tag} {corrId : Int} (sent : Sent connection.allocated ⟨tag, corrId⟩)
    (settled : forall id call, connection.calls.get? id = some call ->
      call.stage.exclusive = true -> forall request, call.stage.request? = some request ->
        request.corrId = corrId -> request.tag = tag) :
    Routed (connection.push tag corrId) := by
  have cases_frame : forall frame,
      frame ∈ (connection.push tag corrId).queue ++ (connection.push tag corrId).wire ->
        frame ∈ connection.queue ++ connection.wire ∨ frame = ⟨tag, corrId⟩ := by
    intro frame member
    rcases mem_append.mp member with queued | written
    · rcases mem_append.mp queued with before | pushed
      · exact .inl (mem_append_left _ before)
      · exact .inr (mem_singleton.mp pushed)
    · exact .inl (mem_append_right _ written)
  refine { routed with frames := ?_, settled := ?_ }
  · intro frame member
    rcases cases_frame frame member with before | pushed
    · exact routed.frames frame before
    · rw [pushed]
      exact sent
  · intro id call found exclusive request requested frame member sameId
    rcases cases_frame frame member with before | pushed
    · exact routed.settled id call found exclusive request requested frame before sameId
    · rw [pushed] at sameId ⊢
      exact settled id call found exclusive request requested sameId

theorem move {id : Nat} {call : Call} {stage : Stage}
    (sound : Sound connection.allocated id { call with stage := stage })
    (exclusive : stage.exclusive = true -> forall other otherCall,
      connection.calls.get? other = some otherCall -> otherCall.stage.exclusive = true ->
        other = id)
    (pending : forall corrId tag, connection.pending.get? corrId = some tag -> tag.call = id ->
      Exists fun request => stage.request? = some request ∧ request.tag = tag ∧
        request.corrId = corrId)
    (settled : stage.exclusive = true -> forall request, stage.request? = some request ->
      forall frame, frame ∈ connection.queue ++ connection.wire ->
        request.corrId = frame.corrId -> request.tag = frame.tag) :
    Routed (connection.move id call stage) := by
  refine ⟨routed.counter, ?_, ?_, routed.frames, ?_, ?_, routed.returned⟩
  · intro other otherCall found
    rcases of_get?_insert found with ⟨rfl, rfl⟩ | ⟨_, before⟩
    · exact sound
    · exact routed.calls other otherCall before
  · intro corrId tag registered
    by_cases isMoved : tag.call = id
    · rcases pending corrId tag registered isMoved with ⟨request, requested, matched⟩
      refine ⟨{ call with stage := stage }, ?_, request, requested, matched⟩
      rw [isMoved]
      exact get?_insert_self _ _ _
    · rcases routed.pending corrId tag registered with ⟨waiting, found, rest⟩
      refine ⟨waiting, ?_, rest⟩
      rw [<- found]
      exact get?_insert_of_ne _ _ isMoved
  · intro other otherCall found isExclusive third thirdCall thirdFound thirdExclusive
    rcases of_get?_insert found with ⟨rfl, rfl⟩ | ⟨_, before⟩
    · rcases of_get?_insert thirdFound with ⟨same, _⟩ | ⟨_, thirdBefore⟩
      · exact same
      · exact exclusive isExclusive third thirdCall thirdBefore thirdExclusive
    · rcases of_get?_insert thirdFound with ⟨rfl, rfl⟩ | ⟨_, thirdBefore⟩
      · exact (exclusive thirdExclusive other otherCall before isExclusive).symm
      · exact routed.exclusive other otherCall before isExclusive third thirdCall thirdBefore
          thirdExclusive
  · intro other otherCall found isExclusive request requested
    rcases of_get?_insert found with ⟨_, rfl⟩ | ⟨_, before⟩
    · exact settled isExclusive request requested
    · exact routed.settled other otherCall before isExclusive request requested

/-- A call without a registered request is over. -/
theorem remove {id : Nat}
    (absent : forall corrId tag, connection.pending.get? corrId = some tag -> tag.call ≠ id) :
    Routed { connection with calls := connection.calls.erase id } := by
  refine ⟨routed.counter, ?_, ?_, routed.frames, ?_, ?_, routed.returned⟩
  · exact fun other call found => routed.calls other call (get?_of_filter found)
  · intro corrId tag registered
    rcases routed.pending corrId tag registered with ⟨call, found, rest⟩
    refine ⟨call, ?_, rest⟩
    rw [get?_erase, if_neg (absent corrId tag registered)]
    exact found
  · exact fun other call found isExclusive third thirdCall thirdFound =>
      routed.exclusive other call (get?_of_filter found) isExclusive third thirdCall
        (get?_of_filter thirdFound)
  · exact fun other call found => routed.settled other call (get?_of_filter found)

/-- A body goes to its caller. -/
theorem give {answer : Tag} (own : answer = tag) :
    Routed { connection with returned := (tag, answer) :: connection.returned } := by
  refine { routed with returned := ?_ }
  intro entry member
  rcases mem_cons.mp member with same | before
  · rw [same]
    exact own
  · exact routed.returned entry before

/-- Fields that no id depends on. -/
theorem flags (due reading : Bool) (exchanged : Nat) :
    Routed { connection with due := due, reading := reading, exchanged := exchanged } :=
  { routed with }

end

/-! ## Steps of a call -/

section

variable (routed : Routed connection) {id : Nat} {call : Call}

include routed

section

variable (found : connection.calls.get? id = some call)

include found

/-- A call without a request has no entry. -/
theorem unowned (idle : call.stage.request? = none) (corrId : Int) (tag : Tag)
    (registered : connection.pending.get? corrId = some tag) :
    tag.call ≠ id := by
  intro same
  rcases routed.pending corrId tag registered with ⟨waiting, isWaiting, request, requested, _⟩
  rw [same, found] at isWaiting
  rw [<- some.inj isWaiting, idle] at requested
  cases requested

/-- A call goes from one await point without a request to another. -/
theorem moveIdle (before : call.stage.request? = none) (idle : stage.request? = none)
    (exclusive : stage.exclusive = true -> forall other otherCall,
      connection.calls.get? other = some otherCall -> otherCall.stage.exclusive = true ->
        other = id) :
    Routed (connection.move id call stage) :=
  routed.move ((routed.calls id call found).idle idle) exclusive (fun corrId tag registered same =>
      absurd same (routed.unowned found before corrId tag registered))
    (fun _ _ requested => absurd (idle.symm.trans requested) nofun)

theorem enter {corrId : Int} (before : call.stage.request? = none)
    (sound : Sound connection.allocated id { call with stage := stage })
    (requested : stage.request? = some ⟨tag, corrId, none⟩) (isCall : tag.call = id)
    (exclusive : stage.exclusive = true -> call.stage.exclusive = true)
    (settled : stage.exclusive = true ->
      forall frame, frame ∈ connection.queue ++ connection.wire -> corrId ≠ frame.corrId) :
    Routed ((connection.register tag corrId).move id call stage) := by
  have moved : Routed (connection.move id call stage) := by
    refine routed.move sound ?_ ?_ ?_
    · intro isExclusive
      exact routed.exclusive id call found (exclusive isExclusive)
    · intro otherId other registered same
      exact absurd same (routed.unowned found before otherId other registered)
    · intro isExclusive request isRequest frame member sameId
      rw [<- some.inj (requested.symm.trans isRequest)] at sameId
      exact absurd sameId (settled isExclusive frame member)
  have waits : Waits (connection.move id call stage) tag corrId := by
    refine ⟨{ call with stage := stage }, ?_, ⟨tag, corrId, none⟩, requested, rfl, rfl⟩
    rw [isCall]
    exact get?_insert_self _ _ _
  exact moved.register waits

/-- A call keeps its request, which may get its answer. -/
theorem restage {change : Request -> Request} (exclusive : stage.exclusive = call.stage.exclusive)
    (requests : stage.request? = call.stage.request?.map change)
    (same : forall request, (change request).tag = request.tag ∧
      (change request).corrId = request.corrId ∧
        ((change request).slot = request.slot ∨ (change request).slot = some request.tag)) :
    Routed (connection.move id call stage) := by
  have sound := routed.calls id call found
  have known : forall request, stage.request? = some request ->
      Exists fun before => call.stage.request? = some before ∧ change before = request := by
    intro request requested
    rw [requests, map_eq_some_iff] at requested
    exact requested
  refine routed.move ⟨sound.begun, sound.recent, sound.corrId, ?_, ?_, ?_⟩ ?_ ?_ ?_
  · intro isShared request requested
    rcases known request requested with ⟨before, isBefore, rfl⟩
    rw [(same before).1, (same before).2.1]
    exact sound.own (exclusive.symm.trans isShared) before isBefore
  · intro isExclusive request requested
    rcases known request requested with ⟨before, isBefore, rfl⟩
    rw [(same before).1, (same before).2.1]
    exact sound.reserved (exclusive.symm.trans isExclusive) before isBefore
  · intro request requested answer answered
    rcases known request requested with ⟨before, isBefore, rfl⟩
    rw [(same before).1]
    rcases (same before).2.2 with kept | isOwn
    · exact sound.answer before isBefore answer (kept.symm.trans answered)
    · exact (some.inj (isOwn.symm.trans answered)).symm
  · exact fun isExclusive => routed.exclusive id call found (exclusive.symm.trans isExclusive)
  · intro corrId tag registered isCall
    rcases routed.pending corrId tag registered with
      ⟨waiting, isWaiting, before, isBefore, sameTag, sameId⟩
    rw [isCall, found] at isWaiting
    rw [<- some.inj isWaiting] at isBefore
    rw [requests, isBefore]
    exact ⟨_, rfl, (same before).1.trans sameTag, (same before).2.1.trans sameId⟩
  · intro isExclusive request requested
    rcases known request requested with ⟨before, isBefore, rfl⟩
    rw [(same before).1, (same before).2.1]
    exact routed.settled id call found (exclusive.symm.trans isExclusive) before isBefore

/-- The frame of a registered request is queued. -/
theorem sendFrame {request : Request} (before : call.stage.request? = some request)
    (after : stage.request? = some request) (exclusive : stage.exclusive = call.stage.exclusive) :
    Routed ((connection.push request.tag request.corrId).move id call stage) := by
  have sound := routed.calls id call found
  have moved : Routed (connection.move id call stage) :=
    routed.restage found exclusive (after.trans (by rw [before]; rfl))
      (fun _ => ⟨rfl, rfl, .inl rfl⟩)
  refine moved.push ?_ ?_
  · cases isExclusive : call.stage.exclusive with
    | true =>
      have reserved := sound.reserved isExclusive request before
      rcases reserved.1 with ⟨serial, isTag⟩
      rw [Sent, isTag]
      exact reserved.2
    | false =>
      have own := sound.own isExclusive request before
      rw [Sent, own.1]
      exact ⟨sound.begun, own.2⟩
  · intro other otherCall isOther otherExclusive otherRequest requested sameId
    cases isExclusive : stage.exclusive with
    | true =>
      -- The one exchange that is going on is the one of the frame.
      have isSelf : (connection.move id call stage).calls.get? id
          = some { call with stage := stage } := get?_insert_self _ _ _
      have isSame := moved.exclusive id _ isSelf isExclusive other otherCall isOther otherExclusive
      rw [isSame, isSelf] at isOther
      rw [<- some.inj isOther] at requested
      rw [some.inj (after.symm.trans requested)]
    | false =>
      have reserved := (moved.calls other otherCall isOther).reserved otherExclusive
        otherRequest requested
      have own := sound.own (exclusive.symm.trans isExclusive) request before
      have normal := normalId_lt id
      rw [<- own.2, <- sameId] at normal
      exact absurd normal (Int.not_lt.mpr reserved.2)

/-- After the drop guard ran, no entry of the call is left. -/
theorem unregister :
    Routed (connection.unregister call.stage) ∧ forall corrId tag,
      (connection.unregister call.stage).pending.get? corrId = some tag -> tag.call ≠ id := by
  unfold ConnectionInner.unregister
  cases requested : call.stage.request? with
  | none => exact ⟨routed, routed.unowned found requested⟩
  | some request =>
    refine ⟨routed.erase request.corrId, ?_⟩
    intro corrId tag registered same
    rw [get?_erase] at registered
    split at registered
    · cases registered
    · rename_i otherId
      rcases routed.pending corrId tag registered with
        ⟨waiting, isWaiting, other, isOther, _, sameId⟩
      rw [same, found] at isWaiting
      rw [<- some.inj isWaiting, requested] at isOther
      rw [<- some.inj isOther] at sameId
      exact otherId sameId.symm

theorem finish :
    Routed (connection.finish id call) := by
  rcases routed.unregister found with ⟨unregistered, absent⟩
  exact unregistered.remove absent

/-- The body of a finished exchange request goes back to the exchange. -/
theorem resume (isExclusive : call.stage.exclusive = true) (saslId : Int) :
    Routed ((connection.unregister call.stage).move id call (.exchange saslId)) := by
  rcases routed.unregister found with ⟨unregistered, absent⟩
  refine unregistered.move ((unregistered.calls id call found).idle rfl) ?_ ?_ ?_
  · exact fun _ => unregistered.exclusive id call found isExclusive
  · exact fun corrId tag registered same => absurd same (absent corrId tag registered)
  · exact fun _ _ requested => absurd requested nofun

end

end

/-- The reader gives an answer to the request that is registered for its id. -/
theorem deliver (routed : Routed connection)
    (finds : forall tag, connection.pending.get? frame.corrId = some tag -> tag = frame.tag) :
    Routed (connection.deliver frame) := by
  unfold ConnectionInner.deliver
  split
  · exact routed
  · rename_i tag registered
    rcases routed.pending frame.corrId tag registered with ⟨call, found, _⟩
    rw [found]
    have kept := finds tag registered
    refine (routed.erase frame.corrId).restage found
      (Stage.exclusive_fill tag frame.tag call.stage) (Stage.request?_fill tag frame.tag call.stage)
      fun request => ?_
    split
    · rename_i sameTag
      exact ⟨rfl, rfl, .inr (by rw [sameTag, kept])⟩
    · exact ⟨rfl, rfl, .inl rfl⟩

/-- An id is allocated while every call in progress is recent. -/
theorem allocate (routed : Routed connection) (kind : Kind)
    (recent : Settled connection (.begin kind)) : Routed (connection.allocate kind) := by
  have counted : Routed { connection with
      nextCorrId := nextCorrelationId connection.nextCorrId
      allocated := connection.allocated + 1 } := by
    refine { routed with counter := ?_, calls := ?_, frames := ?_ }
    · rw [routed.counter]
      exact nextCorrelationId_normalId _
    · intro id call found
      have sound := routed.calls id call found
      have member := (connection.calls.mem_entries_iff id call).mpr found
      exact { sound with begun := Nat.lt_succ_of_lt sound.begun, recent := recent (id, call) member }
    · intro frame member
      have sent := routed.frames frame member
      unfold Sent at sent ⊢
      split at sent
      · exact ⟨Nat.lt_succ_of_lt sent.1, sent.2⟩
      · exact sent
  refine @move _ counted connection.allocated ⟨kind, connection.nextCorrId, .checking⟩ .checking
    ⟨Nat.lt_succ_self _, ?_, routed.counter, nofun, nofun, nofun⟩ nofun ?_ nofun
  · change connection.allocated + 1 ≤ connection.allocated + normalIds
    rw [normalIds_eq]
    omega
  · intro corrId tag registered same
    rcases routed.pending corrId tag registered with ⟨call, found, _⟩
    exact absurd same (Nat.ne_of_lt (routed.calls tag.call call found).begun)

end Routed

/-! ## Runs -/

variable {connection : ConnectionInner}

theorem exclusive_false_of_held (free : connection.held = false) {id : Nat} {call : Call}
    (found : connection.calls.get? id = some call) :
    call.stage.exclusive = false := by
  have member := (connection.calls.mem_entries_iff id call).mpr found
  have unheld := any_eq_false.mp free (id, call) member
  by_contra isExclusive
  rw [Bool.not_eq_false] at isExclusive
  exact unheld (by rw [isExclusive]; rfl)

variable {next : ConnectionInner}

theorem step_routed {act : Act} (routed : Routed connection) (settled : Settled connection act)
    (stepped : connection.step act = some next) :
    Routed next := by
  cases ConnectionInner.step_inv stepped with
  | begin kind => exact routed.allocate kind settled
  | expire => exact routed.flags true connection.reading connection.exchanged
  | due found checking | submit found checking =>
    exact routed.moveIdle found (by rw [checking]; rfl) rfl nofun
  | @register id call found checking =>
    have sound := routed.calls id call found
    refine routed.enter found (by rw [checking]; rfl) ?_ rfl rfl nofun nofun
    refine ⟨sound.begun, sound.recent, sound.corrId, ?_, nofun, ?_⟩
    · intro _ request requested
      cases requested
      exact ⟨rfl, sound.corrId⟩
    · intro request requested answer answered
      rw [<- some.inj requested] at answered
      cases answered
  | writeLock found waiting free =>
    refine routed.moveIdle found (by rw [waiting]; rfl) rfl ?_
    intro _ other otherCall isOther isExclusive
    have unlocked := exclusive_false_of_held free isOther
    cases unlocked.symm.trans isExclusive
  | again found waiting => exact routed.moveIdle found (by rw [waiting]; rfl) rfl nofun
  | @saslRequest id call saslId found exchange =>
    have sound := routed.calls id call found
    have entered : Routed ((connection.register (.sasl id connection.exchanged)
        (nextReservedId saslId).1).move id call (.exchangeQueue (nextReservedId saslId).2
          ⟨.sasl id connection.exchanged, (nextReservedId saslId).1, none⟩)) := by
      refine routed.enter found (by rw [exchange]; rfl) ?_ rfl rfl ?_ ?_
      · refine ⟨sound.begun, sound.recent, sound.corrId, nofun, ?_, ?_⟩
        · intro _ request requested
          cases requested
          exact ⟨⟨_, rfl⟩, minReserved_le_nextReservedId saslId⟩
        · intro request requested answer answered
          rw [<- some.inj requested] at answered
          cases answered
      · intro _
        rw [exchange]
        rfl
      · intro _ frame member sameId
        have reserved : (nextReservedId saslId).1 ∈
            (connection.calls.get? id).bind reservedNext? := by
          rw [found, bind_some, reservedNext?, exchange]
          exact rfl
        exact settled _ reserved frame member sameId.symm
    exact entered.flags connection.due connection.reading (connection.exchanged + 1)
  | @authenticated id call saslId found exchange =>
    have moved : Routed (connection.move id call .checking) :=
      routed.moveIdle found (by rw [exchange]; rfl) rfl nofun
    exact moved.flags false connection.reading connection.exchanged
  | push found queued | saslPush found queued =>
    exact routed.sendFrame found (by rw [queued]; rfl) rfl (by rw [queued]; rfl)
  | @submitted id call found submit =>
    have sound := routed.calls id call found
    have pushed : Routed (connection.push (.own id) call.corrId) := by
      refine routed.push ⟨sound.begun, sound.corrId⟩ ?_
      intro other otherCall isOther isExclusive request requested sameId
      have reserved := (routed.calls other otherCall isOther).reserved isExclusive request requested
      have normal := normalId_lt id
      rw [<- sound.corrId, <- sameId] at normal
      exact absurd normal (Int.not_lt.mpr reserved.2)
    exact pushed.finish found
  | @write frame rest queued =>
    refine routed.frames_subset ?_
    intro other member
    rw [queued]
    rcases mem_append.mp member with waiting | written
    · exact mem_append_left _ (mem_cons_of_mem _ waiting)
    · rcases mem_append.mp written with before | isFrame
      · exact mem_append_right _ before
      · rw [mem_singleton.mp isFrame]
        exact mem_append_left _ mem_cons_self
  | @receive index frame written =>
    have dropped : Routed { connection with wire := connection.wire.drop (index + 1) } := by
      refine routed.frames_subset ?_
      intro other member
      rcases mem_append.mp member with queued | kept
      · exact mem_append_left _ queued
      · exact mem_append_right _ (mem_of_mem_drop kept)
    refine dropped.deliver ?_
    intro tag registered
    exact routed.finds (mem_of_getElem? written) (settled frame written) registered
  | @take id call request answer found awaits answered =>
    have sound := routed.calls id call found
    have own := sound.answer request (by rw [awaits]; rfl) answer answered
    exact (routed.finish found).give own
  | @saslTake id call saslId request answer found awaits answered =>
    have sound := routed.calls id call found
    have own := sound.answer request (by rw [awaits]; rfl) answer answered
    exact (routed.resume found (by rw [awaits]; rfl) saslId).give own
  | leave found => exact routed.finish found
  | stop => exact routed.flags connection.due false connection.exchanged
  | drain corrId => exact routed.erase corrId

/-- An answer to a request that is over reaches nobody. -/
theorem discarded (routed : Routed connection) {index : Nat}
    (written : connection.wire[index]? = some frame) (recent : Recent connection frame)
    (ended : ¬Running connection frame.tag) (stepped : connection.step (.receive index) = some next) :
    next.calls = connection.calls ∧ next.pending = connection.pending := by
  cases ConnectionInner.step_inv stepped with
  | @receive _ received isReceived =>
    rw [<- some.inj (written.symm.trans isReceived)]
    have unregistered : connection.pending.get? frame.corrId = none := by
      by_contra registered
      rcases ne_none_iff_exists'.mp registered with ⟨tag, isTag⟩
      have same := routed.finds (mem_of_getElem? written) recent isTag
      rw [same] at isTag
      exact ended ⟨frame.corrId, routed.pending frame.corrId frame.tag isTag⟩
    unfold ConnectionInner.deliver
    rw [unregistered]
    exact ⟨rfl, rfl⟩

/-- In a run that meets the condition, a body answers the frame of the request that returns
it, an answer to a request that is over is discarded, and `pending` holds the id of a request
in progress only. -/
theorem run_responses_routed (acts : List Act) (connection : ConnectionInner)
    (ran : Transition.run ConnectionInner.step .start acts = some connection)
    (settled : Transition.Along ConnectionInner.step Settled .start acts) :
    (forall tag answer, (tag, answer) ∈ connection.returned -> answer = tag) ∧
      (forall index frame next, connection.wire[index]? = some frame ->
        Settled connection (.receive index) -> ¬Running connection frame.tag ->
          connection.step (.receive index) = some next ->
            next.calls = connection.calls ∧ next.pending = connection.pending) ∧
      forall corrId tag, connection.pending.get? corrId = some tag ->
        Waits connection tag corrId := by
  have routed := Transition.run_invariant Routed (fun _ _ _ => step_routed)
    start_routed settled ran
  refine ⟨fun tag answer member => routed.returned (tag, answer) member, ?_, routed.pending⟩
  intro index frame next written recent ended stepped
  exact discarded routed written (recent frame written) ended stepped

/-- A dropped call whose answer still comes, a re-authentication inside a send without a
response, and a send after it. -/
def mixedCalls : List Act :=
  [.begin .send, .readLock 0, .push 0, .write, .expire, .begin .sendNoResponse, .readLock 1,
    .writeLock 1, .saslRequest 1, .push 1, .write, .leave 0, .receive 0, .receive 0, .take 1,
    .authenticated 1, .readLock 1, .push 1, .write, .begin .send, .readLock 2, .push 2, .write,
    .receive 1, .take 2]

theorem run_responses_routed_mixed :
    Exists fun connection =>
      Transition.run ConnectionInner.step .start mixedCalls = some connection ∧
        connection.returned = [(.own 2, .own 2), (.sasl 1 0, .sasl 1 0)] ∧
        forall corrId tag, connection.pending.get? corrId = some tag ->
          Waits connection tag corrId :=
  ⟨_, rfl, rfl, (run_responses_routed mixedCalls _ rfl (by decide)).2.2⟩

/-- The call that re-authenticates is dropped after its first frame is written.  The next call
starts the exchange again. -/
def droppedExchange : List Act :=
  [.begin .send, .expire, .readLock 0, .writeLock 0, .saslRequest 0, .push 0, .write, .leave 0,
    .begin .send, .readLock 1, .writeLock 1, .saslRequest 1, .push 1, .write, .receive 0, .take 1]

/-- The answer to a dropped exchange reaches the exchange of the next call. -/
theorem dropped_exchange_answers_next :
    (Transition.run ConnectionInner.step .start droppedExchange).map
        (fun connection => (connection.returned, connection.allocated)) =
      some ([(.sasl 1 1, .sasl 0 0)], 2) :=
  rfl

end Connection
end Krabka
