import Krabka.Producer.Refinement.Complete

namespace Krabka
namespace Producer

open Collections List Transition

/-!
# Runs keep custody

The requests, the brokers and the client calls, and with them every act.  A
run from a new producer refines the ledger step by step, so every world it
reaches is sound.
-/

variable {world : World} {config : Config} {acts : List Act}

namespace World

/-! ## Produce requests -/

section Requests

variable {world : World} (shape : world.Shape)

include shape

variable {other : World}

/-- A step that keeps the sender and its batches. -/
theorem refined_same (same : SameCustody world other) (phase : other.phase = world.phase) :
    Refined world other := by
  have unchanged : Refined world (other.goto [] world.phase) :=
    refined_calls shape same (zero_add _) (Nat.zero_add _)
  rw [← phase] at unchanged
  exact unchanged

variable {request : Request} {index : Nat}

/-- A request that keeps the records of its batch. -/
theorem setRequest_refined {next : Request} (same : SameCustody world other)
    (phase : other.phase = world.phase) (found : world.requests[index]? = some request)
    (parcel : next.batch.parcel = request.batch.parcel) :
    Refined world (other.setRequest index next) := by
  obtain ⟨inside, atIndex⟩ := List.getElem?_eq_some_iff.mp found
  have wireSame : (other.setRequest index next).onWire = world.onWire := by
    unfold onWire parcels setRequest
    rw [map_map, map_map, map_set, same.requests]
    congr 1
    apply ext_getElem?
    intro position
    rw [getElem?_set]
    split_ifs with here outside
    · rw [← here, getElem?_map, found]
      exact congrArg some parcel
    · rw [length_map] at outside
      exact absurd inside outside
    · rfl
  have parkedSame : (other.setRequest index next).parked = world.parked := by
    simp only [parked, setRequest, same.retry]
  refine refined_inside same.accepted same.resolved same.queues same.counter
    (congrArg Phase.taken phase) ?_ (congrArg callsFinishing same.calls) ⟨?_, ?_, ?_⟩
  · rw [drained, wireSame, parkedSame]
    change _ + (other.phase.held + callsHeld other.calls) = _
    rw [phase, same.calls]
    rfl
  · exact same.keyed shape
  · intro held member
    change held.batch.key ∈ other.occupied
    rw [same.occupied]
    rcases mem_or_eq_of_mem_set member with old | new
    · exact shape.wire held (same.requests ▸ old)
    · have keySame : next.batch.key = request.batch.key := congrArg Prod.fst parcel
      rw [new, keySame]
      exact shape.wire request (atIndex ▸ getElem_mem inside)
  · rw [standing, wireSame, parkedSame]
    change other.phase.Covers (_ + other.phase.held)
    rw [phase]
    exact shape.covers

omit shape in
/-- The parties of a request: its first poll, its answer and its loss. -/
theorem onRequest_refined {index : Nat} {progress : Progress} {act : Request -> World}
    {next : World} (stepped : world.onRequest index progress act = some next)
    (acts : forall request, world.requests[index]? = some request -> Refined world (act request)) :
    Refined world next := by
  unfold onRequest at stepped
  cases found : world.requests[index]? with
  | none => simp [found] at stepped
  | some request =>
    simp only [found, Option.ite_none_right_eq_some, Option.some.injEq] at stepped
    rw [← stepped.2]
    exact acts request found

theorem pollRequest_refined {encodes : Bool} {backoff : Nat}
    (found : world.requests[index]? = some request) :
    Refined world (world.pollRequest index request encodes backoff) := by
  unfold pollRequest
  cases world.drainedBarrier request.batch.transactionGeneration with
  | some barrier => exact setRequest_refined shape (.refl world) rfl found rfl
  | none =>
    cases encodes with
    | false => exact setRequest_refined shape (.refl world) rfl found rfl
    | true =>
      have same : SameCustody world (world.emit [.sent request.batch.key
          request.batch.recordBatch (handles request.batch.records)]) :=
        ⟨by simp [emit, acceptances], by simp [emit, resolutions], rfl, rfl, rfl, rfl, rfl, rfl⟩
      exact setRequest_refined shape same rfl found rfl

theorem answerRequest_refined {answer : Option PartitionAnswer} {leaderHint : Int} {backoff : Nat}
    (found : world.requests[index]? = some request) :
    Refined world (world.answerRequest index request answer leaderHint backoff) := by
  dsimp only [answerRequest]
  split_ifs with hinted
  · exact setRequest_refined shape (by constructor <;> rfl) rfl found
      (PreparedBatch.SameStamp.interpretResponse _ _ _ _ _).parcel
  · exact setRequest_refined shape (.refl world) rfl found
      (PreparedBatch.SameStamp.interpretResponse _ _ _ _ _).parcel

omit shape in
theorem pick_perm {picks : List Nat} {requests picked left : List Request}
    (taken : pick picks requests = some (picked, left)) : requests.Perm (picked ++ left) := by
  induction picks generalizing requests picked left with
  | nil =>
    rw [pick, Option.some.injEq, Prod.mk.injEq] at taken
    rw [← taken.1, ← taken.2]
    exact List.Perm.refl _
  | cons index rest ih =>
    rw [pick] at taken
    cases found : requests[index]? with
    | none => simp [found] at taken
    | some request =>
      simp only [found, Option.map_eq_some_iff, Prod.mk.injEq] at taken
      obtain ⟨⟨later, others⟩, pickedLater, samePicked, sameLeft⟩ := taken
      obtain ⟨inside, atIndex⟩ := List.getElem?_eq_some_iff.mp found
      rw [← samePicked, ← sameLeft, ← atIndex]
      have removed := (getElem_cons_eraseIdx_perm inside).symm
      exact removed.trans (List.Perm.cons _ (ih pickedLater))

omit shape in
theorem results_batches {picked : List Request}
    (completed : picked.all (fun request => (requestResult request).isSome) = true) :
    (picked.filterMap requestResult).map BatchSendResult.batch = picked.map Request.batch := by
  induction picked with
  | nil => rfl
  | cons request rest ih =>
    rw [all_cons, Bool.and_eq_true] at completed
    obtain ⟨result, found⟩ := Option.isSome_iff_exists.mp completed.1
    have sameBatch : result.batch = request.batch := by
      unfold requestResult at found
      cases progress : request.progress <;>
        simp only [progress, reduceCtorEq, Option.some.injEq] at found
      rw [← found]
    rw [filterMap_cons, found, map_cons, map_cons, sameBatch, ih completed.2]

/-- `complete_batches` starts with the batches of the requests it took. -/
theorem complete_refined (distinct : Distinct world.drained) (waiting : world.atSelect = true)
    {picks : List Nat} {next : World} (stepped : world.complete picks = some next) :
    Refined world next := by
  have idle : world.phase = .select ∧ world.calls = [] := by simpa [atSelect] using waiting
  unfold complete at stepped
  cases taken : pick picks world.requests with
  | none => simp [taken] at stepped
  | some parts =>
    obtain ⟨picked, left⟩ := parts
    simp only [taken, Option.ite_none_right_eq_some, Option.some.injEq] at stepped
    obtain ⟨⟨_, completed⟩, rfl⟩ := stepped
    have divided := pick_perm taken
    have wireParts : world.onWire =
        parcels (picked.map Request.batch) + parcels (left.map Request.batch) := by
      rw [onWire, parcels_perm (divided.map Request.batch), map_append, parcels_append]
    refine refined_inside rfl rfl rfl rfl (by rw [idle.1]; rfl) ?_ rfl ⟨shape.keyed, ?_, trivial⟩
    · simp only [drained, parked, onWire, inHand, Phase.held, idle, callsHeld_nil,
        results_batches completed]
      change _ = _ + world.onWire + _
      rw [wireParts]
      abel
    · intro request member
      apply mem_filter.mpr
      refine ⟨shape.wire request (divided.mem_iff.mpr (mem_append_right _ member)), ?_⟩
      -- Another request of the same partition would be a second drained batch.
      have apart : Distinct world.onWire :=
        distinct.of_le ((Multiset.le_add_left _ _).trans (Multiset.le_add_right _ _))
      rw [wireParts, Distinct, Multiset.map_add, Multiset.nodup_add] at apart
      rw [Bool.not_eq_true', contains_eq_mem, decide_eq_false_iff_not]
      intro inPicked
      obtain ⟨other, otherPicked, sameKey⟩ := mem_map.mp inPicked
      have among : request.batch.key ∈ (parcels (picked.map Request.batch)).map Prod.fst :=
        Multiset.mem_map.mpr ⟨other.batch.parcel,
          mem_map_of_mem (mem_map_of_mem otherPicked), sameKey⟩
      apply Multiset.disjoint_left.mp apart.2.2 among
      exact Multiset.mem_map.mpr ⟨request.batch.parcel, mem_map_of_mem (mem_map_of_mem member), rfl⟩

/-- The sender leaves `select!` and schedules again. -/
theorem wakeUp_refined (waiting : world.atSelect = true) (same : SameCustody world other)
    (phase : other.phase = .schedule) :
    Refined world other := by
  have idle : world.phase = .select ∧ world.calls = [] := by simpa [atSelect] using waiting
  have scheduled : Refined world (other.goto [] .schedule) :=
    refined_goto shape idle.1 same rfl rfl rfl trivial
  rw [← phase] at scheduled
  exact scheduled

end Requests

/-! ## Client calls -/

section Client

variable {config : Config} {world : World} (shape : world.Shape)

include shape

theorem openAccumulator_refined (key : TopicPartition) :
    Refined world (world.openAccumulator config key) := by
  unfold openAccumulator
  split_ifs with known
  · exact refined_same shape (.refl world) rfl
  · have absent : world.accumulators.get? key = none := by
      simpa [SortedMap.contains] using known
    refine refined_same shape ⟨rfl, rfl, ?_, rfl, rfl, rfl, rfl, rfl⟩ rfl
    rw [queue_setAccumulator]
    apply Function.update_eq_self_iff.mpr
    rw [queue, absent]
    rfl

theorem sealFull_refined {key : TopicPartition} {payload : Payload} {next : World}
    (stepped : world.sealFull config key payload = some next) : Refined world next := by
  unfold sealFull at stepped
  split at stepped
  case h_1 generation accumulator _ found =>
    split_ifs at stepped with full <;> cases stepped
    · refine refined_same shape ⟨rfl, rfl, ?_, rfl, rfl, rfl, rfl, rfl⟩ rfl
      exact queue_setAccumulator_same found (congrArg handles (Accumulator.queued_sealCurrent _))
    · exact refined_same shape (.refl world) rfl
  case h_2 => simp at stepped

/-- An accepted record goes to the end of its queue. -/
theorem append_refined {key : TopicPartition} {payload : Payload} {next : World}
    (stepped : world.append config key payload = some next) : Refined world next := by
  unfold append at stepped
  split at stepped
  case h_1 generation accumulator _ found =>
    split_ifs at stepped with active
    cases stepped
    refine ⟨?_, { shape with }⟩
    convert Ledger.Move.accept world.ledger key using 1
    simp only [ledger, Ledger.mk.injEq]
    refine ⟨?_, ?_, rfl, rfl, rfl, rfl, ?_, ?_⟩
    · simp [emit, setAccumulator, acceptances]
    · refine (queue_setAccumulator _ _ _).trans ?_
      rw [Accumulator.handles_queued_append, ← queue_of_get? found]
      simp
    · simp [emit, setAccumulator, ackedHandles, resolutions]
    · simp [emit, setAccumulator, failedHandles, resolutions]
  case h_2 => simp at stepped

theorem registerFails_refined {error : TxnError} {next : World}
    (stepped : world.registerFails config error = some next) : Refined world next := by
  unfold registerFails at stepped
  split at stepped
  case h_1 =>
    cases stepped
    exact refined_same shape (by constructor <;> rfl) rfl
  case h_2 => simp at stepped

/-- `abort_undrained_batches` empties one accumulator. -/
theorem abortKey_refined (key : TopicPartition) (tasks : List Task) :
    Refined world { world.abortKey key with tasks := tasks } := by
  unfold abortKey
  cases found : world.accumulators.get? key with
  | none => exact refined_same shape (by constructor <;> rfl) rfl
  | some accumulator =>
    exact refined_emptied found rfl rfl rfl rfl rfl rfl { shape with }

omit shape in
/-- A client call makes the next cut of its task. -/
theorem advanceTask_cut {index : Nat} {choice : TaskChoice} {next : World}
    (stepped : world.advanceTask index choice = some next) :
    Exists fun task => Exists fun result => Exists fun after =>
      world.tasks[index]? = some task ∧ world.taskStep choice task = some (result, after) ∧
        next = { result with tasks := world.tasks.set index after } := by
  unfold advanceTask at stepped
  cases found : world.tasks[index]? with
  | none => simp [found] at stepped
  | some task =>
    simp only [found] at stepped
    cases cut : world.taskStep choice task with
    | none => simp [cut] at stepped
    | some pair =>
      simp only [cut] at stepped
      exact ⟨task, pair.1, pair.2, rfl, cut, (Option.some.inj stepped).symm⟩

omit shape in
theorem applyEndTxnStep_same (committed : Bool) (previous : TxnState)
    (decision : EndTxnDecision) (identity : Option Identity) :
    SameCustody world (world.applyEndTxnStep committed previous decision identity).1 ∧
      (world.applyEndTxnStep committed previous decision identity).1.phase = world.phase := by
  cases decision with
  | complete => cases identity <;> exact ⟨(by constructor <;> rfl), rfl⟩
  | _ => exact ⟨(by constructor <;> rfl), rfl⟩

omit shape in
/-- A cut of a client call empties one accumulator, or leaves the records. -/
theorem taskStep_custody {choice : TaskChoice} {task after : Task} {next : World}
    (stepped : world.taskStep choice task = some (next, after)) :
    (Exists fun key => next = world.abortKey key) ∨
      (SameCustody world next ∧ next.phase = world.phase) := by
  have emitted : forall {events : List Event}, acceptances events = [] ->
      resolutions events = [] -> SameCustody world (world.emit events) := by
    intro events noneAccepted noneResolved
    exact ⟨by simp [emit, noneAccepted], by simp [emit, noneResolved], rfl, rfl, rfl, rfl, rfl, rfl⟩
  cases task with
  | sweep previous swept remaining =>
    cases remaining with
    | nil =>
      cases stepped
      exact .inr ⟨.refl world, rfl⟩
    | cons key rest =>
      cases stepped
      exact .inl ⟨key, rfl⟩
  | flush purpose since flushing =>
    simp only [taskStep] at stepped
    cases result : world.flushStep choice flushing <;> simp only [result] at stepped <;>
      cases stepped
    · exact .inr ⟨.refl world, rfl⟩
    · exact .inr ⟨emitted rfl rfl, rfl⟩
    · exact .inr ⟨.refl world, rfl⟩
  | endTransaction committed =>
    simp only [taskStep, endTransactionStep] at stepped
    split_ifs at stepped <;> cases stepped <;>
      exact .inr ⟨(by constructor <;> rfl), rfl⟩
  | applyEndTxn committed previous decision identity =>
    right
    have written := world.applyEndTxnStep_same committed previous decision identity
    rw [taskStep, Option.some.injEq] at stepped
    rw [stepped] at written
    exact written
  | sendEndTxn committed previous =>
    simp only [taskStep] at stepped
    cases attempt : choice.attempt <;> simp only [attempt] at stepped <;> cases stepped <;>
      exact .inr ⟨emitted rfl rfl, rfl⟩
  | abortUndrained previous =>
    simp only [taskStep] at stepped
    split_ifs at stepped <;> cases stepped
    · exact .inr ⟨emitted rfl rfl, rfl⟩
    · exact .inr ⟨.refl world, rfl⟩
  | becomeReady committed =>
    cases stepped
    refine .inr ⟨⟨?_, ?_, rfl, rfl, rfl, rfl, rfl, rfl⟩, rfl⟩
    · simp [emit, acceptances]
    · simp [emit, resolutions]
  | done => cases stepped
  | _ =>
    simp only [taskStep] at stepped
    try split_ifs at stepped
    all_goals
      cases stepped
      exact .inr ⟨(by constructor <;> rfl), rfl⟩

end Client

/-! ## Runs -/

/-- The partition whose batch `act` gives back to its accumulator. -/
def returned (world : World) : Act -> Option TopicPartition
  | .sender _ => world.returning
  | _ => none

/-- Every act is a move of custody. -/
theorem step_refined {next : World} {act : Act} (shape : world.Shape)
    (distinct : Distinct world.drained) (stepped : world.step config act = some next) :
    RefinedBy (world.returned act) world next := by
  cases act with
  | sender choice => exact senderStep_refined shape distinct stepped
  | poll index encodes backoff =>
    exact onRequest_refined stepped (fun _ => pollRequest_refined shape)
  | brokerAppend index =>
    simp only [step] at stepped
    cases found : world.requests[index]? with
    | none => simp [found] at stepped
    | some request =>
      simp only [found, Option.ite_none_right_eq_some, Option.some.injEq] at stepped
      rw [← stepped.2]
      refine refined_same shape ⟨?_, ?_, rfl, rfl, rfl, rfl, rfl, rfl⟩ rfl
      · simp [emit, acceptances]
      · simp [emit, resolutions]
  | answer index answer leaderHint backoff =>
    simp only [step, Option.ite_none_left_eq_some] at stepped
    exact onRequest_refined stepped.2 (fun _ => answerRequest_refined shape)
  | lose index backoff =>
    exact onRequest_refined stepped
      (fun request found => setRequest_refined shape (.refl world) rfl found rfl)
  | accept index =>
    simp only [step, Option.ite_none_right_eq_some] at stepped
    exact onRequest_refined stepped.2
      (fun request found => setRequest_refined shape (.refl world) rfl found rfl)
  | complete picks =>
    simp only [step, Option.ite_none_right_eq_some] at stepped
    exact complete_refined shape distinct stepped.1 stepped.2
  | wake | shutdown =>
    simp only [step, Option.ite_none_right_eq_some, Option.some.injEq] at stepped
    rw [← stepped.2]
    exact wakeUp_refined shape stepped.1.1 (by constructor <;> rfl) rfl
  | timer =>
    simp only [step, Option.ite_none_right_eq_some, Option.some.injEq] at stepped
    rw [← stepped.2]
    exact wakeUp_refined shape stepped.1 (by constructor <;> rfl) rfl
  | metadata | tick =>
    cases stepped
    exact refined_same shape (by constructor <;> rfl) rfl
  | openAccumulator key =>
    cases stepped
    exact openAccumulator_refined shape key
  | sealFull key payload => exact sealFull_refined shape stepped
  | append key payload => exact append_refined shape stepped
  | registerFails error => exact registerFails_refined shape stepped
  | call call =>
    simp only [step] at stepped
    cases opened : world.openTask config call <;> simp only [opened] at stepped <;>
      cases stepped <;>
      exact refined_same shape (by constructor <;> rfl) rfl
  | task index choice =>
    obtain ⟨task, result, after, _, cut, rfl⟩ := advanceTask_cut stepped
    rcases taskStep_custody cut with ⟨key, rfl⟩ | ⟨same, phase⟩
    · exact abortKey_refined shape key _
    · exact refined_same shape { same with } phase

/-- What every world of a run keeps. -/
structure Invariant (world : World) : Prop where
  sound : world.ledger.Sound
  shape : world.Shape

theorem Invariant.distinct (invariant : world.Invariant) :
    Distinct world.drained :=
  invariant.sound.single

section

variable {config : Config} {world next : World} {act : Act} (invariant : world.Invariant)
  (stepped : world.step config act = some next)

include invariant stepped

theorem Invariant.refined :
    RefinedBy (world.returned act) world next :=
  step_refined invariant.shape invariant.distinct stepped

theorem Invariant.step :
    next.Invariant :=
  ⟨(invariant.refined stepped).move.sound invariant.sound, (invariant.refined stepped).shape⟩

end

theorem start_invariant (config : Config) : (start config).Invariant := by
  refine ⟨⟨?_, ?_, ?_, rfl⟩, ⟨?_, ?_, trivial⟩⟩
  · intro key records holds
    have noneHeld : records = [] :=
      Ledger.holds_of_idle (fun parcel member => absurd member (Multiset.notMem_zero parcel)) holds
    subst noneHeld
    exact ⟨List.Perm.refl _, List.Pairwise.nil⟩
  · intro record member
    cases member
  · exact Multiset.nodup_zero
  · intro key batch found
    simp [start] at found
  · intro request member
    cases member

/-- Every world that a new producer reaches keeps custody of its records. -/
theorem run_custody (ran : (start config).run config acts = some world) : world.Invariant :=
  run_keeps Invariant (fun _ _ _ => Invariant.step) (start_invariant config) ran

theorem run_induction (property : World -> Prop)
    (keeps : forall world act next, world.Invariant -> property world ->
      world.step config act = some next -> property next) (holds : property (start config))
    (ran : (start config).run config acts = some world) : property world := by
  have both : world.Invariant ∧ property world := by
    apply run_keeps (fun world => world.Invariant ∧ property world) ?_ ?_ ran
    · intro before act after known stepped
      exact ⟨known.1.step stepped, keeps before act after known.1 known.2 stepped⟩
    · exact ⟨start_invariant config, holds⟩
  exact both.2

theorem run_induction_along {allowed : World -> Act -> Prop} (property : World -> Prop)
    (keeps : forall world act next, world.Invariant -> property world -> allowed world act ->
      world.step config act = some next -> property next) (holds : property (start config))
    (along : Along (step config) allowed (start config) acts)
    (ran : (start config).run config acts = some world) : property world := by
  have both : world.Invariant ∧ property world := by
    apply run_invariant (fun world => world.Invariant ∧ property world) ?_ ?_ along ran
    · intro before act after known admitted stepped
      exact ⟨known.1.step stepped, keeps before act after known.1 known.2 admitted stepped⟩
    · exact ⟨start_invariant config, holds⟩
  exact both.2

end World

end Producer
end Krabka
