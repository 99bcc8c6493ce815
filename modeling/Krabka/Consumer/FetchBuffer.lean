import Krabka.Collections.SortedMap
import Krabka.Consumer.Position
import Mathlib.Algebra.Order.Ring.Int

namespace Krabka
namespace Consumer

open Collections List

universe u

/-!
# The fetch buffer

`FetchBuffer::drain` of `fetch_buffer.rs`: `poll` returns at most
`max_poll_records` fetched records and moves the consumed positions past them.
`ConsumerRecord.data` stands for the fields that the buffer does not read.

Every drain is compared with `deliver`, the records and positions of the whole
buffer.  A drain returns a part of the front of it and leaves a buffer that
delivers the rest (`Passes.deliver`).
-/

structure ConsumerRecord (Data : Type u) where
  key : TopicPartition
  offset : Int
  leaderEpoch : Int
  data : Data
deriving DecidableEq, Repr

/-- The fetched data of one partition that `poll` did not return yet. -/
structure BufferedPartition (Data : Type u) where
  key : TopicPartition
  /-- The consumed position that the data starts at. -/
  position : Int
  records : List (ConsumerRecord Data)
  /-- The position after all fetched batches. -/
  nextOffset : Int
  lastEpoch : Option Int
deriving DecidableEq, Repr

structure Consumed where
  offsets : SortedMap TopicPartition Int
  positions : SortedMap TopicPartition PartitionPosition

structure View where
  assigned : TopicPartition -> Bool
  paused : TopicPartition -> Bool

variable {Data : Type u}

/-! ## `drain` -/

/-- The inner loop: pop records while there is room. -/
structure Filled (Data : Type u) where
  out : List (ConsumerRecord Data)
  position : Int
  epoch : Option Int
  left : List (ConsumerRecord Data)

def fill (maxRecords : Nat) (out : List (ConsumerRecord Data)) (position : Int)
    (epoch : Option Int) : List (ConsumerRecord Data) -> Filled Data
  | [] => ⟨out, position, epoch, []⟩
  | record :: rest =>
    if out.length < maxRecords then
      fill maxRecords (out ++ [record]) (record.offset + 1) (some record.leaderEpoch) rest
    else ⟨out, position, epoch, record :: rest⟩

def Consumed.publish (consumed : Consumed) (key : TopicPartition) (position : Int)
    (complete : Bool) (epoch : Option Int) : Consumed where
  offsets :=
    if complete || epoch.isSome then consumed.offsets.insert key position else consumed.offsets
  positions :=
    match epoch with
    | some epoch =>
      consumed.positions.insert key
        { (consumed.positions.get? key).getD .default with offsetEpoch := epoch }
    | none => consumed.positions

structure Drained (Data : Type u) where
  records : List (ConsumerRecord Data)
  buffer : List (BufferedPartition Data)
  consumed : Consumed

def Consumed.stale (consumed : Consumed) (view : View) (partition : BufferedPartition Data) : Bool :=
  !view.assigned partition.key ||
    decide (consumed.offsets.get? partition.key ≠ some partition.position)

def drainLoop (maxRecords : Nat) (view : View) (out : List (ConsumerRecord Data))
    (pausedData : List (BufferedPartition Data)) (consumed : Consumed) :
    List (BufferedPartition Data) -> Drained Data
  | [] => ⟨out, pausedData, consumed⟩
  | partition :: rest =>
    if consumed.stale view partition then drainLoop maxRecords view out pausedData consumed rest
    else if view.paused partition.key then
      drainLoop maxRecords view out (pausedData ++ [partition]) consumed rest
    else
      let filled := fill maxRecords out partition.position none partition.records
      if filled.left.isEmpty then
        let published := consumed.publish partition.key partition.nextOffset true
          (partition.lastEpoch.or filled.epoch)
        if maxRecords ≤ filled.out.length then ⟨filled.out, rest ++ pausedData, published⟩
        else drainLoop maxRecords view filled.out pausedData published rest
      else
        ⟨filled.out,
          { partition with position := filled.position, records := filled.left } ::
            rest ++ pausedData,
          consumed.publish partition.key filled.position false filled.epoch⟩

def drain (maxRecords : Nat) (view : View) (buffer : List (BufferedPartition Data))
    (consumed : Consumed) : Drained Data :=
  drainLoop maxRecords view [] [] consumed buffer

/-- Successive drains with nothing in between. -/
def drains (view : View) :
    List Nat -> List (BufferedPartition Data) -> Consumed -> Drained Data
  | [], buffer, consumed => ⟨[], buffer, consumed⟩
  | maxRecords :: limits, buffer, consumed =>
    let first := drain maxRecords view buffer consumed
    let more := drains view limits first.buffer first.consumed
    ⟨first.records ++ more.records, more.buffer, more.consumed⟩

/-! ## The inner loop -/

def lastEpochOf (records : List (ConsumerRecord Data)) : Option Int :=
  records.getLast?.map ConsumerRecord.leaderEpoch

def positionAfter (position : Int) (records : List (ConsumerRecord Data)) : Int :=
  match records.getLast? with
  | some record => record.offset + 1
  | none => position

theorem fill_eq (maxRecords : Nat) (out : List (ConsumerRecord Data)) (position : Int)
    (epoch : Option Int) (records : List (ConsumerRecord Data)) :
    fill maxRecords out position epoch records = ⟨out ++ records.take (maxRecords - out.length),
        positionAfter position (records.take (maxRecords - out.length)),
        (lastEpochOf (records.take (maxRecords - out.length))).or epoch,
        records.drop (maxRecords - out.length)⟩ := by
  induction records generalizing out position epoch with
  | nil => simp [fill, positionAfter, lastEpochOf]
  | cons record rest ih =>
    rw [fill]
    split_ifs with room
    · rw [ih]
      have more : maxRecords - out.length = maxRecords - (out ++ [record]).length + 1 := by
        simp only [length_append, length_singleton]
        omega
      rw [more, take_succ_cons, drop_succ_cons]
      generalize rest.take (maxRecords - (out ++ [record]).length) = taken
      cases last : taken.getLast? <;>
        simp [positionAfter, lastEpochOf, getLast?_cons, last]
    · have none : maxRecords - out.length = 0 := by omega
      simp [none, positionAfter, lastEpochOf]

/-! ## What the outer loop does -/

/-- The positions after all data of the partition is returned. -/
def Consumed.finish (consumed : Consumed) (partition : BufferedPartition Data) : Consumed :=
  consumed.publish partition.key partition.nextOffset true
    (partition.lastEpoch.or (lastEpochOf partition.records))

/-- The partition after its records up to `left` were returned. -/
def BufferedPartition.rest (partition : BufferedPartition Data)
    (taken left : List (ConsumerRecord Data)) : BufferedPartition Data :=
  { partition with position := positionAfter partition.position taken, records := left }

/-- The pass of a drain over the buffer, one partition at a time. -/
inductive Passes (maxRecords : Nat) (view : View) : List (ConsumerRecord Data) ->
    List (BufferedPartition Data) -> Consumed -> List (BufferedPartition Data) ->
    Drained Data -> Prop where
  | done {out : List (ConsumerRecord Data)} {pausedData : List (BufferedPartition Data)}
      {consumed : Consumed} : Passes maxRecords view out pausedData consumed []
        ⟨out, pausedData, consumed⟩
  | drop {out : List (ConsumerRecord Data)} {pausedData rest : List (BufferedPartition Data)}
      {consumed : Consumed} {partition : BufferedPartition Data} {drained : Drained Data}
      (stale : consumed.stale view partition = true)
      (more : Passes maxRecords view out pausedData consumed rest drained) :
      Passes maxRecords view out pausedData consumed (partition :: rest) drained
  | keep {out : List (ConsumerRecord Data)} {pausedData rest : List (BufferedPartition Data)}
      {consumed : Consumed} {partition : BufferedPartition Data} {drained : Drained Data}
      (fresh : consumed.stale view partition = false) (paused : view.paused partition.key = true)
      (more : Passes maxRecords view out (pausedData ++ [partition]) consumed rest drained) :
      Passes maxRecords view out pausedData consumed (partition :: rest) drained
  | finish {out : List (ConsumerRecord Data)} {pausedData rest : List (BufferedPartition Data)}
      {consumed : Consumed} {partition : BufferedPartition Data} {drained : Drained Data}
      (fresh : consumed.stale view partition = false) (active : view.paused partition.key = false)
      (room : (out ++ partition.records).length < maxRecords)
      (more : Passes maxRecords view (out ++ partition.records) pausedData
        (consumed.finish partition) rest drained) :
      Passes maxRecords view out pausedData consumed (partition :: rest) drained
  | stop {out : List (ConsumerRecord Data)} {pausedData rest : List (BufferedPartition Data)}
      {consumed : Consumed} {partition : BufferedPartition Data}
      (fresh : consumed.stale view partition = false) (active : view.paused partition.key = false)
      (fits : partition.records.length ≤ maxRecords - out.length)
      (full : maxRecords ≤ (out ++ partition.records).length) :
      Passes maxRecords view out pausedData consumed (partition :: rest)
        ⟨out ++ partition.records, rest ++ pausedData, consumed.finish partition⟩
  | cut {out taken left : List (ConsumerRecord Data)}
      {pausedData rest : List (BufferedPartition Data)} {consumed : Consumed}
      {partition : BufferedPartition Data}
      (fresh : consumed.stale view partition = false) (active : view.paused partition.key = false)
      (parts : partition.records = taken ++ left) (more : left ≠ [])
      (fits : taken.length ≤ maxRecords - out.length) (full : maxRecords ≤ (out ++ taken).length) :
      Passes maxRecords view out pausedData consumed (partition :: rest)
        ⟨out ++ taken, partition.rest taken left :: rest ++ pausedData,
          consumed.publish partition.key (positionAfter partition.position taken) false
            (lastEpochOf taken)⟩

theorem drainLoop_passes (maxRecords : Nat) (view : View) (out : List (ConsumerRecord Data))
    (pausedData : List (BufferedPartition Data)) (consumed : Consumed)
    (buffer : List (BufferedPartition Data)) :
    Passes maxRecords view out pausedData consumed buffer
      (drainLoop maxRecords view out pausedData consumed buffer) := by
  induction buffer generalizing out pausedData consumed with
  | nil => exact .done
  | cons partition rest ih =>
    rw [drainLoop]
    cases stale : consumed.stale view partition with
    | true => exact .drop stale (ih out pausedData consumed)
    | false =>
      cases paused : view.paused partition.key with
      | true => exact .keep stale paused (ih out _ consumed)
      | false =>
        simp only [fill_eq, Option.or_none, Bool.false_eq_true, ↓reduceIte, List.isEmpty_iff]
        generalize isRoom : maxRecords - out.length = room
        split_ifs with complete full
        · have fits := List.drop_eq_nil_iff.mp complete
          rw [take_of_length_le fits] at full ⊢
          exact .stop stale paused (isRoom ▸ fits) full
        · have fits := List.drop_eq_nil_iff.mp complete
          rw [take_of_length_le fits] at full ⊢
          exact .finish stale paused (Nat.not_le.mp full) (ih _ _ _)
        · have long : room < partition.records.length :=
            Nat.not_le.mp fun fits => complete (List.drop_eq_nil_iff.mpr fits)
          refine .cut stale paused (List.take_append_drop room partition.records).symm complete
            ?_ ?_
          · rw [isRoom]
            exact length_take_le _ _
          · rw [length_append, length_take_of_le (Nat.le_of_lt long)]
            omega

/-! ## The whole delivery -/

/-- The records and the positions that the buffer holds for the application. -/
def deliver (view : View) (consumed : Consumed) :
    List (BufferedPartition Data) -> List (ConsumerRecord Data) × Consumed
  | [] => ([], consumed)
  | partition :: rest =>
    if consumed.stale view partition || view.paused partition.key then deliver view consumed rest
    else
      let more := deliver view (consumed.finish partition) rest
      (partition.records ++ more.1, more.2)

variable {maxRecords : Nat} {view : View} {consumed : Consumed}
  {out : List (ConsumerRecord Data)} {buffer pausedData : List (BufferedPartition Data)}
  {drained : Drained Data}

def Quiet (view : View) (buffer : List (BufferedPartition Data)) : Prop :=
  forall partition, partition ∈ buffer -> view.paused partition.key = true

section Deliver

variable {partition : BufferedPartition Data} {rest : List (BufferedPartition Data)}

theorem deliver_paused (paused : view.paused partition.key = true) :
    deliver view consumed (partition :: rest) = deliver view consumed rest := by
  rw [deliver, paused, Bool.or_true, if_pos rfl]

theorem deliver_fresh (fresh : consumed.stale view partition = false)
    (active : view.paused partition.key = false) :
    deliver view consumed (partition :: rest) =
      (partition.records ++ (deliver view (consumed.finish partition) rest).1,
        (deliver view (consumed.finish partition) rest).2) := by
  rw [deliver, fresh, active, Bool.or_self, if_neg Bool.false_ne_true]

theorem deliver_quiet (quiet : Quiet view buffer) :
    deliver view consumed buffer = ([], consumed) := by
  induction buffer with
  | nil => rfl
  | cons partition rest ih =>
    rw [deliver_paused (quiet partition mem_cons_self)]
    exact ih (fun other member => quiet other (.tail _ member))

theorem deliver_append_quiet (quiet : Quiet view pausedData) :
    deliver view consumed (buffer ++ pausedData) = deliver view consumed buffer := by
  induction buffer generalizing consumed with
  | nil => exact deliver_quiet quiet
  | cons partition rest ih =>
    rw [cons_append, deliver, deliver]
    simp only [ih]

end Deliver

variable {taken left : List (ConsumerRecord Data)} {partition : BufferedPartition Data}

/-- The position between two parts of the data is not seen at the end. -/
theorem finish_rest (parts : partition.records = taken ++ left) (more : left ≠ []) :
    (consumed.publish partition.key (positionAfter partition.position taken) false
      (lastEpochOf taken)).finish (partition.rest taken left) = consumed.finish partition := by
  have last : lastEpochOf partition.records = lastEpochOf left := by
    rw [parts, lastEpochOf, lastEpochOf, getLast?_append_of_ne_nil _ more]
  have isSome : Exists fun epoch => partition.lastEpoch.or (lastEpochOf left) = some epoch := by
    rw [lastEpochOf, getLast?_eq_some_getLast more]
    cases partition.lastEpoch with
    | none => exact ⟨_, rfl⟩
    | some epoch => exact ⟨epoch, rfl⟩
  rcases isSome with ⟨epoch, isEpoch⟩
  rw [Consumed.finish, Consumed.finish, last]
  show (Consumed.publish _ partition.key partition.nextOffset true
    (partition.lastEpoch.or (lastEpochOf left))) = _
  rw [isEpoch]
  cases lastEpochOf taken <;>
    simp [Consumed.publish, SortedMap.insert_insert, SortedMap.get?_insert_self]

theorem fresh_rest (fresh : consumed.stale view partition = false) :
    (consumed.publish partition.key (positionAfter partition.position taken) false
      (lastEpochOf taken)).stale view (partition.rest taken left) = false := by
  simp only [Consumed.stale, Bool.or_eq_false_iff, Bool.not_eq_false', decide_eq_false_iff_not,
    ne_eq, not_not] at fresh ⊢
  refine ⟨fresh.1, ?_⟩
  cases last : taken.getLast? with
  | none =>
    simp only [Consumed.publish, lastEpochOf, last, BufferedPartition.rest, positionAfter]
    exact fresh.2
  | some record =>
    simp [Consumed.publish, lastEpochOf, last, BufferedPartition.rest, positionAfter]

/-- A drain returns the front of the delivery and leaves a buffer that delivers
the rest. -/
theorem Passes.deliver (passes : Passes maxRecords view out pausedData consumed buffer drained)
    (quiet : Quiet view pausedData) :
    Exists fun returned => drained.records = out ++ returned ∧ (deliver view consumed buffer).1 =
        returned ++ (deliver view drained.consumed drained.buffer).1 ∧
      (deliver view consumed buffer).2 = (deliver view drained.consumed drained.buffer).2 := by
  induction passes with
  | done =>
    refine ⟨[], (append_nil _).symm, ?_, ?_⟩ <;> rw [deliver_quiet quiet] <;> rfl
  | drop stale more ih =>
    rw [Consumer.deliver, stale, Bool.true_or, if_pos rfl]
    exact ih quiet
  | keep fresh paused more ih =>
    rw [deliver_paused paused]
    refine ih fun other member => ?_
    rcases mem_append.mp member with old | isNew
    · exact quiet other old
    · rw [mem_singleton.mp isNew]
      exact paused
  | @finish out pausedData rest consumed partition drained fresh active room more ih =>
    rw [deliver_fresh fresh active]
    rcases ih quiet with ⟨returned, records, first, second⟩
    refine ⟨partition.records ++ returned, by rw [records, append_assoc], ?_, second⟩
    simp only [first, append_assoc]
  | stop fresh active fits full =>
    rw [deliver_fresh fresh active]
    exact ⟨_, rfl, by rw [deliver_append_quiet quiet], by rw [deliver_append_quiet quiet]⟩
  | @cut out taken left pausedData rest consumed partition fresh active parts more fits full =>
    have freshRest : (consumed.publish partition.key (positionAfter partition.position taken) false
        (lastEpochOf taken)).stale view (partition.rest taken left) = false := fresh_rest fresh
    have activeRest : view.paused (partition.rest taken left).key = false := active
    rw [deliver_fresh fresh active, cons_append, deliver_fresh freshRest activeRest,
      finish_rest parts more, deliver_append_quiet quiet, parts]
    exact ⟨taken, rfl, append_assoc _ _ _, rfl⟩

/-! ## The limit -/

section

variable (passes : Passes maxRecords view out pausedData consumed buffer drained)

include passes

theorem Passes.length_le (within : out.length ≤ maxRecords) :
    drained.records.length ≤ maxRecords := by
  induction passes with
  | done => exact within
  | drop stale more ih | keep fresh paused more ih =>
    exact ih within
  | finish fresh active room more ih => exact ih room.le
  | stop | cut =>
    rw [length_append]
    omega

/-- A drain that ends below its limit looked at the whole buffer. -/
theorem Passes.quiet (quiet : Quiet view pausedData) (below : drained.records.length < maxRecords) :
    Quiet view drained.buffer := by
  induction passes with
  | done => exact quiet
  | drop stale more ih | finish fresh active room more ih =>
    exact ih quiet below
  | keep fresh paused more ih =>
    refine ih (fun other member => ?_) below
    rcases mem_append.mp member with old | isNew
    · exact quiet other old
    · rw [mem_singleton.mp isNew]
      exact paused
  | stop fresh active fits full | cut fresh active parts more fits full =>
    exact absurd below (Nat.not_lt.mpr full)

/-- Nothing happens to paused data. -/
theorem Passes.of_quiet (quiet : Quiet view buffer) (quietData : Quiet view pausedData) :
    drained.records = out ∧ drained.consumed = consumed ∧ Quiet view drained.buffer := by
  induction passes with
  | done => exact ⟨rfl, rfl, quietData⟩
  | drop stale more ih =>
    exact ih (fun other member => quiet other (.tail _ member)) quietData
  | keep fresh paused more ih =>
    refine ih (fun other member => quiet other (.tail _ member)) ?_
    intro other member
    rcases mem_append.mp member with old | isNew
    · exact quietData other old
    · rw [mem_singleton.mp isNew]
      exact paused
  | finish fresh active room more ih | stop fresh active fits full
  | cut fresh active parts more fits full =>
    rw [quiet _ mem_cons_self] at active
    cases active

end

/-! ## Successive drains -/

theorem quiet_nil : Quiet view ([] : List (BufferedPartition Data)) :=
  nofun

theorem drain_passes (maxRecords : Nat) (view : View) (buffer : List (BufferedPartition Data))
    (consumed : Consumed) :
    Passes maxRecords view [] [] consumed buffer (drain maxRecords view buffer consumed) :=
  drainLoop_passes maxRecords view [] [] consumed buffer

theorem drains_quiet (limits : List Nat) (consumed : Consumed) (quiet : Quiet view buffer) :
    (drains view limits buffer consumed).records = [] ∧
      (drains view limits buffer consumed).consumed = consumed := by
  induction limits generalizing buffer with
  | nil => exact ⟨rfl, rfl⟩
  | cons maxRecords limits ih =>
    rcases (drain_passes maxRecords view buffer consumed).of_quiet quiet quiet_nil with
      ⟨records, same, stillQuiet⟩
    have later := ih stillQuiet
    simp only [drains, records, same]
    exact ⟨later.1, later.2⟩

/-- Drains whose limits add up to more than the delivery make it. -/
theorem drains_deliver {limits : List Nat}
    (enough : (deliver view consumed buffer).1.length < limits.sum) :
    (drains view limits buffer consumed).records = (deliver view consumed buffer).1 ∧
      (drains view limits buffer consumed).consumed = (deliver view consumed buffer).2 := by
  induction limits generalizing buffer consumed with
  | nil => exact absurd enough (Nat.not_lt_zero _)
  | cons maxRecords limits ih =>
    have passes := drain_passes maxRecords view buffer consumed
    rcases passes.deliver quiet_nil with ⟨returned, records, first, second⟩
    rw [nil_append] at records
    rcases Nat.lt_or_eq_of_le (passes.length_le (Nat.zero_le _)) with below | full
    · have quiet := passes.quiet quiet_nil below
      have later := drains_quiet limits (drain maxRecords view buffer consumed).consumed quiet
      rw [deliver_quiet quiet] at first second
      simp only [drains, later, first, second, records]
      exact ⟨trivial, trivial⟩
    · have fewer : (deliver view (drain maxRecords view buffer consumed).consumed
          (drain maxRecords view buffer consumed).buffer).1.length < limits.sum := by
        rw [first, length_append, ← records, full, sum_cons] at enough
        omega
      have later := ih fewer
      simp only [drains, later, first, second, records]
      exact ⟨trivial, trivial⟩

end Consumer
end Krabka
