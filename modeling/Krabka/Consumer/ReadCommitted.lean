import Krabka.Consumer.Delivery
import Krabka.Consumer.FetchedRecords

namespace Krabka
namespace Consumer

open Collections List Option

/-!
# Read-committed filtering

What `process_partition_records` gives the application is compared with the log
of the partition.  A transaction of a producer is open from its first batch to
its next control batch, and that batch says how it ended.  The client does not
read the control record, so the theorems hold for every way `commits` to read
it.  A fetch returns a segment of the log, which may start inside a transaction
or end before its marker.
-/

variable {commits : RecordBatch -> Bool} {earlier batches later done rest : List RecordBatch}
  {floor : Int} {batch : RecordBatch} {pid first : Int}

/-! ## Transactions of a log -/

/-- The batch ends a transaction of the producer. -/
def RecordBatch.marks (pid : Int) (batch : RecordBatch) : Bool :=
  batch.isControlBatch && decide (batch.producerId = pid)

def RecordBatch.writes (pid : Int) (batch : RecordBatch) : Bool :=
  !batch.isControlBatch && batch.isTransactional && decide (batch.producerId = pid)

/-- The first offset of the transaction that the producer has open after the
log. -/
def openTransaction (pid : Int) (log : List RecordBatch) : Option Int :=
  log.foldl (fun opened batch =>
    if batch.marks pid then none
    else if batch.writes pid then opened.or (some batch.baseOffset)
    else opened) none

/-- The control batch that ends the open transaction. -/
def nextMarker (pid : Int) (log : List RecordBatch) : Option RecordBatch :=
  log.find? (RecordBatch.marks pid)

def Aborted (commits : RecordBatch -> Bool) (log : List RecordBatch) (first pid : Int)
    (marker : RecordBatch) : Prop :=
  Exists fun before => Exists fun after => log = before ++ after ∧
    openTransaction pid before = some first ∧ nextMarker pid after = some marker ∧
      commits marker = false

def Readable (commits : RecordBatch -> Bool) (batch : RecordBatch) (after : List RecordBatch) :
    Prop :=
  batch.isControlBatch = false ∧ (batch.isTransactional = true -> Exists fun marker =>
    nextMarker batch.producerId after = some marker ∧ commits marker = true)

structure RecordBatch.WellFormed (batch : RecordBatch) : Prop where
  nonnegative : 0 ≤ batch.lastOffsetDelta
  ordered : batch.records.Pairwise (fun left right => left.offsetDelta < right.offsetDelta)
  inside : forall record, record ∈ batch.records ->
    0 ≤ record.offsetDelta ∧ record.offsetDelta ≤ batch.lastOffsetDelta

structure Fetched (commits : RecordBatch -> Bool) (earlier batches later : List RecordBatch)
    (floor : Int) (aborted : List AbortedTransaction) : Prop where
  ordered : (earlier ++ batches ++ later).Pairwise
    (fun left right => left.lastOffset < right.baseOffset)
  each : forall batch, batch ∈ earlier ++ batches ++ later -> batch.WellFormed
  below : forall batch, batch ∈ earlier -> batch.lastOffset < floor
  ended : forall before batch after, batches = before ++ batch :: after ->
    batch.isControlBatch = false -> batch.isTransactional = true ->
    (nextMarker batch.producerId (after ++ later)).isSome = true
  /-- Every aborted transaction that overlaps the fetched range is listed. -/
  complete : forall first pid marker,
    Aborted commits (earlier ++ batches ++ later) first pid marker ->
    floor ≤ marker.lastOffset -> (Exists fun batch => batch ∈ batches ∧ first ≤ batch.lastOffset) ->
    ⟨first, pid⟩ ∈ aborted
  /-- A listed transaction was aborted, and not before the range. -/
  sound : forall first pid, ⟨first, pid⟩ ∈ aborted -> Exists fun marker =>
    Aborted commits (earlier ++ batches ++ later) first pid marker ∧ marker ∈ batches ++ later

/-! ## Order in a log -/

section Order

variable {log seen : List RecordBatch} {other : RecordBatch}

def Increasing (log : List RecordBatch) : Prop :=
  log.Pairwise (fun left right => left.baseOffset < right.baseOffset)

theorem Fetched.increasing {aborted : List AbortedTransaction}
    (fetched : Fetched commits earlier batches later floor aborted) :
    Increasing (earlier ++ batches ++ later) := by
  refine fetched.ordered.imp_of_mem fun {left right} inLeft inRight before => ?_
  have nonnegative := (fetched.each left inLeft).nonnegative
  simp only [RecordBatch.lastOffset] at before
  omega

/-- Offsets tell where a batch of the log is. -/
theorem Increasing.mem_cases (increasing : Increasing (seen ++ batch :: rest))
    (member : other ∈ seen ++ batch :: rest) :
    other ∈ seen ∧ other.baseOffset < batch.baseOffset ∨ other = batch ∨
      other ∈ rest ∧ batch.baseOffset < other.baseOffset := by
  rcases pairwise_append.mp increasing with ⟨_, second, across⟩
  rcases mem_append.mp member with inSeen | inSecond
  · exact .inl ⟨inSeen, across other inSeen batch (.head _)⟩
  · rcases mem_cons.mp inSecond with isBatch | inRest
    · exact .inr (.inl isBatch)
    · exact .inr (.inr ⟨inRest, (pairwise_cons.mp second).1 other inRest⟩)

theorem openTransaction_split (isOpen : openTransaction pid log = some first) :
    Exists fun before => Exists fun opening => Exists fun inner =>
      log = before ++ opening :: inner ∧ opening.baseOffset = first ∧
        opening.marks pid = false ∧ forall batch, batch ∈ inner -> batch.marks pid = false := by
  induction log using List.reverseRecOn with
  | nil => cases isOpen
  | append_singleton log batch ih =>
    rw [openTransaction, foldl_append] at isOpen
    change (if batch.marks pid then none else if batch.writes pid then
      (openTransaction pid log).or (some batch.baseOffset) else openTransaction pid log) =
        some first at isOpen
    have longer (old : openTransaction pid log = some first) (unmarked : batch.marks pid = false) :
        Exists fun before => Exists fun opening => Exists fun inner =>
          log ++ [batch] = before ++ opening :: inner ∧ opening.baseOffset = first ∧
            opening.marks pid = false ∧ forall batch, batch ∈ inner -> batch.marks pid = false := by
      rcases ih old with
        ⟨before, opening, inner, isLog, isFirst, isData, none⟩
      refine ⟨before, opening, inner ++ [batch], by simp [isLog], isFirst, isData, ?_⟩
      intro other member
      rcases mem_append.mp member with inInner | isLast
      · exact none other inInner
      · rw [mem_singleton.mp isLast]
        exact unmarked
    split_ifs at isOpen with marked writes
    · cases old : openTransaction pid log with
      | none =>
        rw [old, none_or, some.injEq] at isOpen
        exact ⟨log, batch, [], rfl, isOpen, Bool.not_eq_true _ ▸ marked,
          nofun⟩
      | some begun =>
        rw [old, some_or] at isOpen
        exact longer (old.trans isOpen) (Bool.not_eq_true _ ▸ marked)
    · exact longer isOpen (Bool.not_eq_true _ ▸ marked)

variable {marker : RecordBatch}

theorem nextMarker_split (isNext : nextMarker pid log = some marker) :
    marker.marks pid = true ∧ Exists fun before => Exists fun after =>
      log = before ++ marker :: after ∧ forall batch, batch ∈ before -> batch.marks pid = false := by
  rcases find?_eq_some_iff_append.mp isNext with ⟨marked, before, after, isLog, none⟩
  exact ⟨marked, before, after, isLog, fun batch member => by simpa using none batch member⟩

theorem Aborted.nextMarker_eq (aborted : Aborted commits (seen ++ batch :: rest) first pid marker)
    (increasing : Increasing (seen ++ batch :: rest)) (isData : batch.marks pid = false)
    (early : first ≤ batch.baseOffset) (notSeen : marker ∉ seen) :
    nextMarker pid rest = some marker := by
  rcases aborted with ⟨before, after, parts, isOpen, isNext, _⟩
  rcases openTransaction_split isOpen with
    ⟨front, opening, inner, isBefore, isFirst, _, noneInner⟩
  rcases nextMarker_split isNext with ⟨marked, gap, tail, isAfter, noneGap⟩
  have inRest : marker ∈ rest := by
    have member : marker ∈ seen ++ batch :: rest := by simp [parts, isAfter]
    rcases increasing.mem_cases member with ⟨inSeen, _⟩ | isBatch | ⟨inRest, _⟩
    · exact absurd inSeen notSeen
    · rw [isBatch, isData] at marked
      cases marked
    · exact inRest
  cases found : nextMarker pid rest with
  | none => exact absurd marked (find?_eq_none.mp found marker inRest)
  | some other =>
    rcases nextMarker_split found with ⟨otherMarked, near, far, isRest, noneNear⟩
    have otherMember : other ∈ rest := by simp [isRest]
    have behind : batch.baseOffset < other.baseOffset := 
      (pairwise_cons.mp (pairwise_append.mp increasing).2.1).1 other otherMember
    have atMarker : seen ++ batch :: rest =
        (front ++ opening :: (inner ++ gap)) ++ marker :: tail := by simp [parts, isBefore, isAfter]
    have inLog : other ∈ (front ++ opening :: (inner ++ gap)) ++ marker :: tail := by
      rw [← atMarker]
      simp [otherMember]
    -- No control batch of the producer is between the first batch and the marker.
    rcases (atMarker ▸ increasing).mem_cases inLog with ⟨before, _⟩ | isMarker | ⟨_, past⟩
    · have fromOpening := (pairwise_append.mp (atMarker ▸ increasing)).1
      rcases Increasing.mem_cases fromOpening before with ⟨_, less⟩ | isOpening | ⟨inside, _⟩
      · omega
      · rw [isOpening] at behind
        omega
      · rcases mem_append.mp inside with inInner | inGap
        · exact absurd otherMarked (Bool.eq_false_iff.mp (noneInner other inInner))
        · exact absurd otherMarked (Bool.eq_false_iff.mp (noneGap other inGap))
    · rw [isMarker]
    · have inOrder : Increasing (near ++ other :: far) :=
        isRest ▸ (pairwise_cons.mp (pairwise_append.mp increasing).2.1).2
      rcases inOrder.mem_cases (isRest ▸ inRest) with ⟨inNear, _⟩ | isOther | ⟨_, less⟩
      · exact absurd marked (Bool.eq_false_iff.mp (noneNear marker inNear))
      · rw [isOther]
      · omega

/-- An open transaction starts behind every control batch of its producer. -/
theorem openTransaction_first (isOpen : openTransaction pid log = some first)
    (increasing : Increasing log) :
    (forall other, other ∈ log -> other.marks pid = true -> other.baseOffset < first) ∧
      Exists fun opening => opening ∈ log ∧ opening.baseOffset = first := by
  rcases openTransaction_split isOpen with ⟨front, opening, inner, isLog, isFirst, isData, none⟩
  refine ⟨fun other member marked => ?_, opening, by simp [isLog], isFirst⟩
  rcases (isLog ▸ increasing).mem_cases (isLog ▸ member) with ⟨_, less⟩ | isOpening | ⟨inInner, _⟩
  · exact isFirst ▸ less
  · rw [isOpening, isData] at marked
    cases marked
  · exact absurd marked (Bool.eq_false_iff.mp (none other inInner))

theorem Aborted.first_lt (aborted : Aborted commits log first pid marker)
    (increasing : Increasing log) : marker.marks pid = true ∧ first < marker.baseOffset := by
  rcases aborted with ⟨before, after, isLog, isOpen, isNext, _⟩
  rcases pairwise_append.mp (isLog ▸ increasing) with ⟨inOrder, _, across⟩
  rcases openTransaction_first isOpen inOrder with ⟨_, opening, inBefore, isFirst⟩
  have inAfter := mem_of_find?_eq_some isNext
  exact ⟨find?_some isNext, isFirst ▸ across opening inBefore marker inAfter⟩

end Order

/-! ## The filter -/

/-- What the filter knows after the batches `done`: the transactions that start
later, and the producers with an aborted transaction whose marker was not seen. -/
structure Scanned (all : List (Int × Int)) (done : List RecordBatch) (filter : AbortFilter) :
    Prop where
  sorted : filter.aborted.Pairwise (fun left right => left.1 ≤ right.1)
  waiting : forall first pid, (first, pid) ∈ filter.aborted <->
    (first, pid) ∈ all ∧ forall batch, batch ∈ done -> batch.baseOffset < first
  active : forall pid, pid ∈ filter.abortedPids <-> Exists fun first => (first, pid) ∈ all ∧
    (Exists fun batch => batch ∈ done ∧ first ≤ batch.baseOffset) ∧
      forall batch, batch ∈ done -> batch.marks pid = true -> batch.baseOffset < first

/-- The producer has a listed transaction at the batch whose marker was not
seen. -/
def ActiveAt (all : List (Int × Int)) (done : List RecordBatch) (baseOffset pid : Int) : Prop :=
  Exists fun first => (first, pid) ∈ all ∧ first ≤ baseOffset ∧
    forall batch, batch ∈ done -> batch.marks pid = true -> batch.baseOffset < first

section Filter

variable {all queue : List (Int × Int)} {baseOffset : Int}
  {filter : AbortFilter}

theorem start_spec (baseOffset : Int) (pids : Finset Int)
    (sorted : queue.Pairwise (fun left right => left.1 ≤ right.1)) :
    (AbortFilter.start baseOffset queue pids).aborted.Pairwise
        (fun left right => left.1 ≤ right.1) ∧
      (forall first pid, (first, pid) ∈ (AbortFilter.start baseOffset queue pids).aborted <->
        (first, pid) ∈ queue ∧ baseOffset < first) ∧
      forall pid, pid ∈ (AbortFilter.start baseOffset queue pids).abortedPids <->
        pid ∈ pids ∨ Exists fun first => (first, pid) ∈ queue ∧ first ≤ baseOffset := by
  induction queue generalizing pids with
  | nil => simp [AbortFilter.start]
  | cons head queue ih =>
    rcases head with ⟨headFirst, headPid⟩
    rcases pairwise_cons.mp sorted with ⟨least, sortedRest⟩
    rw [AbortFilter.start]
    split_ifs with started
    · have begun : headFirst ≤ baseOffset := of_decide_eq_true started
      rcases ih (insert headPid pids) sortedRest with
        ⟨stillSorted, waiting, active⟩
      refine ⟨stillSorted, fun first pid => ?_, fun pid => ?_⟩
      · rw [waiting, mem_cons, Prod.mk.injEq]
        constructor
        · exact fun known => ⟨.inr known.1, known.2⟩
        · rintro ⟨isHead | inQueue, late⟩
          · omega
          · exact ⟨inQueue, late⟩
      · rw [active, Finset.mem_insert]
        constructor
        · rintro ((isHead | old) | ⟨first, inQueue, early⟩)
          · exact .inr ⟨headFirst, isHead ▸ (.head _), begun⟩
          · exact .inl old
          · exact .inr ⟨first, .tail _ inQueue, early⟩
        · rintro (old | ⟨first, inQueue, early⟩)
          · exact .inl (.inr old)
          · rcases mem_cons.mp inQueue with isHead | inRest
            · exact .inl (.inl (congrArg Prod.snd isHead))
            · exact .inr ⟨first, inRest, early⟩
    · have late : baseOffset < headFirst := by
        simpa [abortedTxnStarted] using started
      have allLate : forall first pid, (first, pid) ∈ (headFirst, headPid) :: queue ->
          baseOffset < first := by
        intro first pid member
        rcases mem_cons.mp member with isHead | inRest
        · rw [(Prod.mk.inj isHead).1]
          exact late
        · exact lt_of_lt_of_le late (least _ inRest)
      refine ⟨sorted, fun first pid => ?_, fun pid => ?_⟩
      · exact ⟨fun member => ⟨member, allLate first pid member⟩, fun known => known.1⟩
      · refine ⟨.inl, ?_⟩
        rintro (old | ⟨first, inQueue, early⟩)
        · exact old
        · exact absurd early (not_le.mpr (allLate first pid inQueue))

/-- The filter after it moved to the batch. -/
theorem Scanned.start (scanned : Scanned all done filter)
    (before : forall other, other ∈ done -> other.baseOffset < baseOffset) :
    (AbortFilter.start baseOffset filter.aborted filter.abortedPids).aborted.Pairwise
        (fun left right => left.1 ≤ right.1) ∧
      (forall first pid,
        (first, pid) ∈ (AbortFilter.start baseOffset filter.aborted filter.abortedPids).aborted <->
          (first, pid) ∈ all ∧ baseOffset < first) ∧
      forall pid,
        pid ∈ (AbortFilter.start baseOffset filter.aborted filter.abortedPids).abortedPids <->
          ActiveAt all done baseOffset pid := by
  rcases start_spec baseOffset filter.abortedPids scanned.sorted with
    ⟨sorted, waiting, active⟩
  refine ⟨sorted, fun first pid => ?_, fun pid => ?_⟩
  · rw [waiting, scanned.waiting]
    constructor
    · exact fun known => ⟨known.1.1, known.2⟩
    · exact fun known => ⟨⟨known.1, fun other member =>
        lt_trans (before other member) known.2⟩, known.2⟩
  · rw [active, scanned.active]
    constructor
    · rintro (⟨first, listed, ⟨other, member, early⟩, unmarked⟩ | ⟨first, inQueue, early⟩)
      · exact ⟨first, listed, le_trans early (le_of_lt (before other member)), unmarked⟩
      · rcases (scanned.waiting first pid).mp inQueue with ⟨listed, later⟩
        exact ⟨first, listed, early, fun other member _ => later other member⟩
    · rintro ⟨first, listed, early, unmarked⟩
      by_cases begun : Exists fun other => other ∈ done ∧ first ≤ other.baseOffset
      · exact .inl ⟨first, listed, begun, unmarked⟩
      · refine .inr ⟨first, (scanned.waiting first pid).mpr ⟨listed, fun other member => ?_⟩, early⟩
        exact not_le.mp fun already => begun ⟨other, member, already⟩

theorem Scanned.step (scanned : Scanned all done filter)
    (before : forall other, other ∈ done -> other.baseOffset < batch.baseOffset) :
    Scanned all (done ++ [batch])
      { AbortFilter.start batch.baseOffset filter.aborted filter.abortedPids with
        abortedPids := if batch.isControlBatch then
            (AbortFilter.start batch.baseOffset filter.aborted
              filter.abortedPids).abortedPids.erase batch.producerId
          else (AbortFilter.start batch.baseOffset filter.aborted
            filter.abortedPids).abortedPids } := by
  rcases scanned.start before with ⟨sorted, waiting, active⟩
  have begun (first : Int) : (Exists fun other => other ∈ done ++ [batch] ∧
      first ≤ other.baseOffset) <-> first ≤ batch.baseOffset := by
    constructor
    · rintro ⟨other, member, early⟩
      rcases mem_append.mp member with inDone | isLast
      · exact le_trans early (le_of_lt (before other inDone))
      · exact mem_singleton.mp isLast ▸ early
    · exact fun early => ⟨batch, by simp, early⟩
  refine ⟨sorted, fun first pid => ?_, fun pid => ?_⟩
  · rw [waiting]
    refine and_congr_right fun _ => ⟨fun late other member => ?_, fun all => all batch (by simp)⟩
    rcases mem_append.mp member with inDone | isLast
    · exact lt_trans (before other inDone) late
    · exact mem_singleton.mp isLast ▸ late
  · have unmarked : ActiveAt all done batch.baseOffset pid ∧ batch.marks pid = false <->
        Exists fun first => (first, pid) ∈ all ∧
          (Exists fun other => other ∈ done ++ [batch] ∧ first ≤ other.baseOffset) ∧
            forall other, other ∈ done ++ [batch] -> other.marks pid = true ->
              other.baseOffset < first := by
      constructor
      · rintro ⟨⟨first, listed, early, none⟩, notMarker⟩
        refine ⟨first, listed, (begun first).mpr early, fun other member marked => ?_⟩
        rcases mem_append.mp member with inDone | isLast
        · exact none other inDone marked
        · rw [mem_singleton.mp isLast, notMarker] at marked
          cases marked
      · rintro ⟨first, listed, early, none⟩
        have isEarly := (begun first).mp early
        refine ⟨⟨first, listed, isEarly, fun other member => none other
          (mem_append_left _ member)⟩, ?_⟩
        refine Bool.eq_false_iff.mpr fun marked => ?_
        exact absurd isEarly (not_le.mpr (none batch (by simp) marked))
    rw [← unmarked, ← active, RecordBatch.marks]
    cases batch.isControlBatch with
    | true => simp [and_comm, eq_comm]
    | false => simp

end Filter

/-! ## The filter and the log -/

section Log

variable {aborted : List AbortedTransaction} {topicPartition : TopicPartition}

theorem Fetched.active_iff
    (fetched : Fetched commits earlier (done ++ batch :: rest) later floor aborted)
    (isData : batch.isControlBatch = false) (isTransactional : batch.isTransactional = true)
    (above : floor ≤ batch.lastOffset) :
    ActiveAt (sortAborted aborted) done batch.baseOffset batch.producerId <->
      ¬ Readable commits batch (rest ++ later) := by
  have isLog : earlier ++ (done ++ batch :: rest) ++ later =
      (earlier ++ done) ++ batch :: (rest ++ later) := by simp
  have increasing := fetched.increasing
  rw [isLog] at increasing
  have unmarked : batch.marks batch.producerId = false := by simp [RecordBatch.marks, isData]
  constructor
  · -- A listed transaction whose marker was not seen ends behind the batch.
    rintro ⟨first, listed, early, none⟩ readable
    rcases fetched.sound first batch.producerId (mem_sortAborted.mp listed) with
      ⟨marker, isAborted, notEarlier⟩
    rw [isLog] at isAborted
    rcases isAborted.first_lt increasing with ⟨marked, after⟩
    have notSeen : marker ∉ earlier ++ done := by
      intro inSeen
      rcases mem_append.mp inSeen with inEarlier | inDone
      · have ordered := fetched.increasing
        rw [append_assoc] at ordered
        exact absurd ((pairwise_append.mp ordered).2.2 marker inEarlier marker notEarlier)
          (lt_irrefl _)
      · exact absurd (none marker inDone marked) (not_lt.mpr (le_of_lt after))
    have isNext := isAborted.nextMarker_eq increasing unmarked early notSeen
    rcases readable.2 isTransactional with ⟨other, isOther, isCommit⟩
    rcases isAborted with ⟨_, _, _, _, _, isAbort⟩
    rw [isNext, some.injEq] at isOther
    rw [← isOther, isAbort] at isCommit
    cases isCommit
  · intro unreadable
    rcases isSome_iff_exists.mp (fetched.ended done batch rest rfl isData isTransactional) with
      ⟨marker, isNext⟩
    have isAbort : commits marker = false := by
      refine Bool.eq_false_iff.mpr fun isCommit => unreadable ⟨isData, fun _ => ?_⟩
      exact ⟨marker, isNext, isCommit⟩
    have isOpen : Exists fun first =>
        openTransaction batch.producerId (earlier ++ done ++ [batch]) = some first := by
      rw [openTransaction, foldl_append, foldl_cons, foldl_nil, unmarked]
      have writes : batch.writes batch.producerId = true := by
        simp [RecordBatch.writes, isData, isTransactional]
      rw [writes]
      generalize List.foldl _ _ _ = opened
      cases opened with
      | none | some => exact ⟨_, rfl⟩
    rcases isOpen with ⟨first, isOpen⟩
    have isAborted : Aborted commits (earlier ++ (done ++ batch :: rest) ++ later) first
        batch.producerId marker :=
      ⟨earlier ++ done ++ [batch], rest ++ later, by simp, isOpen, isNext, isAbort⟩
    have upTo : Increasing (earlier ++ done ++ [batch]) := by
      have parts : earlier ++ done ++ batch :: (rest ++ later) =
          (earlier ++ done ++ [batch]) ++ (rest ++ later) := by simp
      rw [parts] at increasing
      exact (pairwise_append.mp increasing).1
    rcases openTransaction_first isOpen upTo with ⟨none, opening, member, isFirst⟩
    have early : first ≤ batch.baseOffset := by
      rcases upTo.mem_cases member with ⟨_, less⟩ | isBatch | ⟨inNil, _⟩
      · omega
      · rw [isBatch] at isFirst
        omega
      · cases inNil
    have last := (fetched.each batch (by simp)).nonnegative
    have markerAbove : floor ≤ marker.lastOffset := by
      have ordered := fetched.ordered
      rw [isLog] at ordered
      have isBehind := (pairwise_cons.mp (pairwise_append.mp ordered).2.1).1 marker
        (mem_of_find?_eq_some isNext)
      have inLog : marker ∈ earlier ++ (done ++ batch :: rest) ++ later := by
        simp [mem_of_find?_eq_some isNext]
      have nonnegative := (fetched.each marker inLog).nonnegative
      simp only [RecordBatch.lastOffset] at isBehind above ⊢
      omega
    refine ⟨first, mem_sortAborted.mpr (fetched.complete first batch.producerId marker isAborted
      markerAbove ⟨batch, by simp, ?_⟩), early, fun other inDone => none other (by simp [inDone])⟩
    rw [RecordBatch.lastOffset]
    omega

/-- The records of the segment that a read-committed consumer sees. -/
def Visible (commits : RecordBatch -> Bool) (batches later : List RecordBatch) (floor : Int)
    (topicPartition : TopicPartition) (output : ConsumerRecord RecordData) : Prop :=
  Exists fun before => Exists fun batch => Exists fun after => Exists fun record =>
    batches = before ++ batch :: after ∧ Readable commits batch (after ++ later) ∧
      record ∈ batch.records ∧ output = consumerRecord topicPartition batch record ∧
        floor ≤ output.offset

theorem visible_cons {output : ConsumerRecord RecordData} :
    Visible commits (batch :: rest) later floor topicPartition output <->
      Readable commits batch (rest ++ later) ∧ output ∈ batchRecords floor topicPartition batch ∨
        Visible commits rest later floor topicPartition output := by
  simp only [Visible, batchRecords_mem]
  constructor
  · rintro ⟨before, found, after, record, parts, readable, known⟩
    cases before with
    | nil =>
      cases parts
      exact .inl ⟨readable, record, known⟩
    | cons head before =>
      cases parts
      exact .inr ⟨before, found, after, record, rfl, readable, known⟩
  · rintro (⟨readable, record, known⟩ | ⟨before, found, after, record, parts, readable, known⟩)
    · exact ⟨[], batch, rest, record, rfl, readable, known⟩
    · exact ⟨batch :: before, found, after, record, by rw [parts]; rfl, readable, known⟩

theorem batchRecords_below (wellFormed : batch.WellFormed) (below : batch.lastOffset < floor) :
    batchRecords floor topicPartition batch = [] := by
  refine eq_nil_iff_forall_not_mem.mpr fun output member => ?_
  rcases batchRecords_mem.mp member with ⟨record, inside, same, above⟩
  have bound := (wellFormed.inside record inside).2
  rw [same] at above
  simp only [consumerRecord, recordOffset, RecordBatch.lastOffset] at above below
  omega

variable {filter : AbortFilter}

/-- The loop over the batches pushes the visible records. -/
theorem Fetched.processBatches_mem
    (fetched : Fetched commits earlier (done ++ rest) later floor aborted)
    (scanned : Scanned (sortAborted aborted) done filter) (output : ConsumerRecord RecordData) :
    output ∈ processBatches true floor topicPartition filter rest <->
      Visible commits rest later floor topicPartition output := by
  induction rest generalizing done filter with
  | nil => simp [processBatches, Visible]
  | cons batch rest ih =>
    have isLog : earlier ++ (done ++ batch :: rest) ++ later =
        (earlier ++ done) ++ batch :: (rest ++ later) := by simp
    have before : forall other, other ∈ done -> other.baseOffset < batch.baseOffset := by
      have increasing := fetched.increasing
      rw [isLog] at increasing
      exact fun other member => (pairwise_append.mp increasing).2.2 other (by simp [member])
        batch (.head _)
    have wellFormed := fetched.each batch (by simp)
    have next := scanned.step before
    have active := (scanned.start before).2.2 batch.producerId
    have parts : done ++ batch :: rest = done ++ [batch] ++ rest := by simp
    rw [visible_cons, processBatches]
    simp only [if_true]
    cases isControl : batch.isControlBatch with
    | true =>
      rw [isControl, if_pos rfl] at next
      have unreadable : ¬ Readable commits batch (rest ++ later) :=
        fun readable => absurd isControl (Bool.eq_false_iff.mp readable.1)
      rw [if_pos rfl, ih (parts ▸ fetched) next]
      exact ⟨.inr, fun either => either.resolve_left fun known => unreadable known.1⟩
    | false =>
      rw [isControl, if_neg Bool.false_ne_true] at next
      have continued := ih (parts ▸ fetched) next
      rw [if_neg Bool.false_ne_true]
      rcases Int.lt_or_le batch.lastOffset floor with below | above
      · have empty : batchRecords floor topicPartition batch = [] :=
          batchRecords_below wellFormed below
        rw [empty, nil_append, ite_self, continued]
        exact ⟨.inr, fun either => either.resolve_left fun known => not_mem_nil known.2⟩
      · split_ifs with drops
        · simp only [shouldDropAbortedBatch, Bool.true_and, Bool.and_eq_true,
            decide_eq_true_eq] at drops
          have unreadable := (fetched.active_iff isControl drops.1 above).mp (active.mp drops.2)
          rw [continued]
          exact ⟨.inr, fun either => either.resolve_left fun known => unreadable known.1⟩
        · have readable : Readable commits batch (rest ++ later) := by
            by_contra unreadable
            have isTransactional : batch.isTransactional = true := by
              by_contra notTransactional
              exact unreadable ⟨isControl, fun isTransactional =>
                absurd isTransactional notTransactional⟩
            have isActive := active.mpr
              ((fetched.active_iff isControl isTransactional above).mpr unreadable)
            simp [shouldDropAbortedBatch, isTransactional, isActive] at drops
          rw [mem_append, continued]
          exact or_congr_left ⟨fun member => ⟨readable, member⟩, fun known => known.2⟩

/-- The loop leaves out records and does not move any. -/
theorem processBatches_sublist {readCommitted : Bool} :
    (processBatches readCommitted floor topicPartition filter batches).Sublist
      (batches.flatMap (batchRecords floor topicPartition)) := by
  induction batches generalizing filter with
  | nil => exact List.Sublist.refl _
  | cons batch rest ih =>
    rw [processBatches, flatMap_cons]
    split_ifs
    all_goals first
      | exact (List.Sublist.refl _).append ih
      | exact ih.trans (sublist_append_right _ _)

theorem batchRecords_ordered (wellFormed : batch.WellFormed) :
    (batchRecords floor topicPartition batch).Pairwise
      (fun left right => left.offset < right.offset) := by
  refine List.Pairwise.map _ (fun left right before => ?_) (wellFormed.ordered.filter _)
  exact Int.add_lt_add_left before batch.baseOffset

theorem processBatches_ordered {readCommitted : Bool}
    (ordered : batches.Pairwise (fun left right => left.lastOffset < right.baseOffset))
    (each : forall batch, batch ∈ batches -> batch.WellFormed) :
    (processBatches readCommitted floor topicPartition filter batches).Pairwise
      (fun left right => left.offset < right.offset) := by
  refine List.Pairwise.sublist processBatches_sublist (pairwise_flatMap.mpr ⟨?_, ?_⟩)
  · exact fun batch member => batchRecords_ordered (each batch member)
  · refine ordered.imp_of_mem fun {left right} inLeft inRight before early isEarly late isLate => ?_
    rcases batchRecords_mem.mp isEarly with ⟨first, inFirst, sameFirst, _⟩
    rcases batchRecords_mem.mp isLate with ⟨second, inSecond, sameSecond, _⟩
    have upper := ((each left inLeft).inside first inFirst).2
    have lower := ((each right inRight).inside second inSecond).1
    rw [sameFirst, sameSecond]
    simp only [consumerRecord, recordOffset, RecordBatch.lastOffset] at before ⊢
    omega

end Log

/-! ## `process_partition_records` -/

section Row

variable {aborted : Option (List AbortedTransaction)} {offsets : SortedMap TopicPartition Int}
  {key : TopicPartition}

/-- Under `read_committed` the application gets, in offset order, exactly the
records from the fetch offset on that belong to no transaction or to a committed
one, and the position moves past every fetched batch. -/
theorem processPartitionRecords_readCommitted (offsets : SortedMap TopicPartition Int)
    (key : TopicPartition) (aborted : Option (List AbortedTransaction))
    (fetched : Fetched commits earlier batches later ((offsets.get? key).getD 0) (aborted.getD []))
    (nonempty : batches ≠ []) (topicName : String) (partitionIndex : Int) :
    Exists fun buffered =>
      processPartitionRecords .readCommitted offsets key topicName
          ⟨partitionIndex, some (.v2 batches), aborted⟩ = some buffered ∧
        (forall output, output ∈ buffered.records <->
          Visible commits batches later ((offsets.get? key).getD 0) ⟨topicName, partitionIndex⟩
            output) ∧
        buffered.records.Pairwise (fun left right => left.offset < right.offset) ∧
        forall batch, batch ∈ batches -> batch.lastOffset < buffered.nextOffset := by
  rcases nextOffsetAfter_isSome nonempty with ⟨nextOffset, isNext, past, _⟩
  have ordered := (pairwise_append.mp (pairwise_append.mp fetched.ordered).1).2.1
  have each (batch : RecordBatch) (member : batch ∈ batches) : batch.WellFormed :=
    fetched.each batch (by simp [member])
  refine ⟨⟨key, (offsets.get? key).getD 0, processBatches true ((offsets.get? key).getD 0)
    ⟨topicName, partitionIndex⟩ ⟨sortAborted (aborted.getD []), ∅⟩ batches, nextOffset,
    (batches.map RecordBatch.partitionLeaderEpoch).max?⟩, ?_, fun output => ?_,
    processBatches_ordered ordered each, past⟩
  · simp [processPartitionRecords, RecordsPayload.asV2, isReadCommitted, isNext]
  have all : Fetched commits earlier ([] ++ batches) later ((offsets.get? key).getD 0)
      (aborted.getD []) := fetched
  exact all.processBatches_mem ⟨sortAborted_sorted _, by simp, by simp⟩ output

def oneRecord (baseOffset : Int) (isControlBatch isTransactional : Bool) (producerId : Int) :
    RecordBatch where
  baseOffset := baseOffset
  lastOffsetDelta := 0
  partitionLeaderEpoch := 3
  isControlBatch := isControlBatch
  isTransactional := isTransactional
  timestampType := .createTime
  producerId := producerId
  baseTimestamp := 0
  maxTimestamp := 0
  records := [⟨0, 0, none, none, []⟩]

theorem oneRecord_wellFormed (baseOffset : Int) (isControlBatch isTransactional : Bool)
    (producerId : Int) : (oneRecord baseOffset isControlBatch isTransactional producerId).WellFormed := by
  constructor <;> simp [oneRecord]

/-- A fetch from the middle of an aborted transaction of producer 7. -/
theorem fetched_mid_transaction :
    Fetched (fun _ => false) [oneRecord 0 false true 7]
      [oneRecord 1 false true 7, oneRecord 2 false false 8, oneRecord 3 true true 7] [] 1
      [⟨0, 7⟩] where
  ordered := by simp [oneRecord, RecordBatch.lastOffset]
  each := by
    intro batch member
    simp only [cons_append, nil_append, append_nil, mem_cons, not_mem_nil, or_false] at member
    rcases member with same | same | same | same <;> exact same ▸ oneRecord_wellFormed _ _ _ _
  below := by simp [oneRecord, RecordBatch.lastOffset]
  ended := by
    intro before batch after parts isData isTransactional
    rcases before with _ | ⟨first, _ | ⟨second, _ | ⟨third, before⟩⟩⟩
    · cases parts
      rfl
    · cases parts
      cases isTransactional
    · cases parts
      cases isData
    · simp at parts
  complete := by
    rintro first pid marker ⟨before, after, parts, isOpen, _⟩ _ _
    by_cases isPid : pid = 7
    · subst isPid
      rcases before with _ | ⟨one, _ | ⟨two, _ | ⟨three, _ | ⟨four, _ | ⟨five, before⟩⟩⟩⟩⟩ <;>
        cases parts <;> cases isOpen <;> exact .head _
    · rcases before with _ | ⟨one, _ | ⟨two, _ | ⟨three, _ | ⟨four, _ | ⟨five, before⟩⟩⟩⟩⟩ <;>
        cases parts <;>
        simp [openTransaction, RecordBatch.marks, RecordBatch.writes, oneRecord,
          Ne.symm isPid] at isOpen
  sound := by
    intro first pid listed
    cases mem_singleton.mp listed
    exact ⟨oneRecord 3 true true 7, ⟨[oneRecord 0 false true 7], _, rfl, rfl, rfl, rfl⟩, by simp⟩

theorem processPartitionRecords_mid_transaction :
    Exists fun buffered =>
      processPartitionRecords .readCommitted (SortedMap.empty.insert ⟨"t", 0⟩ 1) ⟨"t", 0⟩ "t"
          ⟨0, some (.v2 [oneRecord 1 false true 7, oneRecord 2 false false 8,
            oneRecord 3 true true 7]), some [⟨0, 7⟩]⟩ = some buffered ∧
        forall output, output ∈ buffered.records <->
          Visible (fun _ => false) [oneRecord 1 false true 7, oneRecord 2 false false 8,
            oneRecord 3 true true 7] [] 1 ⟨"t", 0⟩ output := by
  rcases processPartitionRecords_readCommitted (SortedMap.empty.insert ⟨"t", 0⟩ 1) ⟨"t", 0⟩
    (some [⟨0, 7⟩]) fetched_mid_transaction (cons_ne_nil _ _) "t" 0
    with ⟨buffered, processed, visible, _⟩
  exact ⟨buffered, processed, visible⟩

end Row

end Consumer
end Krabka
