import Krabka.Assignor.General
import Mathlib.Tactic.Ring

namespace Krabka
namespace Assignor

open Collections List Option Buckets

/-!
# The balancing loop

A partition moves only from a member to one that holds at least two partitions less, so every
move lowers the sum of the squared loads by two or more.  This bounds the moves by half of that
sum whatever the cap is, and the loop ends on its own when a whole pass finds no such move.

`balanceRun` is the loop with the number of its moves, and with `none` where `balanceLoop` would
run out of fuel.
-/

/-! ## The sum of the squared loads -/

def squaredLoads (assignment : Assignment) : Nat :=
  (assignment.entries.map fun entry => entry.2.length * entry.2.length).sum

/-- The old square of a bucket is traded for the new one. -/
theorem squaredLoads_insert (assignment : Assignment) (id : String) (held : List TopicPartition) :
    squaredLoads (assignment.insert id held) + load assignment id * load assignment id =
      held.length * held.length + squaredLoads assignment := by
  -- One unit for each pair of partitions of a member.
  have traded := (assignment.flatMap_entries_insert id held fun _ parts =>
    List.replicate (parts.length * parts.length) ()).length_eq
  simp only [length_append, length_flatMap, length_replicate] at traded
  unfold squaredLoads load bucket
  rw [<- traded]
  cases assignment.get? id with
  | none => rfl
  | some parts => simp only [map_some, getD_some, length_replicate]

variable {assignment : Assignment} {tp : TopicPartition}

theorem squaredLoads_pos {id : String} (held : tp ∈ assignment.bucket id) :
    0 < squaredLoads assignment := by
  have traded := squaredLoads_insert assignment id []
  have positive : 0 < load assignment id := length_pos_of_mem held
  have square := mul_pos positive positive
  rw [length_nil, zero_mul, zero_add] at traded
  omega

theorem squaredLoads_of_items_nil (none : assignment.items = []) :
    squaredLoads assignment = 0 := by
  refine sum_eq_zero fun square member => ?_
  rcases mem_map.mp member with ⟨entry, isEntry, rfl⟩
  rw [flatMap_eq_nil_iff.mp none entry isEntry]
  rfl

section Move

variable {assignment : Assignment} {owner target : String} {partition : TopicPartition}

section

variable (held : partition ∈ assignment.bucket owner)

include held

theorem load_erase_self :
    load (assignment.erase owner partition) owner + 1 = load assignment owner := by
  have positive : 0 < (assignment.bucket owner).length := length_pos_of_mem held
  rw [load, bucket_erase, if_pos rfl, length_erase_of_mem held, load]
  omega

omit held in
theorem load_erase_of_ne (different : target ≠ owner) :
    load (assignment.erase owner partition) target = load assignment target := by
  rw [load, bucket_erase, if_neg different, load]

theorem squaredLoads_move (lighter : load assignment target + 1 < load assignment owner) :
    squaredLoads ((assignment.erase owner partition).push target partition) + 2 ≤
      squaredLoads assignment := by
  have different : target ≠ owner := by
    intro same
    rw [same] at lighter
    omega
  have ownerKnown := get?_eq_bucket (contains_of_mem_bucket held)
  have erased : squaredLoads (assignment.erase owner partition) +
      load assignment owner * load assignment owner =
        load (assignment.erase owner partition) owner *
          load (assignment.erase owner partition) owner + squaredLoads assignment := by
    have traded := squaredLoads_insert assignment owner ((assignment.bucket owner).erase partition)
    have isErased : assignment.erase owner partition =
        assignment.insert owner ((assignment.bucket owner).erase partition) := by
      rw [erase, ownerKnown]
    have isLoad : load (assignment.insert owner ((assignment.bucket owner).erase partition)) owner =
        ((assignment.bucket owner).erase partition).length := by
      rw [load, bucket_insert, if_pos rfl]
    rw [isErased, traded, isLoad]
  have pushed := squaredLoads_insert (assignment.erase owner partition) target
    ((assignment.erase owner partition).bucket target ++ [partition])
  have newLoad : ((assignment.erase owner partition).bucket target ++ [partition]).length =
      load assignment target + 1 := by
    rw [length_append, length_singleton, <- load, load_erase_of_ne different]
  rw [newLoad, load_erase_of_ne different] at pushed
  have fewer := load_erase_self held
  -- With `x` left to the owner and `y` before the move at the target, `y + 1 ≤ x`.
  generalize load (assignment.erase owner partition) owner = x at erased fewer
  generalize load assignment target = y at pushed lighter
  rw [<- fewer] at erased lighter
  have ownerSquare : (x + 1) * (x + 1) = x * x + 2 * x + 1 := by ring
  have targetSquare : (y + 1) * (y + 1) = y * y + 2 * y + 1 := by ring
  unfold push extend
  omega

end

end Move

/-! ## Passes -/

structure HeldBySubscribers (memberIds : List String) (subs : Subscriptions)
    (assignment : Assignment) : Prop where
  once : assignment.items.Nodup
  subscriber : forall id tp, tp ∈ assignment.bucket id ->
    id ∈ memberIds ∧ Subscribed subs id tp.topic

/-- No partition has a subscriber that holds at least two partitions less than its owner. -/
def Level (memberIds : List String) (subs : Subscriptions) (assignment : Assignment) : Prop :=
  forall owner tp, tp ∈ assignment.bucket owner -> forall other, other ∈ memberIds ->
    Subscribed subs other tp.topic -> load assignment owner ≤ load assignment other + 1

structure Moved (memberIds : List String) (subs : Subscriptions) (start assignment : Assignment)
    (moves : Nat) : Prop where
  items : assignment.items.Perm start.items
  subscriber : forall id tp, tp ∈ assignment.bucket id ->
    id ∈ memberIds ∧ Subscribed subs id tp.topic
  spent : squaredLoads assignment + 2 * moves ≤ squaredLoads start

variable {state : Balance}

section Passes

variable {memberIds : List String} {subs : Subscriptions}
  {prevOwner : SortedMap TopicPartition String} {maxIters : Nat} {start : Assignment}

theorem mem_bucket_of_move {owner target holder : String} {partition : TopicPartition}
    (held : tp ∈ ((assignment.erase owner partition).push target partition).bucket holder) :
    (holder = target ∧ tp = partition) ∨ tp ∈ assignment.bucket holder := by
  have erased (member : tp ∈ (assignment.erase owner partition).bucket holder) :
      tp ∈ assignment.bucket holder := by
    rw [bucket_erase] at member
    split_ifs at member with same
    · exact same ▸ mem_of_mem_erase member
    · exact member
  rw [push, bucket_extend] at held
  split_ifs at held with same
  · rcases mem_append.mp held with old | new
    · exact .inr (erased (same ▸ old))
    · exact .inl ⟨same, mem_singleton.mp new⟩
  · exact .inr (erased held)

theorem Moved.move {assignment : Assignment} {moves : Nat} {partition : TopicPartition}
    {owner target : String} (moved : Moved memberIds subs start assignment moves)
    (held : partition ∈ assignment.bucket owner)
    (chosen : balanceTarget memberIds subs prevOwner assignment partition owner = some target) :
    Moved memberIds subs start ((assignment.erase owner partition).push target partition)
      (moves + 1) := by
  have spec := balanceTarget_spec chosen
  refine ⟨(items_extend _ target [partition]).trans ((assignment.items_erase held).trans
    moved.items), fun id tp member => ?_, ?_⟩
  · rcases mem_bucket_of_move member with ⟨isTarget, same⟩ | before
    · exact isTarget ▸ same ▸ ⟨spec.1, spec.2.1⟩
    · exact moved.subscriber id tp before
  · have lower := squaredLoads_move held spec.2.2
    have spent := moved.spent
    omega

theorem Moved.pass {assignment : Assignment} {moves : Nat} (distinct : start.items.Nodup)
    (moved : Moved memberIds subs start assignment moves) :
    let passed := balancePass memberIds subs prevOwner maxIters ⟨assignment, moves, false⟩
      (ownedPartitions assignment)
    Moved memberIds subs start passed.2.assignment passed.2.moves :=
  balancePass_induction memberIds subs prevOwner maxIters
    (fun state => Moved memberIds subs start state.assignment state.moves)
    (fun _ _ _ _ holds => holds.move) _ _
    (ownedPartitions_pending (moved.items.nodup_iff.mpr distinct)) moved

/-- A pass that stops early has used up the cap, and had a partition to look at. -/
theorem balancePass_stopped {pending : List (TopicPartition × String)} {state : Balance}
    (stopped : (balancePass memberIds subs prevOwner maxIters state pending).1 = false) :
    maxIters ≤ (balancePass memberIds subs prevOwner maxIters state pending).2.moves ∧
      pending ≠ [] := by
  induction pending generalizing state with
  | nil => cases stopped
  | cons entry rest ih =>
    rcases entry with ⟨partition, owner⟩
    refine ⟨?_, cons_ne_nil _ _⟩
    rw [balancePass] at stopped ⊢
    by_cases used : state.moves ≥ maxIters
    · rw [if_pos used]
      exact used
    · rw [if_neg used] at stopped ⊢
      cases chosen : balanceTarget memberIds subs prevOwner state.assignment partition owner with
      | none | some =>
        rw [chosen] at stopped
        exact (ih stopped).1

theorem balancePass_modified (pending : List (TopicPartition × String))
    (modified : state.modified = true) :
    (balancePass memberIds subs prevOwner maxIters state pending).2.modified = true := by
  induction pending generalizing state with
  | nil => exact modified
  | cons entry rest ih =>
    rw [balancePass]
    split_ifs
    · exact modified
    · cases balanceTarget memberIds subs prevOwner state.assignment entry.1 entry.2 with
      | none => exact ih modified
      | some target => exact ih rfl

/-- A whole pass that changed nothing found no move for any partition. -/
theorem balancePass_idle {pending : List (TopicPartition × String)} {state : Balance}
    (whole : (balancePass memberIds subs prevOwner maxIters state pending).1 = true)
    (idle : (balancePass memberIds subs prevOwner maxIters state pending).2.modified = false) :
    (balancePass memberIds subs prevOwner maxIters state pending).2.assignment = state.assignment ∧
      forall entry, entry ∈ pending ->
        balanceTarget memberIds subs prevOwner state.assignment entry.1 entry.2 = none := by
  induction pending generalizing state with
  | nil => exact ⟨rfl, nofun⟩
  | cons entry rest ih =>
    rcases entry with ⟨partition, owner⟩
    rw [balancePass] at whole idle ⊢
    by_cases used : state.moves ≥ maxIters
    · rw [if_pos used] at whole
      cases whole
    · rw [if_neg used] at whole idle ⊢
      cases chosen : balanceTarget memberIds subs prevOwner state.assignment partition owner with
      | none =>
        rw [chosen] at whole idle
        have later := ih whole idle
        refine ⟨later.1, fun other member => ?_⟩
        rcases mem_cons.mp member with rfl | inRest
        · exact chosen
        · exact later.2 other inRest
      | some target =>
        rw [chosen] at idle
        exact absurd idle (ne_of_eq_of_ne (balancePass_modified rest rfl) (by decide))

end Passes

/-! ## The loop -/

/-- The loop: whether it ended on its own, and its variables then. -/
def balanceRun (memberIds : List String) (subs : Subscriptions)
    (prevOwner : SortedMap TopicPartition String) (maxIters : Nat) :
    Nat -> Assignment -> Nat -> Option (Bool × Balance)
  | 0, _, _ => none
  | fuel + 1, assignment, moves =>
    match balancePass memberIds subs prevOwner maxIters ⟨assignment, moves, false⟩
        (ownedPartitions assignment) with
    | (false, state) => some (false, state)
    | (true, state) =>
      if state.modified then
        balanceRun memberIds subs prevOwner maxIters fuel state.assignment state.moves
      else some (true, state)

variable {moves fuel : Nat}

section Loop

variable {memberIds : List String} {subs : Subscriptions}
  {prevOwner : SortedMap TopicPartition String} {maxIters : Nat} {start : Assignment}

/-- A partition that no pass can move has no subscriber with a much lower load. -/
theorem balanceTarget_none {owner other : String}
    (none : balanceTarget memberIds subs prevOwner assignment tp owner = none)
    (ownerSubscribes : owner ∈ memberIds ∧ Subscribed subs owner tp.topic)
    (otherSubscribes : other ∈ memberIds ∧ Subscribed subs other tp.topic) :
    load assignment owner ≤ load assignment other + 1 := by
  have isOwner := mem_subscribers.mpr ownerSubscribes
  have isOther := mem_subscribers.mpr otherSubscribes
  dsimp only [balanceTarget] at none
  generalize memberIds.filter (fun id =>
    ((subs.get? id).map (fun topics => topics.contains tp.topic)).getD false) =
      subscribers at none isOwner isOther
  split_ifs at none with single
  · -- The owner is the only subscriber.
    have same : owner = other := by
      cases subscribers with
      | nil => cases isOwner
      | cons first rest =>
        have noRest : rest = [] := length_eq_zero_iff.mp (by simpa using single)
        rw [noRest, mem_singleton] at isOwner isOther
        exact isOwner.trans isOther.symm
    rw [same]
    exact Nat.le_succ _
  · by_contra heavier
    have candidate : other ∈ subscribers.filter
        (fun id => decide (load assignment owner > load assignment id + 1)) :=
      mem_filter.mpr ⟨isOther, decide_eq_true (Nat.lt_of_not_le heavier)⟩
    have found : lighterTarget assignment (load assignment owner) subscribers ≠ .none :=
      lighterTarget_ne_none candidate
    cases previously : prevOwner.get? tp with
    | none =>
      rw [previously] at none
      exact found none
    | some previous =>
      rw [previously] at none
      dsimp only at none
      split_ifs at none
      exact found none

theorem balanceRun_eq {ended : Bool}
    (ran : balanceRun memberIds subs prevOwner maxIters fuel assignment moves =
      some (ended, state)) :
    balanceLoop memberIds subs prevOwner maxIters fuel assignment moves = state.assignment := by
  induction fuel generalizing assignment moves with
  | zero => cases ran
  | succ fuel ih =>
    rw [balanceRun] at ran
    rw [balanceLoop]
    generalize balancePass memberIds subs prevOwner maxIters ⟨assignment, moves, false⟩
      (ownedPartitions assignment) = passed at ran ⊢
    rcases passed with ⟨whole, after⟩
    cases whole with
    | false => rw [(Prod.mk.inj (some.inj ran)).2]
    | true =>
      dsimp only at ran ⊢
      split_ifs at ran ⊢
      · exact ih ran
      · rw [(Prod.mk.inj (some.inj ran)).2]

/-- The loop ends: every pass but the last one moves a partition. -/
theorem balanceRun_total (assignment : Assignment) (bound : moves ≤ maxIters)
    (enough : maxIters - moves < fuel) :
    Exists fun result =>
      balanceRun memberIds subs prevOwner maxIters fuel assignment moves = some result := by
  induction fuel generalizing assignment moves with
  | zero => exact absurd enough (Nat.not_lt_zero _)
  | succ fuel ih =>
    have counted := balancePass_moves memberIds subs prevOwner maxIters
      (ownedPartitions assignment) ⟨assignment, moves, false⟩
    rw [balanceRun]
    generalize balancePass memberIds subs prevOwner maxIters ⟨assignment, moves, false⟩
      (ownedPartitions assignment) = passed at counted ⊢
    rcases passed with ⟨whole, after⟩
    cases whole with
    | false => exact ⟨_, rfl⟩
    | true =>
      dsimp only at counted ⊢
      split_ifs with modified
      · have more : moves < after.moves := (counted.2.1 modified).resolve_left nofun
        have within := counted.2.2 bound
        exact ih after.assignment within (by omega)
      · exact ⟨_, rfl⟩

theorem balanceRun_spec {ended : Bool} (distinct : start.items.Nodup)
    (moved : Moved memberIds subs start assignment moves)
    (ran : balanceRun memberIds subs prevOwner maxIters fuel assignment moves =
      some (ended, state)) :
    Moved memberIds subs start state.assignment state.moves ∧
      (ended = true -> Level memberIds subs state.assignment) ∧
      (ended = false -> maxIters ≤ state.moves ∧ start.items ≠ []) := by
  induction fuel generalizing assignment moves with
  | zero => cases ran
  | succ fuel ih =>
    have after := @Moved.pass memberIds subs prevOwner maxIters start _ _ distinct moved
    have stops := @balancePass_stopped memberIds subs prevOwner maxIters
      (ownedPartitions assignment) ⟨assignment, moves, false⟩
    have idles := @balancePass_idle memberIds subs prevOwner maxIters
      (ownedPartitions assignment) ⟨assignment, moves, false⟩
    rw [balanceRun] at ran
    generalize balancePass memberIds subs prevOwner maxIters ⟨assignment, moves, false⟩
      (ownedPartitions assignment) = passed at ran after stops idles
    rcases passed with ⟨whole, last⟩
    cases whole with
    | false =>
      have parts := Prod.mk.inj (some.inj ran)
      rw [<- parts.1, <- parts.2]
      refine ⟨after, nofun, fun _ => ⟨(stops rfl).1, fun none => (stops rfl).2 ?_⟩⟩
      have noItems : assignment.items = [] := perm_nil.mp (none ▸ moved.items)
      have noPairs : ownerPairs assignment = [] := by
        rw [<- map_fst_ownerPairs, map_eq_nil_iff] at noItems
        exact noItems
      exact perm_nil.mp (noPairs ▸ perm_insertionSort _ _)
    | true =>
      dsimp only at ran
      split_ifs at ran with modified
      · exact ih after ran
      · have parts := Prod.mk.inj (some.inj ran)
        have idle := idles rfl (Bool.of_not_eq_true modified)
        rw [<- parts.1, <- parts.2]
        refine ⟨after, fun _ => ?_, nofun⟩
        rw [idle.1]
        intro owner tp held other known subscribed
        have listed : (tp, owner) ∈ ownedPartitions assignment :=
          (perm_insertionSort _ _).mem_iff.mpr ((mem_ownerPairs assignment tp owner).mpr held)
        exact balanceTarget_none (idle.2 _ listed) (moved.subscriber owner tp held)
          ⟨known, subscribed⟩

end Loop

/-- The balancing loop ends, loses and duplicates no partition, keeps partitions at subscribers
and never raises the sum of the squared loads.  With moves left over the loads are level, and
a cap of half the first sum is never the reason to stop. -/
theorem balanceAssignment_levels (memberIds : List String) (subs : Subscriptions)
    (prevOwner : SortedMap TopicPartition String) (assignment : Assignment) (maxIters : Nat)
    (held : HeldBySubscribers memberIds subs assignment) :
    Exists fun ended => Exists fun state =>
      balanceRun memberIds subs prevOwner maxIters (maxIters + 1) assignment 0 =
          some (ended, state) ∧
        balanceAssignment memberIds subs prevOwner assignment maxIters = state.assignment ∧
        state.assignment.items.Perm assignment.items ∧
        HeldBySubscribers memberIds subs state.assignment ∧
        squaredLoads state.assignment ≤ squaredLoads assignment ∧
        (state.moves < maxIters -> Level memberIds subs state.assignment) ∧
        (squaredLoads assignment ≤ 2 * maxIters ->
          ended = true ∧ (0 < maxIters -> state.moves < maxIters)) := by
  have begins : Moved memberIds subs assignment assignment 0 :=
    ⟨List.Perm.refl _, held.subscriber, le_refl _⟩
  have total : Exists fun result => balanceRun memberIds subs prevOwner maxIters (maxIters + 1)
      assignment 0 = some result := balanceRun_total assignment (Nat.zero_le _) (Nat.lt_succ_self _)
  rcases total with ⟨⟨ended, state⟩, ran⟩
  rcases balanceRun_spec held.once begins ran with ⟨moved, levels, stops⟩
  have spent := moved.spent
  refine ⟨ended, state, ran, balanceRun_eq ran, moved.items,
    ⟨moved.items.nodup_iff.mpr held.once, moved.subscriber⟩, by omega, fun fewer => ?_,
    fun ample => ?_⟩
  · cases ended with
    | true => exact levels rfl
    | false => exact absurd fewer (Nat.not_lt_of_le (stops rfl).1)
  · -- As long as there is a partition, its owner's square is left over.
    have leftOver (some : assignment.items ≠ []) : 0 < squaredLoads state.assignment := by
      rcases exists_mem_of_ne_nil _ some with ⟨tp, member⟩
      rcases (mem_items_iff _ tp).mp (moved.items.mem_iff.mpr member) with ⟨id, isHeld⟩
      exact squaredLoads_pos isHeld
    refine ⟨?_, fun positive => ?_⟩
    · cases ended with
      | true => rfl
      | false =>
        have used := (stops rfl).1
        have positive := leftOver (stops rfl).2
        omega
    · by_cases none : assignment.items = []
      · have empty : squaredLoads assignment = 0 := squaredLoads_of_items_nil none
        omega
      · have positive := leftOver none
        omega

/-- One of two subscribers holds everything. -/
def oneHeavy : Assignment := SortedMap.ofList [("a", [⟨"t", 0⟩, ⟨"t", 1⟩, ⟨"t", 2⟩]), ("b", [])]

def bothSubscribe : Subscriptions :=
  SortedMap.ofList [("a", SortedSet.ofValues ["t"]), ("b", SortedSet.ofValues ["t"])]

theorem balanceAssignment_levels_two :
    squaredLoads oneHeavy ≤ 2 * 5 ∧ Exists fun ended => Exists fun state =>
      balanceRun ["a", "b"] bothSubscribe SortedMap.empty 5 6 oneHeavy 0 = some (ended, state) ∧
        ended = true := by
  have held : HeldBySubscribers ["a", "b"] bothSubscribe oneHeavy := by
    refine ⟨by decide, fun id tp isHeld => ?_⟩
    have owners : forall pair, pair ∈ ownerPairs oneHeavy -> pair.2 = "a" ∧ pair.1.topic = "t" := by
      decide
    have owner : id = "a" ∧ tp.topic = "t" := owners (tp, id) ((mem_ownerPairs _ tp id).mpr isHeld)
    rw [owner.1, owner.2]
    exact ⟨by decide, SortedSet.ofValues ["t"], by decide, by decide⟩
  rcases balanceAssignment_levels ["a", "b"] bothSubscribe SortedMap.empty oneHeavy 5 held with
    ⟨ended, state, ran, _, _, _, _, _, ample⟩
  exact ⟨by decide, ended, state, ran, (ample (by decide)).1⟩

end Assignor
end Krabka
