import Mathlib.Data.List.Basic
import Mathlib.Data.List.Perm.Basic
import Mathlib.Data.Multiset.MapFold
import Mathlib.Data.Multiset.UnionInter
import Mathlib.Logic.Function.Basic

namespace Krabka
namespace Collections

open Function

universe u

/-!
# Custody of numbered records

Records are accepted for a key and numbered in that order.  Each key has a
queue.  A worker moves records out of the queues: it drains the front of a
queue into a parcel, at most one for each key, or takes records without a
parcel.  Every record leaves custody once, as acknowledged or as failed.  A
counter follows the parcels.  A parcel is counted before the worker holds it,
and for a while after its records left (`finishing`).

`Move` lists what one step may do.  `Sound` is what every run of moves keeps:
no record is lost or resolved twice, the records of a key stay in their order,
and the counter is exact.
-/

/-- Who holds which records. -/
structure Ledger (Key : Type u) where
  /-- The key of each accepted record, by number. -/
  owner : List Key
  queue : Key -> List Nat
  taken : List Nat
  drained : Multiset (Key × List Nat)
  finishing : Nat
  counter : Int
  acked : List Nat
  failed : List Nat

namespace Ledger

open List

variable {Key : Type u}

def Holds (ledger : Ledger Key) (key : Key) (records : List Nat) : Prop :=
  (key, records) ∈ ledger.drained ∨
    records = [] ∧ forall parcel, parcel ∈ ledger.drained -> parcel.1 ≠ key

theorem exists_holds (ledger : Ledger Key) (key : Key) :
    Exists fun records => ledger.Holds key records := by
  by_cases held : Exists fun records => (key, records) ∈ ledger.drained
  · rcases held with ⟨records, member⟩
    exact ⟨records, .inl member⟩
  · refine ⟨[], .inr ⟨rfl, ?_⟩⟩
    intro parcel member same
    exact held ⟨parcel.2, same ▸ member⟩

variable {key : Key} {records : List Nat}

theorem holds_of_idle {ledger : Ledger Key}
    (idle : forall parcel, parcel ∈ ledger.drained -> parcel.1 ≠ key)
    (holds : ledger.Holds key records) : records = [] := by
  rcases holds with member | empty
  · exact absurd rfl (idle _ member)
  · exact empty.1

variable [DecidableEq Key]

def ofKey (ledger : Ledger Key) (key : Key) (records : List Nat) : List Nat :=
  records.filter (fun record => ledger.owner[record]? = some key)

/-- The unresolved records of `key`, when `records` are in its parcel. -/
def pending (ledger : Ledger Key) (key : Key) (records : List Nat) : List Nat :=
  records ++ (ledger.ofKey key ledger.taken ++ ledger.queue key)

/-- The records `accepted` of one key are acknowledged, failed or pending, each
once.  The acknowledged ones are in order, and before the pending ones. -/
structure Accounts (accepted acked failed pending : List Nat) : Prop where
  complete : accepted.Perm (acked ++ (failed ++ pending))
  ordered : (acked ++ pending).Pairwise (· < ·)

/-- What every run of moves keeps. -/
structure Sound (ledger : Ledger Key) : Prop where
  accounts : forall key records, ledger.Holds key records ->
    Accounts (ledger.ofKey key (List.range ledger.owner.length)) (ledger.ofKey key ledger.acked)
      (ledger.ofKey key ledger.failed) (ledger.pending key records)
  bounded : forall record, record ∈ ledger.acked ++ ledger.failed ++ ledger.taken ->
    record < ledger.owner.length
  single : (ledger.drained.map Prod.fst).Nodup
  counted : ledger.counter = ledger.drained.card + ledger.finishing

/-! ## Moves -/

/-- What one step may do to the custody of records.  `returned` is the key
whose parcel goes back to its queue. -/
inductive Move (returned : Option Key) : Ledger Key -> Ledger Key -> Prop where
  | stay (ledger : Ledger Key) : Move returned ledger ledger
  | accept (ledger : Ledger Key) (key : Key) :
      Move returned ledger { ledger with
        owner := ledger.owner ++ [key]
        queue := update ledger.queue key
          (ledger.queue key ++ [ledger.owner.length]) }
  | pop (ledger : Ledger Key) (key : Key) (records rest : List Nat)
      (front : ledger.queue key = records ++ rest)
      (idle : forall parcel, parcel ∈ ledger.drained -> parcel.1 ≠ key)
      (noneTaken : ledger.taken = []) :
      Move returned ledger { ledger with
        queue := update ledger.queue key rest
        drained := (key, records) ::ₘ ledger.drained
        counter := ledger.counter + 1 }
  | ack (ledger : Ledger Key) (key : Key) (records : List Nat)
      (others : Multiset (Key × List Nat))
      (held : ledger.drained = (key, records) ::ₘ others) :
      Move returned ledger { ledger with
        drained := others
        finishing := ledger.finishing + 1
        acked := ledger.acked ++ records }
  | fail (ledger : Ledger Key) (key : Key) (records : List Nat)
      (others : Multiset (Key × List Nat))
      (held : ledger.drained = (key, records) ::ₘ others) :
      Move returned ledger { ledger with
        drained := others
        finishing := ledger.finishing + 1
        failed := ledger.failed ++ records }
  | finish (ledger : Ledger Key) (left : Nat) (more : ledger.finishing = left + 1) :
      Move returned ledger { ledger with
        finishing := left
        counter := ledger.counter - 1 }
  | requeue (ledger : Ledger Key) (key : Key) (records : List Nat)
      (others : Multiset (Key × List Nat))
      (held : ledger.drained = (key, records) ::ₘ others)
      (noneTaken : ledger.taken = []) (back : returned = some key) :
      Move returned ledger { ledger with
        queue := update ledger.queue key (records ++ ledger.queue key)
        drained := others
        finishing := ledger.finishing + 1 }
  | take (ledger : Ledger Key) (key : Key) (records rest : List Nat)
      (front : ledger.queue key = records ++ rest) :
      Move returned ledger { ledger with
        queue := update ledger.queue key rest
        taken := ledger.taken ++ records }
  | failTaken (ledger : Ledger Key) (records rest : List Nat)
      (front : ledger.taken = records ++ rest) :
      Move returned ledger { ledger with
        taken := rest
        failed := ledger.failed ++ records }
  | failQueued (ledger : Ledger Key) (key : Key) (lost kept : List Nat)
      (parts : (ledger.queue key).Perm (lost ++ kept))
      (order : kept.Sublist (ledger.queue key)) :
      Move returned ledger { ledger with
        queue := update ledger.queue key kept
        failed := ledger.failed ++ lost }

/-! ## Small facts -/

theorem ofKey_append (ledger : Ledger Key) (key : Key) (left right : List Nat) :
    ledger.ofKey key (left ++ right) = ledger.ofKey key left ++ ledger.ofKey key right :=
  filter_append left right

variable {record : Nat}

theorem mem_ofKey {ledger : Ledger Key} :
    record ∈ ledger.ofKey key records <-> record ∈ records ∧ ledger.owner[record]? = some key := by
  rw [ofKey, mem_filter, decide_eq_true_iff]

section

variable {ledger : Ledger Key} (front : List Nat)
  (owned : forall record, record ∈ records -> ledger.owner[record]? = some key)

include owned

theorem ofKey_append_self :
    ledger.ofKey key (front ++ records) = ledger.ofKey key front ++ records := by
  rw [ofKey_append]
  exact congrArg _ (filter_eq_self.mpr fun record member =>
    decide_eq_true (owned record member))

theorem ofKey_append_other {other : Key} (different : other ≠ key) :
    ledger.ofKey other (front ++ records) = ledger.ofKey other front := by
  rw [ofKey_append, append_right_eq_self]
  refine filter_eq_nil_iff.mpr fun record member same => different ?_
  exact Option.some.inj ((of_decide_eq_true same).symm.trans (owned record member))

end

namespace Sound

variable {ledger : Ledger Key} (sound : ledger.Sound)

include sound

variable {key : Key} {records : List Nat} {record : Nat}

/-- An unresolved record of `key` was accepted for `key`. -/
theorem owner_of_pending (holds : ledger.Holds key records)
    (member : record ∈ ledger.pending key records) :
    ledger.owner[record]? = some key := by
  have among := (sound.accounts key records holds).complete.mem_iff.mpr
    (mem_append_right _ (mem_append_right _ member))
  exact (mem_ofKey.mp among).2

theorem owner_of_held (held : (key, records) ∈ ledger.drained)
    (member : record ∈ records) : ledger.owner[record]? = some key :=
  sound.owner_of_pending (.inl held) (mem_append_left _ member)

theorem owner_of_queued (member : record ∈ ledger.queue key) :
    ledger.owner[record]? = some key := by
  rcases ledger.exists_holds key with ⟨records, holds⟩
  exact sound.owner_of_pending holds (mem_append_right _ (mem_append_right _ member))

variable {others : Multiset (Key × List Nat)}

section

variable (held : ledger.drained = (key, records) ::ₘ others)

include held

theorem owner_of_cons :
    forall record, record ∈ records -> ledger.owner[record]? = some key :=
  fun _ => sound.owner_of_held (held ▸ Multiset.mem_cons_self _ _)

theorem others_idle :
    forall parcel, parcel ∈ others -> parcel.1 ≠ key := by
  have unique := sound.single
  rw [held, Multiset.map_cons, Multiset.nodup_cons] at unique
  intro parcel member same
  exact unique.1 (Multiset.mem_map.mpr ⟨parcel, member, same⟩)

theorem holds_before {other : Key} {after : List Nat} (holds : (other, after) ∈ others ∨
      after = [] ∧ forall parcel, parcel ∈ others -> parcel.1 ≠ other) :
    (other = key ∧ after = [] ∧ ledger.Holds key records) ∨
      (other ≠ key ∧ ledger.Holds other after) := by
  have idle := sound.others_idle held
  by_cases same : other = key
  · subst same
    refine .inl ⟨rfl, ?_, .inl (held ▸ Multiset.mem_cons_self _ _)⟩
    rcases holds with member | empty
    · exact absurd rfl (idle _ member)
    · exact empty.1
  · refine .inr ⟨same, ?_⟩
    rcases holds with member | ⟨empty, absent⟩
    · exact .inl (held ▸ Multiset.mem_cons_of_mem member)
    · refine .inr ⟨empty, ?_⟩
      intro parcel member equal
      rw [held] at member
      rcases Multiset.mem_cons.mp member with first | later
      · exact same (equal ▸ first ▸ rfl)
      · exact absent parcel later equal

theorem single_others : (others.map Prod.fst).Nodup := by
  have unique := sound.single
  rw [held, Multiset.map_cons, Multiset.nodup_cons] at unique
  exact unique.2

theorem counted_others :
    ledger.counter = others.card + ((ledger.finishing + 1 : Nat) : Int) := by
  have counted := sound.counted
  rw [held, Multiset.card_cons] at counted
  push_cast at counted ⊢
  omega

end

end Sound

/-! ## The records of one key -/

namespace Accounts

variable {accepted acked failed pending : List Nat}
  (accounts : Accounts accepted acked failed pending)

include accounts

theorem accept {record : Nat} (larger : forall other, other ∈ accepted -> other < record) :
    Accounts (accepted ++ [record]) acked failed (pending ++ [record]) where
  complete := by
    have moved := accounts.complete.append_right [record]
    simpa only [append_assoc] using moved
  ordered := by
    rw [← append_assoc]
    refine pairwise_append.mpr ⟨accounts.ordered, pairwise_singleton _ _, ?_⟩
    intro other member last isLast
    rw [mem_singleton.mp isLast]
    apply larger
    apply accounts.complete.mem_iff.mpr
    rcases mem_append.mp member with inAcked | inPending
    · exact mem_append_left _ inAcked
    · exact mem_append_right _ (mem_append_right _ inPending)

/-- The first pending records are acknowledged. -/
theorem ack {rest : List Nat} (front : pending = records ++ rest) :
    Accounts accepted (acked ++ records) failed rest where
  complete := by
    refine accounts.complete.trans ?_
    rw [front, append_assoc]
    refine List.Perm.append_left acked ?_
    rw [← append_assoc, ← append_assoc]
    exact perm_append_comm.append_right rest
  ordered := by
    have before := accounts.ordered
    rw [front, ← append_assoc] at before
    exact before

/-- Some pending records fail, and the others keep their order. -/
theorem fail {lost kept : List Nat} (parts : pending.Perm (lost ++ kept))
    (order : kept.Sublist pending) : Accounts accepted acked (failed ++ lost) kept where
  complete := by
    refine accounts.complete.trans (List.Perm.append_left acked ?_)
    rw [append_assoc]
    exact parts.append_left failed
  ordered := accounts.ordered.sublist (order.append_left acked)

end Accounts

/-! ## Every move keeps the ledger sound -/

/-- The ledger with one more record, accepted for `key`. -/
def withOwner (ledger : Ledger Key) (key : Key) : Ledger Key :=
  { ledger with owner := ledger.owner ++ [key] }

section

variable (ledger : Ledger Key) (added key : Key)

theorem ofKey_withOwner (bounded : forall record, record ∈ records -> record < ledger.owner.length) :
    (ledger.withOwner added).ofKey key records = ledger.ofKey key records := by
  apply filter_congr
  intro record member
  rw [withOwner, getElem?_append_left (bounded record member)]

theorem ofKey_withOwner_range :
    (ledger.withOwner added).ofKey key (List.range (ledger.owner ++ [added]).length) =
      ledger.ofKey key (List.range ledger.owner.length) ++
        if added = key then [ledger.owner.length] else [] := by
  rw [length_append, length_singleton, range_succ, ofKey_append,
    ofKey_withOwner ledger added key (fun _ => mem_range.mp)]
  by_cases same : added = key <;> simp [ofKey, withOwner, same]

end

namespace Sound

variable {ledger : Ledger Key} (sound : ledger.Sound)

include sound

theorem accept (key : Key) :
    Sound { ledger with
      owner := ledger.owner ++ [key]
      queue := update ledger.queue key (ledger.queue key ++ [ledger.owner.length]) } := by
  have ackedSame := fun other => ledger.ofKey_withOwner key other
    (fun record member => sound.bounded record (mem_append_left _ (mem_append_left _ member)))
  have failedSame := fun other => ledger.ofKey_withOwner key other
    (fun record member => sound.bounded record (mem_append_left _ (mem_append_right _ member)))
  have takenSame := fun other => ledger.ofKey_withOwner key other
    (fun record member => sound.bounded record (mem_append_right _ member))
  refine ⟨?_, ?_, sound.single, sound.counted⟩
  · intro other records holds
    have before := sound.accounts other records holds
    have larger : forall record, record ∈ ledger.ofKey other (List.range ledger.owner.length) ->
          record < ledger.owner.length :=
      fun record member => mem_range.mp (mem_ofKey.mp member).1
    change Accounts ((ledger.withOwner key).ofKey other _)
      ((ledger.withOwner key).ofKey other ledger.acked)
      ((ledger.withOwner key).ofKey other ledger.failed)
      (records ++ ((ledger.withOwner key).ofKey other ledger.taken ++
        update ledger.queue key _ other))
    rw [ofKey_withOwner_range, ackedSame, failedSame, takenSame]
    by_cases same : key = other
    · subst same
      rw [if_pos rfl, update_self]
      have after := before.accept larger
      simpa only [pending, append_assoc] using after
    · rw [if_neg same, append_nil, update_of_ne (Ne.symm same)]
      exact before
  · intro record member
    rw [length_append]
    exact Nat.lt_add_right _ (sound.bounded record member)

/-- The lists still hold only accepted records when records of one key join them. -/
theorem bounded_more {key : Key} {all : List Nat}
    (owned : forall record, record ∈ records -> ledger.owner[record]? = some key)
    (part : forall record, record ∈ all ->
      record ∈ records ∨ record ∈ ledger.acked ++ ledger.failed ++ ledger.taken) :
    forall record, record ∈ all -> record < ledger.owner.length := by
  intro record member
  rcases part record member with new | old
  · exact (List.getElem?_eq_some_iff.mp (owned record new)).1
  · exact sound.bounded record old

theorem pop (key : Key) (records rest : List Nat) (front : ledger.queue key = records ++ rest)
    (idle : forall parcel, parcel ∈ ledger.drained -> parcel.1 ≠ key)
    (noneTaken : ledger.taken = []) :
    Sound { ledger with
      queue := update ledger.queue key rest
      drained := (key, records) ::ₘ ledger.drained
      counter := ledger.counter + 1 } := by
  refine ⟨fun other after holds => ?_, sound.bounded, ?_, ?_⟩
  · by_cases same : other = key
    · subst same
      have isParcel : after = records := by
        rcases holds with member | empty
        · rcases Multiset.mem_cons.mp member with first | later
          · exact congrArg Prod.snd first
          · exact absurd rfl (idle _ later)
        · exact absurd rfl (empty.2 _ (Multiset.mem_cons_self _ _))
      have before := sound.accounts other [] (.inr ⟨rfl, idle⟩)
      rw [pending, front, noneTaken] at before
      simp only [pending, update_self, isParcel, noneTaken]
      exact before
    · simp only [pending, update_of_ne same]
      refine sound.accounts other after ?_
      rcases holds with member | ⟨empty, absent⟩
      · rcases Multiset.mem_cons.mp member with first | later
        · exact absurd (congrArg Prod.fst first) same
        · exact .inl later
      · exact .inr ⟨empty, fun parcel member => absent parcel (Multiset.mem_cons_of_mem member)⟩
  · rw [Multiset.map_cons, Multiset.nodup_cons]
    refine ⟨fun member => ?_, sound.single⟩
    rcases Multiset.mem_map.mp member with ⟨parcel, held, same⟩
    exact idle parcel held same
  · have counted := sound.counted
    simp only [Multiset.card_cons]
    push_cast
    omega

end Sound

variable {returned : Option Key} {before after : Ledger Key}

/-- Every move keeps the ledger sound. -/
theorem Move.sound (move : Move returned before after) (sound : before.Sound) : after.Sound := by
  cases move with
  | stay => exact sound
  | accept key => exact sound.accept key
  | pop key records rest front idle noneTaken =>
    exact sound.pop key records rest front idle noneTaken
  | ack key records others held =>
    have owned := sound.owner_of_cons held
    refine ⟨fun other after holds => ?_, sound.bounded_more owned (by simp [or_left_comm]),
      sound.single_others held, sound.counted_others held⟩
    rcases sound.holds_before held holds with ⟨rfl, rfl, earlier⟩ | ⟨different, earlier⟩
    · have accounts := (sound.accounts other records earlier).ack rfl
      rw [← ofKey_append_self _ owned] at accounts
      exact accounts
    · have accounts := sound.accounts other after earlier
      rw [← ofKey_append_other before.acked owned different] at accounts
      exact accounts
  | fail key records others held =>
    have owned := sound.owner_of_cons held
    refine ⟨fun other after holds => ?_, sound.bounded_more owned (by simp [or_left_comm]),
      sound.single_others held, sound.counted_others held⟩
    rcases sound.holds_before held holds with ⟨rfl, rfl, earlier⟩ | ⟨different, earlier⟩
    · have accounts := (sound.accounts other records earlier).fail (List.Perm.refl _)
        (sublist_append_right records _)
      rw [← ofKey_append_self _ owned] at accounts
      exact accounts
    · have accounts := sound.accounts other after earlier
      rw [← ofKey_append_other before.failed owned different] at accounts
      exact accounts
  | finish left more =>
    refine { sound with counted := ?_ }
    have counted := sound.counted
    simp only [more] at counted ⊢
    push_cast at counted
    omega
  | requeue key records others held noneTaken back =>
    refine ⟨fun other after holds => ?_, sound.bounded, sound.single_others held,
      sound.counted_others held⟩
    rcases sound.holds_before held holds with ⟨rfl, rfl, earlier⟩ | ⟨different, earlier⟩
    · have accounts := sound.accounts other records earlier
      rw [pending, noneTaken] at accounts
      simp only [pending, update_self, noneTaken]
      exact accounts
    · simp only [pending, update_of_ne different]
      exact sound.accounts other after earlier
  | take key records rest front =>
    have owned : forall record, record ∈ records -> before.owner[record]? = some key :=
      fun record member => sound.owner_of_queued (front ▸ mem_append_left rest member)
    refine ⟨fun other after holds => ?_, sound.bounded_more owned (by simp +contextual [or_imp]),
      sound.single, sound.counted⟩
    have accounts := sound.accounts other after holds
    by_cases same : other = key
    · subst same
      rw [pending, front, ← append_assoc (ofKey ..), ← ofKey_append_self _ owned] at accounts
      simp only [pending, update_self]
      exact accounts
    · rw [pending, ← ofKey_append_other before.taken owned same] at accounts
      simp only [pending, update_of_ne same]
      exact accounts
  | failTaken records rest front =>
    refine ⟨fun other after holds => ?_, fun record member => ?_, sound.single, sound.counted⟩
    · have accounts := sound.accounts other after holds
      rw [pending, front, ofKey_append, append_assoc] at accounts
      have failed := accounts.fail (perm_append_comm_assoc _ _ _)
        ((sublist_append_right _ _).append_left after)
      rw [← ofKey_append] at failed
      exact failed
    · refine sound.bounded record ?_
      rw [front]
      simpa only [append_assoc] using member
  | failQueued key lost kept parts order =>
    have owned : forall record, record ∈ lost -> before.owner[record]? = some key :=
      fun record member =>
        sound.owner_of_queued (parts.mem_iff.mpr (mem_append_left kept member))
    refine ⟨fun other after holds => ?_, sound.bounded_more owned (by simp [or_left_comm]),
      sound.single, sound.counted⟩
    have accounts := sound.accounts other after holds
    by_cases same : other = key
    · subst same
      have pendingParts : (before.pending other after).Perm
          (lost ++ (after ++ (before.ofKey other before.taken ++ kept))) := by
        rw [pending, ← append_assoc, ← append_assoc after]
        exact (parts.append_left _).trans (perm_append_comm_assoc _ _ _)
      have failed := accounts.fail pendingParts ((order.append_left _).append_left after)
      rw [← ofKey_append_self _ owned] at failed
      simp only [pending, update_self]
      exact failed
    · rw [← ofKey_append_other before.failed owned same] at accounts
      simp only [pending, update_of_ne same]
      exact accounts

/-- A queue grows by a new record, or by the parcel that goes back to it. -/
theorem Move.mem_queue (move : Move returned before after)
    (queued : record ∈ after.queue key) :
    record ∈ before.queue key ∨ before.owner.length ≤ record ∨ returned = some key := by
  have old : forall {changed : Key} {rest : List Nat}, rest ⊆ before.queue changed ->
      record ∈ update before.queue changed rest key -> record ∈ before.queue key := by
    intro changed rest subset member
    by_cases same : key = changed
    · subst same
      rw [update_self] at member
      exact subset member
    · rwa [update_of_ne same] at member
  cases move with
  | accept changed =>
    by_cases same : key = changed
    · subst same
      simp only [update_self, mem_append, mem_singleton] at queued
      exact queued.imp_right (fun isNew => .inl isNew.ge)
    · simp only [update_of_ne same] at queued
      exact .inl queued
  | pop changed records rest front idle noneTaken | take changed records rest front =>
    exact .inl (old (front ▸ subset_append_right records rest) queued)
  | requeue changed records others held noneTaken back =>
    by_cases same : key = changed
    · exact .inr (.inr (same ▸ back))
    · simp only [update_of_ne same] at queued
      exact .inl queued
  | failQueued changed lost kept parts order => exact .inl (old order.subset queued)
  | stay | ack | fail | finish | failTaken => exact .inl queued

def Live (ledger : Ledger Key) (record : Nat) : Prop :=
  (Exists fun key => record ∈ ledger.queue key) ∨
    Exists fun parcel => parcel ∈ ledger.drained ∧ record ∈ parcel.2

/-- A record that left the queues and the parcels does not come back. -/
theorem Move.live (move : Move returned before after) (live : after.Live record) :
    before.Live record ∨ before.owner.length ≤ record := by
  have changed : forall {key other : Key} {rest : List Nat},
      record ∈ update before.queue key rest other ->
        record ∈ rest ∨ record ∈ before.queue other := by
    intro key other rest member
    by_cases same : other = key
    · subst same
      rw [update_self] at member
      exact .inl member
    · rw [update_of_ne same] at member
      exact .inr member
  have shorter : forall {key other : Key} {rest : List Nat}, rest ⊆ before.queue key ->
      record ∈ update before.queue key rest other -> before.Live record := by
    intro key other rest subset member
    rcases changed member with inRest | old
    · exact .inl ⟨key, subset inRest⟩
    · exact .inl ⟨other, old⟩
  cases move with
  | accept key =>
    rcases live with ⟨other, queued⟩ | held
    · rcases changed queued with inRest | old
      · rcases mem_append.mp inRest with before | isNew
        · exact .inl (.inl ⟨key, before⟩)
        · exact .inr (mem_singleton.mp isNew).ge
      · exact .inl (.inl ⟨other, old⟩)
    · exact .inl (.inr held)
  | pop key records rest front idle noneTaken =>
    left
    rcases live with ⟨other, queued⟩ | ⟨parcel, held, inside⟩
    · exact shorter (front ▸ subset_append_right records rest) queued
    · rcases Multiset.mem_cons.mp held with isNew | old
      · subst isNew
        exact .inl ⟨key, front ▸ mem_append_left rest inside⟩
      · exact .inr ⟨parcel, old, inside⟩
  | requeue key records others held noneTaken back =>
    left
    rcases live with ⟨other, queued⟩ | ⟨parcel, member, inside⟩
    · rcases changed queued with inRest | old
      · rcases mem_append.mp inRest with returnedRecord | before
        · exact .inr ⟨_, held ▸ Multiset.mem_cons_self _ _, returnedRecord⟩
        · exact .inl ⟨key, before⟩
      · exact .inl ⟨other, old⟩
    · exact .inr ⟨parcel, held ▸ Multiset.mem_cons_of_mem member, inside⟩
  | take key records rest front =>
    left
    rcases live with ⟨other, queued⟩ | held
    · exact shorter (front ▸ subset_append_right records rest) queued
    · exact .inr held
  | failQueued key lost kept parts order =>
    left
    rcases live with ⟨other, queued⟩ | held
    · exact shorter order.subset queued
    · exact .inr held
  | ack key records others held | fail key records others held =>
    left
    rcases live with queued | ⟨parcel, member, inside⟩
    · exact .inl queued
    · exact .inr ⟨parcel, held ▸ Multiset.mem_cons_of_mem member, inside⟩
  | stay | finish | failTaken => exact .inl live

theorem Move.length_le
    (move : Move returned before after) : before.owner.length ≤ after.owner.length := by
  cases move with
  | accept key => simp
  | _ => exact Nat.le_refl _

/-- A move that gives nothing back is one that may give something back. -/
theorem Move.weaken (move : Move none before after) : Move returned before after := by
  cases move with
  | requeue key records others held noneTaken back => cases back
  | _ => constructor <;> assumption

/-! ## What soundness says about one record -/

def Held (ledger : Ledger Key) (record : Nat) : Prop :=
  (Exists fun key => record ∈ ledger.queue key) ∨ record ∈ ledger.taken ∨
    Exists fun parcel => parcel ∈ ledger.drained ∧ record ∈ parcel.2

namespace Sound

variable {ledger : Ledger Key} (sound : ledger.Sound)

include sound

variable {record : Nat}

theorem lt_of_resolved (resolved : record ∈ ledger.acked ++ ledger.failed) :
    record < ledger.owner.length :=
  sound.bounded record (mem_append_left _ resolved)

variable {key : Key} {records : List Nat}

/-- The records of one key are accepted once, so they are accounted for once. -/
theorem accounts_nodup (holds : ledger.Holds key records) :
    (ledger.ofKey key ledger.acked ++
      (ledger.ofKey key ledger.failed ++ ledger.pending key records)).Nodup :=
  (sound.accounts key records holds).complete.nodup_iff.mp (List.Nodup.filter _ nodup_range)

/-- No record is resolved twice. -/
theorem resolved_nodup : (ledger.acked ++ ledger.failed).Nodup := by
  apply nodup_iff_count_le_one.mpr
  intro record
  by_cases resolved : record ∈ ledger.acked ++ ledger.failed
  · obtain ⟨key, owned⟩ : Exists fun key => ledger.owner[record]? = some key :=
      ⟨_, getElem?_eq_getElem (sound.lt_of_resolved resolved)⟩
    obtain ⟨records, holds⟩ := ledger.exists_holds key
    have once := sound.accounts_nodup holds
    rw [← append_assoc, ← ofKey_append] at once
    have counted := nodup_iff_count_le_one.mp (List.Nodup.of_append_left once) record
    rwa [ofKey, count_filter (by simpa using owned)] at counted
  · rw [count_eq_zero_of_not_mem resolved]
    exact Nat.zero_le 1

theorem pending_of_held (held : ledger.Held record) :
    Exists fun key => Exists fun records => ledger.Holds key records ∧
      record ∈ ledger.pending key records := by
  rcases held with ⟨key, queued⟩ | taken | ⟨⟨key, records⟩, drained, member⟩
  · obtain ⟨records, holds⟩ := ledger.exists_holds key
    exact ⟨key, records, holds, by simp [pending, queued]⟩
  · have inside := sound.bounded record (mem_append_right _ taken)
    obtain ⟨records, holds⟩ := ledger.exists_holds ledger.owner[record]
    refine ⟨_, records, holds, ?_⟩
    simp [pending, mem_ofKey, taken, getElem?_eq_getElem inside]
  · exact ⟨key, records, .inl drained, mem_append_left _ member⟩

theorem not_held_of_resolved (resolved : record ∈ ledger.acked ++ ledger.failed) :
    ¬ ledger.Held record := by
  intro held
  obtain ⟨key, records, holds, member⟩ := sound.pending_of_held held
  have owned := sound.owner_of_pending holds member
  have once := sound.accounts_nodup holds
  rw [← append_assoc, ← ofKey_append] at once
  exact (disjoint_of_nodup_append once) (mem_ofKey.mpr ⟨resolved, owned⟩) member

theorem resolved_or_held (accepted : record < ledger.owner.length) :
    record ∈ ledger.acked ++ ledger.failed ∨ ledger.Held record := by
  obtain ⟨records, holds⟩ := ledger.exists_holds ledger.owner[record]
  have member : record ∈ ledger.ofKey ledger.owner[record] (List.range ledger.owner.length) := by
    simp [mem_ofKey, accepted]
  rw [(sound.accounts _ _ holds).complete.mem_iff, ← append_assoc, ← ofKey_append,
    mem_append, mem_ofKey] at member
  rcases member with resolved | held
  · exact .inl resolved.1
  · right
    rw [pending, mem_append, mem_append, mem_ofKey] at held
    rcases held with drained | taken | queued
    · rcases holds with parcel | empty
      · exact .inr (.inr ⟨_, parcel, drained⟩)
      · rw [empty.1] at drained
        cases drained
    · exact .inr (.inl taken.1)
    · exact .inl ⟨_, queued⟩

/-- The acknowledged records of a key are in the order they were accepted. -/
theorem acked_ordered (key : Key) : (ledger.ofKey key ledger.acked).Pairwise (· < ·) := by
  rcases ledger.exists_holds key with ⟨records, holds⟩
  exact (pairwise_append.mp (sound.accounts key records holds).ordered).1

theorem parcel_ordered (held : (key, records) ∈ ledger.drained) :
    records.Pairwise (· < ·) := by
  have pending := (pairwise_append.mp (sound.accounts key records (.inl held)).ordered).2.1
  exact (pairwise_append.mp pending).1

/-- What was accepted before a record of a parcel is resolved, or in the parcel. -/
theorem before_parcel (held : (key, records) ∈ ledger.drained)
    {early late : Nat} (member : late ∈ records) (earlier : early < late)
    (owned : ledger.owner[early]? = some key) :
    early ∈ ledger.acked ++ ledger.failed ∨ early ∈ records := by
  have accounts := sound.accounts key records (.inl held)
  have inside : early < ledger.owner.length := (List.getElem?_eq_some_iff.mp owned).1
  have accounted : early ∈ ledger.ofKey key (List.range ledger.owner.length) :=
    mem_ofKey.mpr ⟨mem_range.mpr inside, owned⟩
  rw [accounts.complete.mem_iff, ← append_assoc, ← ofKey_append, mem_append] at accounted
  rcases accounted with resolved | held
  · exact .inl (mem_ofKey.mp resolved).1
  rcases mem_append.mp held with here | behind
  · exact .inr here
  · have pendingOrder := (pairwise_append.mp accounts.ordered).2.1
    have later := (pairwise_append.mp pendingOrder).2.2 late member early behind
    exact absurd earlier (Nat.lt_asymm later)

end Sound

end Ledger

end Collections
end Krabka
