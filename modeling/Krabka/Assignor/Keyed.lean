import Krabka.Assignor.Constrained

namespace Krabka
namespace Assignor

open Collections Buckets

/-!
# Members in the order of their keys

The range and the round robin assignor both sort the members first: static
members by `group.instance.id`, then dynamic members by member id.  The sort is
stable, so the order of two members whose keys compare equal is the input order.
-/

/-- The identity by which members are sorted. -/
structure MemberKey where
  memberId : String
  groupInstanceId : Option String
deriving DecidableEq, Repr

namespace MemberKey

def cmp (left right : MemberKey) : Ordering :=
  match left.groupInstanceId, right.groupInstanceId with
  | some a, some b => compare a b
  | some _, none => .lt
  | none, some _ => .gt
  | none, none => compare left.memberId right.memberId

/-- The pair that decides the order: static members first. -/
def rank (key : MemberKey) : Bool ×ₗ String :=
  toLex (key.groupInstanceId.isNone, key.groupInstanceId.getD key.memberId)

theorem compare_isLE (left right : String) : (compare left right).isLE = true <-> left ≤ right :=
  Std.LawfulBCmp.isLE_iff_le

theorem cmp_isLE (left right : MemberKey) :
    (left.cmp right).isLE = true <-> left.rank ≤ right.rank := by
  rcases left with ⟨leftId, leftInstance⟩
  rcases right with ⟨rightId, rightInstance⟩
  rw [rank, rank, Prod.Lex.toLex_le_toLex]
  cases leftInstance with
  | none =>
    cases rightInstance with
    | none => simp [cmp, compare_isLE]
    | some _ => simp [cmp]
  | some _ =>
    cases rightInstance with
    | none => simp [cmp]
    | some _ => simp [cmp, compare_isLE]

end MemberKey

/-- A member with its subscription. -/
structure KeyedMember where
  key : MemberKey
  topics : List String
deriving DecidableEq, Repr

namespace KeyedMember

def id (member : KeyedMember) : String := member.key.memberId

/-- The members whose keys sort up to that of another. -/
def Before (left right : KeyedMember) : Prop := (left.key.cmp right.key).isLE = true

instance : DecidableRel Before := fun _ _ => inferInstanceAs (Decidable (_ = true))

instance : Std.Total Before where
  total left right := by
    unfold Before
    rw [MemberKey.cmp_isLE, MemberKey.cmp_isLE]
    exact le_total _ _

instance : IsTrans KeyedMember Before where
  trans first second third := by
    unfold Before
    rw [MemberKey.cmp_isLE, MemberKey.cmp_isLE, MemberKey.cmp_isLE]
    exact le_trans

end KeyedMember

/-- `members.sort_by(|(a, _), (b, _)| a.cmp(b))`. -/
def sortMembers (members : List KeyedMember) : List KeyedMember :=
  members.insertionSort KeyedMember.Before

def DistinctInstances (members : List KeyedMember) : Prop :=
  forall left, left ∈ members -> forall right, right ∈ members ->
    left.key.groupInstanceId.isSome = true ->
      left.key.groupInstanceId = right.key.groupInstanceId -> left.id = right.id

instance (members : List KeyedMember) : Decidable (DistinctInstances members) := by
  unfold DistinctInstances
  infer_instance

theorem sortMembers_perm (members : List KeyedMember) : (sortMembers members).Perm members :=
  List.perm_insertionSort _ members

theorem sortMembers_eq_of_perm {left right : List KeyedMember}
    (distinct : (left.map KeyedMember.id).Nodup)
    (instances : DistinctInstances left)
    (same : left.Perm right) : sortMembers left = sortMembers right := by
  refine List.Perm.eq_of_pairwise ?_ (List.pairwise_insertionSort _ left)
    (List.pairwise_insertionSort _ right)
    ((sortMembers_perm left).trans (same.trans (sortMembers_perm right).symm))
  intro first second isFirst isSecond before after
  have inFirst := (sortMembers_perm left).mem_iff.mp isFirst
  have inSecond := same.mem_iff.mpr ((sortMembers_perm right).mem_iff.mp isSecond)
  refine List.inj_on_of_nodup_map distinct inFirst inSecond ?_
  unfold KeyedMember.Before at before after
  rw [MemberKey.cmp_isLE] at before after
  have sameRank := ofLex_inj.mpr (le_antisymm before after)
  have parts := Prod.mk.inj sameRank
  cases firstStatic : first.key.groupInstanceId with
  | none =>
    have secondDynamic : second.key.groupInstanceId = none := by
      rw [firstStatic] at parts
      exact Option.isNone_iff_eq_none.mp parts.1.symm
    rw [firstStatic, secondDynamic] at parts
    exact parts.2
  | some name =>
    have secondStatic : second.key.groupInstanceId = some name := by
      rw [firstStatic] at parts
      cases secondCase : second.key.groupInstanceId with
      | none =>
        rw [secondCase] at parts
        cases parts.1
      | some other =>
        rw [secondCase] at parts
        exact congrArg some parts.2.symm
    refine instances first inFirst second inSecond ?_ (firstStatic.trans secondStatic.symm)
    rw [firstStatic]
    rfl

def subscribersOf (members : List KeyedMember) (topic : String) : List String :=
  (members.filter fun member => topic ∈ member.topics).map KeyedMember.id

/-- Push to the list of `member`, when there is one. -/
def giveTo (out : Assignment) (member : String) (tp : TopicPartition) : Assignment :=
  match out.get? member with
  | some slot => out.insert member (slot ++ [tp])
  | none => out

variable {out : Assignment}

theorem giveTo_eq_push {member : String} (known : out.contains member = true) (tp : TopicPartition) :
    giveTo out member tp = out.push member tp := by
  rw [giveTo, get?_eq_bucket known]
  rfl

/-! ## Exactly once -/

def SubscribesTo (members : List KeyedMember) (id : String) (tp : TopicPartition) : Prop :=
  Exists fun member => member ∈ members ∧ member.id = id ∧ tp.topic ∈ member.topics

def Wanted (members : List KeyedMember) (topicPartitions : TopicPartitions)
    (tp : TopicPartition) : Prop :=
  (Exists fun member => member ∈ members ∧ tp.topic ∈ member.topics) ∧
    InRange topicPartitions tp

/-- Every wanted partition is with one subscriber, once, and nothing else is
with anyone. -/
structure SpreadsOnce (members : List KeyedMember) (topicPartitions : TopicPartitions)
    (out : Assignment) : Prop where
  holder : forall tp, Wanted members topicPartitions tp ->
    Exists fun owner => owner ∈ members ∧ tp.topic ∈ owner.topics ∧
      (Exists fun parts => out.get? owner.id = some parts ∧ parts.count tp = 1) ∧
      forall id parts, id ≠ owner.id -> out.get? id = some parts -> tp ∉ parts
  only : forall id parts tp, out.get? id = some parts -> tp ∈ parts ->
    Wanted members topicPartitions tp
  everyMember : forall member, member ∈ members -> (out.get? member.id).isSome = true

variable {work : List TopicPartition}

theorem SpreadsOnce.of_distributes {members : List KeyedMember} {topicPartitions : TopicPartitions}
    (distributes : Distributes (SubscribesTo members) (members.map KeyedMember.id)
      work out) (distinct : work.Nodup)
    (isWork : forall tp, tp ∈ work <-> Wanted members topicPartitions tp) :
    SpreadsOnce members topicPartitions out where
  holder := by
    intro tp wanted
    rcases distributes.exists_holder distinct ((isWork tp).mpr wanted) with
      ⟨id, isKey, ⟨owner, isMember, rfl, subscribes⟩, once, others⟩
    refine ⟨owner, isMember, subscribes, ⟨_, ?_, once⟩, ?_⟩
    · exact get?_eq_bucket ((distributes.keyed owner.id).mpr isKey)
    · intro id parts different found held
      refine others id different ?_
      rw [bucket, found]
      exact held
  only := by
    intro id parts tp found held
    refine (isWork tp).mp ((distributes.mem_work_iff tp).mpr ⟨id, ?_⟩)
    rw [bucket, found]
    exact held
  everyMember := by
    intro member isMember
    exact (distributes.keyed member.id).mpr (List.mem_map.mpr ⟨member, isMember, rfl⟩)

section Reordered

variable {left right : List KeyedMember}

theorem wanted_iff_of_perm (same : left.Perm right) (topicPartitions : TopicPartitions)
    (tp : TopicPartition) :
    Wanted left topicPartitions tp <-> Wanted right topicPartitions tp := by
  unfold Wanted
  simp only [same.mem_iff]

/-- A distribution over the members in one order is one in every order. -/
theorem distributes_reorder
    (distributes : Distributes (SubscribesTo left) (left.map KeyedMember.id) work out)
    (same : left.Perm right) :
    Distributes (SubscribesTo right) (right.map KeyedMember.id) work out where
  keyed := by
    intro id
    rw [distributes.keyed, (same.map KeyedMember.id).mem_iff]
  items := distributes.items
  eligible := by
    intro id tp held
    simpa only [SubscribesTo, same.mem_iff] using distributes.eligible id tp held

end Reordered

end Assignor
end Krabka
