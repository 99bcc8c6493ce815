import Krabka.Assignor.Model

namespace Krabka
namespace Assignor

open Collections List SortedMap Buckets

/-!
# Ownership claims and previous owners

The claims of all members leave at most one owner for each partition, and that
owner is a member that subscribes to the topic.  The assignment that both
paths start from is therefore a distribution of the claimed partitions.
-/

def Subscribed (subs : Subscriptions) (id topic : String) : Prop :=
  Exists fun topics => subs.get? id = some topics ∧ topics.contains topic = true

def InRange (topicPartitions : TopicPartitions) (tp : TopicPartition) : Prop :=
  Exists fun count => topicPartitions.get? tp.topic = some count ∧
    0 ≤ tp.partition ∧ tp.partition < count

/-- The member may hold the partition. -/
def Eligible (subs : Subscriptions) (topicPartitions : TopicPartitions) (id : String)
    (tp : TopicPartition) : Prop :=
  Subscribed subs id tp.topic ∧ InRange topicPartitions tp

theorem sorted_perm {Value : Type} [LinearOrder Value] (values : List Value) :
    (sorted values).Perm values :=
  perm_insertionSort _ values

theorem sorted_eq_of_perm {Value : Type} [LinearOrder Value] {left right : List Value}
    (same : left.Perm right) : sorted left = sorted right :=
  List.Perm.eq_of_pairwise (fun _ _ _ _ => le_antisymm)
    (pairwise_insertionSort _ left) (pairwise_insertionSort _ right)
    ((sorted_perm left).trans (same.trans (sorted_perm right).symm))

/-! ## Subscriptions -/

variable {members : List MemberInput}

section

variable {member : MemberInput} (distinct : (members.map MemberInput.id).Nodup)
  (isMember : member ∈ members)

include distinct isMember

theorem subscriptionsOf_get? :
    (subscriptionsOf members).get? member.id = some (SortedSet.ofValues member.subscribed) := by
  apply get?_ofList_of_mem
  · rw [map_map]
    exact distinct
  · exact mem_map.mpr ⟨member, isMember, rfl⟩

theorem subscribed_iff (topic : String) :
    Subscribed (subscriptionsOf members) member.id topic <-> topic ∈ member.subscribed := by
  rw [Subscribed, subscriptionsOf_get? distinct isMember]
  constructor
  · rintro ⟨topics, same, inside⟩
    rw [← Option.some.inj same] at inside
    exact (SortedSet.contains_ofValues _ _).mp inside
  · intro listed
    exact ⟨_, rfl, (SortedSet.contains_ofValues _ _).mpr listed⟩

end

variable {id : String}

theorem mem_ids_of_subscribed {topic : String}
    (subscribed : Subscribed (subscriptionsOf members) id topic) :
    id ∈ members.map MemberInput.id := by
  rcases subscribed with ⟨topics, found, _⟩
  have known : (subscriptionsOf members).contains id = true := by
    rw [SortedMap.contains, found]
    rfl
  have listed := (contains_ofList _ _).mp known
  rw [map_map] at listed
  exact listed

/-! ## The best claim on a partition -/

variable {tp : TopicPartition}

variable {topicPartitions : TopicPartitions}

/-- A claim that counts: not stale, of a subscribed member. -/
theorem claimOwned_of_eligible {idSubs : SortedSet String} (inRange : InRange topicPartitions tp)
    (subscribed : idSubs.contains tp.topic = true) (id : String) (generation : Int) (best : Claims) :
    claimOwned topicPartitions idSubs id generation best tp =
      recordClaim best id generation tp := by
  rcases inRange with ⟨count, found, lower, upper⟩
  unfold claimOwned
  rw [found]
  dsimp only
  rw [if_neg (by omega), subscribed]
  rfl

/-- A claim either does not count, or is recorded. -/
theorem claimOwned_cases (topicPartitions : TopicPartitions) (idSubs : SortedSet String)
    (id : String) (generation : Int) (best : Claims) (tp : TopicPartition) :
    claimOwned topicPartitions idSubs id generation best tp = best ∨
      (InRange topicPartitions tp ∧ idSubs.contains tp.topic = true ∧
        claimOwned topicPartitions idSubs id generation best tp =
          recordClaim best id generation tp) := by
  cases found : topicPartitions.get? tp.topic with
  | none =>
    unfold claimOwned
    rw [found]
    exact .inl rfl
  | some count =>
    by_cases outside : tp.partition < 0 ∨ tp.partition ≥ count
    · unfold claimOwned
      rw [found]
      exact .inl (if_pos outside)
    · have inRange : InRange topicPartitions tp := ⟨count, found, by omega, by omega⟩
      cases subscribed : idSubs.contains tp.topic with
      | true =>
        exact .inr ⟨inRange, rfl, claimOwned_of_eligible inRange subscribed id generation best⟩
      | false =>
        unfold claimOwned
        rw [found]
        dsimp only
        rw [if_neg outside, subscribed]
        exact .inl rfl

theorem recordClaim_get?_of_ne (best : Claims) (id : String) (generation : Int)
    {other : TopicPartition} (different : other ≠ tp) :
    (recordClaim best id generation tp).get? other = best.get? other := by
  unfold recordClaim
  cases best.get? tp with
  | none => exact get?_insert_of_ne _ _ different
  | some existing =>
    dsimp only
    split_ifs
    · exact get?_insert_of_ne _ _ different
    · exact get?_insert_of_ne _ _ different
    · rfl

/-- After a claim the owner is the claiming member or the owner before. -/
theorem recordClaim_owner {best : Claims} {generation : Int} {claim : Claim}
    (found : (recordClaim best id generation tp).get? tp = some claim) :
    claim.owner = id ∨
      Exists fun existing => best.get? tp = some existing ∧ claim.owner = existing.owner := by
  unfold recordClaim at found
  cases before : best.get? tp with
  | none =>
    rw [before] at found
    rw [get?_insert_self] at found
    exact .inl (Option.some.inj found ▸ rfl)
  | some existing =>
    rw [before] at found
    dsimp only at found
    split_ifs at found
    · rw [get?_insert_self] at found
      exact .inl (Option.some.inj found ▸ rfl)
    · rw [get?_insert_self] at found
      exact .inr ⟨existing, rfl, Option.some.inj found ▸ rfl⟩
    · rw [before] at found
      exact .inr ⟨existing, rfl, Option.some.inj found ▸ rfl⟩

/-- Every recorded owner may hold its partition. -/
def ClaimsEligible (eligible : String -> TopicPartition -> Prop) (best : Claims) : Prop :=
  forall tp claim, best.get? tp = some claim -> eligible claim.owner tp

section ClaimAll

variable {subs : Subscriptions} {topicPartitions : TopicPartitions}
  {eligible : String -> TopicPartition -> Prop}

theorem subscribed_of_contains {topic : String}
    (listed : ((subs.get? id).getD SortedMap.empty).contains topic = true) :
    Subscribed subs id topic := by
  cases topics : subs.get? id with
  | none =>
    rw [topics] at listed
    cases listed
  | some known =>
    rw [topics] at listed
    exact ⟨known, topics, listed⟩

theorem claimOwned_eligible {best : Claims} (generation : Int)
    (allowed : Eligible subs topicPartitions id tp -> eligible id tp)
    (sound : ClaimsEligible eligible best) :
    ClaimsEligible eligible
      (claimOwned topicPartitions ((subs.get? id).getD SortedMap.empty) id generation best tp) := by
  rcases claimOwned_cases topicPartitions ((subs.get? id).getD SortedMap.empty) id generation best
      tp with ignored | ⟨inRange, subscribed, recorded⟩
  · rw [ignored]
    exact sound
  · rw [recorded]
    intro other claim found
    by_cases same : other = tp
    · subst same
      rcases recordClaim_owner found with new | ⟨existing, before, old⟩
      · exact new ▸ allowed ⟨subscribed_of_contains subscribed, inRange⟩
      · exact old ▸ sound other existing before
    · rw [recordClaim_get?_of_ne best id generation same] at found
      exact sound other claim found

/-- What holds of every claim that counts holds of every recorded owner. -/
theorem claimAll_of_each (each : forall member, member ∈ members -> forall tp, tp ∈ member.owned ->
      Eligible subs topicPartitions member.id tp -> eligible member.id tp) :
    ClaimsEligible eligible (claimAll members subs topicPartitions) := by
  have oneMember (id : String) (generation : Int) (owned : List TopicPartition)
      (allowed : forall tp, tp ∈ owned -> Eligible subs topicPartitions id tp -> eligible id tp)
      (best : Claims) (sound : ClaimsEligible eligible best) :
      ClaimsEligible eligible (owned.foldl
        (claimOwned topicPartitions ((subs.get? id).getD SortedMap.empty) id generation) best) := by
    induction owned generalizing best with
    | nil => exact sound
    | cons tp rest ih =>
      exact ih (fun later member => allowed later (.tail tp member))
        _ (claimOwned_eligible generation (allowed tp (.head _)) sound)
  have allMembers (remaining : List MemberInput) (known : remaining ⊆ members) (best : Claims)
      (sound : ClaimsEligible eligible best) :
      ClaimsEligible eligible (remaining.foldl (fun best member =>
        member.owned.foldl (claimOwned topicPartitions
          ((subs.get? member.id).getD SortedMap.empty) member.id member.generation) best) best) := by
    induction remaining generalizing best with
    | nil => exact sound
    | cons member rest ih =>
      exact ih (fun other later => known (.tail member later)) _
        (oneMember member.id member.generation member.owned
          (each member (known (.head _))) best sound)
  exact allMembers members (fun _ => id) SortedMap.empty (fun tp claim found => by cases found)

theorem claimAll_eligible (members : List MemberInput) (subs : Subscriptions)
    (topicPartitions : TopicPartitions) :
    ClaimsEligible (Eligible subs topicPartitions) (claimAll members subs topicPartitions) :=
  claimAll_of_each fun _ _ _ _ => id

end ClaimAll

/-! ## The assignment that the paths start from -/

def untiedPartitions (best : Claims) : List TopicPartition :=
  (best.entries.filter (fun entry => !entry.2.tied)).map Prod.fst

def OwnsClaim (best : Claims) (id : String) (tp : TopicPartition) : Prop :=
  Exists fun claim => best.get? tp = some claim ∧ claim.owner = id ∧ claim.tied = false

private theorem pushUntied_distributes {eligible : String -> TopicPartition -> Prop}
    {ids : List String} (entries : List (TopicPartition × Claim)) {work : List TopicPartition}
    {out : Assignment}
    (owners : forall entry, entry ∈ entries -> entry.2.tied = false ->
      entry.2.owner ∈ ids ∧ eligible entry.2.owner entry.1)
    (distributes : Distributes eligible ids work out) :
    Distributes eligible ids (work ++ (entries.filter (fun entry => !entry.2.tied)).map Prod.fst)
      (entries.foldl (fun (out : Assignment) entry =>
        if entry.2.tied then out else out.push entry.2.owner entry.1) out) := by
  induction entries generalizing work out with
  | nil => simpa using distributes
  | cons entry rest ih =>
    have later := fun other member => owners other (.tail entry member)
    rw [foldl_cons]
    cases tied : entry.2.tied with
    | true =>
      rw [if_pos rfl, filter_cons_of_neg (by simp [tied])]
      exact ih later distributes
    | false =>
      rw [if_neg Bool.false_ne_true, filter_cons_of_pos (by simp [tied])]
      have here := owners entry (.head _) tied
      exact (ih later (distributes.push here.1 here.2)).perm perm_middle.symm

theorem prepopulate_distributes (members : List MemberInput) (topicPartitions : TopicPartitions) :
    let subs := subscriptionsOf members
    let best := claimAll members subs topicPartitions
    Distributes (OwnsClaim best) (members.map MemberInput.id) (untiedPartitions best)
      (prepopulateCurrentAssignments members subs topicPartitions) := by
  intro subs best
  refine Distributes.mapValues ?_ sorted sorted_perm
  have start := Distributes.ofKeys (OwnsClaim best) (members.map MemberInput.id)
  have pushed := pushUntied_distributes best.entries ?_ start
  · exact pushed
  · intro entry member untied
    have found := (best.mem_entries_iff entry.1 entry.2).mp member
    have eligible := claimAll_eligible members subs topicPartitions entry.1 entry.2 found
    exact ⟨mem_ids_of_subscribed eligible.1, entry.2, found, rfl, untied⟩

theorem OwnsClaim.eligible
    (owns : OwnsClaim (claimAll members (subscriptionsOf members) topicPartitions) id tp) :
    Eligible (subscriptionsOf members) topicPartitions id tp := by
  rcases owns with ⟨claim, found, same, _⟩
  exact same ▸ claimAll_eligible members _ topicPartitions tp claim found

/-- What both paths need to know about the assignment they start from. -/
structure ValidCurrent (subs : Subscriptions) (topicPartitions : TopicPartitions)
    (current : Assignment) : Prop where
  distinct : current.items.Nodup
  eligible : forall id tp, tp ∈ current.bucket id -> Eligible subs topicPartitions id tp

theorem prepopulate_valid (members : List MemberInput) (topicPartitions : TopicPartitions) :
    ValidCurrent (subscriptionsOf members) topicPartitions
      (prepopulateCurrentAssignments members (subscriptionsOf members) topicPartitions) where
  distinct := (prepopulate_distributes members topicPartitions).nodup
    ((SortedMap.keys_nodup _).sublist (filter_sublist.map Prod.fst))
  eligible := fun id tp held =>
    ((prepopulate_distributes members topicPartitions).eligible id tp held).eligible

/-! ## Previous owners -/

/-- The partitions of an assignment with their holders, holder after holder. -/
def ownerPairs (assignment : Assignment) : List (TopicPartition × String) :=
  assignment.entries.flatMap (fun entry => entry.2.map (fun tp => (tp, entry.1)))

theorem map_fst_ownerPairs (assignment : Assignment) :
    (ownerPairs assignment).map Prod.fst = assignment.items := by
  rw [ownerPairs, map_flatMap, items]
  simp only [map_map]
  congr 1
  funext entry
  exact map_id entry.2

theorem mem_ownerPairs (assignment : Assignment) (tp : TopicPartition) (id : String) :
    (tp, id) ∈ ownerPairs assignment <-> tp ∈ assignment.bucket id := by
  unfold ownerPairs bucket
  rw [mem_flatMap]
  constructor
  · rintro ⟨⟨holder, parts⟩, stored, inside⟩
    rcases mem_map.mp inside with ⟨held, inParts, equal⟩
    have pair := Prod.mk.inj equal
    rw [← pair.1, ← pair.2, (assignment.mem_entries_iff holder parts).mp stored]
    exact inParts
  · intro held
    cases found : assignment.get? id with
    | none =>
      rw [found] at held
      cases held
    | some parts =>
      rw [found] at held
      exact ⟨(id, parts), (assignment.mem_entries_iff id parts).mpr found,
        mem_map.mpr ⟨tp, held, rfl⟩⟩

theorem previousOwners_eq_ofList (current : Assignment) :
    previousOwners current = SortedMap.ofList (ownerPairs current) := by
  unfold previousOwners ownerPairs SortedMap.ofList
  rw [foldl_flatMap]
  simp only [foldl_map]

theorem previousOwners_get? {current : Assignment} (distinct : current.items.Nodup)
    (held : tp ∈ current.bucket id) :
    (previousOwners current).get? tp = some id := by
  rw [previousOwners_eq_ofList]
  apply get?_ofList_of_mem
  · rw [map_fst_ownerPairs]
    exact distinct
  · exact (mem_ownerPairs current tp id).mpr held

theorem mem_of_previousOwners {current : Assignment}
    (found : (previousOwners current).get? tp = some id) : tp ∈ current.bucket id := by
  rw [previousOwners_eq_ofList] at found
  exact (mem_ownerPairs current tp id).mp (mem_of_get?_ofList found)

end Assignor
end Krabka
