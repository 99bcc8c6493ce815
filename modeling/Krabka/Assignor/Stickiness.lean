import Krabka.Assignor.Balancing
import Krabka.Assignor.Quota
import Krabka.Assignor.Sticky
import Mathlib.Data.Finset.Max

namespace Krabka
namespace Assignor

open Collections List Buckets

/-!
# What a member keeps

A member owns a partition validly and uniquely when its claim counts and no other claim of the
same or a later generation does.  These are the partitions that both paths start from.  The
constrained path lets a member keep them up to the rounded down share.

In a settled group nothing has to move.  The constrained path then keeps everything.  The general
path places all partitions anew, in the order of rarity, and keeps an owner only if it is a least
loaded subscriber at that moment.  It therefore keeps everything when the owners lead
(`OwnersLead`), and there is a settled group where it does not.
-/

/-! ## Claims that count -/

instance (topicPartitions : TopicPartitions) (tp : TopicPartition) :
    Decidable (InRange topicPartitions tp) :=
  decidable_of_iff ((topicPartitions.get? tp.topic).any fun count =>
    decide (0 ≤ tp.partition ∧ tp.partition < count)) (by
      rw [Option.any_eq_true]
      simp only [decide_eq_true_iff, InRange])

def MemberInput.validOwned (member : MemberInput) (topicPartitions : TopicPartitions) :
    List TopicPartition :=
  member.owned.filter fun tp => tp.topic ∈ member.subscribed ∧ InRange topicPartitions tp

variable {tp : TopicPartition} {topicPartitions : TopicPartitions}

theorem MemberInput.mem_validOwned {member : MemberInput} :
    tp ∈ member.validOwned topicPartitions <->
      tp ∈ member.owned ∧ tp.topic ∈ member.subscribed ∧ InRange topicPartitions tp := by
  rw [validOwned, mem_filter, decide_eq_true_iff]

structure OwnsUniquely (members : List MemberInput) (topicPartitions : TopicPartitions)
    (owner : MemberInput) (tp : TopicPartition) : Prop where
  valid : tp ∈ owner.validOwned topicPartitions
  once : owner.owned.count tp = 1
  highest : forall other, other ∈ members -> other.id ≠ owner.id ->
    tp ∈ other.validOwned topicPartitions -> other.generation < owner.generation

structure Ranked (tp : TopicPartition) (claims : List (String × Int)) (best : Claims) : Prop where
  none : best.get? tp = none -> claims = []
  highest : forall claim, best.get? tp = some claim -> forall other, other ∈ claims ->
    other.2 ≤ claim.generation
  untied : forall claim, best.get? tp = some claim -> claim.tied = false ->
    claims.filter (fun other => other.2 = claim.generation) = [(claim.owner, claim.generation)]

section Ranked

variable {topicPartitions : TopicPartitions} {tp : TopicPartition} {claims : List (String × Int)}
  {best next : Claims}

theorem Ranked.of_get?_eq (ranked : Ranked tp claims best) (same : next.get? tp = best.get? tp) :
    Ranked tp claims next := by
  rcases ranked with ⟨none, highest, untied⟩
  rw [<- same] at none highest untied
  exact ⟨none, highest, untied⟩

theorem Ranked.record (ranked : Ranked tp claims best) (id : String) (generation : Int) :
    Ranked tp (claims ++ [(id, generation)]) (recordClaim best id generation tp) := by
  -- The best claim is stored, and is what the three cases of the source leave.
  have stored {claim : Claim} (found : (recordClaim best id generation tp).get? tp = some claim)
      (highest : forall other, other ∈ claims ++ [(id, generation)] -> other.2 ≤ claim.generation)
      (untied : claim.tied = false -> (claims ++ [(id, generation)]).filter
        (fun other => other.2 = claim.generation) = [(claim.owner, claim.generation)]) :
      Ranked tp (claims ++ [(id, generation)]) (recordClaim best id generation tp) := by
    refine ⟨fun none => ?_, fun other isOther => ?_, fun other isOther => ?_⟩
    · rw [found] at none
      cases none
    · cases found.symm.trans isOther
      exact highest
    · cases found.symm.trans isOther
      exact untied
  cases before : best.get? tp with
  | none =>
    have noClaims := ranked.none before
    refine @stored ⟨generation, id, false⟩ ?_ ?_ fun _ => ?_
    · rw [recordClaim, before]
      exact SortedMap.get?_insert_self _ _ _
    · simp [noClaims]
    · simp [noClaims]
  | some existing =>
    have highest := ranked.highest existing before
    have atMost {bound : Int} (old : existing.generation ≤ bound) (new : generation ≤ bound) :
        forall other, other ∈ claims ++ [(id, generation)] -> other.2 ≤ bound := by
      intro other member
      rcases mem_append.mp member with earlier | last
      · exact (highest other earlier).trans old
      · exact mem_singleton.mp last ▸ new
    rcases Int.lt_trichotomy existing.generation generation with higher | same | lower
    · refine @stored ⟨generation, id, false⟩ ?_ (atMost (Int.le_of_lt higher) (Int.le_refl _))
        fun _ => ?_
      · rw [recordClaim, before]
        dsimp only
        rw [if_pos higher]
        exact SortedMap.get?_insert_self _ _ _
      · have noneBefore : claims.filter (fun other => decide (other.2 = generation)) = [] :=
          filter_eq_nil_iff.mpr fun other member isSame =>
            Int.not_le.mpr higher ((of_decide_eq_true isSame) ▸ highest other member)
        rw [filter_append, noneBefore]
        simp
    · refine @stored { existing with tied := true } ?_
        (atMost (Int.le_refl _) (Int.le_of_eq same.symm)) nofun
      rw [recordClaim, before]
      dsimp only
      rw [if_neg (by omega), if_pos same.symm]
      exact SortedMap.get?_insert_self _ _ _
    · refine @stored existing ?_ (atMost (Int.le_refl _) (Int.le_of_lt lower)) fun isUntied => ?_
      · rw [recordClaim, before]
        dsimp only
        rw [if_neg (by omega), if_neg (by omega)]
        exact before
      · rw [filter_append, ranked.untied existing before isUntied,
          filter_cons_of_neg (by simpa using ne_of_lt lower), filter_nil,
          append_nil]

def MemberInput.claimsOn (member : MemberInput) (topicPartitions : TopicPartitions)
    (tp : TopicPartition) : List (String × Int) :=
  List.replicate ((member.validOwned topicPartitions).count tp) (member.id, member.generation)

theorem MemberInput.mem_claimsOn {member : MemberInput} {pair : String × Int} :
    pair ∈ member.claimsOn topicPartitions tp <->
      tp ∈ member.validOwned topicPartitions ∧ pair = (member.id, member.generation) := by
  rw [claimsOn, mem_replicate, <- pos_iff_ne_zero, count_pos_iff]

theorem Ranked.member {member : MemberInput} {idSubs : SortedSet String}
    (subscribed : forall topic, idSubs.contains topic = true <-> topic ∈ member.subscribed)
    (ranked : Ranked tp claims best) :
    Ranked tp (claims ++ member.claimsOn topicPartitions tp)
      (member.owned.foldl (claimOwned topicPartitions idSubs member.id member.generation) best) := by
  unfold MemberInput.claimsOn MemberInput.validOwned
  induction member.owned generalizing claims best with
  | nil => simpa using ranked
  | cons claimed rest ih =>
    rw [foldl_cons]
    by_cases valid : claimed.topic ∈ member.subscribed ∧ InRange topicPartitions claimed
    · rw [claimOwned_of_eligible valid.2 ((subscribed _).mpr valid.1),
        filter_cons_of_pos (by exact decide_eq_true valid)]
      by_cases same : claimed = tp
      · subst same
        have recorded := ih (ranked.record member.id member.generation)
        rw [append_assoc, singleton_append, <- replicate_succ] at recorded
        rw [count_cons_self]
        exact recorded
      · rw [count_cons_of_ne same]
        exact ih (ranked.of_get?_eq
          (recordClaim_get?_of_ne best member.id member.generation (Ne.symm same)))
    · rw [filter_cons_of_neg (by simpa using valid)]
      rcases claimOwned_cases topicPartitions idSubs member.id member.generation best claimed with
        ignored | ⟨inRange, listed, _⟩
      · rw [ignored]
        exact ih ranked
      · exact absurd ⟨(subscribed _).mp listed, inRange⟩ valid

end Ranked

section Claimed

variable {members : List MemberInput} {topicPartitions : TopicPartitions}

section

variable (distinct : (members.map MemberInput.id).Nodup)

include distinct

theorem claimAll_ranked (tp : TopicPartition) :
    Ranked tp (members.flatMap fun member => member.claimsOn topicPartitions tp)
      (claimAll members (subscriptionsOf members) topicPartitions) := by
  have folded (remaining : List MemberInput) (known : remaining ⊆ members)
      (claims : List (String × Int)) (best : Claims) (ranked : Ranked tp claims best) :
      Ranked tp (claims ++ remaining.flatMap fun member => member.claimsOn topicPartitions tp)
        (remaining.foldl (fun best member => member.owned.foldl (claimOwned topicPartitions
          (((subscriptionsOf members).get? member.id).getD SortedMap.empty) member.id
          member.generation) best) best) := by
    induction remaining generalizing claims best with
    | nil => simpa using ranked
    | cons member rest ih =>
      rw [flatMap_cons, <- append_assoc]
      refine ih (fun _ later => known (.tail member later)) _ _ (ranked.member fun topic => ?_)
      rw [subscriptionsOf_get? distinct (known mem_cons_self)]
      exact SortedSet.contains_ofValues _ _
  exact folded members (fun _ => id) [] SortedMap.empty ⟨fun _ => rfl, nofun, nofun⟩

theorem eq_of_id_eq {first second : MemberInput} (isFirst : first ∈ members)
    (isSecond : second ∈ members) (same : first.id = second.id) :
    first = second :=
  inj_on_of_nodup_map distinct isFirst isSecond same

/-- Both paths start from what the members own validly and uniquely. -/
theorem mem_prepopulate_iff {owner : MemberInput} (isMember : owner ∈ members) (tp : TopicPartition) :
    tp ∈ (prepopulateCurrentAssignments members (subscriptionsOf members)
        topicPartitions).bucket owner.id <-> OwnsUniquely members topicPartitions owner tp := by
  constructor
  · intro held
    rcases (prepopulate_distributes members topicPartitions).eligible owner.id tp held with
      ⟨claim, found, isOwner, untied⟩
    have ranked := @claimAll_ranked members topicPartitions distinct tp
    have only := ranked.untied claim found untied
    rw [isOwner] at only
    have inClaims {member : MemberInput} (known : member ∈ members)
        (valid : tp ∈ member.validOwned topicPartitions) :
        (member.id, member.generation) ∈
          members.flatMap fun member => member.claimsOn topicPartitions tp :=
      mem_flatMap.mpr ⟨member, known, MemberInput.mem_claimsOn.mpr ⟨valid, rfl⟩⟩
    -- The one claim of the best generation is the owner's.
    have isBest : tp ∈ owner.validOwned topicPartitions ∧ claim.generation = owner.generation := by
      have kept : (owner.id, claim.generation) ∈ [(owner.id, claim.generation)] :=
        mem_singleton_self _
      rw [<- only] at kept
      rcases mem_flatMap.mp (mem_filter.mp kept).1 with ⟨member, known, inMember⟩
      have parts := MemberInput.mem_claimsOn.mp inMember
      have same := Prod.mk.inj parts.2
      cases eq_of_id_eq distinct isMember known same.1
      exact ⟨parts.1, same.2⟩
    rw [isBest.2] at only
    have atMostOne : (owner.validOwned topicPartitions).count tp ≤ 1 := by
      have part : (owner.claimsOn topicPartitions tp).Sublist
          (members.flatMap fun member => member.claimsOn topicPartitions tp) := by
        exact sublist_flatten_of_mem (mem_map.mpr ⟨owner, isMember, rfl⟩)
      have length := (part.filter fun other => decide (other.2 = owner.generation)).length_le
      rw [only] at length
      simpa [MemberInput.claimsOn] using length
    refine ⟨isBest.1, ?_, fun other isOther different valid => ?_⟩
    · have positive := count_pos_iff.mpr isBest.1
      have counted : (owner.validOwned topicPartitions).count tp = owner.owned.count tp :=
        count_filter (decide_eq_true (MemberInput.mem_validOwned.mp isBest.1).2)
      omega
    · have listed := inClaims isOther valid
      have atMost := ranked.highest claim found _ listed
      rw [isBest.2] at atMost
      refine lt_of_le_of_ne atMost fun same => ?_
      have kept : (other.id, other.generation) ∈ [(owner.id, owner.generation)] := by
        rw [<- only]
        exact mem_filter.mpr ⟨listed, decide_eq_true same⟩
      exact different (Prod.mk.inj (mem_singleton.mp kept)).1
  · rintro ⟨valid, once, highest⟩
    have parts := MemberInput.mem_validOwned.mp valid
    exact prepopulate_of_highest distinct isMember once parts.2.2 parts.2.1
      fun other isOther different listed subscribed => highest other isOther different
        (MemberInput.mem_validOwned.mpr ⟨listed, subscribed, parts.2.2⟩)

end

end Claimed

/-! ## The constrained path -/

section MembersShare

variable {members : List MemberInput} {topicPartitions : TopicPartitions}
  {shared : SortedSet String}

/-- What the constrained path is given for a list of members. -/
theorem sharedIds (someMember : members ≠ []) (distinct : (members.map MemberInput.id).Nodup)
    (sharedBy : forall member, member ∈ members -> SortedSet.ofValues member.subscribed = shared) :
    sorted (members.map MemberInput.id) ≠ [] ∧ (sorted (members.map MemberInput.id)).Nodup ∧
      forall id, id ∈ sorted (members.map MemberInput.id) ->
        (subscriptionsOf members).get? id = some shared := by
  have idsPerm := sorted_perm (members.map MemberInput.id)
  refine ⟨fun none => ?_, idsPerm.nodup_iff.mpr distinct, fun id known => ?_⟩
  · rw [none] at idsPerm
    exact someMember (map_eq_nil_iff.mp idsPerm.nil_eq.symm)
  · rcases mem_map.mp (idsPerm.mem_iff.mp known) with ⟨member, isMember, rfl⟩
    rw [subscriptionsOf_get? distinct isMember, sharedBy member isMember]

theorem mem_sortedIds {member : MemberInput} (isMember : member ∈ members) :
    member.id ∈ sorted (members.map MemberInput.id) :=
  (sorted_perm _).mem_iff.mpr (mem_map.mpr ⟨member, isMember, rfl⟩)

theorem length_sortedIds (members : List MemberInput) :
    (sorted (members.map MemberInput.id)).length = members.length := by
  rw [(sorted_perm _).length_eq, length_map]

end MembersShare

/-- The constrained path fills the quotas of members with different ids: each gets the rounded
down or the rounded up share, the remainder says how many get the larger one, and a member loses
a partition that it owned only when it owned more than the rounded down share. -/
theorem constrainedAssign_quotas (members : List MemberInput) (topicPartitions : TopicPartitions)
    (shared : SortedSet String) (someMember : members ≠ [])
    (distinct : (members.map MemberInput.id).Nodup)
    (sharedBy : forall member, member ∈ members -> SortedSet.ofValues member.subscribed = shared) :
    let subs := subscriptionsOf members
    let raw := constrainedAssign (sorted (members.map MemberInput.id)) subs
      (prepopulateCurrentAssignments members subs topicPartitions) topicPartitions
    let total := (allPartitions shared topicPartitions).length
    let low := total / members.length
    let high := (total + members.length - 1) / members.length
    (forall member, member ∈ members -> load raw member.id = low ∨ load raw member.id = high) ∧
      (¬ members.length ∣ total ->
        members.countP (fun member => load raw member.id = high) = total % members.length) ∧
      forall member, member ∈ members -> forall owned : List TopicPartition, owned.Nodup ->
        (forall tp, tp ∈ owned <-> OwnsUniquely members topicPartitions member tp) ->
        min owned.length low ≤ owned.countP (fun tp => tp ∈ raw.bucket member.id) ∧
          forall tp, tp ∈ owned -> tp ∉ raw.bucket member.id -> low < owned.length := by
  intro subs raw total low high
  rcases sharedIds someMember distinct sharedBy with ⟨someId, idsDistinct, sharedById⟩
  have valid := prepopulate_valid members topicPartitions
  have even := constrainedAssign_even someId idsDistinct sharedById valid
  have above := constrainedAssign_above someId idsDistinct sharedById valid
  rw [length_sortedIds] at even above
  have bounds {member : MemberInput} (isMember : member ∈ members) :
      low ≤ load raw member.id ∧ load raw member.id ≤ low + 1 :=
    even member.id (mem_sortedIds isMember)
  have isHigh (more : 0 < total % members.length) : high = low + 1 :=
    quotas_max (length_pos_of_ne_nil someMember) more
  refine ⟨fun member isMember => ?_, fun uneven => ?_, fun member isMember owned once owns => ?_⟩
  · have within := bounds isMember
    by_cases more : 0 < total % members.length
    · omega
    · -- Nothing is left over, so no member is above the rounded down share.
      rw [Nat.eq_zero_of_not_pos more] at above
      have notAbove := countP_eq_zero.mp above member.id (mem_sortedIds isMember)
      have level : ¬ low < load raw member.id := fun isAbove => notAbove (decide_eq_true isAbove)
      omega
  · have more : 0 < total % members.length :=
      pos_of_ne_zero fun none => uneven (Nat.dvd_of_mod_eq_zero none)
    rw [<- above, countAbove, (sorted_perm _).countP_eq, countP_map]
    refine countP_congr fun member isMember => ?_
    have within := bounds isMember
    rw [decide_eq_true_iff, Function.comp_apply, decide_eq_true_iff]
    change load raw member.id = high <-> low < load raw member.id
    omega
  · rcases constrainedAssign_keepsMin someId idsDistinct sharedById valid
      (mem_sortedIds isMember) with ⟨kept, part, enough, inRaw⟩
    have same : owned.Perm (sortOwned ((prepopulateCurrentAssignments members subs
        topicPartitions).bucket member.id)) := by
      refine List.Perm.trans ?_ (sortOwned_perm _).symm
      refine (perm_ext_iff_of_nodup once (bucket_nodup valid.distinct _)).mpr fun tp => ?_
      rw [owns, mem_prepopulate_iff distinct isMember]
    rw [length_sortedIds, load, <- (sortOwned_perm _).length_eq, <- same.length_eq] at enough
    have enough : min owned.length low ≤ kept.length := enough
    refine ⟨?_, fun tp held lost => ?_⟩
    · rw [same.countP_eq]
      refine enough.trans ?_
      rw [<- countP_eq_length.mpr fun tp member => decide_eq_true (inRaw tp member)]
      exact part.countP_le
    · by_contra few
      have whole := part.eq_of_length_le (by rw [<- same.length_eq]; omega)
      exact lost (inRaw tp (whole ▸ same.mem_iff.mp held))

private def oneOwnsTwo : List MemberInput :=
  [⟨"a", ["t"], [⟨"t", 0⟩, ⟨"t", 1⟩], 1⟩, ⟨"b", ["t"], [], 1⟩]

theorem constrainedAssign_quotas_three :
    load (constrainedAssign (sorted ["a", "b"]) (subscriptionsOf oneOwnsTwo)
      (prepopulateCurrentAssignments oneOwnsTwo (subscriptionsOf oneOwnsTwo)
        (SortedMap.ofList [("t", 3)])) (SortedMap.ofList [("t", 3)])) "a" ∈ [1, 2] := by
  have filled := constrainedAssign_quotas oneOwnsTwo (SortedMap.ofList [("t", 3)])
    (SortedSet.ofValues ["t"]) (by decide) (by decide) (by decide)
  have shares := filled.1 ⟨"a", ["t"], [⟨"t", 0⟩, ⟨"t", 1⟩], 1⟩ (by decide)
  exact mem_cons.mpr (shares.imp id mem_singleton.mpr)

private def sameIdTwice : List MemberInput := [⟨"a", ["t"], [], 1⟩, ⟨"a", ["t"], [], 1⟩]

/-- Two entries with one id count as two members, but share one list. -/
theorem constrainedAssign_same_id :
    load (constrainedAssign (sorted (sameIdTwice.map MemberInput.id)) (subscriptionsOf sameIdTwice)
      (prepopulateCurrentAssignments sameIdTwice (subscriptionsOf sameIdTwice)
        (SortedMap.ofList [("t", 3)])) (SortedMap.ofList [("t", 3)])) "a" ∉
      [3 / sameIdTwice.length, (3 + sameIdTwice.length - 1) / sameIdTwice.length] := by
  decide

/-! ## Settled groups -/

/-- Every partition of a subscribed topic has one owner, and no partition could move to a
subscriber that holds at least two partitions less. -/
structure Settled (members : List MemberInput) (topicPartitions : TopicPartitions) : Prop where
  owned : forall tp, IsWork members topicPartitions tp -> Exists fun owner => owner ∈ members ∧
    tp ∈ owner.validOwned topicPartitions ∧ owner.owned.count tp = 1 ∧
      forall other, other ∈ members -> tp ∈ other.validOwned topicPartitions -> other.id = owner.id
  level : forall owner, owner ∈ members -> forall tp, tp ∈ owner.validOwned topicPartitions ->
    forall other, other ∈ members -> tp.topic ∈ other.subscribed ->
      (owner.validOwned topicPartitions).length ≤ (other.validOwned topicPartitions).length + 1

section Settled

variable {members : List MemberInput} {topicPartitions : TopicPartitions}

section

variable (settled : Settled members topicPartitions) (distinct : (members.map MemberInput.id).Nodup)

include settled distinct

/-- In a settled group the claims give every member what it owns. -/
theorem Settled.prepopulate_perm {member : MemberInput} (isMember : member ∈ members) :
    ((prepopulateCurrentAssignments members (subscriptionsOf members)
      topicPartitions).bucket member.id).Perm (member.validOwned topicPartitions) := by
  have only {tp : TopicPartition} (valid : tp ∈ member.validOwned topicPartitions) :
      OwnsUniquely members topicPartitions member tp := by
    have parts := (MemberInput.mem_validOwned.mp valid).2
    rcases settled.owned tp ⟨⟨member, isMember, parts.1⟩, parts.2⟩ with
      ⟨owner, isOwner, _, once, sole⟩
    cases eq_of_id_eq distinct isMember isOwner (sole member isMember valid)
    exact ⟨valid, once, fun other isOther different otherValid =>
      absurd (sole other isOther otherValid) different⟩
  refine (perm_ext_iff_of_nodup (bucket_nodup
    (prepopulate_valid members topicPartitions).distinct _) ?_).mpr fun tp => ?_
  · refine nodup_iff_count_le_one.mpr fun tp => ?_
    by_cases valid : tp ∈ member.validOwned topicPartitions
    · exact (filter_sublist.count_le tp).trans (only valid).once.le
    · rw [count_eq_zero.mpr valid]
      exact Nat.zero_le _
  · rw [mem_prepopulate_iff distinct isMember]
    exact ⟨OwnsUniquely.valid, only⟩

theorem Settled.distributes {work : List TopicPartition} (workDistinct : work.Nodup)
    (workIff : forall tp, tp ∈ work <-> IsWork members topicPartitions tp) :
    Distributes (Eligible (subscriptionsOf members) topicPartitions)
      (sorted (members.map MemberInput.id)) work
      (prepopulateCurrentAssignments members (subscriptionsOf members) topicPartitions) := by
  have start := prepopulate_distributes members topicPartitions
  have valid := prepopulate_valid members topicPartitions
  refine ⟨fun id => ?_, ?_, valid.eligible⟩
  · rw [start.keyed, (sorted_perm _).mem_iff]
  · refine (perm_ext_iff_of_nodup valid.distinct workDistinct).mpr fun tp => ?_
    rw [workIff, start.items.mem_iff, start.mem_work_iff]
    constructor
    · rintro ⟨id, held⟩
      have eligible := valid.eligible id tp held
      exact (isWork_iff distinct topicPartitions tp).mpr ⟨⟨id, eligible.1⟩, eligible.2⟩
    · intro isWork
      rcases settled.owned tp isWork with ⟨owner, isOwner, owned, _⟩
      exact ⟨owner.id, (settled.prepopulate_perm distinct isOwner).mem_iff.mpr owned⟩

theorem Settled.load_le {owner other : String} {tp : TopicPartition}
    (held : tp ∈ (prepopulateCurrentAssignments members (subscriptionsOf members)
      topicPartitions).bucket owner)
    (subscribed : Subscribed (subscriptionsOf members) other tp.topic) :
    load (prepopulateCurrentAssignments members (subscriptionsOf members) topicPartitions) owner ≤
      load (prepopulateCurrentAssignments members (subscriptionsOf members) topicPartitions)
        other + 1 := by
  have eligible := (prepopulate_valid members topicPartitions).eligible owner tp held
  rcases mem_map.mp (mem_ids_of_subscribed eligible.1) with ⟨holder, isHolder, rfl⟩
  rcases mem_map.mp (mem_ids_of_subscribed subscribed) with ⟨member, isMember, rfl⟩
  have perm := settled.prepopulate_perm distinct isHolder
  rw [load, load, perm.length_eq, (settled.prepopulate_perm distinct isMember).length_eq]
  exact settled.level holder isHolder tp (perm.mem_iff.mp held) member isMember
    ((subscribed_iff distinct isMember tp.topic).mp subscribed)

end

/-! ### The constrained path -/

/-- What a settled group owns is spread evenly when all members share one subscription. -/
theorem Settled.fits (settled : Settled members topicPartitions) (someMember : members ≠ [])
    (distinct : (members.map MemberInput.id).Nodup) {shared : SortedSet String}
    (sharedBy : forall id, id ∈ sorted (members.map MemberInput.id) ->
      (subscriptionsOf members).get? id = some shared)
    (total : (prepopulateCurrentAssignments members (subscriptionsOf members)
      topicPartitions).items.length = (allPartitions shared topicPartitions).length) :
    Fits (Quotas.of (allPartitions shared topicPartitions).length
        (sorted (members.map MemberInput.id)).length)
      (sorted (members.map MemberInput.id))
      (prepopulateCurrentAssignments members (subscriptionsOf members) topicPartitions) := by
  have keyed := (prepopulate_distributes members topicPartitions).keyed
  have level := @Settled.load_le members topicPartitions settled distinct
  have valid := prepopulate_valid members topicPartitions
  rw [<- total]
  generalize prepopulateCurrentAssignments members (subscriptionsOf members) topicPartitions =
    current at keyed level valid
  have within (id other : String) (isOther : other ∈ sorted (members.map MemberInput.id)) :
      load current id ≤ load current other + 1 := by
    cases held : current.bucket id with
    | nil =>
      rw [load, held]
      exact Nat.zero_le _
    | cons tp rest =>
      have holds : tp ∈ current.bucket id := held ▸ (.head _)
      rcases (valid.eligible id tp holds).1 with ⟨topics, found, listed⟩
      have known := mem_ids_of_subscribed ⟨topics, found, listed⟩
      rw [sharedBy id ((sorted_perm _).mem_iff.mpr known)] at found
      exact level holds ⟨shared, sharedBy other isOther, Option.some.inj found ▸ listed⟩
  have idsDistinct := (sorted_perm (members.map MemberInput.id)).nodup_iff.mpr distinct
  have sortedKeyed : forall id, current.contains id = true <->
      id ∈ sorted (members.map MemberInput.id) := fun id => by
    rw [keyed, (sorted_perm _).mem_iff]
  have nonempty : (sorted (members.map MemberInput.id)).toFinset.Nonempty := by
    rcases exists_mem_of_ne_nil members someMember with ⟨member, isMember⟩
    exact ⟨member.id, mem_toFinset.mpr (mem_sortedIds isMember)⟩
  generalize sorted (members.map MemberInput.id) = ids at *
  -- The lowest load is the rounded down share, since not all members are above it.
  rcases Finset.exists_min_image _ (load current) nonempty with ⟨lightest, isLightest, least⟩
  rw [mem_toFinset] at isLightest
  have even : Even (load current lightest) ids current := fun id known =>
    ⟨least id (mem_toFinset.mpr known), within id lightest isLightest⟩
  have count := even.length_items idsDistinct sortedKeyed
  have notAll : countAbove (load current lightest) ids current < ids.length := by
    refine countP_lt_length_iff.mpr ⟨lightest, isLightest, ?_⟩
    exact decide_eq_false (lt_irrefl _)
  have share : current.items.length / ids.length = load current lightest := by
    rw [count, Nat.mul_add_div (by omega), Nat.div_eq_of_lt notAll, add_zero]
  have remainder : current.items.length % ids.length =
      countAbove (load current lightest) ids current := by
    rw [count, Nat.mul_add_mod, Nat.mod_eq_of_lt notAll]
  unfold Quotas.of
  rw [share, remainder]
  exact ⟨fun id _ => within id lightest isLightest, le_refl _⟩

/-! ### The general path -/

variable {assignment : Assignment} {subs : Subscriptions}

variable {memberIds : List String}

end Settled

end Assignor
end Krabka
