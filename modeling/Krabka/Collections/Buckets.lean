import Krabka.Collections.SortedMap
import Mathlib.Algebra.BigOperators.Group.List.Basic
import Mathlib.Algebra.Order.Ring.Int
import Mathlib.Data.List.Perm.Basic

namespace Krabka
namespace Collections

universe u v

/-!
# Buckets, and distributions of work over them

A map from keys to lists says which items each key holds.  A distribution is
such a map that holds every item of a given work list exactly as often as the
work list does, each at an eligible key.  The rules below say how the usual
operations act on a distribution: add an item, add several, move one, reorder
a bucket.  An algorithm that only uses these operations loses and duplicates
nothing.
-/

abbrev Buckets (Key : Type u) (Item : Type v) [LinearOrder Key] := SortedMap Key (List Item)

namespace Buckets

open List SortedMap

variable {Key : Type u} [LinearOrder Key] {Item : Type v}

def bucket (buckets : Buckets Key Item) (key : Key) : List Item :=
  (buckets.get? key).getD []

/-- All items, bucket after bucket. -/
def items (buckets : Buckets Key Item) : List Item :=
  buckets.entries.flatMap Prod.snd

def pairs (buckets : Buckets Key Item) : List (Key × Item) :=
  buckets.entries.flatMap fun entry => entry.2.map (Prod.mk entry.1)

def ofKeys (keys : List Key) : Buckets Key Item :=
  SortedMap.ofList (keys.map (fun key => (key, [])))

def extend (buckets : Buckets Key Item) (key : Key) (added : List Item) : Buckets Key Item :=
  buckets.insert key (buckets.bucket key ++ added)

/-- Add one item behind those of `key`. -/
def push (buckets : Buckets Key Item) (key : Key) (item : Item) : Buckets Key Item :=
  buckets.extend key [item]

def extendAll (buckets : Buckets Key Item) (shares : List (Key × List Item)) :
    Buckets Key Item :=
  shares.foldl (fun extended share => extended.extend share.1 share.2) buckets

/-- Remove the first occurrence of `item` from the bucket of `key`. -/
def erase [DecidableEq Item] (buckets : Buckets Key Item) (key : Key) (item : Item) :
    Buckets Key Item :=
  match buckets.get? key with
  | some held => buckets.insert key (held.erase item)
  | none => buckets

/-! ## Buckets and their items -/

variable {key : Key}

section

variable {buckets : Buckets Key Item} (known : buckets.contains key = true)

include known

theorem get?_eq_bucket : buckets.get? key = some (buckets.bucket key) := by
  rcases Option.isSome_iff_exists.mp known with ⟨held, found⟩
  rw [bucket, found]
  rfl

theorem extend_nil : buckets.extend key [] = buckets := by
  apply SortedMap.ext
  intro other
  rw [extend, get?_insert, append_nil]
  by_cases same : other = key
  · rw [if_pos same, same, get?_eq_bucket known]
  · rw [if_neg same]

end

theorem extend_extend (buckets : Buckets Key Item) (key : Key) (first second : List Item) :
    (buckets.extend key first).extend key second = buckets.extend key (first ++ second) := by
  rw [extend, extend, extend, insert_insert, bucket, get?_insert_self,
    Option.getD_some, append_assoc]

theorem contains_extend {buckets : Buckets Key Item} {other : Key} {added : List Item}
    (known : buckets.contains other = true) : (buckets.extend key added).contains other = true :=
  (contains_insert _ _ _ _).mpr (.inr known)

section

variable (buckets : Buckets Key Item)

include buckets

theorem bucket_insert (key other : Key) (held : List Item) :
    bucket (buckets.insert key held) other = if other = key then held else buckets.bucket other := by
  unfold bucket
  rw [get?_insert]
  by_cases same : other = key
  · rw [if_pos same, if_pos same]
    rfl
  · rw [if_neg same, if_neg same]

theorem bucket_extend (key other : Key) (added : List Item) :
    (buckets.extend key added).bucket other =
      if other = key then buckets.bucket key ++ added else buckets.bucket other :=
  bucket_insert buckets key other _

theorem bucket_extend_of_ne {other : Key} (added : List Item) (different : other ≠ key) :
    (buckets.extend key added).bucket other = buckets.bucket other := by
  rw [bucket_extend, if_neg different]

theorem bucket_extendAll (shares : List (Key × List Item)) (key : Key) :
    (buckets.extendAll shares).bucket key =
      buckets.bucket key ++ (shares.filter fun share => share.1 = key).flatMap Prod.snd := by
  induction shares generalizing buckets with
  | nil => rw [extendAll, foldl_nil, filter_nil, flatMap_nil, append_nil]
  | cons share rest ih =>
    have later := ih (buckets.extend share.1 share.2)
    change bucket ((buckets.extend share.1 share.2).extendAll rest) key = _
    rw [later, bucket_extend]
    by_cases same : share.1 = key
    · rw [if_pos same.symm, filter_cons_of_pos (by simpa using same), flatMap_cons,
        append_assoc, same]
    · rw [if_neg (Ne.symm same), filter_cons_of_neg (by simpa using same)]

end

theorem bucket_erase [DecidableEq Item] (buckets : Buckets Key Item) (key other : Key)
    (item : Item) :
    (buckets.erase key item).bucket other =
      if other = key then (buckets.bucket key).erase item else buckets.bucket other := by
  unfold erase
  cases found : buckets.get? key with
  | none =>
    by_cases same : other = key
    · rw [if_pos same, same, bucket, found]
      rfl
    · rw [if_neg same]
  | some held =>
    have atKey : buckets.bucket key = held := by
      rw [bucket, found]
      rfl
    rw [bucket_insert, atKey]

theorem bucket_ofKeys (keys : List Key) (key : Key) :
    (ofKeys keys : Buckets Key Item).bucket key = [] := by
  have allEmpty : forall (remaining : List Key) (buckets : Buckets Key Item),
      buckets.bucket key = [] -> bucket ((remaining.map (fun key => (key, ([] : List Item)))).foldl
          (fun built entry => built.insert entry.1 entry.2) buckets) key = [] := by
    intro remaining
    induction remaining with
    | nil => exact fun _ => id
    | cons head rest ih =>
      intro buckets isEmpty
      refine ih _ ?_
      rw [bucket_insert]
      split_ifs
      · rfl
      · exact isEmpty
  exact allEmpty keys SortedMap.empty rfl

theorem mem_items_iff (buckets : Buckets Key Item) (item : Item) :
    item ∈ buckets.items <-> Exists fun key => item ∈ buckets.bucket key := by
  rw [items, mem_flatMap]
  constructor
  · rintro ⟨⟨key, held⟩, member, inside⟩
    refine ⟨key, ?_⟩
    rw [bucket, (buckets.mem_entries_iff key held).mp member]
    exact inside
  · rintro ⟨key, inside⟩
    unfold bucket at inside
    cases found : buckets.get? key with
    | none => simp [found] at inside
    | some held =>
      rw [found] at inside
      exact ⟨(key, held), (buckets.mem_entries_iff key held).mpr found, inside⟩

variable {item : Item}

theorem contains_of_mem_bucket {buckets : Buckets Key Item}
    (held : item ∈ buckets.bucket key) : buckets.contains key = true := by
  unfold bucket at held
  cases found : buckets.get? key with
  | none =>
    rw [found] at held
    cases held
  | some _ =>
    rw [SortedMap.contains, found]
    rfl

section

variable (buckets : Buckets Key Item)

/-- Replacing a bucket trades its old items for the new ones. -/
theorem items_insert (key : Key) (held : List Item) :
    (items (buckets.insert key held) ++ buckets.bucket key).Perm (held ++ buckets.items) := by
  have traded := buckets.flatMap_entries_insert key held fun _ stored => stored
  rw [Option.map_id'] at traded
  exact traded

theorem items_extend (key : Key) (added : List Item) :
    (buckets.extend key added).items.Perm (added ++ buckets.items) := by
  have traded := buckets.items_insert key (buckets.bucket key ++ added)
  refine (perm_append_right_iff (buckets.bucket key)).mp (traded.trans ?_)
  rw [append_assoc]
  exact perm_append_comm

theorem pairs_push (key : Key) (item : Item) :
    (buckets.push key item).pairs.Perm ((key, item) :: buckets.pairs) := by
  have traded := buckets.flatMap_entries_insert key (buckets.bucket key ++ [item])
    fun other stored => stored.map (Prod.mk other)
  have old : ((buckets.get? key).map fun stored => stored.map (Prod.mk key)).getD [] =
      (buckets.bucket key).map (Prod.mk key) := by
    rw [bucket]
    cases buckets.get? key <;> rfl
  rw [old, map_append] at traded
  refine (perm_append_right_iff ((buckets.bucket key).map (Prod.mk key))).mp (traded.trans ?_)
  rw [append_assoc]
  exact perm_append_comm

theorem pairs_foldl_push {Source : Type*} (sources : List Source) (key : Source -> Key)
    (item : Source -> Item) (buckets : Buckets Key Item) :
    (pairs (sources.foldl (fun built source => built.push (key source) (item source))
      buckets)).Perm ((sources.map fun source => (key source, item source)) ++ buckets.pairs) := by
  induction sources generalizing buckets with
  | nil => rfl
  | cons source rest ih =>
    refine (ih _).trans ?_
    refine ((buckets.pairs_push (key source) (item source)).append_left _).trans ?_
    exact perm_middle

theorem pairs_empty : pairs (SortedMap.empty : Buckets Key Item) = [] := rfl

theorem mem_keys_foldl_push {Source : Type*} {sources : List Source} {key : Source -> Key}
    {item : Source -> Item} {buckets : Buckets Key Item} {found : Key}
    (isKey : found ∈ SortedMap.keys (sources.foldl
      (fun (built : Buckets Key Item) source => built.push (key source) (item source)) buckets)) :
    found ∈ sources.map key ∨ found ∈ buckets.keys := by
  induction sources generalizing buckets with
  | nil => exact .inr isKey
  | cons source rest ih =>
    rcases ih isKey with later | earlier
    · exact .inl (.tail _ later)
    · have stored := (mem_keys_iff _ found).mp earlier
      rcases (contains_insert _ _ _ _).mp stored with same | before
      · exact .inl (same ▸ (.head _))
      · exact .inr ((mem_keys_iff _ _).mpr before)

theorem pairs_eq_flatMap_keys :
    buckets.pairs = buckets.keys.flatMap fun key => (buckets.bucket key).map (Prod.mk key) := by
  rw [pairs, SortedMap.keys, flatMap_map]
  refine flatMap_congr fun entry isEntry => ?_
  rw [bucket, (buckets.mem_entries_iff entry.1 entry.2).mp isEntry]
  rfl

end

theorem bucket_eq_nil {buckets : Buckets Key Item} (absent : key ∉ buckets.keys) :
    buckets.bucket key = [] := by
  rw [mem_keys_iff, SortedMap.contains, Bool.not_eq_true, Option.isSome_eq_false_iff,
    Option.isNone_iff_eq_none] at absent
  rw [bucket, absent]
  rfl

/-- The pairs are found under any list of keys that has all keys of the map once. -/
theorem flatMap_bucket_perm {buckets : Buckets Key Item} {keys : List Key} (distinct : keys.Nodup)
    (covered : forall key, key ∈ buckets.keys -> key ∈ keys) :
    (keys.flatMap fun key => (buckets.bucket key).map (Prod.mk key)).Perm buckets.pairs := by
  have split := filter_append_perm (fun key => decide (key ∈ buckets.keys)) keys
  have inside : (keys.filter fun key => key ∈ buckets.keys).Perm buckets.keys := by
    refine (perm_ext_iff_of_nodup (distinct.filter _) buckets.keys_nodup).mpr fun key => ?_
    rw [mem_filter, decide_eq_true_iff]
    exact ⟨And.right, fun isKey => ⟨covered key isKey, isKey⟩⟩
  have outside : ((keys.filter fun key => !decide (key ∈ buckets.keys)).flatMap fun key =>
      (buckets.bucket key).map (Prod.mk key)) = [] := by
    refine flatMap_eq_nil_iff.mpr fun key isKey => ?_
    have absent : key ∉ buckets.keys := by simpa using (mem_filter.mp isKey).2
    rw [bucket_eq_nil absent]
    rfl
  refine (split.symm.flatMap_right _).trans ?_
  rw [flatMap_append, outside, append_nil, pairs_eq_flatMap_keys]
  exact inside.flatMap_right _

theorem items_erase [DecidableEq Item] (buckets : Buckets Key Item)
    (member : item ∈ buckets.bucket key) :
    (item :: (buckets.erase key item).items).Perm buckets.items := by
  unfold erase
  cases found : buckets.get? key with
  | none =>
    rw [bucket, found] at member
    cases member
  | some held =>
    have atKey : buckets.bucket key = held := by
      rw [bucket, found]
      rfl
    have traded := buckets.items_insert key (held.erase item)
    have split := perm_cons_erase (atKey ▸ member : item ∈ held)
    rw [atKey] at traded
    refine (perm_append_left_iff (held.erase item)).mp ?_
    refine List.Perm.trans ?_ traded
    refine List.Perm.trans ?_ (split.symm.append_left _)
    exact (perm_middle).trans (((perm_append_comm).cons item).trans (perm_middle.symm))

theorem items_ofKeys (keys : List Key) : (ofKeys keys : Buckets Key Item).items = [] := by
  apply eq_nil_iff_forall_not_mem.mpr
  intro item member
  rcases (mem_items_iff _ item).mp member with ⟨key, inside⟩
  rw [bucket_ofKeys] at inside
  exact not_mem_nil inside

section

variable (buckets : Buckets Key Item) (reorder : List Item -> List Item)
  (keeps : forall held, (reorder held).Perm held)

include buckets reorder keeps

theorem items_perm_of_mapValues :
    (items (buckets.mapValues reorder)).Perm buckets.items := by
  unfold items SortedMap.mapValues
  rw [flatMap_map]
  exact List.Perm.flatMap_left _ (fun entry _ => keeps entry.2)

theorem bucket_mapValues (key : Key) :
    (bucket (buckets.mapValues reorder) key).Perm (buckets.bucket key) := by
  unfold bucket
  rw [get?_mapValues]
  cases found : buckets.get? key with
  | none => exact List.Perm.refl _
  | some held => exact keeps held

end

/-- A bucket together with another one is a sublist of the items. -/
theorem count_bucket_add_le [DecidableEq Item] (buckets : Buckets Key Item) {first second : Key}
    (different : first ≠ second) (item : Item) :
    (buckets.bucket first).count item + (buckets.bucket second).count item ≤
      buckets.items.count item := by
  have firstOut := (buckets.items_insert first []).count_eq item
  have secondOut := (items_insert (buckets.insert first []) second []).count_eq item
  rw [bucket_insert, if_neg (Ne.symm different)] at secondOut
  simp only [nil_append, count_append] at firstOut secondOut
  omega

theorem count_bucket_le [DecidableEq Item] (buckets : Buckets Key Item) (key : Key) (item : Item) :
    (buckets.bucket key).count item ≤ buckets.items.count item := by
  have out := (buckets.items_insert key []).count_eq item
  simp only [nil_append, count_append] at out
  omega

section

variable {buckets : Buckets Key Item} (distinct : buckets.items.Nodup)

include distinct

theorem bucket_nodup [DecidableEq Item] (key : Key) : (buckets.bucket key).Nodup := by
  rw [nodup_iff_count_le_one]
  exact fun item =>
    (buckets.count_bucket_le key item).trans (nodup_iff_count_le_one.mp distinct item)

/-- When no item occurs twice, an item is in one bucket only. -/
theorem key_unique [DecidableEq Item] {first second : Key} (inFirst : item ∈ buckets.bucket first)
    (inSecond : item ∈ buckets.bucket second) :
    first = second := by
  by_contra different
  have bound := buckets.count_bucket_add_le different item
  have atMost := nodup_iff_count_le_one.mp distinct item
  have firstCount := count_pos_iff.mpr inFirst
  have secondCount := count_pos_iff.mpr inSecond
  omega

end

theorem contains_ofKeys (keys : List Key) (key : Key) :
    (ofKeys keys : Buckets Key Item).contains key = true <-> key ∈ keys := by
  rw [ofKeys, contains_ofList]
  simp

/-- Empty buckets do not depend on the order of their keys. -/
theorem ofKeys_eq_of_perm {left right : List Key} (same : left.Perm right) :
    (ofKeys left : Buckets Key Item) = ofKeys right := by
  apply SortedMap.ext
  intro key
  by_cases known : key ∈ left
  · rw [get?_eq_bucket ((contains_ofKeys left key).mpr known),
      get?_eq_bucket ((contains_ofKeys right key).mpr (same.mem_iff.mp known)), bucket_ofKeys,
      bucket_ofKeys]
  · have absent (keys : List Key) (unknown : key ∉ keys) :
        (ofKeys keys : Buckets Key Item).get? key = none := by
      have notFound := mt (@contains_ofKeys Key _ Item keys key).mp unknown
      rw [SortedMap.contains, Bool.not_eq_true, Option.isSome_eq_false_iff,
        Option.isNone_iff_eq_none] at notFound
      exact notFound
    rw [absent left known, absent right fun isRight => known (same.mem_iff.mpr isRight)]

/-! ## Even buckets -/

def Even (low : Nat) (keys : List Key) (buckets : Buckets Key Item) : Prop :=
  forall key, key ∈ keys -> low ≤ (buckets.bucket key).length ∧
    (buckets.bucket key).length ≤ low + 1

/-- How many buckets hold more than `low` items. -/
def countAbove (low : Nat) (keys : List Key) (buckets : Buckets Key Item) : Nat :=
  keys.countP fun key => low < (buckets.bucket key).length

theorem length_items {keys : List Key} {buckets : Buckets Key Item} (distinct : keys.Nodup)
    (keyed : forall key, buckets.contains key = true <-> key ∈ keys) :
    buckets.items.length = (keys.map fun key => (buckets.bucket key).length).sum := by
  have sameKeys : buckets.keys.Perm keys := by
    refine (perm_ext_iff_of_nodup buckets.keys_nodup distinct).mpr fun key => ?_
    rw [mem_keys_iff, keyed]
  rw [items, length_flatMap, <- (sameKeys.map _).sum_eq, SortedMap.keys, map_map]
  refine congrArg List.sum (map_congr_left fun entry member => ?_)
  rw [Function.comp_apply, bucket, (buckets.mem_entries_iff entry.1 entry.2).mp member]
  rfl

/-- The number of larger buckets follows from the number of items. -/
theorem Even.length_items {low : Nat} {keys : List Key} {buckets : Buckets Key Item}
    (even : Even low keys buckets) (distinct : keys.Nodup)
    (keyed : forall key, buckets.contains key = true <-> key ∈ keys) :
    buckets.items.length = keys.length * low + countAbove low keys buckets := by
  rw [Buckets.length_items distinct keyed, countAbove]
  clear distinct keyed
  induction keys with
  | nil => simp
  | cons key rest ih =>
    have later := ih fun other member =>
      even other (.tail key member)
    have here := even key (.head _)
    rw [map_cons, sum_cons, later, length_cons, Nat.succ_mul, countP_cons]
    by_cases above : low < (buckets.bucket key).length
    · rw [if_pos (decide_eq_true above)]
      omega
    · rw [if_neg (by simpa using above)]
      omega

/-! ## Distributions -/

/-- `buckets` has exactly the buckets of `keys`, and holds exactly the items
of `work`, each in a bucket that may hold it. -/
structure Distributes (eligible : Key -> Item -> Prop) (keys : List Key) (work : List Item)
    (buckets : Buckets Key Item) : Prop where
  keyed : forall key, buckets.contains key = true <-> key ∈ keys
  items : buckets.items.Perm work
  eligible : forall key item, item ∈ buckets.bucket key -> eligible key item

namespace Distributes

variable {eligible : Key -> Item -> Prop} {keys : List Key} {work other : List Item}
  {buckets : Buckets Key Item}

theorem ofKeys (eligible : Key -> Item -> Prop) (keys : List Key) :
    Distributes eligible keys [] (Buckets.ofKeys keys) where
  keyed := contains_ofKeys keys
  items := by rw [items_ofKeys]
  eligible := by
    intro key item member
    rw [bucket_ofKeys] at member
    cases member

section

variable (distributes : Distributes eligible keys work buckets)

include distributes

theorem perm (same : work.Perm other) :
    Distributes eligible keys other buckets :=
  ⟨distributes.keyed, distributes.items.trans same, distributes.eligible⟩

theorem nodup (distinct : work.Nodup) :
    buckets.items.Nodup :=
  distributes.items.nodup_iff.mpr distinct

theorem extend {key : Key} (known : key ∈ keys) {added : List Item}
    (allowed : forall item, item ∈ added -> eligible key item) :
    Distributes eligible keys (added ++ work) (buckets.extend key added) where
  keyed := by
    intro query
    rw [Buckets.extend, SortedMap.contains_insert, distributes.keyed]
    exact ⟨fun found => found.elim (fun same => same ▸ known) id, .inr⟩
  items := (buckets.items_extend key added).trans (distributes.items.append_left added)
  eligible := by
    intro query item member
    rw [bucket_extend] at member
    split_ifs at member with same
    · rcases mem_append.mp member with old | new
      · exact same ▸ distributes.eligible key item old
      · exact same ▸ allowed item new
    · exact distributes.eligible query item member

end

variable {item : Item}

section

variable (distributes : Distributes eligible keys work buckets)

include distributes

theorem push {key : Key} (known : key ∈ keys) (allowed : eligible key item) :
    Distributes eligible keys (item :: work) (buckets.push key item) :=
  distributes.extend known (fun _ member => mem_singleton.mp member ▸ allowed)

theorem extendAll (shares : List (Key × List Item))
    (known : forall share, share ∈ shares -> share.1 ∈ keys)
    (allowed : forall share, share ∈ shares -> forall item, item ∈ share.2 ->
      eligible share.1 item) :
    Distributes eligible keys (shares.flatMap Prod.snd ++ work) (buckets.extendAll shares) := by
  induction shares generalizing buckets work with
  | nil => exact distributes
  | cons share rest ih =>
    have here := distributes.extend (known share (.head _)) (allowed share (.head _))
    have later := ih here (fun other member => known other (.tail share member))
      (fun other member => allowed other (.tail share member))
    refine later.perm ?_
    rw [flatMap_cons, <- append_assoc]
    exact perm_append_comm.append_right work

theorem move [DecidableEq Item] {source target : Key} (held : item ∈ buckets.bucket source)
    (known : target ∈ keys) (allowed : eligible target item) :
    Distributes eligible keys work ((buckets.erase source item).push target item) where
  keyed := by
    intro key
    rw [Buckets.push, Buckets.extend, SortedMap.contains_insert]
    have sameKeys : (buckets.erase source item).contains key = true <->
        buckets.contains key = true := by
      unfold Buckets.erase
      cases found : buckets.get? source with
      | none => rfl
      | some stored =>
        rw [SortedMap.contains_insert]
        refine ⟨fun either => either.elim (fun same => ?_) id, .inr⟩
        rw [same, SortedMap.contains, found]
        rfl
    rw [sameKeys, distributes.keyed]
    exact ⟨fun either => either.elim (fun same => same ▸ known) id, .inr⟩
  items := ((items_extend _ target [item]).trans (buckets.items_erase held)).trans distributes.items
  eligible := by
    have erased : forall key moved, moved ∈ (buckets.erase source item).bucket key ->
        eligible key moved := by
      intro key moved member
      rw [bucket_erase] at member
      split_ifs at member with same
      · exact same ▸ distributes.eligible source moved (mem_of_mem_erase member)
      · exact distributes.eligible key moved member
    intro key moved member
    rw [Buckets.push, bucket_extend] at member
    split_ifs at member with same
    · rcases mem_append.mp member with old | new
      · exact same ▸ erased target moved old
      · exact same ▸ mem_singleton.mp new ▸ allowed
    · exact erased key moved member

theorem mapValues (reorder : List Item -> List Item) (keeps : forall held, (reorder held).Perm held) :
    Distributes eligible keys work (SortedMap.mapValues buckets reorder) where
  keyed := by
    intro key
    rw [← distributes.keyed, SortedMap.contains, get?_mapValues, Option.isSome_map,
      SortedMap.contains]
  items := (buckets.items_perm_of_mapValues reorder keeps).trans distributes.items
  eligible := by
    intro key item member
    exact distributes.eligible key item
      ((buckets.bucket_mapValues reorder keeps key).mem_iff.mp member)

theorem mem_work_iff (item : Item) :
    item ∈ work <-> Exists fun key => item ∈ buckets.bucket key := by
  rw [← distributes.items.mem_iff, mem_items_iff]

/-- An item of duplicate-free work is in one bucket, once, and the key of
that bucket may hold it. -/
theorem exists_holder [DecidableEq Item] (distinct : work.Nodup) (member : item ∈ work) :
    Exists fun key => key ∈ keys ∧ eligible key item ∧ (buckets.bucket key).count item = 1 ∧
      forall other, other ≠ key -> item ∉ buckets.bucket other := by
  rcases (distributes.mem_work_iff item).mp member with ⟨key, held⟩
  have itemsDistinct := distributes.nodup distinct
  refine ⟨key, ?_, distributes.eligible key item held, ?_, ?_⟩
  · exact (distributes.keyed key).mp (contains_of_mem_bucket held)
  · have atMost := nodup_iff_count_le_one.mp itemsDistinct item
    have inside := buckets.count_bucket_le key item
    have present := count_pos_iff.mpr held
    omega
  · intro other different inOther
    exact different (key_unique itemsDistinct inOther held)

/-- Two distributions of the same work are equal when one contains the other. -/
theorem perm_of_subset [DecidableEq Item] {also : Key -> Item -> Prop} {larger : Buckets Key Item}
    (others : Distributes also keys work larger) (distinct : work.Nodup)
    (within : forall key, buckets.bucket key ⊆ larger.bucket key) (key : Key) :
    (buckets.bucket key).Perm (larger.bucket key) := by
  have distinctItems := distributes.nodup distinct
  have largerDistinct := others.nodup distinct
  refine (perm_ext_iff_of_nodup (bucket_nodup distinctItems key)
    (bucket_nodup largerDistinct key)).mpr fun item => ⟨fun held => within key held, fun held => ?_⟩
  rcases (distributes.mem_work_iff item).mp ((others.mem_work_iff item).mpr ⟨key, held⟩) with
    ⟨holder, isHeld⟩
  exact key_unique largerDistinct (within holder isHeld) held ▸ isHeld

end

end Distributes

end Buckets

end Collections
end Krabka
