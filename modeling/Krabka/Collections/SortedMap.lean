import Mathlib.Data.List.Sort
import Mathlib.Data.List.Basic

namespace Krabka
namespace Collections

universe u v w

/-!
# Maps kept as strictly sorted association lists

A `SortedMap` is the extensional content of an ordered tree map.  The list of
its entries is strictly increasing in the key, so a key occurs at most once,
iteration is in key order, and two maps with the same lookups are the same
map.  The order proof is a field: an unsorted list is not a map.

An unordered hash map is represented by the same structure wherever the
program does not let its iteration order escape.
-/

/-- A finite map with its entries in strictly increasing key order. -/
structure SortedMap (Key : Type u) (Value : Type v) [LinearOrder Key] where
  entries : List (Key × Value)
  sorted : entries.Pairwise (fun left right => left.1 < right.1)

namespace SortedMap

open List

variable {Key : Type u} [LinearOrder Key] {Value : Type v} {Other : Type w}

/-! ## Raw operations on sorted entry lists -/

def lookup (key : Key) : List (Key × Value) -> Option Value
  | [] => none
  | (head, value) :: rest => if key = head then some value else lookup key rest

/-- Put `value` at `key`, replacing the value that was there. -/
def insertEntry (key : Key) (value : Value) : List (Key × Value) -> List (Key × Value)
  | [] => [(key, value)]
  | (head, old) :: rest =>
    if key < head then (key, value) :: (head, old) :: rest
    else if key = head then (key, value) :: rest
    else (head, old) :: insertEntry key value rest

variable {key : Key} {value : Value}

theorem mem_insertEntry {entry : Key × Value} :
    forall {entries : List (Key × Value)},
      entry ∈ insertEntry key value entries -> entry = (key, value) ∨ entry ∈ entries
  | [], member => .inl (mem_singleton.mp member)
  | (head, old) :: rest, member => by
      rw [insertEntry] at member
      split_ifs at member with before same
      · exact mem_cons.mp member
      · rcases mem_cons.mp member with new | later
        · exact .inl new
        · exact .inr (.tail _ later)
      · rcases mem_cons.mp member with kept | later
        · exact .inr (kept ▸ (.head _))
        · rcases mem_insertEntry later with new | later
          · exact .inl new
          · exact .inr (.tail _ later)

theorem insertEntry_sorted (key : Key) (value : Value) :
    forall {entries : List (Key × Value)}, entries.Pairwise (fun left right => left.1 < right.1) ->
        (insertEntry key value entries).Pairwise (fun left right => left.1 < right.1)
  | [], _ => pairwise_singleton _ _
  | (head, old) :: rest, sorted => by
      have parts := pairwise_cons.mp sorted
      rw [insertEntry]
      split_ifs with before same
      · refine pairwise_cons.mpr ⟨?_, sorted⟩
        intro entry member
        rcases mem_cons.mp member with equal | later
        · exact equal ▸ before
        · exact lt_trans before (parts.1 entry later)
      · exact pairwise_cons.mpr ⟨fun entry member => same ▸ parts.1 entry member, parts.2⟩
      · refine pairwise_cons.mpr ⟨?_, insertEntry_sorted key value parts.2⟩
        intro entry member
        rcases mem_insertEntry member with equal | later
        · exact equal ▸ lt_of_le_of_ne (not_lt.mp before) (Ne.symm same)
        · exact parts.1 entry later

theorem lookup_insertEntry (key other : Key) (value : Value) (entries : List (Key × Value)) :
    lookup other (insertEntry key value entries) =
      if other = key then some value else lookup other entries := by
  induction entries with
  | nil => rfl
  | cons entry rest ih =>
    rcases entry with ⟨head, old⟩
    rw [insertEntry]
    by_cases before : key < head
    · rw [if_pos before, lookup]
    · rw [if_neg before]
      by_cases same : key = head
      · subst head
        rw [if_pos rfl, lookup, lookup]
        by_cases atKey : other = key
        · rw [if_pos atKey, if_pos atKey]
        · rw [if_neg atKey, if_neg atKey, if_neg atKey]
      · rw [if_neg same, lookup, lookup, ih]
        by_cases atHead : other = head
        · rw [if_pos atHead, if_neg (fun atKey => same (atKey.symm.trans atHead)), if_pos atHead]
        · rw [if_neg atHead, if_neg atHead]

variable {entries : List (Key × Value)}

/-- In a sorted list an entry is present exactly when it is the one found. -/
theorem mem_iff_lookup (sorted : entries.Pairwise (fun left right => left.1 < right.1))
    (key : Key) (value : Value) :
    (key, value) ∈ entries <-> lookup key entries = some value := by
  induction entries with
  | nil => simp [lookup]
  | cons entry rest ih =>
    rcases entry with ⟨head, stored⟩
    have parts := pairwise_cons.mp sorted
    rw [mem_cons, lookup]
    by_cases same : key = head
    · subst head
      rw [if_pos rfl]
      constructor
      · intro member
        rcases member with equal | later
        · exact congrArg some (Prod.mk.inj equal).2.symm
        · exact absurd (parts.1 _ later) (lt_irrefl key)
      · intro found
        exact .inl (Prod.ext rfl (Option.some.inj found).symm)
    · rw [if_neg same, ← ih parts.2]
      constructor
      · intro member
        rcases member with equal | later
        · exact absurd (Prod.mk.inj equal).1 same
        · exact later
      · exact .inr

/-! ## The map interface -/

/-- The map with no entry. -/
def empty : SortedMap Key Value := ⟨[], List.Pairwise.nil⟩

def get? (map : SortedMap Key Value) (key : Key) : Option Value :=
  lookup key map.entries

/-- Whether the map has an entry at `key`. -/
def contains (map : SortedMap Key Value) (key : Key) : Bool :=
  (map.get? key).isSome

def insert (map : SortedMap Key Value) (key : Key) (value : Value) : SortedMap Key Value :=
  ⟨insertEntry key value map.entries, insertEntry_sorted key value map.sorted⟩

def filter (map : SortedMap Key Value) (keep : Key -> Value -> Bool) : SortedMap Key Value :=
  ⟨map.entries.filter (fun entry => keep entry.1 entry.2), map.sorted.filter _⟩

/-- Remove the entry of `key`. -/
def erase (map : SortedMap Key Value) (key : Key) : SortedMap Key Value :=
  map.filter (fun other _ => other ≠ key)

def mapValues (map : SortedMap Key Value) (change : Value -> Other) : SortedMap Key Other :=
  ⟨map.entries.map (fun entry => (entry.1, change entry.2)),
    pairwise_map.mpr map.sorted⟩

/-- Change the values of some entries, and drop the others. -/
def filterMap (map : SortedMap Key Value) (change : Key -> Value -> Option Other) :
    SortedMap Key Other where
  entries := map.entries.filterMap fun entry =>
    (change entry.1 entry.2).map fun value => (entry.1, value)
  sorted := by
    refine List.Pairwise.filterMap _ (fun first second before left isLeft right isRight => ?_)
      map.sorted
    rcases Option.map_eq_some_iff.mp isLeft with ⟨_, _, rfl⟩
    rcases Option.map_eq_some_iff.mp isRight with ⟨_, _, rfl⟩
    exact before

/-- The keys in increasing order. -/
def keys (map : SortedMap Key Value) : List Key := map.entries.map Prod.fst

/-- Collect entries into a map.  A later entry replaces an earlier one. -/
def ofList (entries : List (Key × Value)) : SortedMap Key Value :=
  entries.foldl (fun map entry => map.insert entry.1 entry.2) empty

@[simp] theorem get?_empty (key : Key) : (empty : SortedMap Key Value).get? key = none := rfl

section

variable (map : SortedMap Key Value)

theorem get?_insert (key other : Key) (value : Value) :
    (map.insert key value).get? other = if other = key then some value else map.get? other :=
  lookup_insertEntry key other value map.entries

@[simp] theorem get?_insert_self (key : Key) (value : Value) :
    (map.insert key value).get? key = some value := by
  rw [get?_insert, if_pos rfl]

theorem get?_insert_of_ne {other : Key} (value : Value) (different : other ≠ key) :
    (map.insert key value).get? other = map.get? other := by
  rw [get?_insert, if_neg different]

theorem insertEntry_insertEntry (key : Key) (first second : Value) (entries : List (Key × Value)) :
    insertEntry key second (insertEntry key first entries) = insertEntry key second entries := by
  induction entries with
  | nil => simp [insertEntry]
  | cons entry rest ih =>
    rcases entry with ⟨head, old⟩
    by_cases before : key < head
    · simp [insertEntry, before]
    · by_cases same : key = head
      · subst same
        simp [insertEntry]
      · simp [insertEntry, before, same, ih]

/-- The last value stored at a key counts. -/
theorem insert_insert (key : Key) (first second : Value) :
    (map.insert key first).insert key second = map.insert key second := by
  unfold insert
  simp only [insertEntry_insertEntry]

theorem mem_entries_iff (key : Key) (value : Value) :
    (key, value) ∈ map.entries <-> map.get? key = some value :=
  mem_iff_lookup map.sorted key value

theorem get?_filter (keep : Key -> Value -> Bool) (key : Key) :
    (map.filter keep).get? key = (map.get? key).filter (keep key) := by
  apply Option.ext
  intro value
  rw [← mem_entries_iff, filter, mem_filter, mem_entries_iff, Option.filter_eq_some_iff]

end

variable {map : SortedMap Key Value}

theorem get?_of_filter {keep : Key -> Value -> Bool}
    (found : (map.filter keep).get? key = some value) :
    map.get? key = some value := by
  rw [get?_filter] at found
  exact (Option.filter_eq_some_iff.mp found).1

theorem of_get?_insert {other : Key} {stored : Value}
    (found : (map.insert key value).get? other = some stored) :
    (other = key ∧ stored = value) ∨ (other ≠ key ∧ map.get? other = some stored) := by
  rw [get?_insert] at found
  split_ifs at found with same
  · exact .inl ⟨same, (Option.some.inj found).symm⟩
  · exact .inr ⟨same, found⟩

/-- Every entry has the property. -/
def All (map : SortedMap Key Value) (property : Key -> Value -> Prop) : Prop :=
  forall key value, map.get? key = some value -> property key value

variable {property : Key -> Value -> Prop}

section

variable (all : map.All property)

include all

theorem All.insert (holds : property key value) :
    (map.insert key value).All property := by
  intro other stored found
  rcases of_get?_insert found with ⟨rfl, rfl⟩ | ⟨_, found⟩
  · exact holds
  · exact all other stored found

theorem All.filter {keep : Key -> Value -> Bool} : (map.filter keep).All property :=
  fun key value found => all key value (get?_of_filter found)

theorem All.imp {weaker : Key -> Value -> Prop}
    (implies : forall key value, property key value -> weaker key value) :
    map.All weaker :=
  fun key value found => implies key value (all key value found)

end

section

variable (map : SortedMap Key Value)

theorem get?_erase (key other : Key) :
    (map.erase key).get? other = if other = key then none else map.get? other := by
  rw [erase, get?_filter]
  by_cases same : other = key
  · simp [same]
  · cases found : map.get? other <;> simp [same]

theorem get?_mapValues (change : Value -> Other) (key : Key) :
    (map.mapValues change).get? key = (map.get? key).map change := by
  apply Option.ext
  intro value
  rw [← mem_entries_iff, mapValues, mem_map, Option.map_eq_some_iff]
  constructor
  · rintro ⟨⟨storedKey, stored⟩, member, equal⟩
    have same := Prod.mk.inj equal
    exact ⟨stored, (mem_entries_iff map key stored).mp (same.1 ▸ member), same.2⟩
  · rintro ⟨stored, found, equal⟩
    exact ⟨(key, stored), (mem_entries_iff map key stored).mpr found, Prod.ext rfl equal⟩

theorem get?_filterMap (change : Key -> Value -> Option Other) (key : Key) :
    (map.filterMap change).get? key = (map.get? key).bind (change key) := by
  apply Option.ext
  intro value
  rw [← mem_entries_iff, filterMap, mem_filterMap, Option.bind_eq_some_iff]
  constructor
  · rintro ⟨⟨storedKey, stored⟩, member, changed⟩
    rcases Option.map_eq_some_iff.mp changed with ⟨_, isValue, same⟩
    have parts := Prod.mk.inj same
    rw [parts.1, parts.2] at isValue
    exact ⟨stored, (mem_entries_iff map key stored).mp (parts.1 ▸ member), isValue⟩
  · rintro ⟨stored, found, isValue⟩
    exact ⟨(key, stored), (mem_entries_iff map key stored).mpr found, by simp [isValue]⟩

theorem mem_keys_iff (key : Key) :
    key ∈ map.keys <-> map.contains key = true := by
  rw [keys, mem_map, contains, Option.isSome_iff_exists]
  constructor
  · rintro ⟨⟨storedKey, value⟩, member, same⟩
    exact ⟨value, (mem_entries_iff map key value).mp (same ▸ member)⟩
  · rintro ⟨value, found⟩
    exact ⟨(key, value), (mem_entries_iff map key value).mpr found, rfl⟩

theorem keys_nodup : map.keys.Nodup := pairwise_map.mpr (map.sorted.imp ne_of_lt)

theorem contains_insert (key other : Key) (value : Value) :
    (map.insert key value).contains other = true <-> other = key ∨ map.contains other = true := by
  rw [contains, get?_insert, contains]
  by_cases same : other = key <;> simp [same]

theorem filter_entries_key (key : Key) :
    map.entries.filter (fun entry => entry.1 = key) =
      ((map.get? key).map (Prod.mk key)).toList := by
  have found (entries : List (Key × Value))
      (sorted : entries.Pairwise (fun left right => left.1 < right.1)) :
      entries.filter (fun entry => entry.1 = key) =
        ((lookup key entries).map (Prod.mk key)).toList := by
    induction entries with
    | nil => rfl
    | cons entry rest ih =>
      have parts := pairwise_cons.mp sorted
      rw [filter_cons, lookup]
      by_cases same : entry.1 = key
      · have absent : rest.filter (fun entry => entry.1 = key) = [] := by
          refine filter_eq_nil_iff.mpr fun other isOther => ?_
          have later := parts.1 other isOther
          rw [same] at later
          simpa using ne_of_gt later
        rw [if_pos (decide_eq_true same), if_pos same.symm, absent, Option.map_some, <- same]
        rfl
      · rw [if_neg (by simpa using same), if_neg fun isKey => same isKey.symm, ih parts.2]
  exact found map.entries map.sorted

end

def mergeWith (combine : Value -> Value -> Value) (left right : SortedMap Key Value) :
    SortedMap Key Value :=
  right.entries.foldl
    (fun map entry => map.insert entry.1 (((map.get? entry.1).map (combine · entry.2)).getD entry.2))
    left

theorem get?_mergeWith (combine : Value -> Value -> Value) (left right : SortedMap Key Value)
    (key : Key) :
    (mergeWith combine left right).get? key =
      match right.get? key with
      | none => left.get? key
      | some value => some (((left.get? key).map (combine · value)).getD value) := by
  have merged (entries : List (Key × Value))
      (sorted : entries.Pairwise (fun left right => left.1 < right.1))
      (left : SortedMap Key Value) :
      (entries.foldl (fun map entry => map.insert entry.1
          (((map.get? entry.1).map (combine · entry.2)).getD entry.2)) left).get? key =
        match lookup key entries with
        | none => left.get? key
        | some value => some (((left.get? key).map (combine · value)).getD value) := by
    induction entries generalizing left with
    | nil => rfl
    | cons entry rest ih =>
      have parts := pairwise_cons.mp sorted
      rw [foldl_cons, ih parts.2, lookup]
      by_cases same : key = entry.1
      · have absent : lookup key rest = none := by
          cases found : lookup key rest with
          | none => rfl
          | some value =>
            have later := parts.1 _ ((mem_iff_lookup parts.2 key value).mpr found)
            exact absurd same (ne_of_gt later)
        rw [absent, if_pos same, same, get?_insert_self]
      · rw [if_neg same, get?_insert_of_ne _ _ same]
  exact merged right.entries right.sorted left

section

variable (entries : List (Key × Value))

theorem contains_foldl_insert (map : SortedMap Key Value) (key : Key) :
    (entries.foldl (fun built entry => built.insert entry.1 entry.2) map).contains key = true <->
      key ∈ entries.map Prod.fst ∨ map.contains key = true := by
  induction entries generalizing map with
  | nil => simp
  | cons entry rest ih =>
    rw [foldl_cons, ih, contains_insert, map_cons, mem_cons]
    constructor
    · rintro (later | here | before)
      · exact .inl (.inr later)
      · exact .inl (.inl here)
      · exact .inr before
    · rintro ((here | later) | before)
      · exact .inr (.inl here)
      · exact .inl later
      · exact .inr (.inr before)

theorem contains_ofList (key : Key) :
    (ofList entries).contains key = true <-> key ∈ entries.map Prod.fst := by
  rw [ofList, contains_foldl_insert]
  exact or_iff_left Bool.false_ne_true

theorem get?_foldl_insert_of_notMem (map : SortedMap Key Value)
    (absent : key ∉ entries.map Prod.fst) :
    (entries.foldl (fun built entry => built.insert entry.1 entry.2) map).get? key =
      map.get? key := by
  induction entries generalizing map with
  | nil => rfl
  | cons entry rest ih =>
    rw [map_cons, mem_cons, not_or] at absent
    rw [foldl_cons, ih _ absent.2, get?_insert_of_ne _ _ absent.1]

end

theorem mem_of_get?_foldl_insert
    (found : (entries.foldl (fun built entry => built.insert entry.1 entry.2) map).get? key =
      some value) : (key, value) ∈ entries ∨ map.get? key = some value := by
  induction entries generalizing map with
  | nil => exact .inr found
  | cons entry rest ih =>
    rcases ih found with later | before
    · exact .inl (.tail _ later)
    · rcases of_get?_insert before with ⟨rfl, rfl⟩ | ⟨_, before⟩
      · exact .inl (.head _)
      · exact .inr before

theorem mem_of_get?_ofList
    (found : (ofList entries).get? key = some value) : (key, value) ∈ entries :=
  (mem_of_get?_foldl_insert found).resolve_right nofun

theorem get?_ofList_of_mem
    (distinct : (entries.map Prod.fst).Nodup) (member : (key, value) ∈ entries) :
    (ofList entries).get? key = some value := by
  rcases append_of_mem member with ⟨before, after, rfl⟩
  have absent : key ∉ after.map Prod.fst := by
    rw [map_append, map_cons] at distinct
    exact (nodup_cons.mp (nodup_append.mp distinct).2.1).1
  rw [ofList, foldl_append, foldl_cons, get?_foldl_insert_of_notMem _ _ absent, get?_insert_self]

theorem entries_nodup (map : SortedMap Key Value) : map.entries.Nodup :=
  map.sorted.imp (fun before equal => ne_of_lt before (congrArg Prod.fst equal))

/-- A new key adds one entry. -/
theorem entries_insert_perm (value : Value) (absent : map.get? key = none) :
    (map.insert key value).entries.Perm ((key, value) :: map.entries) := by
  have fresh : (key, value) ∉ map.entries := by
    rw [mem_entries_iff, absent]
    exact (Option.some_ne_none value).symm
  refine (perm_ext_iff_of_nodup (entries_nodup _)
    (nodup_cons.mpr ⟨fresh, map.entries_nodup⟩)).mpr ?_
  rintro ⟨other, stored⟩
  rw [mem_entries_iff, get?_insert, mem_cons, mem_entries_iff]
  by_cases same : other = key
  · subst same
    rw [if_pos rfl, absent]
    simp [eq_comm]
  · simp [same]

/-- Erasing a key removes its entry. -/
theorem entries_erase_perm (found : map.get? key = some value) :
    map.entries.Perm ((key, value) :: (map.erase key).entries) := by
  have gone : (key, value) ∉ (map.erase key).entries := by
    rw [mem_entries_iff, get?_erase, if_pos rfl]
    exact (Option.some_ne_none value).symm
  refine (perm_ext_iff_of_nodup map.entries_nodup (nodup_cons.mpr ⟨gone, entries_nodup _⟩)).mpr ?_
  rintro ⟨other, stored⟩
  rw [mem_entries_iff, mem_cons, mem_entries_iff, get?_erase]
  by_cases same : other = key
  · subst same
    rw [if_pos rfl, found]
    simp [eq_comm]
  · simp [same]

/-- Two maps with the same lookups have the same entry list. -/
@[ext] theorem ext {left right : SortedMap Key Value}
    (same : forall key, left.get? key = right.get? key) : left = right := by
  have entriesSame : left.entries = right.entries := by
    refine List.Perm.eq_of_pairwise
      (fun first second _ _ before after => absurd before (not_lt_of_gt after))
      left.sorted right.sorted ?_
    refine (perm_ext_iff_of_nodup left.entries_nodup right.entries_nodup).mpr ?_
    rintro ⟨key, value⟩
    rw [mem_entries_iff, mem_entries_iff, same key]
  cases left
  cases right
  cases entriesSame
  rfl

/-- Storing a value trades what the old value contributed for what the new one
does. -/
theorem flatMap_entries_insert {Item : Type w} (map : SortedMap Key Value) (key : Key)
    (value : Value) (items : Key -> Value -> List Item) :
    (((map.insert key value).entries.flatMap fun entry => items entry.1 entry.2) ++
        ((map.get? key).map (items key)).getD []).Perm
      (items key value ++ map.entries.flatMap fun entry => items entry.1 entry.2) := by
  cases found : map.get? key with
  | none =>
    rw [Option.map_none, Option.getD_none, append_nil]
    exact (entries_insert_perm value found).flatMap_right _
  | some old =>
    have erased : (map.erase key).get? key = none := by rw [get?_erase, if_pos rfl]
    have sameInsert : map.insert key value = (map.erase key).insert key value := by
      apply ext
      intro other
      rw [get?_insert, get?_insert, get?_erase]
      split_ifs <;> rfl
    have inserted := ((entries_insert_perm value erased).flatMap_right
      fun entry => items entry.1 entry.2)
    have removed := (entries_erase_perm found).flatMap_right fun entry => items entry.1 entry.2
    rw [flatMap_cons] at inserted removed
    rw [sameInsert]
    refine (inserted.append_right _).trans ?_
    rw [append_assoc]
    exact (perm_append_comm.trans removed.symm).append_left _

instance [DecidableEq Value] : DecidableEq (SortedMap Key Value) := fun left right =>
  decidable_of_iff (left.entries = right.entries)
    ⟨fun same => ext (fun key => by rw [get?, get?, same]), fun same => same ▸ rfl⟩

end SortedMap

/-- A finite set, iterated in increasing order. -/
abbrev SortedSet (Value : Type u) [LinearOrder Value] := SortedMap Value Unit

namespace SortedSet

variable {Value : Type u} [LinearOrder Value]

/-- Collect values into a set. -/
def ofValues (values : List Value) : SortedSet Value :=
  SortedMap.ofList (values.map (fun value => (value, ())))

theorem contains_ofValues (values : List Value) (value : Value) :
    (ofValues values).contains value = true <-> value ∈ values := by
  rw [ofValues, SortedMap.contains_ofList]
  simp

theorem ofValues_congr {left right : List Value}
    (same : forall value, value ∈ left <-> value ∈ right) : ofValues left = ofValues right := by
  apply SortedMap.ext
  intro value
  have sameSome : ((ofValues left).get? value).isSome = ((ofValues right).get? value).isSome := by
    have iff := (contains_ofValues left value).trans
      ((same value).trans (contains_ofValues right value).symm)
    exact Bool.eq_iff_iff.mpr iff
  cases first : (ofValues left).get? value <;> cases second : (ofValues right).get? value
  · rfl
  · rw [first, second] at sameSome
    cases sameSome
  · rw [first, second] at sameSome
    cases sameSome
  · rfl

end SortedSet

end Collections
end Krabka
