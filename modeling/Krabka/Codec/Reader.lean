import Mathlib.Algebra.Order.Ring.Int
import Mathlib.Data.List.Basic
import Mathlib.Data.List.Induction
import Mathlib.Tactic.Common

namespace Krabka
namespace Codec

open List

universe u

/-!
# Readers of byte strings

A reader takes a value off the front of a byte string, or fails.  `Exact` ties
it to the encoder of the value: the reader accepts the encodings of the valid
values and nothing else, and it leaves what stands behind them.  An exact
reader is the decoder of a canonical format, because a value has one encoding
and an encoding one value.

Each rule below rewrites a success of a composed reader into a success of the
rest of it.
-/

/-- A reader with the errors `ε`. -/
abbrev Reader (ε : Type) := StateT (List UInt8) (Except ε)

variable {ε α β : Type}

/-- The reader accepts what `put` writes for the values that are `valid`. -/
def Exact (reader : Reader ε α) (valid : α -> Prop) (put : α -> List UInt8) : Prop :=
  forall bytes value rest,
    reader.run bytes = .ok (value, rest) <-> valid value ∧ bytes = put value ++ rest

/-! ## Rules -/

variable {second : α -> Reader ε β} {bytes : List UInt8} {result : β × List UInt8}

theorem bind_eq_ok {first : Reader ε α} :
    (first >>= second).run bytes = .ok result <-> Exists fun value => Exists fun rest =>
        first.run bytes = .ok (value, rest) ∧ (second value).run rest = .ok result := by
  rw [StateT.run_bind]
  cases first.run bytes with
  | error error =>
    constructor
    · intro failed
      cases failed
    · rintro ⟨value, rest, failed, _⟩
      cases failed
  | ok step =>
    refine ⟨fun ran => ⟨step.1, step.2, rfl, ran⟩, ?_⟩
    rintro ⟨value, rest, same, ran⟩
    cases same
    exact ran

variable {put : α -> List UInt8}

/-- After an exact reader the rest of the reader runs on what stands behind the
encoding. -/
theorem Exact.bind_eq_ok {first : Reader ε α} {valid : α -> Prop} (exact : Exact first valid put)
    :
    (first >>= second).run bytes = .ok result <-> Exists fun value => Exists fun rest =>
        (valid value ∧ bytes = put value ++ rest) ∧ (second value).run rest = .ok result := by
  rw [Codec.bind_eq_ok]
  refine exists_congr fun value => exists_congr fun rest => ?_
  rw [exact bytes value rest]

variable {reader : Reader ε α}

/-- An encoding says where it ends. -/
theorem Exact.append_inj {valid : α -> Prop} (exact : Exact reader valid put) {left right : α}
    {after behind : List UInt8} (leftValid : valid left) (rightValid : valid right)
    (same : put left ++ after = put right ++ behind) : left = right ∧ after = behind := by
  have readLeft := (exact _ left after).mpr ⟨leftValid, rfl⟩
  have readRight := (exact _ right behind).mpr ⟨rightValid, same⟩
  rw [readLeft] at readRight
  cases readRight
  exact ⟨rfl, rfl⟩

/-- A check that reads nothing. -/
theorem lift_bind_eq_ok {check : Except ε α} :
    ((liftM check : Reader ε α) >>= second).run bytes = .ok result <->
      Exists fun value => check = .ok value ∧ (second value).run bytes = .ok result := by
  rw [Codec.bind_eq_ok]
  cases check with
  | error error =>
    refine ⟨?_, ?_⟩
    · rintro ⟨value, rest, failed, _⟩
      cases failed
    · rintro ⟨value, failed, _⟩
      cases failed
  | ok checked =>
    refine ⟨?_, ?_⟩
    · rintro ⟨value, rest, same, ran⟩
      cases same
      exact ⟨checked, rfl, ran⟩
    · rintro ⟨value, same, ran⟩
      cases same
      exact ⟨checked, bytes, rfl, ran⟩

theorem pure_eq_ok {value : α} {result : α × List UInt8} :
    (pure value : Reader ε α).run bytes = .ok result <-> result = (value, bytes) := by
  refine ⟨fun same => by cases same; rfl, fun same => by rw [same]; rfl⟩

/-! ## The end of the input -/

/-- Fail when bytes remain. -/
def finish (trailing : ε) : Reader ε Unit := fun bytes =>
  if bytes.isEmpty then .ok ((), bytes) else .error trailing

theorem finish_bind_eq_ok {trailing : ε} {second : Unit -> Reader ε β} :
    (finish trailing >>= second).run bytes = .ok result <->
      bytes = [] ∧ (second ()).run [] = .ok result := by
  rw [Codec.bind_eq_ok]
  cases bytes with
  | nil =>
    refine ⟨?_, fun ran => ⟨(), [], rfl, ran.2⟩⟩
    rintro ⟨value, rest, same, ran⟩
    cases same
    exact ⟨rfl, ran⟩
  | cons byte more =>
    refine ⟨?_, fun impossible => by cases impossible.1⟩
    rintro ⟨value, rest, failed, _⟩
    cases failed

/-! ## Fixed lengths -/

def take (truncated : ε) (count : Nat) : Reader ε (List UInt8) := fun bytes =>
  if count ≤ bytes.length then .ok (bytes.take count, bytes.drop count) else .error truncated

theorem exact_take (truncated : ε) (count : Nat) :
    Exact (take truncated count) (fun taken => taken.length = count) id := by
  intro bytes value rest
  show take truncated count bytes = _ <-> _
  unfold take
  split_ifs with enough
  · simp only [Except.ok.injEq, Prod.mk.injEq, id_eq]
    constructor
    · rintro ⟨rfl, rfl⟩
      exact ⟨length_take_of_le enough, (take_append_drop count bytes).symm⟩
    · rintro ⟨length, rfl⟩
      exact ⟨take_left' length, drop_left' length⟩
  · constructor
    · intro failed
      cases failed
    · rintro ⟨length, rfl⟩
      exact absurd (by simp [length]) enough

/-! ## Big-endian words -/

/-- The last `count` base-256 digits of a number, the highest first. -/
def toBigEndian : Nat -> Nat -> List UInt8
  | 0, _ => []
  | count + 1, value => toBigEndian count (value / 256) ++ [UInt8.ofNat value]

def ofBigEndian (bytes : List UInt8) : Nat :=
  bytes.foldl (fun value byte => value * 256 + byte.toNat) 0

theorem length_toBigEndian (count value : Nat) : (toBigEndian count value).length = count := by
  induction count generalizing value with
  | zero => rfl
  | succ count ih =>
    rw [toBigEndian, length_append, ih, length_singleton]

section

variable (bytes : List UInt8)

theorem ofBigEndian_concat (byte : UInt8) :
    ofBigEndian (bytes ++ [byte]) = ofBigEndian bytes * 256 + byte.toNat := by
  rw [ofBigEndian, foldl_append]
  rfl

theorem ofBigEndian_toBigEndian (count value : Nat) (bounded : value < 256 ^ count) :
    ofBigEndian (toBigEndian count value) = value := by
  induction count generalizing value with
  | zero =>
    have isZero : value = 0 := by simpa using bounded
    rw [isZero]
    rfl
  | succ count ih =>
    have high : value / 256 < 256 ^ count := by
      apply Nat.div_lt_of_lt_mul
      rw [Nat.mul_comm, ← Nat.pow_succ]
      exact bounded
    rw [toBigEndian, ofBigEndian_concat, ih _ high, UInt8.toNat_ofNat']
    exact Nat.div_add_mod' value 256

theorem toBigEndian_ofBigEndian :
    toBigEndian bytes.length (ofBigEndian bytes) = bytes := by
  induction bytes using List.reverseRecOn with
  | nil => rfl
  | append_singleton bytes byte ih =>
    have small : byte.toNat < 256 := byte.toNat_lt
    have high : (ofBigEndian bytes * 256 + byte.toNat) / 256 = ofBigEndian bytes := by omega
    have low : UInt8.ofNat (ofBigEndian bytes * 256 + byte.toNat) = byte := by
      apply UInt8.toNat_inj.mp
      rw [UInt8.toNat_ofNat']
      omega
    rw [length_append, length_singleton, toBigEndian, ofBigEndian_concat, high, low, ih]

theorem ofBigEndian_lt : ofBigEndian bytes < 256 ^ bytes.length := by
  induction bytes using List.reverseRecOn with
  | nil => exact Nat.one_pos
  | append_singleton bytes byte ih =>
    have small : byte.toNat < 256 := byte.toNat_lt
    rw [ofBigEndian_concat, length_append, length_singleton, Nat.pow_succ]
    omega

end

def putWord (count : Nat) (word : BitVec (8 * count)) : List UInt8 := toBigEndian count word.toNat

def word (truncated : ε) (count : Nat) : Reader ε (BitVec (8 * count)) := do
  let bytes ← take truncated count
  return BitVec.ofNat (8 * count) (ofBigEndian bytes)

theorem exact_word (truncated : ε) (count : Nat) :
    Exact (word truncated count) (fun _ => True) (putWord count) := by
  have size : 2 ^ (8 * count) = 256 ^ count := Nat.pow_mul 2 8 count
  intro bytes value rest
  unfold word
  simp only [(exact_take truncated count).bind_eq_ok, pure_eq_ok, Prod.mk.injEq, id_eq, true_and]
  constructor
  · rintro ⟨taken, after, ⟨length, rfl⟩, rfl, rfl⟩
    subst length
    rw [putWord, BitVec.toNat_ofNat, size, Nat.mod_eq_of_lt (ofBigEndian_lt taken),
      toBigEndian_ofBigEndian]
  · rintro rfl
    refine ⟨putWord count value, rest, ⟨length_toBigEndian count _, rfl⟩, ?_, rfl⟩
    rw [putWord, ofBigEndian_toBigEndian _ _ (size ▸ value.isLt), BitVec.ofNat_toNat,
      BitVec.setWidth_eq]

/-- A reader of one representation of the value is a reader of another. -/
theorem Exact.map (exact : Exact reader (fun _ => True) put) (forward : α -> β) (backward : β -> α)
    (left : forall value, backward (forward value) = value)
    (right : forall value, forward (backward value) = value) :
    Exact (forward <$> reader) (fun _ => True) (put ∘ backward) := by
  intro bytes value rest
  rw [map_eq_pure_bind, exact.bind_eq_ok]
  simp only [pure_eq_ok, Prod.mk.injEq, true_and, Function.comp_apply]
  constructor
  · rintro ⟨read, after, rfl, rfl, rfl⟩
    rw [left]
  · rintro rfl
    exact ⟨backward value, rest, rfl, (right value).symm, rfl⟩

end Codec
end Krabka
