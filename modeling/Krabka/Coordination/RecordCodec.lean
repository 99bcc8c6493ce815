import Krabka.Coordination.Record

namespace Krabka
namespace Coordination

open Codec List Option

/-!
# The codec is canonical

Each decoder accepts the encodings of the well-formed values and nothing else
(`decodeKey_eq_ok`, `decodeValue_eq_ok`).  The laws of the codec follow from
these two equivalences.
-/

/-! ## Names and tokens -/

namespace Name

variable {field : Field} {bound : Nat}

section

variable (name : Name field bound)

include name

theorem wireLength_eq :
    name.wireLength = Int16.ofNat name.text.utf8ByteSize := by
  have checked := name.checked
  unfold checkName at checked
  split_ifs at checked
  exact (Except.ok.inj checked).symm

theorem size_lt : name.text.utf8ByteSize < 2 ^ 15 := by
  have checked := name.checked
  unfold checkName at checked
  split_ifs at checked with isEmpty long short
  exact short

theorem text_ne_empty : name.text ≠ "" := by
  intro isEmpty
  have checked := name.checked
  rw [isEmpty] at checked
  cases checked

end

theorem new_eq_ok {text : String} {name : Name field bound} :
    Name.new text = .ok name <-> name.text = text := by
  unfold Name.new
  split
  case h_1 wireLength checked =>
      rw [Except.ok.injEq]
      exact ⟨fun same => same ▸ rfl, fun same => text_injective same.symm⟩
  case h_2 error failed =>
      refine ⟨nofun, ?_⟩
      rintro rfl
      rw [name.checked] at failed
      cases failed

end Name

theorem FencingToken.new_eq_ok {producerId : Int64} {producerEpoch : Int16} {token : FencingToken} :
    FencingToken.new producerId producerEpoch = .ok token <->
      token.producerId = producerId ∧ token.producerEpoch = producerEpoch := by
  unfold FencingToken.new
  split_ifs with nonnegative
  · rw [Except.ok.injEq]
    constructor
    · rintro rfl
      exact ⟨rfl, rfl⟩
    · rintro ⟨rfl, rfl⟩
      rfl
  · refine ⟨nofun, ?_⟩
    rintro ⟨rfl, rfl⟩
    exact absurd token.nonnegative nonnegative

variable {kind : RecordKind}

theorem RecordKind.fromCode_eq_ok {code : Int16} :
    RecordKind.fromCode code = .ok kind <-> code = kind.code := by
  unfold RecordKind.fromCode
  split_ifs with zero one
  · subst zero
    cases kind <;> decide
  · subst one
    cases kind <;> decide
  · refine ⟨nofun, ?_⟩
    rintro rfl
    cases kind
    · exact absurd rfl zero
    · exact absurd rfl one

/-! ## Readers -/

variable {α : Type} (part : Part)

theorem exact_readI16 : Exact (readI16 part) (fun _ => True) putI16 :=
  (exact_word _ 2).map Int16.ofBitVec Int16.toBitVec (fun _ => rfl) (fun _ => rfl)

theorem exact_readI64 : Exact (readI64 part) (fun _ => True) putI64 :=
  (exact_word _ 8).map Int64.ofBitVec Int64.toBitVec (fun _ => rfl) (fun _ => rfl)

theorem exact_readVersion :
    Exact (readVersion part) (fun _ => True) (fun _ => putI16 RECORD_VERSION) := by
  intro bytes value rest
  unfold readVersion
  simp only [(exact_readI16 part).bind_eq_ok, true_and]
  constructor
  · rintro ⟨version, after, rfl, ran⟩
    split_ifs at ran with isVersion <;> cases ran
    rw [isVersion]
  · rintro rfl
    exact ⟨RECORD_VERSION, rest, rfl, by rw [if_pos rfl]; rfl⟩

variable {bytes : List UInt8}

theorem fromUTF8_eq_some {value : String} :
    String.fromUTF8? ⟨bytes.toArray⟩ = some value <-> bytes = value.toUTF8.data.toList := by
  unfold String.fromUTF8?
  split_ifs with valid
  · rw [some.injEq, ← String.toByteArray_inj, ByteArray.ext_iff]
    exact ⟨fun same => congrArg Array.toList same, fun same => congrArg List.toArray same⟩
  · refine ⟨nofun, ?_⟩
    rintro rfl
    exact absurd value.isValidUTF8 valid

theorem exact_readString : Exact (readString part) (fun value => value.utf8ByteSize < 2 ^ 15)
    (fun value => putString value (Int16.ofNat value.utf8ByteSize)) := by
  intro bytes value rest
  unfold readString
  simp only [(exact_readI16 part).bind_eq_ok, true_and]
  constructor
  · rintro ⟨length, after, rfl, ran⟩
    split_ifs at ran with negative
    · cases ran
    · rw [(exact_take _ _).bind_eq_ok] at ran
      rcases ran with ⟨taken, last, ⟨count, rfl⟩, ran⟩
      split at ran
      case h_1 text decoded =>
          cases ran
          rw [fromUTF8_eq_some] at decoded
          have size : value.utf8ByteSize = length.toNatClampNeg := by
            rw [← count, decoded]
            rfl
          rw [size, putString, Int16.ofNat_toNatClampNeg length (Int16.not_lt.mp negative), decoded,
            append_assoc]
          exact ⟨length.toNatClampNeg_lt, rfl⟩
      case h_2 => cases ran
  · rintro ⟨short, rfl⟩
    refine ⟨Int16.ofNat value.utf8ByteSize, value.toUTF8.data.toList ++ rest, ?_, ?_⟩
    · rw [putString, append_assoc]
    · have clamped := Int16.toNatClampNeg_ofNat_of_lt short
      have nonnegative : ¬ Int16.ofNat value.utf8ByteSize < 0 := by
        rw [Int16.lt_iff_toInt_lt, Int16.toInt_ofNat_of_lt short]
        exact Int.not_lt.mpr (Int.natCast_nonneg _)
      rw [if_neg nonnegative, (exact_take _ _).bind_eq_ok, clamped]
      refine ⟨value.toUTF8.data.toList, rest, ⟨rfl, rfl⟩, ?_⟩
      rw [fromUTF8_eq_some.mpr rfl]
      rfl

/-! ## Decoders -/

theorem run'_eq_ok {reader : Reader RecordError α} {value : α} :
    StateT.run' reader bytes = .ok value <->
      Exists fun rest => reader.run bytes = .ok (value, rest) := by
  unfold StateT.run' StateT.run
  cases reader bytes with
  | error error => exact ⟨nofun, nofun⟩
  | ok result =>
    refine ⟨fun same => ⟨result.2, ?_⟩, ?_⟩
    · cases same
      rfl
    · rintro ⟨rest, same⟩
      cases same
      rfl

theorem CoordinationKey.writtenMember_eq (key : CoordinationKey) :
    key.writtenMember.2 = Int16.ofNat key.writtenMember.1.utf8ByteSize ∧
      key.writtenMember.1.utf8ByteSize < 2 ^ 15 := by
  rcases key with ⟨kind, role, member⟩
  cases kind with
  | registration =>
    cases member with
    | none => exact ⟨rfl, Nat.two_pow_pos 15⟩
    | some member => exact ⟨member.wireLength_eq, member.size_lt⟩
  | lease => exact ⟨rfl, Nat.two_pow_pos 15⟩

theorem decodeMember_eq_ok {text : String} {member : Option MemberId}
    (role : Role) : decodeMember kind text = .ok member <->
      CoordinationKey.Built ⟨kind, role, member⟩ ∧
        text = (CoordinationKey.writtenMember ⟨kind, role, member⟩).1 := by
  cases kind with
  | registration =>
    cases member with
    | none =>
      constructor
      · intro decoded
        cases read : MemberId.new text <;> simp [decodeMember, read] at decoded
      · rintro ⟨⟨_, _, impossible⟩ | ⟨_, impossible⟩, _⟩ <;> cases impossible
    | some member =>
      have found : decodeMember .registration text = .ok (some member) <->
          MemberId.new text = .ok member := by
        cases read : MemberId.new text <;> simp [decodeMember, read]
      rw [found, MemberId.new, Name.new_eq_ok]
      exact ⟨fun same => ⟨.inl ⟨role, member, rfl⟩, same.symm⟩, fun built => built.2.symm⟩
  | lease =>
    unfold decodeMember
    cases member with
    | none =>
      constructor
      · intro decoded
        split_ifs at decoded with isEmpty
        exact ⟨.inr ⟨role, rfl⟩, String.isEmpty_iff.mp isEmpty⟩
      · rintro ⟨_, rfl⟩
        rfl
    | some member =>
      constructor
      · intro decoded
        split_ifs at decoded
        cases decoded
      · rintro ⟨⟨_, _, impossible⟩ | ⟨_, impossible⟩, _⟩ <;> cases impossible

/-- `decode_key` accepts the encodings of the keys that the constructors build. -/
theorem decodeKey_eq_ok {key : CoordinationKey} :
    decodeKey bytes = .ok key <-> key.Built ∧ bytes = encodeKey key := by
  unfold decodeKey readEnd
  simp only [run'_eq_ok, (exact_readVersion .key).bind_eq_ok, (exact_readI16 .key).bind_eq_ok,
    (exact_readString .key).bind_eq_ok, lift_bind_eq_ok, finish_bind_eq_ok, pure_eq_ok, true_and,
    Prod.mk.injEq, RecordKind.fromCode_eq_ok, Role.new, Name.new_eq_ok]
  constructor
  · rintro ⟨_, _, _, rfl, _, _, rfl, kind, rfl, _, _, ⟨_, rfl⟩, text, _, ⟨_, rfl⟩, rfl, member, decoded,
      role, rfl, rfl, _⟩
    rw [decodeMember_eq_ok role] at decoded
    rcases decoded with ⟨built, rfl⟩
    refine ⟨built, ?_⟩
    simp only [encodeKey, role.wireLength_eq, (CoordinationKey.writtenMember_eq _).1,
      append_assoc, append_nil]
  · rintro ⟨built, rfl⟩
    have written := key.writtenMember_eq
    have member : decodeMember key.kind key.writtenMember.1 = .ok key.member :=
      (decodeMember_eq_ok key.role).mpr ⟨built, rfl⟩
    refine ⟨[], (), _, ?_, _, _, rfl, key.kind, rfl, key.role.text, _, ⟨key.role.size_lt, rfl⟩,
      key.writtenMember.1, [], ⟨written.2, rfl⟩, rfl, key.member, member, key.role, rfl, rfl, rfl⟩
    simp only [encodeKey, key.role.wireLength_eq, written.1, append_assoc, append_nil]

theorem decodeRegistration_eq_ok {registration : Registration} :
    decodeRegistration bytes = .ok registration <->
      some bytes = encodeValue (.registration registration) := by
  unfold decodeRegistration readEnd
  simp only [run'_eq_ok, (exact_readVersion .registrationValue).bind_eq_ok,
    (exact_readI64 .registrationValue).bind_eq_ok, (exact_readString .registrationValue).bind_eq_ok,
    lift_bind_eq_ok, finish_bind_eq_ok, pure_eq_ok, true_and, Prod.mk.injEq, MemberId.new,
    Name.new_eq_ok]
  constructor
  · rintro ⟨_, _, _, rfl, _, _, ⟨_, rfl⟩, registeredAt, _, rfl, rfl, member, rfl, rfl, _⟩
    simp only [encodeValue, member.wireLength_eq, append_assoc, append_nil]
  · intro encoded
    cases encoded
    refine ⟨[], (), _, ?_, registration.member.text, _, ⟨registration.member.size_lt, rfl⟩,
      registration.registeredAt, [], rfl, rfl, registration.member, rfl, rfl, rfl⟩
    simp only [registration.member.wireLength_eq, append_assoc, append_nil]

theorem decodeLease_eq_ok {lease : Lease} :
    decodeLease bytes = .ok lease <-> some bytes = encodeValue (.lease lease) := by
  unfold decodeLease readEnd
  simp only [run'_eq_ok, (exact_readVersion .leaseValue).bind_eq_ok,
    (exact_readI16 .leaseValue).bind_eq_ok, (exact_readI64 .leaseValue).bind_eq_ok,
    (exact_readString .leaseValue).bind_eq_ok, lift_bind_eq_ok, finish_bind_eq_ok, pure_eq_ok,
    true_and, Prod.mk.injEq, MemberId.new, Name.new_eq_ok, FencingToken.new_eq_ok]
  constructor
  · rintro ⟨_, _, _, rfl, _, _, ⟨_, rfl⟩, _, _, rfl, _, _, rfl, _, _, rfl, _, _, rfl, rfl, member, rfl,
      token, ⟨rfl, rfl⟩, rfl, _⟩
    simp only [encodeValue, member.wireLength_eq, append_assoc, append_nil]
  · intro encoded
    cases encoded
    refine ⟨[], (), _, ?_, lease.member.text, _, ⟨lease.member.size_lt, rfl⟩, lease.token.producerId,
      _, rfl, lease.token.producerEpoch, _, rfl, lease.grantedAt, _, rfl, lease.deadline, [], rfl, rfl,
      lease.member, rfl, lease.token, ⟨rfl, rfl⟩, rfl, rfl⟩
    simp only [lease.member.wireLength_eq, append_assoc, append_nil]

/-- The kind of the keys that a value stands under.  A tombstone stands under
both. -/
def CoordinationRecord.StandsUnder : CoordinationRecord -> RecordKind -> Prop
  | .registration _, kind => kind = .registration
  | .lease _, kind => kind = .lease
  | .tombstone, _ => True

variable {record : CoordinationRecord}

theorem decodeValue_eq_ok {value : Option (List UInt8)} : decodeValue kind value = .ok record <->
      record.StandsUnder kind ∧ value = encodeValue record := by
  cases value with
  | none => cases record <;> simp [decodeValue, encodeValue, CoordinationRecord.StandsUnder]
  | some bytes =>
    cases kind with
    | registration =>
      cases record with
      | registration registration =>
        have found : decodeValue .registration (some bytes) = .ok (.registration registration) <->
              decodeRegistration bytes = .ok registration := by
          cases read : decodeRegistration bytes <;> simp [decodeValue, read]
        rw [found, decodeRegistration_eq_ok]
        exact ⟨fun same => ⟨rfl, same⟩, fun same => same.2⟩
      | _ =>
        cases read : decodeRegistration bytes <;>
          simp [decodeValue, read, CoordinationRecord.StandsUnder, encodeValue]
    | lease =>
      cases record with
      | lease lease =>
        have found : decodeValue .lease (some bytes) = .ok (.lease lease) <->
            decodeLease bytes = .ok lease := by
          cases read : decodeLease bytes <;> simp [decodeValue, read]
        rw [found, decodeLease_eq_ok]
        exact ⟨fun same => ⟨rfl, same⟩, fun same => same.2⟩
      | _ =>
        cases read : decodeLease bytes <;>
          simp [decodeValue, read, CoordinationRecord.StandsUnder, encodeValue]

/-! ## Ends of encodings -/

variable {after behind : List UInt8}

/-- Two strings with their length words, each followed by more bytes. -/
theorem putString_append_inj {left right : String}
    (leftShort : left.utf8ByteSize < 2 ^ 15) (rightShort : right.utf8ByteSize < 2 ^ 15)
    (same : putString left (Int16.ofNat left.utf8ByteSize) ++ after =
      putString right (Int16.ofNat right.utf8ByteSize) ++ behind) :
    left = right ∧ after = behind :=
  (exact_readString .key).append_inj leftShort rightShort same

theorem name_append_inj {field : Field} {bound : Nat} {left right : Name field bound}
    (same : putString left.text left.wireLength ++ after =
      putString right.text right.wireLength ++ behind) : left = right ∧ after = behind := by
  rw [left.wireLength_eq, right.wireLength_eq] at same
  have texts := putString_append_inj left.size_lt right.size_lt same
  exact ⟨Name.text_injective texts.1, texts.2⟩

theorem i16_append_inj {left right : Int16}
    (same : putI16 left ++ after = putI16 right ++ behind) : left = right ∧ after = behind :=
  (exact_readI16 .key).append_inj trivial trivial same

theorem i64_append_inj {left right : Int64}
    (same : putI64 left ++ after = putI64 right ++ behind) : left = right ∧ after = behind :=
  (exact_readI64 .key).append_inj trivial trivial same

variable {right left : CoordinationKey}

theorem encodeKey_append_inj (same : encodeKey left ++ after = encodeKey right ++ behind) :
    (left.kind = right.kind ∧ left.role = right.role ∧
      left.writtenMember.1 = right.writtenMember.1) ∧ after = behind := by
  simp only [encodeKey, append_assoc] at same
  have kinds := i16_append_inj (i16_append_inj same).2
  have roles := name_append_inj kinds.2
  rw [left.writtenMember_eq.1, right.writtenMember_eq.1] at roles
  have members := putString_append_inj left.writtenMember_eq.2 right.writtenMember_eq.2 roles.2
  refine ⟨⟨?_, roles.1, members.1⟩, members.2⟩
  have codes := RecordKind.fromCode_eq_ok.mpr kinds.1
  rw [RecordKind.fromCode_eq_ok.mpr rfl] at codes
  exact Except.ok.inj codes

/-- Only the member of a lease key is lost. -/
theorem member_eq_of_written (kinds : left.kind = right.kind)
    (registers : left.kind = .registration) (written : left.writtenMember.1 = right.writtenMember.1) :
    left.member = right.member := by
  rcases left with ⟨kind, role, leftMember⟩
  rcases right with ⟨other, otherRole, rightMember⟩
  subst kinds registers
  cases leftMember with
  | none =>
    cases rightMember with
    | none => rfl
    | some member => exact absurd written.symm member.text_ne_empty
  | some member =>
    cases rightMember with
    | none => exact absurd written member.text_ne_empty
    | some second => exact congrArg some (Name.text_injective written)

theorem encodeValue_append {other : CoordinationRecord} {extra : List UInt8}
    (stands : record.StandsUnder kind) (others : other.StandsUnder kind)
    (encoded : encodeValue record = some bytes) (more : encodeValue other = some (bytes ++ extra)) :
    extra = [] := by
  cases record with
  | tombstone => cases encoded
  | registration registration =>
    cases other with
    | tombstone => cases more
    | lease lease => exact absurd (stands.symm.trans others) (by decide)
    | registration second =>
      cases encoded
      simp only [encodeValue, some.injEq, append_assoc] at more
      have members := name_append_inj (i16_append_inj more).2
      have times := i64_append_inj ((append_nil (putI64 second.registeredAt)).trans members.2)
      exact times.2.symm
  | lease lease =>
    cases other with
    | tombstone => cases more
    | registration registration => exact absurd (stands.symm.trans others) (by decide)
    | lease second =>
      cases encoded
      simp only [encodeValue, some.injEq, append_assoc] at more
      have members := name_append_inj (i16_append_inj more).2
      have epochs := i16_append_inj (i64_append_inj members.2).2
      have deadlines := i64_append_inj ((append_nil (putI64 second.deadline)).trans
        (i64_append_inj epochs.2).2)
      exact deadlines.2.symm

/-! ## The laws of the codec -/

theorem error_of_not_ok {ε α : Type} {result : Except ε α} (notOk : forall value, result ≠ .ok value) :
    Exists fun error => result = .error error := by
  cases result with
  | error error => exact ⟨error, rfl⟩
  | ok value => exact absurd rfl (notOk value)

/-- The codec of `__coordination_state`: round trips in both directions, nothing
else is accepted, no encoding is a beginning of another, and different keys have
different bytes.  The last part is about keys with any fields: only the member of
a lease key does not reach the bytes. -/
theorem codec_canonical :
    (forall key, key.Built -> decodeKey (encodeKey key) = .ok key) ∧
    (forall record kind, record.StandsUnder kind ->
      decodeValue kind (encodeValue record) = .ok record) ∧
    (forall bytes key, decodeKey bytes = .ok key -> key.Built ∧ encodeKey key = bytes) ∧
    (forall kind value record, decodeValue kind value = .ok record ->
      record.StandsUnder kind ∧ encodeValue record = value) ∧
    (forall bytes, (forall key, key.Built -> encodeKey key ≠ bytes) ->
      Exists fun error => decodeKey bytes = .error error) ∧
    (forall kind value, (forall record, record.StandsUnder kind -> encodeValue record ≠ value) ->
      Exists fun error => decodeValue kind value = .error error) ∧
    (forall key front extra, key.Built -> extra ≠ [] ->
      (Exists fun error => decodeKey (encodeKey key ++ extra) = .error error) ∧
      (front ++ extra = encodeKey key -> Exists fun error => decodeKey front = .error error)) ∧
    (forall record kind bytes front extra, record.StandsUnder kind ->
      encodeValue record = some bytes -> extra ≠ [] ->
      (Exists fun error => decodeValue kind (some (bytes ++ extra)) = .error error) ∧
      (front ++ extra = bytes -> Exists fun error => decodeValue kind (some front) = .error error)) ∧
    (forall left right, left.Built -> right.Built ->
      left.role ≠ right.role ∨ left.kind ≠ right.kind ∨ left.member ≠ right.member ->
        encodeKey left ≠ encodeKey right) ∧
    (forall left right, encodeKey left = encodeKey right ->
      left.role = right.role ∧ left.kind = right.kind ∧
        (left.kind = .registration -> left.member = right.member)) := by
  refine ⟨?_, ?_, ?_, ?_, ?_, ?_, ?_, ?_, ?_, ?_⟩
  · exact fun key built => decodeKey_eq_ok.mpr ⟨built, rfl⟩
  · exact fun record kind stands => decodeValue_eq_ok.mpr ⟨stands, rfl⟩
  · intro bytes key decoded
    have built := decodeKey_eq_ok.mp decoded
    exact ⟨built.1, built.2.symm⟩
  · intro kind value record decoded
    have stands := decodeValue_eq_ok.mp decoded
    exact ⟨stands.1, stands.2.symm⟩
  · intro bytes other
    refine error_of_not_ok fun key decoded => ?_
    have built := decodeKey_eq_ok.mp decoded
    exact other key built.1 built.2.symm
  · intro kind value other
    refine error_of_not_ok fun record decoded => ?_
    have stands := decodeValue_eq_ok.mp decoded
    exact other record stands.1 stands.2.symm
  · intro key front extra _ more
    refine ⟨error_of_not_ok fun other decoded => more ?_, fun cut =>
      error_of_not_ok fun other decoded => more ?_⟩
    · have same := (decodeKey_eq_ok.mp decoded).2.trans (append_nil _).symm
      exact (encodeKey_append_inj same).2
    · have same := (decodeKey_eq_ok.mp decoded).2
      rw [same, ← append_nil (encodeKey key)] at cut
      exact (encodeKey_append_inj cut).2
  · intro record kind bytes front extra stands encoded more
    refine ⟨error_of_not_ok fun other decoded => more ?_, fun cut =>
      error_of_not_ok fun other decoded => more ?_⟩
    · have found := decodeValue_eq_ok.mp decoded
      exact encodeValue_append stands found.1 encoded found.2.symm
    · have found := decodeValue_eq_ok.mp decoded
      exact encodeValue_append found.1 stands found.2.symm (cut ▸ encoded)
  · intro left right leftBuilt rightBuilt different same
    have decoded := decodeKey_eq_ok.mpr ⟨leftBuilt, same.symm⟩
    rw [decodeKey_eq_ok.mpr ⟨rightBuilt, rfl⟩] at decoded
    cases decoded
    rcases different with roles | kinds | members
    · exact roles rfl
    · exact kinds rfl
    · exact members rfl
  · intro left right same
    rw [← append_nil (encodeKey left), ← append_nil (encodeKey right)] at same
    have fields := (encodeKey_append_inj same).1
    exact ⟨fields.2.1, fields.1, fun registers =>
      member_eq_of_written fields.1 registers fields.2.2⟩

end Coordination
end Krabka
