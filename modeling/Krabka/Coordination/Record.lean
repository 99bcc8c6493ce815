import Krabka.Codec.Reader

namespace Krabka
namespace Coordination

open Codec

/-!
# The records of `__coordination_state`

`record.rs`: the names of roles and members, the fencing token, and the codec of
keys and values.  `RecordError` holds the data of each message.  The text of a
fencing token (`Display`, `FromStr`) is left out.
-/

def MAX_ROLE_LEN : Nat := 249

def MAX_MEMBER_ID_LEN : Nat := 249

def RECORD_VERSION : Int16 := 0

inductive Part where
  | key
  | registrationValue
  | leaseValue
deriving DecidableEq, Repr

inductive Field where
  | role
  | memberId
deriving DecidableEq, Repr

/-- What the decoder found, with the data that its message shows. -/
inductive Found where
  /-- "truncated coordination state {part}" -/
  | truncated
  /-- "trailing bytes in coordination state {part}" -/
  | trailing
  /-- "negative string length {length} in coordination state {part}" -/
  | negativeLength (length : Int16)
  /-- "non-UTF-8 string in coordination state {part}" -/
  | invalidUtf8
  /-- "unsupported coordination state {part} version {version}" -/
  | unsupportedVersion (version : Int16)
  /-- "unknown coordination state record kind {code}" -/
  | unknownKind (code : Int16)
  /-- "a lease key carries the empty member string, got {member:?}" -/
  | leaseMember (member : String)
deriving DecidableEq, Repr

inductive RecordError where
  | format (part : Part) (message : Found)
  | empty (field : Field)
  | tooLong (field : Field) (length bound : Nat)
  | negativeFencingToken (producerId : Int64) (producerEpoch : Int16)
deriving DecidableEq, Repr

/-! ## Names -/

def checkName (name : String) (field : Field) (bound : Nat) : Except RecordError Int16 :=
  if name.isEmpty then .error (.empty field)
  else if bound < name.utf8ByteSize then .error (.tooLong field name.utf8ByteSize bound)
  else if name.utf8ByteSize < 2 ^ 15 then .ok (Int16.ofNat name.utf8ByteSize)
  else .error (.tooLong field name.utf8ByteSize bound)

structure Name (field : Field) (bound : Nat) where
  text : String
  wireLength : Int16
  checked : checkName text field bound = .ok wireLength
deriving DecidableEq, Repr

def Name.new {field : Field} {bound : Nat} (text : String) : Except RecordError (Name field bound) :=
  match checked : checkName text field bound with
  | .ok wireLength => .ok ⟨text, wireLength, checked⟩
  | .error error => .error error

/-- The text decides the length. -/
theorem Name.text_injective {field : Field} {bound : Nat} :
    Function.Injective (Name.text : Name field bound -> String) := by
  rintro ⟨left, leftLength, leftChecked⟩ ⟨right, rightLength, rightChecked⟩ same
  cases same
  cases leftChecked.symm.trans rightChecked
  rfl

abbrev Role := Name .role MAX_ROLE_LEN

def Role.new (role : String) : Except RecordError Role := Name.new role

abbrev MemberId := Name .memberId MAX_MEMBER_ID_LEN

def MemberId.new (member : String) : Except RecordError MemberId := Name.new member

/-! ## The fencing token -/

structure FencingToken where
  producerId : Int64
  producerEpoch : Int16
  nonnegative : 0 ≤ producerId ∧ 0 ≤ producerEpoch
deriving DecidableEq, Repr

def FencingToken.new (producerId : Int64) (producerEpoch : Int16) :
    Except RecordError FencingToken :=
  if nonnegative : 0 ≤ producerId ∧ 0 ≤ producerEpoch then
    .ok ⟨producerId, producerEpoch, nonnegative⟩
  else .error (.negativeFencingToken producerId producerEpoch)

/-! ## Keys and values -/

inductive RecordKind where
  | registration
  | lease
deriving DecidableEq, Repr

def RecordKind.code : RecordKind -> Int16
  | .registration => 0
  | .lease => 1

def RecordKind.fromCode (code : Int16) : Except RecordError RecordKind :=
  if code = 0 then .ok .registration
  else if code = 1 then .ok .lease
  else .error (.format .key (.unknownKind code))

/-- The fields are public, so a key need not come from a constructor. -/
structure CoordinationKey where
  kind : RecordKind
  role : Role
  member : Option MemberId
deriving DecidableEq, Repr

namespace CoordinationKey

def registration (role : Role) (member : MemberId) : CoordinationKey :=
  ⟨.registration, role, some member⟩

def lease (role : Role) : CoordinationKey := ⟨.lease, role, none⟩

/-- The key comes from one of the constructors. -/
def Built (key : CoordinationKey) : Prop :=
  (Exists fun role => Exists fun member => key = registration role member) ∨
    Exists fun role => key = lease role

end CoordinationKey

structure Registration where
  member : MemberId
  registeredAt : Int64
deriving DecidableEq, Repr

structure Lease where
  member : MemberId
  token : FencingToken
  grantedAt : Int64
  deadline : Int64
deriving DecidableEq, Repr

inductive CoordinationRecord where
  | registration (registration : Registration)
  | lease (lease : Lease)
  | tombstone
deriving DecidableEq, Repr

/-! ## Encoders -/

def putI16 (value : Int16) : List UInt8 := putWord 2 value.toBitVec

def putI64 (value : Int64) : List UInt8 := putWord 8 value.toBitVec

def putString (value : String) (length : Int16) : List UInt8 :=
  putI16 length ++ value.toUTF8.data.toList

/-- The member that `encode_key` writes: nothing for a lease key, whatever its
`member` holds. -/
def CoordinationKey.writtenMember (key : CoordinationKey) : String × Int16 :=
  match key.kind, key.member with
  | .registration, some member => (member.text, member.wireLength)
  | .registration, none => ("", 0)
  | .lease, _ => ("", 0)

def encodeKey (key : CoordinationKey) : List UInt8 :=
  putI16 RECORD_VERSION ++ putI16 key.kind.code ++ putString key.role.text key.role.wireLength ++
    putString key.writtenMember.1 key.writtenMember.2

def encodeValue : CoordinationRecord -> Option (List UInt8)
  | .registration registration =>
    some (putI16 RECORD_VERSION ++
      putString registration.member.text registration.member.wireLength ++
      putI64 registration.registeredAt)
  | .lease lease =>
    some (putI16 RECORD_VERSION ++ putString lease.member.text lease.member.wireLength ++
      putI64 lease.token.producerId ++ putI16 lease.token.producerEpoch ++
      putI64 lease.grantedAt ++ putI64 lease.deadline)
  | .tombstone => none

/-! ## Decoders -/

section Reader

variable (part : Part)

def malformed (message : Found) : RecordError := .format part message

def readI16 : Reader RecordError Int16 := Int16.ofBitVec <$> word (malformed part .truncated) 2

def readI64 : Reader RecordError Int64 := Int64.ofBitVec <$> word (malformed part .truncated) 8

def readString : Reader RecordError String := do
  let length ← readI16 part
  if length < 0 then
    throw (malformed part (.negativeLength length))
  else
    let bytes ← take (malformed part .truncated) length.toNatClampNeg
    match String.fromUTF8? ⟨bytes.toArray⟩ with
    | some value => return value
    | none => throw (malformed part .invalidUtf8)

def readVersion : Reader RecordError Unit := do
  let version ← readI16 part
  if version = RECORD_VERSION then return ()
  else throw (malformed part (.unsupportedVersion version))

def readEnd : Reader RecordError Unit := finish (malformed part .trailing)

end Reader

def decodeMember (kind : RecordKind) (member : String) : Except RecordError (Option MemberId) :=
  match kind with
  | .registration => some <$> MemberId.new member
  | .lease =>
    if member.isEmpty then .ok none else .error (malformed .key (.leaseMember member))

def decodeKey (bytes : List UInt8) : Except RecordError CoordinationKey :=
  StateT.run' (do
    readVersion .key
    let kind ← RecordKind.fromCode (← readI16 .key)
    let role ← readString .key
    let member ← readString .key
    readEnd .key
    let member ← decodeMember kind member
    let role ← Role.new role
    return { kind, role, member }) bytes

def decodeRegistration (bytes : List UInt8) : Except RecordError Registration :=
  StateT.run' (do
    readVersion .registrationValue
    let member ← readString .registrationValue
    let registeredAt ← readI64 .registrationValue
    readEnd .registrationValue
    let member ← MemberId.new member
    return { member, registeredAt }) bytes

def decodeLease (bytes : List UInt8) : Except RecordError Lease :=
  StateT.run' (do
    readVersion .leaseValue
    let member ← readString .leaseValue
    let producerId ← readI64 .leaseValue
    let producerEpoch ← readI16 .leaseValue
    let grantedAt ← readI64 .leaseValue
    let deadline ← readI64 .leaseValue
    readEnd .leaseValue
    let member ← MemberId.new member
    let token ← FencingToken.new producerId producerEpoch
    return { member, token, grantedAt, deadline }) bytes

def decodeValue (kind : RecordKind) : Option (List UInt8) -> Except RecordError CoordinationRecord
  | none => .ok .tombstone
  | some bytes =>
    match kind with
    | .registration => .registration <$> decodeRegistration bytes
    | .lease => .lease <$> decodeLease bytes

end Coordination
end Krabka
