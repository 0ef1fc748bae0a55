import Mathlib.Algebra.Order.BigOperators.Group.List
import Mathlib.Tactic.Linarith
import SplendidLinker.Foundations.WireFormat

/-!
# The tunnel message

`TunnelMessage.proto` as the generated `TunnelMessage.pb.cc` holds it in memory: the eleven
fields, their proto3 defaults, the open enumerations, and `byteSize`, the computation of
`ByteSizeLong`. A `std::string` is a list of bytes; the UTF-8 rule of proto3 `string` fields
is part of `TunnelMessage.Valid`, not of the type.

The protobuf runtime is not part of the repository. `Protobuf` is what the program relies on:
`SerializeToArray` and `ParseFromArray` of `TunnelMessage`, with the two laws that a valid
message is written as exactly `ByteSize` bytes and is read back from them. What
`ParseFromArray` does with any other input is left open.
-/

namespace SplendidLinker

open Foundations WireFormat

/-- The contents of a `std::string` or of a byte buffer. -/
abbrev Bytes := List UInt8

/-- The bytes of a string literal of the source, all of them ASCII. -/
def ascii (s : String) : Bytes := s.toList.map fun c => c.val.toUInt8

/-! ### Enumerations -/

/-- `TunnelMessage_Type`. -/
inductive MessageType
  | request
  | response
  deriving DecidableEq, Repr

/-- `TunnelMessage_MessageCode`. -/
inductive MessageCode
  | authorization
  | establish
  | busy
  | data
  deriving DecidableEq, Repr

/-- `TunnelMessage_PasswordEncryptType`. -/
inductive PasswordEncryptType
  | no
  | base64
  deriving DecidableEq, Repr

/-- `TunnelMessage_LinkEncryptType`. -/
inductive LinkEncryptType
  | rawData
  deriving DecidableEq, Repr

instance : NumberedEnum MessageType where
  number
    | .request => 0
    | .response => 1
  ofNumber? v := if v = 0 then some .request else if v = 1 then some .response else none
  ofNumber?_eq_some v a := by
    cases a <;> grind

instance : NumberedEnum MessageCode where
  number
    | .authorization => 0
    | .establish => 1
    | .busy => 2
    | .data => 3
  ofNumber? v :=
    if v = 0 then some .authorization else if v = 1 then some .establish
    else if v = 2 then some .busy else if v = 3 then some .data else none
  ofNumber?_eq_some v a := by
    cases a <;> grind

instance : NumberedEnum PasswordEncryptType where
  number
    | .no => 0
    | .base64 => 1
  ofNumber? v := if v = 0 then some .no else if v = 1 then some .base64 else none
  ofNumber?_eq_some v a := by
    cases a <;> grind

instance : NumberedEnum LinkEncryptType where
  number
    | .rawData => 0
  ofNumber? v := if v = 0 then some .rawData else none
  ofNumber?_eq_some v a := by
    cases a
    grind

/-! ### Messages -/

/-- `TunnelMessage_TunnelPacket`. -/
structure TunnelPacket where
  packetData : Bytes := []
  deriving DecidableEq

/-- `TunnelMessage`, with the defaults of `SharedCtor`. -/
structure TunnelMessage where
  username : Bytes := []
  password : Bytes := []
  ip : Bytes := []
  submask : Bytes := []
  gateway : Bytes := []
  dns : List Bytes := []
  type : OpenEnum MessageType := .known .request
  messageCode : OpenEnum MessageCode := .known .authorization
  passwordEncryptType : OpenEnum PasswordEncryptType := .known .no
  linkEncryptType : OpenEnum LinkEncryptType := .known .rawData
  packet : Option TunnelPacket := none
  deriving DecidableEq

namespace TunnelMessage

/-- `packet().packetdata()`: an absent packet reads as the default one. -/
def packetData (m : TunnelMessage) : Bytes := (m.packet.getD {}).packetData

/-- `mutable_packet()->set_packetdata(data, size)`. -/
def setPacketData (m : TunnelMessage) (data : Bytes) : TunnelMessage :=
  { m with packet := some { packetData := data } }

@[simp]
theorem packetData_setPacketData (m : TunnelMessage) (data : Bytes) :
    (m.setPacketData data).packetData = data := rfl

/-- A request with the code `code`. -/
def IsRequest (code : MessageCode) (m : TunnelMessage) : Prop :=
  m.type = .known .request ∧ m.messageCode = .known code

instance (code : MessageCode) (m : TunnelMessage) : Decidable (m.IsRequest code) :=
  inferInstanceAs (Decidable (_ ∧ _))

/-! ### Sizes -/

/-- `WireFormatLite::StringSize` and `BytesSize`. -/
def stringSize (s : Bytes) : ℕ := varintSize s.length + s.length

/-- The share of a singular string field: nothing when it is empty. -/
def stringFieldSize (s : Bytes) : ℕ := if 0 < s.length then 1 + stringSize s else 0

/-- The share of an enumeration field: nothing when it is zero. -/
def enumFieldSize (v : Int32) : ℕ := if v ≠ 0 then 1 + varintSize (enumVarint v) else 0

/-- `TunnelMessage_TunnelPacket::ByteSizeLong`. -/
def packetSize (p : TunnelPacket) : ℕ := stringFieldSize p.packetData

/-- The share of the packet field: its tag, its length and its content. -/
def packetFieldSize : Option TunnelPacket → ℕ
  | none => 0
  | some p => 1 + (varintSize (packetSize p) + packetSize p)

/-- `TunnelMessage::ByteSizeLong`. -/
def byteSize (m : TunnelMessage) : ℕ :=
  m.dns.length + (m.dns.map stringSize).sum +
    stringFieldSize m.username + stringFieldSize m.password + stringFieldSize m.ip +
    stringFieldSize m.submask + stringFieldSize m.gateway + packetFieldSize m.packet +
    enumFieldSize m.type.number + enumFieldSize m.messageCode.number +
    enumFieldSize m.passwordEncryptType.number + enumFieldSize m.linkEncryptType.number

/-- The `string` fields, which proto3 requires to be UTF-8. -/
def strings (m : TunnelMessage) : List Bytes :=
  [m.username, m.password, m.ip, m.submask, m.gateway] ++ m.dns

/-- A message that protobuf can write and read back: its strings are UTF-8 and its encoding is
shorter than 2 GiB. -/
structure Valid (m : TunnelMessage) : Prop where
  utf8 : ∀ s ∈ m.strings, validUtf8 s = true
  size : m.byteSize < 2 ^ 31

/-- A message whose type is not the default one is not encoded by nothing. -/
theorem byteSize_pos_of_response {m : TunnelMessage} (h : m.type = .known .response) :
    0 < m.byteSize := by
  have h2 : 0 < enumFieldSize m.type.number := by
    rw [h]
    exact Nat.add_pos_left (by decide) _
  rw [byteSize]
  omega

/-- The size depends on the packet data through its length only. -/
theorem byteSize_setPacketData_congr (m : TunnelMessage) {d d' : Bytes}
    (h : d.length = d'.length) :
    (m.setPacketData d).byteSize = (m.setPacketData d').byteSize := by
  have hp : packetSize { packetData := d } = packetSize { packetData := d' } := by
    simp only [packetSize, stringFieldSize, stringSize, h]
  simp only [byteSize, setPacketData, packetFieldSize, hp]

/-- A packet adds its data and at most 22 bytes to the size. -/
theorem byteSize_setPacketData_le (m : TunnelMessage) (d : Bytes) :
    (m.setPacketData d).byteSize ≤ m.byteSize + d.length + 22 := by
  have hstring : packetSize { packetData := d } ≤ d.length + 11 := by
    have := varintSize_le d.length
    simp only [packetSize, stringFieldSize, stringSize]
    split_ifs <;> omega
  have hpacket : packetFieldSize (some { packetData := d }) ≤ d.length + 22 := by
    have := varintSize_le (packetSize { packetData := d })
    rw [packetFieldSize]
    omega
  simp only [byteSize, setPacketData]
  omega

end TunnelMessage

/-- The protobuf runtime as the program uses it, on `TunnelMessage`. -/
structure Protobuf where
  /-- The bytes `SerializeToArray` writes. -/
  serializeToArray : TunnelMessage → Bytes
  /-- `ParseFromArray(data, size)`: whether it succeeds, and the message it leaves behind. -/
  parseFromArray : Bytes → ℤ → Bool × TunnelMessage
  /-- A valid message is written as `ByteSize` bytes. -/
  length_serialize : ∀ m, m.Valid → (serializeToArray m).length = m.byteSize
  /-- A valid message is read back. -/
  parse_serialize : ∀ m, m.Valid →
    parseFromArray (serializeToArray m) m.byteSize = (true, m)

end SplendidLinker
