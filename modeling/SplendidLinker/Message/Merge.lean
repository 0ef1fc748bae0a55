import SplendidLinker.Message.TunnelMessage

/-!
# Clearing, copying and merging messages

`Clear`, `MergeFrom`, `CopyFrom` and the copy constructor of `TunnelMessage.pb.cc`. A field is
merged by its kind: the repeated field is appended to, a singular one is replaced unless the
source has its default value, and the packet is merged in turn.

Messages under `mergeFrom` are a monoid (`mergeFrom_assoc`, `empty_mergeFrom`,
`mergeFrom_empty`), with the default message as the unit, and the encoding of what two messages
merge to is never longer than the two encodings (`byteSize_mergeFrom_le`).
-/

namespace SplendidLinker

open Foundations WireFormat

/-! ### By the kind of the field -/

/-- A string or bytes field: `AssignWithDefault` if the source has it. -/
def mergeString (s source : Bytes) : Bytes := if 0 < source.length then source else s

/-- An enumeration field: it is set if the source has another number than zero. -/
def mergeEnum {α : Type} [NumberedEnum α] (e source : OpenEnum α) : OpenEnum α :=
  if source.number ≠ 0 then source else e

theorem mergeString_assoc (s t u : Bytes) :
    mergeString (mergeString s t) u = mergeString s (mergeString t u) := by
  simp only [mergeString]
  split_ifs <;> rfl

@[simp]
theorem empty_mergeString (s : Bytes) : mergeString [] s = s := by
  rw [mergeString]
  split_ifs with h
  · rfl
  · exact (List.length_eq_zero_iff.mp (by omega)).symm

@[simp]
theorem mergeString_empty (s : Bytes) : mergeString s [] = s := rfl

section Enum

variable {α : Type} [NumberedEnum α]

theorem mergeEnum_assoc (d e f : OpenEnum α) :
    mergeEnum (mergeEnum d e) f = mergeEnum d (mergeEnum e f) := by
  simp only [mergeEnum]
  split_ifs <;> rfl

/-- A field with its default value is replaced in any case. -/
theorem mergeEnum_of_number_eq_zero {d : OpenEnum α} (h : d.number = 0) (e : OpenEnum α) :
    mergeEnum d e = e := by
  rw [mergeEnum]
  split_ifs with he
  · rfl
  · rw [← OpenEnum.ofNumber_number d, ← OpenEnum.ofNumber_number e, h, not_not.mp he]

/-- A source with the default value replaces nothing. -/
theorem mergeEnum_eq_left {e : OpenEnum α} (h : e.number = 0) (d : OpenEnum α) :
    mergeEnum d e = d := by
  rw [mergeEnum, if_neg (not_not.mpr h)]

end Enum

namespace TunnelPacket

/-- `TunnelMessage_TunnelPacket::MergeFrom`. -/
def mergeFrom (p source : TunnelPacket) : TunnelPacket where
  packetData := mergeString p.packetData source.packetData

theorem mergeFrom_assoc (p q r : TunnelPacket) :
    (p.mergeFrom q).mergeFrom r = p.mergeFrom (q.mergeFrom r) :=
  congrArg TunnelPacket.mk (mergeString_assoc _ _ _)

@[simp]
theorem empty_mergeFrom (p : TunnelPacket) : mergeFrom {} p = p :=
  congrArg TunnelPacket.mk (empty_mergeString _)

/-- The size after a merge is that of one of the two. -/
theorem packetSize_mergeFrom (p q : TunnelPacket) :
    TunnelMessage.packetSize (p.mergeFrom q) = TunnelMessage.packetSize p ∨
      TunnelMessage.packetSize (p.mergeFrom q) = TunnelMessage.packetSize q := by
  rw [mergeFrom, mergeString]
  split_ifs
  · exact .inr rfl
  · exact .inl rfl

end TunnelPacket

namespace TunnelMessage

/-! ### Messages -/

/-- `TunnelMessage::Clear`. -/
def clear (m : TunnelMessage) : TunnelMessage :=
  { m with
    dns := []
    username := []
    password := []
    ip := []
    submask := []
    gateway := []
    packet := none
    type := .known .request
    messageCode := .known .authorization
    passwordEncryptType := .known .no
    linkEncryptType := .known .rawData }

/-- The packet field under the test `from.has_packet()`: `mutable_packet()->MergeFrom(…)`. -/
def mergePacketField (packet : Option TunnelPacket) : Option TunnelPacket → Option TunnelPacket
  | none => packet
  | some source => some ((packet.getD {}).mergeFrom source)

/-- `TunnelMessage::MergeFrom`. -/
def mergeFrom (m source : TunnelMessage) : TunnelMessage where
  dns := m.dns ++ source.dns
  username := mergeString m.username source.username
  password := mergeString m.password source.password
  ip := mergeString m.ip source.ip
  submask := mergeString m.submask source.submask
  gateway := mergeString m.gateway source.gateway
  packet := mergePacketField m.packet source.packet
  type := mergeEnum m.type source.type
  messageCode := mergeEnum m.messageCode source.messageCode
  passwordEncryptType := mergeEnum m.passwordEncryptType source.passwordEncryptType
  linkEncryptType := mergeEnum m.linkEncryptType source.linkEncryptType

/-- `TunnelMessage::CopyFrom`; `none` is the message itself, which is left as it is. -/
def copyFrom (m : TunnelMessage) : Option TunnelMessage → TunnelMessage
  | none => m
  | some source => m.clear.mergeFrom source

/-- `TunnelMessage::TunnelMessage(const TunnelMessage&)`: the strings are assigned where they are
not empty, and the enumerations copied with `memcpy`. -/
def copy (source : TunnelMessage) : TunnelMessage where
  dns := source.dns
  username := mergeString [] source.username
  password := mergeString [] source.password
  ip := mergeString [] source.ip
  submask := mergeString [] source.submask
  gateway := mergeString [] source.gateway
  packet := source.packet.map fun p => { packetData := mergeString [] p.packetData }
  type := source.type
  messageCode := source.messageCode
  passwordEncryptType := source.passwordEncryptType
  linkEncryptType := source.linkEncryptType

/-! ### The monoid of messages -/

theorem mergePacketField_assoc (p q r : Option TunnelPacket) :
    mergePacketField (mergePacketField p q) r = mergePacketField p (mergePacketField q r) := by
  cases r with
  | none => rfl
  | some r =>
    cases q with
    | none => simp [mergePacketField]
    | some q =>
      simp only [mergePacketField, Option.getD_some, TunnelPacket.mergeFrom_assoc]

theorem mergeFrom_assoc (a b c : TunnelMessage) :
    (a.mergeFrom b).mergeFrom c = a.mergeFrom (b.mergeFrom c) := by
  simp only [mergeFrom, List.append_assoc, mergeString_assoc, mergeEnum_assoc,
    mergePacketField_assoc]

@[simp]
theorem empty_mergeFrom (m : TunnelMessage) : mergeFrom {} m = m := by
  have hpacket : mergePacketField none m.packet = m.packet := by
    cases m.packet <;> simp [mergePacketField]
  simp only [mergeFrom, List.nil_append, empty_mergeString, hpacket,
    mergeEnum_of_number_eq_zero (show (OpenEnum.known MessageType.request).number = 0 from rfl),
    mergeEnum_of_number_eq_zero
      (show (OpenEnum.known MessageCode.authorization).number = 0 from rfl),
    mergeEnum_of_number_eq_zero (show (OpenEnum.known PasswordEncryptType.no).number = 0 from rfl),
    mergeEnum_of_number_eq_zero (show (OpenEnum.known LinkEncryptType.rawData).number = 0 from rfl)]

@[simp]
theorem mergeFrom_empty (m : TunnelMessage) : m.mergeFrom {} = m := by
  simp only [mergeFrom, List.append_nil, mergeString_empty, mergePacketField,
    mergeEnum_eq_left (show (OpenEnum.known MessageType.request).number = 0 from rfl),
    mergeEnum_eq_left (show (OpenEnum.known MessageCode.authorization).number = 0 from rfl),
    mergeEnum_eq_left (show (OpenEnum.known PasswordEncryptType.no).number = 0 from rfl),
    mergeEnum_eq_left (show (OpenEnum.known LinkEncryptType.rawData).number = 0 from rfl)]

/-- A copy is the message it was made of. -/
theorem copy_eq (source : TunnelMessage) : source.copy = source := by
  have hpacket : (source.packet.map fun p => { packetData := p.packetData }) = source.packet :=
    Option.map_id'
  simp only [copy, empty_mergeString, hpacket]

/-- `CopyFrom` leaves a copy of the source. -/
theorem copyFrom_eq (m source : TunnelMessage) : m.copyFrom (some source) = source :=
  empty_mergeFrom source

/-! ### Sizes -/

theorem stringFieldSize_mergeString_le (s t : Bytes) :
    stringFieldSize (mergeString s t) ≤ stringFieldSize s + stringFieldSize t := by
  rw [mergeString]
  split_ifs <;> omega

theorem enumFieldSize_mergeEnum_le {α : Type} [NumberedEnum α] (d e : OpenEnum α) :
    enumFieldSize (mergeEnum d e).number ≤ enumFieldSize d.number + enumFieldSize e.number := by
  rw [mergeEnum]
  split_ifs <;> omega

theorem packetFieldSize_mergePacketField_le (p q : Option TunnelPacket) :
    packetFieldSize (mergePacketField p q) ≤ packetFieldSize p + packetFieldSize q := by
  cases q with
  | none => exact Nat.le_add_right _ _
  | some q =>
    cases p with
    | none =>
      rw [mergePacketField, Option.getD_none, TunnelPacket.empty_mergeFrom]
      exact Nat.le_add_left _ _
    | some p =>
      rcases TunnelPacket.packetSize_mergeFrom p q with h | h <;>
        simp only [mergePacketField, Option.getD_some, packetFieldSize, h] <;> omega

/-- **Merging does not lengthen the encoding**: what two messages merge to is encoded by at most
as many bytes as the two messages. -/
theorem byteSize_mergeFrom_le (a b : TunnelMessage) :
    (a.mergeFrom b).byteSize ≤ a.byteSize + b.byteSize := by
  have h1 := stringFieldSize_mergeString_le a.username b.username
  have h2 := stringFieldSize_mergeString_le a.password b.password
  have h3 := stringFieldSize_mergeString_le a.ip b.ip
  have h4 := stringFieldSize_mergeString_le a.submask b.submask
  have h5 := stringFieldSize_mergeString_le a.gateway b.gateway
  have h6 := enumFieldSize_mergeEnum_le a.type b.type
  have h7 := enumFieldSize_mergeEnum_le a.messageCode b.messageCode
  have h8 := enumFieldSize_mergeEnum_le a.passwordEncryptType b.passwordEncryptType
  have h9 := enumFieldSize_mergeEnum_le a.linkEncryptType b.linkEncryptType
  have h10 := packetFieldSize_mergePacketField_le a.packet b.packet
  simp only [byteSize, mergeFrom, List.length_append, List.map_append, List.sum_append]
  omega

/-- The strings of the merged message are among those of the two. -/
theorem mem_strings_mergeFrom {a b : TunnelMessage} {s : Bytes}
    (h : s ∈ (a.mergeFrom b).strings) : s ∈ a.strings ∨ s ∈ b.strings := by
  have hmerge (t u : Bytes) : mergeString t u = t ∨ mergeString t u = u := by
    rw [mergeString]
    split_ifs <;> simp
  simp only [strings, mergeFrom, List.mem_append, List.mem_cons, List.not_mem_nil, or_false]
    at h ⊢
  rcases h with (h | h | h | h | h) | h | h
  · rcases hmerge a.username b.username with h' | h' <;> simp [h, h']
  · rcases hmerge a.password b.password with h' | h' <;> simp [h, h']
  · rcases hmerge a.ip b.ip with h' | h' <;> simp [h, h']
  · rcases hmerge a.submask b.submask with h' | h' <;> simp [h, h']
  · rcases hmerge a.gateway b.gateway with h' | h' <;> simp [h, h']
  · exact .inl (.inr h)
  · exact .inr (.inr h)

/-- **The laws of `MergeFrom`.** It is associative with the default message as its unit on both
sides, each string of the result is one of the two messages', it does not lengthen the encoding,
and `CopyFrom` and the copy constructor, which are made of the same assignments, leave exactly the
source. -/
theorem mergeFrom_laws (a b c : TunnelMessage) :
    (a.mergeFrom b).mergeFrom c = a.mergeFrom (b.mergeFrom c) ∧
      mergeFrom {} a = a ∧ a.mergeFrom {} = a ∧
      (∀ s ∈ (a.mergeFrom b).strings, s ∈ a.strings ∨ s ∈ b.strings) ∧
      (a.mergeFrom b).byteSize ≤ a.byteSize + b.byteSize ∧
      a.copyFrom (some b) = b ∧ a.copyFrom none = a ∧ b.copy = b :=
  ⟨mergeFrom_assoc a b c, empty_mergeFrom a, mergeFrom_empty a, fun _ => mem_strings_mergeFrom,
    byteSize_mergeFrom_le a b, copyFrom_eq a b, rfl, copy_eq b⟩

end TunnelMessage

end SplendidLinker
