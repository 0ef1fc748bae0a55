import SplendidLinker.Foundations.CodedStream
import SplendidLinker.Message.Merge

/-!
# The generated codec

`SerializeWithCachedSizes` and `MergePartialFromCodedStream` of `TunnelMessage.pb.cc`, and
`ParseFromArray` over them. The generated code writes in the documented wire format, and reads
through a `CodedStream`, which belongs to the runtime.

The parse loop keeps what the generated code keeps on its error paths: a message whose parse
fails has the fields that were read before the error (`mergeLoop` returns the message in every
case), a string field has what the failed read has left in it, and `add_dns` and `mutable_packet`
have made their entry by then.
-/

namespace SplendidLinker

open Foundations WireFormat

namespace TunnelMessage

/-! ### Serialisation -/

/-- `WriteStringToArray` and `WriteBytesToArray`: the tag of a length-delimited field, then the
value. -/
def writeString (field : ℕ) (s : Bytes) : Bytes := UInt8.ofNat (field * 8 + 2) :: delimited s

/-- A singular string or bytes field: nothing when it is empty. -/
def writeStringField (field : ℕ) (s : Bytes) : Bytes :=
  if 0 < s.length then writeString field s else []

/-- `WriteEnumToArray` under the test that the value is not zero. -/
def writeEnumField (field : ℕ) (v : Int32) : Bytes :=
  if v ≠ 0 then UInt8.ofNat (field * 8) :: varint (enumVarint v) else []

/-- `TunnelMessage_TunnelPacket::SerializeWithCachedSizes`. -/
def serializePacket (p : TunnelPacket) : Bytes := writeStringField 12 p.packetData

/-- The packet field under the test `has_packet()`. -/
def writePacketField : Option TunnelPacket → Bytes
  | none => []
  | some p => writeString 13 (serializePacket p)

/-- `TunnelMessage::SerializeWithCachedSizes`. -/
def serialize (m : TunnelMessage) : Bytes :=
  writeStringField 1 m.username ++ writeStringField 2 m.password ++ writeStringField 4 m.ip ++
    writeStringField 5 m.submask ++ writeStringField 6 m.gateway ++
    m.dns.flatMap (writeString 7) ++ writeEnumField 8 m.type.number ++
    writeEnumField 9 m.messageCode.number ++ writeEnumField 10 m.passwordEncryptType.number ++
    writeEnumField 11 m.linkEncryptType.number ++ writePacketField m.packet

theorem length_writeString (field : ℕ) (s : Bytes) :
    (writeString field s).length = 1 + stringSize s := by
  simp only [writeString, delimited, stringSize, varintSize, List.length_cons, List.length_append]
  omega

theorem length_writeStringField (field : ℕ) (s : Bytes) :
    (writeStringField field s).length = stringFieldSize s := by
  rw [writeStringField, stringFieldSize]
  split_ifs
  · exact length_writeString field s
  · rfl

theorem length_writeEnumField (field : ℕ) (v : Int32) :
    (writeEnumField field v).length = enumFieldSize v := by
  rw [writeEnumField, enumFieldSize]
  split_ifs
  · rw [List.length_cons, varintSize, Nat.add_comm]
  · rfl

theorem length_writePacketField (p : Option TunnelPacket) :
    (writePacketField p).length = packetFieldSize p := by
  cases p with
  | none => rfl
  | some p =>
    rw [writePacketField, length_writeString, stringSize, serializePacket,
      length_writeStringField]
    rfl

private theorem length_flatMap_writeString (field : ℕ) (ss : List Bytes) :
    (ss.flatMap (writeString field)).length = ss.length + (ss.map stringSize).sum := by
  induction ss with
  | nil => rfl
  | cons s ss ih =>
    simp only [List.flatMap_cons, List.length_append, length_writeString, ih, List.length_cons,
      List.map_cons, List.sum_cons]
    omega

/-- **`SerializeWithCachedSizes` writes `ByteSizeLong` bytes.** -/
theorem length_serialize (m : TunnelMessage) : m.serialize.length = m.byteSize := by
  simp only [serialize, byteSize, List.length_append, length_writeStringField,
    length_writeEnumField, length_writePacketField, length_flatMap_writeString]
  omega

/-! ### Parsing -/

section Parsing

variable {σ : Type} (rt : CodedStream σ)

/-- `TunnelMessage_TunnelPacket::MergePartialFromCodedStream`, with a bound on its rounds: whether
it succeeds, the packet, and the stream. -/
def mergePacket : ℕ → TunnelPacket → σ → Bool × TunnelPacket × σ
  | 0, p, s => (false, p, s)
  | k + 1, p, s =>
    match rt.readTag s with
    | (t, s) =>
      if t = 98 then
        match rt.readString p.packetData s with
        | .error data => (false, { p with packetData := data }, s)
        | .ok (data, s) => mergePacket k { p with packetData := data } s
      else if t = 0 ∨ t % 8 = 4 then (true, p, s)
      else
        match rt.skipField t s with
        | none => (false, p, s)
        | some s => mergePacket k p s

/-- The outcome of one `case` of the parse loop. -/
inductive MergeStep (σ : Type)
  /-- `break`: the loop goes on. -/
  | next (m : TunnelMessage) (s : σ)
  /-- `goto success`. -/
  | success
  /-- `goto failure`. -/
  | failure (m : TunnelMessage)

/-- `ReadString` into a field that holds `old`, then `VerifyUtf8String`. -/
def readStringInto (old : Bytes) (s : σ) (set : Bytes → TunnelMessage) : MergeStep σ :=
  match rt.readString old s with
  | .error v => .failure (set v)
  | .ok (v, s) => if validUtf8 v then .next (set v) s else .failure (set v)

/-- `ReadPrimitive<int, TYPE_ENUM>` into a field. -/
def readEnumInto (m : TunnelMessage) (s : σ) (set : Int32 → TunnelMessage) : MergeStep σ :=
  match rt.readEnum s with
  | none => .failure m
  | some (v, s) => .next (set v) s

/-- `ReadMessageNoVirtual` into `mutable_packet()`. -/
def readPacketInto (rounds : ℕ) (m : TunnelMessage) (s : σ) : MergeStep σ :=
  let p := m.packet.getD {}
  match rt.pushLimit s with
  | none => .failure { m with packet := some p }
  | some (limit, s) =>
    match mergePacket rt rounds p s with
    | (false, p, _) => .failure { m with packet := some p }
    | (true, p, s) =>
      match rt.popLimit limit s with
      | none => .failure { m with packet := some p }
      | some s => .next { m with packet := some p } s

/-- The `switch` of `TunnelMessage::MergePartialFromCodedStream`, on the whole tag. -/
def mergeField (rounds : ℕ) (m : TunnelMessage) (t : ℕ) (s : σ) : MergeStep σ :=
  match t with
  | 10 => readStringInto rt m.username s fun v => { m with username := v }
  | 18 => readStringInto rt m.password s fun v => { m with password := v }
  | 34 => readStringInto rt m.ip s fun v => { m with ip := v }
  | 42 => readStringInto rt m.submask s fun v => { m with submask := v }
  | 50 => readStringInto rt m.gateway s fun v => { m with gateway := v }
  -- `add_dns` makes an empty entry, which is read into
  | 58 => readStringInto rt [] s fun v => { m with dns := m.dns ++ [v] }
  | 64 => readEnumInto rt m s fun v => { m with type := .ofNumber v }
  | 72 => readEnumInto rt m s fun v => { m with messageCode := .ofNumber v }
  | 80 => readEnumInto rt m s fun v => { m with passwordEncryptType := .ofNumber v }
  | 88 => readEnumInto rt m s fun v => { m with linkEncryptType := .ofNumber v }
  | 106 => readPacketInto rt rounds m s
  | t =>
    if t = 0 ∨ t % 8 = 4 then .success
    else
      match rt.skipField t s with
      | none => .failure m
      | some s => .next m s

/-- `TunnelMessage::MergePartialFromCodedStream`, with a bound `rounds` on the rounds of a packet
and one on its own. -/
def mergeLoop (rounds : ℕ) : ℕ → TunnelMessage → σ → Bool × TunnelMessage × σ
  | 0, m, s => (false, m, s)
  | k + 1, m, s =>
    match rt.readTag s with
    | (t, s) =>
      match mergeField rt rounds m t s with
      | .next m s => mergeLoop rounds k m s
      | .success => (true, m, s)
      | .failure m => (false, m, s)

/-- `ParseFromArray`: clear, merge, and check that the message was the whole array. A round takes
a byte at least, so there are no more of them than bytes. -/
def parse (data : Bytes) (size : ℤ) : Bool × TunnelMessage :=
  let rounds := data.length + 1
  match mergeLoop rt rounds rounds {} (rt.ofArray data size) with
  | (ok, m, s) => (ok && rt.consumedEntireMessage s, m)

theorem parse_snd (data : Bytes) (size : ℤ) : (parse rt data size).2 =
    (mergeLoop rt (data.length + 1) (data.length + 1) {} (rt.ofArray data size)).2.1 := rfl

end Parsing

/-! ### What is read whole -/

section Merges

variable {σ : Type} {rt : CodedStream σ} {At : σ → Bytes → List (ℤ × Bytes) → Prop}
  {Ended : σ → List (ℤ × Bytes) → Prop} {m m' m'' : TunnelMessage} {bs cs : Bytes} {s : σ}

variable (rt At) in
/-- The parse loop reads `bs` from `m` to `m'`, whatever follows. -/
def Merges (m : TunnelMessage) (bs : Bytes) (m' : TunnelMessage) : Prop :=
  ∀ rounds s cs, bs.length ≤ rounds → At s (bs ++ cs) [] →
    ∃ s', At s' cs [] ∧ ∃ n ≤ bs.length, ∀ k,
      mergeLoop rt rounds (n + k) m s = mergeLoop rt rounds k m' s'

theorem Merges.refl (m : TunnelMessage) : Merges rt At m [] m := fun _ s _ _ hs =>
  ⟨s, hs, 0, le_rfl, fun k => by rw [Nat.zero_add]⟩

theorem Merges.trans (h : Merges rt At m bs m') (h' : Merges rt At m' cs m'') :
    Merges rt At m (bs ++ cs) m'' := by
  intro rounds s ds hrounds hs
  rw [List.length_append] at hrounds
  rw [List.append_assoc] at hs
  obtain ⟨s', hs', n, hn, hrun⟩ := h rounds s _ (by omega) hs
  obtain ⟨s'', hs'', n', hn', hrun'⟩ := h' rounds s' _ (by omega) hs'
  refine ⟨s'', hs'', n + n', ?_, fun k => ?_⟩
  · rw [List.length_append]
    omega
  · rw [Nat.add_assoc, hrun, hrun']

/-- One round of the loop. -/
theorem Merges.round (hrt : rt.Reads At Ended) {t : ℕ} {tag content : Bytes}
    (hpos : 0 < tag.length) (htag : ∀ cs, readTag (tag ++ cs) = .tag t cs)
    (h : ∀ rounds s cs, content.length < rounds → At s (content ++ cs) [] →
      ∃ s', mergeField rt rounds m t s = .next m' s' ∧ At s' cs []) :
    Merges rt At m (tag ++ content) m' := by
  intro rounds s cs hrounds hs
  rw [List.length_append] at hrounds
  rw [List.append_assoc] at hs
  obtain ⟨ht, hs⟩ := hrt.readTag_tag hs (htag _)
  obtain ⟨s', hfield, hs'⟩ := h rounds _ cs (by omega) hs
  refine ⟨s', hs', 1, by rw [List.length_append]; omega, fun k => ?_⟩
  rw [Nat.add_comm, mergeLoop]
  simp only [ht, hfield]

/-- At the end of the input the loop succeeds. -/
theorem mergeLoop_ended (hrt : rt.Reads At Ended) (rounds k : ℕ) (m : TunnelMessage)
    (hs : At s [] []) : ∃ s', mergeLoop rt rounds (k + 1) m s = (true, m, s') ∧ Ended s' [] := by
  obtain ⟨htag, hended⟩ := hrt.readTag_done hs
  refine ⟨(rt.readTag s).2, ?_, hended⟩
  rw [mergeLoop]
  simp only [htag]
  rfl

/-- **What is read whole is accepted.** -/
theorem Merges.parse (hrt : rt.Reads At Ended) (h : Merges rt At {} bs m)
    (hlen : bs.length < 2 ^ 31) : parse rt bs bs.length = (true, m) := by
  have hs := hrt.ofArray hlen
  rw [← List.append_nil bs] at hs
  obtain ⟨s', hs', n, hn, hrun⟩ := h (bs.length + 1) _ [] (Nat.le_succ _) hs
  obtain ⟨s'', hend, hended⟩ := mergeLoop_ended hrt (bs.length + 1) (bs.length - n) m hs'
  rw [List.append_nil] at hrun
  have hloop := hrun (bs.length - n + 1)
  rw [show n + (bs.length - n + 1) = bs.length + 1 by omega, hend] at hloop
  rw [TunnelMessage.parse]
  simp only [hloop, hrt.consumedEntireMessage hended, Bool.and_self]

end Merges

end TunnelMessage

end SplendidLinker
