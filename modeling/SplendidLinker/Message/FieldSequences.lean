import Mathlib.Data.List.Flatten
import SplendidLinker.Message.GeneratedCodec

/-!
# Encodings field by field

The inputs of `ParseFromArray` that are sequences of whole fields: in any order, given more than
once, with fields among them that the parser does not know. `parse_fields` says what they are
read as, with any lawful runtime: each field does its own to the message, one after the other.

What `SerializeToArray` writes is such a sequence, and its fields together do what `MergeFrom`
does (`performs_serialize`). So a message is read back from its serialisation
(`parse_serialize`), encodings behind one another are read as merged messages
(`parse_append_serialize`), and the fields that the parser does not know may as well not be there
(`parse_filterMap_known`).
-/

namespace SplendidLinker

open Foundations WireFormat

namespace TunnelMessage

/-! ### Fields -/

/-- A field with a number or a wire type that is not among the tags `known`. -/
structure UnknownField (known : List ℕ) where
  number : ℕ
  value : FieldValue
  number_pos : 0 < number
  number_lt : number < 2 ^ 29
  unknown : number * 8 + value.wireType ∉ known

namespace UnknownField

variable {known : List ℕ} (u : UnknownField known)

/-- The tag of a field. -/
def tag : ℕ := u.number * 8 + u.value.wireType

/-- The encoding of a field. -/
def encode : Bytes := varint u.tag ++ u.value.encode

/-- A field of a later version is not the end of a message. -/
theorem tag_spec : u.tag < 2 ^ 32 ∧ ¬(u.tag = 0 ∨ u.tag % 8 = 4) := by
  have hpos := u.number_pos
  have hlt := u.number_lt
  rw [tag]
  cases u.value <;> simp only [FieldValue.wireType] <;> omega

theorem readTag_encode (bs : Bytes) : readTag (varint u.tag ++ bs) = .tag u.tag bs :=
  readTag_varint (by have := u.tag_spec.2; omega) u.tag_spec.1 bs

theorem skipField_value (bs : Bytes) : skipField u.tag (u.value.encode ++ bs) = some bs :=
  skipField_encode u.value u.number_pos bs

end UnknownField

/-- A field of a packet. -/
inductive PacketField
  | packetData (data : Bytes) (h : data.length < 2 ^ 31)
  | unknown (u : UnknownField [98])

/-- The encoding of a field of a packet. -/
def PacketField.encode : PacketField → Bytes
  | packetData data _ => writeString 12 data
  | unknown u => u.encode

/-- What a field does to the packet it is read into. -/
def PacketField.merge (p : TunnelPacket) : PacketField → TunnelPacket
  | packetData data _ => { p with packetData := data }
  | unknown _ => p

/-- The fields of the message that are read as strings. -/
inductive StringField
  | username
  | password
  | ip
  | submask
  | gateway
  | dns
  deriving DecidableEq, Repr

/-- The number of a string field. -/
def StringField.number : StringField → ℕ
  | username => 1
  | password => 2
  | ip => 4
  | submask => 5
  | gateway => 6
  | dns => 7

/-- What a read finds in a string field; `add_dns` has made an empty entry for it. -/
def StringField.old (m : TunnelMessage) : StringField → Bytes
  | username => m.username
  | password => m.password
  | ip => m.ip
  | submask => m.submask
  | gateway => m.gateway
  | dns => []

/-- What a string does to the field it is read into. -/
def StringField.merge (m : TunnelMessage) (v : Bytes) : StringField → TunnelMessage
  | username => { m with username := v }
  | password => { m with password := v }
  | ip => { m with ip := v }
  | submask => { m with submask := v }
  | gateway => { m with gateway := v }
  | dns => { m with dns := m.dns ++ [v] }

/-- The fields of the message that are read as enumerations. -/
inductive EnumField
  | type
  | messageCode
  | passwordEncryptType
  | linkEncryptType
  deriving DecidableEq, Repr

/-- The number of an enumeration field. -/
def EnumField.number : EnumField → ℕ
  | type => 8
  | messageCode => 9
  | passwordEncryptType => 10
  | linkEncryptType => 11

/-- What a number does to the field it is read into. -/
def EnumField.merge (m : TunnelMessage) (v : Int32) : EnumField → TunnelMessage
  | type => { m with type := .ofNumber v }
  | messageCode => { m with messageCode := .ofNumber v }
  | passwordEncryptType => { m with passwordEncryptType := .ofNumber v }
  | linkEncryptType => { m with linkEncryptType := .ofNumber v }

/-- The tags of the `switch` in `MergePartialFromCodedStream`. -/
def knownTags : List ℕ := [10, 18, 34, 42, 50, 58, 64, 72, 80, 88, 106]

/-- A whole field of a message. -/
inductive Field
  | string (f : StringField) (v : Bytes) (h : validUtf8 v = true ∧ v.length < 2 ^ 31)
  | enum (f : EnumField) (n : ℕ) (h : n < 2 ^ 64)
  | packet (fields : List PacketField)
      (h : (fields.flatMap PacketField.encode).length < 2 ^ 31)
  | unknown (u : UnknownField knownTags)

/-- The encoding of a field. -/
def Field.encode : Field → Bytes
  | string f v _ => writeString f.number v
  | enum f n _ => UInt8.ofNat (f.number * 8) :: varint n
  | packet fields _ => writeString 13 (fields.flatMap PacketField.encode)
  | unknown u => u.encode

/-- What a field does to the message it is read into. -/
def Field.merge (m : TunnelMessage) : Field → TunnelMessage
  | string f v _ => f.merge m v
  | enum f n _ => f.merge m (enumOfVarint n)
  | packet fields _ => { m with packet := some (fields.foldl PacketField.merge (m.packet.getD {})) }
  | unknown _ => m

/-! ### Reading fields -/

section Reading

variable {σ : Type} {rt : CodedStream σ} {At : σ → Bytes → List (ℤ × Bytes) → Prop}
  {Ended : σ → List (ℤ × Bytes) → Prop} {s : σ}

/-- The fields of a packet are read one after the other, up to the limit. -/
theorem mergePacket_fields (hrt : rt.Reads At Ended) {outer : List (ℤ × Bytes)}
    (fields : List PacketField) (p : TunnelPacket) (k : ℕ)
    (hk : (fields.flatMap PacketField.encode).length < k)
    (hs : At s (fields.flatMap PacketField.encode) outer) :
    ∃ s', mergePacket rt k p s = (true, fields.foldl PacketField.merge p, s') ∧
      Ended s' outer := by
  induction fields generalizing p k s with
  | nil =>
    obtain ⟨k, rfl⟩ : ∃ j, k = j + 1 := ⟨k - 1, by omega⟩
    obtain ⟨htag, hended⟩ := hrt.readTag_done hs
    refine ⟨(rt.readTag s).2, ?_, hended⟩
    rw [mergePacket]
    simp [htag]
  | cons f fields ih =>
    obtain ⟨k, rfl⟩ : ∃ j, k = j + 1 := ⟨k - 1, by omega⟩
    rw [List.flatMap_cons] at hk hs
    rw [List.length_append] at hk
    cases f with
    | packetData data hdata =>
      rw [PacketField.encode, length_writeString] at hk
      obtain ⟨htag, hs⟩ := hrt.readTag_tag hs (readTag_cons (t := 98) (by decide) (by decide) _)
      obtain ⟨s', hread, hs'⟩ := hrt.readString_delimited p.packetData hdata hs
      obtain ⟨s'', hrest, hended⟩ := ih { p with packetData := data } k (by omega) hs'
      refine ⟨s'', ?_, hended⟩
      rw [mergePacket]
      simp only [htag, if_true, hread, hrest]
      rfl
    | unknown u =>
      rw [PacketField.encode, UnknownField.encode, List.length_append] at hk
      rw [PacketField.encode, UnknownField.encode, List.append_assoc] at hs
      obtain ⟨htag, hs⟩ := hrt.readTag_tag hs (u.readTag_encode _)
      obtain ⟨s', hskip, hs'⟩ := hrt.skipField hs (u.skipField_value _)
      have hpos : 0 < (varint u.tag).length := varintSize_pos _
      obtain ⟨s'', hrest, hended⟩ := ih p k (by omega) hs'
      refine ⟨s'', ?_, hended⟩
      have hdata : u.tag ≠ 98 := fun h => u.unknown (by rw [UnknownField.tag] at h; simp [h])
      rw [mergePacket]
      simp only [htag, if_neg hdata, if_neg u.tag_spec.2, hskip, hrest]
      rfl

/-- The `case` of a string field. -/
theorem mergeField_string (rounds : ℕ) (m : TunnelMessage) (f : StringField) (s : σ) :
    mergeField rt rounds m (f.number * 8 + 2) s =
      readStringInto rt (f.old m) s fun v => f.merge m v := by
  cases f
  all_goals rfl

/-- The `case` of an enumeration field. -/
theorem mergeField_enum (rounds : ℕ) (m : TunnelMessage) (f : EnumField) (s : σ) :
    mergeField rt rounds m (f.number * 8) s = readEnumInto rt m s fun v => f.merge m v := by
  cases f
  all_goals rfl

/-- The default case of the `switch`. -/
theorem mergeField_of_unknown {t : ℕ} (h : t ∉ knownTags) (rounds : ℕ)
    (m : TunnelMessage) (s : σ) :
    mergeField rt rounds m t s =
      if t = 0 ∨ t % 8 = 4 then .success
      else
        match rt.skipField t s with
        | none => .failure m
        | some s => .next m s := by
  unfold mergeField
  split
  case h_12 => rfl
  all_goals exact absurd (by decide) h

/-- **One field** does its own to the message, whatever follows. -/
theorem merges_field (hrt : rt.Reads At Ended) (m : TunnelMessage) (f : Field) :
    Merges rt At m f.encode (f.merge m) := by
  cases f with
  | string f v hv =>
    have hf : f.number * 8 + 2 < 128 := by cases f <;> decide
    refine show Merges rt At m ([UInt8.ofNat (f.number * 8 + 2)] ++ delimited v) _ from
      .round hrt Nat.zero_lt_one (readTag_cons (by omega) hf) fun rounds s cs _ hs => ?_
    obtain ⟨s', hread, hs'⟩ := hrt.readString_delimited (f.old m) hv.2 hs
    refine ⟨s', ?_, hs'⟩
    rw [mergeField_string, readStringInto, hread]
    simp only [hv.1, if_true]
    rfl
  | enum f n hn =>
    have hf : 0 < f.number * 8 ∧ f.number * 8 < 128 := by cases f <;> decide
    refine show Merges rt At m ([UInt8.ofNat (f.number * 8)] ++ varint n) _ from
      .round hrt Nat.zero_lt_one (readTag_cons hf.1 hf.2) fun rounds s cs _ hs => ?_
    obtain ⟨s', hread, hs'⟩ := hrt.readEnum hs (readVarint_varint hn cs)
    refine ⟨s', ?_, hs'⟩
    rw [mergeField_enum, readEnumInto, hread]
    rfl
  | packet fields hlen =>
    refine show Merges rt At m ([UInt8.ofNat 106] ++
        delimited (fields.flatMap PacketField.encode)) _ from
      .round hrt Nat.zero_lt_one (readTag_cons (by decide) (by decide))
        fun rounds s cs hrounds hs => ?_
    obtain ⟨limit, s1, hpush, hs1⟩ := hrt.pushLimit hs hlen (by decide)
    rw [delimited, List.length_append] at hrounds
    obtain ⟨s2, hmerge, hs2⟩ := mergePacket_fields hrt fields (m.packet.getD {})
      rounds (by omega) hs1
    obtain ⟨s3, hpop, hs3⟩ := hrt.popLimit hs2
    refine ⟨s3, ?_, hs3⟩
    change readPacketInto rt rounds m s = _
    rw [readPacketInto]
    simp only [hpush, hmerge, hpop]
    rfl
  | unknown u =>
    refine .round hrt (varintSize_pos u.tag) u.readTag_encode fun rounds s cs _ hs => ?_
    obtain ⟨s', hskip, hs'⟩ := hrt.skipField hs (u.skipField_value cs)
    refine ⟨s', ?_, hs'⟩
    rw [mergeField_of_unknown (t := u.tag) u.unknown, if_neg u.tag_spec.2, hskip]
    rfl

/-- The fields, one after the other. -/
theorem merges_fields (hrt : rt.Reads At Ended) (fields : List Field) (m : TunnelMessage) :
    Merges rt At m (fields.flatMap Field.encode) (fields.foldl Field.merge m) := by
  induction fields generalizing m with
  | nil => exact .refl m
  | cons f fields ih => exact (merges_field hrt m f).trans (ih (f.merge m))

/-- **A sequence of fields is accepted**, and each field does its own to the message. -/
theorem parse_fields (hrt : rt.Lawful) (fields : List Field)
    (hlen : (fields.flatMap Field.encode).length < 2 ^ 31) :
    parse rt (fields.flatMap Field.encode) (fields.flatMap Field.encode).length =
      (true, fields.foldl Field.merge {}) := by
  obtain ⟨At, Ended, hreads⟩ := hrt.reads
  exact (merges_fields hreads fields {}).parse hreads hlen

end Reading

/-! ### The fields of a serialisation -/

/-- `bs` is the encoding of fields that do `f` to a message. -/
def Performs (bs : Bytes) (f : TunnelMessage → TunnelMessage) : Prop :=
  ∃ fields : List Field, fields.flatMap Field.encode = bs ∧
    ∀ m, fields.foldl Field.merge m = f m

theorem Performs.nil : Performs [] id := ⟨[], rfl, fun _ => rfl⟩

theorem Performs.append {bs cs : Bytes} {f g : TunnelMessage → TunnelMessage}
    (h : Performs bs f) (h' : Performs cs g) : Performs (bs ++ cs) fun m => g (f m) := by
  obtain ⟨fields, rfl, hfields⟩ := h
  obtain ⟨fields', rfl, hfields'⟩ := h'
  exact ⟨fields ++ fields', List.flatMap_append, fun m => by
    rw [List.foldl_append, hfields, hfields']⟩

theorem Performs.field (f : Field) : Performs f.encode f.merge :=
  ⟨[f], by simp, fun _ => rfl⟩

theorem Performs.congr {bs : Bytes} {f g : TunnelMessage → TunnelMessage} (h : Performs bs f)
    (hfg : ∀ m, f m = g m) : Performs bs g := by
  obtain ⟨fields, hbs, hfields⟩ := h
  exact ⟨fields, hbs, fun m => (hfields m).trans (hfg m)⟩

variable {m : TunnelMessage}

/-- A singular string field. -/
private theorem performs_writeStringField (f : StringField) {v : Bytes}
    {g : TunnelMessage → TunnelMessage} (hv : validUtf8 v = true ∧ v.length < 2 ^ 31)
    (hg : ∀ m, (if 0 < v.length then f.merge m v else m) = g m) :
    Performs (writeStringField f.number v) g := by
  refine Performs.congr ?_ hg
  rw [writeStringField]
  by_cases h : 0 < v.length
  · simp only [if_pos h]
    exact .field (.string f v hv)
  · simp only [if_neg h]
    exact .nil

/-- An enumeration field. -/
private theorem performs_writeEnumField (f : EnumField) {v : Int32}
    {g : TunnelMessage → TunnelMessage} (hg : ∀ m, (if v ≠ 0 then f.merge m v else m) = g m) :
    Performs (writeEnumField f.number v) g := by
  refine Performs.congr ?_ hg
  rw [writeEnumField]
  by_cases h : v ≠ 0
  · simp only [if_pos h]
    refine (Performs.field (.enum f (enumVarint v) (enumVarint_lt v))).congr fun m => ?_
    rw [Field.merge, enumOfVarint_enumVarint]
  · simp only [if_neg h]
    exact .nil

/-- The repeated field, entry by entry. -/
private theorem performs_dns {vs : List Bytes}
    (hvs : ∀ v ∈ vs, validUtf8 v = true ∧ v.length < 2 ^ 31) :
    Performs (vs.flatMap (writeString 7)) fun m => { m with dns := m.dns ++ vs } := by
  induction vs with
  | nil => exact Performs.nil.congr fun m => by simp
  | cons v vs ih =>
    have hone := Performs.field (.string .dns v (hvs v (by simp)))
    exact (hone.append (ih fun u hu => hvs u (by simp [hu]))).congr fun m => by
      simp [Field.merge, StringField.merge]

/-- The packet field. -/
private theorem performs_writePacketField {p : Option TunnelPacket}
    (hlen : packetFieldSize p < 2 ^ 31) :
    Performs (writePacketField p) fun m => { m with packet := mergePacketField m.packet p } := by
  cases p with
  | none => exact Performs.nil
  | some p =>
    have hsize : (serializePacket p).length = packetSize p := length_writeStringField 12 _
    rw [packetFieldSize] at hlen
    obtain ⟨fields, hfields, hmerge⟩ : ∃ fields : List PacketField,
        fields.flatMap PacketField.encode = serializePacket p ∧
          ∀ q, fields.foldl PacketField.merge q = q.mergeFrom p := by
      simp only [serializePacket, writeStringField, TunnelPacket.mergeFrom, mergeString]
      by_cases h : 0 < p.packetData.length
      · have hdata : p.packetData.length < 2 ^ 31 := by
          rw [packetSize, stringFieldSize, if_pos h, stringSize] at hlen
          omega
        simp only [if_pos h]
        exact ⟨[.packetData p.packetData hdata], by simp [PacketField.encode], fun q => rfl⟩
      · simp only [if_neg h]
        exact ⟨[], rfl, fun q => rfl⟩
    have hcontent : (fields.flatMap PacketField.encode).length < 2 ^ 31 := by
      rw [hfields]
      omega
    have hencode : (Field.packet fields hcontent).encode = writePacketField (some p) := by
      rw [Field.encode, hfields, writePacketField]
    rw [← hencode]
    exact (Performs.field _).congr fun m => by rw [Field.merge, hmerge, mergePacketField]

/-- A string of a message is shorter than the encoding of the message. -/
theorem length_lt_of_valid (h : m.Valid) {v : Bytes} (hv : v ∈ m.strings) :
    v.length < 2 ^ 31 := by
  have hsize := h.size
  rw [byteSize] at hsize
  have hfield : ∀ t : Bytes, t.length ≤ stringFieldSize t := by
    intro t
    rw [stringFieldSize]
    split_ifs
    · rw [stringSize]
      omega
    · omega
  simp only [strings, List.mem_append, List.mem_cons, List.not_mem_nil, or_false] at hv
  rcases hv with (rfl | rfl | rfl | rfl | rfl) | hv
  · have := hfield m.username
    omega
  · have := hfield m.password
    omega
  · have := hfield m.ip
    omega
  · have := hfield m.submask
    omega
  · have := hfield m.gateway
    omega
  · have hle : stringSize v ≤ (m.dns.map stringSize).sum :=
      List.single_le_sum (by simp) _ (List.mem_map_of_mem hv)
    rw [stringSize] at hle
    omega

/-- The strings of a message that can be written. -/
theorem strings_of_valid (h : m.Valid) :
    ∀ v ∈ m.strings, validUtf8 v = true ∧ v.length < 2 ^ 31 :=
  fun v hv => ⟨h.utf8 v hv, length_lt_of_valid h hv⟩

/-- The strings that are written before the enumerations. -/
def serializeStrings (m : TunnelMessage) : Bytes :=
  writeStringField 1 m.username ++ writeStringField 2 m.password ++ writeStringField 4 m.ip ++
    writeStringField 5 m.submask ++ writeStringField 6 m.gateway ++
    m.dns.flatMap (writeString 7)

private theorem performs_serializeStrings (h : m.Valid) :
    Performs m.serializeStrings fun m' => { m' with
      username := mergeString m'.username m.username
      password := mergeString m'.password m.password
      ip := mergeString m'.ip m.ip
      submask := mergeString m'.submask m.submask
      gateway := mergeString m'.gateway m.gateway
      dns := m'.dns ++ m.dns } := by
  have hs := strings_of_valid h
  simp only [strings, List.mem_append, List.mem_cons, List.not_mem_nil, or_false] at hs
  have h1 : Performs (writeStringField 1 m.username) fun m' =>
      { m' with username := mergeString m'.username m.username } :=
    performs_writeStringField .username (hs _ (by simp)) fun m' => by
      rw [mergeString]
      split_ifs <;> rfl
  have h2 : Performs (writeStringField 2 m.password) fun m' =>
      { m' with password := mergeString m'.password m.password } :=
    performs_writeStringField .password (hs _ (by simp)) fun m' => by
      rw [mergeString]
      split_ifs <;> rfl
  have h3 : Performs (writeStringField 4 m.ip) fun m' =>
      { m' with ip := mergeString m'.ip m.ip } :=
    performs_writeStringField .ip (hs _ (by simp)) fun m' => by
      rw [mergeString]
      split_ifs <;> rfl
  have h4 : Performs (writeStringField 5 m.submask) fun m' =>
      { m' with submask := mergeString m'.submask m.submask } :=
    performs_writeStringField .submask (hs _ (by simp)) fun m' => by
      rw [mergeString]
      split_ifs <;> rfl
  have h5 : Performs (writeStringField 6 m.gateway) fun m' =>
      { m' with gateway := mergeString m'.gateway m.gateway } :=
    performs_writeStringField .gateway (hs _ (by simp)) fun m' => by
      rw [mergeString]
      split_ifs <;> rfl
  exact ((((h1.append h2).append h3).append h4).append h5).append
    (performs_dns fun v hv => hs v (.inr hv))

/-- **A serialisation is a sequence of fields**, which together do what `MergeFrom` does. -/
theorem performs_serialize (h : m.Valid) : Performs m.serialize fun m' => m'.mergeFrom m := by
  have hpacket : packetFieldSize m.packet < 2 ^ 31 := by
    have hsize := h.size
    rw [byteSize] at hsize
    omega
  have h1 : Performs (writeEnumField 8 m.type.number) fun m' =>
      { m' with type := mergeEnum m'.type m.type } :=
    performs_writeEnumField .type fun m' => by
      rw [mergeEnum, EnumField.merge, OpenEnum.ofNumber_number]
      split_ifs <;> rfl
  have h2 : Performs (writeEnumField 9 m.messageCode.number) fun m' =>
      { m' with messageCode := mergeEnum m'.messageCode m.messageCode } :=
    performs_writeEnumField .messageCode fun m' => by
      rw [mergeEnum, EnumField.merge, OpenEnum.ofNumber_number]
      split_ifs <;> rfl
  have h3 : Performs (writeEnumField 10 m.passwordEncryptType.number) fun m' =>
      { m' with passwordEncryptType := mergeEnum m'.passwordEncryptType m.passwordEncryptType } :=
    performs_writeEnumField .passwordEncryptType fun m' => by
      rw [mergeEnum, EnumField.merge, OpenEnum.ofNumber_number]
      split_ifs <;> rfl
  have h4 : Performs (writeEnumField 11 m.linkEncryptType.number) fun m' =>
      { m' with linkEncryptType := mergeEnum m'.linkEncryptType m.linkEncryptType } :=
    performs_writeEnumField .linkEncryptType fun m' => by
      rw [mergeEnum, EnumField.merge, OpenEnum.ofNumber_number]
      split_ifs <;> rfl
  exact (((((performs_serializeStrings h).append h1).append h2).append h3).append h4).append
    (performs_writePacketField hpacket)

/-! ### Reading back what was written -/

/-- The serialisations of messages behind one another merge the messages in their order. -/
theorem performs_flatMap_serialize {ms : List TunnelMessage} (hms : ∀ m ∈ ms, m.Valid) :
    Performs (ms.flatMap serialize) fun m => ms.foldl mergeFrom m := by
  induction ms with
  | nil => exact .nil
  | cons m ms ih =>
    exact (performs_serialize (hms m (by simp))).append (ih fun m hm => hms m (by simp [hm]))

section Runtime

variable {σ : Type} {rt : CodedStream σ}

/-- What the fields of an input do to the default message is what it is read as. -/
theorem Performs.parse {bs : Bytes} {f : TunnelMessage → TunnelMessage} (h : Performs bs f)
    (hrt : rt.Lawful) (hlen : bs.length < 2 ^ 31) :
    TunnelMessage.parse rt bs bs.length = (true, f {}) := by
  obtain ⟨fields, rfl, hfields⟩ := h
  rw [parse_fields hrt fields hlen, hfields]

/-- **The round trip of the generated code.** With any lawful runtime, `ParseFromArray` reads a
valid message back from what `SerializeToArray` wrote. -/
theorem parse_serialize (hrt : rt.Lawful) (h : m.Valid) :
    TunnelMessage.parse rt m.serialize m.byteSize = (true, m) := by
  have hlen : m.serialize.length < 2 ^ 31 := by
    rw [length_serialize]
    exact h.size
  have hparse := (performs_serialize h).parse hrt hlen
  rwa [length_serialize, empty_mergeFrom] at hparse

/-- **Concatenated encodings are merged messages.** With any lawful runtime: behind any sequence
of fields, the serialisations of any valid messages are accepted too, and the result is what
`MergeFrom` makes of the messages, one after the other. -/
theorem parse_append_serialize (hrt : rt.Lawful) (fields : List Field) {ms : List TunnelMessage}
    (hms : ∀ m ∈ ms, m.Valid)
    (hlen : (fields.flatMap Field.encode ++ ms.flatMap serialize).length < 2 ^ 31) :
    TunnelMessage.parse rt (fields.flatMap Field.encode ++ ms.flatMap serialize)
        (fields.flatMap Field.encode ++ ms.flatMap serialize).length =
      (true, ms.foldl mergeFrom (fields.foldl Field.merge {})) := by
  have hfields : Performs (fields.flatMap Field.encode) fun m => fields.foldl Field.merge m :=
    ⟨fields, rfl, fun _ => rfl⟩
  exact (hfields.append (performs_flatMap_serialize hms)).parse hrt hlen

/-- Two `DATA` messages behind an input that sets the message code: the later packet replaces the
earlier one. -/
theorem parse_append_serialize_two_packets :
    TunnelMessage.parse listStream
        ([Field.enum .messageCode 3 (by decide)].flatMap Field.encode ++
          [setPacketData {} [0x45], setPacketData {} [0x46]].flatMap serialize)
        ([Field.enum .messageCode 3 (by decide)].flatMap Field.encode ++
          [setPacketData {} [0x45], setPacketData {} [0x46]].flatMap serialize).length =
      (true, [setPacketData {} [0x45], setPacketData {} [0x46]].foldl mergeFrom
        ([Field.enum .messageCode 3 (by decide)].foldl Field.merge {})) := by
  have hms : ∀ m ∈ [setPacketData {} [0x45], setPacketData {} [0x46]], m.Valid := by
    simp only [List.forall_mem_cons]
    exact ⟨⟨by decide, by decide⟩, ⟨by decide, by decide⟩, by simp⟩
  exact parse_append_serialize lawful_listStream [.enum .messageCode 3 (by decide)] hms (by decide)

/-! ### Fields the parser does not know -/

/-- A field of a packet that is known. -/
def PacketField.isKnown : PacketField → Bool
  | packetData _ _ => true
  | unknown _ => false

/-- A field without the unknown fields in it, or nothing if it is unknown itself. -/
def Field.known : Field → Option Field
  | packet fields h => some <| packet (fields.filter PacketField.isKnown) <|
      ((List.filter_sublist.flatMap _).length_le).trans_lt h
  | unknown _ => none
  | string f v h => some (string f v h)
  | enum f n h => some (enum f n h)

/-- Unknown fields do nothing to a packet. -/
private theorem foldl_filter_isKnown (fields : List PacketField) (p : TunnelPacket) :
    (fields.filter PacketField.isKnown).foldl PacketField.merge p =
      fields.foldl PacketField.merge p := by
  induction fields generalizing p with
  | nil => rfl
  | cons f fields ih =>
    cases f with
    | packetData data h =>
      rw [List.filter_cons_of_pos rfl, List.foldl_cons, List.foldl_cons, ih]
    | unknown u =>
      rw [List.filter_cons_of_neg (by simp [PacketField.isKnown]), List.foldl_cons, ih]
      rfl

/-- Unknown fields do nothing to a message. -/
private theorem foldl_filterMap_known (fields : List Field) (m : TunnelMessage) :
    (fields.filterMap Field.known).foldl Field.merge m = fields.foldl Field.merge m := by
  induction fields generalizing m with
  | nil => rfl
  | cons f fields ih =>
    cases f with
    | string f v h => exact ih _
    | enum f n h => exact ih _
    | packet inner h =>
      rw [List.filterMap_cons, Field.known, List.foldl_cons, List.foldl_cons, ih, Field.merge,
        Field.merge, foldl_filter_isKnown]
    | unknown u => exact ih _

private theorem length_filterMap_known_le (fields : List Field) :
    ((fields.filterMap Field.known).flatMap Field.encode).length ≤
      (fields.flatMap Field.encode).length := by
  induction fields with
  | nil => exact le_rfl
  | cons f fields ih =>
    cases f with
    | string f v h =>
      rw [List.filterMap_cons, Field.known, List.flatMap_cons, List.flatMap_cons,
        List.length_append, List.length_append]
      exact Nat.add_le_add_left ih _
    | enum f n h =>
      rw [List.filterMap_cons, Field.known, List.flatMap_cons, List.flatMap_cons,
        List.length_append, List.length_append]
      exact Nat.add_le_add_left ih _
    | packet inner h =>
      have hle : ((inner.filter PacketField.isKnown).flatMap PacketField.encode).length ≤
          (inner.flatMap PacketField.encode).length :=
        (List.filter_sublist.flatMap _).length_le
      have hsize := varintSize_mono hle
      rw [List.filterMap_cons, Field.known, List.flatMap_cons, List.flatMap_cons,
        List.length_append, List.length_append, Field.encode, Field.encode, length_writeString,
        length_writeString, stringSize, stringSize]
      omega
    | unknown u =>
      rw [List.filterMap_cons, Field.known, List.flatMap_cons, List.length_append]
      exact ih.trans (Nat.le_add_left _ _)

/-- **Fields of a later version are skipped.** With any lawful runtime: fields that the parser does
not know, wherever they stand in an input or in its packets, make no difference to what
`ParseFromArray` returns and leaves behind. -/
theorem parse_filterMap_known (hrt : rt.Lawful) (fields : List Field)
    (hlen : (fields.flatMap Field.encode).length < 2 ^ 31) :
    TunnelMessage.parse rt (fields.flatMap Field.encode) (fields.flatMap Field.encode).length =
      TunnelMessage.parse rt ((fields.filterMap Field.known).flatMap Field.encode)
        ((fields.filterMap Field.known).flatMap Field.encode).length := by
  rw [parse_fields hrt fields hlen,
    parse_fields hrt _ ((length_filterMap_known_le fields).trans_lt hlen),
    foldl_filterMap_known]

/-- A varint field with the number 15 between the message code and the type, and another one in
the packet behind them. -/
theorem parse_filterMap_known_varint :
    let fields : List Field :=
      [.enum .messageCode 3 (by decide),
        .unknown ⟨15, .varint 7 (by decide), by decide, by decide, by decide⟩,
        .enum .type 1 (by decide),
        .packet [.unknown ⟨15, .varint 7 (by decide), by decide, by decide, by decide⟩,
          .packetData [0x45] (by decide)] (by decide)]
    TunnelMessage.parse listStream (fields.flatMap Field.encode)
        (fields.flatMap Field.encode).length =
      TunnelMessage.parse listStream ((fields.filterMap Field.known).flatMap Field.encode)
        ((fields.filterMap Field.known).flatMap Field.encode).length :=
  parse_filterMap_known lawful_listStream _ (by decide)

end Runtime

end TunnelMessage

/-- The generated code over a runtime, as a `Protobuf`. -/
def generated {σ : Type} (rt : CodedStream σ) (hrt : rt.Lawful) : Protobuf where
  serializeToArray := TunnelMessage.serialize
  parseFromArray := TunnelMessage.parse rt
  length_serialize m _ := m.length_serialize
  parse_serialize _ h := TunnelMessage.parse_serialize hrt h

/-- The generated code over the stream of byte lists. -/
def wireFormat : Protobuf := generated listStream lawful_listStream

end SplendidLinker
