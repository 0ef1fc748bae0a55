import SplendidLinker.Message.FieldSequences

/-!
# Encodings whose end is missing

The client hands a payload to the parser whether or not all of it has arrived, with zeros in
place of the rest. `parse_torn_establish` says what the parser makes of an `ESTABLISH` response
in that case, with any lawful runtime: it is not read as one, however little is missing. The type
and the code are the last two fields that are written, so either the type is still the default
`REQUEST`, or the code is still the default `AUTHORIZATION`.

A field in which the encoding is torn reads beyond the tear (`LocalReader.torn`), so there are
only zeros left behind it, and zeros end the parse.
-/

namespace SplendidLinker

open Foundations WireFormat

namespace TunnelMessage

section Runtime

variable {σ : Type} {rt : CodedStream σ} {At : σ → Bytes → List (ℤ × Bytes) → Prop}
  {Ended : σ → List (ℤ × Bytes) → Prop} {m m' : TunnelMessage} {bs cs : Bytes}
  {P : TunnelMessage → Prop} {s : σ}

/-- A missing tag ends the parse. -/
theorem mergeLoop_of_readTag_eq_zero (rounds k : ℕ) (m : TunnelMessage)
    (h : (rt.readTag s).1 = 0) : (mergeLoop rt rounds k m s).2.1 = m := by
  cases k with
  | zero => rfl
  | succ k =>
    rw [mergeLoop]
    simp only [h]
    rfl

/-- Zeros end the parse. -/
theorem mergeLoop_zeros (hrt : rt.Reads At Ended) (rounds k : ℕ) (m : TunnelMessage) {n : ℕ}
    (hs : At s (List.replicate n 0) []) : (mergeLoop rt rounds k m s).2.1 = m :=
  mergeLoop_of_readTag_eq_zero rounds k m (hrt.readTag_zeros hs)

/-- **Zeros are read as the default message**, also with a size that has overflown. -/
theorem parse_replicate_zero (hrt : rt.Lawful) {n : ℕ} {size : ℤ} (hsize : size ≤ n)
    (hneg : size < 0 → 0 < n) : (parse rt (List.replicate n 0) size).2 = {} := by
  obtain ⟨At, Ended, hreads⟩ := hrt.reads
  rw [parse_snd, mergeLoop_of_readTag_eq_zero _ _ _ (hreads.ofArray_zeros hsize hneg)]

variable (rt At) in
/-- Wherever `bs` is torn, with zeros in place of what is missing, it leads from `m` to a message
with the property `P`. -/
def Torn (m : TunnelMessage) (bs : Bytes) (P : TunnelMessage → Prop) : Prop :=
  ∀ j n, j < bs.length → ∀ rounds s, bs.length ≤ rounds →
    At s (bs.take j ++ List.replicate n 0) [] → ∀ k, bs.length ≤ k →
      P (mergeLoop rt rounds k m s).2.1

theorem Torn.nil : Torn rt At m [] P := fun _ _ hj => absurd hj (Nat.not_lt_zero _)

/-- A tear is in the first part, or in the second. -/
theorem Torn.append (h : Torn rt At m bs P) (hmerges : Merges rt At m bs m')
    (h' : Torn rt At m' cs P) : Torn rt At m (bs ++ cs) P := by
  intro j n hj rounds s hrounds hs k hk
  rw [List.length_append] at hj hrounds hk
  rcases Nat.lt_or_ge j bs.length with hlt | hge
  · rw [List.take_append_of_le_length hlt.le] at hs
    exact h j n hlt rounds s (by omega) hs k (by omega)
  · rw [List.take_append, List.take_of_length_le hge, List.append_assoc] at hs
    obtain ⟨s', hs', i, hi, hrun⟩ := hmerges rounds s _ (by omega) hs
    obtain ⟨d, rfl⟩ : ∃ d, k = i + d := ⟨k - i, by omega⟩
    rw [hrun]
    exact h' (j - bs.length) n (by omega) rounds s' (by omega) hs' d (by omega)

/-- **A string field that is torn**: it is not read, or it is read beyond the tear. -/
private theorem torn_string (hrt : rt.Reads At Ended) (f : StringField) {v : Bytes}
    (hlen : v.length < 2 ^ 31) (hm : P m) (hset : ∀ v, P (f.merge m v)) :
    Torn rt At m (writeString f.number v) P := by
  have hf : f.number * 8 + 2 < 128 := by cases f <;> decide
  intro j n hj rounds s hrounds hs k hk
  cases j with
  | zero =>
    rw [List.take_zero, List.nil_append] at hs
    rw [mergeLoop_zeros hrt rounds k m hs]
    exact hm
  | succ j =>
    obtain ⟨i, rfl⟩ : ∃ i, k = i + 1 :=
      ⟨k - 1, by rw [length_writeString] at hk; omega⟩
    rw [writeString, List.length_cons, Nat.add_lt_add_iff_right] at hj
    rw [writeString, List.take_succ_cons, List.cons_append] at hs
    obtain ⟨htag, hs⟩ := hrt.readTag_tag hs (readTag_cons (by omega) hf _)
    rw [mergeLoop]
    simp only [htag, mergeField_string, readStringInto]
    cases hread : readBytes ((delimited v).take j ++ List.replicate n 0) with
    | none =>
      obtain ⟨u, hu⟩ := hrt.readString_none (f.old m) hs hread
      rw [hu]
      exact hset u
    | some read =>
      obtain ⟨u, rest⟩ := read
      obtain ⟨s', hu, hs'⟩ := hrt.readString_some (f.old m) hs hread
      obtain ⟨d, rfl⟩ := localReader_readBytes.torn (takes_delimited hlen) hj hread
      rw [hu]
      by_cases hutf8 : validUtf8 u = true
      · rw [List.drop_replicate] at hs'
        simp only [hutf8, if_true, mergeLoop_zeros hrt _ _ _ hs']
        exact hset u
      · simp only [hutf8]
        exact hset u

variable (rt At) in
/-- From every message with the property `P` the loop reads `bs` to another one, and it leads to
one as well if `bs` is torn. -/
def KeepsTorn (bs : Bytes) (P : TunnelMessage → Prop) : Prop :=
  ∀ m, P m → Torn rt At m bs P ∧ ∃ m', Merges rt At m bs m' ∧ P m'

theorem KeepsTorn.nil : KeepsTorn rt At [] P := fun m hm => ⟨.nil, m, .refl m, hm⟩

theorem KeepsTorn.append (h : KeepsTorn rt At bs P) (h' : KeepsTorn rt At cs P) :
    KeepsTorn rt At (bs ++ cs) P := by
  intro m hm
  obtain ⟨htorn, m', hmerges, hm'⟩ := h m hm
  obtain ⟨htorn', m'', hmerges', hm''⟩ := h' m' hm'
  exact ⟨htorn.append hmerges htorn', m'', hmerges.trans hmerges', hm''⟩

/-- A string field, if setting it keeps the property. -/
private theorem keepsTorn_writeString (hrt : rt.Reads At Ended) (f : StringField) {v : Bytes}
    (hv : validUtf8 v = true ∧ v.length < 2 ^ 31) (hset : ∀ m v, P m → P (f.merge m v)) :
    KeepsTorn rt At (writeString f.number v) P := fun m hm =>
  ⟨torn_string hrt f hv.2 hm fun u => hset m u hm, f.merge m v,
    merges_field hrt m (.string f v hv), hset m v hm⟩

private theorem keepsTorn_writeStringField (hrt : rt.Reads At Ended) (f : StringField) {v : Bytes}
    (hv : validUtf8 v = true ∧ v.length < 2 ^ 31) (hset : ∀ m v, P m → P (f.merge m v)) :
    KeepsTorn rt At (writeStringField f.number v) P := by
  rw [writeStringField]
  split_ifs
  · exact keepsTorn_writeString hrt f hv hset
  · exact .nil

/-- The type and the code are those of a message that nothing has been read into. -/
def Unmarked (m : TunnelMessage) : Prop :=
  m.type = .known .request ∧ m.messageCode = .known .authorization

private theorem Unmarked.string (f : StringField) (m : TunnelMessage) (v : Bytes)
    (hm : m.Unmarked) : (f.merge m v).Unmarked := by
  cases f
  all_goals exact hm

/-- The fields that are written before the type and the code. -/
private theorem keepsTorn_strings (hrt : rt.Reads At Ended) (hm : m.Valid) :
    KeepsTorn rt At m.serializeStrings Unmarked := by
  have hs := strings_of_valid hm
  simp only [strings, List.mem_append, List.mem_cons, List.not_mem_nil, or_false] at hs
  have hdns : ∀ {vs : List Bytes}, (∀ v ∈ vs, validUtf8 v = true ∧ v.length < 2 ^ 31) →
      KeepsTorn rt At (vs.flatMap (writeString 7)) Unmarked := by
    intro vs
    induction vs with
    | nil => exact fun _ => .nil
    | cons v vs ih =>
      intro hvs
      exact (keepsTorn_writeString hrt .dns (hvs v (by simp)) (Unmarked.string .dns)).append
        (ih fun u hu => hvs u (by simp [hu]))
  have hfield (f : StringField) {v : Bytes} (hv : validUtf8 v = true ∧ v.length < 2 ^ 31) :
      KeepsTorn rt At (writeStringField f.number v) Unmarked :=
    keepsTorn_writeStringField hrt f hv (Unmarked.string f)
  exact (((((hfield .username (hs _ (by simp))).append (hfield .password (hs _ (by simp)))).append
    (hfield .ip (hs _ (by simp)))).append (hfield .submask (hs _ (by simp)))).append
      (hfield .gateway (hs _ (by simp)))).append (hdns fun v hv => hs v (.inr hv))

/-- A message that a torn `ESTABLISH` response is read as, with `missing` of its bytes not
there. -/
def ReadsTorn (missing : ℕ) (m : TunnelMessage) : Prop :=
  m.type = .known .request ∨
    m.type = .known .response ∧ m.messageCode = .known .authorization ∧ missing ≤ 2

/-- An enumeration field with a number of one byte. -/
private theorem mergeLoop_enum (hrt : rt.Reads At Ended) (f : EnumField) {n : ℕ} (hn : n < 128)
    {rounds k : ℕ} (hrounds : 2 ≤ rounds) (hk : 2 ≤ k) (rest : Bytes)
    (hs : At s (UInt8.ofNat (f.number * 8) :: UInt8.ofNat n :: rest) []) :
    ∃ s' j, At s' rest [] ∧ k ≤ j + 2 ∧
      mergeLoop rt rounds k m s = mergeLoop rt rounds j (f.merge m (enumOfVarint n)) s' := by
  have hvarint : varint n = [UInt8.ofNat n] := by rw [varint, varintUpTo, if_pos hn]
  have hmerges := merges_field hrt m (.enum f n (by omega))
  rw [Field.encode, hvarint] at hmerges
  obtain ⟨s', hs', i, hi, hrun⟩ := hmerges rounds s rest hrounds hs
  refine ⟨s', k - i, hs', by simp only [List.length_cons, List.length_nil] at hi; omega, ?_⟩
  rw [← Nat.add_sub_of_le (hi.trans hk), hrun, Nat.add_sub_cancel_left]
  rfl

/-- The type and the code, torn with `i` of their four bytes there. -/
private theorem readsTorn_marks (hrt : rt.Reads At Ended) (hm : m.Unmarked) {i rounds k : ℕ}
    (hi : i < 4) (hrounds : 4 ≤ rounds) (hk : 4 ≤ k)
    (hs : At s (([0x40, 1, 0x48, 1] : Bytes).take i ++ List.replicate (4 - i) 0) []) :
    (mergeLoop rt rounds k m s).2.1.ReadsTorn (4 - i) := by
  match i, hi with
  | 0, _ =>
    rw [mergeLoop_zeros hrt rounds k m (n := 4) hs]
    exact .inl hm.1
  | 1, _ =>
    obtain ⟨s', j, hs', -, hrun⟩ := mergeLoop_enum (m := m) (n := 0)
      hrt .type (by decide) (by omega : 2 ≤ rounds) (by omega : 2 ≤ k) (List.replicate 2 0) hs
    rw [hrun, mergeLoop_zeros hrt _ _ _ hs']
    exact .inl rfl
  | 2, _ =>
    obtain ⟨s', j, hs', -, hrun⟩ := mergeLoop_enum (m := m) (n := 1)
      hrt .type (by decide) (by omega : 2 ≤ rounds) (by omega : 2 ≤ k) (List.replicate 2 0) hs
    rw [hrun, mergeLoop_zeros hrt _ _ _ hs']
    exact .inr ⟨rfl, hm.2, le_rfl⟩
  | 3, _ =>
    obtain ⟨s', j, hs', hj, hrun⟩ := mergeLoop_enum (m := m) (n := 1)
      hrt .type (by decide) (by omega : 2 ≤ rounds) (by omega : 2 ≤ k) [0x48, 0] hs
    obtain ⟨s'', j', hs'', -, hrun'⟩ := mergeLoop_enum (n := 0)
      hrt .messageCode (by decide) (by omega : 2 ≤ rounds) (by omega : 2 ≤ j)
        (List.replicate 0 0) hs'
    rw [hrun, hrun', mergeLoop_zeros hrt _ _ _ hs'']
    exact .inr ⟨rfl, rfl, by decide⟩

/-- What the server answers to an `ESTABLISH` request of the client. -/
structure Reply (m : TunnelMessage) : Prop where
  valid : m.Valid
  type : m.type = .known .response
  messageCode : m.messageCode = .known .establish
  passwordEncryptType : m.passwordEncryptType = .known .no
  linkEncryptType : m.linkEncryptType = .known .rawData
  packet : m.packet = none

/-- **A torn `ESTABLISH` response is not read as one.** If one byte or more of its encoding is
missing, with zeros in its place, the type that is read is still `REQUEST`, or the code is still
`AUTHORIZATION` and at most the two bytes of the code are missing. -/
theorem parse_torn_establish (hrt : rt.Lawful) (hm : m.Reply) {j : ℕ} (hj : j < m.byteSize) :
    (parse rt (m.serialize.take j ++ List.replicate (m.byteSize - j) 0) m.byteSize).2.ReadsTorn
      (m.byteSize - j) := by
  obtain ⟨At, Ended, hreads⟩ := hrt.reads
  obtain ⟨htorn, mA, hmerges, hmark⟩ := keepsTorn_strings hreads hm.valid {} ⟨rfl, rfl⟩
  have hserialize : m.serialize = m.serializeStrings ++ [0x40, 1, 0x48, 1] := by
    have h8 : writeEnumField 8 (OpenEnum.known MessageType.response).number = [0x40, 1] := by decide
    have h9 : writeEnumField 9 (OpenEnum.known MessageCode.establish).number = [0x48, 1] := by
      decide
    have h10 : writeEnumField 10 (OpenEnum.known PasswordEncryptType.no).number = [] := by decide
    have h11 : writeEnumField 11 (OpenEnum.known LinkEncryptType.rawData).number = [] := by decide
    rw [serialize, serializeStrings, hm.type, hm.messageCode, hm.passwordEncryptType,
      hm.linkEncryptType, hm.packet, h8, h9, h10, h11]
    simp [writePacketField]
  have hsize := m.length_serialize
  rw [hserialize, List.length_append,
    show ([0x40, 1, 0x48, 1] : Bytes).length = 4 from rfl] at hsize
  -- what the client hands over
  have hlen : (m.serialize.take j ++ List.replicate (m.byteSize - j) (0 : UInt8)).length =
      m.byteSize := by
    rw [List.length_append, List.length_take, List.length_replicate, m.length_serialize]
    omega
  have hs := hreads.ofArray (by rw [hlen]; exact hm.valid.size)
  rw [parse_snd, hlen]
  rw [hlen] at hs
  generalize rt.ofArray _ (m.byteSize : ℤ) = s at hs ⊢
  rw [hserialize] at hs
  rcases Nat.lt_or_ge j m.serializeStrings.length with hlt | hge
  · rw [List.take_append_of_le_length hlt.le] at hs
    exact .inl (htorn j _ hlt _ s (by omega) hs _ (by omega)).1
  · -- the strings are there
    obtain ⟨i, rfl⟩ : ∃ i, j = m.serializeStrings.length + i :=
      ⟨j - m.serializeStrings.length, by omega⟩
    have hmissing : m.byteSize - (m.serializeStrings.length + i) = 4 - i := by omega
    rw [hmissing, List.take_append, List.take_of_length_le (Nat.le_add_right _ _),
      Nat.add_sub_cancel_left, List.append_assoc] at hs
    obtain ⟨s', hs', n, hn, hrun⟩ := hmerges (m.byteSize + 1) s _ (by omega) hs
    have hloop := hrun (m.byteSize + 1 - n)
    rw [Nat.add_sub_of_le (by omega)] at hloop
    rw [hmissing, hloop]
    exact readsTorn_marks hreads hmark (by omega) (by omega) (by omega) hs'

end Runtime

end TunnelMessage

/-! ### As properties of the codec -/

/-- **The codec on what has not arrived.** The client has zeros in place of it: of the end of a
reply, or of the whole of a payload. -/
structure Protobuf.TellsTorn (pb : Protobuf) : Prop where
  reply : ∀ {m : TunnelMessage}, m.Reply → ∀ {j : ℕ}, j < m.byteSize →
    (pb.parseFromArray ((pb.serializeToArray m).take j ++ List.replicate (m.byteSize - j) 0)
      m.byteSize).2.ReadsTorn (m.byteSize - j)
  zeros : ∀ {n : ℕ} {size : ℤ}, size ≤ n → (size < 0 → 0 < n) →
    (pb.parseFromArray (List.replicate n 0) size).2.type = .known .request

theorem tellsTorn_generated {σ : Type} {rt : CodedStream σ} (hrt : rt.Lawful) :
    (generated rt hrt).TellsTorn where
  reply hm _ hj := TunnelMessage.parse_torn_establish hrt hm hj
  zeros hsize hneg := congrArg (·.type) (TunnelMessage.parse_replicate_zero hrt hsize hneg)

end SplendidLinker
