import SplendidLinker.Message.FieldSequences

/-!
# What the parser leaves behind

What can be said of `ParseFromArray` on any input, with any lawful runtime. The generated code
checks the strings of a message itself, so a message that is accepted has UTF-8 strings
(`utf8_of_accepted`). And the size of a message is paid for by the bytes it was read from
(`inputSize_parse_le`), except for a negative enumeration number, which takes five bytes on the
wire at least but is written as ten, and for the length of the packet, which the runtime may cut
off. This bounds what a message is written as by what it was read from (`canonical_of_accepted`).
The bytes pay for the rounds of the parse loop as well, so that its bounds are never reached
(`mergeLoop_ofArray`).
-/

namespace SplendidLinker

open Foundations WireFormat

namespace TunnelMessage

/-! ### The size of a message on its way in -/

/-- The share of an enumeration field in the shortest input that sets it. -/
def enumInputSize (v : Int32) : ℕ := if v ≠ 0 then 1 + min 5 (varintSize (enumVarint v)) else 0

/-- The share of the packet field: its tag, a byte of its length and its content. -/
def packetInputSize : Option TunnelPacket → ℕ
  | none => 0
  | some p => 2 + packetSize p

/-- The length of the shortest input that is read as the message. -/
def inputSize (m : TunnelMessage) : ℕ :=
  m.dns.length + (m.dns.map stringSize).sum +
    stringFieldSize m.username + stringFieldSize m.password + stringFieldSize m.ip +
    stringFieldSize m.submask + stringFieldSize m.gateway + packetInputSize m.packet +
    enumInputSize m.type.number + enumInputSize m.messageCode.number +
    enumInputSize m.passwordEncryptType.number + enumInputSize m.linkEncryptType.number

/-- Each of the four enumeration fields may be written with five bytes more, and the length of the
packet with four. -/
theorem byteSize_le_inputSize {m : TunnelMessage} (h : m.inputSize < 2 ^ 35) :
    m.byteSize ≤ m.inputSize + 24 := by
  have henum (v : Int32) : enumFieldSize v ≤ enumInputSize v + 5 := by
    have := varintSize_le (enumVarint v)
    rw [enumFieldSize, enumInputSize]
    split_ifs <;> omega
  have h1 := henum m.type.number
  have h2 := henum m.messageCode.number
  have h3 := henum m.passwordEncryptType.number
  have h4 := henum m.linkEncryptType.number
  have hpacket : packetFieldSize m.packet ≤ packetInputSize m.packet + 4 := by
    cases hp : m.packet with
    | none => exact Nat.zero_le _
    | some p =>
      have hlt : packetSize p < 128 ^ 5 := by
        rw [inputSize, hp, packetInputSize] at h
        omega
      have := varintSize_le_of_lt (by decide : 0 < 5) hlt
      rw [packetFieldSize, packetInputSize]
      omega
  rw [byteSize, inputSize]
  omega

/-! ### One field -/

private theorem stringFieldSize_le (v : Bytes) : stringFieldSize v ≤ 1 + stringSize v := by
  rw [stringFieldSize]
  split_ifs <;> omega

/-- A string costs its tag and itself. -/
theorem inputSize_string_le (f : StringField) (m : TunnelMessage) (v : Bytes) :
    (f.merge m v).inputSize ≤ m.inputSize + (1 + stringSize v) := by
  have := stringFieldSize_le v
  cases f
  all_goals
    simp only [StringField.merge, inputSize, List.length_append, List.map_append,
      List.sum_append, List.length_singleton, List.map_singleton, List.sum_singleton]
    omega

/-- What a read finds in a string field costs the empty entry of the repeated field at most. -/
theorem inputSize_old_le (f : StringField) (m : TunnelMessage) :
    (f.merge m (f.old m)).inputSize ≤ m.inputSize + 2 := by
  cases f with
  | dns =>
    have hempty : stringSize [] = 1 := by decide
    have := inputSize_string_le .dns m []
    rwa [hempty] at this
  | username => exact Nat.le_add_right _ _
  | password => exact Nat.le_add_right _ _
  | ip => exact Nat.le_add_right _ _
  | submask => exact Nat.le_add_right _ _
  | gateway => exact Nat.le_add_right _ _

/-- An enumeration number costs its tag and itself. -/
theorem inputSize_enum_le (f : EnumField) (m : TunnelMessage) (v : Int32) :
    (f.merge m v).inputSize ≤ m.inputSize + (1 + min 5 (varintSize (enumVarint v))) := by
  have hle : enumInputSize v ≤ 1 + min 5 (varintSize (enumVarint v)) := by
    rw [enumInputSize]
    split_ifs <;> omega
  cases f
  all_goals
    simp only [EnumField.merge, inputSize, OpenEnum.number_ofNumber]
    omega

/-- A string is one of the strings of the message that it is read into. -/
theorem mem_strings_string {f : StringField} {m : TunnelMessage} {v u : Bytes}
    (hu : u ∈ (f.merge m v).strings) : u = v ∨ u ∈ m.strings := by
  cases f
  all_goals
    simp only [StringField.merge, strings, List.mem_append, List.mem_cons, List.not_mem_nil,
      or_false] at hu ⊢
    tauto

theorem strings_enum (f : EnumField) (m : TunnelMessage) (v : Int32) :
    (f.merge m v).strings = m.strings := by
  cases f
  all_goals rfl

/-- Every tag belongs to one of these cases. -/
theorem tag_cases (t : ℕ) :
    (∃ f : StringField, t = f.number * 8 + 2) ∨ (∃ f : EnumField, t = f.number * 8) ∨
      t = 106 ∨ t ∉ knownTags := by
  by_cases h : t ∈ knownTags
  · simp only [knownTags, List.mem_cons, List.not_mem_nil, or_false] at h
    rcases h with rfl | rfl | rfl | rfl | rfl | rfl | rfl | rfl | rfl | rfl | rfl
    · exact .inl ⟨.username, rfl⟩
    · exact .inl ⟨.password, rfl⟩
    · exact .inl ⟨.ip, rfl⟩
    · exact .inl ⟨.submask, rfl⟩
    · exact .inl ⟨.gateway, rfl⟩
    · exact .inl ⟨.dns, rfl⟩
    · exact .inr (.inl ⟨.type, rfl⟩)
    · exact .inr (.inl ⟨.messageCode, rfl⟩)
    · exact .inr (.inl ⟨.passwordEncryptType, rfl⟩)
    · exact .inr (.inl ⟨.linkEncryptType, rfl⟩)
    · exact .inr (.inr (.inl rfl))
  · exact .inr (.inr (.inr h))

/-- The message `m` has UTF-8 strings. -/
def Utf8 (m : TunnelMessage) : Prop := ∀ v ∈ m.strings, validUtf8 v = true

instance (m : TunnelMessage) : Decidable m.Utf8 := inferInstanceAs (Decidable (∀ v ∈ _, _))

section Runtime

variable {σ : Type} {rt : CodedStream σ} {Unread : σ → ℕ → Prop} {m m' : TunnelMessage}
  {s s' : σ} {n : ℕ}

/-- A packet costs what it was read from, and what it was before. -/
private theorem packetSize_mergePacket_le (hrt : rt.Counts Unread) (k : ℕ) (p : TunnelPacket)
    (hs : Unread s n) :
    packetSize (mergePacket rt k p s).2.1 ≤ packetSize p + n ∧
      ((mergePacket rt k p s).1 = true → ∃ j ≤ n, Unread (mergePacket rt k p s).2.2 j ∧
        packetSize (mergePacket rt k p s).2.1 + j ≤ packetSize p + n) := by
  induction k generalizing p s n with
  | zero => exact ⟨Nat.le_add_right _ _, fun h => by cases h⟩
  | succ k ih =>
    obtain ⟨i, hi, hs1, hlt⟩ := hrt.readTag hs
    rw [mergePacket]
    simp only
    split_ifs with hdata hend
    · have hlt := hlt (by rw [hdata]; decide)
      have hset (data : Bytes) : packetSize { p with packetData := data } ≤ 1 + stringSize data :=
        stringFieldSize_le data
      split
      case h_1 data hread =>
        refine ⟨?_, fun h => by cases h⟩
        rcases hrt.readString_error hs1 hread with rfl | hsize
        · exact Nat.le_add_right _ _
        · have := hset data
          rw [stringSize] at this
          simp only
          omega
      case h_2 data s2 hread =>
        obtain ⟨j, hs2, hsize⟩ := hrt.readString_ok hs1 hread
        obtain ⟨hle, hok⟩ := ih { p with packetData := data } hs2
        have := hset data
        rw [stringSize] at this
        refine ⟨by omega, fun h => ?_⟩
        obtain ⟨j', hj', hs3, hle'⟩ := hok h
        exact ⟨j', by omega, hs3, by omega⟩
    · exact ⟨Nat.le_add_right _ _, fun _ => ⟨i, hi, hs1, by simpa using hi⟩⟩
    · split
      case h_1 => exact ⟨Nat.le_add_right _ _, fun h => by cases h⟩
      case h_2 s2 hskip =>
        obtain ⟨j, hj, hs2⟩ := hrt.skipField hs1 hskip
        obtain ⟨hle, hok⟩ := ih p hs2
        refine ⟨by omega, fun h => ?_⟩
        obtain ⟨j', hj', hs3, hle'⟩ := hok h
        exact ⟨j', by omega, hs3, by omega⟩

variable (Unread m n) in
/-- What one `case` of the parse loop costs, when `n` bytes were ahead of it: what it has taken,
its tag, and one byte more where it has failed. -/
def MergeStep.Costs : MergeStep σ → Prop
  | .next m' s' => ∃ j ≤ n, Unread s' j ∧ m'.inputSize + j ≤ m.inputSize + n + 1
  | .success => True
  | .failure m' => m'.inputSize ≤ m.inputSize + n + 2

private theorem costs_readStringInto (hrt : rt.Counts Unread) (f : StringField)
    (hs : Unread s n) :
    (readStringInto rt (f.old m) s fun v => f.merge m v).Costs Unread m n := by
  rw [readStringInto]
  cases hread : rt.readString (f.old m) s with
  | error v =>
    change (f.merge m v).inputSize ≤ m.inputSize + n + 2
    rcases hrt.readString_error hs hread with rfl | hsize
    · exact (inputSize_old_le f m).trans (by omega)
    · have := inputSize_string_le f m v
      rw [stringSize] at this
      omega
  | ok r =>
    obtain ⟨v, s'⟩ := r
    obtain ⟨j, hs', hsize⟩ := hrt.readString_ok hs hread
    have := inputSize_string_le f m v
    rw [stringSize] at this
    simp only
    split_ifs
    · exact ⟨j, by omega, hs', by omega⟩
    · change (f.merge m v).inputSize ≤ m.inputSize + n + 2
      omega

private theorem costs_readEnumInto (hrt : rt.Counts Unread) (f : EnumField) (hs : Unread s n) :
    (readEnumInto rt m s fun v => f.merge m v).Costs Unread m n := by
  rw [readEnumInto]
  cases hread : rt.readEnum s with
  | none => exact (Nat.le_add_right _ _ : m.inputSize ≤ m.inputSize + (n + 2))
  | some r =>
    obtain ⟨v, s'⟩ := r
    obtain ⟨j, hs', hsize⟩ := hrt.readEnum hs hread
    have := inputSize_enum_le f m v
    exact ⟨j, by omega, hs', by omega⟩

private theorem costs_readPacketInto (hrt : rt.Counts Unread) (rounds : ℕ) (hs : Unread s n) :
    (readPacketInto rt rounds m s).Costs Unread m n := by
  -- the packet costs its tag and a byte of its length
  have hset {p : TunnelPacket} {i j : ℕ}
      (h : packetSize p + j ≤ packetSize (m.packet.getD {}) + i) :
      ({ m with packet := some p } : TunnelMessage).inputSize + j ≤ m.inputSize + 2 + i := by
    have hgetD : 2 + packetSize (m.packet.getD {}) ≤ packetInputSize m.packet + 2 := by
      cases m.packet with
      | none => decide
      | some p => exact Nat.le_add_right _ _
    have hp : packetInputSize (some p) = 2 + packetSize p := rfl
    simp only [inputSize, hp]
    omega
  rw [readPacketInto]
  cases hpush : rt.pushLimit s with
  | none => exact (hset (j := 0) (i := n) (Nat.le_add_right _ n)).trans (by omega)
  | some r =>
    obtain ⟨limit, s1⟩ := r
    obtain ⟨i, hi, hs1⟩ := hrt.pushLimit hs hpush
    obtain ⟨hle, hok⟩ := packetSize_mergePacket_le hrt rounds (m.packet.getD {}) hs1
    rcases hmerge : mergePacket rt rounds (m.packet.getD {}) s1 with ⟨ok, p, s2⟩
    simp only [hmerge] at hle hok ⊢
    cases ok with
    | false =>
      have := hset (j := 0) hle
      simp only [MergeStep.Costs]
      omega
    | true =>
      obtain ⟨j, hj, hs2, hle'⟩ := hok rfl
      cases hpop : rt.popLimit limit s2 with
      | none =>
        have := hset (j := 0) hle
        simp only [hpop, MergeStep.Costs]
        omega
      | some s3 =>
        obtain ⟨j', hj', hs3⟩ := hrt.popLimit hs2 hpop
        have := hset hle'
        simp only [hpop, MergeStep.Costs]
        exact ⟨j', by omega, hs3, by omega⟩

/-- A missing tag ends the loop with success. -/
private theorem tag_ne_zero {rounds t : ℕ} {r : MergeStep σ}
    (h : mergeField rt rounds m t s = r) (hr : r ≠ .success) : t ≠ 0 := by
  rintro rfl
  exact hr h.symm

/-- **What one field costs.** -/
theorem costs_mergeField (hrt : rt.Counts Unread) (rounds t : ℕ) (hs : Unread s n) :
    (mergeField rt rounds m t s).Costs Unread m n := by
  rcases tag_cases t with ⟨f, rfl⟩ | ⟨f, rfl⟩ | rfl | hunknown
  · rw [mergeField_string]
    exact costs_readStringInto hrt f hs
  · rw [mergeField_enum]
    exact costs_readEnumInto hrt f hs
  · exact costs_readPacketInto hrt rounds hs
  · rw [mergeField_of_unknown hunknown]
    split_ifs
    · trivial
    · cases hskip : rt.skipField t s with
      | none => exact (Nat.le_add_right _ _ : m.inputSize ≤ m.inputSize + (n + 2))
      | some s' =>
        obtain ⟨j, hj, hs'⟩ := hrt.skipField hs hskip
        exact ⟨j, hj, hs', by omega⟩

/-! ### The bounds on the rounds -/

section Rounds

variable {k k' rounds rounds' : ℕ}

/-- A round of a packet takes a byte at least, so that any bound above the bytes will do. -/
private theorem mergePacket_rounds (hrt : rt.Counts Unread) (p : TunnelPacket) (hs : Unread s n)
    (hk : n < k) (hk' : n < k') : mergePacket rt k p s = mergePacket rt k' p s := by
  induction k generalizing k' p s n with
  | zero => cases hk
  | succ k ih =>
    obtain ⟨k', rfl⟩ : ∃ j, k' = j + 1 := ⟨k' - 1, by omega⟩
    obtain ⟨i, hi, hs1, hlt⟩ := hrt.readTag hs
    rw [mergePacket, mergePacket]
    simp only
    split_ifs with hdata hend
    · have hpos := hlt (by rw [hdata]; decide)
      cases hread : rt.readString p.packetData (rt.readTag s).2 with
      | error data => rfl
      | ok r =>
        obtain ⟨j, hs2, hsize⟩ := hrt.readString_ok hs1 hread
        exact ih _ hs2 (by omega) (by omega)
    · rfl
    · have hpos := hlt fun hzero => hend (.inl hzero)
      cases hskip : rt.skipField (rt.readTag s).1 (rt.readTag s).2 with
      | none => rfl
      | some s2 =>
        obtain ⟨j, hj, hs2⟩ := hrt.skipField hs1 hskip
        exact ih _ hs2 (by omega) (by omega)

private theorem mergeField_rounds (hrt : rt.Counts Unread) (m : TunnelMessage) (t : ℕ)
    (hs : Unread s n) (hk : n < rounds) (hk' : n < rounds') :
    mergeField rt rounds m t s = mergeField rt rounds' m t s := by
  rcases tag_cases t with ⟨f, rfl⟩ | ⟨f, rfl⟩ | rfl | hunknown
  · rw [mergeField_string, mergeField_string]
  · rw [mergeField_enum, mergeField_enum]
  · change readPacketInto rt rounds m s = readPacketInto rt rounds' m s
    rw [readPacketInto, readPacketInto]
    cases hpush : rt.pushLimit s with
    | none => rfl
    | some r =>
      obtain ⟨i, hi, hs1⟩ := hrt.pushLimit hs hpush
      simp only [mergePacket_rounds hrt _ hs1 (by omega : i < rounds) (by omega : i < rounds')]
  · rw [mergeField_of_unknown hunknown, mergeField_of_unknown hunknown]

/-- A round of the loop takes a byte at least. -/
private theorem mergeLoop_rounds (hrt : rt.Counts Unread) (m : TunnelMessage) (hs : Unread s n)
    (hrounds : n < rounds) (hrounds' : n < rounds') (hk : n < k) (hk' : n < k') :
    mergeLoop rt rounds k m s = mergeLoop rt rounds' k' m s := by
  induction k generalizing k' m s n with
  | zero => cases hk
  | succ k ih =>
    obtain ⟨k', rfl⟩ : ∃ j, k' = j + 1 := ⟨k' - 1, by omega⟩
    obtain ⟨i, hi, hs1, hlt⟩ := hrt.readTag hs
    have hcosts := costs_mergeField (m := m) hrt rounds (rt.readTag s).1 hs1
    rw [mergeLoop, mergeLoop]
    simp only
    rw [← mergeField_rounds hrt m _ hs1 (by omega : i < rounds) (by omega : i < rounds')]
    cases hfield : mergeField rt rounds m (rt.readTag s).1 (rt.readTag s).2 with
    | success => rfl
    | failure m' => rfl
    | next m' s' =>
      have hpos := hlt (tag_ne_zero hfield (by simp))
      rw [hfield] at hcosts
      obtain ⟨j, hj, hs', -⟩ := hcosts
      exact ih m' hs' (by omega) (by omega) (by omega) (by omega)

/-- **The bounds are never reached.** With any lawful runtime, the parse loop of `ParseFromArray`
does the same with any bounds above the length of the input. -/
theorem mergeLoop_ofArray (hrt : rt.Lawful) {bs : Bytes} (hlen : bs.length < 2 ^ 31)
    (hrounds : bs.length < rounds) (hk : bs.length < k) :
    mergeLoop rt rounds k {} (rt.ofArray bs bs.length) =
      mergeLoop rt (bs.length + 1) (bs.length + 1) {} (rt.ofArray bs bs.length) := by
  obtain ⟨Unread, hcounts⟩ := hrt.counts
  exact mergeLoop_rounds hcounts {} (hcounts.ofArray hlen) hrounds (Nat.lt_succ_self _) hk
    (Nat.lt_succ_self _)

end Rounds

/-! ### The strings -/

/-- **One field keeps the strings UTF-8**, with any runtime: the generated code checks what it has
read. -/
theorem utf8_mergeField {rounds t : ℕ} (hm : m.Utf8)
    (h : mergeField rt rounds m t s = .next m' s') : m'.Utf8 := by
  rcases tag_cases t with ⟨f, rfl⟩ | ⟨f, rfl⟩ | rfl | hunknown
  · rw [mergeField_string, readStringInto] at h
    split at h
    case h_1 => cases h
    case h_2 v s1 hread =>
      split_ifs at h with hv
      obtain ⟨rfl, -⟩ := MergeStep.next.inj h
      intro u hu
      rcases mem_strings_string hu with rfl | hu
      · exact hv
      · exact hm u hu
  · rw [mergeField_enum, readEnumInto] at h
    split at h
    case h_1 => cases h
    case h_2 v s1 hread =>
      obtain ⟨rfl, -⟩ := MergeStep.next.inj h
      rwa [Utf8, strings_enum]
  · change readPacketInto rt rounds m s = _ at h
    rw [readPacketInto] at h
    split at h
    case h_1 => cases h
    case h_2 =>
      split at h
      case h_1 => cases h
      case h_2 =>
        split at h
        case h_1 => cases h
        case h_2 =>
          obtain ⟨rfl, -⟩ := MergeStep.next.inj h
          exact hm
  · rw [mergeField_of_unknown hunknown] at h
    split_ifs at h
    split at h
    case h_1 => cases h
    case h_2 =>
      obtain ⟨rfl, -⟩ := MergeStep.next.inj h
      exact hm

/-! ### The loop -/

/-- **What is read pays for what is written.** However a parse ends, the message is no longer
than the bytes it was read from, and one; and without that one if the parse succeeds. -/
theorem inputSize_mergeLoop_le (hrt : rt.Counts Unread) (rounds k : ℕ) (m : TunnelMessage)
    (hs : Unread s n) :
    (mergeLoop rt rounds k m s).2.1.inputSize ≤ m.inputSize + n + 1 ∧
      ((mergeLoop rt rounds k m s).1 = true →
        (mergeLoop rt rounds k m s).2.1.inputSize ≤ m.inputSize + n) := by
  induction k generalizing m s n with
  | zero => exact ⟨by simp only [mergeLoop]; omega, fun h => by cases h⟩
  | succ k ih =>
    obtain ⟨i, hi, hs1, hlt⟩ := hrt.readTag hs
    have hcosts := costs_mergeField (m := m) hrt rounds (rt.readTag s).1 hs1
    rw [mergeLoop]
    simp only
    cases hfield : mergeField rt rounds m (rt.readTag s).1 (rt.readTag s).2 with
    | success => exact ⟨by simp only; omega, fun _ => Nat.le_add_right _ _⟩
    | next m' s' =>
      have := hlt (tag_ne_zero hfield (by simp))
      rw [hfield] at hcosts
      obtain ⟨j, hj, hs', hle⟩ := hcosts
      obtain ⟨h1, h2⟩ := ih m' hs'
      simp only
      exact ⟨by omega, fun h => by have := h2 h; omega⟩
    | failure m' =>
      have := hlt (tag_ne_zero hfield (by simp))
      rw [hfield] at hcosts
      simp only [MergeStep.Costs] at hcosts ⊢
      exact ⟨by omega, fun h => by cases h⟩

/-- A loop that succeeds keeps the strings UTF-8. -/
theorem utf8_mergeLoop {rounds k : ℕ} (hm : m.Utf8)
    (h : mergeLoop rt rounds k m s = (true, m', s')) : m'.Utf8 := by
  induction k generalizing m s with
  | zero => cases h
  | succ k ih =>
    rw [mergeLoop] at h
    split at h
    split at h
    case h_1 m1 s1 hfield => exact ih (utf8_mergeField hm hfield) h
    case h_2 =>
      obtain ⟨rfl, -⟩ := Prod.mk.inj (Prod.mk.inj h).2
      exact hm
    case h_3 => cases h

/-- **A message that the parser has accepted has UTF-8 strings**, whatever the runtime, and
whatever the size it was given. -/
theorem utf8_of_accepted {data : Bytes} {size : ℤ} (h : parse rt data size = (true, m)) :
    m.Utf8 := by
  rw [parse] at h
  simp only at h
  rcases hloop : mergeLoop rt (data.length + 1) (data.length + 1) {} (rt.ofArray data size)
    with ⟨ok, m', s'⟩
  rw [hloop] at h
  obtain ⟨hok, rfl⟩ := Prod.mk.inj h
  rw [Bool.and_eq_true] at hok
  obtain rfl : ok = true := hok.1
  exact utf8_mergeLoop (by decide) hloop

/-- **The message that `ParseFromArray` leaves behind**, whatever it returns, has the size of the
input and one byte at most; and without that one if it is accepted. -/
theorem inputSize_parse_le (hrt : rt.Lawful) {bs : Bytes} (hlen : bs.length < 2 ^ 31) :
    (parse rt bs bs.length).2.inputSize ≤ bs.length + 1 ∧
      ((parse rt bs bs.length).1 = true → (parse rt bs bs.length).2.inputSize ≤ bs.length) := by
  obtain ⟨Unread, hcounts⟩ := hrt.counts
  have hloop := inputSize_mergeLoop_le hcounts (bs.length + 1) (bs.length + 1) {}
    (hcounts.ofArray hlen)
  have hempty : inputSize {} = 0 := by decide
  rw [hempty, Nat.zero_add] at hloop
  refine ⟨hloop.1, fun h => hloop.2 ?_⟩
  rw [parse, Bool.and_eq_true] at h
  exact h.1

/-! ### Writing back what was read -/

/-- **What is accepted is well formed and can be written back.** With any lawful runtime, the
message that an accepted input is read as has UTF-8 strings, its encoding is at most 24 bytes
longer than the input, and reading that encoding gives the message again. -/
theorem canonical_of_accepted (hrt : rt.Lawful) {bs : Bytes} (hlen : bs.length + 24 < 2 ^ 31)
    (h : parse rt bs bs.length = (true, m)) :
    m.Valid ∧ m.byteSize ≤ bs.length + 24 ∧ parse rt m.serialize m.byteSize = (true, m) := by
  have hinput := (inputSize_parse_le hrt (by omega : bs.length < 2 ^ 31)).2
  rw [h] at hinput
  have hle : m.inputSize ≤ bs.length := hinput rfl
  have hsize := byteSize_le_inputSize (lt_of_le_of_lt hle (by omega))
  have hvalid : m.Valid := ⟨utf8_of_accepted h, by omega⟩
  exact ⟨hvalid, by omega, parse_serialize hrt hvalid⟩

/-- An input that sets all four enumeration fields to `-1`, each in five bytes: their share of the
bound is reached. -/
theorem canonical_of_accepted_negative :
    let bs : Bytes := [0x40, 0xFF, 0xFF, 0xFF, 0xFF, 0x0F, 0x48, 0xFF, 0xFF, 0xFF, 0xFF, 0x0F,
      0x50, 0xFF, 0xFF, 0xFF, 0xFF, 0x0F, 0x58, 0xFF, 0xFF, 0xFF, 0xFF, 0x0F]
    let m := (parse listStream bs bs.length).2
    m.byteSize = bs.length + 20 ∧
      m.Valid ∧ m.byteSize ≤ bs.length + 24 ∧
        parse listStream m.serialize m.byteSize = (true, m) :=
  ⟨by decide, canonical_of_accepted lawful_listStream (by decide) (by decide)⟩

end Runtime

end TunnelMessage

/-! ### As properties of the codec -/

namespace Protobuf

/-- A message that is accepted has UTF-8 strings. -/
def ChecksUtf8 (pb : Protobuf) : Prop :=
  ∀ {data size m}, pb.parseFromArray data size = (true, m) → m.Utf8

/-- What a parse leaves behind has the size of the input and one byte at most. -/
def ReadsNoMore (pb : Protobuf) : Prop :=
  ∀ {bs : Bytes}, bs.length < 2 ^ 31 →
    (pb.parseFromArray bs bs.length).2.inputSize ≤ bs.length + 1

/-- Any message is written as `ByteSize` bytes: the buffer is made for them. -/
def WritesByteSize (pb : Protobuf) : Prop := ∀ m, (pb.serializeToArray m).length = m.byteSize

end Protobuf

section Generated

variable {σ : Type} {rt : CodedStream σ} (hrt : rt.Lawful)

theorem checksUtf8_generated : (generated rt hrt).ChecksUtf8 := fun h =>
  TunnelMessage.utf8_of_accepted h

theorem readsNoMore_generated : (generated rt hrt).ReadsNoMore := fun hlen =>
  (TunnelMessage.inputSize_parse_le hrt hlen).1

theorem writesByteSize_generated : (generated rt hrt).WritesByteSize :=
  TunnelMessage.length_serialize

end Generated

end SplendidLinker
