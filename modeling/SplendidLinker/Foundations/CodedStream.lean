import SplendidLinker.Foundations.WireReaders

/-!
# Coded input streams

The stream that generated protobuf code parses from. The readers of a `CodedStream` belong to the
runtime, and what they do with an arbitrary input is left to it: a runtime may cut a nested
length off at the limit around it, or refuse it, and it may keep the bytes of a truncated string,
or drop them. `Lawful` is what generated code can rely on:

* where the documented reader of the wire format succeeds, the reader of the stream gives the same
  and leaves the stream at the rest (`Reads`);
* a reader takes from the stream at least the shortest form of what it reads (`Counts`).

`listStream` is a stream over byte lists with both laws.
-/

namespace Foundations

open WireFormat

/-- The readers of a stream. -/
structure CodedStream (σ : Type) where
  /-- A stream over the first `size` bytes of an array. -/
  ofArray : List UInt8 → ℤ → σ
  /-- Read a tag: `0` at the end of the input, and where there is no tag. -/
  readTag : σ → ℕ × σ
  /-- Read a length-delimited value over an old one; the error is what a failed read leaves
  behind. -/
  readString : List UInt8 → σ → Except (List UInt8) (List UInt8 × σ)
  /-- Read the number of an enumeration field. -/
  readEnum : σ → Option (Int32 × σ)
  /-- Read a length and put the limit of the stream that far ahead; the limit before it is
  returned. -/
  pushLimit : σ → Option (ℤ × σ)
  /-- Return to an earlier limit, if the input has ended properly at the present one. -/
  popLimit : ℤ → σ → Option σ
  /-- Skip the value of a field with a tag. -/
  skipField : ℕ → σ → Option σ
  /-- Whether the last tag was missing because the input had ended. -/
  consumedEntireMessage : σ → Bool

namespace CodedStream

variable {σ : Type}

/-- **Where the documentation says what is read.** `At s bs outer`: `bs` is ahead of the stream up
to its limit, and `outer` are the earlier limits with what is ahead of each. `Ended s outer`: the
input has ended properly at the present limit. -/
structure Reads (rt : CodedStream σ) (At : σ → List UInt8 → List (ℤ × List UInt8) → Prop)
    (Ended : σ → List (ℤ × List UInt8) → Prop) : Prop where
  ofArray : ∀ {bs}, bs.length < 2 ^ 31 → At (rt.ofArray bs bs.length) bs []
  /-- Zeros hold no tag, also for a size that has overflown. -/
  ofArray_zeros : ∀ {n : ℕ} {size : ℤ}, size ≤ n → (size < 0 → 0 < n) →
    (rt.readTag (rt.ofArray (List.replicate n 0) size)).1 = 0
  readTag_done : ∀ {s outer}, At s [] outer →
    (rt.readTag s).1 = 0 ∧ Ended (rt.readTag s).2 outer
  readTag_bad : ∀ {s bs outer}, At s bs outer → WireFormat.readTag bs = .bad →
    (rt.readTag s).1 = 0
  readTag_tag : ∀ {s bs outer t rest}, At s bs outer → WireFormat.readTag bs = .tag t rest →
    (rt.readTag s).1 = t ∧ At (rt.readTag s).2 rest outer
  readString_some : ∀ {s bs outer v rest} old, At s bs outer → readBytes bs = some (v, rest) →
    ∃ s', rt.readString old s = .ok (v, s') ∧ At s' rest outer
  readString_none : ∀ {s bs outer} old, At s bs outer → readBytes bs = none →
    ∃ v, rt.readString old s = .error v
  readEnum : ∀ {s bs outer n rest}, At s bs outer → readVarint bs = some (n, rest) →
    ∃ s', rt.readEnum s = some (enumOfVarint n, s') ∧ At s' rest outer
  /-- The default limit of the nesting is 100. -/
  pushLimit : ∀ {s content rest outer}, At s (delimited content ++ rest) outer →
    content.length < 2 ^ 31 → outer.length < 100 →
    ∃ limit s', rt.pushLimit s = some (limit, s') ∧ At s' content ((limit, rest) :: outer)
  popLimit : ∀ {s limit rest outer}, Ended s ((limit, rest) :: outer) →
    ∃ s', rt.popLimit limit s = some s' ∧ At s' rest outer
  skipField : ∀ {s bs outer t rest}, At s bs outer → WireFormat.skipField t bs = some rest →
    ∃ s', rt.skipField t s = some s' ∧ At s' rest outer
  consumedEntireMessage : ∀ {s}, Ended s [] → rt.consumedEntireMessage s = true

/-- **What is taken from the stream.** `Unread s n`: at most `n` bytes of the array are ahead of
the stream. -/
structure Counts (rt : CodedStream σ) (Unread : σ → ℕ → Prop) : Prop where
  ofArray : ∀ {bs : List UInt8}, bs.length < 2 ^ 31 →
    Unread (rt.ofArray bs bs.length) bs.length
  readTag : ∀ {s n}, Unread s n →
    ∃ m ≤ n, Unread (rt.readTag s).2 m ∧ ((rt.readTag s).1 ≠ 0 → m < n)
  readString_ok : ∀ {s n old v s'}, Unread s n → rt.readString old s = .ok (v, s') →
    ∃ m, Unread s' m ∧ m + (varintSize v.length + v.length) ≤ n
  /-- A failed read leaves the old value, or what there was of the new one. -/
  readString_error : ∀ {s n old v}, Unread s n → rt.readString old s = .error v →
    v = old ∨ varintSize v.length + v.length ≤ n
  readEnum : ∀ {s n v s'}, Unread s n → rt.readEnum s = some (v, s') →
    ∃ m, Unread s' m ∧ m + min 5 (varintSize (enumVarint v)) ≤ n
  pushLimit : ∀ {s n limit s'}, Unread s n → rt.pushLimit s = some (limit, s') →
    ∃ m < n, Unread s' m
  popLimit : ∀ {s n limit s'}, Unread s n → rt.popLimit limit s = some s' → ∃ m ≤ n, Unread s' m
  skipField : ∀ {s n t s'}, Unread s n → rt.skipField t s = some s' → ∃ m ≤ n, Unread s' m

/-- The laws that generated code relies on. -/
structure Lawful (rt : CodedStream σ) : Prop where
  reads : ∃ At Ended, rt.Reads At Ended
  counts : ∃ Unread, rt.Counts Unread

namespace Reads

variable {rt : CodedStream σ} {At : σ → List UInt8 → List (ℤ × List UInt8) → Prop}
  {Ended : σ → List (ℤ × List UInt8) → Prop}

/-- A length-delimited value is read back. -/
theorem readString_delimited (h : rt.Reads At Ended) {s : σ} {v rest : List UInt8}
    {outer : List (ℤ × List UInt8)} (old : List UInt8) (hv : v.length < 2 ^ 31)
    (hs : At s (delimited v ++ rest) outer) :
    ∃ s', rt.readString old s = .ok (v, s') ∧ At s' rest outer :=
  h.readString_some old hs (readBytes_delimited hv rest)

/-- There is no tag in a run of zeros. -/
theorem readTag_zeros (h : rt.Reads At Ended) {s : σ} {n : ℕ} {outer : List (ℤ × List UInt8)}
    (hs : At s (List.replicate n 0) outer) : (rt.readTag s).1 = 0 := by
  cases hread : WireFormat.readTag (List.replicate n 0) with
  | done =>
    have hnil : List.replicate n (0 : UInt8) = [] := by
      by_contra hne
      rw [WireFormat.readTag, if_neg hne] at hread
      split at hread
      · cases hread
      · split_ifs at hread
    rw [hnil] at hs
    exact (h.readTag_done hs).1
  | bad => exact h.readTag_bad hs hread
  | tag t rest => exact absurd hread (readTag_replicate_zero n t rest)

end Reads

end CodedStream

/-! ### A stream over byte lists -/

/-- What is ahead of a stream: up to its limit, and from there to each of the limits around it. -/
structure ListStream where
  ahead : List UInt8
  beyond : List (List UInt8)
  ended : Bool
  deriving DecidableEq, Repr

/-- The stream over byte lists. A nested length is cut off at the limit around it, and a truncated
string keeps the bytes that were there. -/
def listStream : CodedStream ListStream where
  ofArray bs size := ⟨bs.take size.toNat, [], false⟩
  readTag s :=
    match readTag s.ahead with
    | .done => (0, { s with ended := true })
    | .bad => (0, s)
    | .tag t rest => (t, { s with ahead := rest })
  readString old s :=
    match readVarint s.ahead with
    | none => .error old
    | some (n, rest) =>
      if 2 ^ 31 ≤ n % 2 ^ 32 then .error old
      else if rest.length < n % 2 ^ 32 then .error rest
      else .ok (rest.take (n % 2 ^ 32), { s with ahead := rest.drop (n % 2 ^ 32) })
  readEnum s := (readVarint s.ahead).map fun r => (enumOfVarint r.1, { s with ahead := r.2 })
  pushLimit s :=
    match readVarint s.ahead with
    | none => none
    | some (n, rest) =>
      if 2 ^ 31 ≤ n then none else some (0, ⟨rest.take n, rest.drop n :: s.beyond, false⟩)
  popLimit _ s :=
    match s.ended, s.beyond with
    | true, rest :: beyond => some ⟨rest, beyond, false⟩
    | _, _ => none
  skipField t s := (skipField t s.ahead).map fun rest => { s with ahead := rest }
  consumedEntireMessage s := s.ended

namespace ListStream

/-- What is ahead of a list stream. -/
def At (s : ListStream) (bs : List UInt8) (outer : List (ℤ × List UInt8)) : Prop :=
  s.ahead = bs ∧ s.beyond = outer.map Prod.snd

/-- A list stream that has ended. -/
def Ended (s : ListStream) (outer : List (ℤ × List UInt8)) : Prop :=
  s.ended = true ∧ s.beyond = outer.map Prod.snd

/-- The bytes that are ahead of a list stream. -/
def Unread (s : ListStream) (n : ℕ) : Prop :=
  s.ahead.length + s.beyond.flatten.length ≤ n

end ListStream

open ListStream in
private theorem reads_listStream : listStream.Reads ListStream.At ListStream.Ended where
  ofArray {bs} _ := by simp [At, listStream]
  ofArray_zeros {n size} _ _ := by
    cases hread : readTag (List.replicate (min size.toNat n) 0) with
    | done => simp [listStream, hread]
    | bad => simp [listStream, hread]
    | tag t rest => exact absurd hread (readTag_replicate_zero _ t rest)
  readTag_done := fun ⟨hs, hbeyond⟩ => by simp [listStream, hs, readTag, Ended, hbeyond]
  readTag_bad := fun ⟨hs, hbeyond⟩ hread => by simp [listStream, hs, hread]
  readTag_tag := fun ⟨hs, hbeyond⟩ hread => by simp [listStream, hs, hread, At, hbeyond]
  readString_some {s bs outer v rest} old := fun ⟨hs, hbeyond⟩ hread => by
    rw [readBytes] at hread
    split at hread
    · cases hread
    · rename_i n rest' hn
      split_ifs at hread with hsign hshort
      obtain ⟨rfl, rfl⟩ := Prod.mk.inj (Option.some.inj hread)
      refine ⟨{ s with ahead := rest'.drop (n % 2 ^ 32) }, ?_, rfl, hbeyond⟩
      simp only [listStream, hs, hn, if_neg hsign, if_neg hshort]
  readString_none {s bs outer} old := fun ⟨hs, hbeyond⟩ hread => by
    rw [readBytes] at hread
    split at hread
    · rename_i hn
      exact ⟨old, by simp only [listStream, hs, hn]⟩
    · rename_i n rest hn
      split_ifs at hread with hsign hshort
      · exact ⟨old, by simp only [listStream, hs, hn, if_pos hsign]⟩
      · exact ⟨rest, by simp only [listStream, hs, hn, if_neg hsign, if_pos hshort]⟩
  readEnum {s bs outer n rest} := fun ⟨hs, hbeyond⟩ hread =>
    ⟨{ s with ahead := rest }, by simp [listStream, hs, hread], rfl, hbeyond⟩
  pushLimit {s content rest outer} := fun ⟨hs, hbeyond⟩ hlen _ => by
    have hread : readVarint s.ahead = some (content.length, content ++ rest) := by
      rw [hs, delimited, List.append_assoc, readVarint_varint (by omega)]
    refine ⟨0, ⟨content, rest :: s.beyond, false⟩, ?_, rfl, by simp [hbeyond]⟩
    simp only [listStream, hread]
    rw [if_neg (by omega), List.take_left, List.drop_left]
  popLimit {s limit rest outer} := fun ⟨hs, hbeyond⟩ =>
    ⟨⟨rest, outer.map Prod.snd, false⟩, by simp [listStream, hs, hbeyond], rfl, rfl⟩
  skipField {s bs outer t rest} := fun ⟨hs, hbeyond⟩ hread =>
    ⟨{ s with ahead := rest }, by simp [listStream, hs, hread], rfl, hbeyond⟩
  consumedEntireMessage := fun ⟨hs, _⟩ => hs

private theorem enumSize_le {n j : ℕ} (hj : 0 < j) (hn : n < 128 ^ j) :
    min 5 (varintSize (enumVarint (enumOfVarint n))) ≤ j := by
  rcases Nat.lt_or_ge j 5 with h | h
  · have hpow : 128 ^ j ≤ 128 ^ 4 := Nat.pow_le_pow_right (by decide) (by omega)
    rw [enumVarint_enumOfVarint (lt_of_lt_of_le (lt_of_lt_of_le hn hpow) (by decide))]
    have := varintSize_le_of_lt hj hn
    omega
  · omega

open ListStream in
private theorem counts_listStream : listStream.Counts ListStream.Unread where
  ofArray {bs} _ := by simp [Unread, listStream]
  readTag {s n} hs := by
    rw [Unread] at hs
    cases hread : readTag s.ahead with
    | done => exact ⟨n, le_rfl, by simpa [listStream, hread, Unread] using hs⟩
    | bad => exact ⟨n, le_rfl, by simpa [listStream, hread, Unread] using hs⟩
    | tag t rest =>
      obtain ⟨w, hw, hpos, -⟩ := readTag_spec hread
      rw [hw, List.length_append] at hs
      refine ⟨n - w.length, Nat.sub_le _ _, ?_, fun _ => by omega⟩
      simp only [listStream, hread, Unread]
      omega
  readString_ok {s n old v s'} hs hread := by
    rw [Unread] at hs
    simp only [listStream] at hread
    split at hread
    · cases hread
    · rename_i k rest hk
      split_ifs at hread with hsign hshort
      obtain ⟨rfl, rfl⟩ := Prod.mk.inj (Except.ok.inj hread)
      obtain ⟨w, hw, -, hpos, hlt⟩ := readVarint_spec hk
      have hsize := varintSize_le_of_lt hpos (lt_of_le_of_lt (Nat.mod_le k (2 ^ 32)) hlt)
      have hlen : (rest.take (k % 2 ^ 32)).length = k % 2 ^ 32 :=
        List.length_take_of_le (by omega)
      rw [hw, List.length_append] at hs
      refine ⟨(rest.drop (k % 2 ^ 32)).length + s.beyond.flatten.length, le_rfl, ?_⟩
      rw [hlen, List.length_drop]
      omega
  readString_error {s n old v} hs hread := by
    rw [Unread] at hs
    simp only [listStream] at hread
    split at hread
    · exact .inl (Except.error.inj hread).symm
    · rename_i k rest hk
      split_ifs at hread with hsign hshort
      · exact .inl (Except.error.inj hread).symm
      · -- the bytes that are there are fewer than were announced
        obtain rfl := Except.error.inj hread
        obtain ⟨w, hw, -, hpos, hlt⟩ := readVarint_spec hk
        have hsize := varintSize_le_of_lt hpos
          ((hshort.trans_le (Nat.mod_le k (2 ^ 32))).trans hlt)
        rw [hw, List.length_append] at hs
        exact .inr (by omega)
  readEnum {s n v s'} hs hread := by
    rw [Unread] at hs
    obtain ⟨⟨k, rest⟩, hk, heq⟩ := Option.map_eq_some_iff.mp hread
    obtain ⟨rfl, rfl⟩ := Prod.mk.inj heq
    obtain ⟨w, hw, -, hpos, hlt⟩ := readVarint_spec hk
    have hsize := enumSize_le hpos hlt
    rw [hw, List.length_append] at hs
    refine ⟨rest.length + s.beyond.flatten.length, le_rfl, ?_⟩
    simp only
    omega
  pushLimit {s n limit s'} hs hpush := by
    rw [Unread] at hs
    simp only [listStream] at hpush
    split at hpush
    · cases hpush
    · rename_i k rest hk
      split_ifs at hpush
      obtain ⟨rfl, rfl⟩ := Prod.mk.inj (Option.some.inj hpush)
      obtain ⟨w, hw, -, hpos, -⟩ := readVarint_spec hk
      rw [hw, List.length_append] at hs
      refine ⟨n - w.length, by omega, ?_⟩
      have hsplit := congrArg List.length (List.take_append_drop k rest)
      rw [List.length_append] at hsplit
      simp only [Unread, List.flatten_cons, List.length_append]
      omega
  popLimit {s n limit s'} hs hpop := by
    rw [Unread] at hs
    simp only [listStream] at hpop
    split at hpop
    · rename_i rest beyond _ hbeyond
      obtain rfl := Option.some.inj hpop
      rw [hbeyond, List.flatten_cons, List.length_append] at hs
      refine ⟨n, le_rfl, ?_⟩
      simp only [Unread]
      omega
    · cases hpop
  skipField {s n t s'} hs hskip := by
    rw [Unread] at hs
    obtain ⟨rest, hrest, rfl⟩ := Option.map_eq_some_iff.mp hskip
    have := length_skipField_le hrest
    refine ⟨n, le_rfl, ?_⟩
    simp only [Unread]
    omega

/-- **The stream over byte lists has the laws.** -/
theorem lawful_listStream : listStream.Lawful :=
  ⟨⟨_, _, reads_listStream⟩, ⟨_, counts_listStream⟩⟩

end Foundations
