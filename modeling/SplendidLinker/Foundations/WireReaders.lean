import Mathlib.Data.List.Infix
import SplendidLinker.Foundations.WireFormat

/-!
# What the readers take

A reader gives back what it has read together with the rest of its input. `Takes r w a` says
that `r` reads the symbols `w` as `a`, whatever follows them, and `LocalReader r` that this is
all `r` ever does: when it succeeds it has taken a first part of its input, and it has not looked
at what is behind it. The readers of the wire format are local, and each has a bound from below
on what it takes.

Locality has two consequences. A reader that succeeds on an input succeeds in the same way on a
longer one. And a reader that is given only a part of what it would take, with something else
behind that part, either fails or reaches into what is behind it (`LocalReader.torn`).
-/

namespace Foundations

universe u v

section Reader

variable {α : Type u} {β : Type v} {r : List α → Option (β × List α)}

/-- The reader `r` reads `w` as `a`, whatever follows it. -/
def Takes (r : List α → Option (β × List α)) (w : List α) (a : β) : Prop :=
  ∀ cs, r (w ++ cs) = some (a, cs)

/-- When `r` succeeds, it has taken a first part of its input and looked at nothing behind it. -/
def LocalReader (r : List α → Option (β × List α)) : Prop :=
  ∀ bs a rest, r bs = some (a, rest) → ∃ w, bs = w ++ rest ∧ Takes r w a

/-- **A torn read.** A local reader that is given a part of what it takes, and `z` behind it,
reaches into `z` if it succeeds. -/
theorem LocalReader.torn (hr : LocalReader r) {w : List α} {a : β} (h : Takes r w a) {j : ℕ}
    (hj : j < w.length) {z : List α} {b : β} {rest : List α}
    (hread : r (w.take j ++ z) = some (b, rest)) : ∃ n, rest = z.drop (n + 1) := by
  obtain ⟨w', hw', htakes⟩ := hr _ _ _ hread
  have hlen : (w.take j).length = j := List.length_take_of_le hj.le
  -- otherwise it would take less of `w` than it does
  have hlt : j < w'.length := by
    by_contra hle
    have hprefix : w' <+: w.take j :=
      List.prefix_of_prefix_length_le ⟨rest, hw'.symm⟩ (List.prefix_append _ z) (by omega)
    obtain ⟨d, hd⟩ := hprefix.trans (List.take_prefix j w)
    have h1 := h []
    rw [List.append_nil, ← hd, htakes d] at h1
    have hd' : d = [] := (Prod.mk.inj (Option.some.inj h1)).2
    rw [hd', List.append_nil] at hd
    rw [hd] at hle
    omega
  refine ⟨w'.length - j - 1, ?_⟩
  have hdrop := congrArg (List.drop w'.length) hw'
  rw [List.drop_left, List.drop_append, List.drop_eq_nil_of_le (by omega), List.nil_append, hlen]
    at hdrop
  rw [← hdrop]
  congr 1
  omega

end Reader

namespace WireFormat

/-! ### Varints -/

private theorem readVarintUpTo_spec :
    ∀ {k : ℕ} {bs : List UInt8} {n : ℕ} {rest : List UInt8},
      readVarintUpTo k bs = some (n, rest) → ∃ w, bs = w ++ rest ∧ Takes (readVarintUpTo k) w n ∧
        0 < w.length ∧ n < 128 ^ w.length := by
  intro k
  induction k with
  | zero =>
    intro bs n rest h
    cases h
  | succ k ih =>
    intro bs n rest h
    cases bs with
    | nil => cases h
    | cons b bs =>
      rw [readVarintUpTo] at h
      split_ifs at h with hb
      · obtain ⟨rfl, rfl⟩ := Prod.mk.inj (Option.some.inj h)
        refine ⟨[b], rfl, fun cs => ?_, by simp, by simpa using hb⟩
        rw [List.singleton_append, readVarintUpTo, if_pos hb]
      · obtain ⟨⟨n', rest'⟩, hread, heq⟩ := Option.map_eq_some_iff.mp h
        obtain ⟨rfl, rfl⟩ := Prod.mk.inj heq
        obtain ⟨w, rfl, htakes, hpos, hlt⟩ := ih hread
        refine ⟨b :: w, rfl, fun cs => ?_, by simp, ?_⟩
        · rw [List.cons_append, readVarintUpTo, if_neg hb, htakes cs]
          rfl
        · have hbyte := b.toNat_lt
          rw [List.length_cons, Nat.pow_succ]
          omega

/-- **What `readVarint` takes**: at least one byte, and enough for the number it reads. -/
theorem readVarint_spec {bs : List UInt8} {n : ℕ} {rest : List UInt8}
    (h : readVarint bs = some (n, rest)) :
    ∃ w, bs = w ++ rest ∧ Takes readVarint w n ∧ 0 < w.length ∧ n < 128 ^ w.length := by
  obtain ⟨⟨n', rest'⟩, hread, heq⟩ := Option.map_eq_some_iff.mp h
  obtain ⟨rfl, rfl⟩ := Prod.mk.inj heq
  obtain ⟨w, rfl, htakes, hpos, hlt⟩ := readVarintUpTo_spec hread
  refine ⟨w, rfl, fun cs => ?_, hpos, lt_of_le_of_lt (Nat.mod_le _ _) hlt⟩
  rw [readVarint, htakes cs]
  rfl

private theorem length_varintUpTo_le_of_lt :
    ∀ {k n j : ℕ}, 0 < j → n < 128 ^ j → (varintUpTo k n).length ≤ j := by
  intro k
  induction k with
  | zero =>
    intro n j hj hn
    simpa [varintUpTo, Nat.succ_le_iff] using hj
  | succ k ih =>
    intro n j hj hn
    rw [varintUpTo]
    split_ifs with h
    · simpa [Nat.succ_le_iff] using hj
    · obtain ⟨i, rfl⟩ : ∃ i, j = i + 1 := ⟨j - 1, by omega⟩
      have hi : 0 < i := by
        by_contra hi
        have hzero : i = 0 := by omega
        rw [hzero, Nat.zero_add, Nat.pow_one] at hn
        exact h hn
      have hdiv : n / 128 < 128 ^ i := by
        rw [Nat.div_lt_iff_lt_mul (by decide)]
        rwa [Nat.pow_succ] at hn
      simpa using ih hi hdiv

/-- **The varint of a number is the shortest input that is read as it.** -/
theorem varintSize_le_of_lt {n j : ℕ} (hj : 0 < j) (hn : n < 128 ^ j) : varintSize n ≤ j :=
  length_varintUpTo_le_of_lt hj hn

private theorem length_varintUpTo_mono :
    ∀ {k m n : ℕ}, m ≤ n → (varintUpTo k m).length ≤ (varintUpTo k n).length := by
  intro k
  induction k with
  | zero =>
    intro m n _
    simp [varintUpTo]
  | succ k ih =>
    intro m n h
    simp only [varintUpTo]
    split_ifs with hm hn
    · simp
    · simp
    · omega
    · simpa using ih (Nat.div_le_div_right h)

/-- Smaller numbers have shorter varints. -/
theorem varintSize_mono {m n : ℕ} (h : m ≤ n) : varintSize m ≤ varintSize n :=
  length_varintUpTo_mono h

theorem varintSize_pos (n : ℕ) : 0 < varintSize n := by
  rw [varintSize, varint, varintUpTo]
  split_ifs <;> simp

/-! ### Length-delimited fields -/

/-- **What `readBytes` takes**: the bytes it reads, and at least the shortest form of their
number. -/
theorem readBytes_spec {bs s rest : List UInt8} (h : readBytes bs = some (s, rest)) :
    ∃ w, bs = w ++ rest ∧ Takes readBytes w s ∧ varintSize s.length + s.length ≤ w.length ∧
      s.length < 2 ^ 31 := by
  rw [readBytes] at h
  split at h
  case h_1 => cases h
  case h_2 n rest' hread =>
    split_ifs at h with hsign hshort
    obtain ⟨rfl, rfl⟩ := Prod.mk.inj (Option.some.inj h)
    obtain ⟨w, rfl, htakes, hpos, hlt⟩ := readVarint_spec hread
    have hlen : (rest'.take (n % 2 ^ 32)).length = n % 2 ^ 32 :=
      List.length_take_of_le (by omega)
    refine ⟨w ++ rest'.take (n % 2 ^ 32), ?_, fun cs => ?_, ?_, ?_⟩
    · rw [List.append_assoc, List.take_append_drop]
    · rw [readBytes, List.append_assoc, htakes]
      simp only
      rw [if_neg hsign, if_neg (by rw [List.length_append]; omega), List.take_left' hlen,
        List.drop_left' hlen]
    · have := varintSize_le_of_lt hpos (lt_of_le_of_lt (Nat.mod_le n (2 ^ 32)) hlt)
      rw [List.length_append, hlen]
      omega
    · omega

theorem localReader_readBytes : LocalReader readBytes := fun _ _ _ h => by
  obtain ⟨w, hw, htakes, -⟩ := readBytes_spec h
  exact ⟨w, hw, htakes⟩

/-- A length-delimited value is taken as its content. -/
theorem takes_delimited {s : List UInt8} (h : s.length < 2 ^ 31) :
    Takes readBytes (delimited s) s :=
  readBytes_delimited h

/-! ### Tags and unknown fields -/

/-- **What `readTag` takes**: at least one byte. -/
theorem readTag_spec {bs : List UInt8} {t : ℕ} {rest : List UInt8}
    (h : readTag bs = .tag t rest) :
    ∃ w, bs = w ++ rest ∧ 0 < w.length ∧ ∀ cs, readTag (w ++ cs) = .tag t cs := by
  rw [readTag] at h
  split_ifs at h
  split at h
  case h_1 => cases h
  case h_2 n rest' hread =>
    split_ifs at h with hzero
    obtain ⟨rfl, rfl⟩ := TagRead.tag.inj h
    obtain ⟨w, rfl, htakes, hpos, -⟩ := readVarint_spec hread
    refine ⟨w, rfl, hpos, fun cs => ?_⟩
    have hne : w ++ cs ≠ [] := by
      intro hnil
      simp [(List.append_eq_nil_iff.mp hnil).1] at hpos
    rw [readTag, if_neg hne, htakes]
    simp only
    rw [if_neg hzero]

/-- **A tag is read back**, whatever follows it. -/
theorem readTag_varint {t : ℕ} (hpos : 0 < t) (ht : t < 2 ^ 32) (cs : List UInt8) :
    readTag (varint t ++ cs) = .tag t cs := by
  have hne : varint t ++ cs ≠ [] := by
    intro hnil
    have := varintSize_pos t
    simp [varintSize, (List.append_eq_nil_iff.mp hnil).1] at this
  rw [readTag, if_neg hne, readVarint_varint (by omega) cs]
  simp only [Nat.mod_eq_of_lt ht]
  rw [if_neg hpos.ne']

/-- A run of zeros has no tag in it. -/
theorem readTag_replicate_zero (n : ℕ) (t : ℕ) (rest : List UInt8) :
    readTag (List.replicate n 0) ≠ .tag t rest := by
  cases n with
  | zero => simp [readTag]
  | succ n => simp [readTag, readVarint, readVarintUpTo, List.replicate_succ]

/-- Skipping a field leaves no more than there was. -/
theorem length_skipField_le {t : ℕ} {bs rest : List UInt8} (h : skipField t bs = some rest) :
    rest.length ≤ bs.length := by
  have hfixed {n : ℕ} (h : skipFixed n bs = some rest) : rest.length ≤ bs.length := by
    rw [skipFixed] at h
    split_ifs at h
    obtain rfl := Option.some.inj h
    rw [List.length_drop]
    exact Nat.sub_le _ _
  rw [skipField] at h
  split_ifs at h
  split at h
  case h_1 =>
    obtain ⟨⟨n, rest'⟩, hread, rfl⟩ := Option.map_eq_some_iff.mp h
    obtain ⟨w, rfl, -⟩ := readVarint_spec hread
    rw [List.length_append]
    exact Nat.le_add_left _ _
  case h_2 => exact hfixed h
  case h_3 =>
    obtain ⟨⟨s, rest'⟩, hread, rfl⟩ := Option.map_eq_some_iff.mp h
    obtain ⟨w, rfl, -⟩ := readBytes_spec hread
    rw [List.length_append]
    exact Nat.le_add_left _ _
  case h_4 => exact hfixed h
  case h_5 => cases h

/-! ### Enumerations -/

/-- A number below 2^31 is its own sign extension. -/
theorem enumVarint_enumOfVarint {n : ℕ} (hn : n < 2 ^ 31) : enumVarint (enumOfVarint n) = n := by
  have hbv : enumVarint (enumOfVarint n) = ((BitVec.ofNat 32 n).signExtend 64).toNat := rfl
  have hmsb : (BitVec.ofNat 32 n).msb = false := by
    rw [BitVec.msb_eq_decide]
    simp
    omega
  rw [hbv, BitVec.signExtend_eq_setWidth_of_msb_false hmsb]
  simp
  omega

end WireFormat

end Foundations
