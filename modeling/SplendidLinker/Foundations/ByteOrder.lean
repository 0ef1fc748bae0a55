import Mathlib.Algebra.Group.Nat.Defs
import Mathlib.Data.List.Basic
import Mathlib.Tactic.Common

/-!
# Host byte order of a 32-bit word

A C program that copies a `uint32_t` to and from a byte buffer with `memcpy` semantics reads
and writes it in the byte order of its host. `ByteOrder.toBytes` is the four bytes of the
word in memory and `ByteOrder.ofBytes` the word a four-byte memory cell holds.

The cell may be filled in part: `ofBytes` takes a list of any length and reads the bytes that
are not there as zero, which is what a variable initialised to `0` holds after a short copy
into it. `toBytes_ofBytes` states this exactly.
-/

namespace Foundations

/-- The byte order of a host. -/
inductive ByteOrder
  | little
  | big
  deriving DecidableEq, Repr

namespace ByteOrder

/-- Byte `i` of a number, counted from the least significant one. -/
def byte (n i : ℕ) : UInt8 := UInt8.ofNat (n / 256 ^ i)

/-- The four bytes of a word, in memory order. -/
def toBytes : ByteOrder → UInt32 → List UInt8
  | little, n => [byte n.toNat 0, byte n.toNat 1, byte n.toNat 2, byte n.toNat 3]
  | big, n => [byte n.toNat 3, byte n.toNat 2, byte n.toNat 1, byte n.toNat 0]

/-- The number with the given four bytes, least significant first. -/
def ofDigits (a b c d : UInt8) : ℕ :=
  a.toNat + 256 * b.toNat + 65536 * c.toNat + 16777216 * d.toNat

/-- The word held by a cell whose first bytes are `bs` and whose other bytes are zero. -/
def ofBytes : ByteOrder → List UInt8 → UInt32
  | little, bs => UInt32.ofNat (ofDigits (bs.getD 0 0) (bs.getD 1 0) (bs.getD 2 0) (bs.getD 3 0))
  | big, bs => UInt32.ofNat (ofDigits (bs.getD 3 0) (bs.getD 2 0) (bs.getD 1 0) (bs.getD 0 0))

@[simp]
theorem length_toBytes (o : ByteOrder) (n : UInt32) : (o.toBytes n).length = 4 := by
  cases o <;> rfl

/-- A 32-bit number is determined by its four bytes. -/
private theorem ofDigits_byte {n : ℕ} (h : n < 2 ^ 32) :
    ofDigits (byte n 0) (byte n 1) (byte n 2) (byte n 3) = n := by
  simp only [ofDigits, byte, UInt8.toNat_ofNat']
  omega

/-- The bytes of a number put together from four bytes. -/
private theorem byte_ofDigits (a b c d : UInt8) :
    byte (ofDigits a b c d) 0 = a ∧ byte (ofDigits a b c d) 1 = b ∧
      byte (ofDigits a b c d) 2 = c ∧ byte (ofDigits a b c d) 3 = d := by
  have ha := a.toNat_lt
  have hb := b.toNat_lt
  have hc := c.toNat_lt
  have hd := d.toNat_lt
  refine ⟨?_, ?_, ?_, ?_⟩ <;> apply UInt8.toNat_inj.mp <;>
    simp only [ofDigits, byte, UInt8.toNat_ofNat'] <;> omega

private theorem ofDigits_lt (a b c d : UInt8) : ofDigits a b c d < 2 ^ 32 := by
  have ha := a.toNat_lt
  have hb := b.toNat_lt
  have hc := c.toNat_lt
  have hd := d.toNat_lt
  simp only [ofDigits]
  omega

private theorem toNat_ofNat_ofDigits (a b c d : UInt8) :
    (UInt32.ofNat (ofDigits a b c d)).toNat = ofDigits a b c d := by
  rw [UInt32.toNat_ofNat', Nat.mod_eq_of_lt (ofDigits_lt a b c d)]

/-- **A word is read back from its bytes**, whatever follows them. -/
theorem ofBytes_toBytes_append (o : ByteOrder) (n : UInt32) (bs : List UInt8) :
    o.ofBytes (o.toBytes n ++ bs) = n := by
  apply UInt32.toNat_inj.mp
  cases o <;> simp [ofBytes, toBytes, ofDigits_byte n.toNat_lt]

@[simp]
theorem ofBytes_toBytes (o : ByteOrder) (n : UInt32) : o.ofBytes (o.toBytes n) = n := by
  simpa using ofBytes_toBytes_append o n []

/-- **The bytes of a cell filled in part**: those copied in, then zeros. -/
theorem toBytes_ofBytes (o : ByteOrder) (bs : List UInt8) :
    o.toBytes (o.ofBytes bs) = [bs.getD 0 0, bs.getD 1 0, bs.getD 2 0, bs.getD 3 0] := by
  cases o
  · obtain ⟨h0, h1, h2, h3⟩ := byte_ofDigits (bs.getD 0 0) (bs.getD 1 0) (bs.getD 2 0) (bs.getD 3 0)
    simp only [toBytes, ofBytes, toNat_ofNat_ofDigits, h0, h1, h2, h3]
  · obtain ⟨h0, h1, h2, h3⟩ := byte_ofDigits (bs.getD 3 0) (bs.getD 2 0) (bs.getD 1 0) (bs.getD 0 0)
    simp only [toBytes, ofBytes, toNat_ofNat_ofDigits, h0, h1, h2, h3]

/-- Different words have different bytes. -/
theorem toBytes_injective (o : ByteOrder) : Function.Injective o.toBytes := fun m n h => by
  rw [← ofBytes_toBytes o m, h, ofBytes_toBytes]

/-- A word that is written in one byte order and read in another is written back as the same
bytes. -/
theorem toBytes_ofBytes_toBytes (o o' : ByteOrder) (n : UInt32) :
    o'.toBytes (o'.ofBytes (o.toBytes n)) = o.toBytes n := by
  rw [toBytes_ofBytes]
  cases o <;> rfl

/-- A small length that is read in the other byte order is a larger one. -/
theorem lt_ofBytes_toBytes {o o' : ByteOrder} (h : o ≠ o') {n : ℕ} (hpos : 0 < n)
    (hn : n < 2 ^ 16) : n < (o'.ofBytes (o.toBytes (UInt32.ofNat n))).toNat := by
  have hword : (UInt32.ofNat n).toNat = n := by
    rw [UInt32.toNat_ofNat', Nat.mod_eq_of_lt (by omega)]
  have hswap : (o'.ofBytes (o.toBytes (UInt32.ofNat n))).toNat =
      ofDigits (byte n 3) (byte n 2) (byte n 1) (byte n 0) := by
    cases o <;> cases o' <;>
      simp only [ofBytes, toBytes, toNat_ofNat_ofDigits, hword, List.getD_cons_zero,
        List.getD_cons_succ]
    · exact absurd rfl h
    · exact absurd rfl h
  -- the two low bytes of the length become the two high ones
  have hbytes : (byte n 0).toNat = n % 256 ∧ (byte n 1).toNat = n / 256 ∧
      (byte n 2).toNat = 0 ∧ (byte n 3).toNat = 0 := by
    simp only [byte, UInt8.toNat_ofNat']
    omega
  have hsplit : n = 256 * (n / 256) + n % 256 := (Nat.div_add_mod n 256).symm
  rw [hswap, ofDigits, hbytes.1, hbytes.2.1, hbytes.2.2.1, hbytes.2.2.2]
  generalize n / 256 = q at hsplit ⊢
  generalize n % 256 = r at hsplit ⊢
  omega

@[simp]
theorem toBytes_zero (o : ByteOrder) : o.toBytes 0 = [0, 0, 0, 0] := by
  cases o <;> rfl

end ByteOrder

end Foundations
