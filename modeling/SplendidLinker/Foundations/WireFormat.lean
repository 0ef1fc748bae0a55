import Mathlib.Algebra.Group.Nat.Defs
import Mathlib.Data.List.Basic
import Mathlib.Tactic.Common

/-!
# The protobuf wire format

The documented encoding of protocol buffer messages, as readers and writers of byte lists:
base-128 varints, tags, length-delimited fields, the skipping of unknown fields, UTF-8
validity of `string` fields, and the open enumerations of proto3 (a field may hold a number
that no constant names).

Every reader returns what it read together with the rest of the input, and every writer has a
law that its reader gives back what was written, whatever follows (`readVarint_varint`,
`readBytes_delimited`, `ofNumber_number`).
-/

namespace Foundations

namespace WireFormat

/-! ### Varints -/

/-- The base-128 varint of a number, least significant group first, with `k` bytes to spare
after the first. -/
def varintUpTo : ℕ → ℕ → List UInt8
  | 0, n => [UInt8.ofNat n]
  | k + 1, n =>
    if n < 128 then [UInt8.ofNat n]
    else UInt8.ofNat (n % 128 + 128) :: varintUpTo k (n / 128)

/-- The varint of a 64-bit number: at most ten bytes. -/
def varint (n : ℕ) : List UInt8 := varintUpTo 9 n

/-- Read a varint of at most `k` bytes. -/
def readVarintUpTo : ℕ → List UInt8 → Option (ℕ × List UInt8)
  | 0, _ => none
  | _ + 1, [] => none
  | k + 1, b :: bs =>
    if b.toNat < 128 then some (b.toNat, bs)
    else (readVarintUpTo k bs).map fun r => (b.toNat - 128 + 128 * r.1, r.2)

/-- Read a varint: at most ten bytes, of which 64 bits count. -/
def readVarint (bs : List UInt8) : Option (ℕ × List UInt8) :=
  (readVarintUpTo 10 bs).map fun r => (r.1 % 2 ^ 64, r.2)

private theorem readVarintUpTo_varintUpTo :
    ∀ (k n : ℕ) (bs : List UInt8), n < 128 ^ (k + 1) →
      readVarintUpTo (k + 1) (varintUpTo k n ++ bs) = some (n, bs) := by
  intro k
  induction k with
  | zero =>
    intro n bs hn
    have hb : (UInt8.ofNat n).toNat = n := by
      rw [UInt8.toNat_ofNat']
      omega
    rw [varintUpTo, List.singleton_append, readVarintUpTo, hb, if_pos (by omega)]
  | succ k ih =>
    intro n bs hn
    rw [varintUpTo]
    -- the last group, or a group with the continuation bit and a shorter number behind it
    split_ifs with h
    · have hb : (UInt8.ofNat n).toNat = n := by
        rw [UInt8.toNat_ofNat']
        omega
      rw [List.singleton_append, readVarintUpTo, hb, if_pos h]
    · have hb : (UInt8.ofNat (n % 128 + 128)).toNat = n % 128 + 128 := by
        rw [UInt8.toNat_ofNat']
        omega
      have hdiv : n / 128 < 128 ^ (k + 1) := by
        rw [Nat.div_lt_iff_lt_mul (by decide)]
        rwa [Nat.pow_succ] at hn
      rw [List.cons_append, readVarintUpTo, hb, if_neg (by omega), ih _ _ hdiv]
      simp only [Option.map_some, Option.some.injEq, Prod.mk.injEq, and_true]
      omega

/-- **A varint is read back**, whatever follows it. -/
theorem readVarint_varint {n : ℕ} (hn : n < 2 ^ 64) (bs : List UInt8) :
    readVarint (varint n ++ bs) = some (n, bs) := by
  have h10 : n < 128 ^ (9 + 1) := Nat.lt_of_lt_of_le hn (by decide)
  rw [readVarint, varint, readVarintUpTo_varintUpTo 9 n bs h10, Option.map_some,
    Nat.mod_eq_of_lt hn]

/-- The number of bytes of a varint. -/
def varintSize (n : ℕ) : ℕ := (varint n).length

private theorem length_varintUpTo_le : ∀ k n, (varintUpTo k n).length ≤ k + 1 := by
  intro k
  induction k with
  | zero =>
    intro n
    simp [varintUpTo]
  | succ k ih =>
    intro n
    rw [varintUpTo]
    split_ifs
    · simp
    · simpa using ih (n / 128)

/-- A varint has at most ten bytes. -/
theorem varintSize_le (n : ℕ) : varintSize n ≤ 10 := length_varintUpTo_le 9 n

/-! ### Length-delimited fields -/

/-- A length-delimited value: its length, then its bytes. -/
def delimited (content : List UInt8) : List UInt8 := varint content.length ++ content

/-- Read a length-delimited value. The length is taken as a 32-bit `int`, and a negative one
is refused. -/
def readBytes (bs : List UInt8) : Option (List UInt8 × List UInt8) :=
  match readVarint bs with
  | none => none
  | some (n, rest) =>
    -- the sign bit of the `int`
    if 2 ^ 31 ≤ n % 2 ^ 32 then none
    else if rest.length < n % 2 ^ 32 then none
    else some (rest.take (n % 2 ^ 32), rest.drop (n % 2 ^ 32))

/-- **A length-delimited value is read back**, whatever follows it. -/
theorem readBytes_delimited {content : List UInt8} (h : content.length < 2 ^ 31)
    (bs : List UInt8) : readBytes (delimited content ++ bs) = some (content, bs) := by
  have hmod : content.length % 2 ^ 32 = content.length := Nat.mod_eq_of_lt (by omega)
  rw [readBytes, delimited, List.append_assoc, readVarint_varint (by omega)]
  simp only [hmod]
  rw [if_neg (by omega), if_neg (by rw [List.length_append]; omega), List.take_left,
    List.drop_left]

/-! ### Tags and unknown fields -/

/-- The outcome of reading a tag. -/
inductive TagRead
  /-- The input is used up: a legitimate end of the message. -/
  | done
  /-- No tag can be read, or the tag is zero. -/
  | bad
  /-- A tag and the rest of the input. -/
  | tag (t : ℕ) (rest : List UInt8)
  deriving DecidableEq, Repr

/-- Read a tag, of which 32 bits count. -/
def readTag (bs : List UInt8) : TagRead :=
  if bs = [] then .done
  else
    match readVarint bs with
    | none => .bad
    | some (n, rest) => if n % 2 ^ 32 = 0 then .bad else .tag (n % 2 ^ 32) rest

/-- **A one-byte tag is read back**, whatever follows it. -/
theorem readTag_cons {t : ℕ} (hpos : 0 < t) (ht : t < 128) (bs : List UInt8) :
    readTag (UInt8.ofNat t :: bs) = .tag t bs := by
  have hv : varint t = [UInt8.ofNat t] := by rw [varint, varintUpTo, if_pos ht]
  have hread : readVarint (UInt8.ofNat t :: bs) = some (t, bs) := by
    have := readVarint_varint (show t < 2 ^ 64 by omega) bs
    rwa [hv, List.singleton_append] at this
  rw [readTag, if_neg (by simp), hread]
  simp only
  rw [if_neg (by omega), Nat.mod_eq_of_lt (by omega)]

/-- Drop a fixed number of bytes. -/
def skipFixed (n : ℕ) (bs : List UInt8) : Option (List UInt8) :=
  if bs.length < n then none else some (bs.drop n)

/-- Skip the value of a field by its wire type. (Groups, which proto3 does not have, are left
out.) -/
def skipField (tag : ℕ) (bs : List UInt8) : Option (List UInt8) :=
  if tag / 8 = 0 then none
  else
    match tag % 8 with
    | 0 => (readVarint bs).map Prod.snd
    | 1 => skipFixed 8 bs
    | 2 => (readBytes bs).map Prod.snd
    | 5 => skipFixed 4 bs
    | _ => none

/-- A field value that is not a group. -/
inductive FieldValue
  | varint (n : ℕ) (h : n < 2 ^ 64)
  | fixed64 (bytes : List UInt8) (h : bytes.length = 8)
  | delimited (bytes : List UInt8) (h : bytes.length < 2 ^ 31)
  | fixed32 (bytes : List UInt8) (h : bytes.length = 4)

/-- The wire type of a value. -/
def FieldValue.wireType : FieldValue → ℕ
  | varint _ _ => 0
  | fixed64 _ _ => 1
  | delimited _ _ => 2
  | fixed32 _ _ => 5

/-- The encoding of a value. -/
def FieldValue.encode : FieldValue → List UInt8
  | varint n _ => WireFormat.varint n
  | fixed64 bytes _ => bytes
  | delimited bytes _ => WireFormat.delimited bytes
  | fixed32 bytes _ => bytes

/-- **A value is skipped**, whatever follows it. -/
theorem skipField_encode (value : FieldValue) {number : ℕ} (hpos : 0 < number)
    (bs : List UInt8) :
    skipField (number * 8 + value.wireType) (value.encode ++ bs) = some bs := by
  have hdiv : (number * 8 + value.wireType) / 8 ≠ 0 := by omega
  have hmod : (number * 8 + value.wireType) % 8 = value.wireType := by
    cases value <;> simp only [FieldValue.wireType] <;> omega
  rw [skipField, if_neg hdiv, hmod]
  cases value with
  | varint n h => simp [FieldValue.wireType, FieldValue.encode, readVarint_varint h]
  | fixed64 bytes h =>
    simp only [FieldValue.wireType, FieldValue.encode, skipFixed, List.length_append]
    rw [if_neg (by omega), List.drop_left' h]
  | delimited bytes h => simp [FieldValue.wireType, FieldValue.encode, readBytes_delimited h]
  | fixed32 bytes h =>
    simp only [FieldValue.wireType, FieldValue.encode, skipFixed, List.length_append]
    rw [if_neg (by omega), List.drop_left' h]

/-! ### UTF-8 -/

/-- Structural UTF-8 validity from inside a character: `need` continuation bytes are missing,
the next of them in `lo..hi`. -/
def validUtf8From : ℕ → UInt8 → UInt8 → List UInt8 → Bool
  | need, _, _, [] => need = 0
  | 0, _, _, b :: bs =>
    if b < 0x80 then validUtf8From 0 0x80 0xBF bs
    else if 0xC2 ≤ b ∧ b ≤ 0xDF then validUtf8From 1 0x80 0xBF bs
    else if b = 0xE0 then validUtf8From 2 0xA0 0xBF bs
    else if b = 0xED then validUtf8From 2 0x80 0x9F bs
    else if 0xE1 ≤ b ∧ b ≤ 0xEF then validUtf8From 2 0x80 0xBF bs
    else if b = 0xF0 then validUtf8From 3 0x90 0xBF bs
    else if 0xF1 ≤ b ∧ b ≤ 0xF3 then validUtf8From 3 0x80 0xBF bs
    else if b = 0xF4 then validUtf8From 3 0x80 0x8F bs
    else false
  | need + 1, lo, hi, b :: bs => lo ≤ b && b ≤ hi && validUtf8From need 0x80 0xBF bs

/-- Structural UTF-8 validity. -/
def validUtf8 (bs : List UInt8) : Bool := validUtf8From 0 0x80 0xBF bs

/-! ### Open enumerations -/

/-- An enumeration whose constants have distinct numbers. -/
class NumberedEnum (α : Type) where
  /-- The number of a constant. -/
  number : α → Int32
  /-- The constant with a number, where there is one. -/
  ofNumber? : Int32 → Option α
  ofNumber?_eq_some : ∀ v a, ofNumber? v = some a ↔ number a = v

open NumberedEnum

/-- A field of an enumeration type: a constant, or a number that no constant has. -/
inductive OpenEnum (α : Type) [NumberedEnum α]
  | known (a : α)
  | unrecognized (v : Int32) (h : ofNumber? (α := α) v = none)
  deriving DecidableEq

namespace OpenEnum

variable {α : Type} [NumberedEnum α]

/-- The number of a field value. -/
def number : OpenEnum α → Int32
  | known a => NumberedEnum.number a
  | unrecognized v _ => v

/-- The field value with a number. -/
def ofNumber (v : Int32) : OpenEnum α :=
  match h : ofNumber? (α := α) v with
  | some a => known a
  | none => unrecognized v h

/-- **A field value is read back from its number.** -/
@[simp]
theorem ofNumber_number (e : OpenEnum α) : ofNumber e.number = e := by
  cases e with
  | known a =>
    have h : ofNumber? (NumberedEnum.number a) = some a :=
      (ofNumber?_eq_some _ a).mpr rfl
    rw [ofNumber]
    split
    · rename_i b hb
      rw [number, h] at hb
      rw [Option.some.inj hb]
    · rename_i hb
      rw [number, h] at hb
      cases hb
  | unrecognized v h =>
    rw [ofNumber]
    split
    · rename_i b hb
      rw [number, h] at hb
      cases hb
    · rfl

/-- A number is read back from the field value with that number. -/
@[simp]
theorem number_ofNumber (v : Int32) : (ofNumber v : OpenEnum α).number = v := by
  rw [ofNumber]
  split
  · rename_i a ha
    exact (ofNumber?_eq_some v a).mp ha
  · rfl

end OpenEnum

/-- The varint payload of an enumeration field: its number sign-extended to 64 bits. -/
def enumVarint (v : Int32) : ℕ := v.toInt64.toUInt64.toNat

/-- The number of an enumeration field from its varint payload: the low 32 bits. -/
def enumOfVarint (n : ℕ) : Int32 := (UInt32.ofNat n).toInt32

theorem enumVarint_lt (v : Int32) : enumVarint v < 2 ^ 64 := UInt64.toNat_lt _

/-- **The number of an enumeration field survives the wire.** -/
@[simp]
theorem enumOfVarint_enumVarint (v : Int32) : enumOfVarint (enumVarint v) = v := by
  have h : (enumOfVarint (enumVarint v)).toBitVec =
      (v.toBitVec.signExtend 64).setWidth 32 := by
    apply BitVec.eq_of_toNat_eq
    simp [enumOfVarint, enumVarint]
  apply Int32.toBitVec_inj.mp
  rw [h]
  ext i hi
  simp only [BitVec.getElem_setWidth, BitVec.getLsbD_signExtend]
  simp [hi, show i < 64 by omega]

end WireFormat

end Foundations
