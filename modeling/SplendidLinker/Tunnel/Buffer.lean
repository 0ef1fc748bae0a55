import SplendidLinker.Foundations.ByteOrder
import SplendidLinker.Foundations.Framing
import SplendidLinker.Message.TunnelMessage

/-!
# Buffers and frames of the tunnel

The buffer operations of libevent as the tunnel calls them, with the behaviour its headers
document: `evbuffer_copyout` copies at most the bytes there are and leaves the buffer as it
is, `bufferevent_read` removes what it returns, `bufferevent_write` appends.

Both hosts write a frame as a `uint32_t` length in host byte order followed by the payload.
`hostLength` is that header as a `LengthCode`, which makes the results of
`Foundations/Framing.lean` available for the tunnel's streams, and `writeFrame` is the pair
of `bufferevent_write` calls the three frame writers of the source share.
-/

namespace SplendidLinker

open Foundations

/-- `sizeof(uint32_t)`. -/
def sizeofLength : ℕ := 4

/-- Conversion to the 64-bit `size_t`. -/
def sizeT (n : ℕ) : ℕ := n % 2 ^ 64

/-- A `uint32_t` passed as an `int`. -/
def sizeArg (length : UInt32) : ℤ := length.toInt32.toInt

/-- Lengths below 2 GiB are passed unchanged. -/
theorem sizeArg_of_lt {n : ℕ} (h : n < 2 ^ 31) : sizeArg (UInt32.ofNat n) = n := by
  have hbv : sizeArg (UInt32.ofNat n) = (BitVec.ofNat 32 n).toInt := rfl
  rw [hbv, BitVec.toInt_ofNat', Int.bmod_eq_of_le] <;> omega

/-- A length is passed as itself, or as a smaller number: as a negative one if it does not fit. -/
theorem sizeArg_le (n : ℕ) : sizeArg (UInt32.ofNat n) ≤ n ∧
    (sizeArg (UInt32.ofNat n) < 0 → 0 < n) := by
  have hbv : sizeArg (UInt32.ofNat n) = (BitVec.ofNat 32 n).toInt := rfl
  rw [hbv, BitVec.toInt_eq_toNat_cond, BitVec.toNat_ofNat]
  split_ifs <;> omega

/-- No other length is. -/
theorem sizeArg_eq_iff {n : ℕ} (h : n < 2 ^ 32) : sizeArg (UInt32.ofNat n) = n ↔ n < 2 ^ 31 := by
  refine ⟨fun hn => ?_, sizeArg_of_lt⟩
  have hbv : sizeArg (UInt32.ofNat n) = (BitVec.ofNat 32 n).toInt := rfl
  have hlt : (BitVec.ofNat 32 n).toInt < 2 ^ 31 := BitVec.toInt_lt
  rw [hbv] at hn
  omega

/-- `evbuffer_copyout`: the bytes it copies; the buffer is unchanged. -/
def evbufferCopyout (buf : Bytes) (datlen : ℕ) : Bytes := buf.take datlen

/-- `evbuffer_get_length`. -/
def evbufferGetLength (buf : Bytes) : ℕ := buf.length

/-- `bufferevent_read`: the bytes it returns and the buffer that is left. -/
def buffereventRead (buf : Bytes) (size : ℕ) : Bytes × Bytes := (buf.take size, buf.drop size)

/-- The header of a frame: a `uint32_t` in host byte order. -/
def hostLength (o : ByteOrder) : LengthCode UInt8 where
  width := sizeofLength
  bound := 2 ^ 32
  encode n := o.toBytes (UInt32.ofNat n)
  decode bs := (o.ofBytes bs).toNat
  width_pos := by decide
  length_encode n := o.length_toBytes _
  decode_encode n hn := by rw [o.ofBytes_toBytes, UInt32.toNat_ofNat', Nat.mod_eq_of_lt hn]

@[simp]
theorem hostLength_width (o : ByteOrder) : (hostLength o).width = 4 := rfl

/-- The payloads a header can announce. -/
theorem hostLength_fits {o : ByteOrder} {p : Bytes} :
    (hostLength o).Fits p ↔ p.length < 2 ^ 32 := Iff.rfl

theorem hostLength_frame (o : ByteOrder) (p : Bytes) :
    (hostLength o).frame p = o.toBytes (UInt32.ofNat p.length) ++ p := rfl

/-- The two `bufferevent_write` calls of a frame: the length `l` and the first `l` bytes of the
packet, as `SLConnection::writePacket`, `SLClient::writePacket` and
`SLServer::writePacketToIp` make them. -/
def writeFrame (o : ByteOrder) (packet : Bytes) (l : UInt32) : List Bytes :=
  [o.toBytes l, packet.take l.toNat]

/-- **A packet written with its own length is a frame.** -/
theorem flatten_writeFrame (o : ByteOrder) {packet : Bytes} {l : UInt32}
    (h : l.toNat = packet.length) :
    (writeFrame o packet l).flatten = (hostLength o).frame packet := by
  have hl : UInt32.ofNat packet.length = l := by
    rw [← h]
    exact UInt32.ofNat_toNat
  simp [writeFrame, hostLength_frame, hl, h]

/-- An `int` converted to `uint32_t`. -/
theorem toNat_toUInt32 (size : Int32) :
    (size.toUInt32.toNat : ℤ) = if 0 ≤ size.toInt then size.toInt else 2 ^ 32 + size.toInt := by
  have hlt : size.toUInt32.toNat < 2 ^ 32 := size.toUInt32.toNat_lt
  have hint : size.toInt = if 2 * size.toUInt32.toNat < 2 ^ 32 then (size.toUInt32.toNat : ℤ)
      else (size.toUInt32.toNat : ℤ) - (2 ^ 32 : ℕ) := BitVec.toInt_eq_toNat_cond _
  rw [hint]
  split_ifs <;> omega

/-- **A packet written with an `int` size that is not negative** is a frame of its first `size`
bytes. -/
theorem flatten_writeFrame_int (o : ByteOrder) {packet : Bytes} {size : Int32}
    (h : 0 ≤ size.toInt) (h' : size.toInt ≤ packet.length) :
    (writeFrame o packet size.toUInt32).flatten =
      (hostLength o).frame (packet.take size.toInt.toNat) := by
  have hsize : size.toUInt32.toNat = size.toInt.toNat := by
    have := toNat_toUInt32 size
    rw [if_pos h] at this
    omega
  have hlen : size.toUInt32.toNat = (packet.take size.toInt.toNat).length := by
    rw [hsize, List.length_take]
    omega
  rw [← flatten_writeFrame o hlen, writeFrame, writeFrame, hsize, List.take_take, Nat.min_self]

/-! ### Frames of messages -/

variable {pb : Protobuf} {o : ByteOrder} {m : TunnelMessage}

/-- The size of a valid message fits the header of a frame. -/
theorem toNat_byteSize (h : m.Valid) : (UInt32.ofNat m.byteSize).toNat = m.byteSize := by
  rw [UInt32.toNat_ofNat', Nat.mod_eq_of_lt (lt_trans h.size (by norm_num))]

/-- A valid message written with its size is a frame. -/
theorem flatten_writeFrame_serialize (h : m.Valid) :
    (writeFrame o (pb.serializeToArray m) (UInt32.ofNat m.byteSize)).flatten =
      (hostLength o).frame (pb.serializeToArray m) :=
  flatten_writeFrame o (by rw [toNat_byteSize h, pb.length_serialize m h])

/-- A header can announce a valid message. -/
theorem fits_serialize (h : m.Valid) : (hostLength o).Fits (pb.serializeToArray m) := by
  rw [hostLength_fits, pb.length_serialize m h]
  exact lt_trans h.size (by norm_num)

/-- A valid message is read back from its bytes. -/
theorem parse_serialize_length (h : m.Valid) :
    pb.parseFromArray (pb.serializeToArray m) (pb.serializeToArray m).length = (true, m) := by
  rw [pb.length_serialize m h, pb.parse_serialize m h]

/-- A valid message is read back with the size that the read callbacks pass. -/
theorem parse_serialize_sizeArg (h : m.Valid) :
    pb.parseFromArray (pb.serializeToArray m)
      (sizeArg (UInt32.ofNat (pb.serializeToArray m).length)) = (true, m) := by
  rw [pb.length_serialize m h, sizeArg_of_lt h.size, pb.parse_serialize m h]

end SplendidLinker
