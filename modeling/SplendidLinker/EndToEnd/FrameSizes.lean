import SplendidLinker.Client.Client
import SplendidLinker.Message.FieldSequences
import SplendidLinker.Server.AddressedDelivery
import SplendidLinker.Server.Connection

/-!
# The sizes of frames

The length of a frame is a `uint32_t` on the wire, a `size_t` in the completeness test of the
server, and an `int` where it is passed to `ParseFromArray`, `SLClient::writePacket` and
`SLServer::writePacketToIp`. Each conversion should keep it (`ReadSizeSurvives`,
`WriteSizeSurvives`).

The sum in the completeness test does not wrap. But a length from 2 GiB on is parsed with a
negative size, and a negative size is written as a length from 2 GiB on, with a frame to match.
`frameSizes_survive_iff` says that nothing else goes wrong.
-/

namespace SplendidLinker

open Foundations

/-- The calls of `ParseFromArray` that the read callback of a connection makes. -/
def SLConnection.newParsed (pb : Protobuf) (o : ByteOrder) (sys : SysCalls) (c : SLConnection) :
    List (Bytes × ℤ) :=
  (c.cbBuffereventWillRead pb o sys).parsed.drop c.parsed.length

/-- The length `n` that the header of the input buffer announces, or will announce, survives the
read callback of the server. -/
structure ReadSizeSurvives (pb : Protobuf) (o : ByteOrder) (sys : SysCalls) (c : SLConnection)
    (n : ℕ) : Prop where
  /-- A frame is accepted exactly if the buffer holds the header and `n` bytes. -/
  test : c.newParsed pb o sys ≠ [] ↔ 4 + n ≤ c.input.length
  /-- An accepted frame is parsed with the size `n`. -/
  size : ∀ f ∈ c.newParsed pb o sys, f.1.length = n ∧ f.2 = n

/-- The size of a packet survives a writer that appends `written`. -/
structure WriteSizeSurvives (o : ByteOrder) (size : Int32) (written : Bytes) : Prop where
  /-- The length on the wire and the number of bytes behind it are the size. -/
  nonneg : 0 ≤ size.toInt → (o.ofBytes (written.take 4)).toNat = size.toInt ∧
    ((written.drop 4).length : ℤ) = size.toInt
  /-- A negative size writes nothing. -/
  neg : size.toInt < 0 → written = []

section Sizes

variable {pb : Protobuf} {o : ByteOrder} {sys : SysCalls} {c : SLConnection} {n : ℕ}

/-- **What the read callback parses.** -/
theorem newParsed_of_header (hn : n < 2 ^ 32)
    (hheader : c.input.take 4 <+: o.toBytes (UInt32.ofNat n)) :
    c.newParsed pb o sys = if 4 + n ≤ c.input.length then
      [((c.input.drop 4).take n, sizeArg (UInt32.ofNat n))] else [] := by
  have hnext := (hostLength o).next?_of_header (b := c.input) (n := n) hn hheader
  rw [SLConnection.newParsed]
  by_cases hlen : 4 + n ≤ c.input.length
  · rw [hostLength_width, if_pos hlen] at hnext
    have hpayload : ((c.input.drop 4).take n).length = n := by
      rw [List.length_take, List.length_drop]
      omega
    rw [SLConnection.cbBuffereventWillRead_of_some hnext,
      (SLConnection.dispatch_frame pb o sys _ _).2.2, SLConnection.parsed_received,
      List.drop_left, hpayload, if_pos hlen]
  · rw [hostLength_width, if_neg hlen] at hnext
    rw [SLConnection.cbBuffereventWillRead_of_none hnext, if_neg hlen, List.drop_length]

/-- The completeness test is exact for every length; the size of the parser is so below 2 GiB. -/
theorem readSizeSurvives_iff (hn : n < 2 ^ 32)
    (hheader : c.input.take 4 <+: o.toBytes (UInt32.ofNat n)) :
    ReadSizeSurvives pb o sys c n ↔ (4 + n ≤ c.input.length → n < 2 ^ 31) := by
  have hparsed : c.newParsed pb o sys = _ := newParsed_of_header hn hheader
  constructor
  · intro h hlen
    have hmem : ((c.input.drop 4).take n, sizeArg (UInt32.ofNat n)) ∈ c.newParsed pb o sys := by
      rw [hparsed, if_pos hlen]
      exact List.mem_singleton_self _
    exact (sizeArg_eq_iff hn).mp (h.size _ hmem).2
  · intro h
    refine ⟨?_, fun f hf => ?_⟩
    · rw [hparsed]
      split_ifs with hlen <;> simp [hlen]
    · rw [hparsed] at hf
      split_ifs at hf with hlen
      · rw [List.mem_singleton.mp hf]
        refine ⟨?_, (sizeArg_eq_iff hn).mpr (h hlen)⟩
        rw [List.length_take, List.length_drop]
        omega
      · cases hf

/-- **A frame keeps its size exactly if that is not negative.** -/
theorem writeSizeSurvives_iff {packet : Bytes} {size : Int32}
    (hreadable : size.toInt ≤ packet.length) :
    WriteSizeSurvives o size (writeFrame o packet size.toUInt32).flatten ↔ 0 ≤ size.toInt := by
  constructor
  · intro h
    by_contra hneg
    -- the header is written in any case
    have hlen := congrArg List.length (h.neg (not_le.mp hneg))
    simp [writeFrame] at hlen
  · intro h
    have hlt : size.toInt < 2 ^ 31 := size.toInt_lt
    refine ⟨fun _ => ?_, fun hneg => absurd hneg (not_lt.mpr h)⟩
    have hlen : (packet.take size.toInt.toNat).length = size.toInt.toNat := by
      rw [List.length_take]
      omega
    rw [flatten_writeFrame_int o h hreadable, hostLength_frame,
      List.take_left' (o.length_toBytes _), List.drop_left' (o.length_toBytes _),
      o.ofBytes_toBytes, UInt32.toNat_ofNat', hlen, Nat.mod_eq_of_lt (by omega),
      Int.toNat_of_nonneg h]
    exact ⟨rfl, rfl⟩

/-- **The sizes of frames.** The completeness test of the server is exact for every length; the
size that it parses an accepted frame with is the length exactly if that is below 2 GiB; and a
size that is passed to `SLClient::writePacket`, or to `SLServer::writePacketToIp` for a
connection that is there, survives exactly if it is not negative. -/
theorem frameSizes_survive_iff (pb : Protobuf) (sys : SysCalls) (hn : n < 2 ^ 32)
    (hheader : c.input.take 4 <+: o.toBytes (UInt32.ofNat n)) (client : SLClient)
    {r : ClientRegistry} {s : Bytes} {bev : ℕ}
    (hentry : r.mClientBufferEvent s = some (some bev)) (hlive : r.live bev = true)
    {packet : Bytes} {size : Int32} (hreadable : size.toInt ≤ packet.length) :
    (c.newParsed pb o sys ≠ [] ↔ 4 + n ≤ c.input.length) ∧
    (ReadSizeSurvives pb o sys c n ↔ (4 + n ≤ c.input.length → n < 2 ^ 31)) ∧
    (WriteSizeSurvives o size
      ((client.writePacket o packet size).output.drop client.output.length) ↔ 0 ≤ size.toInt) ∧
    (WriteSizeSurvives o size
      (((SLServer.writePacketToIp o r s packet size).output bev).drop (r.output bev).length) ↔
        0 ≤ size.toInt) := by
  refine ⟨?_, readSizeSurvives_iff hn hheader, ?_, ?_⟩
  · rw [newParsed_of_header hn hheader]
    split_ifs with hlen <;> simp [hlen]
  · rw [SLClient.writePacket, SLClient.writeFrames, List.drop_left]
    exact writeSizeSurvives_iff hreadable
  · have hout : (SLServer.writePacketToIp o r s packet size).output bev =
        r.output bev ++ (writeFrame o packet size.toUInt32).flatten := by
      rw [SLServer.writePacketToIp, SLServer.clientBufferEvent, hentry]
      simp [hlive]
    rw [hout, List.drop_left]
    exact writeSizeSurvives_iff hreadable

end Sizes

/-- A frame of two bytes that has arrived, and two packets of two bytes. -/
theorem frameSizes_survive_iff_small :
    ReadSizeSurvives wireFormat .little .succeed { input := [2, 0, 0, 0, 0x48, 1] } 2 ∧
      WriteSizeSurvives .little 2 ((({} : SLClient).writePacket .little [7, 8] 2).output.drop 0) ∧
      WriteSizeSurvives .little 2 (((SLServer.writePacketToIp .little
        ((({} : ClientRegistry).connect 5).register [1] 5) [1] [7, 8] 2).output 5).drop 0) := by
  have hentry : ((({} : ClientRegistry).connect 5).register [1] 5).mClientBufferEvent [1] =
      some (some 5) := rfl
  have h := frameSizes_survive_iff (o := .little) (c := { input := [2, 0, 0, 0, 0x48, 1] }) (n := 2)
    wireFormat .succeed (by decide) (by decide) {} hentry rfl
    (by decide : (2 : Int32).toInt ≤ (([7, 8] : Bytes).length : ℤ))
  exact ⟨h.2.1.mpr fun _ => by decide, h.2.2.1.mpr (by decide), h.2.2.2.mpr (by decide)⟩

/-- A frame of 2 GiB on the server, and a packet of size `-1` from the client. -/
theorem not_frameSizes_survive :
    (∃ c : SLConnection,
      c.input = ByteOrder.little.toBytes (UInt32.ofNat (2 ^ 31)) ++ List.replicate (2 ^ 31) 0 ∧
      (∀ f ∈ c.newParsed wireFormat .little .succeed, f.2 = -2 ^ 31) ∧
      ¬ ReadSizeSurvives wireFormat .little .succeed c (2 ^ 31)) ∧
    (({} : SLClient).writePacket .little [7] (-1)).output = [255, 255, 255, 255, 7] ∧
    ¬ WriteSizeSurvives .little (-1) (({} : SLClient).writePacket .little [7] (-1)).output := by
  have hheader : (ByteOrder.little.toBytes (UInt32.ofNat (2 ^ 31)) ++
      List.replicate (2 ^ 31) 0).take 4 <+: ByteOrder.little.toBytes (UInt32.ofNat (2 ^ 31)) := by
    rw [List.take_left' (ByteOrder.little.length_toBytes _)]
  have hlen : 4 + 2 ^ 31 ≤ (ByteOrder.little.toBytes (UInt32.ofNat (2 ^ 31)) ++
      List.replicate (2 ^ 31) 0).length := by
    rw [List.length_append, ByteOrder.length_toBytes, List.length_replicate]
  refine ⟨⟨{ input := _ }, rfl, fun f hf => ?_, fun h => ?_⟩, by decide, fun h => ?_⟩
  · rw [newParsed_of_header (by norm_num) hheader, if_pos hlen] at hf
    rw [List.mem_singleton.mp hf]
    decide
  · exact absurd ((readSizeSurvives_iff (by norm_num) hheader).mp h hlen) (lt_irrefl _)
  · exact absurd (h.neg (by decide)) (by decide)

end SplendidLinker
