import SplendidLinker.Client.PacketTunnelProvider
import SplendidLinker.Server.Connection

/-!
# The downlink

A packet that the server reads from its utun interface should reach the packet flow of the
client: the read handler writes a frame whose payload decodes to a `DATA` response with that
packet (`CarriesPacket`), and from there the client does its part (`flowWrites_of_carries`).

The handler measures the message, allocates a buffer of that size and sends the buffer, but it
never serializes the message into it. What it sends is what the heap held. So there is no
packet for which it keeps the law: `not_downlink` gives for each packet a heap on which the
frame decodes to another packet, and two heaps on which different bytes are sent.
-/

namespace SplendidLinker

open Foundations

/-- A payload decodes to the `DATA` response with the packet `packet`. -/
structure CarriesPacket (pb : Protobuf) (packet payload : Bytes) : Prop where
  parses : (pb.parseFromArray payload payload.length).1 = true
  type : (pb.parseFromArray payload payload.length).2.type = .known .response
  messageCode : (pb.parseFromArray payload payload.length).2.messageCode = .known .data
  packetData : (pb.parseFromArray payload payload.length).2.packetData = packet

/-- The handler writes a frame that carries the packet, whatever the heap holds. -/
def WritesPacket (pb : Protobuf) (o : ByteOrder) (c : SLConnection) (packet : TunPacket) : Prop :=
  ∀ heap, ∃ payload, (c.tunReadHandler o heap packet.data).output =
      c.output ++ (hostLength o).frame payload ∧ CarriesPacket pb packet.data payload

/-- The bytes the handler writes do not depend on what the heap holds. -/
def WritesAlike (o : ByteOrder) (c : SLConnection) (packet : TunPacket) : Prop :=
  ∀ heap heap', (c.tunReadHandler o heap packet.data).output =
    (c.tunReadHandler o heap' packet.data).output

variable {pb : Protobuf} {o : ByteOrder}

/-- **The client's part.** A frame that carries a packet hands exactly this packet to the
packet flow. -/
theorem flowWrites_of_carries {d : SLClient} (hd : d.Ready) {packet payload rest : Bytes}
    (hlen : payload.length < 2 ^ 31) (h : CarriesPacket pb packet payload)
    (hin : d.input = (hostLength o).frame payload ++ rest) :
    (d.cbBuffereventWillRead pb o).flowWrites = d.flowWrites ++ [⟨[packet], [pfInet]⟩] := by
  have hread : readFrame o d.input = (payload, rest) := by
    rw [hin]
    exact readFrame_frame_append (lt_trans hlen (by norm_num)) rest
  obtain ⟨-, ht, hc, hp⟩ := h
  rw [SLClient.cbBuffereventWillRead_of_read hread, sizeArg_of_lt hlen, SLClient.dispatch,
    if_neg (not_not.mpr ht), hc]
  simp [SLClient.call, SLClient.act, SLClient.flowWrites, tunnelDidReadPacket, hd.5, hp]

/-! ### What the handler writes -/

/-- The message built from a packet can be encoded. -/
theorem valid_dataResponse (packet : TunPacket) :
    (SLConnection.dataResponse packet.data).Valid where
  utf8 := by
    have hheader : ∀ s ∈ SLConnection.dataResponseHeader.strings,
        WireFormat.validUtf8 s = true := by decide
    exact hheader
  size := by
    have hheader : SLConnection.dataResponseHeader.byteSize ≤ 100 := by decide
    have hsize := SLConnection.dataResponseHeader.byteSize_setPacketData_le packet.data
    have hlen := packet.length_le
    rw [SLConnection.dataResponse]
    omega

@[simp]
theorem length_allocate (heap : ℕ → UInt8) (l : ℕ) : (SLConnection.allocate heap l).length = l := by
  simp [SLConnection.allocate]

/-- A heap that holds given bytes. -/
theorem allocate_getD (bs : Bytes) :
    SLConnection.allocate (fun i => bs.getD i 0) bs.length = bs := by
  refine List.ext_getElem (by simp) fun i h₁ h₂ => ?_
  simp [SLConnection.allocate, h₂]

/-- What the handler writes is a frame of heap bytes, of the size of the message. -/
theorem output_tunReadHandler (c : SLConnection) (heap : ℕ → UInt8) (packet : TunPacket) :
    (c.tunReadHandler o heap packet.data).output = c.output ++ (hostLength o).frame
      (SLConnection.allocate heap (SLConnection.dataResponse packet.data).byteSize) := by
  have hl := toNat_byteSize (valid_dataResponse packet)
  simp only [SLConnection.tunReadHandler, SLConnection.writePacket, hl]
  rw [flatten_writeFrame o (by rw [hl, length_allocate])]

/-- A packet of the same length with other bytes. -/
def TunPacket.other (packet : TunPacket) : TunPacket where
  data := packet.data.map (· + 1)
  length_pos := by simpa using packet.length_pos
  length_le := by simpa using packet.length_le

theorem TunPacket.other_data_ne (packet : TunPacket) : packet.other.data ≠ packet.data := by
  intro h
  have hhead := congrArg (·.head?) h
  cases hd : packet.data with
  | nil => exact absurd packet.length_pos (by simp [hd])
  | cons b bs => simp [TunPacket.other, hd] at hhead

/-- **No packet is carried down.** For every packet, the frame fails to carry it on some heap,
and what is written depends on the heap. -/
theorem not_downlink (pb : Protobuf) (o : ByteOrder) (c : SLConnection) (packet : TunPacket) :
    ¬ WritesPacket pb o c packet ∧ ¬ WritesAlike o c packet := by
  constructor
  · -- a heap that holds the response for another packet of the same length
    intro h
    have hvalid := valid_dataResponse packet.other
    have hlen : (pb.serializeToArray (SLConnection.dataResponse packet.other.data)).length =
        (SLConnection.dataResponse packet.data).byteSize := by
      rw [pb.length_serialize _ hvalid]
      exact TunnelMessage.byteSize_setPacketData_congr _ (by simp [TunPacket.other])
    obtain ⟨payload, hout, hcarries⟩ := h fun i =>
      (pb.serializeToArray (SLConnection.dataResponse packet.other.data)).getD i 0
    rw [output_tunReadHandler, ← hlen, allocate_getD] at hout
    obtain rfl := (hostLength o).frame_injective (List.append_cancel_left hout)
    have hdata := hcarries.packetData
    rw [parse_serialize_length hvalid] at hdata
    exact packet.other_data_ne hdata
  · intro h
    have hpos : 0 < (SLConnection.dataResponse packet.data).byteSize :=
      TunnelMessage.byteSize_pos_of_response rfl
    have heq := h (fun _ => 0) (fun _ => 1)
    rw [output_tunReadHandler, output_tunReadHandler] at heq
    have hbytes := (hostLength o).frame_injective (List.append_cancel_left heq)
    simp [SLConnection.allocate, hpos.ne'] at hbytes

/-- A packet of one byte: on a heap of zeros the payload does not parse, and on a heap of ones
it is another one. -/
theorem not_downlink_one_byte :
    ¬ (∀ packet, WritesPacket wireFormat .little {} packet) ∧
      ¬ ∀ packet, WritesAlike .little {} packet := by
  constructor
  · intro h
    obtain ⟨payload, hout, hcarries⟩ := h ⟨[0x45], by decide, by decide⟩ fun _ => 0
    rw [output_tunReadHandler] at hout
    obtain rfl := (hostLength .little).frame_injective (List.append_cancel_left hout)
    exact absurd hcarries.parses (by decide)
  · intro h
    exact absurd (h ⟨[0x45], by decide, by decide⟩ (fun _ => 0) fun _ => 1) (by decide)

end SplendidLinker
