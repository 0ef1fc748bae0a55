import SplendidLinker.Client.Framing

/-!
# The packet tunnel provider

The packet path of `PacketTunnelProvider.mm`: `handlePacket`, which turns each packet of a
batch into a `DATA` request and asks for the next batch, `startHandlePacket`, which asks for
the first one, and `tunnelDidReadPacket`, which hands the packet of a `DATA` response to the
packet flow.
-/

namespace SplendidLinker

open Foundations

/-- `PF_INET`. -/
def pfInet : ℕ := 2

/-- A call of `writePackets:withProtocols:` on the packet flow. -/
structure FlowWrite where
  packets : List Bytes
  protocols : List ℕ
  deriving DecidableEq

/-- `tunnelDidReadPacket:`. -/
def tunnelDidReadPacket (msg : TunnelMessage) : FlowWrite where
  packets := [msg.packetData]
  protocols := [pfInet]

/-- What the packet flow is handed through the read-packet callback of the client. -/
def SLClient.flowWrites (c : SLClient) : List FlowWrite :=
  c.trace.filterMap fun
    | .readPacketCallback msg _ => some (tunnelDidReadPacket msg)
    | _ => none

/-- The `DATA` request `handlePacket` builds from a packet. -/
def dataRequest (packet : Bytes) : TunnelMessage :=
  ({ type := .known .request, messageCode := .known .data } : TunnelMessage).setPacketData packet

/-- A packet whose request protobuf can encode. -/
structure FlowPacket where
  data : Bytes
  size_lt : (dataRequest data).byteSize < 2 ^ 31

/-- The request of a packet is valid. -/
theorem FlowPacket.valid (packet : FlowPacket) : (dataRequest packet.data).Valid where
  utf8 := by
    have hempty : ∀ s ∈ ([[], [], [], [], []] : List Bytes), WireFormat.validUtf8 s = true := by
      decide
    exact hempty
  size := packet.size_lt

namespace SLClient

/-- The loop of `handlePacket`: each packet is encoded and written. `l` is converted to the
`int` of `writePacket` and back. -/
def handlePacket (pb : Protobuf) (o : ByteOrder) (c : SLClient) (a : List FlowPacket) : SLClient :=
  a.foldl (fun c obj =>
    let msg := dataRequest obj.data
    let l := UInt32.ofNat msg.byteSize
    c.writePacket o (pb.serializeToArray msg) l.toInt32) c

/-- The `bufferevent_write` calls of that loop, one by one. -/
def handlePacketAppends (pb : Protobuf) (o : ByteOrder) (a : List FlowPacket) : List Bytes :=
  a.flatMap fun obj => writeFrame o (pb.serializeToArray (dataRequest obj.data))
    (UInt32.ofNat (dataRequest obj.data).byteSize).toInt32.toUInt32

variable {pb : Protobuf} {o : ByteOrder}

/-- The calls make up the loop. -/
theorem handlePacket_eq (c : SLClient) (a : List FlowPacket) :
    c.handlePacket pb o a =
      { c with output := c.output ++ (handlePacketAppends pb o a).flatten } := by
  induction a generalizing c with
  | nil => simp [handlePacket, handlePacketAppends]
  | cons obj a ih =>
    have hcons : c.handlePacket pb o (obj :: a) =
        (c.writePacket o (pb.serializeToArray (dataRequest obj.data))
          (UInt32.ofNat (dataRequest obj.data).byteSize).toInt32).handlePacket pb o a := rfl
    rw [hcons, ih]
    simp [writePacket, writeFrames, handlePacketAppends]

/-- **What `handlePacket` writes** is the stream of the requests. -/
theorem flatten_handlePacketAppends (a : List FlowPacket) :
    (handlePacketAppends pb o a).flatten =
      (hostLength o).stream (a.map fun obj => pb.serializeToArray (dataRequest obj.data)) := by
  induction a with
  | nil => rfl
  | cons obj a ih =>
    rw [List.map_cons, LengthCode.stream_cons, ← ih, ← flatten_writeFrame_serialize obj.valid]
    simp [handlePacketAppends]

/-- What the client writes when the connection is made is the frame of its `ESTABLISH`
request. -/
theorem output_connected {c : SLClient} (hvalid : c.establishRequest.Valid) :
    (c.cbBuffereventEvent pb o bevEventConnected).output =
      c.output ++ (hostLength o).frame (pb.serializeToArray c.establishRequest) := by
  rw [cbBuffereventEvent, if_neg (by decide), if_neg (by decide), if_neg (by decide),
    if_neg (by decide), if_pos rfl, ← flatten_writeFrame_serialize hvalid]
  rfl

end SLClient

end SplendidLinker
