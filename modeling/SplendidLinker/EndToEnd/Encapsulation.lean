import SplendidLinker.EndToEnd.Downlink
import SplendidLinker.EndToEnd.Uplink
import SplendidLinker.Tunnel.WriteLoop

/-!
# The encapsulation of packets

The two ends of the tunnel keep packets in different forms. The packet flow of the client gives
and takes bare IP packets, and is told the protocol family of those it takes. A utun socket
gives and takes datagrams: four bytes with the family, and then the packet
(`IpPacket.datagram`).

So the server should put the header before each packet that it writes to the socket
(`WrittenWithHeader`), read the datagrams of all packets up to the MTU whole (`ReadWhole`), and
the tunnel should hand over the bare packet with its family (`HandedOverBare`). But no function
of the tunnel adds or removes the header. The server writes the bare packet, and the client
hands over what the server has read, always as `PF_INET`; and the buffer of the server, of 1500
bytes, has no room for the header of a long packet (`not_encapsulated`).
-/

namespace SplendidLinker

open Foundations

/-! ### Packets and datagrams -/

/-- The protocol family of a packet. -/
inductive ProtocolFamily
  | inet
  | inet6
  deriving DecidableEq, Repr

namespace ProtocolFamily

/-- `PF_INET` and `PF_INET6`. -/
def number : ProtocolFamily → ℕ
  | inet => pfInet
  | inet6 => 30

/-- The version in the first four bits of a packet. -/
def version : ProtocolFamily → ℕ
  | inet => 4
  | inet6 => 6

/-- The length of the shortest header of a packet. -/
def headerLength : ProtocolFamily → ℕ
  | inet => 20
  | inet6 => 40

/-- The header of a datagram: the family in network byte order. -/
def header (family : ProtocolFamily) : Bytes := [0, 0, 0, UInt8.ofNat family.number]

end ProtocolFamily

/-- An IP packet that fits the MTU. -/
structure IpPacket where
  family : ProtocolFamily
  data : Bytes
  version : data.head?.map (fun b => b.toNat / 16) = some family.version
  headerLength_le : family.headerLength ≤ data.length
  length_le : data.length ≤ 1500

namespace IpPacket

/-- The packet as a utun socket exchanges it. -/
def datagram (p : IpPacket) : Bytes := p.family.header ++ p.data

theorem size_dataRequest_lt (p : IpPacket) : (dataRequest p.data).byteSize < 2 ^ 31 := by
  have hheader : ({ type := .known .request, messageCode := .known .data } :
      TunnelMessage).byteSize ≤ 100 := by decide
  have hsize := TunnelMessage.byteSize_setPacketData_le
    { type := .known .request, messageCode := .known .data } p.data
  have hlen := p.length_le
  rw [dataRequest]
  omega

/-- The packet as the packet flow emits it. -/
def flowPacket (p : IpPacket) : FlowPacket where
  data := p.data
  size_lt := p.size_dataRequest_lt

/-- `read(mUTUNSocket, buff, 1500)` of the datagram: what does not fit the buffer is lost. -/
def read (p : IpPacket) : TunPacket where
  data := p.datagram.take 1500
  length_pos := by simp [datagram, ProtocolFamily.header]
  length_le := by simp

theorem length_pos (p : IpPacket) : 0 < p.data.length := by
  have hle := p.headerLength_le
  cases hf : p.family <;> simp only [hf, ProtocolFamily.headerLength] at hle <;> omega

/-- A packet does not start with zero, as its datagram does. -/
theorem head?_ne_zero (p : IpPacket) : p.data.head? ≠ some 0 := by
  intro hzero
  have hversion := p.version
  rw [hzero] at hversion
  cases hf : p.family <;> simp [hf, ProtocolFamily.version] at hversion

theorem datagram_ne (p : IpPacket) : p.data ≠ p.datagram := by
  intro h
  refine p.head?_ne_zero ?_
  rw [h]
  rfl

theorem read_data_ne (p : IpPacket) : p.read.data ≠ p.data := by
  intro h
  refine p.head?_ne_zero ?_
  rw [← h]
  rfl

end IpPacket

/-! ### The writes of the server -/

/-- The datagrams that `writePacket` puts on the socket: a utun socket accepts a `::write`
whole, and then the loop has returned (`writeLoop_of_whole`). -/
def SLUTUNInterface.datagrams (data : Bytes) : List Bytes :=
  (writeLoop data.length (fun _ => data.length) 1).calls.map fun w =>
    (data.drop w.offset.toNat).take w.count

/-- What the server has put on the utun socket so far. -/
def SLConnection.utunDatagrams (c : SLConnection) : List Bytes :=
  c.tunWrites.flatMap SLUTUNInterface.datagrams

/-- A write that is accepted whole is the only one. -/
theorem writeLoop_of_whole {len : ℤ} (hpos : 0 < len) (hlen : len < 2 ^ 31) :
    writeLoop len (fun _ => len) 1 =
      { writeLen := len, calls := [⟨0, len.toNat, len⟩] } := by
  have hcount : ((WriteLoop.nextCall len {} len).count : ℤ) = len := by
    rw [count_nextCall hlen le_rfl hpos.le len]
    exact sub_zero len
  have hcall : WriteLoop.nextCall len {} len = ⟨0, len.toNat, len⟩ := by
    have hnat : (WriteLoop.nextCall len {} len).count = len.toNat := by omega
    rw [← hnat]
    rfl
  rw [writeLoop_succ (by exact hpos)]
  simp [writeLoop, hcall, intOf_of_lt (by omega : -1 ≤ len) hlen]

/-- The server puts on the socket exactly what it is told to write. -/
theorem SLUTUNInterface.datagrams_eq {data : Bytes} (hpos : 0 < data.length)
    (hlen : data.length < 2 ^ 31) : SLUTUNInterface.datagrams data = [data] := by
  rw [SLUTUNInterface.datagrams, writeLoop_of_whole (by omega) (by omega)]
  simp

theorem IpPacket.datagrams_data (p : IpPacket) : SLUTUNInterface.datagrams p.data = [p.data] :=
  SLUTUNInterface.datagrams_eq p.length_pos (lt_of_le_of_lt p.length_le (by norm_num))

variable {pb : Protobuf} {o : ByteOrder} {sys : SysCalls} {c : SLConnection} {d : SLClient}
  {options : List (String × Bytes)} {u : Uplink}

/-- A server with an interface that waits for a frame. -/
structure SLConnection.Waiting (c : SLConnection) : Prop where
  input : c.input = []
  mUTUNInterface : c.mUTUNInterface ≠ none

/-- The server passes the packet of a `DATA` request to the interface. -/
theorem tunWrites_receive (hc : c.Waiting) (packet : FlowPacket) :
    (c.receive pb o sys ((hostLength o).frame
      (pb.serializeToArray (dataRequest packet.data)))).tunWrites =
        c.tunWrites ++ [packet.data] := by
  have hmsg : (dataRequest packet.data).IsRequest .data := ⟨rfl, rfl⟩
  have hnext : (hostLength o).next? (c.arrive ((hostLength o).frame
      (pb.serializeToArray (dataRequest packet.data)))).input =
        some (pb.serializeToArray (dataRequest packet.data), []) := by
    rw [SLConnection.arrive, hc.input, List.nil_append,
      ← (List.append_nil ((hostLength o).frame (pb.serializeToArray (dataRequest packet.data))))]
    exact LengthCode.next?_frame_append (fits_serialize packet.valid) []
  rw [SLConnection.receive, SLConnection.cbBuffereventWillRead_of_some hnext,
    parse_serialize_sizeArg packet.valid,
    SLConnection.dispatch_of_data_some hmsg (by exact hc.mUTUNInterface),
    SLConnection.tunWrites_act_tunWrite, SLConnection.tunWrites_received]
  rfl

/-- **What is put on the socket for a packet of the packet flow:** the bare packet. -/
theorem utunDatagrams_receive (hc : c.Waiting) (p : IpPacket) :
    (c.receive pb o sys (SLClient.handlePacketAppends pb o [p.flowPacket]).flatten).utunDatagrams =
      c.utunDatagrams ++ [p.data] := by
  have hdatagrams : SLUTUNInterface.datagrams p.flowPacket.data = [p.data] := p.datagrams_data
  rw [SLClient.flatten_handlePacketAppends, List.map_singleton, LengthCode.stream_cons,
    LengthCode.stream_nil, List.append_nil, SLConnection.utunDatagrams, tunWrites_receive hc,
    List.flatMap_append, List.flatMap_singleton, hdatagrams, SLConnection.utunDatagrams]

/-- **No run writes a header.** Whatever packets the packet flow emits, and in whatever batches
and chunks they travel: what is on the socket is a first part of the bare packets. -/
theorem utunDatagrams_of_reachable (hopt : (SLClient.start options).establishRequest.Valid)
    (h : (uplink pb o options).Reachable u) {ps : List IpPacket}
    (hps : u.batches.flatten = ps.map IpPacket.data) :
    u.server.utunDatagrams <+: ps.map IpPacket.data := by
  obtain ⟨f, hf, hsim⟩ := Uplink.uplink_simulates hopt h
  have hfirst : u.server.tunWrites <+: ps.map IpPacket.data := by
    rw [← hsim.delivered, ← hps, ← hsim.accepted]
    exact Fifo.delivered_prefix hf
  have hwhole : ∀ w ∈ u.server.tunWrites, SLUTUNInterface.datagrams w = [w] := by
    intro w hw
    obtain ⟨p, -, rfl⟩ := List.mem_map.mp (hfirst.subset hw)
    exact p.datagrams_data
  have hsame : u.server.utunDatagrams = u.server.tunWrites :=
    (List.flatMap_congr hwhole).trans (List.flatMap_singleton' _)
  exact hsame ▸ hfirst

/-! ### The law -/

/-- A packet of the packet flow is put on the socket as its datagram. -/
def WrittenWithHeader (pb : Protobuf) (o : ByteOrder) (sys : SysCalls) (c : SLConnection)
    (p : IpPacket) : Prop :=
  (c.receive pb o sys (SLClient.handlePacketAppends pb o [p.flowPacket]).flatten).utunDatagrams =
    c.utunDatagrams ++ [p.datagram]

/-- The datagram of a packet is read whole. -/
def ReadWhole (p : IpPacket) : Prop := p.read.data = p.datagram

/-- The socket is ready with the datagram of a packet: it is read, and the read handler runs. -/
def SLConnection.readTun (o : ByteOrder) (heap : ℕ → UInt8) (c : SLConnection) (p : IpPacket) :
    SLConnection :=
  (SplendidLinker.cbEvent evRead (.packet p.read)).foldl
    (fun c call => c.tunReadHandler o heap call.data) c

theorem SLConnection.readTun_eq (o : ByteOrder) (heap : ℕ → UInt8) (c : SLConnection)
    (p : IpPacket) : c.readTun o heap p = c.tunReadHandler o heap p.read.data := by
  have hcalls : SplendidLinker.cbEvent evRead (.packet p.read) =
      [⟨p.read.data, p.read.data.length⟩] := if_pos (by decide)
  rw [readTun, hcalls, List.foldl_cons, List.foldl_nil]

/-- The datagram of a packet reaches the packet flow as the bare packet, with its family, whatever
the heap holds. -/
def HandedOverBare (pb : Protobuf) (o : ByteOrder) (c : SLConnection) (d : SLClient)
    (p : IpPacket) : Prop :=
  ∀ heap, (d.receive pb o ((c.readTun o heap p).output.drop c.output.length)).flowWrites =
    d.flowWrites ++ [⟨[p.data], [p.family.number]⟩]

/-- Four bytes of the buffer are taken by the header. -/
theorem readWhole_iff (p : IpPacket) : ReadWhole p ↔ p.data.length ≤ 1496 := by
  have hlen : p.datagram.length = 4 + p.data.length := by
    simp [IpPacket.datagram, ProtocolFamily.header]
    omega
  rw [ReadWhole, IpPacket.read, List.take_eq_self_iff, hlen]
  omega

/-- **What the packet flow is handed for a datagram,** if the frame of the server carries what
was read: just this, as `PF_INET`. -/
theorem flowWrites_readTun (hd : d.Ready) (hin : d.input = []) {p : IpPacket} {heap : ℕ → UInt8}
    (h : CarriesPacket pb p.read.data (SLConnection.allocate heap
      (SLConnection.dataResponse p.read.data).byteSize)) :
    (d.receive pb o ((c.readTun o heap p).output.drop c.output.length)).flowWrites =
      d.flowWrites ++ [⟨[p.read.data], [pfInet]⟩] := by
  have hout : (c.readTun o heap p).output = c.output ++ (hostLength o).frame
      (SLConnection.allocate heap (SLConnection.dataResponse p.read.data).byteSize) := by
    rw [SLConnection.readTun_eq, output_tunReadHandler]
  have hlen : (SLConnection.allocate heap
      (SLConnection.dataResponse p.read.data).byteSize).length < 2 ^ 31 := by
    rw [length_allocate]
    exact (valid_dataResponse p.read).size
  rw [hout, List.drop_left, SLClient.receive_eq hd, hin, List.nil_append]
  generalize SLConnection.allocate heap _ = payload at h hlen ⊢
  have hready : ({ d with input := (hostLength o).frame payload } : SLClient).Ready :=
    ⟨hd.1, hd.2, hd.3, hd.4, hd.5⟩
  rw [flowWrites_of_carries hready hlen h (List.append_nil _).symm]
  rfl

/-- A heap on which the buffer holds the response. -/
theorem carries_serialized (p : IpPacket) :
    CarriesPacket pb p.read.data (SLConnection.allocate
      (fun i => (pb.serializeToArray (SLConnection.dataResponse p.read.data)).getD i 0)
      (SLConnection.dataResponse p.read.data).byteSize) := by
  have hvalid := valid_dataResponse p.read
  rw [← pb.length_serialize _ hvalid, allocate_getD]
  refine ⟨?_, ?_, ?_, ?_⟩ <;> rw [parse_serialize_length hvalid] <;> rfl

/-- **No packet is encapsulated.** None is written with its header, none is handed over bare,
and only the packets with room for the header are read whole. -/
theorem not_encapsulated (hc : c.Waiting) (hd : d.Ready) (hin : d.input = []) (p : IpPacket) :
    ¬ WrittenWithHeader pb o sys c p ∧ (ReadWhole p ↔ p.data.length ≤ 1496) ∧
      ¬ HandedOverBare pb o c d p := by
  refine ⟨fun h => ?_, readWhole_iff p, fun h => ?_⟩
  · rw [WrittenWithHeader, utunDatagrams_receive hc] at h
    simp [p.datagram_ne] at h
  · -- even where the buffer of the read handler holds the response
    have hbare := h fun i => (pb.serializeToArray (SLConnection.dataResponse p.read.data)).getD i 0
    rw [flowWrites_readTun hd hin (carries_serialized p)] at hbare
    simp [p.read_data_ne] at hbare

/-- A server with an interface. -/
private def installed : SLConnection := { mUTUNInterface := some {} }

/-- An IPv4 packet that is a header only. -/
private def ipv4Packet : IpPacket where
  family := .inet
  data := 0x45 :: List.replicate 19 0
  version := by decide
  headerLength_le := by decide
  length_le := by decide

/-- An IPv6 packet as long as the MTU. -/
private def ipv6Packet : IpPacket where
  family := .inet6
  data := 0x60 :: List.replicate 1499 0
  version := by decide
  headerLength_le := by
    rw [List.length_cons, List.length_replicate]
    decide
  length_le := by rw [List.length_cons, List.length_replicate]

/-- The law for both packets. -/
theorem not_encapsulated_two_packets :
    (¬ WrittenWithHeader wireFormat .little .succeed installed ipv4Packet ∧
      (ReadWhole ipv4Packet ↔ ipv4Packet.data.length ≤ 1496) ∧
      ¬ HandedOverBare wireFormat .little installed (.start []) ipv4Packet) ∧
    (¬ WrittenWithHeader wireFormat .little .succeed installed ipv6Packet ∧
      (ReadWhole ipv6Packet ↔ ipv6Packet.data.length ≤ 1496) ∧
      ¬ HandedOverBare wireFormat .little installed (.start []) ipv6Packet) :=
  ⟨not_encapsulated ⟨rfl, by decide⟩ ⟨rfl, rfl, rfl, rfl, rfl⟩ rfl ipv4Packet,
    not_encapsulated ⟨rfl, by decide⟩ ⟨rfl, rfl, rfl, rfl, rfl⟩ rfl ipv6Packet⟩

/-- The IPv4 packet goes up without a header, and comes down with one. -/
theorem not_transparent :
    ¬ (∀ p, WrittenWithHeader wireFormat .little .succeed installed p) ∧
      ¬ (∀ p, ReadWhole p) ∧
      ¬ ∀ p, HandedOverBare wireFormat .little installed (.start []) p := by
  refine ⟨fun h => ?_, fun h => ?_, fun h => ?_⟩
  · have hwritten : (installed.receive wireFormat .little .succeed (SLClient.handlePacketAppends
        wireFormat .little [ipv4Packet.flowPacket]).flatten).utunDatagrams =
          [ipv4Packet.data] := by decide +kernel
    exact absurd (hwritten.symm.trans (h ipv4Packet)) (by decide +kernel)
  · have hlen : ipv6Packet.data.length = 1500 := by
      rw [ipv6Packet, List.length_cons, List.length_replicate]
    have hshort := (readWhole_iff ipv6Packet).mp (h ipv6Packet)
    omega
  · have hbare := h ipv4Packet fun i => (wireFormat.serializeToArray
      (SLConnection.dataResponse ([0, 0, 0, 2] ++ ipv4Packet.data))).getD i 0
    exact absurd hbare (by decide +kernel)

end SplendidLinker
