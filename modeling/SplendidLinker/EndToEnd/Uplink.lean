import SplendidLinker.Client.PacketTunnelProvider
import SplendidLinker.Client.StartCompletion
import SplendidLinker.Foundations.Fifo
import SplendidLinker.Server.Framing

/-!
# The uplink

Packets of the client's packet flow on their way to the utun interface of the server. The
client writes its `ESTABLISH` request when the connection is made, and then the requests of
batch after batch, one `bufferevent_write` call at a time; at any moment some of the bytes
written so far reach the server, whose read callback runs.

`uplink_simulates` is the simulation: the uplink is a first-in first-out channel of packets.
The packets in the queue of the channel are those whose requests are, in part or in full, among
the appends still to make, the bytes under way, and the bytes in the input buffer of the
server (`Simulates`). `uplink_delivers` reads the two laws of the uplink off it.
-/

namespace SplendidLinker

open Foundations

/-- Both ends of the uplink. -/
structure Uplink where
  client : SLClient
  /-- `cb_bufferevent_event` has been called with `BEV_EVENT_CONNECTED`. -/
  connected : Bool := false
  /-- `startHandlePacket` has been called. -/
  started : Bool := false
  /-- The `bufferevent_write` calls that the running `handlePacket` has still to make; `none`
  if it is not running. -/
  appends : Option (List Bytes) := none
  /-- The `readPackets` requests that the packet flow has not completed. -/
  outstanding : ℕ := 0
  /-- The batches `handlePacket` was called with. -/
  batches : List (List Bytes) := []
  /-- How many bytes of the client's output have reached the server. -/
  arrived : ℕ := 0
  server : SLConnection := {}

/-- What can happen next. -/
inductive UplinkAction
  /-- The connection is made. -/
  | connect
  /-- `startHandlePacket` asks for the first batch. -/
  | startHandlePacket
  /-- The packet flow completes a request, and `handlePacket` starts. -/
  | handlePacket (packets : List FlowPacket)
  /-- `handlePacket` makes its next `bufferevent_write` call. -/
  | append
  /-- `handlePacket` asks for the next batch and returns. -/
  | readPackets
  /-- The next `n` bytes reach the server; `sys` is what the system calls return there. -/
  | deliver (n : ℕ) (sys : SysCalls)

namespace Uplink

/-- The bytes written by the client that have not reached the server. -/
def inFlight (u : Uplink) : Bytes := u.client.output.drop u.arrived

/-- The interface is created without an error. -/
def Creates (sys : SysCalls) : Prop :=
  (SLUTUNInterface.construct sys).map Constructed.errs = some []

instance (sys : SysCalls) : Decidable (Creates sys) := inferInstanceAs (Decidable (_ = _))

/-- One step of the uplink. -/
def step (pb : Protobuf) (o : ByteOrder) (u : Uplink) : UplinkAction → Option Uplink
  | .connect =>
    if u.connected then none
    else some { u with
      client := u.client.cbBuffereventEvent pb o SLClient.bevEventConnected
      connected := true }
  | .startHandlePacket =>
    if u.connected ∧ ¬ u.started then
      some { u with started := true, outstanding := u.outstanding + 1 }
    else none
  | .handlePacket packets =>
    match u.outstanding, u.appends with
    | n + 1, none =>
      some { u with
        outstanding := n
        appends := some (SLClient.handlePacketAppends pb o packets)
        batches := u.batches ++ [packets.map FlowPacket.data] }
    | _, _ => none
  | .append =>
    match u.appends with
    | some (bytes :: appends) =>
      some { u with
        client := { u.client with output := u.client.output ++ bytes }
        appends := some appends }
    | _ => none
  | .readPackets =>
    match u.appends with
    | some [] => some { u with appends := none, outstanding := u.outstanding + 1 }
    | _ => none
  | .deliver n sys =>
    -- the interface is created without an error, and the connection does not fail
    if u.server.freed = false ∧ u.server.running = true ∧ 0 < n ∧ n ≤ u.inFlight.length ∧
        Creates sys then
      some { u with
        arrived := u.arrived + n
        server := u.server.receive pb o sys (u.inFlight.take n) }
    else none

end Uplink

/-- The uplink from a client that is about to connect. -/
def uplink (pb : Protobuf) (o : ByteOrder) (options : List (String × Bytes)) :
    TransitionSystem Uplink UplinkAction where
  init u := u = { client := .start options }
  step := Uplink.step pb o

namespace Uplink

variable {pb : Protobuf} {o : ByteOrder} {options : List (String × Bytes)} {u u' : Uplink}
  {f : Fifo Bytes} {a : UplinkAction}

/-- The bytes on their way to the dispatch of the server, from its input buffer back to the
appends the client has still to make. -/
def underWay (u : Uplink) : Bytes :=
  u.server.input ++ (u.inFlight ++ (u.appends.getD []).flatten)

/-- The requests whose frames are under way, if `queue` are the packets under way: the server
has an interface once the `ESTABLISH` request is no longer among them. -/
def requests (options : List (String × Bytes)) (u : Uplink) (queue : List Bytes) :
    List TunnelMessage :=
  (if u.server.mUTUNInterface = none then [(SLClient.start options).establishRequest] else []) ++
    queue.map dataRequest

/-- **The simulation relation.** -/
structure Simulates (pb : Protobuf) (o : ByteOrder) (options : List (String × Bytes))
    (u : Uplink) (f : Fifo Bytes) : Prop where
  accepted : f.accepted = u.batches.flatten
  delivered : f.delivered = u.server.tunWrites
  live : u.server.freed = false ∧ u.server.running = true
  arrived_le : u.arrived ≤ u.client.output.length
  valid : ∀ p ∈ f.queue, (dataRequest p).Valid
  /-- Before the connection is made, nothing has happened. -/
  fresh : u.connected = false → u = { client := .start options } ∧ f.queue = []
  /-- After it, the bytes under way are the frames of the requests under way. -/
  stream : u.connected = true →
    u.underWay = (hostLength o).stream ((u.requests options f.queue).map pb.serializeToArray)

/-! ### The steps -/

/-- What each action does, and when it can happen. -/
inductive Stepped (pb : Protobuf) (o : ByteOrder) (u : Uplink) : UplinkAction → Uplink → Prop
  | connect (h : u.connected = false) :
      Stepped pb o u .connect { u with
        client := u.client.cbBuffereventEvent pb o SLClient.bevEventConnected
        connected := true }
  | startHandlePacket (hc : u.connected = true) (hs : u.started = false) :
      Stepped pb o u .startHandlePacket
        { u with started := true, outstanding := u.outstanding + 1 }
  | handlePacket (packets : List FlowPacket) {n : ℕ} (hout : u.outstanding = n + 1)
      (happends : u.appends = none) :
      Stepped pb o u (.handlePacket packets) { u with
        outstanding := n
        appends := some (SLClient.handlePacketAppends pb o packets)
        batches := u.batches ++ [packets.map FlowPacket.data] }
  | append {bytes : Bytes} {appends : List Bytes} (happends : u.appends = some (bytes :: appends)) :
      Stepped pb o u .append { u with
        client := { u.client with output := u.client.output ++ bytes }
        appends := some appends }
  | readPackets (happends : u.appends = some []) :
      Stepped pb o u .readPackets { u with appends := none, outstanding := u.outstanding + 1 }
  | deliver {n : ℕ} {sys : SysCalls} (hpos : 0 < n) (hn : n ≤ u.inFlight.length)
      (hsys : Creates sys) :
      Stepped pb o u (.deliver n sys) { u with
        arrived := u.arrived + n
        server := u.server.receive pb o sys (u.inFlight.take n) }

theorem stepped (h : u.step pb o a = some u') : Stepped pb o u a u' := by
  cases a with
  | connect =>
    rw [step] at h
    split_ifs at h with hu
    obtain rfl := Option.some.inj h
    exact .connect (Bool.eq_false_of_not_eq_true hu)
  | startHandlePacket =>
    rw [step] at h
    split_ifs at h with hu
    obtain rfl := Option.some.inj h
    exact .startHandlePacket hu.1 (Bool.eq_false_of_not_eq_true hu.2)
  | handlePacket packets =>
    rw [step] at h
    split at h
    case h_1 n hout happends =>
      obtain rfl := Option.some.inj h
      exact .handlePacket packets hout happends
    case h_2 => cases h
  | append =>
    rw [step] at h
    split at h
    case h_1 bytes appends happends =>
      obtain rfl := Option.some.inj h
      exact .append happends
    case h_2 => cases h
  | readPackets =>
    rw [step] at h
    split at h
    case h_1 happends =>
      obtain rfl := Option.some.inj h
      exact .readPackets happends
    case h_2 => cases h
  | deliver n sys =>
    rw [step] at h
    split_ifs at h with hcond
    obtain rfl := Option.some.inj h
    exact .deliver hcond.2.2.1 hcond.2.2.2.1 hcond.2.2.2.2

/-! ### The simulation -/

/-- The requests under way are valid. -/
private theorem Simulates.requests_valid (h : Simulates pb o options u f)
    (hopt : (SLClient.start options).establishRequest.Valid) :
    ∀ m ∈ u.requests options f.queue, m.Valid := by
  intro m hm
  rw [requests, List.mem_append] at hm
  rcases hm with hm | hm
  · split_ifs at hm
    · rw [List.mem_singleton.mp hm]
      exact hopt
    · cases hm
  · obtain ⟨p, hp, rfl⟩ := List.mem_map.mp hm
    exact h.valid p hp

private theorem Simulates.connect (h : Simulates pb o options u f)
    (hopt : (SLClient.start options).establishRequest.Valid) (hu : u.connected = false) :
    Simulates pb o options { u with
      client := u.client.cbBuffereventEvent pb o SLClient.bevEventConnected
      connected := true } f := by
  obtain ⟨rfl, hqueue⟩ := h.fresh hu
  refine ⟨h.accepted, h.delivered, h.live, Nat.zero_le _, h.valid, by simp, fun _ => ?_⟩
  have hout : ((SLClient.start options).cbBuffereventEvent pb o
      SLClient.bevEventConnected).output =
        (hostLength o).frame (pb.serializeToArray (SLClient.start options).establishRequest) :=
    SLClient.output_connected hopt
  -- the frame of the request is all there is under way
  simp [underWay, inFlight, requests, hqueue, hout]

private theorem Simulates.handlePacket (h : Simulates pb o options u f) {n : ℕ}
    (hout : u.outstanding = n + 1) (happends : u.appends = none) (packets : List FlowPacket) :
    Simulates pb o options { u with
      outstanding := n
      appends := some (SLClient.handlePacketAppends pb o packets)
      batches := u.batches ++ [packets.map FlowPacket.data] }
    { f with
      queue := f.queue ++ packets.map FlowPacket.data
      accepted := f.accepted ++ packets.map FlowPacket.data } := by
  have hconn : u.connected = true := by
    by_contra hu
    rw [(h.fresh (Bool.eq_false_of_not_eq_true hu)).1] at hout
    cases hout
  refine ⟨by simp [h.accepted], h.delivered, h.live, h.arrived_le, ?_, ?_, fun _ => ?_⟩
  · intro p hp
    rcases List.mem_append.mp hp with hp | hp
    · exact h.valid p hp
    · obtain ⟨packet, -, rfl⟩ := List.mem_map.mp hp
      exact packet.valid
  · intro hu
    rw [hconn] at hu
    cases hu
  · have hstream := h.stream hconn
    simp only [underWay, happends, Option.getD_none, List.flatten_nil, List.append_nil] at hstream
    simp only [underWay, Option.getD_some, SLClient.flatten_handlePacketAppends, inFlight]
      at hstream ⊢
    rw [← List.append_assoc, hstream]
    simp [requests, Function.comp_def]

private theorem Simulates.append (h : Simulates pb o options u f) {bytes : Bytes}
    {appends : List Bytes} (happends : u.appends = some (bytes :: appends)) :
    Simulates pb o options { u with
      client := { u.client with output := u.client.output ++ bytes }
      appends := some appends } f := by
  refine ⟨h.accepted, h.delivered, h.live, ?_, h.valid, fun hu => ?_, fun hconn => ?_⟩
  · exact le_trans h.arrived_le (by simp)
  · rw [(h.fresh hu).1] at happends
    cases happends
  · have hstream := h.stream hconn
    simp only [underWay, happends, Option.getD_some, List.flatten_cons, inFlight] at hstream ⊢
    rw [List.drop_append_of_le_length h.arrived_le, List.append_assoc]
    exact hstream

private theorem Simulates.readPackets (h : Simulates pb o options u f)
    (happends : u.appends = some []) :
    Simulates pb o options { u with appends := none, outstanding := u.outstanding + 1 } f := by
  refine ⟨h.accepted, h.delivered, h.live, h.arrived_le, h.valid, fun hu => ?_, fun hconn => ?_⟩
  · rw [(h.fresh hu).1] at happends
    cases happends
  · have hstream := h.stream hconn
    simp only [underWay, happends, Option.getD_some, List.flatten_nil] at hstream
    exact hstream

/-- The first frame under way is complete: its request is dispatched. -/
private theorem Simulates.dispatch (h : Simulates pb o options u f)
    (hopt : (SLClient.start options).establishRequest.Valid) {sys : SysCalls}
    (hsys : Creates sys) {payload rest : Bytes} {ps : List Bytes} {n : ℕ}
    (hle : u.arrived + n ≤ u.client.output.length) (hconn : u.connected = true)
    (hps : (u.requests options f.queue).map pb.serializeToArray = payload :: ps)
    (hrest : rest ++ (u.inFlight.drop n ++ (u.appends.getD []).flatten) =
      (hostLength o).stream ps) :
    ∃ f', (fifo Bytes).LeadsTo f f' ∧ Simulates pb o options { u with
      arrived := u.arrived + n
      server := (u.server.received payload rest).dispatch pb o sys
        (pb.parseFromArray payload (sizeArg (UInt32.ofNat payload.length))).2 } f' := by
  rw [inFlight, List.drop_drop] at hrest
  rw [requests] at hps
  by_cases hu : u.server.mUTUNInterface = none
  · -- the first request is `ESTABLISH`, and the interface is installed
    rw [if_pos hu, List.singleton_append, List.map_cons] at hps
    obtain ⟨rfl, rfl⟩ := List.cons.inj hps
    obtain ⟨r, hr, herr⟩ := Option.map_eq_some_iff.mp hsys
    have hmsg : (SLClient.start options).establishRequest.IsRequest .establish := ⟨rfl, rfl⟩
    rw [parse_serialize_sizeArg hopt, SLConnection.dispatch_of_establish hmsg hr herr]
    refine ⟨f, .refl, h.accepted, ?_, h.live, hle, h.valid,
      fun hc => absurd hc (by simp [hconn]), fun _ => ?_⟩
    · rw [h.delivered]
      simp [SLConnection.tunWrites, SLConnection.received, SLConnection.act,
        SLConnection.setMUTUNInterface, SLConnection.writePacket, SLConnection.tunWriteCall]
    · rw [requests, if_neg (by simp [SLConnection.setMUTUNInterface, SLConnection.act,
        SLConnection.writePacket])]
      exact hrest
  · -- the first request is `DATA`, and its packet is written
    rw [if_neg hu, List.nil_append] at hps
    cases hq : f.queue with
    | nil => simp [hq] at hps
    | cons p queue =>
      rw [hq, List.map_cons, List.map_cons] at hps
      obtain ⟨rfl, rfl⟩ := List.cons.inj hps
      have hp : (dataRequest p).Valid := h.valid p (by simp [hq])
      have hmsg : (dataRequest p).IsRequest .data := ⟨rfl, rfl⟩
      have hrec : (u.server.received (pb.serializeToArray (dataRequest p)) rest).mUTUNInterface ≠
          none := hu
      rw [parse_serialize_sizeArg hp, SLConnection.dispatch_of_data_some hmsg hrec]
      refine ⟨_, Fifo.leadsTo_deliver hq, h.accepted, ?_, h.live, hle,
        fun q hqueue => h.valid q (by simp [hq, hqueue]),
        fun hc => absurd hc (by simp [hconn]), fun _ => ?_⟩
      · simp [h.delivered, dataRequest]
      · rw [requests, if_neg (by exact hu)]
        exact hrest

private theorem Simulates.deliver (h : Simulates pb o options u f)
    (hopt : (SLClient.start options).establishRequest.Valid) {n : ℕ} {sys : SysCalls}
    (hpos : 0 < n) (hn : n ≤ u.inFlight.length) (hsys : Creates sys) :
    ∃ f', (fifo Bytes).LeadsTo f f' ∧ Simulates pb o options { u with
      arrived := u.arrived + n
      server := u.server.receive pb o sys (u.inFlight.take n) } f' := by
  have hconn : u.connected = true := by
    by_contra hu
    rw [(h.fresh (Bool.eq_false_of_not_eq_true hu)).1] at hn
    have hzero : n ≤ 0 := hn
    omega
  have hle : u.arrived + n ≤ u.client.output.length := by
    have := h.arrived_le
    rw [inFlight, List.length_drop] at hn
    omega
  have hbytes : u.server.input ++ u.inFlight.take n ++
      (u.inFlight.drop n ++ (u.appends.getD []).flatten) =
        (hostLength o).stream ((u.requests options f.queue).map pb.serializeToArray) := by
    rw [← h.stream hconn, underWay, List.append_assoc, ← List.append_assoc (u.inFlight.take n),
      List.take_append_drop]
  rcases u.server.receive_spec pb o sys (u.inFlight.take n) with
    ⟨-, hr⟩ | ⟨payload, rest, hnext, hr⟩
  · -- the chunk waits in the input buffer
    rw [hr]
    refine ⟨f, Relation.ReflTransGen.refl, h.accepted, h.delivered, h.live, hle, h.valid,
      fun hu => absurd hu (by simp [hconn]), fun _ => ?_⟩
    simp only [underWay, inFlight, requests, SLConnection.arrive] at hbytes ⊢
    rw [← List.drop_drop]
    exact hbytes
  · have hfits : ∀ p ∈ (u.requests options f.queue).map pb.serializeToArray,
        (hostLength o).Fits p := by
      intro p hp
      obtain ⟨m, hm, rfl⟩ := List.mem_map.mp hp
      exact fits_serialize (h.requests_valid hopt m hm)
    rcases LengthCode.next?_of_stream hfits hbytes with hnone | ⟨p, ps, b', hps, hsome, hrest⟩
    · rw [hnext] at hnone
      cases hnone
    · -- the frame that is complete is that of the first request
      obtain ⟨rfl, rfl⟩ := Prod.mk.inj (Option.some.inj (hnext.symm.trans hsome))
      rw [hr]
      exact h.dispatch hopt hsys hle hconn hps hrest

/-- **One step** of the uplink is matched by the channel. -/
theorem Simulates.next (h : Simulates pb o options u f)
    (hopt : (SLClient.start options).establishRequest.Valid) (hstep : u.step pb o a = some u') :
    ∃ f', (fifo Bytes).LeadsTo f f' ∧ Simulates pb o options u' f' := by
  cases stepped hstep with
  | connect hu => exact ⟨f, .refl, h.connect hopt hu⟩
  | startHandlePacket hc hs =>
    exact ⟨f, .refl, h.accepted, h.delivered, h.live, h.arrived_le, h.valid,
      fun hu => absurd hu (by simp [hc]), h.stream⟩
  | handlePacket packets hout happends =>
    exact ⟨_, Fifo.leadsTo_accept f _, h.handlePacket hout happends packets⟩
  | append happends => exact ⟨f, .refl, h.append happends⟩
  | readPackets happends => exact ⟨f, .refl, h.readPackets happends⟩
  | deliver hpos hn hsys => exact h.deliver hopt hpos hn hsys

/-- **The uplink is a first-in first-out channel of packets.** -/
theorem uplink_simulates (hopt : (SLClient.start options).establishRequest.Valid)
    (h : (uplink pb o options).Reachable u) :
    ∃ f, (fifo Bytes).Reachable f ∧ Simulates pb o options u f := by
  refine h.simulate (R := Simulates pb o options) ?_ fun u a u' f hsim hstep => hsim.next hopt hstep
  rintro u rfl
  exact ⟨{}, rfl, rfl, rfl, ⟨rfl, rfl⟩, le_rfl, by simp, fun _ => ⟨rfl, rfl⟩, by simp⟩

/-- Once `startHandlePacket` has been called, either a request is outstanding or `handlePacket`
is running, and not both. -/
structure Pumping (u : Uplink) : Prop where
  running : u.appends ≠ none → u.outstanding = 0 ∧ u.started = true
  waiting : u.appends = none → u.outstanding = if u.started then 1 else 0

theorem pumping (h : (uplink pb o options).Reachable u) : u.Pumping := by
  refine h.invariant ?_ fun u a u' hu hstep => ?_
  · rintro u rfl
    exact ⟨by simp, by simp⟩
  · obtain ⟨hrunning, hwaiting⟩ := hu
    cases stepped hstep with
    | connect | deliver => exact ⟨hrunning, hwaiting⟩
    | startHandlePacket hc hs =>
      cases happends : u.appends with
      | none => exact ⟨fun h => absurd rfl h, fun _ => by simp [hwaiting happends, hs]⟩
      | some appends =>
        have hrun := hrunning (by simp [happends])
        rw [hs] at hrun
        exact Bool.noConfusion hrun.2
    | handlePacket packets hout happends =>
      have hwait := hwaiting happends
      split_ifs at hwait with hs
      · exact ⟨fun _ => ⟨by simp only; omega, hs⟩, by simp⟩
      · omega
    | append happends => exact ⟨fun _ => hrunning (by simp [happends]), by simp⟩
    | readPackets happends =>
      obtain ⟨hzero, hs⟩ := hrunning (by simp [happends])
      exact ⟨fun h => absurd rfl h, fun _ => by simp [hzero, hs]⟩

/-- **Uplink integrity.** Whatever the batches, and however the bytes of the client are cut on
their way: what the server has passed to the interface is a first part of the batches, and
after each batch exactly one `readPackets` request is outstanding. -/
theorem uplink_delivers (pb : Protobuf) (o : ByteOrder) {options : List (String × Bytes)}
    (hopt : (SLClient.start options).establishRequest.Valid) {u : Uplink}
    (h : (uplink pb o options).Reachable u) :
    u.server.tunWrites <+: u.batches.flatten ∧
      (u.started = true → u.appends = none → u.outstanding = 1) := by
  obtain ⟨f, hf, hsim⟩ := uplink_simulates hopt h
  constructor
  · rw [← hsim.delivered, ← hsim.accepted]
    exact Fifo.delivered_prefix hf
  · intro hstarted happends
    simpa [hstarted] using (pumping h).waiting happends

/-- A batch of one packet, after the `ESTABLISH` request has arrived in two chunks. -/
private def shortRun : List UplinkAction :=
  [.connect, .deliver 3 .succeed, .deliver 17 .succeed, .startHandlePacket,
    .handlePacket [⟨[0x45], by decide⟩], .append, .append, .readPackets, .deliver 11 .succeed]

/-- The theorem at the end of that run, where the packet has been written. -/
theorem uplink_delivers_one_packet :
    ∃ u, (uplink wireFormat .little adminOptions).replay
        { client := .start adminOptions } shortRun = some u ∧
      u.server.tunWrites = [[0x45]] ∧ u.server.tunWrites <+: u.batches.flatten ∧
      (u.started = true → u.appends = none → u.outstanding = 1) := by
  have hwrites : ((uplink wireFormat .little adminOptions).replay
      { client := .start adminOptions } shortRun).map (·.server.tunWrites) = some [[0x45]] := by
    decide +kernel
  obtain ⟨u, hu, htun⟩ := Option.map_eq_some_iff.mp hwrites
  have hreach : (uplink wireFormat .little adminOptions).Reachable u :=
    TransitionSystem.reachable_of_replay rfl hu
  exact ⟨u, hu, htun, uplink_delivers wireFormat .little
    ⟨by decide +kernel, by decide +kernel⟩ hreach⟩

end Uplink

end SplendidLinker
