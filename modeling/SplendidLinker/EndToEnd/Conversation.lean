import SplendidLinker.EndToEnd.Handshake

/-!
# The conversation

What follows a handshake: once its establish callback has been called, the client sends the
packets of its packet flow, and once there is an interface, the TUN thread of the server writes
frames of its own, whatever the heap has put into them. System calls fail or succeed, bytes arrive
in pieces, and either side may report an event.

A peer that sends `DATA` too early makes the server dereference a null pointer. The client never
does, in no run (`serves_prefix`): it waits for the establish callback, which takes at least a byte
from the server, and the server writes nothing before it has an interface. So the server has
always served a first part of the conversation, in order, and what is still missing when all bytes
have arrived waits in complete frames in its input buffer (`missing_waits`). If no delivery
completes more than one frame, nothing is missing (`nothing_missing`). All of this holds with any
codec that reads back the valid messages it has written.
-/

namespace SplendidLinker

open Foundations TunnelMessage

/-! ### What the client keeps -/

namespace SLClient

variable {c : SLClient}

theorem frame_call (registered : Bool) (a : ClientAction) :
    (c.call registered a).output = c.output ∧ (c.call registered a).mOptions = c.mOptions := by
  rw [call]
  split_ifs
  · exact ⟨rfl, rfl⟩
  · exact ⟨rfl, rfl⟩

/-- A dispatch writes nothing. -/
theorem frame_dispatch (msg : TunnelMessage) :
    (c.dispatch msg).output = c.output ∧ (c.dispatch msg).mOptions = c.mOptions := by
  rw [dispatch]
  split
  · have herror := c.frame_call c.mErrorCallback (.errorCallback .establishError .message)
    simp only
    split
    · exact herror
    · exact herror
  · split
    · have hset : (c.setAddresses msg).output = c.output ∧
          (c.setAddresses msg).mOptions = c.mOptions := ⟨rfl, rfl⟩
      have hcall := (c.setAddresses msg).frame_call c.mEstablishCallback
        (.establishCallback msg .mContext)
      exact ⟨hcall.1.trans hset.1, hcall.2.trans hset.2⟩
    · exact frame_call _ _
    · exact frame_call _ _
    · exact frame_call _ _
    · exact frame_call _ _

/-- The read callback writes nothing. -/
theorem frame_receive (pb : Protobuf) (o : ByteOrder) (chunk : Bytes) :
    (c.receive pb o chunk).output = c.output ∧ (c.receive pb o chunk).mOptions = c.mOptions := by
  rw [receive]
  split_ifs
  · exact ⟨rfl, rfl⟩
  · exact frame_dispatch _

/-- An event but the connection writes nothing, and establishes nothing. -/
theorem frame_event (pb : Protobuf) (o : ByteOrder) {flags : UInt16}
    (hflags : flags ≠ bevEventConnected) :
    let c' := c.cbBuffereventEvent pb o flags
    c'.output = c.output ∧ c'.mOptions = c.mOptions ∧ c'.establishments = c.establishments := by
  have hcall (ctx : CallbackContext) : let c' := c.callError .serverUnReachable ctx
      c'.output = c.output ∧ c'.mOptions = c.mOptions ∧
        c'.establishments = c.establishments :=
    ⟨(frame_call _ _).1, (frame_call _ _).2, establishments_call _ rfl⟩
  rw [cbBuffereventEvent]
  split_ifs
  · exact ⟨rfl, rfl, rfl⟩
  · exact hcall _
  · exact ⟨rfl, rfl, rfl⟩
  · exact ⟨rfl, rfl, rfl⟩
  · exact ⟨rfl, rfl, rfl⟩
  · exact hcall _
  · exact ⟨rfl, rfl, rfl⟩

end SLClient

/-! ### The conversation -/

/-- Both ends of a connection, and the packets that `handlePacket` was called with. -/
structure Conversation extends Handshake where
  sent : List Bytes := []

/-- What can happen next. -/
inductive ConversationAction
  /-- A step of the handshake: bytes move, an event is reported, or the TUN thread has read a
  packet. -/
  | handshake (a : HandshakeAction)
  /-- The packet flow hands a batch to `handlePacket`. -/
  | handlePacket (packets : List FlowPacket)

namespace Conversation

/-- One step of the conversation. -/
def step (pb : Protobuf) (o : ByteOrder) (t : Conversation) :
    ConversationAction → Option Conversation
  | .handshake a => (t.toHandshake.step pb o o a).map fun h => { t with toHandshake := h }
  | .handlePacket packets =>
    -- `tunnelDidEstablish` asks for the first batch
    if t.ClientLive ∧ t.client.establishments ≠ [] then
      some { t with
        client := t.client.handlePacket pb o packets
        sent := t.sent ++ packets.map FlowPacket.data }
    else none

end Conversation

/-- The conversation of a client that is about to connect. -/
def conversation (pb : Protobuf) (o : ByteOrder) (options : List (String × Bytes)) :
    TransitionSystem Conversation ConversationAction where
  init t := t = { client := .start options }
  step := Conversation.step pb o

namespace Conversation

open Handshake

variable {pb : Protobuf} {o : ByteOrder} {options : List (String × Bytes)} {t t' : Conversation}
  {a : ConversationAction}

/-- What a step does. -/
theorem step_cases (hstep : t.step pb o a = some t') :
    (∃ b h', a = .handshake b ∧ Stepped pb o o t.toHandshake b h' ∧
        t' = { t with toHandshake := h' }) ∨
      ∃ packets, a = .handlePacket packets ∧ t.client.establishments ≠ [] ∧
        t' = { t with
          client := t.client.handlePacket pb o packets
          sent := t.sent ++ packets.map FlowPacket.data } := by
  cases a with
  | handshake b =>
    obtain ⟨h', hh', rfl⟩ := Option.map_eq_some_iff.mp hstep
    exact .inl ⟨b, h', rfl, stepped hh', rfl⟩
  | handlePacket packets =>
    rw [step, Option.ite_none_right_eq_some, Option.some.injEq] at hstep
    exact .inr ⟨packets, rfl, hstep.1.2, hstep.2.symm⟩

/-- The requests that the client has written. -/
def requests (options : List (String × Bytes)) (t : Conversation) : List TunnelMessage :=
  (if t.connected then [firstRequest options] else []) ++ t.sent.map dataRequest

/-- The `ParseFromArray` call that reads a message. -/
def readAs (pb : Protobuf) (m : TunnelMessage) : Bytes × ℤ :=
  (pb.serializeToArray m, (m.byteSize : ℤ))

/-- The connection has read the messages `done`, in order, and passed on their packets: the first
one asks for the interface, and the others come with a packet. -/
structure HasServed (pb : Protobuf) (c : SLConnection) (done : List TunnelMessage) : Prop where
  parsed : c.parsed = done.map (readAs pb)
  created : c.mUTUNInterface ≠ none → done ≠ []
  tunWrites : c.tunWrites = if c.mUTUNInterface = none then [] else done.tail.map packetData
  /-- Without an interface nothing is written. -/
  silent : c.mUTUNInterface = none → c.output = []
  safe : .nullDeref ∉ c.trace

/-- **The invariant.** Nothing but the interface of the server lets the client go on. -/
structure Conversing (pb : Protobuf) (o : ByteOrder) (options : List (String × Bytes))
    (t : Conversation) : Prop where
  mOptions : t.connected = false → t.client.mOptions = options
  output : t.client.output = (hostLength o).stream ((t.requests options).map pb.serializeToArray)
  arrivedUp_le : t.arrivedUp ≤ t.client.output.length
  valid : ∀ p ∈ t.sent, (dataRequest p).Valid
  /-- What the server has not served is in its input buffer or under way. -/
  served : ∃ done todo, t.requests options = done ++ todo ∧ HasServed pb t.server done ∧
    (t.server.freed = false →
      t.server.input ++ t.up = (hostLength o).stream (todo.map pb.serializeToArray))
  established : t.client.establishments ≠ [] → t.server.mUTUNInterface ≠ none
  sent : t.sent ≠ [] → t.connected = true ∧ t.server.mUTUNInterface ≠ none

/-! ### The server -/

section Server

variable {c : SLConnection} {done : List TunnelMessage} {m : TunnelMessage} {sys : SysCalls}
  {rest : Bytes}

/-- What reading a message adds to the record of a connection. -/
private theorem HasServed.received (h : HasServed pb c done) (hm : m.Valid) (rest : Bytes) :
    (c.received (pb.serializeToArray m) rest).parsed = (done ++ [m]).map (readAs pb) ∧
      .nullDeref ∉ (c.received (pb.serializeToArray m) rest).trace := by
  refine ⟨?_, ?_⟩
  · rw [SLConnection.parsed_received, h.parsed, pb.length_serialize _ hm,
      sizeArg_of_lt hm.size, List.map_append]
    rfl
  · simp [SLConnection.received, SLConnection.act, h.safe]

/-- The first request is served: an interface is created, or the connection stays silent. -/
private theorem HasServed.establish (h : HasServed pb c []) (hm : m.Valid)
    (hmsg : m.IsRequest .establish) :
    HasServed pb ((c.received (pb.serializeToArray m) rest).dispatch pb o sys m) [m] := by
  have hnone : c.mUTUNInterface = none := by
    by_contra hne
    exact h.created hne rfl
  have hwrites : c.tunWrites = [] := by rw [h.tunWrites, if_pos hnone]
  obtain ⟨hparsed, hsafe⟩ := h.received hm rest
  have hnone' : (c.received (pb.serializeToArray m) rest).mUTUNInterface = none := hnone
  have hsilent : (c.received (pb.serializeToArray m) rest).output = [] := h.silent hnone
  have hwrites' : (c.received (pb.serializeToArray m) rest).tunWrites = [] := by
    rw [SLConnection.tunWrites_received, hwrites]
  have hpar :=
    (SLConnection.dispatch_frame pb o sys (c.received (pb.serializeToArray m) rest) m).2.2
  have hspec := SLConnection.dispatch_spec pb o sys (c.received (pb.serializeToArray m) rest) m
  generalize c.received (pb.serializeToArray m) rest = c₁ at *
  generalize c₁.dispatch pb o sys m = c' at hspec hpar ⊢
  have hparsed' : c'.parsed = [m].map (readAs pb) := hpar.trans hparsed
  cases hspec with
  | ignored hno => exact absurd hmsg.2 (hno hmsg.1).1
  | terminated | notCreated =>
    refine ⟨hparsed', fun _ => List.cons_ne_nil _ _, ?_, fun _ => hsilent, ?_⟩
    · rw [if_pos (by exact hnone'), ← hwrites']
      simp [SLConnection.tunWrites, SLConnection.halt, SLConnection.act,
        SLConnection.tunWriteCall]
    · simpa [SLConnection.halt, SLConnection.act] using hsafe
  | established =>
    refine ⟨hparsed', fun _ => List.cons_ne_nil _ _, ?_, fun hc => ?_, ?_⟩
    · rw [List.tail_cons, List.map_nil, ite_self, ← hwrites']
      simp [SLConnection.tunWrites, SLConnection.writePacket, SLConnection.setMUTUNInterface,
        SLConnection.act, SLConnection.tunWriteCall]
    · simp [SLConnection.writePacket, SLConnection.setMUTUNInterface, SLConnection.act] at hc
    · simpa [SLConnection.writePacket, SLConnection.setMUTUNInterface, SLConnection.act]
        using hsafe
  | calledNull ht hc => cases hmsg.2.symm.trans hc
  | dereferenced ht hc => cases hmsg.2.symm.trans hc
  | written ht hc => cases hmsg.2.symm.trans hc

/-- A later request is served: its packet is passed on. -/
private theorem HasServed.data (h : HasServed pb c done) (hm : m.Valid) (hmsg : m.IsRequest .data)
    (hutun : c.mUTUNInterface ≠ none) :
    HasServed pb ((c.received (pb.serializeToArray m) rest).dispatch pb o sys m) (done ++ [m]) := by
  have hutun' : (c.received (pb.serializeToArray m) rest).mUTUNInterface ≠ none := hutun
  obtain ⟨hparsed, hsafe⟩ := h.received hm rest
  rw [SLConnection.dispatch_of_data_some hmsg hutun']
  refine ⟨?_, fun _ => by simp, ?_, fun hnone => absurd hnone hutun, ?_⟩
  · rw [← hparsed]
    simp [SLConnection.parsed, SLConnection.act, SLConnection.parseCall]
  · rw [if_neg (by exact hutun), SLConnection.tunWrites_act_tunWrite,
      SLConnection.tunWrites_received, h.tunWrites, if_neg hutun,
      List.tail_append_of_ne_nil (h.created hutun), List.map_append]
    rfl
  · simpa [SLConnection.act] using hsafe

/-- The TUN thread passes on no packet. -/
theorem tunWrites_tunReadHandler (c : SLConnection) (heap : ℕ → UInt8) (packet : Bytes) :
    (c.tunReadHandler o heap packet).tunWrites = c.tunWrites := by
  simp [SLConnection.tunReadHandler, SLConnection.writePacket, SLConnection.act,
    SLConnection.tunWrites, SLConnection.tunWriteCall]

/-- The TUN thread changes nothing but the output. -/
private theorem HasServed.tunRead (h : HasServed pb c done) (hutun : c.mUTUNInterface ≠ none)
    (heap : ℕ → UInt8) (packet : Bytes) : HasServed pb (c.tunReadHandler o heap packet) done := by
  refine ⟨?_, h.created, ?_, fun hnone => absurd hnone hutun, ?_⟩
  · rw [← h.parsed]
    simp [SLConnection.tunReadHandler, SLConnection.writePacket, SLConnection.act,
      SLConnection.parsed, SLConnection.parseCall]
  · exact (tunWrites_tunReadHandler c heap packet).trans h.tunWrites
  · simpa [SLConnection.tunReadHandler, SLConnection.writePacket, SLConnection.act] using h.safe

end Server

/-! ### The steps -/

/-- Every request is valid. -/
private theorem Conversing.valid_requests (ht : Conversing pb o options t)
    (hvalid : (firstRequest options).Valid) {m : TunnelMessage} (hm : m ∈ t.requests options) :
    m.Valid := by
  rw [requests, List.mem_append] at hm
  rcases hm with hm | hm
  · split_ifs at hm
    · rw [List.mem_singleton.mp hm]
      exact hvalid
    · cases hm
  · obtain ⟨p, hp, rfl⟩ := List.mem_map.mp hm
    exact ht.valid p hp

/-- Before the connection is made, nothing has happened. -/
theorem Conversing.fresh (ht : Conversing pb o options t) (hconn : t.connected = false) :
    t.sent = [] ∧ t.client.output = [] ∧ t.arrivedUp = 0 ∧ t.server.mUTUNInterface = none := by
  have hsent : t.sent = [] := by
    by_contra hne
    exact absurd (ht.sent hne).1 (by simp [hconn])
  have hrequests : t.requests options = [] := by
    rw [requests, hsent, hconn]
    rfl
  have hout : t.client.output = [] := by
    rw [ht.output, hrequests]
    rfl
  have hup := ht.arrivedUp_le
  rw [hout, List.length_nil, Nat.le_zero] at hup
  obtain ⟨done, todo, hsplit, hserved, -⟩ := ht.served
  refine ⟨hsent, hout, hup, ?_⟩
  by_contra hne
  rw [hrequests] at hsplit
  exact hserved.created hne (List.append_eq_nil_iff.mp hsplit.symm).1

private theorem Conversing.connect (ht : Conversing pb o options t)
    (hvalid : (firstRequest options).Valid) (hconn : t.connected = false) :
    Conversing pb o options { t with
      client := t.client.cbBuffereventEvent pb o SLClient.bevEventConnected
      connected := true } := by
  obtain ⟨hsent, hout, hup, hnone⟩ := ht.fresh hconn
  obtain ⟨mOptions, hclient⟩ := connect_eq o hvalid (ht.mOptions hconn) hout
  rw [hclient]
  obtain ⟨done, todo, hsplit, hserved, hstream⟩ := ht.served
  rw [requests, hsent, hconn] at hsplit
  obtain ⟨rfl, rfl⟩ := List.append_eq_nil_iff.mp hsplit.symm
  refine ⟨fun hc => Bool.noConfusion hc, ?_, ?_, ht.valid, ⟨[], [firstRequest options], ?_, hserved,
    fun hfreed => ?_⟩, ht.established, fun hne => absurd hsent hne⟩
  · simp [requests, hsent]
  · exact hup ▸ Nat.zero_le _
  · simp [requests, hsent]
  · have hinput : t.server.input = [] := (List.append_eq_nil_iff.mp (hstream hfreed)).1
    simp [up, hinput, hup]

private theorem Conversing.deliverUp (ht : Conversing pb o options t)
    (hvalid : (firstRequest options).Valid) (hlive : t.ServerLive) {n : ℕ} {sys : SysCalls}
    (hn : n ≤ t.up.length) :
    Conversing pb o options { t with
      arrivedUp := t.arrivedUp + n
      server := t.server.receive pb o sys (t.up.take n) } := by
  have hle : t.arrivedUp + n ≤ t.client.output.length := by
    have := ht.arrivedUp_le
    rw [up, List.length_drop] at hn
    omega
  obtain ⟨done, todo, hsplit, hserved, hstream⟩ := ht.served
  have hbytes : t.server.input ++ t.up.take n ++ t.up.drop n =
      (hostLength o).stream (todo.map pb.serializeToArray) := by
    rw [List.append_assoc, List.take_append_drop]
    exact hstream hlive.1
  have hdrop : t.client.output.drop (t.arrivedUp + n) = t.up.drop n := by
    rw [up, List.drop_drop]
  rcases t.server.receive_spec pb o sys (t.up.take n) with
    ⟨-, hr⟩ | ⟨payload, rest, hnext, hr⟩
  · -- the bytes wait in the input buffer
    rw [hr]
    refine ⟨ht.mOptions, ht.output, hle, ht.valid, ⟨done, todo, hsplit, ?_, fun _ => ?_⟩,
      ht.established, ht.sent⟩
    · exact ⟨hserved.1, hserved.2, hserved.3, hserved.4, hserved.5⟩
    · exact (congrArg (t.server.input ++ t.up.take n ++ ·) hdrop).trans hbytes
  · have hmem : ∀ m ∈ todo, m.Valid := fun m hm =>
      ht.valid_requests hvalid (hsplit ▸ List.mem_append_right _ hm)
    have hfits : ∀ p ∈ todo.map pb.serializeToArray, (hostLength o).Fits p := by
      intro p hp
      obtain ⟨m, hm, rfl⟩ := List.mem_map.mp hp
      exact fits_serialize (hmem m hm)
    rcases LengthCode.next?_of_stream hfits hbytes with hnone | ⟨p, ps, b', hps, hsome, hrest⟩
    · rw [hnext] at hnone
      cases hnone
    · -- the frame that is complete is that of the first request to serve
      obtain ⟨rfl, rfl⟩ := Prod.mk.inj (Option.some.inj (hnext.symm.trans hsome))
      obtain ⟨m, todo, rfl, rfl, rfl⟩ := List.map_eq_cons_iff.mp hps
      have hm : m.Valid := hmem m (by simp)
      have hparse : (pb.parseFromArray (pb.serializeToArray m)
          (sizeArg (UInt32.ofNat (pb.serializeToArray m).length))).2 = m :=
        congrArg Prod.snd (parse_serialize_sizeArg hm)
      rw [hparse] at hr
      obtain ⟨hin, hfreed, -⟩ :=
        SLConnection.dispatch_frame pb o sys (t.server.received (pb.serializeToArray m) rest) m
      rw [← hr] at hin hfreed
      have hserved' : HasServed pb (t.server.receive pb o sys (t.up.take n)) (done ++ [m]) ∧
          (t.server.mUTUNInterface ≠ none →
            (t.server.receive pb o sys (t.up.take n)).mUTUNInterface ≠ none) := by
        rw [hr]
        by_cases hutun : t.server.mUTUNInterface = none
        · -- without an interface there is but one request
          have hsent : t.sent = [] := by
            by_contra hne
            exact (ht.sent hne).2 hutun
          have hone : t.requests options = if t.connected then [firstRequest options] else [] := by
            rw [requests, hsent, List.map_nil, List.append_nil]
          rw [hone] at hsplit
          split_ifs at hsplit
          · obtain ⟨rfl, hcons⟩ : done = [] ∧ m :: todo = [firstRequest options] := by
              cases done with
              | nil => exact ⟨rfl, hsplit.symm⟩
              | cons d done => simp at hsplit
            obtain ⟨rfl, -⟩ := List.cons.inj hcons
            exact ⟨hserved.establish hm ⟨rfl, rfl⟩, fun hne => absurd hutun hne⟩
          · simp at hsplit
        · -- every request behind the first one comes with a packet
          have hdata : m.IsRequest .data := by
            have hmem' : m ∈ t.sent.map dataRequest := by
              obtain ⟨d, done, rfl⟩ := List.exists_cons_of_ne_nil (hserved.created hutun)
              rw [requests] at hsplit
              split_ifs at hsplit
              · rw [List.singleton_append, List.cons_append] at hsplit
                rw [(List.cons.inj hsplit).2]
                simp
              · rw [List.nil_append] at hsplit
                rw [hsplit]
                simp
            obtain ⟨p, -, rfl⟩ := List.mem_map.mp hmem'
            exact ⟨rfl, rfl⟩
          refine ⟨hserved.data hm hdata hutun, fun _ => ?_⟩
          have hutun' : (t.server.received (pb.serializeToArray m) rest).mUTUNInterface ≠ none :=
            hutun
          rw [SLConnection.dispatch_of_data_some hdata hutun']
          exact hutun
      refine ⟨ht.mOptions, ht.output, hle, ht.valid, ⟨done ++ [m], todo,
        hsplit.trans (by simp), hserved'.1, fun _ => ?_⟩,
        fun hest => hserved'.2 (ht.established hest),
        fun hne => ⟨(ht.sent hne).1, hserved'.2 (ht.sent hne).2⟩⟩
      exact (congrArg₂ (· ++ ·) hin hdrop).trans hrest

/-- A callback of the client that leaves its output as it is. -/
private theorem Conversing.of_client (ht : Conversing pb o options t) {client : SLClient}
    (hout : client.output = t.client.output) (hopt : client.mOptions = t.client.mOptions)
    (hest : client.establishments ≠ [] → t.server.mUTUNInterface ≠ none) {failed : Bool} {n : ℕ} :
    Conversing pb o options { t with client := client, failed := failed, arrivedDown := n } := by
  obtain ⟨done, todo, hsplit, hserved, hstream⟩ := ht.served
  refine ⟨fun hconn => hopt.trans (ht.mOptions hconn), hout.trans ht.output,
    ht.arrivedUp_le.trans (le_of_eq (by rw [hout])), ht.valid,
    ⟨done, todo, hsplit, hserved, fun hfreed => ?_⟩, hest, ht.sent⟩
  rw [← hstream hfreed, up, up, hout]

private theorem Conversing.handshake (ht : Conversing pb o options t)
    (hvalid : (firstRequest options).Valid) {a : HandshakeAction} {h' : Handshake}
    (hstep : Stepped pb o o t.toHandshake a h') :
    Conversing pb o options { t with toHandshake := h' } := by
  cases hstep with
  | connect hconn => exact ht.connect hvalid hconn
  | deliverUp hlive hpos hn => exact ht.deliverUp hvalid hlive hn
  | @deliverDown n hlive hpos hn =>
    -- a byte from the server comes from a server with an interface
    have hutun : t.server.mUTUNInterface ≠ none := fun hnone => by
      obtain ⟨done, todo, -, hserved, -⟩ := ht.served
      rw [down, hserved.silent hnone, List.drop_nil, List.length_nil] at hn
      omega
    obtain ⟨hout, hopt⟩ := t.client.frame_receive pb o (t.down.take n)
    exact ht.of_client hout hopt fun _ => hutun
  | clientEvent hlive hflags =>
    obtain ⟨hout, hopt, hest⟩ := t.client.frame_event pb o hflags
    exact ht.of_client hout hopt fun hne => ht.established (hest ▸ hne)
  | serverEvent hconn hlive =>
    obtain ⟨done, todo, hsplit, hserved, -⟩ := ht.served
    exact ⟨ht.mOptions, ht.output, ht.arrivedUp_le, ht.valid, ⟨done, todo, hsplit,
      ⟨hserved.1, hserved.2, hserved.3, hserved.4, hserved.5⟩, fun hfreed =>
        Bool.noConfusion hfreed⟩, ht.established, ht.sent⟩
  | tunRead hlive hutun =>
    obtain ⟨done, todo, hsplit, hserved, hstream⟩ := ht.served
    exact ⟨ht.mOptions, ht.output, ht.arrivedUp_le, ht.valid, ⟨done, todo, hsplit,
      hserved.tunRead hutun _ _, hstream⟩, ht.established, ht.sent⟩

private theorem Conversing.handlePacket (ht : Conversing pb o options t)
    (hest : t.client.establishments ≠ []) (packets : List FlowPacket) :
    Conversing pb o options { t with
      client := t.client.handlePacket pb o packets
      sent := t.sent ++ packets.map FlowPacket.data } := by
  have hutun := ht.established hest
  have hconn : t.connected = true := by
    by_contra hconn
    exact hutun (ht.fresh (Bool.eq_false_of_not_eq_true hconn)).2.2.2
  have hnew : (SLClient.handlePacketAppends pb o packets).flatten =
      (hostLength o).stream
        (((packets.map FlowPacket.data).map dataRequest).map pb.serializeToArray) := by
    rw [SLClient.flatten_handlePacketAppends, List.map_map, List.map_map]
    rfl
  have hrequests : requests options { t with
      client := t.client.handlePacket pb o packets
      sent := t.sent ++ packets.map FlowPacket.data } =
        t.requests options ++ (packets.map FlowPacket.data).map dataRequest := by
    simp [requests]
  rw [SLClient.handlePacket_eq, hnew] at hrequests ⊢
  obtain ⟨done, todo, hsplit, hserved, hstream⟩ := ht.served
  refine ⟨fun hc => absurd hc (by simp [hconn]), ?_, ?_, ?_,
    ⟨done, todo ++ (packets.map FlowPacket.data).map dataRequest, ?_, hserved, fun hfreed => ?_⟩,
    fun _ => hutun, fun _ => ⟨hconn, hutun⟩⟩
  · rw [hrequests, List.map_append, LengthCode.stream_append, ht.output]
  · exact ht.arrivedUp_le.trans (by simp)
  · intro p hp
    rcases List.mem_append.mp hp with hp | hp
    · exact ht.valid p hp
    · obtain ⟨packet, -, rfl⟩ := List.mem_map.mp hp
      exact packet.valid
  · rw [hrequests, hsplit, List.append_assoc]
  · rw [List.map_append, LengthCode.stream_append, ← hstream hfreed, up, up,
      List.drop_append_of_le_length ht.arrivedUp_le, List.append_assoc]

/-- **One step** of the conversation. -/
theorem Conversing.next (ht : Conversing pb o options t) (hvalid : (firstRequest options).Valid)
    (hstep : t.step pb o a = some t') : Conversing pb o options t' := by
  obtain ⟨b, h', -, hh', rfl⟩ | ⟨packets, -, hest, rfl⟩ := step_cases hstep
  · exact ht.handshake hvalid hh'
  · exact ht.handlePacket hest packets

/-- **Every state of the conversation.** -/
theorem conversing_of_reachable (hvalid : (firstRequest options).Valid)
    (hreach : (conversation pb o options).Reachable t) : Conversing pb o options t := by
  refine hreach.invariant (I := Conversing pb o options) ?_ fun t a t' ht hstep =>
    ht.next hvalid hstep
  rintro t rfl
  exact ⟨fun _ => rfl, rfl, le_rfl, by simp, ⟨[], [], rfl,
    ⟨rfl, fun hne => absurd rfl hne, rfl, fun _ => rfl, by simp⟩, fun _ => rfl⟩,
    fun hne => absurd rfl hne, fun hne => absurd rfl hne⟩

/-! ### What the server has served -/

/-- **What waits.** Once there is an interface, the packets that have not been passed on are those
of the frames in the input buffer and under way. -/
theorem Conversing.waiting (ht : Conversing pb o options t)
    (hutun : t.server.mUTUNInterface ≠ none) :
    t.connected = true ∧ ∃ waiting, t.sent = t.server.tunWrites ++ waiting ∧
      (t.server.freed = false → t.server.input ++ t.up =
        (hostLength o).stream (waiting.map fun p => pb.serializeToArray (dataRequest p))) := by
  have hconn : t.connected = true := by
    by_contra hconn
    exact hutun (ht.fresh (Bool.eq_false_of_not_eq_true hconn)).2.2.2
  obtain ⟨done, todo, hsplit, hserved, hstream⟩ := ht.served
  obtain ⟨d, done, rfl⟩ := List.exists_cons_of_ne_nil (hserved.created hutun)
  rw [requests, if_pos hconn, List.singleton_append, List.cons_append] at hsplit
  obtain ⟨passed, waiting, hsent, rfl, rfl⟩ := List.map_eq_append_iff.mp (List.cons.inj hsplit).2
  have hdata : ((passed.map dataRequest).map packetData) = passed := by
    rw [List.map_map, show packetData ∘ dataRequest = id from rfl, List.map_id]
  refine ⟨hconn, waiting, ?_, fun hfreed => ?_⟩
  · rw [hserved.tunWrites, if_neg hutun, List.tail_cons, hdata, hsent]
  · rw [hstream hfreed, List.map_map]
    rfl

/-- **The client never breaks the server.** In every run of the conversation, whatever the system
calls return, however the bytes are cut and whatever the TUN thread writes: the server does not
dereference a null pointer, it has read a first part of the requests of the client, in order, and
passed on a first part of the packets, and the client has sent a packet only if there is an
interface. -/
theorem serves_prefix (hvalid : (firstRequest options).Valid)
    (hreach : (conversation pb o options).Reachable t) :
    .nullDeref ∉ t.server.trace ∧
      t.server.parsed <+: (firstRequest options :: t.sent.map dataRequest).map (readAs pb) ∧
      t.server.tunWrites <+: t.sent ∧ (t.sent ≠ [] → t.server.mUTUNInterface ≠ none) := by
  have ht := conversing_of_reachable hvalid hreach
  obtain ⟨done, todo, hsplit, hserved, -⟩ := ht.served
  refine ⟨hserved.safe, ?_, ?_, fun hne => (ht.sent hne).2⟩
  · rw [hserved.parsed]
    refine List.IsPrefix.map (readAs pb) ?_
    by_cases hconn : t.connected = true
    · rw [requests, if_pos hconn, List.singleton_append] at hsplit
      exact hsplit ▸ List.prefix_append done todo
    · rw [requests, if_neg hconn, (ht.fresh (Bool.eq_false_of_not_eq_true hconn)).1] at hsplit
      rw [(List.append_eq_nil_iff.mp hsplit.symm).1]
      exact List.nil_prefix
  · by_cases hutun : t.server.mUTUNInterface = none
    · rw [hserved.tunWrites, if_pos hutun]
      exact List.nil_prefix
    · obtain ⟨-, waiting, hsent, -⟩ := ht.waiting hutun
      exact hsent ▸ List.prefix_append _ _

theorem byteSize_dataRequest_byte (b : UInt8) : (dataRequest [b]).byteSize < 2 ^ 31 := by
  have hsame : (dataRequest [b]).byteSize = (dataRequest [0]).byteSize :=
    byteSize_setPacketData_congr _ rfl
  rw [hsame]
  decide

/-- A packet of one byte. -/
def bytePacket (b : UInt8) : FlowPacket := ⟨[b], byteSize_dataRequest_byte b⟩

/-- Two packets are handed over once the client is established, and `deliveries` are what becomes
of their requests. -/
def twoPackets (deliveries : List HandshakeAction) : List ConversationAction :=
  ([.connect, .deliverUp 20 .succeed, .deliverDown 68].map ConversationAction.handshake) ++
    [.handlePacket [bytePacket 0x45, bytePacket 0x46]] ++
      deliveries.map ConversationAction.handshake

/-- The second packet is on its way. -/
theorem serves_prefix_one_packet :
    ∃ t, (conversation wireFormat .little adminOptions).Reachable t ∧
      (t.server.tunWrites = [[0x45]] ∧ t.sent = [[0x45], [0x46]]) ∧
      .nullDeref ∉ t.server.trace ∧
        t.server.parsed <+:
          (firstRequest adminOptions :: t.sent.map dataRequest).map (readAs wireFormat) ∧
        t.server.tunWrites <+: t.sent ∧ (t.sent ≠ [] → t.server.mUTUNInterface ≠ none) := by
  have hrun : ((conversation wireFormat .little adminOptions).replay
      { client := .start adminOptions } (twoPackets [.deliverUp 11 .succeed])).map
        (fun t => (t.server.tunWrites, t.sent)) = some ([[0x45]], [[0x45], [0x46]]) := by
    decide +kernel
  obtain ⟨t, hreach, hlast⟩ := TransitionSystem.exists_reachable_of_replay
    (T := conversation wireFormat .little adminOptions) rfl hrun
  exact ⟨t, hreach, Prod.mk.inj hlast, serves_prefix valid_adminOptions hreach⟩

/-- The packets that are missing when all bytes have arrived. -/
private theorem exists_waiting (hvalid : (firstRequest options).Valid)
    (hreach : (conversation pb o options).Reachable t) (hutun : t.server.mUTUNInterface ≠ none)
    (hfreed : t.server.freed = false) (hup : t.up = []) :
    ∃ waiting, t.sent = t.server.tunWrites ++ waiting ∧
      (hostLength o).split t.server.input =
        (waiting.map fun p => pb.serializeToArray (dataRequest p), []) := by
  have ht := conversing_of_reachable hvalid hreach
  obtain ⟨-, waiting, heq, hstream⟩ := ht.waiting hutun
  refine ⟨waiting, heq, ?_⟩
  have hinput := hstream hfreed
  rw [hup, List.append_nil] at hinput
  rw [hinput, LengthCode.split_stream]
  intro payload hpayload
  obtain ⟨p, hp, rfl⟩ := List.mem_map.mp hpayload
  exact fits_serialize (ht.valid p (heq ▸ List.mem_append_right _ hp))

/-- **Nothing is lost.** When all that the client has written has arrived, the packets that the
server has not passed on are those of the complete frames in its input buffer, and there is
nothing else in it. -/
theorem missing_waits (hvalid : (firstRequest options).Valid)
    (hreach : (conversation pb o options).Reachable t) (hsent : t.sent ≠ [])
    (hfreed : t.server.freed = false) (hup : t.up = []) :
    ∃ waiting, t.sent = t.server.tunWrites ++ waiting ∧
      (hostLength o).split t.server.input =
        (waiting.map fun p => pb.serializeToArray (dataRequest p), []) :=
  exists_waiting hvalid hreach ((conversing_of_reachable hvalid hreach).sent hsent).2 hfreed hup

/-- Both requests arrive in one piece: the second packet waits. -/
theorem missing_waits_two_frames :
    ∃ t, (conversation wireFormat .little adminOptions).Reachable t ∧
      t.server.tunWrites = [[0x45]] ∧
      ∃ waiting, t.sent = t.server.tunWrites ++ waiting ∧
        (hostLength .little).split t.server.input =
          (waiting.map fun p => wireFormat.serializeToArray (dataRequest p), []) := by
  have hrun : ((conversation wireFormat .little adminOptions).replay
      { client := .start adminOptions } (twoPackets [.deliverUp 22 .succeed])).map
        (fun t => (t.server.tunWrites, t.sent, t.server.freed, t.up)) =
          some ([[0x45]], [[0x45], [0x46]], false, []) := by decide +kernel
  obtain ⟨t, hreach, hlast⟩ := TransitionSystem.exists_reachable_of_replay
    (T := conversation wireFormat .little adminOptions) rfl hrun
  simp only [Prod.mk.injEq] at hlast
  exact ⟨t, hreach, hlast.1, missing_waits valid_adminOptions hreach (by simp [hlast.2.1])
    hlast.2.2.1 hlast.2.2.2⟩

/-- The bytes that reach the server complete one frame at most. -/
def OneFrame (o : ByteOrder) (t : Conversation) : ConversationAction → Prop
  | .handshake (.deliverUp n _) =>
    ((hostLength o).split (t.server.input ++ t.up.take n)).1.length ≤ 1
  | _ => True

instance (o : ByteOrder) (t : Conversation) : DecidablePred (OneFrame o t)
  | .handshake (.deliverUp _ _) => inferInstanceAs (Decidable (_ ≤ _))
  | .handshake .connect | .handshake (.deliverDown _) | .handshake (.clientEvent _)
  | .handshake .serverEvent | .handshake (.tunRead _ _) | .handlePacket _ => .isTrue trivial

/-- The callback takes the frame, so that none is left. -/
private theorem nothing_left (hreach : (conversation pb o options).ReachableUnder (OneFrame o) t) :
    ((hostLength o).split t.server.input).1 = [] := by
  refine hreach.invariant (I := fun t => ((hostLength o).split t.server.input).1 = []) ?_
    fun t a t' ht hone hstep => ?_
  · rintro t rfl
    rfl
  · obtain ⟨b, h', rfl, hh', rfl⟩ | ⟨packets, -, -, rfl⟩ := step_cases hstep
    · cases hh' with
      | @deliverUp n sys hlive hpos hn =>
        change ((hostLength o).split (t.server.input ++ t.up.take n)).1.length ≤ 1 at hone
        rcases t.server.receive_frame pb o sys (t.up.take n) with
          ⟨hnone, hin, -⟩ | ⟨payload, rest, hsome, hin, -⟩
        · simp only
          rw [hin, LengthCode.split_of_next?_none hnone]
        · rw [LengthCode.split_of_next?_some hsome, List.length_cons] at hone
          simp only
          rw [hin]
          exact List.length_eq_zero_iff.mp (by omega)
      | connect => exact ht
      | deliverDown => exact ht
      | clientEvent => exact ht
      | serverEvent => rfl
      | tunRead => exact ht
    · exact ht

/-- **One frame at a time, everything arrives.** If no delivery completes more than one frame, all
packets have been passed on as soon as all bytes have arrived. -/
theorem nothing_missing (hvalid : (firstRequest options).Valid)
    (hreach : (conversation pb o options).ReachableUnder (OneFrame o) t)
    (hfreed : t.server.freed = false) (hup : t.up = []) : t.server.tunWrites = t.sent := by
  by_cases hutun : t.server.mUTUNInterface = none
  · have ht := conversing_of_reachable hvalid hreach.reachable
    have hsent : t.sent = [] := by
      by_contra hne
      exact (ht.sent hne).2 hutun
    obtain ⟨done, todo, -, hserved, -⟩ := ht.served
    rw [hserved.tunWrites, if_pos hutun, hsent]
  · obtain ⟨waiting, heq, hsplit⟩ := exists_waiting hvalid hreach.reachable hutun hfreed hup
    have hnone : waiting.map (fun p => pb.serializeToArray (dataRequest p)) = [] := by
      rw [← nothing_left hreach, hsplit]
    rw [heq, List.map_eq_nil_iff.mp hnone, List.append_nil]

/-- The two requests arrive one by one. -/
theorem nothing_missing_two_packets :
    ∃ t, (conversation wireFormat .little adminOptions).ReachableUnder (OneFrame .little) t ∧
      t.sent = [[0x45], [0x46]] ∧ t.server.tunWrites = t.sent := by
  have hrun : (((conversation wireFormat .little adminOptions).under (OneFrame .little)).replay
      { client := .start adminOptions }
      (twoPackets [.deliverUp 11 .succeed, .deliverUp 11 .succeed])).map
        (fun t => (t.sent, t.server.freed, t.up)) = some ([[0x45], [0x46]], false, []) := by
    decide +kernel
  obtain ⟨t, hreach, hlast⟩ := TransitionSystem.exists_reachable_of_replay
    (T := (conversation wireFormat .little adminOptions).under (OneFrame .little)) rfl hrun
  simp only [Prod.mk.injEq] at hlast
  have hunder := TransitionSystem.reachable_under hreach
  exact ⟨t, hunder, hlast.1,
    nothing_missing valid_adminOptions hunder hlast.2.1 hlast.2.2⟩

end Conversation

end SplendidLinker
