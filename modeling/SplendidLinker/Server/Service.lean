import SplendidLinker.Message.AcceptedInput
import SplendidLinker.Server.EstablishResponse
import SplendidLinker.Server.Framing

/-!
# The service of a connection

What a connection does for its peer, without buffers, frames and encodings: `Service` is served
one message after the other, and remembers whether it is established, the replies it has given
and the packets it has passed on. A message comes with the outcome of the construction of an
interface, which is used if the message asks for one.

`link_refines_service` is the refinement, with any codec: in every state that a connection
reaches, whatever the bytes its peer sends and however they are cut, it stands where the service
stands after the messages parsed so far. A packet counts as passed on when `writePacket` of the
interface is called with it, whatever the system then does with the call. For a peer that sends
frames of valid messages the messages served are a first part of those it has sent
(`link_serves_sent`). `output_decodes` and `output_length_le` are what a peer can rely on, with a
codec that checks strings and does not make up bytes: the replies can be read back, and there are
at most sixteen bytes of them for each byte received.
-/

namespace SplendidLinker

open Foundations

/-! ### The abstract service -/

/-- How the construction of an interface ends. -/
inductive Construction
  /-- The process is terminated. -/
  | terminated
  /-- An error has been reported. -/
  | failed
  | succeeded
  deriving DecidableEq, Repr

/-- What a connection does for its peer. -/
structure Service where
  /-- An interface is installed. -/
  established : Bool := false
  replies : List TunnelMessage := []
  /-- The packets passed to the interface. -/
  packets : List Bytes := []
  alive : Bool := true
  deriving DecidableEq

namespace Service

/-- One message is served. A packet that comes before the service is established ends the process,
unless there is nothing in it. -/
def serve (a : Service) (msg : TunnelMessage) (construction : Construction) : Service :=
  if msg.IsRequest .establish then
    match construction with
    | .terminated => { a with alive := false }
    | .failed => a
    | .succeeded =>
      { a with
        established := true
        replies := a.replies ++ [SLConnection.establishResponse msg] }
  else if msg.IsRequest .data then
    if a.established then { a with packets := a.packets ++ [msg.packetData] }
    else if msg.packetData = [] then a
    else { a with alive := false }
  else a

/-- The service is used only after it has been established, and it is established by a reply. -/
structure Orderly (a : Service) : Prop where
  established : a.established = true ↔ a.replies ≠ []
  packets : a.packets ≠ [] → a.established = true

theorem Orderly.serve {a : Service} (h : a.Orderly) (msg : TunnelMessage) (c : Construction) :
    (a.serve msg c).Orderly := by
  rw [Service.serve.eq_def]
  split_ifs with hestablish hdata hest hempty
  · cases c with
    | terminated => exact ⟨h.established, h.packets⟩
    | failed => exact h
    | succeeded => exact ⟨by simp, fun _ => rfl⟩
  · exact ⟨h.established, fun _ => hest⟩
  · exact h
  · exact ⟨h.established, h.packets⟩
  · exact h

end Service

/-- The service that is used until it is not alive. -/
def service : TransitionSystem Service (TunnelMessage × Construction) where
  init a := a = {}
  step a l := if a.alive then some (a.serve l.1 l.2) else none

/-- **The order of a session.** No packet is passed on before a reply has been given. -/
theorem orderly_of_reachable {a : Service} (h : service.Reachable a) : a.Orderly := by
  refine h.invariant (I := Service.Orderly) ?_ fun a l a' ha hstep => ?_
  · rintro a rfl
    exact ⟨by simp, by simp⟩
  · rw [service, Option.ite_none_right_eq_some, Option.some.injEq] at hstep
    rw [← hstep.2]
    exact ha.serve l.1 l.2

/-- Every reply answers one of the messages. -/
theorem mem_replies_of_replay {inputs : List (TunnelMessage × Construction)} {a a' : Service}
    (h : service.replay a inputs = some a') {reply : TunnelMessage} (hr : reply ∈ a'.replies) :
    reply ∈ a.replies ∨ ∃ i ∈ inputs, i.1.IsRequest .establish ∧
      reply = SLConnection.establishResponse i.1 := by
  induction inputs generalizing a with
  | nil =>
    obtain rfl : a = a' := Option.some.inj h
    exact .inl hr
  | cons i inputs ih =>
    rw [TransitionSystem.replay, service] at h
    by_cases halive : a.alive = true
    · simp only [halive, if_true] at h
      rcases ih h with hmem | ⟨j, hj, hreply⟩
      · rw [Service.serve.eq_def] at hmem
        split_ifs at hmem with hestablish hdata hest hempty
        · split at hmem
          · exact .inl hmem
          · exact .inl hmem
          · rcases List.mem_append.mp hmem with hmem | hmem
            · exact .inl hmem
            · exact .inr ⟨i, by simp, hestablish, List.mem_singleton.mp hmem⟩
        all_goals exact .inl hmem
      · exact .inr ⟨j, by simp [hj], hreply⟩
    · simp [halive] at h

/-! ### The connection as a service -/

/-- How the constructor of the interface ends on the results `sys`. -/
def SysCalls.construction (sys : SysCalls) : Construction :=
  match SLUTUNInterface.construct sys with
  | none => .terminated
  | some r => if r.errs = [] then .succeeded else .failed

namespace SLConnection

variable {pb : Protobuf} {o : ByteOrder} {sys : SysCalls} {c : SLConnection} {a : Service}
  {msg : TunnelMessage}

/-- The messages parsed so far, as `ParseFromArray` has left them. -/
def messages (pb : Protobuf) (c : SLConnection) : List TunnelMessage :=
  c.parsed.map fun p => (pb.parseFromArray p.1 p.2).2

/-- The frame of a reply. -/
def replyFrame (pb : Protobuf) (o : ByteOrder) (reply : TunnelMessage) : Bytes :=
  (writeFrame o (pb.serializeToArray reply) (UInt32.ofNat reply.byteSize)).flatten

/-- The connection stands where the service stands. -/
structure Refines (pb : Protobuf) (o : ByteOrder) (c : SLConnection) (a : Service) : Prop where
  established : a.established = true ↔ c.mUTUNInterface ≠ none
  output : c.output = a.replies.flatMap (replyFrame pb o)
  packets : c.tunWrites = a.packets
  alive : c.running = a.alive

/-- **One message.** Dispatching it is serving it. -/
theorem Refines.dispatch (h : Refines pb o c a) (sys : SysCalls) (msg : TunnelMessage) :
    Refines pb o (c.dispatch pb o sys msg) (a.serve msg sys.construction) := by
  have hcons : (r : Constructed) → SLUTUNInterface.construct sys = some r →
      sys.construction = if r.errs = [] then .succeeded else .failed := fun r hr => by
    rw [SysCalls.construction, hr]
  have hestablish (ht : msg.type = .known .request) (hc : msg.messageCode = .known .establish) :
      msg.IsRequest .establish := ⟨ht, hc⟩
  have hdata (ht : msg.type = .known .request) (hc : msg.messageCode = .known .data) :
      ¬ msg.IsRequest .establish ∧ msg.IsRequest .data := by
    refine ⟨fun he => ?_, ht, hc⟩
    cases hc.symm.trans he.2
  have hspec := dispatch_spec pb o sys c msg
  generalize c.dispatch pb o sys msg = c' at hspec ⊢
  rw [Service.serve.eq_def]
  cases hspec with
  | ignored hno =>
    rw [if_neg fun he => (hno he.1).1 he.2, if_neg fun hd => (hno hd.1).2 hd.2]
    exact h
  | terminated ht hc hs =>
    rw [if_pos (hestablish ht hc), SysCalls.construction, hs]
    refine ⟨h.established, h.output, ?_, rfl⟩
    rw [← h.packets]
    simp [tunWrites, halt, act, tunWriteCall]
  | notCreated ht hc r hs herr =>
    rw [if_pos (hestablish ht hc), hcons r hs, if_neg herr]
    refine ⟨h.established, h.output, ?_, h.alive⟩
    rw [← h.packets]
    simp [tunWrites, act, tunWriteCall]
  | established ht hc r hs herr =>
    rw [if_pos (hestablish ht hc), hcons r hs, if_pos herr]
    refine ⟨by simp [writePacket, act, setMUTUNInterface], ?_, ?_, h.alive⟩
    · simp only [List.flatMap_append, List.flatMap_singleton, ← h.output]
      rfl
    · rw [← h.packets]
      simp [tunWrites, writePacket, act, setMUTUNInterface, tunWriteCall]
  | calledNull ht hc hu hempty =>
    have hest : ¬ a.established = true := fun he => h.established.mp he hu
    rw [if_neg (hdata ht hc).1, if_pos (hdata ht hc).2, if_neg hest, if_pos hempty]
    refine ⟨h.established, h.output, ?_, h.alive⟩
    rw [← h.packets]
    simp [tunWrites, act, tunWriteCall]
  | dereferenced ht hc hu hempty =>
    have hest : ¬ a.established = true := fun he => h.established.mp he hu
    rw [if_neg (hdata ht hc).1, if_pos (hdata ht hc).2, if_neg hest, if_neg hempty]
    refine ⟨h.established, h.output, ?_, rfl⟩
    rw [← h.packets]
    simp [tunWrites, halt, act, tunWriteCall]
  | written ht hc utun hu =>
    have hest : a.established = true := h.established.mpr (by simp [hu])
    rw [if_neg (hdata ht hc).1, if_pos (hdata ht hc).2, if_pos hest]
    refine ⟨h.established, h.output, ?_, h.alive⟩
    rw [tunWrites_act_tunWrite, h.packets]

end SLConnection

namespace Link

variable {pb : Protobuf} {o : ByteOrder} {chunks : List Bytes}

/-- **A connection is a service of the messages it parses**, for any implementation of protobuf. If
the callbacks only run where the constructions end as `P` says, the service only uses such. -/
theorem refines_service_under {G : Link → LinkAction → Prop} {P : Construction → Prop}
    (hG : ∀ s sys, G s (.deliver sys) → P sys.construction) {s : Link}
    (h : (link pb o chunks).ReachableUnder G s) :
    ∃ inputs a, inputs.map Prod.fst = s.conn.messages pb ∧ (∀ i ∈ inputs, P i.2) ∧
      service.replay {} inputs = some a ∧ SLConnection.Refines pb o s.conn a := by
  refine h.invariant (I := fun s => ∃ inputs a, inputs.map Prod.fst = s.conn.messages pb ∧
    (∀ i ∈ inputs, P i.2) ∧ service.replay {} inputs = some a ∧
      SLConnection.Refines pb o s.conn a) ?_ fun s l s' hs hguard hstep => ?_
  · rintro s rfl
    exact ⟨[], {}, rfl, by simp, rfl, by simp, rfl, rfl, rfl⟩
  · obtain ⟨inputs, a, hinputs, hP, hreplay, href⟩ := hs
    obtain ⟨⟨-, hrun⟩, ⟨sys, chunk, pending, rfl, -, rfl⟩ | ⟨rfl, rfl⟩⟩ := step_cases hstep
    · rcases s.conn.receive_spec pb o sys chunk with ⟨-, hr⟩ | ⟨payload, rest, -, hr⟩
      · rw [hr]
        exact ⟨inputs, a, hinputs, hP, hreplay, href.1, href.2, href.3, href.4⟩
      · -- the frame that is complete is served
        have halive : a.alive = true := href.alive.symm.trans hrun
        have hrec : SLConnection.Refines pb o (s.conn.received payload rest) a :=
          ⟨href.established, href.output, by rw [SLConnection.tunWrites_received, href.packets],
            href.alive⟩
        rw [hr]
        set msg := (pb.parseFromArray payload (sizeArg (UInt32.ofNat payload.length))).2
        refine ⟨inputs ++ [(msg, sys.construction)], a.serve msg sys.construction, ?_, ?_,
          TransitionSystem.replay_concat hreplay (if_pos halive), hrec.dispatch sys msg⟩
        · rw [List.map_append, hinputs, SLConnection.messages, SLConnection.messages,
            (SLConnection.dispatch_frame pb o sys _ _).2.2, SLConnection.parsed_received,
            List.map_append]
          rfl
        · intro i hi
          rcases List.mem_append.mp hi with hi | hi
          · exact hP i hi
          · rw [List.mem_singleton.mp hi]
            exact hG s sys hguard
    · exact ⟨inputs, a, hinputs, hP, hreplay, href.1, href.2, href.3, href.4⟩

theorem refines_service {s : Link} (h : (link pb o chunks).Reachable s) :
    ∃ inputs a, inputs.map Prod.fst = s.conn.messages pb ∧ service.replay {} inputs = some a ∧
      SLConnection.Refines pb o s.conn a := by
  obtain ⟨inputs, a, hinputs, -, hreplay, href⟩ :=
    refines_service_under (P := fun _ => True) (fun _ _ _ => trivial) h
  exact ⟨inputs, a, hinputs, hreplay, href⟩

/-- The size that comes with a payload is its length, as an `int`. -/
theorem size_of_mem_parsed {s : Link} (h : (link pb o chunks).Reachable s) :
    ∀ p ∈ s.conn.parsed, p.2 = sizeArg (UInt32.ofNat p.1.length) := by
  refine h.invariant
    (I := fun s => ∀ p ∈ s.conn.parsed, p.2 = sizeArg (UInt32.ofNat p.1.length)) ?_
    fun s l s' hs hstep => ?_
  · rintro s rfl p hp
    cases hp
  · obtain ⟨-, ⟨sys, chunk, pending, rfl, -, rfl⟩ | ⟨rfl, rfl⟩⟩ := step_cases hstep
    · rcases s.conn.receive_frame pb o sys chunk with ⟨-, -, hpar⟩ | ⟨payload, rest, -, -, hpar⟩
      · rwa [hpar]
      · rw [hpar]
        intro p hp
        rcases List.mem_append.mp hp with hp | hp
        · exact hs p hp
        · rw [List.mem_singleton.mp hp]
    · exact hs

end Link

/-! ### The sizes of the replies -/

open TunnelMessage WireFormat

/-- A reply is at most fifty bytes larger than its request. -/
theorem inputSize_establishResponse_le (msg : TunnelMessage) :
    (SLConnection.establishResponse msg).inputSize ≤ msg.inputSize + 50 := by
  have haddress : stringFieldSize (ascii "10.1.21.2") = 11 := by decide
  have hmask : stringFieldSize (ascii "255.255.255.0") = 15 := by decide
  have hdns : stringSize (ascii "8.8.8.8") = 8 := by decide
  have htype : enumInputSize (OpenEnum.known MessageType.response).number = 2 := by decide
  have hcode : enumInputSize (OpenEnum.known MessageCode.establish).number = 2 := by decide
  simp only [inputSize, SLConnection.establishResponse, List.length_append, List.map_append,
    List.sum_append, List.length_singleton, List.map_singleton, List.sum_singleton, haddress,
    hmask, hdns, htype, hcode]
  omega

/-- The reply is written with at most fifty bytes more than the request. -/
theorem byteSize_establishResponse_le (msg : TunnelMessage) :
    (SLConnection.establishResponse msg).byteSize ≤ msg.byteSize + 50 := by
  have haddress : stringFieldSize (ascii "10.1.21.2") = 11 := by decide
  have hmask : stringFieldSize (ascii "255.255.255.0") = 15 := by decide
  have hdns : stringSize (ascii "8.8.8.8") = 8 := by decide
  have htype : enumFieldSize (OpenEnum.known MessageType.response).number = 2 := by decide
  have hcode : enumFieldSize (OpenEnum.known MessageCode.establish).number = 2 := by decide
  simp only [byteSize, SLConnection.establishResponse, List.length_append, List.map_append,
    List.sum_append, List.length_singleton, List.map_singleton, List.sum_singleton, haddress,
    hmask, hdns, htype, hcode]
  omega

/-- What the server adds to a request is UTF-8. -/
theorem utf8_establishResponse {msg : TunnelMessage} (h : msg.Utf8) :
    (SLConnection.establishResponse msg).Utf8 := by
  intro s hs
  simp only [Utf8, strings, SLConnection.establishResponse, List.mem_append, List.mem_cons,
    List.not_mem_nil, or_false] at h hs
  rcases hs with (rfl | rfl | rfl | rfl | rfl) | hs | rfl
  · exact h _ (by simp)
  · exact h _ (by simp)
  · decide
  · decide
  · decide
  · exact h s (by simp [hs])
  · decide

section Replies

variable {pb : Protobuf} {o : ByteOrder} {data : Bytes}

/-- The reply to a request that was read from `data`, whether or not the parser has accepted
it. -/
theorem byteSize_reply_le (hpb : pb.ReadsNoMore) (hlen : data.length < 2 ^ 31) :
    (SLConnection.establishResponse (pb.parseFromArray data data.length).2).byteSize ≤
      data.length + 75 := by
  have h1 := hpb hlen
  have h2 := inputSize_establishResponse_le (pb.parseFromArray data data.length).2
  have h3 : (SLConnection.establishResponse
      (pb.parseFromArray data data.length).2).inputSize < 2 ^ 35 := by omega
  have := byteSize_le_inputSize h3
  omega

/-- The reply to an accepted request can be encoded and read back. -/
theorem valid_reply (hutf8 : pb.ChecksUtf8) (hsize : pb.ReadsNoMore) {msg : TunnelMessage}
    (h : pb.parseFromArray data data.length = (true, msg)) (hlen : data.length + 75 < 2 ^ 31) :
    (SLConnection.establishResponse msg).Valid where
  utf8 := utf8_establishResponse (hutf8 h)
  size := by
    have hle := byteSize_reply_le hsize (by omega : data.length < 2 ^ 31)
    simp only [h] at hle
    omega

/-- The frame of a reply is complete, if its size fits into the header. -/
theorem replyFrame_eq {reply : TunnelMessage} (hpb : pb.WritesByteSize)
    (h : reply.byteSize < 2 ^ 32) :
    SLConnection.replyFrame pb o reply = (hostLength o).frame (pb.serializeToArray reply) := by
  refine flatten_writeFrame o ?_
  rw [UInt32.toNat_ofNat', Nat.mod_eq_of_lt h]
  exact (hpb reply).symm

end Replies

namespace Link

variable {pb : Protobuf} {o : ByteOrder} {chunks : List Bytes}

/-- **The refinement.** In every state that a connection reaches, whatever bytes its peer sends
and however they are cut, and whatever the system calls return, it stands where the abstract
service stands after the messages it has parsed, one after the other: it has written the replies,
passed on the packets, and ended the process exactly if the service is not alive. -/
theorem link_refines_service {s : Link} (h : (link pb o chunks).Reachable s) :
    ∃ inputs a, inputs.map Prod.fst = s.conn.messages pb ∧
      service.replay {} inputs = some a ∧ a.Orderly ∧
      s.conn.output = a.replies.flatMap (SLConnection.replyFrame pb o) ∧
      s.conn.tunWrites = a.packets ∧ s.conn.running = a.alive ∧
      (s.conn.mUTUNInterface ≠ none ↔ a.established = true) := by
  obtain ⟨inputs, a, hinputs, hreplay, href⟩ := refines_service h
  exact ⟨inputs, a, hinputs, hreplay,
    orderly_of_reachable (TransitionSystem.reachable_of_replay rfl hreplay),
    href.output, href.packets, href.alive, href.established.symm⟩

/-- An `ESTABLISH` request and a `DATA` request, in one chunk each. -/
private theorem twoRequests_reachable :
    (link wireFormat .little [establishFrame, dataFrame]).Reachable
      ⟨[establishFrame, dataFrame].foldl (SLConnection.receive wireFormat .little .succeed) {},
        establishFrame ++ dataFrame, []⟩ :=
  reachable_deliver .succeed (reachable_deliver .succeed (.init rfl) (by decide)) (by decide)

/-- The two requests are served: one reply, one packet. -/
theorem link_refines_service_two_requests :
    let conn :=
      [establishFrame, dataFrame].foldl (SLConnection.receive wireFormat .little .succeed) {}
    conn.tunWrites = [[0x45]] ∧
    ∃ inputs a, inputs.map Prod.fst = conn.messages wireFormat ∧
      service.replay {} inputs = some a ∧ a.Orderly ∧
      conn.output = a.replies.flatMap (SLConnection.replyFrame wireFormat .little) ∧
      conn.tunWrites = a.packets ∧ conn.running = a.alive ∧
      (conn.mUTUNInterface ≠ none ↔ a.established = true) :=
  ⟨by decide, link_refines_service twoRequests_reachable⟩

/-! ### What the peer has sent -/

/-- The messages that a connection has parsed are a first part of those that were sent, and the
frames of the others are in the input buffer and under way. -/
theorem messages_of_sent {ms : List TunnelMessage} (hms : ∀ m ∈ ms, m.Valid)
    (hcut : chunks.flatten = (hostLength o).stream (ms.map pb.serializeToArray)) {s : Link}
    (h : (link pb o chunks).Reachable s) :
    ∃ rest, ms = s.conn.messages pb ++ rest ∧ (s.conn.freed = false →
      s.conn.input ++ s.pending.flatten =
        (hostLength o).stream (rest.map pb.serializeToArray)) := by
  have hlen : ∀ p ∈ ms.map pb.serializeToArray, p.length < 2 ^ 31 := by
    intro p hp
    obtain ⟨m, hm, rfl⟩ := List.mem_map.mp hp
    rw [pb.length_serialize m (hms m hm)]
    exact (hms m hm).size
  have hinStep : InStep o (ms.map pb.serializeToArray) s := by
    refine h.invariant (I := InStep o (ms.map pb.serializeToArray)) ?_ fun s l s' hs hstep =>
      hs.next hlen hstep
    rintro s rfl
    exact ⟨[], ms.map pb.serializeToArray, rfl, rfl, fun _ => hcut⟩
  obtain ⟨payloads, todo, hsplit, hparsed, hstream⟩ := hinStep
  obtain ⟨served, rest, rfl, rfl, rfl⟩ := List.map_eq_append_iff.mp hsplit
  have hread : ∀ m ∈ served, (pb.parseFromArray (pb.serializeToArray m)
      (pb.serializeToArray m).length).2 = m :=
    fun m hm => congrArg Prod.snd (parse_serialize_length (hms m (by simp [hm])))
  have hserved : s.conn.messages pb = served := by
    rw [SLConnection.messages, hparsed, List.map_map, List.map_map]
    exact (List.map_congr_left hread).trans (List.map_id served)
  exact ⟨rest, by rw [hserved], hstream⟩

/-- **The service of what was sent.** If the peer sends the frames of valid messages, cut in any
way, the messages that have been served are a first part of those that were sent, whatever the
system calls return, and what is written is the stream of the replies; and they are all of them
once everything has arrived and no complete frame waits. -/
theorem link_serves_sent (hpb : pb.WritesByteSize) {ms : List TunnelMessage}
    (hms : ∀ m ∈ ms, m.Valid)
    (hcut : chunks.flatten = (hostLength o).stream (ms.map pb.serializeToArray)) {s : Link}
    (h : (link pb o chunks).Reachable s) :
    ∃ inputs a, inputs.map Prod.fst <+: ms ∧ service.replay {} inputs = some a ∧
      s.conn.output = (hostLength o).stream (a.replies.map pb.serializeToArray) ∧
      s.conn.tunWrites = a.packets ∧ s.conn.running = a.alive ∧
      (s.pending = [] → s.conn.freed = false → (hostLength o).next? s.conn.input = none →
        inputs.map Prod.fst = ms) := by
  obtain ⟨inputs, a, hinputs, hreplay, href⟩ := refines_service h
  obtain ⟨rest, rfl, hstream⟩ := messages_of_sent hms hcut h
  have hframe : ∀ reply ∈ a.replies, SLConnection.replyFrame pb o reply =
      (hostLength o).frame (pb.serializeToArray reply) := by
    intro reply hr
    rcases mem_replies_of_replay hreplay hr with hnil | ⟨i, hi, -, rfl⟩
    · cases hnil
    · have hmem : i.1 ∈ s.conn.messages pb := hinputs ▸ List.mem_map_of_mem hi
      have hsize := (hms i.1 (List.mem_append_left _ hmem)).size
      have hle := byteSize_establishResponse_le i.1
      exact replyFrame_eq hpb (by omega)
  refine ⟨inputs, a, hinputs ▸ List.prefix_append _ _, hreplay, ?_, href.packets, href.alive,
    fun hpending hfreed hnone => ?_⟩
  · rw [href.output, List.flatMap_congr hframe, LengthCode.stream, List.flatMap_map]
  · have hinput := hstream hfreed
    rw [hpending, List.flatten_nil, List.append_nil] at hinput
    cases rest with
    | nil => rw [hinputs, List.append_nil]
    | cons m rest =>
      have hfits : (hostLength o).Fits (pb.serializeToArray m) := fits_serialize (hms m (by simp))
      rw [hinput, List.map_cons, LengthCode.stream_cons,
        LengthCode.next?_frame_append hfits] at hnone
      cases hnone

/-- The two requests, again: both are served. -/
theorem link_serves_sent_two_requests :
    let conn :=
      [establishFrame, dataFrame].foldl (SLConnection.receive wireFormat .little .succeed) {}
    let ms := [{ messageCode := .known .establish },
      setPacketData { messageCode := .known .data } [0x45]]
    ∃ inputs a, inputs.map Prod.fst <+: ms ∧ service.replay {} inputs = some a ∧
      conn.output = (hostLength .little).stream (a.replies.map wireFormat.serializeToArray) ∧
      conn.tunWrites = a.packets ∧ conn.running = a.alive ∧
      (([] : List Bytes) = [] → conn.freed = false → (hostLength .little).next? conn.input = none →
        inputs.map Prod.fst = ms) :=
  link_serves_sent (writesByteSize_generated lawful_listStream) (by
    simp only [List.forall_mem_cons]
    exact ⟨⟨by decide, by decide⟩, ⟨by decide, by decide⟩, by simp⟩) (by decide)
    twoRequests_reachable

/-! ### What the peer can rely on -/

/-- **The replies can be read back.** If the parser has accepted the requests, and they are not
too long, the bytes that the connection has written split into complete frames, and each payload
is read back as the response it was made of. -/
theorem output_decodes (hutf8 : pb.ChecksUtf8) (hsize : pb.ReadsNoMore) {s : Link}
    (h : (link pb o chunks).Reachable s)
    (haccepted : ∀ p ∈ s.conn.parsed,
      (pb.parseFromArray p.1 p.2).1 = true ∧ p.1.length + 75 < 2 ^ 31) :
    ∃ replies : List TunnelMessage,
      (hostLength o).split s.conn.output = (replies.map pb.serializeToArray, []) ∧
        ∀ reply ∈ replies, pb.parseFromArray (pb.serializeToArray reply)
            (pb.serializeToArray reply).length = (true, reply) ∧
          reply.type = .known .response ∧ reply.messageCode = .known .establish ∧
            reply.ip = ascii "10.1.21.2" := by
  obtain ⟨inputs, a, hinputs, hreplay, href⟩ := refines_service h
  have hreply : ∀ reply ∈ a.replies, reply.Valid ∧ ∃ msg, reply =
      SLConnection.establishResponse msg := by
    intro reply hr
    rcases mem_replies_of_replay hreplay hr with hnil | ⟨i, hi, -, rfl⟩
    · cases hnil
    · have hmem : i.1 ∈ s.conn.messages pb := hinputs ▸ List.mem_map_of_mem hi
      obtain ⟨p, hp, heq⟩ := List.mem_map.mp hmem
      obtain ⟨hok, hlen⟩ := haccepted p hp
      have hp2 := size_of_mem_parsed h p hp
      rw [sizeArg_of_lt (by omega)] at hp2
      rw [hp2] at hok heq
      exact ⟨valid_reply hutf8 hsize (Prod.ext hok heq) hlen, _, rfl⟩
  have hframe : ∀ reply ∈ a.replies, SLConnection.replyFrame pb o reply =
      (hostLength o).frame (pb.serializeToArray reply) := fun reply hr =>
    flatten_writeFrame_serialize (hreply reply hr).1
  refine ⟨a.replies, ?_, fun reply hr => ?_⟩
  · have hout : s.conn.output = (hostLength o).stream (a.replies.map pb.serializeToArray) := by
      rw [href.output, List.flatMap_congr hframe, LengthCode.stream, List.flatMap_map]
    rw [hout, LengthCode.split_stream]
    intro payload hpayload
    obtain ⟨reply, hr, rfl⟩ := List.mem_map.mp hpayload
    exact fits_serialize (hreply reply hr).1
  · obtain ⟨hvalid, msg, rfl⟩ := hreply reply hr
    exact ⟨parse_serialize_length hvalid, rfl, rfl, rfl⟩

/-- The reply to the first of the two requests. -/
theorem output_decodes_two_requests :
    let conn :=
      [establishFrame, dataFrame].foldl (SLConnection.receive wireFormat .little .succeed) {}
    ∃ replies : List TunnelMessage,
      (hostLength .little).split conn.output = (replies.map wireFormat.serializeToArray, []) ∧
        ∀ reply ∈ replies, wireFormat.parseFromArray (wireFormat.serializeToArray reply)
            (wireFormat.serializeToArray reply).length = (true, reply) ∧
          reply.type = .known .response ∧ reply.messageCode = .known .establish ∧
            reply.ip = ascii "10.1.21.2" :=
  output_decodes (checksUtf8_generated lawful_listStream) (readsNoMore_generated lawful_listStream)
    twoRequests_reachable (by decide)

/-- What a dispatch adds to the output, against the bytes that were taken off the input. -/
private theorem output_dispatch_le (hpb : pb.ReadsNoMore) (o : ByteOrder) (sys : SysCalls)
    (c : SLConnection) {payload : Bytes} (hlen : payload.length < 2 ^ 31) :
    (c.dispatch pb o sys (pb.parseFromArray payload payload.length).2).output.length ≤
      c.output.length + 16 * (4 + payload.length) := by
  have hle := byteSize_reply_le hpb hlen
  have hparse := hpb hlen
  generalize (pb.parseFromArray payload payload.length).2 = msg at hle hparse ⊢
  have hspec := SLConnection.dispatch_spec pb o sys c msg
  generalize c.dispatch pb o sys msg = c' at hspec ⊢
  cases hspec with
  | established ht hc r hs herr =>
    -- a request with this code is not empty
    have hpos : 0 < payload.length := by
      have hcode : enumInputSize msg.messageCode.number = 2 := by
        rw [hc]
        decide
      rw [inputSize] at hparse
      omega
    have hheader : (UInt32.ofNat (SLConnection.establishResponse msg).byteSize).toNat ≤
        (SLConnection.establishResponse msg).byteSize := by
      rw [UInt32.toNat_ofNat']
      exact Nat.mod_le _ _
    simp only [SLConnection.writePacket, SLConnection.act, SLConnection.setMUTUNInterface,
      writeFrame, List.flatten_cons, List.flatten_nil, List.append_nil, List.length_append,
      ByteOrder.length_toBytes, List.length_take]
    omega
  | _ => exact Nat.le_add_right _ _

/-- **No amplification.** Whatever its peer sends and however the bytes are cut, a connection
writes at most sixteen bytes for each byte that has arrived, as long as no payload has 2 GiB. -/
theorem output_length_le (hpb : pb.ReadsNoMore) {s : Link} (h : (link pb o chunks).Reachable s)
    (hlen : ∀ p ∈ s.conn.parsed, p.1.length < 2 ^ 31) :
    s.conn.output.length ≤ 16 * s.arrived.length := by
  have hinv : (∀ p ∈ s.conn.parsed, p.1.length < 2 ^ 31) →
      s.conn.output.length + 16 * s.conn.input.length ≤ 16 * s.arrived.length := by
    clear hlen
    refine h.invariant (I := fun s => (∀ p ∈ s.conn.parsed, p.1.length < 2 ^ 31) →
      s.conn.output.length + 16 * s.conn.input.length ≤ 16 * s.arrived.length) ?_
      fun s l s' hs hstep hlen => ?_
    · rintro s rfl -
      exact le_rfl
    · obtain ⟨-, ⟨sys, chunk, pending, rfl, -, rfl⟩ | ⟨rfl, rfl⟩⟩ := step_cases hstep
      · rcases s.conn.receive_spec pb o sys chunk with ⟨-, hr⟩ | ⟨payload, rest, hnext, hr⟩
        · rw [hr] at hlen ⊢
          have := hs hlen
          simp only [SLConnection.arrive, List.length_append]
          omega
        · -- the frame is taken off the input, and at most sixteen times its length is written
          obtain ⟨header, hheader, -, hbytes⟩ := LengthCode.next?_eq_some hnext
          have hlength := congrArg List.length hbytes
          simp only [List.length_append, hheader, hostLength_width] at hlength
          obtain ⟨hin, -, hpar⟩ := SLConnection.dispatch_frame pb o sys
            (s.conn.received payload rest)
            (pb.parseFromArray payload (sizeArg (UInt32.ofNat payload.length))).2
          simp only [hr] at hlen ⊢
          rw [hpar, SLConnection.parsed_received] at hlen
          have hbefore := hs fun p hp => hlen p (List.mem_append_left _ hp)
          have hpayload : payload.length < 2 ^ 31 :=
            hlen (payload, _) (List.mem_append_right _ (List.mem_singleton.mpr rfl))
          have hout := output_dispatch_le hpb o sys (s.conn.received payload rest) hpayload
          rw [hin, sizeArg_of_lt hpayload]
          have hsame : (s.conn.received payload rest).output = s.conn.output := rfl
          have hrest : (s.conn.received payload rest).input = rest := rfl
          rw [hsame] at hout
          rw [hrest, List.length_append]
          omega
      · have hempty : s.conn.cbEvent.input = [] := rfl
        have hbefore := hs hlen
        simp only [SLConnection.cbEvent, List.length_nil]
        omega
  have := hinv hlen
  omega

/-- The two requests: 17 bytes arrive, and the frame of a reply, of 54 bytes, is written. -/
theorem output_length_le_two_requests :
    ([establishFrame, dataFrame].foldl
        (SLConnection.receive wireFormat .little .succeed) {}).output.length = 54 ∧
      ([establishFrame, dataFrame].foldl
        (SLConnection.receive wireFormat .little .succeed) {}).output.length ≤
          16 * (establishFrame ++ dataFrame).length :=
  ⟨by decide, output_length_le (readsNoMore_generated lawful_listStream) twoRequests_reachable
    (by decide)⟩

end Link

end SplendidLinker
