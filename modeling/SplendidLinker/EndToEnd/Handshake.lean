import SplendidLinker.Client.StartCompletion
import SplendidLinker.Client.TornReply
import SplendidLinker.EndToEnd.Uplink
import SplendidLinker.Server.EstablishResponse
import SplendidLinker.Server.Service

/-!
# The handshake

The client writes its `ESTABLISH` request when the connection is made; the server creates an
interface, starts its TUN thread and answers with the response that it makes of the request; the
client takes its addresses from the response. In between, TCP moves the bytes of both directions
in pieces of any length, in any order, either side may report an event, and once there is an
interface, the TUN thread may send what it reads.

The server is in one of three phases: it waits for the request (`Waits`), it has served it without
an answer (`Served`), or it has answered (`Answered`). So is the client: it has been told nothing
(`Untold`), both sides agree on the session (`Agreed`), or the client has refused the reply
(`Refused`). `Inv` is the invariant of the runs in which the TUN thread is quiet
(`quietHandshake`), and `Inv.next` says what one step makes of these phases. With a TUN frame on
the way nothing like it holds: its payload is whatever the heap held, so the client may take it
for anything. A frame of the TUN thread is written between two callbacks here; how the appends of
two writers mix is the subject of `Server.ConcurrentWrites`.
-/

namespace SplendidLinker

open Foundations TunnelMessage

/-! ### Both sides -/

/-- Both ends of a connection until they agree on a session. -/
structure Handshake where
  client : SLClient
  /-- `cb_bufferevent_event` has been called with `BEV_EVENT_CONNECTED`. -/
  connected : Bool := false
  /-- The client has been told that its connection has failed or is over. -/
  failed : Bool := false
  server : SLConnection := {}
  /-- How many bytes of the client's output have reached the server. -/
  arrivedUp : ℕ := 0
  /-- How many bytes of the server's output have reached the client. -/
  arrivedDown : ℕ := 0

/-- What can happen next. -/
inductive HandshakeAction
  /-- The connection is made. -/
  | connect
  /-- The next `n` bytes reach the server; `sys` is what the system calls return there. -/
  | deliverUp (n : ℕ) (sys : SysCalls)
  /-- The next `n` bytes reach the client. -/
  | deliverDown (n : ℕ)
  /-- An event is reported to the client. -/
  | clientEvent (flags : UInt16)
  /-- An event is reported to the server. -/
  | serverEvent
  /-- The TUN thread has read a packet, and `heap` is what the heap held. -/
  | tunRead (heap : ℕ → UInt8) (packet : Bytes)

namespace Handshake

/-- The bytes under way to the server. -/
def up (h : Handshake) : Bytes := h.client.output.drop h.arrivedUp

/-- The bytes under way to the client. -/
def down (h : Handshake) : Bytes := h.server.output.drop h.arrivedDown

/-- The client can run a callback. -/
def ClientLive (h : Handshake) : Prop := h.client.freed = false ∧ h.client.running = true

/-- The server can run a callback of the connection. -/
def ServerLive (h : Handshake) : Prop := h.server.freed = false ∧ h.server.running = true

instance (h : Handshake) : Decidable h.ClientLive := inferInstanceAs (Decidable (_ ∧ _))

instance (h : Handshake) : Decidable h.ServerLive := inferInstanceAs (Decidable (_ ∧ _))

/-- The flags tell of an error, a timeout or the end of the stream. -/
def tellsFailure (flags : UInt16) : Bool :=
  flags &&& (SLClient.bevEventEof ||| SLClient.bevEventError ||| SLClient.bevEventTimeout) ≠ 0

/-- One step of the handshake, if the client writes and reads a length in the byte order `oc`
and the server in `os`. What has been written counts as taken by TCP, which goes on to deliver it
when the bufferevent it was written to is freed or has reported an error. -/
def step (pb : Protobuf) (oc os : ByteOrder) (h : Handshake) : HandshakeAction → Option Handshake
  | .connect =>
    if h.connected then none
    else some { h with
      client := h.client.cbBuffereventEvent pb oc SLClient.bevEventConnected
      connected := true }
  | .deliverUp n sys =>
    if h.ServerLive ∧ 0 < n ∧ n ≤ h.up.length then
      some { h with
        arrivedUp := h.arrivedUp + n
        server := h.server.receive pb os sys (h.up.take n) }
    else none
  | .deliverDown n =>
    if h.ClientLive ∧ 0 < n ∧ n ≤ h.down.length then
      some { h with
        arrivedDown := h.arrivedDown + n
        client := h.client.receive pb oc (h.down.take n) }
    else none
  | .clientEvent flags =>
    -- the connection is made once
    if h.ClientLive ∧ flags ≠ SLClient.bevEventConnected then
      some { h with
        client := h.client.cbBuffereventEvent pb oc flags
        failed := h.failed || tellsFailure flags }
    else none
  | .serverEvent =>
    if h.connected ∧ h.ServerLive then some { h with server := h.server.cbEvent } else none
  | .tunRead heap packet =>
    if h.ServerLive ∧ h.server.mUTUNInterface ≠ none then
      some { h with server := h.server.tunReadHandler os heap packet }
    else none

/-- The TUN thread of the server sends nothing. -/
def Quiet (_ : Handshake) : HandshakeAction → Prop
  | .tunRead _ _ => False
  | _ => True

instance (h : Handshake) : DecidablePred (Quiet h)
  | .tunRead _ _ => .isFalse id
  | .connect | .deliverUp _ _ | .deliverDown _ | .clientEvent _ | .serverEvent => .isTrue trivial

end Handshake

/-- The handshake of a client that is about to connect. -/
def handshake (pb : Protobuf) (oc os : ByteOrder) (options : List (String × Bytes)) :
    TransitionSystem Handshake HandshakeAction where
  init h := h = { client := .start options }
  step := Handshake.step pb oc os

/-- The handshake as long as the TUN thread sends nothing. -/
def quietHandshake (pb : Protobuf) (oc os : ByteOrder) (options : List (String × Bytes)) :
    TransitionSystem Handshake HandshakeAction :=
  (handshake pb oc os options).under Handshake.Quiet

namespace Handshake

variable {pb : Protobuf} {oc os o : ByteOrder} {options : List (String × Bytes)}
  {h h' : Handshake} {a : HandshakeAction}

/-- What a step does, with the conditions under which it is taken. -/
inductive Stepped (pb : Protobuf) (oc os : ByteOrder) (h : Handshake) :
    HandshakeAction → Handshake → Prop
  | connect (hconn : h.connected = false) :
      Stepped pb oc os h .connect { h with
        client := h.client.cbBuffereventEvent pb oc SLClient.bevEventConnected
        connected := true }
  | deliverUp {n : ℕ} {sys : SysCalls} (hlive : h.ServerLive) (hpos : 0 < n)
      (hn : n ≤ h.up.length) :
      Stepped pb oc os h (.deliverUp n sys) { h with
        arrivedUp := h.arrivedUp + n
        server := h.server.receive pb os sys (h.up.take n) }
  | deliverDown {n : ℕ} (hlive : h.ClientLive) (hpos : 0 < n) (hn : n ≤ h.down.length) :
      Stepped pb oc os h (.deliverDown n) { h with
        arrivedDown := h.arrivedDown + n
        client := h.client.receive pb oc (h.down.take n) }
  | clientEvent {flags : UInt16} (hlive : h.ClientLive)
      (hflags : flags ≠ SLClient.bevEventConnected) :
      Stepped pb oc os h (.clientEvent flags) { h with
        client := h.client.cbBuffereventEvent pb oc flags
        failed := h.failed || tellsFailure flags }
  | serverEvent (hconn : h.connected = true) (hlive : h.ServerLive) :
      Stepped pb oc os h .serverEvent { h with server := h.server.cbEvent }
  | tunRead {heap : ℕ → UInt8} {packet : Bytes} (hlive : h.ServerLive)
      (hutun : h.server.mUTUNInterface ≠ none) :
      Stepped pb oc os h (.tunRead heap packet) { h with
        server := h.server.tunReadHandler os heap packet }

theorem stepped (hstep : h.step pb oc os a = some h') : Stepped pb oc os h a h' := by
  cases a with
  | connect =>
    rw [step] at hstep
    split_ifs at hstep with hconn
    obtain rfl := Option.some.inj hstep
    exact .connect (Bool.eq_false_of_not_eq_true hconn)
  | deliverUp n sys =>
    rw [step] at hstep
    split_ifs at hstep with hcond
    obtain rfl := Option.some.inj hstep
    exact .deliverUp hcond.1 hcond.2.1 hcond.2.2
  | deliverDown n =>
    rw [step] at hstep
    split_ifs at hstep with hcond
    obtain rfl := Option.some.inj hstep
    exact .deliverDown hcond.1 hcond.2.1 hcond.2.2
  | clientEvent flags =>
    rw [step] at hstep
    split_ifs at hstep with hcond
    obtain rfl := Option.some.inj hstep
    exact .clientEvent hcond.1 hcond.2
  | serverEvent =>
    rw [step] at hstep
    split_ifs at hstep with hcond
    obtain rfl := Option.some.inj hstep
    exact .serverEvent hcond.1 hcond.2
  | tunRead heap packet =>
    rw [step] at hstep
    split_ifs at hstep with hcond
    obtain rfl := Option.some.inj hstep
    exact .tunRead hcond.1 hcond.2

/-- A step that the TUN thread does not take is one of the quiet handshake. -/
theorem quiet_step (hquiet : h.Quiet a) (hstep : h.step pb oc os a = some h') :
    (quietHandshake pb oc os options).step h a = some h' :=
  (if_pos hquiet).trans hstep

/-- The request of the client. -/
def firstRequest (options : List (String × Bytes)) : TunnelMessage :=
  (SLClient.start options).establishRequest

/-- The reply of the server. -/
def reply (options : List (String × Bytes)) : TunnelMessage :=
  SLConnection.establishResponse (firstRequest options)

/-- The username and the password are UTF-8, and leave space for the rest of a reply. -/
structure Admissible (options : List (String × Bytes)) : Prop where
  valid : (firstRequest options).Valid
  size : (firstRequest options).byteSize + 71 < 2 ^ 31

/-- The options that the provider has. -/
theorem valid_adminOptions : (firstRequest adminOptions).Valid :=
  ⟨by decide +kernel, by decide +kernel⟩

theorem admissible_adminOptions : Admissible adminOptions :=
  ⟨valid_adminOptions, by decide +kernel⟩

/-- The reply to an admissible request is what the client expects. -/
private theorem Admissible.reply (hopt : Admissible options) :
    TunnelMessage.Reply (reply options) where
  valid := by
    refine ⟨utf8_establishResponse hopt.valid.utf8, ?_⟩
    have hsize := hopt.size
    have := byteSize_establishResponse_le (firstRequest options)
    rw [Handshake.reply]
    omega
  type := rfl
  messageCode := rfl
  passwordEncryptType := rfl
  linkEncryptType := rfl
  packet := rfl

/-- The server has not read the request yet. -/
structure Waits (h : Handshake) : Prop where
  parsed : h.server.parsed = []
  output : h.server.output = []
  mUTUNInterface : h.server.mUTUNInterface = none
  running : h.server.running = true
  input : h.server.freed = false → h.server.input = h.client.output.take h.arrivedUp
  arrivedUp_le : h.arrivedUp ≤ h.client.output.length

/-- The server has read the request, and nothing else. -/
structure Served (pb : Protobuf) (options : List (String × Bytes)) (h : Handshake) : Prop where
  connected : h.connected = true
  arrivedUp : h.arrivedUp = h.client.output.length
  parsed : h.server.parsed =
    [((pb.serializeToArray (firstRequest options)), ((firstRequest options).byteSize : ℤ))]
  input : h.server.freed = false → h.server.input = []

/-- The server has created an interface and written its reply. -/
structure Answered (pb : Protobuf) (o : ByteOrder) (options : List (String × Bytes))
    (h : Handshake) : Prop extends Served pb options h where
  mUTUNInterface : h.server.mUTUNInterface ≠ none
  output : h.server.output = (hostLength o).frame (pb.serializeToArray (reply options))

/-- The client has been told nothing yet. -/
structure Untold (h : Handshake) : Prop where
  ready : h.client.Ready
  input : h.client.input = []
  establishments : h.client.establishments = []
  addresses : h.client.addresses = ([], [], [], [])
  arrivedDown : h.arrivedDown = 0

/-- **The session is agreed on**: the server has read the request and created an interface; the
client has been called with the reply to this request, once, and has the addresses of the
server. -/
structure Agreed (pb : Protobuf) (o : ByteOrder) (options : List (String × Bytes))
    (h : Handshake) : Prop extends Answered pb o options h where
  ready : h.client.Ready
  input_client : h.client.input = []
  establishments : h.client.establishments = [reply options]
  addresses : h.client.addresses = (ascii "10.1.21.2", ascii "10.1.21.2", ascii "255.255.255.0",
    [ascii "8.8.8.8"])
  arrivedDown : h.arrivedDown = h.server.output.length

/-- **The reply is refused**: the client has reported an error and is not established. It has
freed its bufferevent, or one or two bytes of the reply are left. -/
structure Refused (pb : Protobuf) (o : ByteOrder) (options : List (String × Bytes))
    (h : Handshake) : Prop extends Answered pb o options h where
  refuses : h.client.Refuses
  input_client : h.client.input = []
  establishments : h.client.establishments = []
  addresses : h.client.addresses = ([], [], [], [])
  arrivedDown_pos : 0 < h.arrivedDown
  arrivedDown_le : h.arrivedDown ≤ h.server.output.length
  rest : h.client.freed = true ∨ h.client.Ready ∧ h.arrivedDown < h.server.output.length ∧
    h.server.output.length ≤ h.arrivedDown + 2

/-- What holds in every state of the handshake. -/
structure Inv (pb : Protobuf) (o : ByteOrder) (options : List (String × Bytes))
    (h : Handshake) : Prop where
  mOptions : h.connected = false → h.client.mOptions = options
  output : h.client.output =
    if h.connected then (hostLength o).frame (pb.serializeToArray (firstRequest options)) else []
  server : h.Waits ∧ (h.connected = true → h.arrivedUp < h.client.output.length) ∨
    h.Served pb options ∧ h.server.output = [] ∨ h.Answered pb o options
  client : h.Untold ∨ h.Agreed pb o options ∨ h.Refused pb o options

/-- The first bytes that reach the client are the whole reply. -/
def WholeReply (h : Handshake) : HandshakeAction → Prop
  | .deliverDown n => n = h.down.length
  | _ => True

/-- The interface is created without an error. -/
def Creates : HandshakeAction → Prop
  | .deliverUp _ sys => Uplink.Creates sys
  | _ => True

/-- What one step does to the phases of both sides. -/
structure Next (pb : Protobuf) (o : ByteOrder) (options : List (String × Bytes)) (h : Handshake)
    (a : HandshakeAction) (h' : Handshake) : Prop where
  inv : Inv pb o options h'
  /-- An agreement lasts. -/
  agreed : h.Agreed pb o options → h'.Agreed pb o options ∧ h.WholeReply a
  /-- A refusal lasts. -/
  refused : h.Refused pb o options → h'.Refused pb o options
  untold : h.Untold → (h'.Untold ∨ h'.Agreed pb o options) ∧ h.WholeReply a ∨
    h'.Refused pb o options ∧ ¬ h.WholeReply a
  created : Creates a → h.Waits ∨ h.Answered pb o options → h'.Waits ∨ h'.Answered pb o options

/-- Where nothing has been written to it, the client has been told nothing. -/
theorem Inv.untold (hinv : Inv pb o options h) (hout : h.server.output = []) : h.Untold := by
  have hne : ¬ h.Answered pb o options := fun hanswered => by
    have hlen := congrArg List.length (hout.symm.trans hanswered.output)
    rw [List.length_nil, LengthCode.length_frame, hostLength_width] at hlen
    omega
  rcases hinv.client with huntold | hagreed | hrefused
  · exact huntold
  · exact absurd hagreed.toAnswered hne
  · exact absurd hrefused.toAnswered hne

/-- Before the connection is made, the server has nothing to read. -/
theorem Inv.waits (hinv : Inv pb o options h) (hconn : h.connected = false) :
    h.Waits := by
  rcases hinv.server with hwaits | hserved | hanswered
  · exact hwaits.1
  · exact absurd hserved.1.connected (by simp [hconn])
  · exact absurd hanswered.connected (by simp [hconn])

/-- What the client becomes when the connection is made. -/
theorem connect_eq (oc : ByteOrder) (hvalid : (firstRequest options).Valid)
    (hopt : h.client.mOptions = options) (hout : h.client.output = []) :
    ∃ mOptions, h.client.cbBuffereventEvent pb oc SLClient.bevEventConnected =
      { h.client with
        mOptions := mOptions
        output := (hostLength oc).frame (pb.serializeToArray (firstRequest options)) } := by
  have hrequest : h.client.establishRequest = firstRequest options := by
    simp only [firstRequest, SLClient.establishRequest, SLClient.option, hopt, SLClient.start]
  obtain ⟨mOptions, hclient⟩ := SLClient.connected_spec (o := oc) (hrequest ▸ hvalid)
  rw [hout, hrequest, List.nil_append] at hclient
  exact ⟨mOptions, hclient⟩

/-- Nothing has arrived when the connection is made. -/
theorem Waits.connect (hwaits : h.Waits) (hout : h.client.output = []) {client : SLClient} :
    h.arrivedUp = 0 ∧ Waits { h with client := client, connected := true } := by
  have hup : h.arrivedUp = 0 := by
    have := hwaits.arrivedUp_le
    rw [hout] at this
    exact Nat.le_zero.mp this
  refine ⟨hup, hwaits.1, hwaits.2, hwaits.3, hwaits.4, fun hfreed => ?_, hup ▸ Nat.zero_le _⟩
  simpa [hup, hout] using hwaits.input hfreed

private theorem Inv.connect (hopt : Admissible options) (hinv : Inv pb o options h)
    (hconn : h.connected = false) :
    Next pb o options h .connect { h with
      client := h.client.cbBuffereventEvent pb o SLClient.bevEventConnected
      connected := true } := by
  have hwaits := hinv.waits hconn
  have hne : ¬ h.Answered pb o options := fun hanswered => by
    have := hanswered.connected
    rw [hconn] at this
    cases this
  have hout : h.client.output = [] := by rw [hinv.output, hconn]; rfl
  obtain ⟨mOptions, hclient⟩ := connect_eq o hopt.valid (hinv.mOptions hconn) hout
  obtain ⟨⟨h1, h2, h3, h4, h5⟩, hin, hest, haddr, hdown⟩ := hinv.untold hwaits.output
  rw [hclient]
  set h' : Handshake := { h with
    client := { h.client with
      mOptions := mOptions
      output := (hostLength o).frame (pb.serializeToArray (firstRequest options)) }
    connected := true } with hh'
  obtain ⟨hup, hwaits'⟩ : h.arrivedUp = 0 ∧ h'.Waits := hwaits.connect hout
  have huntold' : h'.Untold := ⟨⟨h1, h2, h3, h4, h5⟩, hin, hest, haddr, hdown⟩
  refine ⟨⟨fun hc => ?_, rfl, .inl ⟨hwaits', fun _ => ?_⟩, .inl huntold'⟩,
    fun hagreed => absurd hagreed.toAnswered hne, fun hrefused => absurd hrefused.toAnswered hne,
    fun _ => .inl ⟨.inl huntold', trivial⟩, fun _ _ => .inl hwaits'⟩
  · cases hc
  · simp [hh', hup]

/-- The server's buffer with the bytes that arrive is a first part of what the client wrote. -/
private theorem Waits.input_append (hwaits : h.Waits) (hlive : h.ServerLive) (n : ℕ) :
    h.server.input ++ h.up.take n = h.client.output.take (h.arrivedUp + n) := by
  rw [hwaits.input hlive.1, up, List.take_add]

/-- Bytes that complete no frame wait in the input buffer. -/
theorem Waits.arrive (hwaits : h.Waits) (hlive : h.ServerLive) {n : ℕ} {sys : SysCalls}
    (hn : n ≤ h.up.length)
    (hnext : (hostLength os).next? (h.client.output.take (h.arrivedUp + n)) = none) :
    Waits { h with
      arrivedUp := h.arrivedUp + n
      server := h.server.receive pb os sys (h.up.take n) } := by
  rw [← hwaits.input_append hlive] at hnext
  rcases h.server.receive_spec pb os sys (h.up.take n) with
    ⟨-, hr⟩ | ⟨payload, rest, hsome, -⟩
  · rw [hr]
    refine ⟨hwaits.1, hwaits.2, hwaits.3, hwaits.4, fun _ => hwaits.input_append hlive n, ?_⟩
    have := hwaits.arrivedUp_le
    rw [up, List.length_drop] at hn
    show h.arrivedUp + n ≤ h.client.output.length
    omega
  · rw [hnext] at hsome
    cases hsome

/-- The whole request is served: the reply is written exactly if the interface is created. -/
private theorem Waits.serve (hopt : Admissible options) (hwaits : h.Waits) (hlive : h.ServerLive)
    {n : ℕ} {sys : SysCalls} (hconn : h.connected = true)
    (hout : h.client.output = (hostLength o).frame (pb.serializeToArray (firstRequest options)))
    (hall : h.arrivedUp + n = h.client.output.length) :
    let h' : Handshake := { h with
      arrivedUp := h.arrivedUp + n
      server := h.server.receive pb o sys (h.up.take n) }
    h'.Served pb options ∧ h'.server.output = [] ∧ ¬ Uplink.Creates sys ∨
      h'.Answered pb o options := by
  intro h'
  have hfits : (hostLength o).Fits (pb.serializeToArray (firstRequest options)) :=
    fits_serialize hopt.valid
  have hinput : h.server.input ++ h.up.take n =
      (hostLength o).frame (pb.serializeToArray (firstRequest options)) ++ [] := by
    rw [hwaits.input_append hlive, hall, List.take_length, hout, List.append_nil]
  have hparse : (pb.parseFromArray (pb.serializeToArray (firstRequest options))
      (sizeArg (UInt32.ofNat (pb.serializeToArray (firstRequest options)).length))).2 =
        firstRequest options :=
    congrArg Prod.snd (parse_serialize_sizeArg hopt.valid)
  have hmsg : (firstRequest options).IsRequest .establish := ⟨rfl, rfl⟩
  have hserver : h'.server =
      (h.server.received (pb.serializeToArray (firstRequest options)) []).dispatch
      pb o sys (firstRequest options) := by
    rcases h.server.receive_spec pb o sys (h.up.take n) with
      ⟨hnone, -⟩ | ⟨payload, rest, hsome, hr⟩
    · rw [hinput, LengthCode.next?_frame_append hfits] at hnone
      cases hnone
    · rw [hinput, LengthCode.next?_frame_append hfits] at hsome
      obtain ⟨rfl, rfl⟩ := Prod.mk.inj (Option.some.inj hsome)
      rw [hparse] at hr
      exact hr
  have hsize : sizeArg (UInt32.ofNat (pb.serializeToArray (firstRequest options)).length) =
      ((firstRequest options).byteSize : ℤ) := by
    rw [pb.length_serialize _ hopt.valid, sizeArg_of_lt hopt.valid.size]
  obtain ⟨hin, -, hparsed⟩ := SLConnection.dispatch_frame pb o sys
    (h.server.received (pb.serializeToArray (firstRequest options)) []) (firstRequest options)
  have hserved : h'.Served pb options := by
    refine ⟨hconn, hall, ?_, fun _ => ?_⟩
    · rw [hserver, hparsed, SLConnection.parsed_received, hwaits.parsed, hsize]
      rfl
    · rw [hserver, hin]
      rfl
  by_cases hsys : Uplink.Creates sys
  · obtain ⟨r, hr, herr⟩ := Option.map_eq_some_iff.mp hsys
    rw [SLConnection.dispatch_of_establish hmsg hr herr] at hserver
    refine .inr ⟨hserved, ?_, ?_⟩
    · rw [hserver]
      simp [SLConnection.writePacket, SLConnection.act, SLConnection.setMUTUNInterface]
    · have hvalid : (SLConnection.establishResponse (firstRequest options)).Valid :=
        hopt.reply.valid
      have hframe := @flatten_writeFrame_serialize pb o _ hvalid
      have hwritten : h'.server.output = h.server.output ++ (hostLength o).frame
          (pb.serializeToArray (reply options)) := by
        rw [hserver]
        exact congrArg (h.server.output ++ ·) hframe
      rw [hwritten, hwaits.output, List.nil_append]
  · refine .inl ⟨hserved, ?_, hsys⟩
    have hfail : ¬ sys.AllSucceed := by
      rw [SysCalls.allSucceed_iff]
      rintro ⟨r, hr, herr⟩
      exact hsys (by rw [Uplink.Creates, hr, Option.map_some, herr])
    rw [hserver, (output_dispatch_establish hmsg).2 hfail]
    exact hwaits.output

private theorem Inv.deliverUp (hopt : Admissible options) (hinv : Inv pb o options h)
    (hlive : h.ServerLive) {n : ℕ} {sys : SysCalls} (hpos : 0 < n) (hn : n ≤ h.up.length) :
    Next pb o options h (.deliverUp n sys) { h with
      arrivedUp := h.arrivedUp + n
      server := h.server.receive pb o sys (h.up.take n) } := by
  have hlen : h.arrivedUp + n ≤ h.client.output.length := by
    rw [up, List.length_drop] at hn
    omega
  have hne : ¬ h.Served pb options := fun hserved => by
    have := hserved.arrivedUp
    omega
  have hconn : h.connected = true := by
    by_contra hconn
    have hout := hinv.output
    rw [if_neg hconn] at hout
    rw [hout, List.length_nil] at hlen
    omega
  have hout : h.client.output =
      (hostLength o).frame (pb.serializeToArray (firstRequest options)) := by
    rw [hinv.output, if_pos hconn]
  have hwaits : h.Waits := by
    rcases hinv.server with hwaits | hserved | hanswered
    · exact hwaits.1
    · exact absurd hserved.1 hne
    · exact absurd hanswered.toServed hne
  obtain ⟨hready, hin, hest, haddr, hdown⟩ := hinv.untold hwaits.output
  set h' : Handshake := { h with
    arrivedUp := h.arrivedUp + n
    server := h.server.receive pb o sys (h.up.take n) } with hh'
  have huntold' : h'.Untold := ⟨hready, hin, hest, haddr, hdown⟩
  -- the request is complete with these bytes, or it is not
  have hserver : (h'.Waits ∧ h'.arrivedUp < h'.client.output.length) ∨
      (h'.Served pb options ∧ h'.server.output = [] ∧ ¬ Uplink.Creates sys) ∨
        h'.Answered pb o options := by
    rcases hlen.lt_or_eq with hlt | hall
    · refine .inl ⟨hwaits.arrive hlive hn ?_, hlt⟩
      have hfits : (hostLength o).Fits (pb.serializeToArray (firstRequest options)) :=
        fits_serialize hopt.valid
      have hdrop : h.client.output.drop (h.arrivedUp + n) ≠ [] := by
        rw [Ne, List.drop_eq_nil_iff]
        omega
      exact LengthCode.next?_eq_none hfits ((List.take_append_drop _ _).trans hout) hdrop
    · exact .inr (hwaits.serve hopt hlive hconn hout hall)
  refine ⟨⟨hinv.mOptions, hinv.output, ?_, .inl huntold'⟩,
    fun hagreed => absurd hagreed.toServed hne, fun hrefused => absurd hrefused.toServed hne,
    fun _ => .inl ⟨.inl huntold', trivial⟩, fun hsys _ => ?_⟩
  · exact hserver.imp (fun hw => ⟨hw.1, fun _ => hw.2⟩) (Or.imp_left fun hs => ⟨hs.1, hs.2.1⟩)
  · rcases hserver with hw | hs | ha
    · exact .inl hw.1
    · exact absurd hsys hs.2.2
    · exact .inr ha

/-- A callback of the client leaves the server as it is, if it does not write. -/
private theorem Answered.of_client (hanswered : h.Answered pb o options) {client : SLClient}
    (hout : client.output = h.client.output) {failed : Bool} {n : ℕ} :
    Answered pb o options { h with client := client, failed := failed, arrivedDown := n } := by
  obtain ⟨⟨hconn, hup, hparsed, hin⟩, hutun, hreply⟩ := hanswered
  exact ⟨⟨hconn, hup.trans (congrArg _ hout.symm), hparsed, hin⟩, hutun, hreply⟩

/-- The length of the reply on its way. -/
theorem Answered.length_output (hopt : Admissible options) (hanswered : h.Answered pb o options) :
    h.server.output.length = 4 + (reply options).byteSize := by
  rw [hanswered.output, LengthCode.length_frame, hostLength_width,
    pb.length_serialize _ hopt.reply.valid]

/-- Once the server has answered, only the client goes on. -/
private theorem Answered.inv (hanswered : h.Answered pb o options)
    (hout : h.client.output =
      if h.connected then (hostLength o).frame (pb.serializeToArray (firstRequest options)) else [])
    (hclient : h.Untold ∨ h.Agreed pb o options ∨ h.Refused pb o options) : Inv pb o options h := by
  refine ⟨fun hconn => ?_, hout, .inr (.inr hanswered), hclient⟩
  have := hanswered.connected
  rw [hconn] at this
  cases this

private theorem Inv.deliverDown (hpb : pb.TellsTorn) (hopt : Admissible options)
    (hinv : Inv pb o options h) (hlive : h.ClientLive) {n : ℕ} (hpos : 0 < n)
    (hn : n ≤ h.down.length) :
    Next pb o options h (.deliverDown n) { h with
      arrivedDown := h.arrivedDown + n
      client := h.client.receive pb o (h.down.take n) } := by
  have hlen : h.arrivedDown + n ≤ h.server.output.length := by
    rw [down, List.length_drop] at hn
    omega
  have hanswered : h.Answered pb o options := by
    have hne : h.server.output ≠ [] := fun hnil => by
      rw [hnil, List.length_nil] at hlen
      omega
    rcases hinv.server with hwaits | hserved | hanswered
    · exact absurd hwaits.1.output hne
    · exact absurd hserved.2 hne
    · exact hanswered
  have hsize := hanswered.length_output hopt
  have hnot : ¬ h.Agreed pb o options := fun hagreed => by
    have := hagreed.arrivedDown
    omega
  -- a callback that keeps the addresses, and refuses
  have hrefused (hkeeps : SLClient.Refusing h.client (h.client.receive pb o
      (h.down.take n))) (hest : h.client.establishments = [])
      (haddr : h.client.addresses = ([], [], [], []))
      (hrest : (h.client.receive pb o (h.down.take n)).freed = true ∨
        (h.client.receive pb o (h.down.take n)).Ready ∧
          h.arrivedDown + n < h.server.output.length ∧
            h.server.output.length ≤ h.arrivedDown + n + 2) :
      Refused pb o options { h with
        arrivedDown := h.arrivedDown + n
        client := h.client.receive pb o (h.down.take n) } :=
    ⟨hanswered.of_client hkeeps.output, hkeeps.refuses, hkeeps.input,
      hkeeps.establishments.trans hest, hkeeps.addresses.trans haddr, Nat.add_pos_right _ hpos,
      hlen, hrest⟩
  rcases hinv.client with ⟨hready, hin, hest, haddr, hdown⟩ | hagreed | hrefusal
  · have hbytes : h.down = (hostLength o).frame (pb.serializeToArray (reply options)) := by
      rw [down, hdown, List.drop_zero, hanswered.output]
    by_cases hall : n = h.down.length
    · -- the whole reply
      have htold := @SLClient.told_of_whole pb _ o _ hready hin hopt.reply
      rw [← hbytes, ← List.take_length (l := h.down), ← hall] at htold
      have hdns : h.client.mDns = [] := congrArg (·.2.2.2) haddr
      have hagreed' : Agreed pb o options { h with
          arrivedDown := h.arrivedDown + n
          client := h.client.receive pb o (h.down.take n) } := by
        refine ⟨hanswered.of_client htold.output, htold.ready, htold.input, ?_, ?_, ?_⟩
        · rw [htold.establishments, hest, List.nil_append]
        · rw [htold.addresses, hdns]
          rfl
        · show h.arrivedDown + n = h.server.output.length
          rw [hall, hdown, down, hdown, List.drop_zero, Nat.zero_add]
      refine ⟨hagreed'.inv (htold.output.trans hinv.output) (.inr (.inl hagreed')),
        fun hagreed => absurd hagreed hnot, fun hrefused => ?_,
        fun _ => .inl ⟨.inr hagreed', hall⟩, fun _ _ => .inr hagreed'.toAnswered⟩
      have := hrefused.arrivedDown_pos
      omega
    · -- a part of it
      have hlt : n < 4 + (reply options).byteSize := by
        have : h.down.length = 4 + (reply options).byteSize := by
          rw [hbytes, ← hanswered.output, hsize]
        omega
      obtain ⟨hrefusing, hrest⟩ := SLClient.refusing_of_torn (o := o) hpb hready hin hopt.reply hlt
      rw [← hbytes] at hrefusing hrest
      have hrefused' := hrefused hrefusing hest haddr (hrest.imp_right fun hr =>
        ⟨hr.1, by omega, by omega⟩)
      exact ⟨hrefused'.inv (hrefusing.output.trans hinv.output) (.inr (.inr hrefused')),
        fun hagreed => absurd hagreed hnot, fun _ => hrefused', fun _ => .inr ⟨hrefused', hall⟩,
        fun _ _ => .inr hrefused'.toAnswered⟩
  · exact absurd hagreed hnot
  · -- what is left of a reply that has been refused
    rcases hrefusal.rest with hfreed | ⟨hready, hrest⟩
    · exact absurd (hlive.1.symm.trans hfreed) (by decide)
    · have hshort : (h.down.take n).length ≤ 4 := by
        rw [List.length_take]
        omega
      obtain ⟨hrefusing, hfreed⟩ := SLClient.refusing_of_short (o := o) hpb hready
        hrefusal.input_client hshort
      have hrefused' := hrefused hrefusing hrefusal.establishments hrefusal.addresses (.inl hfreed)
      refine ⟨hrefused'.inv (hrefusing.output.trans hinv.output) (.inr (.inr hrefused')),
        fun hagreed => absurd hagreed hnot, fun _ => hrefused', fun huntold => ?_,
        fun _ _ => .inr hrefused'.toAnswered⟩
      have := hrefusal.arrivedDown_pos
      rw [huntold.arrivedDown] at this
      cases this

private theorem Inv.clientEvent (hinv : Inv pb o options h) (hlive : h.ClientLive)
    {flags : UInt16} (hflags : flags ≠ SLClient.bevEventConnected) :
    Next pb o options h (.clientEvent flags) { h with
      client := h.client.cbBuffereventEvent pb o flags
      failed := h.failed || tellsFailure flags } := by
  have hready : h.client.Ready := by
    rcases hinv.client with huntold | hagreed | hrefused
    · exact huntold.ready
    · exact hagreed.ready
    · rcases hrefused.rest with hfreed | hrest
      · exact absurd (hlive.1.symm.trans hfreed) (by decide)
      · exact hrest.1
  obtain ⟨⟨hest, haddr, hout, hopt⟩, hready', hin, hrefuses⟩ :=
    SLClient.keeps_of_event (o := o) hready hflags
  set client := h.client.cbBuffereventEvent pb o flags
  set h' : Handshake := { h with client := client, failed := h.failed || tellsFailure flags }
  have huntold (hu : h.Untold) : h'.Untold :=
    ⟨hready', hin.trans hu.input, hest.trans hu.establishments, haddr.trans hu.addresses,
      hu.arrivedDown⟩
  have hagreed (ha : h.Agreed pb o options) : h'.Agreed pb o options :=
    ⟨ha.of_client hout, hready', hin.trans ha.input_client, hest.trans ha.establishments,
      haddr.trans ha.addresses, ha.arrivedDown⟩
  have hrefused (hr : h.Refused pb o options) : h'.Refused pb o options :=
    ⟨hr.of_client hout, hrefuses hr.refuses, hin.trans hr.input_client,
      hest.trans hr.establishments, haddr.trans hr.addresses, hr.arrivedDown_pos,
      hr.arrivedDown_le, hr.rest.elim (fun hf => absurd (hlive.1.symm.trans hf) (by decide))
        fun hrest => .inr ⟨hready', hrest.2⟩⟩
  have hwaits (hw : h.Waits) : h'.Waits :=
    ⟨hw.1, hw.2, hw.3, hw.4, fun hf => (hw.input hf).trans (by rw [hout]),
      hw.arrivedUp_le.trans (by rw [hout])⟩
  refine ⟨⟨fun hconn => hopt.trans (hinv.mOptions hconn), hout.trans hinv.output, ?_,
    hinv.client.imp huntold (Or.imp hagreed hrefused)⟩, fun ha => ⟨hagreed ha, trivial⟩, hrefused,
    fun hu => .inl ⟨.inl (huntold hu), trivial⟩,
    fun _ => Or.imp hwaits fun ha => ha.of_client hout⟩
  rcases hinv.server with ⟨hw, hlt⟩ | ⟨⟨hconn, hup, hparsed, hin⟩, hnil⟩ | ha
  · exact .inl ⟨hwaits hw, fun hconn => by rw [hout]; exact hlt hconn⟩
  · exact .inr (.inl ⟨⟨hconn, hup.trans (by rw [hout]), hparsed, hin⟩, hnil⟩)
  · exact .inr (.inr (ha.of_client hout))

private theorem Inv.serverEvent (hinv : Inv pb o options h) :
    Next pb o options h .serverEvent { h with server := h.server.cbEvent } := by
  have hserved (hs : h.Served pb options) :
      Served pb options { h with server := h.server.cbEvent } :=
    ⟨hs.connected, hs.arrivedUp, hs.parsed, fun _ => rfl⟩
  have hanswered (ha : h.Answered pb o options) :
      Answered pb o options { h with server := h.server.cbEvent } :=
    ⟨hserved ha.toServed, ha.mUTUNInterface, ha.output⟩
  have huntold (hu : h.Untold) : Untold { h with server := h.server.cbEvent } :=
    ⟨hu.ready, hu.input, hu.establishments, hu.addresses, hu.arrivedDown⟩
  have hagreed (ha : h.Agreed pb o options) :
      Agreed pb o options { h with server := h.server.cbEvent } :=
    ⟨hanswered ha.toAnswered, ha.ready, ha.input_client, ha.establishments, ha.addresses,
      ha.arrivedDown⟩
  have hrefused (hr : h.Refused pb o options) :
      Refused pb o options { h with server := h.server.cbEvent } :=
    ⟨hanswered hr.toAnswered, hr.refuses, hr.input_client, hr.establishments, hr.addresses,
      hr.arrivedDown_pos, hr.arrivedDown_le, hr.rest⟩
  have hwaits (hw : h.Waits) : Waits { h with server := h.server.cbEvent } :=
    ⟨hw.1, hw.2, hw.3, hw.4, fun hf => Bool.noConfusion hf, hw.arrivedUp_le⟩
  exact ⟨⟨hinv.mOptions, hinv.output, hinv.server.imp (And.imp_left hwaits)
    (Or.imp (And.imp_left hserved) hanswered), hinv.client.imp huntold (Or.imp hagreed hrefused)⟩,
    fun ha => ⟨hagreed ha, trivial⟩, hrefused, fun hu => .inl ⟨.inl (huntold hu), trivial⟩,
    fun _ => Or.imp hwaits hanswered⟩

/-- **One step** of a quiet handshake. -/
theorem Inv.next (hpb : pb.TellsTorn) (hopt : Admissible options) (hinv : Inv pb o options h)
    (hstep : (quietHandshake pb o o options).step h a = some h') : Next pb o options h a h' := by
  obtain ⟨hquiet, hstep⟩ := Option.ite_none_right_eq_some.mp hstep
  cases stepped hstep with
  | connect hconn => exact hinv.connect hopt hconn
  | deliverUp hlive hpos hn => exact hinv.deliverUp hopt hlive hpos hn
  | deliverDown hlive hpos hn => exact hinv.deliverDown hpb hopt hlive hpos hn
  | clientEvent hlive hflags => exact hinv.clientEvent hlive hflags
  | serverEvent hconn hlive => exact hinv.serverEvent
  | tunRead hlive hutun => exact hquiet.elim

/-- **Every state of a quiet handshake.** -/
theorem inv_of_reachable (hpb : pb.TellsTorn) (hopt : Admissible options)
    (h : (quietHandshake pb o o options).Reachable h') : Inv pb o options h' := by
  refine h.invariant (I := Inv pb o options) ?_ fun h a h' hinv hstep =>
    (hinv.next hpb hopt hstep).inv
  rintro h rfl
  exact ⟨fun _ => rfl, rfl, .inl ⟨⟨rfl, rfl, rfl, rfl, fun _ => rfl, le_rfl⟩,
    fun hconn => by cases hconn⟩, .inl ⟨⟨rfl, rfl, rfl, rfl, rfl⟩, rfl, rfl, rfl, rfl⟩⟩

end Handshake

end SplendidLinker
