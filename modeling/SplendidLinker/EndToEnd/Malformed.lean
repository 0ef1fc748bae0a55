import SplendidLinker.Client.Framing
import SplendidLinker.Server.Connection

/-!
# Malformed payloads

Neither read callback looks at the result of `ParseFromArray`. When parsing fails, the message
holds the fields that were read before the error, and it is dispatched like any other.

For each host this module says which effects a payload that fails to parse must not have
(`ServerUnaffected`, `ClientUnaffected`) and which partial messages do not have them in the
code (`ServerIgnores`, `ClientIgnores`); `malformed_unaffected_iff` shows that the two agree,
in every state in which a callback can run.
-/

namespace SplendidLinker

open Foundations

variable {pb : Protobuf} {o : ByteOrder} {sys : SysCalls} {p rest : Bytes}

/-! ### The server -/

/-- The interfaces the constructor has returned. -/
def SLConnection.created (c : SLConnection) : List SLUTUNInterface :=
  c.trace.filterMap fun
    | .create utun _ => some utun
    | _ => none

/-- Between `c` and `c'` nothing has happened but that the input has become `rest`. -/
structure ServerUnaffected (c c' : SLConnection) (rest : Bytes) : Prop where
  input : c'.input = rest
  /-- No interface is created, and none is installed. -/
  created : c'.created = c.created
  mUTUNInterface : c'.mUTUNInterface = c.mUTUNInterface
  /-- Nothing is written to the utun socket. -/
  utun : c'.tunWrites.flatten = c.tunWrites.flatten
  /-- No response is sent. -/
  output : c'.output = c.output
  /-- The connection lives on. -/
  freed : c'.freed = c.freed
  running : c'.running = c.running
  /-- Nothing is called through the null pointer. -/
  nullDeref : c'.trace.count .nullDeref = c.trace.count .nullDeref

/-- The partial messages that have no effect on the server: they are neither an `ESTABLISH`
request, nor a `DATA` request, unless that has no data and finds an interface. -/
def ServerIgnores (c : SLConnection) (msg : TunnelMessage) : Prop :=
  ¬ msg.IsRequest .establish ∧
    (msg.IsRequest .data → c.mUTUNInterface ≠ none ∧ msg.packetData = [])

/-- Parsing a frame has no effect but on the input. -/
private theorem serverUnaffected_received (c : SLConnection) (p rest : Bytes) :
    ServerUnaffected c (c.received p rest) rest where
  input := rfl
  created := by simp [SLConnection.created, SLConnection.received, SLConnection.act]
  mUTUNInterface := rfl
  utun := by rw [SLConnection.tunWrites_received]
  output := rfl
  freed := rfl
  running := rfl
  nullDeref := by simp [SLConnection.received, SLConnection.act]

/-- Dispatching a message leaves the server unaffected exactly if it is ignored. -/
private theorem serverUnaffected_iff {c : SLConnection} (hrun : c.running = true)
    (msg : TunnelMessage) :
    ServerUnaffected c ((c.received p rest).dispatch pb o sys msg) rest ↔ ServerIgnores c msg := by
  have hrec := serverUnaffected_received c p rest
  have hout := SLConnection.dispatch_spec pb o sys (c.received p rest) msg
  generalize (c.received p rest).dispatch pb o sys msg = c' at hout ⊢
  cases hout with
  | ignored h =>
    exact iff_of_true hrec ⟨fun he => (h he.1).1 he.2, fun hd => absurd hd.2 (h hd.1).2⟩
  | terminated ht hc hs =>
    exact iff_of_false (fun h => by simpa [SLConnection.halt, hrun] using h.running)
      fun h => h.1 ⟨ht, hc⟩
  | notCreated ht hc r hs herr =>
    refine iff_of_false (fun h => ?_) fun h => h.1 ⟨ht, hc⟩
    simpa [SLConnection.created, SLConnection.received, SLConnection.act] using h.created
  | established ht hc r hs herr =>
    refine iff_of_false (fun h => ?_) fun h => h.1 ⟨ht, hc⟩
    simpa [SLConnection.created, SLConnection.received, SLConnection.act,
      SLConnection.setMUTUNInterface, SLConnection.writePacket] using h.created
  | calledNull ht hc hu =>
    refine iff_of_false (fun h => ?_) fun h => (h.2 ⟨ht, hc⟩).1 hu
    have hcount := h.nullDeref.trans hrec.nullDeref.symm
    simp [SLConnection.act] at hcount
  | dereferenced ht hc hu =>
    refine iff_of_false (fun h => by simpa [SLConnection.halt, hrun] using h.running) fun h => ?_
    exact (h.2 ⟨ht, hc⟩).1 hu
  | written ht hc utun hu =>
    have hwrites : ((c.received p rest).act (.tunWrite msg.packetData)).tunWrites.flatten =
        c.tunWrites.flatten ++ msg.packetData := by
      simp
    constructor
    · intro h
      refine ⟨fun he => ?_, fun _ => ⟨fun hnone => ?_, ?_⟩⟩
      · rw [he.2] at hc
        cases hc
      · have hnone' : (c.received p rest).mUTUNInterface = none := hnone
        rw [hu] at hnone'
        cases hnone'
      · simpa [hwrites] using h.utun
    · intro h
      refine ⟨rfl, ?_, rfl, ?_, rfl, rfl, rfl, ?_⟩
      · rw [← hrec.created]
        simp [SLConnection.created, SLConnection.act]
      · rw [hwrites, (h.2 ⟨ht, hc⟩).2, List.append_nil]
      · rw [← hrec.nullDeref]
        simp [SLConnection.act]

/-! ### The client -/

/-- The calls of the establish and the read-packet callback. -/
def SLClient.deliveries (c : SLClient) : List ClientAction :=
  c.trace.filter fun
    | .establishCallback _ _ => true
    | .readPacketCallback _ _ => true
    | _ => false

/-- Between `c` and `c'` no address member has changed, and neither the establish nor the
read-packet callback has been invoked. -/
structure ClientUnaffected (c c' : SLClient) : Prop where
  mIp : c'.mIp = c.mIp
  mGateway : c'.mGateway = c.mGateway
  mSubmask : c'.mSubmask = c.mSubmask
  mDns : c'.mDns = c.mDns
  deliveries : c'.deliveries = c.deliveries

/-- The partial messages that have none of these effects on the client: they are neither an
`ESTABLISH` nor a `DATA` response. -/
def ClientIgnores (msg : TunnelMessage) : Prop :=
  msg.type = .known .response →
    msg.messageCode ≠ .known .establish ∧ msg.messageCode ≠ .known .data

/-- Other actions are no deliveries. -/
private theorem ClientUnaffected.act {c c₁ : SLClient} (h : ClientUnaffected c c₁)
    {a : ClientAction}
    (ha : ∀ msg ctx, a ≠ .establishCallback msg ctx ∧ a ≠ .readPacketCallback msg ctx) :
    ClientUnaffected c (c₁.act a) := by
  refine ⟨h.mIp, h.mGateway, h.mSubmask, h.mDns, ?_⟩
  rw [← h.deliveries]
  cases a <;> simp [SLClient.deliveries, SLClient.act] at ha ⊢

/-- A delivery is an effect. -/
private theorem not_clientUnaffected_of_delivery {c c₁ c₂ : SLClient} (h : ClientUnaffected c c₁)
    {a : ClientAction} (hc₂ : c₂.trace = c₁.trace ++ [a])
    (ha : ∃ msg ctx, a = .establishCallback msg ctx ∨ a = .readPacketCallback msg ctx) :
    ¬ ClientUnaffected c c₂ := by
  intro h₂
  have hlen : c₂.deliveries = c₁.deliveries := h₂.deliveries.trans h.deliveries.symm
  obtain ⟨msg, ctx, rfl | rfl⟩ := ha <;> simp [SLClient.deliveries, hc₂] at hlen

/-- Dispatching a message leaves the client unaffected exactly if it is ignored. -/
private theorem clientUnaffected_iff {c c₁ : SLClient} (hready : c₁.Ready)
    (hc : ClientUnaffected c c₁) (msg : TunnelMessage) :
    ClientUnaffected c (c₁.dispatch msg) ↔ ClientIgnores msg := by
  have herror (status : TunnelStatus) (ctx : CallbackContext) :
      c₁.callError status ctx = c₁.act (.errorCallback status ctx) := if_pos hready.mErrorCallback
  by_cases ht : msg.type = .known .response
  · rw [SLClient.dispatch, if_neg (not_not.mpr ht)]
    split
    case h_1 he =>
      refine iff_of_false ?_ fun h => (h ht).1 he
      rw [SLClient.call, if_pos hready.mEstablishCallback]
      exact not_clientUnaffected_of_delivery hc rfl ⟨_, _, .inl rfl⟩
    case h_2 ha =>
      rw [herror]
      exact iff_of_true (hc.act (by simp)) fun _ => by simp [ha]
    case h_3 hb =>
      rw [herror]
      exact iff_of_true (hc.act (by simp)) fun _ => by simp [hb]
    case h_4 hd =>
      refine iff_of_false ?_ fun h => (h ht).2 hd
      rw [SLClient.call, if_pos hready.mReadPacketCallback]
      exact not_clientUnaffected_of_delivery hc rfl ⟨_, _, .inr rfl⟩
    case h_5 he _ _ hd =>
      rw [herror]
      exact iff_of_true (hc.act (by simp)) fun _ => ⟨he, hd⟩
  · rw [SLClient.dispatch, if_pos ht, herror]
    refine iff_of_true ?_ fun h => absurd h ht
    have hrun : (c₁.act (.errorCallback .establishError .message)).running = true := hready.running
    simp only [hrun, if_true]
    have hfree := (hc.act (a := .errorCallback .establishError .message) (by simp)).act
      (a := .bufferEventFree) (by simp)
    exact ⟨hfree.mIp, hfree.mGateway, hfree.mSubmask, hfree.mDns, hfree.deliveries⟩

/-- Dispatching a message leaves the client its bufferevent exactly if it is a response. -/
private theorem freed_dispatch_iff {c : SLClient} (hready : c.Ready) (msg : TunnelMessage) :
    (c.dispatch msg).freed = c.freed ↔ msg.type = .known .response := by
  by_cases ht : msg.type = .known .response
  · exact iff_of_true ((hready.dispatch ht).1.freed.trans hready.freed.symm) ht
  · refine iff_of_false (fun h => ?_) ht
    have herror : c.callError .establishError .message =
        c.act (.errorCallback .establishError .message) := if_pos hready.mErrorCallback
    have hrun : (c.act (.errorCallback .establishError .message)).running = true := hready.running
    rw [SLClient.dispatch, if_pos ht, herror] at h
    simp only [hrun, if_true] at h
    exact Bool.noConfusion (h.trans hready.freed)

/-! ### Both hosts -/

/-- **A payload that fails to parse has no effect exactly if the partial message is ignored**,
in every state in which the read callback runs on a complete frame with such a payload. The
client moreover keeps its connection exactly if the partial message is a response. -/
theorem malformed_unaffected_iff (pb : Protobuf) (o : ByteOrder) (sys : SysCalls)
    {p : Bytes} (hp : p.length < 2 ^ 32) {msg : TunnelMessage}
    (hparse : pb.parseFromArray p (sizeArg (UInt32.ofNat p.length)) = (false, msg))
    {c : SLConnection} (hc : c.running = true) {d : SLClient} (hd : d.Ready) (rest : Bytes)
    (hcin : c.input = (hostLength o).frame p ++ rest)
    (hdin : d.input = (hostLength o).frame p ++ rest) :
    (ServerUnaffected c (c.cbBuffereventWillRead pb o sys) rest ↔ ServerIgnores c msg) ∧
      (ClientUnaffected d (d.cbBuffereventWillRead pb o) ↔ ClientIgnores msg) ∧
      ((d.cbBuffereventWillRead pb o).freed = d.freed ↔ msg.type = .known .response) := by
  constructor
  · have hnext : (hostLength o).next? c.input = some (p, rest) := by
      rw [hcin]
      exact LengthCode.next?_frame_append (hostLength_fits.mpr hp) rest
    rw [SLConnection.cbBuffereventWillRead_of_some hnext, hparse]
    exact serverUnaffected_iff hc msg
  · have hread : readFrame o d.input = (p, rest) := by
      rw [hdin]
      exact readFrame_frame_append hp rest
    rw [SLClient.cbBuffereventWillRead_of_read hread, hparse]
    have hinput : ClientUnaffected d { d with input := rest } := ⟨rfl, rfl, rfl, rfl, rfl⟩
    have hready : ({ d with input := rest }.act
        (.parse p (sizeArg (UInt32.ofNat p.length)))).Ready := ⟨hd.1, hd.2, hd.3, hd.4, hd.5⟩
    exact ⟨clientUnaffected_iff hready (hinput.act (by simp)) msg, freed_dispatch_iff hready msg⟩

/-- An `ESTABLISH` request with a username that is not UTF-8. -/
def malformedEstablish : Bytes := [0x48, 1, 0x0A, 1, 0xFF]

/-- A `DATA` response with a username that is not UTF-8. -/
def malformedData : Bytes := [0x40, 1, 0x48, 3, 0x0A, 1, 0xFF]

/-- The theorem on a fresh connection and a fresh client. -/
theorem malformed_unaffected_iff_establish :
    let c : SLConnection := { input := (hostLength .little).frame malformedEstablish }
    let d := { SLClient.start [] with input := (hostLength .little).frame malformedEstablish }
    let msg : TunnelMessage := { messageCode := .known .establish, username := [0xFF] }
    (ServerUnaffected c (c.cbBuffereventWillRead wireFormat .little .succeed) [] ↔
        ServerIgnores c msg) ∧
      (ClientUnaffected d (d.cbBuffereventWillRead wireFormat .little) ↔ ClientIgnores msg) ∧
      ((d.cbBuffereventWillRead wireFormat .little).freed = d.freed ↔
        msg.type = .known .response) :=
  malformed_unaffected_iff wireFormat .little .succeed (p := malformedEstablish) (by decide)
    (by decide) rfl ⟨rfl, rfl, rfl, rfl, rfl⟩ [] rfl rfl

/-- The server installs an interface, and the client passes a packet on, for payloads that do
not parse. -/
theorem not_malformed_unaffected :
    ((wireFormat.parseFromArray malformedEstablish 5).1 = false ∧
        ¬ ∀ c : SLConnection, c.input = (hostLength .little).frame malformedEstablish →
          c.running = true →
          ServerUnaffected c (c.cbBuffereventWillRead wireFormat .little .succeed) []) ∧
      (wireFormat.parseFromArray malformedData 7).1 = false ∧
        ¬ ∀ d : SLClient, d.input = (hostLength .little).frame malformedData → d.Ready →
          ClientUnaffected d (d.cbBuffereventWillRead wireFormat .little) := by
  refine ⟨⟨by decide, fun h => ?_⟩, by decide, fun h => ?_⟩
  · have hunaffected := h { input := (hostLength .little).frame malformedEstablish } rfl rfl
    exact absurd hunaffected.mUTUNInterface (by decide)
  · have hunaffected := h
      { SLClient.start [] with input := (hostLength .little).frame malformedData } rfl
      ⟨rfl, rfl, rfl, rfl, rfl⟩
    exact absurd hunaffected.deliveries (by decide)

end SplendidLinker
