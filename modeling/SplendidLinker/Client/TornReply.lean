import SplendidLinker.Client.PacketTunnelProvider
import SplendidLinker.Message.TornInput

/-!
# The reply to an `ESTABLISH` request at the client

What the callbacks of a client make of a reply that arrives in one piece (`told_of_whole`), and of
the first part of one (`refusing_of_torn`, `refusing_of_short`). Either the establish callback is
called with the reply, or an error is reported: there is no first part of the reply, short of
all of it, that the client takes for the reply. About the codec this needs what
`Message/TornInput.lean` shows of the generated code over any lawful runtime.
-/

namespace SplendidLinker

open Foundations TunnelMessage

/-- The message of an `mEstablishCallback` call. -/
def establishCall : ClientAction → Option TunnelMessage
  | .establishCallback msg _ => some msg
  | _ => none

namespace SLClient

/-- The messages that the establish callback was called with. -/
def establishments (c : SLClient) : List TunnelMessage := c.trace.filterMap establishCall

/-- The error callback has been called for a message. -/
def Refuses (c : SLClient) : Prop :=
  .errorCallback .establishError .message ∈ c.trace ∨
    .errorCallback .authorizationFaild .mContext ∈ c.trace

/-- The addresses that the client has been given. -/
def addresses (c : SLClient) : Bytes × Bytes × Bytes × List Bytes :=
  (c.mIp, c.mGateway, c.mSubmask, c.mDns)

variable {pb : Protobuf} {c : SLClient} {o : ByteOrder} {chunk : Bytes}

theorem establishments_call (registered : Bool) {a : ClientAction} (ha : establishCall a = none) :
    (c.call registered a).establishments = c.establishments := by
  rw [call]
  split_ifs
  · simp [establishments, act, ha]
  · simp [establishments, act, establishCall]

/-- A callback that tells the client nothing. -/
structure Keeps (c c' : SLClient) : Prop where
  establishments : c'.establishments = c.establishments
  addresses : c'.addresses = c.addresses
  output : c'.output = c.output
  mOptions : c'.mOptions = c.mOptions

/-- A client that has been handed a message which is not an `ESTABLISH` response. -/
structure Refusing (c c' : SLClient) : Prop extends Keeps c c' where
  refuses : c'.Refuses
  input : c'.input = []

/-- A message that is not a response: the error is reported and the bufferevent freed. -/
private theorem refusing_of_request (h : c.Ready) {msg : TunnelMessage}
    (hmsg : msg.type = .known .request) :
    Refusing c (c.dispatch msg) ∧ (c.dispatch msg).freed = true := by
  have hne : msg.type ≠ .known .response := by
    rw [hmsg]
    decide
  have hdispatch : c.dispatch msg =
      (c.act (.errorCallback .establishError .message)).bufferEventFree := by
    rw [dispatch, if_pos hne]
    simp [callError, call, act, h.mErrorCallback, h.running]
  rw [hdispatch]
  refine ⟨⟨⟨?_, rfl, rfl, rfl⟩, .inl ?_, rfl⟩, rfl⟩
  · simp [establishments, bufferEventFree, act, establishCall]
  · simp [bufferEventFree, act]

/-- An `AUTHORIZATION` response: the error is reported. -/
private theorem refusing_of_authorization (h : c.Ready) {msg : TunnelMessage} (hin : c.input = [])
    (hmsg : msg.type = .known .response) (hcode : msg.messageCode = .known .authorization) :
    Refusing c (c.dispatch msg) ∧ (c.dispatch msg).Ready := by
  have hdispatch : c.dispatch msg = c.act (.errorCallback .authorizationFaild .mContext) := by
    rw [dispatch, if_neg (not_not.mpr hmsg), hcode]
    simp [callError, call, h.mErrorCallback]
  rw [hdispatch]
  refine ⟨⟨⟨?_, rfl, rfl, rfl⟩, .inr ?_, hin⟩, h.1, h.2, h.3, h.4, h.5⟩
  · simp [establishments, act, establishCall]
  · simp [act]

/-- The client that hands the payload `p` to the parser, with an empty input buffer. -/
def handing (c : SLClient) (p : Bytes) : SLClient :=
  { c with input := [] }.act (.parse p (sizeArg (UInt32.ofNat p.length)))

private theorem Ready.handing (h : c.Ready) (p : Bytes) : (c.handing p).Ready :=
  ⟨h.1, h.2, h.3, h.4, h.5⟩

/-- Handing over a payload refuses nothing and sets nothing. -/
private theorem Refusing.of_handing {p : Bytes} {c' : SLClient} (h : Refusing (c.handing p) c') :
    Refusing c c' := by
  refine ⟨⟨h.establishments.trans ?_, h.addresses, h.output, h.mOptions⟩, h.refuses, h.input⟩
  simp [SLClient.handing, SLClient.establishments, act, establishCall]

/-- A read that empties the input buffer. -/
private theorem receive_of_read {p : Bytes} (h : c.Ready)
    (hread : readFrame o (c.input ++ chunk) = (p, [])) :
    c.receive pb o chunk =
      (c.handing p).dispatch (pb.parseFromArray p (sizeArg (UInt32.ofNat p.length))).2 := by
  rw [receive_eq h, cbBuffereventWillRead_of_read hread]
  rfl

/-- **A read of a header at most.** The payload is zero, whatever length is read. -/
theorem refusing_of_short (hpb : pb.TellsTorn) (h : c.Ready) (hin : c.input = [])
    (hshort : chunk.length ≤ 4) :
    Refusing c (c.receive pb o chunk) ∧ (c.receive pb o chunk).freed = true := by
  have hread : readFrame o (c.input ++ chunk) =
      (List.replicate (o.ofBytes (chunk.take 4)).toNat 0, []) := by
    simp [readFrame, hin, List.drop_eq_nil_of_le hshort]
  rw [receive_of_read h hread]
  have hsize := sizeArg_le (o.ofBytes (chunk.take 4)).toNat
  rw [List.length_replicate]
  obtain ⟨hrefusing, hfreed⟩ := refusing_of_request (h.handing _) (hpb.zeros hsize.1 hsize.2)
  exact ⟨hrefusing.of_handing, hfreed⟩

variable {m : TunnelMessage}

/-- **A read of a part of the reply** is refused, and at most the two bytes of the message code
are left for a client that goes on. -/
theorem refusing_of_torn (hpb : pb.TellsTorn) (h : c.Ready) (hin : c.input = []) (hm : Reply m)
    {n : ℕ} (hn : n < 4 + m.byteSize) :
    let c' := c.receive pb o (((hostLength o).frame (pb.serializeToArray m)).take n)
    Refusing c c' ∧ (c'.freed = true ∨ c'.Ready ∧ 4 + m.byteSize ≤ n + 2) := by
  rcases Nat.lt_or_ge n 4 with hshort | hlong
  · have hlen : (((hostLength o).frame (pb.serializeToArray m)).take n).length ≤ 4 := by
      rw [List.length_take]
      omega
    obtain ⟨hrefusing, hfreed⟩ := refusing_of_short hpb h hin hlen
    exact ⟨hrefusing, .inl hfreed⟩
  · -- the length is there, and the payload is torn
    obtain ⟨j, rfl⟩ : ∃ j, n = 4 + j := ⟨n - 4, by omega⟩
    have hsize := pb.length_serialize m hm.valid
    have hbound := hm.valid.size
    have htake : ((hostLength o).frame (pb.serializeToArray m)).take (4 + j) =
        o.toBytes (UInt32.ofNat m.byteSize) ++ (pb.serializeToArray m).take j := by
      rw [hostLength_frame, hsize, List.take_append, o.length_toBytes, Nat.add_sub_cancel_left,
        List.take_of_length_le (by rw [o.length_toBytes]; omega)]
    set p := (pb.serializeToArray m).take j ++ List.replicate (m.byteSize - j) (0 : UInt8) with hp
    have hlen : p.length = m.byteSize := by
      rw [hp, List.length_append, List.length_take, List.length_replicate]
      omega
    have hread : readFrame o
        (c.input ++ ((hostLength o).frame (pb.serializeToArray m)).take (4 + j)) =
        (p, []) := by
      have hheader :
          (o.toBytes (UInt32.ofNat m.byteSize) ++ (pb.serializeToArray m).take j).take 4 =
            o.toBytes (UInt32.ofNat m.byteSize) :=
        List.take_left' (o.length_toBytes _)
      have hrest : (o.toBytes (UInt32.ofNat m.byteSize) ++ (pb.serializeToArray m).take j).drop 4 =
          (pb.serializeToArray m).take j :=
        List.drop_left' (o.length_toBytes _)
      have hj : ((pb.serializeToArray m).take j).length = j := by
        rw [List.length_take]
        omega
      rw [hin, List.nil_append, htake, readFrame, hheader, hrest, o.ofBytes_toBytes,
        toNat_byteSize hm.valid, List.take_of_length_le (by omega),
        List.drop_eq_nil_of_le (by omega), hj]
    have htorn := hpb.reply hm (show j < m.byteSize by omega)
    rw [receive_of_read h hread, hlen, sizeArg_of_lt hbound]
    rcases htorn with hrequest | ⟨hresponse, hcode, hj⟩
    · obtain ⟨hrefusing, hfreed⟩ := refusing_of_request (h.handing p) hrequest
      exact ⟨hrefusing.of_handing, .inl hfreed⟩
    · obtain ⟨hrefusing, hready⟩ := refusing_of_authorization (h.handing p) rfl hresponse hcode
      exact ⟨hrefusing.of_handing, .inr ⟨hready, by omega⟩⟩

/-- What the reply tells a client. -/
structure Told (c : SLClient) (m : TunnelMessage) (c' : SLClient) : Prop where
  ready : c'.Ready
  input : c'.input = []
  establishments : c'.establishments = c.establishments ++ [m]
  addresses : c'.addresses = (m.ip, m.gateway, m.submask, c.mDns ++ m.dns)
  output : c'.output = c.output

/-- **The whole reply** is dispatched as what it is. -/
theorem told_of_whole (h : c.Ready) (hin : c.input = []) (hm : Reply m) :
    Told c m (c.receive pb o ((hostLength o).frame (pb.serializeToArray m))) := by
  have hread : readFrame o (c.input ++ (hostLength o).frame (pb.serializeToArray m)) =
      (pb.serializeToArray m, []) := by
    have hlen : (pb.serializeToArray m).length < 2 ^ 32 := fits_serialize (o := o) hm.valid
    rw [hin, List.nil_append, ← List.append_nil ((hostLength o).frame (pb.serializeToArray m))]
    exact readFrame_frame_append hlen []
  have hparse : (pb.parseFromArray (pb.serializeToArray m)
      (sizeArg (UInt32.ofNat (pb.serializeToArray m).length))).2 = m :=
    congrArg Prod.snd (parse_serialize_sizeArg hm.valid)
  have hdispatch : (c.handing (pb.serializeToArray m)).dispatch m =
      ((c.handing (pb.serializeToArray m)).setAddresses m).act
        (.establishCallback m .mContext) := by
    rw [dispatch, if_neg (not_not.mpr hm.type), hm.messageCode]
    simp [call, h.mEstablishCallback, handing, setAddresses, act]
  rw [receive_of_read h hread, hparse, hdispatch]
  refine ⟨⟨h.1, h.2, h.3, h.4, h.5⟩, rfl, ?_, rfl, rfl⟩
  simp [establishments, handing, setAddresses, act, List.filterMap_cons, establishCall]

/-- When the connection is made, the client writes its request. -/
theorem connected_spec (hvalid : c.establishRequest.Valid) :
    ∃ mOptions, c.cbBuffereventEvent pb o bevEventConnected =
      { c with
        mOptions := mOptions
        output := c.output ++
          (hostLength o).frame (pb.serializeToArray c.establishRequest) } := by
  have hout := @output_connected pb o c hvalid
  refine ⟨(c.cbBuffereventEvent pb o bevEventConnected).mOptions, ?_⟩
  rw [← hout, cbBuffereventEvent, if_neg (by decide), if_neg (by decide), if_neg (by decide),
    if_neg (by decide), if_pos rfl]
  rfl

/-- **An event** but the connection tells a client nothing. -/
theorem keeps_of_event (h : c.Ready) {flags : UInt16} (hflags : flags ≠ bevEventConnected) :
    let c' := c.cbBuffereventEvent pb o flags
    Keeps c c' ∧ c'.Ready ∧ c'.input = c.input ∧ (c.Refuses → c'.Refuses) := by
  have hsame : Keeps c c ∧ c.Ready ∧ c.input = c.input ∧ (c.Refuses → c.Refuses) :=
    ⟨⟨rfl, rfl, rfl, rfl⟩, h, rfl, id⟩
  have hcall (ctx : CallbackContext) : let c' := c.callError .serverUnReachable ctx
      Keeps c c' ∧ c'.Ready ∧ c'.input = c.input ∧ (c.Refuses → c'.Refuses) := by
    have hact : c.callError .serverUnReachable ctx =
        c.act (.errorCallback .serverUnReachable ctx) := by
      rw [callError, call, if_pos h.mErrorCallback]
    rw [hact]
    refine ⟨⟨?_, rfl, rfl, rfl⟩, ⟨h.1, h.2, h.3, h.4, h.5⟩, rfl, ?_⟩
    · simp [establishments, act, establishCall]
    · exact Or.imp (List.mem_append_left _) (List.mem_append_left _)
  rw [cbBuffereventEvent]
  split_ifs
  · exact hsame
  · exact hcall _
  · exact hsame
  · exact hsame
  · exact hsame
  · exact hcall _
  · exact hsame

end SLClient

end SplendidLinker
