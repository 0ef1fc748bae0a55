import SplendidLinker.Message.FieldSequences
import SplendidLinker.Server.Connection

/-!
# The answer to an `ESTABLISH` request

The handler of an `ESTABLISH` request makes the response by editing the request in place, and
it makes it before it knows whether the interface can be created.

Two laws are at stake. Each request should be answered by exactly one response, whose code
tells whether the interface is there (`Answered`): the handler returns without an answer as
soon as the constructor of the interface has reported an error, so it keeps the law exactly if
all system calls succeed (`answered_iff`). And the response should not depend on what the
client has sent (`ResponseIndependent`): of the fields of the request only those that the
server sets itself are overwritten, so the law holds exactly for the requests that leave the
others empty, or when nothing is written at all (`responseIndependent_iff`).
-/

namespace SplendidLinker

open Foundations

variable {pb : Protobuf} {o : ByteOrder} {sys : SysCalls} {c : SLConnection}
  {m m' : TunnelMessage}

/-! ### When the interface is created -/

/-- All system calls that the constructor of the interface makes succeed. -/
structure SysCalls.AllSucceed (sys : SysCalls) : Prop where
  utunSocket : 0 ≤ sys.utunSocket
  ioctlInfo : 0 ≤ sys.ioctlInfo
  connectCtl : 0 ≤ sys.connectCtl
  getsockoptName : 0 ≤ sys.getsockoptName
  /-- The calls of the address branch, if it is taken. -/
  address : sys.inetPton = 1 → 0 ≤ sys.socketDescriptor ∧ 0 ≤ sys.ioctlAddr

theorem errorOf_eq_nil {ret : ℤ} {err : String} : errorOf ret err = [] ↔ 0 ≤ ret := by
  rw [errorOf]
  split_ifs with h
  · simp [h]
  · simp [not_lt.mp h]

/-- The address branch reports no error exactly if its two calls succeed. -/
theorem setInterfaceAddress_eq_nil :
    (setInterfaceAddress sys).1 = [] ↔ 0 ≤ sys.socketDescriptor ∧ 0 ≤ sys.ioctlAddr := by
  rw [setInterfaceAddress, List.append_eq_nil_iff, errorOf_eq_nil, errorOf_eq_nil]

/-- **The interface is created without an error exactly if all system calls succeed.** -/
theorem SysCalls.allSucceed_iff (sys : SysCalls) :
    sys.AllSucceed ↔ ∃ r, SLUTUNInterface.construct sys = some r ∧ r.errs = [] := by
  constructor
  · intro h
    refine ⟨_, by rw [SLUTUNInterface.construct, if_neg (not_lt.mpr h.utunSocket),
      if_neg (not_lt.mpr h.ioctlInfo)], ?_⟩
    simp only [errorOf_eq_nil.mpr h.connectCtl, errorOf_eq_nil.mpr h.getsockoptName,
      List.nil_append]
    split_ifs with haddr
    · exact setInterfaceAddress_eq_nil.mpr (h.address haddr)
    · rfl
  · rintro ⟨r, hr, herr⟩
    rw [SLUTUNInterface.construct] at hr
    split_ifs at hr with hutun hioctl
    · rw [← Option.some.inj hr] at herr
      cases herr
    all_goals
      rw [← Option.some.inj hr] at herr
      simp only [List.append_eq_nil_iff, errorOf_eq_nil] at herr
      refine ⟨not_lt.mp hutun, not_lt.mp hioctl, herr.1.1, herr.1.2, fun haddr => ?_⟩
    · exact setInterfaceAddress_eq_nil.mp herr.2
    · contradiction

/-! ### The frame of a response -/

/-- A frame is not empty. -/
theorem flatten_writeFrame_ne_nil (o : ByteOrder) (packet : Bytes) (l : UInt32) :
    (writeFrame o packet l).flatten ≠ [] := by
  intro h
  have hlen := congrArg List.length h
  simp [writeFrame, o.length_toBytes] at hlen

/-- **What an `ESTABLISH` request writes:** the frame of the response if all system calls
succeed, and nothing otherwise. -/
theorem output_dispatch_establish (hmsg : m.IsRequest .establish) :
    (sys.AllSucceed → (c.dispatch pb o sys m).output = c.output ++
        (writeFrame o (pb.serializeToArray (SLConnection.establishResponse m))
          (UInt32.ofNat (SLConnection.establishResponse m).byteSize)).flatten) ∧
      (¬ sys.AllSucceed → (c.dispatch pb o sys m).output = c.output) := by
  constructor
  · intro h
    obtain ⟨r, hr, herr⟩ := sys.allSucceed_iff.mp h
    rw [SLConnection.dispatch_of_establish hmsg hr herr]
    rfl
  · intro h
    have hspec := SLConnection.dispatch_spec pb o sys c m
    generalize c.dispatch pb o sys m = c' at hspec ⊢
    cases hspec with
    | ignored hno => exact absurd hmsg.2 (hno hmsg.1).1
    | terminated => rfl
    | notCreated => rfl
    | established ht hc r hr herr => exact absurd (sys.allSucceed_iff.mpr ⟨r, hr, herr⟩) h
    | calledNull => rfl
    | dereferenced => rfl
    | written => rfl

/-! ### One answer to each request -/

/-- The TUN threads started so far. -/
def SLConnection.tunThreads (c : SLConnection) : ℕ := c.trace.count .startTunThread

/-- The interface of the request was created without an error, and is that of the connection. -/
def Installs (sys : SysCalls) (c : SLConnection) : Prop :=
  ∃ r, SLUTUNInterface.construct sys = some r ∧ r.errs = [] ∧ c.mUTUNInterface = some r.utun

/-- The request that takes the connection from `c` to `c'` is answered by the response `r` and
by nothing else. -/
structure AnsweredBy (pb : Protobuf) (o : ByteOrder) (sys : SysCalls) (c c' : SLConnection)
    (r : TunnelMessage) : Prop where
  output : c'.output =
    c.output ++ (writeFrame o (pb.serializeToArray r) (UInt32.ofNat r.byteSize)).flatten
  type : r.type = .known .response
  /-- The code tells whether the interface is there. -/
  messageCode : r.messageCode = .known .establish ↔ Installs sys c'
  /-- A request that fails leaves the interface and the threads as they were. -/
  unchanged : ¬ Installs sys c' →
    c'.mUTUNInterface = c.mUTUNInterface ∧ c'.tunThreads = c.tunThreads

/-- The request is answered exactly once. -/
def Answered (pb : Protobuf) (o : ByteOrder) (sys : SysCalls) (c c' : SLConnection) : Prop :=
  ∃ r, AnsweredBy pb o sys c c' r

/-- **An `ESTABLISH` request is answered exactly if all system calls succeed.** -/
theorem answered_iff (hmsg : m.IsRequest .establish) :
    Answered pb o sys c (c.dispatch pb o sys m) ↔ sys.AllSucceed := by
  constructor
  · rintro ⟨r, h⟩
    by_contra hfail
    have hout := h.output
    rw [(output_dispatch_establish hmsg).2 hfail] at hout
    exact flatten_writeFrame_ne_nil o _ _ (List.self_eq_append_right.mp hout)
  · intro h
    obtain ⟨r, hr, herr⟩ := sys.allSucceed_iff.mp h
    have hinst : Installs sys (c.dispatch pb o sys m) :=
      ⟨r, hr, herr, by rw [SLConnection.dispatch_of_establish hmsg hr herr]; rfl⟩
    exact ⟨SLConnection.establishResponse m, (output_dispatch_establish hmsg).1 h, rfl,
      iff_of_true rfl hinst, fun hno => absurd hinst hno⟩

/-- A request that is answered. -/
theorem answered_iff_no_failure :
    Answered wireFormat .little .succeed {} (SLConnection.dispatch wireFormat .little .succeed {}
      { type := .known .request, messageCode := .known .establish }) :=
  (answered_iff ⟨rfl, rfl⟩).mpr ⟨by decide, by decide, by decide, by decide, by decide⟩

/-- The first `ioctl` fails: the handler returns without an answer. -/
theorem not_answered :
    ¬ ∀ (sys : SysCalls) (c : SLConnection) (msg : TunnelMessage), msg.IsRequest .establish →
      Answered wireFormat .little sys c (c.dispatch wireFormat .little sys msg) := by
  intro h
  obtain ⟨r, hr⟩ := h { SysCalls.succeed with ioctlInfo := -1 } {}
    { type := .known .request, messageCode := .known .establish } ⟨rfl, rfl⟩
  exact flatten_writeFrame_ne_nil _ _ _ (List.nil_eq_append_iff.mp hr.output).2

/-! ### Independence of the request -/

/-- A response that carries nothing but the server's own entries. -/
structure OwnEntries (r : TunnelMessage) : Prop where
  username : r.username = []
  password : r.password = []
  dns : r.dns = [ascii "8.8.8.8"]
  packet : r.packet = none

/-- The server writes the same response to both requests, and what it writes carries nothing
but its own entries. -/
structure ResponseIndependent (pb : Protobuf) (o : ByteOrder) (sys : SysCalls) (c : SLConnection)
    (m m' : TunnelMessage) : Prop where
  same : (c.dispatch pb o sys m).output = (c.dispatch pb o sys m').output
  own : ∀ msg ∈ [m, m'], ∀ payload,
    (c.dispatch pb o sys msg).output = c.output ++ (hostLength o).frame payload →
      OwnEntries (pb.parseFromArray payload payload.length).2

/-- A request that leaves empty what the server does not set. -/
structure Bare (m : TunnelMessage) : Prop where
  username : m.username = []
  password : m.password = []
  dns : m.dns = []
  packet : m.packet = none

/-- The server adds only entries of its own to a bare request, and to no other. -/
theorem ownEntries_establishResponse :
    OwnEntries (SLConnection.establishResponse m) ↔ Bare m := by
  constructor
  · rintro ⟨hu, hp, hd, hk⟩
    exact ⟨hu, hp, List.append_left_eq_self.mp hd, hk⟩
  · rintro ⟨hu, hp, hd, hk⟩
    exact ⟨hu, hp, by simp [SLConnection.establishResponse, hd], hk⟩

/-- What is written to a request is the frame of its response, if anything. -/
theorem output_eq_frame_iff (hmsg : m.IsRequest .establish)
    (hv : (SLConnection.establishResponse m).Valid) (payload : Bytes) :
    (c.dispatch pb o sys m).output = c.output ++ (hostLength o).frame payload ↔
      sys.AllSucceed ∧ payload = pb.serializeToArray (SLConnection.establishResponse m) := by
  by_cases h : sys.AllSucceed
  · rw [(output_dispatch_establish hmsg).1 h, flatten_writeFrame_serialize hv,
      List.append_cancel_left_eq, (hostLength o).frame_injective.eq_iff]
    simp [h, eq_comm]
  · rw [(output_dispatch_establish hmsg).2 h]
    simp [h, hostLength_frame, o.length_toBytes, ← List.length_eq_zero_iff]

/-- **The response is independent of the request exactly if the requests are bare and agree in
their encryption types,** or nothing is written at all. -/
theorem responseIndependent_iff (hm : m.IsRequest .establish) (hm' : m'.IsRequest .establish)
    (hv : (SLConnection.establishResponse m).Valid)
    (hv' : (SLConnection.establishResponse m').Valid) :
    ResponseIndependent pb o sys c m m' ↔
      (sys.AllSucceed → Bare m ∧ Bare m' ∧ m.passwordEncryptType = m'.passwordEncryptType ∧
        m.linkEncryptType = m'.linkEncryptType) := by
  constructor
  · rintro ⟨hsame, hown⟩ h
    have hout : (c.dispatch pb o sys m).output = c.output ++
        (hostLength o).frame (pb.serializeToArray (SLConnection.establishResponse m)) :=
      (output_eq_frame_iff hm hv _).mpr ⟨h, rfl⟩
    have hout' : (c.dispatch pb o sys m').output = c.output ++
        (hostLength o).frame (pb.serializeToArray (SLConnection.establishResponse m')) :=
      (output_eq_frame_iff hm' hv' _).mpr ⟨h, rfl⟩
    have hbare := hown m (by simp) _ hout
    have hbare' := hown m' (by simp) _ hout'
    rw [parse_serialize_length hv, ownEntries_establishResponse] at hbare
    rw [parse_serialize_length hv', ownEntries_establishResponse] at hbare'
    have hser := ((output_eq_frame_iff hm hv _).mp (hsame.trans hout')).2
    have heq : SLConnection.establishResponse m = SLConnection.establishResponse m' := by
      have hread := (parse_serialize_length hv).symm.trans
        ((congrArg (fun bs => pb.parseFromArray bs bs.length) hser.symm).trans
          (parse_serialize_length hv'))
      exact (Prod.mk.inj hread).2
    exact ⟨hbare, hbare', congrArg (·.passwordEncryptType) heq, congrArg (·.linkEncryptType) heq⟩
  · intro h
    have hown (msg : TunnelMessage) (hmsg : msg.IsRequest .establish)
        (hvalid : (SLConnection.establishResponse msg).Valid) (hb : sys.AllSucceed → Bare msg)
        (payload : Bytes)
        (hout : (c.dispatch pb o sys msg).output = c.output ++ (hostLength o).frame payload) :
        OwnEntries (pb.parseFromArray payload payload.length).2 := by
      obtain ⟨hsucceed, rfl⟩ := (output_eq_frame_iff hmsg hvalid payload).mp hout
      rw [parse_serialize_length hvalid]
      exact ownEntries_establishResponse.mpr (hb hsucceed)
    refine ⟨?_, ?_⟩
    · by_cases hs : sys.AllSucceed
      · obtain ⟨⟨hu, hp, hd, hk⟩, ⟨hu', hp', hd', hk'⟩, hpwd, hlink⟩ := h hs
        have heq : SLConnection.establishResponse m = SLConnection.establishResponse m' := by
          simp [SLConnection.establishResponse, hu, hp, hd, hk, hu', hp', hd', hk', hpwd, hlink]
        rw [(output_dispatch_establish hm).1 hs, (output_dispatch_establish hm').1 hs, heq]
      · rw [(output_dispatch_establish hm).2 hs, (output_dispatch_establish hm').2 hs]
    · intro msg hmem payload hout
      rcases List.mem_pair.mp hmem with rfl | rfl
      · exact hown msg hm hv (fun hs => (h hs).1) payload hout
      · exact hown msg hm' hv' (fun hs => (h hs).2.1) payload hout

/-- Two bare requests with different addresses. -/
theorem responseIndependent_iff_bare :
    ResponseIndependent wireFormat .little .succeed {}
      { type := .known .request, messageCode := .known .establish, ip := ascii "10.0.0.1" }
      { type := .known .request, messageCode := .known .establish, ip := ascii "10.0.0.2" } :=
  (responseIndependent_iff ⟨rfl, rfl⟩ ⟨rfl, rfl⟩ ⟨by decide, by decide⟩
    ⟨by decide, by decide⟩).mpr fun _ => ⟨⟨rfl, rfl, rfl, rfl⟩, ⟨rfl, rfl, rfl, rfl⟩, rfl, rfl⟩

/-- The request of the provider: its username and password come back. -/
theorem not_responseIndependent :
    ¬ ∀ (sys : SysCalls) (c : SLConnection) (m m' : TunnelMessage), m.IsRequest .establish →
      m'.IsRequest .establish → ResponseIndependent wireFormat .little sys c m m' := by
  intro h
  have hsame := (h .succeed {}
    { type := .known .request, messageCode := .known .establish }
    { type := .known .request, messageCode := .known .establish, username := ascii "admin",
      password := ascii "admin" } ⟨rfl, rfl⟩ ⟨rfl, rfl⟩).same
  exact absurd hsame (by decide)

end SplendidLinker
