import SplendidLinker.Client.TornReply
import SplendidLinker.Message.AcceptedInput

/-!
# The network settings

What `tunnelDidEstablish:` of `PacketTunnelProvider.mm` hands to the system once the completion
block has been called: the address of the response, and constants. The address is made into a
`NSString`, which is `nil` if the bytes are not UTF-8, and an array literal with `nil` raises an
exception, so that `startHandlePacket` is never reached.

The generated parser checks that the strings of a message are UTF-8, with any runtime, but the
client does not look at its result. `rejected_of_exception` closes the gap in one direction: in
every run of the client, whatever it is sent and however that is cut, an exception goes back to a
payload that the parser has rejected.
-/

namespace SplendidLinker

open Foundations TunnelMessage WireFormat

/-- `NEPacketTunnelNetworkSettings`, as far as `tunnelDidEstablish:` sets it. -/
structure NetworkSettings where
  tunnelRemoteAddress : String
  /-- The addresses of `IPv4Settings`, as the bytes of the strings. -/
  addresses : List Bytes
  subnetMasks : List String
  /-- The destination addresses and subnet masks of `includedRoutes`. -/
  includedRoutes : List (String × String)
  /-- The servers of `DNSSettings`. -/
  servers : List String
  deriving DecidableEq

/-- `initWithBytes:length:encoding:` with `NSUTF8StringEncoding`; `none` is `nil`. -/
def initWithBytes (bs : Bytes) : Option Bytes := if validUtf8 bs then some bs else none

/-- The settings that `tunnelDidEstablish:` hands over, or `none` if it raises an exception. (The
string made of `submask` is not used.) -/
def networkSettings (msg : TunnelMessage) : Option NetworkSettings :=
  (initWithBytes msg.ip).map fun address =>
    { tunnelRemoteAddress := "192.168.2.193"
      addresses := [address]
      subnetMasks := ["255.255.255.255"]
      includedRoutes := [("0.0.0.0", "0.0.0.0")]
      servers := ["8.8.8.8"] }

theorem networkSettings_eq_none_iff {msg : TunnelMessage} :
    networkSettings msg = none ↔ validUtf8 msg.ip = false := by
  simp [networkSettings, initWithBytes]

namespace SLClient

variable {pb : Protobuf} {c : SLClient} {o : ByteOrder}

variable (pb) in
/-- Each message that the establish callback was called with was left behind by a call of
`ParseFromArray`. -/
def Explained (c : SLClient) : Prop :=
  ∀ msg ∈ c.establishments, ∃ p ∈ c.parsed, (pb.parseFromArray p.1 p.2).2 = msg

/-- A dispatch calls the establish callback with its own message at most. -/
theorem mem_establishments_dispatch {c : SLClient} {msg m : TunnelMessage}
    (hm : m ∈ (c.dispatch msg).establishments) : m ∈ c.establishments ∨ m = msg := by
  have herror (status : TunnelStatus) (ctx : CallbackContext) :
      (c.callError status ctx).establishments = c.establishments := by
    have hnone : establishCall (.errorCallback status ctx) = none := rfl
    exact establishments_call c.mErrorCallback hnone
  rw [dispatch] at hm
  split at hm
  · have hfree : ((c.callError .establishError .message).bufferEventFree).establishments =
        c.establishments := by
      rw [← herror .establishError .message]
      simp [establishments, bufferEventFree, act, establishCall]
    simp only at hm
    split at hm
    · exact .inl (hfree ▸ hm)
    · exact .inl (herror _ _ ▸ hm)
  · split at hm
    · rw [call] at hm
      split_ifs at hm
      · simp only [establishments, act, setAddresses, List.filterMap_append,
          List.mem_append] at hm
        exact hm.imp id fun h => by simpa [establishCall] using h
      · refine .inl ?_
        simpa [establishments, act, setAddresses, establishCall] using hm
    · exact .inl (herror _ _ ▸ hm)
    · exact .inl (herror _ _ ▸ hm)
    · have hnone : establishCall (.readPacketCallback msg .mContext) = none := rfl
      exact .inl (establishments_call c.mReadPacketCallback hnone ▸ hm)
    · exact .inl (herror _ _ ▸ hm)

/-- One callback. -/
private theorem Explained.receive (h : c.Explained pb) (chunk : Bytes) :
    (c.receive pb o chunk).Explained pb := by
  rw [SLClient.receive]
  split_ifs
  · exact h
  · have hread : readFrame o (c.input ++ chunk) =
        ((readFrame o (c.input ++ chunk)).1, (readFrame o (c.input ++ chunk)).2) := rfl
    rw [cbBuffereventWillRead_of_read hread]
    intro msg hmsg
    rw [parsed_dispatch]
    rcases mem_establishments_dispatch hmsg with hold | rfl
    · obtain ⟨p, hp, hparse⟩ := h msg (by simpa [establishments, act, establishCall] using hold)
      refine ⟨p, ?_, hparse⟩
      simp only [parsed, act, List.filterMap_append, List.mem_append]
      exact .inl hp
    · refine ⟨((readFrame o (c.input ++ chunk)).1, sizeArg (UInt32.ofNat
        (readFrame o (c.input ++ chunk)).1.length)), ?_, rfl⟩
      simp [parsed, act, parseCall]

/-- The run of the callbacks. -/
private theorem Explained.receiveAll (h : c.Explained pb) (chunks : List Bytes) :
    (c.receiveAll pb o chunks).Explained pb := by
  induction chunks generalizing c with
  | nil => exact h
  | cons chunk chunks ih => exact ih (h.receive chunk)

/-- **An exception goes back to a payload that was rejected.** Whatever the client is sent, and
however it is cut: if `tunnelDidEstablish:` raises an exception, the parser had returned `false`
for the payload of the response, and the client went on all the same. -/
theorem rejected_of_exception (hpb : pb.ChecksUtf8) (o : ByteOrder)
    (options : List (String × Bytes)) (chunks : List Bytes) {msg : TunnelMessage}
    (hmsg : msg ∈ ((start options).receiveAll pb o chunks).establishments)
    (hexception : networkSettings msg = none) :
    ∃ p ∈ ((start options).receiveAll pb o chunks).parsed,
      pb.parseFromArray p.1 p.2 = (false, msg) := by
  have hstart : (start options).Explained pb := fun msg hmsg => by cases hmsg
  obtain ⟨p, hp, hparse⟩ := hstart.receiveAll chunks msg hmsg
  refine ⟨p, hp, Prod.ext ?_ hparse⟩
  -- a payload that is accepted has a UTF-8 address
  by_contra hok
  have haccepted : pb.parseFromArray p.1 p.2 = (true, msg) :=
    Prod.ext (Bool.eq_true_of_not_eq_false hok) hparse
  have hutf8 := hpb haccepted msg.ip (by simp [strings])
  rw [networkSettings_eq_none_iff.mp hexception] at hutf8
  cases hutf8

/-- The type and the code come first, then the address, which is not UTF-8. -/
def badAddressFrame : Bytes := (hostLength .little).frame [0x40, 1, 0x48, 1, 0x22, 1, 0xFF]

/-- A response whose address is not UTF-8, in one chunk. -/
theorem rejected_of_exception_bad_address :
    ∃ msg, networkSettings msg = none ∧
      ∃ p ∈ ((start []).receiveAll wireFormat .little [badAddressFrame]).parsed,
        wireFormat.parseFromArray p.1 p.2 = (false, msg) := by
  have hest : ((start []).receiveAll wireFormat .little [badAddressFrame]).establishments =
      [{ type := .known .response, messageCode := .known .establish, ip := [0xFF] }] := by decide
  have hnone : networkSettings
      { type := .known .response, messageCode := .known .establish, ip := [0xFF] } = none := by
    decide
  have hpb : wireFormat.ChecksUtf8 := checksUtf8_generated lawful_listStream
  exact ⟨_, hnone, rejected_of_exception hpb .little [] [badAddressFrame] (by simp [hest]) hnone⟩

end SLClient

end SplendidLinker
