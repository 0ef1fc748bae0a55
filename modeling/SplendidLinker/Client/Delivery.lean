import SplendidLinker.Client.Client

/-!
# Deliveries

What the dispatch thread of a client hands to its callbacks, after `cb_bufferevent_will_read` has
taken a frame off the input and parsed it: an event or a message. `deliveredTo_deliver` says for
every delivery which of the registered callbacks it calls, and whether it frees the bufferevent.
-/

namespace SplendidLinker

open Foundations

/-- What the dispatch thread hands to the callbacks of the client. -/
inductive Delivery
  /-- An event with its flags. -/
  | event (flags : UInt16)
  /-- A frame whose payload is parsed as `msg`. -/
  | message (msg : TunnelMessage)
  deriving DecidableEq

/-- The callback of a delivery. -/
def SLClient.deliver (pb : Protobuf) (o : ByteOrder) (c : SLClient) : Delivery → SLClient
  | .event flags => c.cbBuffereventEvent pb o flags
  | .message msg => c.dispatch msg

/-- The read callback delivers the message that it has parsed. -/
theorem SLClient.cbBuffereventWillRead_eq_deliver (pb : Protobuf) (o : ByteOrder) (c : SLClient) :
    ∃ input payload size, c.cbBuffereventWillRead pb o =
      ({ c with input := input }.act (.parse payload size)).deliver pb o
        (.message (pb.parseFromArray payload size).2) :=
  ⟨_, _, _, rfl⟩

/-- An `ESTABLISH` response. -/
def Delivery.IsEstablish : Delivery → Prop
  | .event _ => False
  | .message msg => msg.type = .known .response ∧ msg.messageCode = .known .establish

/-- A connection failure or a refusal: any event but `CONNECTED`, and any message but an
`ESTABLISH` or a `DATA` response. -/
def Delivery.IsFailure : Delivery → Prop
  | .event flags => flags ≠ SLClient.bevEventConnected
  | .message msg => msg.type ≠ .known .response ∨
      msg.messageCode ≠ .known .establish ∧ msg.messageCode ≠ .known .data

instance : DecidablePred Delivery.IsFailure
  | .event _ => inferInstanceAs (Decidable (_ ≠ _))
  | .message _ => inferInstanceAs (Decidable (_ ∨ _))

/-- A message at which the read callback frees the bufferevent. -/
def Delivery.Releases : Delivery → Prop
  | .event _ => False
  | .message msg => msg.type ≠ .known .response

/-- What a delivery adds to the trace of a client whose callbacks are registered. -/
inductive Delivery.Calls : Delivery → List ClientAction → Prop
  | nothing {d : Delivery} (hd : ¬ d.IsEstablish) (hr : ¬ d.Releases) : Calls d []
  | error {d : Delivery} (hd : ¬ d.IsEstablish) (hr : ¬ d.Releases) (status : TunnelStatus)
      (ctx : CallbackContext) : Calls d [.errorCallback status ctx]
  | establish (msg : TunnelMessage) (ht : msg.type = .known .response)
      (hc : msg.messageCode = .known .establish) :
      Calls (.message msg) [.establishCallback msg .mContext]
  | readPacket (msg : TunnelMessage) (ht : msg.type = .known .response)
      (hc : msg.messageCode = .known .data) :
      Calls (.message msg) [.readPacketCallback msg .mContext]
  | release (msg : TunnelMessage) (ht : msg.type ≠ .known .response) :
      Calls (.message msg) [.errorCallback .establishError .message, .bufferEventFree]

namespace SLClient

/-- The callbacks are registered, and the client has come back from all of them. -/
structure Registered (c : SLClient) : Prop where
  running : c.running = true
  mErrorCallback : c.mErrorCallback = true
  mEstablishCallback : c.mEstablishCallback = true
  mReadPacketCallback : c.mReadPacketCallback = true

/-- What a delivery makes of a client whose callbacks are registered. -/
structure DeliveredTo (c : SLClient) (d : Delivery) (new : List ClientAction) (c' : SLClient) :
    Prop where
  calls : d.Calls new
  trace : c'.trace = c.trace ++ new
  registered : c'.Registered

variable {c : SLClient}

theorem registered_start (options : List (String × Bytes)) : (start options).Registered :=
  ⟨rfl, rfl, rfl, rfl⟩

theorem Registered.act (h : c.Registered) (a : ClientAction) : (c.act a).Registered :=
  ⟨h.running, h.mErrorCallback, h.mEstablishCallback, h.mReadPacketCallback⟩

theorem callError_of_registered (h : c.Registered) (status : TunnelStatus) (ctx : CallbackContext) :
    c.callError status ctx = c.act (.errorCallback status ctx) := by
  rw [callError, call, if_pos h.mErrorCallback]

/-- A delivery that calls the error callback and does nothing else. -/
private theorem deliveredTo_callError {d : Delivery} (h : c.Registered) (hd : ¬ d.IsEstablish)
    (hr : ¬ d.Releases) (status : TunnelStatus) (ctx : CallbackContext) :
    ∃ new, DeliveredTo c d new (c.callError status ctx) := by
  rw [callError_of_registered h]
  exact ⟨_, .error hd hr status ctx, rfl, h.act _⟩

/-- **Every delivery calls the callback it is meant for,** and only a message that is not a
response frees the bufferevent. -/
theorem deliveredTo_deliver (pb : Protobuf) (o : ByteOrder) (h : c.Registered) (d : Delivery) :
    ∃ new, DeliveredTo c d new (c.deliver pb o d) := by
  cases d with
  | event flags =>
    have hd : ¬ (Delivery.event flags).IsEstablish := not_false
    have hr : ¬ (Delivery.event flags).Releases := not_false
    have hsame : ∃ new, DeliveredTo c (.event flags) new c :=
      ⟨[], .nothing hd hr, (List.append_nil _).symm, h⟩
    rw [deliver, cbBuffereventEvent]
    split_ifs with h1 h2 h3 h4 h5 h6 h7
    · exact hsame
    · exact deliveredTo_callError h hd hr _ _
    · exact hsame
    · exact hsame
    · exact hsame
    · exact ⟨[], .nothing hd hr, (List.append_nil _).symm, h.1, h.2, h.3, h.4⟩
    · exact deliveredTo_callError h hd hr _ _
    · exact hsame
  | message msg =>
    rw [deliver, dispatch]
    by_cases ht : msg.type = .known .response
    · have hr : ¬ (Delivery.message msg).Releases := not_not.mpr ht
      have hd : msg.messageCode ≠ .known .establish → ¬ (Delivery.message msg).IsEstablish :=
        fun hc hest => hc hest.2
      rw [if_neg (not_not.mpr ht)]
      split
      case h_1 hc =>
        rw [call, if_pos (by exact h.mEstablishCallback)]
        exact ⟨_, .establish msg ht hc, rfl, h.1, h.2, h.3, h.4⟩
      case h_2 hc => exact deliveredTo_callError h (hd (by simp [hc])) hr _ _
      case h_3 hc => exact deliveredTo_callError h (hd (by simp [hc])) hr _ _
      case h_4 hc =>
        rw [call, if_pos h.mReadPacketCallback]
        exact ⟨_, .readPacket msg ht hc, rfl, h.act _⟩
      case h_5 hc _ _ _ => exact deliveredTo_callError h (hd hc) hr _ _
    · rw [if_pos ht]
      simp only [callError_of_registered h]
      rw [if_pos (h.act _).running]
      exact ⟨_, .release msg ht, by simp [act, bufferEventFree], h.1, h.2, h.3, h.4⟩

end SLClient

end SplendidLinker
