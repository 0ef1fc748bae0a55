import SplendidLinker.Client.Delivery
import SplendidLinker.Foundations.Recording
import SplendidLinker.Message.FieldSequences

/-!
# The callback contract of the client

An application registers some of the callbacks of a client and gives it a context, `mContext`. The
client should call none but the registered callbacks, and each of them with the context
(`KeepsContract`), since the callbacks cast it back to an object of the application.

`SLClient.cpp` calls callbacks at eight places. Two of them look first whether there is a
callback, and two others pass another pointer: the client itself at a `BEV_EVENT_ERROR` or
`BEV_EVENT_TIMEOUT`, and the message at a message that is not a response. So the contract is kept
exactly by the runs that reach these places only where it does not matter (`keepsContract_iff`).
-/

namespace SplendidLinker

open Foundations

/-- The values of the pointers that a client has from the start. -/
structure ClientPointers where
  mContext : ℕ
  /-- The address of the `SLClient`. -/
  tunnel : ℕ
  deriving DecidableEq, Repr

/-- The value of a context argument, where `message` is the address of the local variable
`msg`. -/
def ClientPointers.value (ps : ClientPointers) (message : ℕ) : CallbackContext → ℕ
  | .mContext => ps.mContext
  | .tunnel => ps.tunnel
  | .message => message

/-- A call of a `std::function` of the client. -/
inductive Invocation
  /-- The call of a registered callback, with the value of its context argument. -/
  | callback (ctx : ℕ)
  /-- The call of one that is not registered. -/
  | unregistered
  deriving DecidableEq, Repr

namespace ClientPointers

variable {ps : ClientPointers} {pb : Protobuf} {o : ByteOrder} {c : SLClient}

/-- The call in an action of the dispatch thread. -/
def invocation (ps : ClientPointers) (message : ℕ) : ClientAction → Option Invocation
  | .errorCallback _ ctx => some (.callback (ps.value message ctx))
  | .establishCallback _ ctx => some (.callback (ps.value message ctx))
  | .readPacketCallback _ ctx => some (.callback (ps.value message ctx))
  | .badFunctionCall => some .unregistered
  | _ => none

/-- The calls in a delivery. -/
def invocations (ps : ClientPointers) (pb : Protobuf) (o : ByteOrder) (c : SLClient)
    (d : Delivery × ℕ) : List Invocation :=
  ((c.deliver pb o d.1).trace.drop c.trace.length).filterMap (ps.invocation d.2)

/-- The contract. -/
def KeepsContract (ps : ClientPointers) (log : List Invocation) : Prop :=
  ∀ e ∈ log, e = .callback ps.mContext

/-- The callback that the delivery is meant for is registered where the client does not look, and
the pointer that it is given is the context. -/
def Handles (ps : ClientPointers) (c : SLClient) : Delivery × ℕ → Prop
  | (.event flags, _) =>
    flags = SLClient.bevEventError ∨ flags = SLClient.bevEventTimeout →
      c.mErrorCallback = true → ps.tunnel = ps.mContext
  | (.message msg, message) =>
    if msg.type ≠ .known .response then c.mErrorCallback = true ∧ message = ps.mContext
    else if msg.messageCode = .known .establish then c.mEstablishCallback = true
    else if msg.messageCode = .known .data then c.mReadPacketCallback = true
    else c.mErrorCallback = true

end ClientPointers

/-- A client with any callbacks registered. Each delivery comes with the address of the local
variable `msg` of the callback. -/
def clientDeliveries (pb : Protobuf) (o : ByteOrder) :
    TransitionSystem SLClient (Delivery × ℕ) where
  init c := c.freed = false ∧ c.running = true
  step c d := if c.freed = false ∧ c.running = true then some (c.deliver pb o d.1) else none

/-- A client with the calls that it has made. -/
def clientCallbacks (ps : ClientPointers) (pb : Protobuf) (o : ByteOrder) :
    TransitionSystem (SLClient × List Invocation) (Delivery × ℕ) :=
  (clientDeliveries pb o).recording (ps.invocations pb o)

namespace ClientPointers

variable {ps : ClientPointers} {pb : Protobuf} {o : ByteOrder} {c : SLClient}

/-! ### The calls in one delivery -/

theorem invocations_of_trace {d : Delivery × ℕ} {new : List ClientAction}
    (h : (c.deliver pb o d.1).trace = c.trace ++ new) :
    ps.invocations pb o c d = new.filterMap (ps.invocation d.2) := by
  rw [invocations, h, List.drop_left]

@[simp]
theorem keepsContract_nil : ps.KeepsContract [] := fun _ he => absurd he List.not_mem_nil

@[simp]
theorem keepsContract_singleton {e : Invocation} :
    ps.KeepsContract [e] ↔ e = .callback ps.mContext := List.forall_mem_singleton

/-- The trace after a call. -/
theorem trace_call (c : SLClient) (registered : Bool) (a : ClientAction) :
    (c.call registered a).trace = c.trace ++ [if registered then a else .badFunctionCall] := by
  cases registered <;> rfl

/-- A delivery that is one call. -/
theorem keepsContract_of_call {c' : SLClient} {d : Delivery × ℕ} {registered : Bool}
    {a : ClientAction} {ctx : ℕ} (hcall : c.deliver pb o d.1 = c'.call registered a)
    (htrace : c'.trace = c.trace) (ha : ps.invocation d.2 a = some (.callback ctx)) :
    ps.KeepsContract (ps.invocations pb o c d) ↔ registered = true ∧ ctx = ps.mContext := by
  rw [invocations_of_trace (by rw [hcall, trace_call, htrace])]
  cases registered
  · simp [invocation]
  · simp [ha]

/-- A delivery that is one call, with the context. -/
theorem keepsContract_of_context {c' : SLClient} {d : Delivery × ℕ} {registered : Bool}
    {a : ClientAction} (hcall : c.deliver pb o d.1 = c'.call registered a)
    (htrace : c'.trace = c.trace) (ha : ps.invocation d.2 a = some (.callback ps.mContext)) :
    ps.KeepsContract (ps.invocations pb o c d) ↔ registered = true := by
  rw [keepsContract_of_call hcall htrace ha]
  exact and_iff_left rfl

/-- A delivery without a call. -/
theorem keepsContract_of_silent {d : Delivery × ℕ} (h : (c.deliver pb o d.1).trace = c.trace) :
    ps.KeepsContract (ps.invocations pb o c d) := by
  rw [invocations_of_trace (h.trans (List.append_nil _).symm)]
  exact keepsContract_nil

/-- What an event makes of a client. -/
theorem deliver_event_cases (pb : Protobuf) (o : ByteOrder) (c : SLClient) (flags : UInt16) :
    ((flags = SLClient.bevEventError ∨ flags = SLClient.bevEventTimeout) ∧
      c.mErrorCallback = true ∧
      c.deliver pb o (.event flags) = c.callError .serverUnReachable .tunnel) ∨
    (¬ (flags = SLClient.bevEventError ∨ flags = SLClient.bevEventTimeout) ∧
      c.mErrorCallback = true ∧
      c.deliver pb o (.event flags) = c.callError .serverUnReachable .mContext) ∨
    (((flags = SLClient.bevEventError ∨ flags = SLClient.bevEventTimeout) →
        c.mErrorCallback = false) ∧
      (c.deliver pb o (.event flags)).trace = c.trace) := by
  rw [SLClient.deliver, SLClient.cbBuffereventEvent]
  split_ifs with h1 h2 h3 h4 h5 h6 h7
  · exact .inr (.inr ⟨fun h => absurd h (by rw [h1]; decide), rfl⟩)
  · exact .inl ⟨h2, h3, rfl⟩
  · exact .inr (.inr ⟨fun _ => Bool.eq_false_iff.mpr h3, rfl⟩)
  · exact .inr (.inr ⟨fun h => absurd h h2, rfl⟩)
  · exact .inr (.inr ⟨fun h => absurd h h2, rfl⟩)
  · exact .inr (.inr ⟨fun h => absurd h h2, rfl⟩)
  · exact .inr (.inl ⟨h2, h7, rfl⟩)
  · exact .inr (.inr ⟨fun h => absurd h h2, rfl⟩)

/-- **An event** calls the error callback, if it is registered, or nothing. -/
theorem keepsContract_event (flags : UInt16) (message : ℕ) :
    ps.KeepsContract (ps.invocations pb o c (.event flags, message)) ↔
      ps.Handles c (.event flags, message) := by
  rcases deliver_event_cases pb o c flags with
    ⟨hflags, herr, hcall⟩ | ⟨hflags, herr, hcall⟩ | ⟨hno, htrace⟩
  · rw [keepsContract_of_call hcall rfl rfl]
    exact ⟨fun h _ _ => h.2, fun h => ⟨herr, h hflags herr⟩⟩
  · rw [keepsContract_of_context hcall rfl rfl]
    exact iff_of_true herr fun h => absurd h hflags
  · refine iff_of_true (keepsContract_of_silent htrace) fun hflags herr => ?_
    exact absurd herr (Bool.eq_false_iff.mp (hno hflags))

/-- A response calls the callback that its code is for, with the context. -/
theorem keepsContract_response {msg : TunnelMessage} (ht : msg.type = .known .response)
    (message : ℕ) : ps.KeepsContract (ps.invocations pb o c (.message msg, message)) ↔
      ps.Handles c (.message msg, message) := by
  have hdispatch : c.deliver pb o (.message msg) = _ := if_neg (not_not.mpr ht)
  rw [Handles, if_neg (not_not.mpr ht)]
  by_cases hest : msg.messageCode = .known .establish
  · have hcall : c.deliver pb o (.message msg) = (c.setAddresses msg).call c.mEstablishCallback
        (.establishCallback msg .mContext) := by rw [hdispatch, hest]
    have htrace : (c.setAddresses msg).trace = c.trace := rfl
    rw [if_pos hest, keepsContract_of_context hcall htrace rfl]
  by_cases hdata : msg.messageCode = .known .data
  · have hcall : c.deliver pb o (.message msg) = c.call c.mReadPacketCallback
        (.readPacketCallback msg .mContext) := by rw [hdispatch, hdata]
    rw [if_neg hest, if_pos hdata, keepsContract_of_context hcall rfl rfl]
  · have hcall : ∃ status, c.deliver pb o (.message msg) = c.callError status .mContext := by
      rw [hdispatch]
      split
      case h_1 hc => exact absurd hc hest
      case h_4 hc => exact absurd hc hdata
      all_goals exact ⟨_, rfl⟩
    obtain ⟨status, hcall⟩ := hcall
    rw [if_neg hest, if_neg hdata, keepsContract_of_context hcall rfl rfl]

/-- A message that is not a response calls the error callback with the address of the message. -/
theorem keepsContract_release {msg : TunnelMessage} (hrun : c.running = true)
    (ht : msg.type ≠ .known .response) (message : ℕ) :
    ps.KeepsContract (ps.invocations pb o c (.message msg, message)) ↔
      ps.Handles c (.message msg, message) := by
  have hdispatch : c.deliver pb o (.message msg) = _ := if_pos ht
  rw [Handles, if_pos ht]
  cases herr : c.mErrorCallback with
  | false =>
    have htrace : (c.deliver pb o (.message msg)).trace = c.trace ++ [.badFunctionCall] := by
      rw [hdispatch]
      simp [SLClient.callError, SLClient.call, herr, SLClient.act]
    rw [invocations_of_trace htrace]
    simp [invocation]
  | true =>
    have htrace : (c.deliver pb o (.message msg)).trace =
        c.trace ++ [.errorCallback .establishError .message, .bufferEventFree] := by
      rw [hdispatch]
      simp [SLClient.callError, SLClient.call, herr, SLClient.act, hrun, SLClient.bufferEventFree]
    have hinvocations : ps.invocations pb o c (.message msg, message) = [.callback message] :=
      invocations_of_trace (d := (.message msg, message)) htrace
    rw [hinvocations, keepsContract_singleton]
    simp

/-- **A delivery keeps the contract exactly if the client is set up for it.** -/
theorem keepsContract_deliver (hrun : c.running = true) (d : Delivery × ℕ) :
    ps.KeepsContract (ps.invocations pb o c d) ↔ ps.Handles c d := by
  obtain ⟨d, message⟩ := d
  cases d with
  | event flags => exact keepsContract_event flags message
  | message msg =>
    by_cases ht : msg.type = .known .response
    · exact keepsContract_response ht message
    · exact keepsContract_release hrun ht message

/-! ### The contract -/

/-- **The client keeps the callback contract exactly in the runs in which no delivery reaches a
callback that is not registered, an error or timeout event reaches the error callback only if the
context is the client, and a message that is not a response only if it is the message.** -/
theorem keepsContract_iff {p : SLClient × List Invocation}
    (h : (clientCallbacks ps pb o).Reachable p) :
    ps.KeepsContract p.2 ↔
      (clientCallbacks ps pb o).ReachableUnder (fun p d => ps.Handles p.1 d) p := by
  refine TransitionSystem.forall_mem_log_iff (fun c d c' _ hstep => ?_) h
  simp only [clientDeliveries] at hstep
  split_ifs at hstep with hlive
  exact keepsContract_deliver hlive.2 d

/-- An `ESTABLISH` and a `DATA` response for a client whose callbacks are registered. -/
theorem keepsContract_iff_registered :
    ∃ p, (clientCallbacks ⟨1, 2⟩ wireFormat .little).Reachable p ∧
      p.2 = [.callback 1, .callback 1] ∧
      (clientCallbacks ⟨1, 2⟩ wireFormat .little).ReachableUnder
        (fun p d => ClientPointers.Handles ⟨1, 2⟩ p.1 d) p := by
  have hrun : ((clientCallbacks ⟨1, 2⟩ wireFormat .little).replay (SLClient.start [], [])
      [(.message { type := .known .response, messageCode := .known .establish }, 3),
        (.message { type := .known .response, messageCode := .known .data }, 3)]).map (·.2) =
      some [.callback 1, .callback 1] := by decide
  have hinit : (clientCallbacks ⟨1, 2⟩ wireFormat .little).init (SLClient.start [], []) :=
    ⟨⟨rfl, rfl⟩, rfl⟩
  obtain ⟨p, hp, hlog⟩ := TransitionSystem.exists_reachable_of_replay hinit hrun
  refine ⟨p, hp, hlog, (keepsContract_iff hp).mp ?_⟩
  rw [hlog]
  intro e he
  simpa using he

/-- An error event at a client whose callbacks are registered, and a refusal at one without an
error callback. -/
theorem not_keepsContract :
    (¬ ∀ ps p, (clientCallbacks ps wireFormat .little).Reachable p → ps.KeepsContract p.2) ∧
      (∃ p, (clientCallbacks ⟨1, 2⟩ wireFormat .little).Reachable p ∧ p.2 = [.callback 2]) ∧
      ∃ p, (clientCallbacks ⟨1, 2⟩ wireFormat .little).Reachable p ∧ p.2 = [.unregistered] := by
  have herror : ((clientCallbacks ⟨1, 2⟩ wireFormat .little).replay (SLClient.start [], [])
      [(.event SLClient.bevEventError, 3)]).map (·.2) = some [.callback 2] := by decide
  have hrefusal : ((clientCallbacks ⟨1, 2⟩ wireFormat .little).replay ({}, [])
      [(.message { type := .known .response, messageCode := .known .authorization }, 3)]).map
        (·.2) = some [.unregistered] := by decide
  have hinit (c : SLClient) (hc : c.freed = false ∧ c.running = true) :
      (clientCallbacks ⟨1, 2⟩ wireFormat .little).init (c, []) := ⟨hc, rfl⟩
  obtain ⟨p, hp, hlog⟩ :=
    TransitionSystem.exists_reachable_of_replay (hinit _ ⟨rfl, rfl⟩) herror
  refine ⟨fun h => ?_, ⟨p, hp, hlog⟩,
    TransitionSystem.exists_reachable_of_replay (hinit _ ⟨rfl, rfl⟩) hrefusal⟩
  have hkeeps := h ⟨1, 2⟩ p hp
  rw [hlog, keepsContract_singleton] at hkeeps
  exact absurd hkeeps (by decide)

end ClientPointers

end SplendidLinker
