import SplendidLinker.Client.Delivery
import SplendidLinker.Foundations.TransitionSystem
import SplendidLinker.Message.FieldSequences

/-!
# The completion of the start

`startTunnelWithOptions` of `PacketTunnelProvider.mm` is given a completion handler, to be
called once: with `nil` when the tunnel is established, or with an error. The thread that runs
it starts the client, spawns the thread that dispatches the events of the client, and then
either stores the handler as `_completionBlock`, for `tunnelDidEstablish` to call, or calls it
with the error that the start of the client has returned.

The contract (`StartContract`) fails in three ways. The dispatch thread may deliver the
`ESTABLISH` response before the block is stored, and calls `nil`; each further response calls
the block again; and no failure that is delivered calls it at all, since the error callback is
empty. A run without these deliveries (`Prompt`) keeps the contract, and what such a delivery
breaks is not repaired (`Broken`), so the contract is kept exactly by the prompt runs
(`startContract_iff`).
-/

namespace SplendidLinker

open Foundations

/-! ### The start of the client -/

/-- The results of the calls in `startTunnelWithServerAddress`. -/
structure StartCalls where
  /-- `::socket(AF_INET, SOCK_STREAM, 0)`. -/
  socket : ℤ
  /-- `evutil_make_socket_nonblocking(socket)`. -/
  nonblocking : ℤ
  /-- `bufferevent_socket_connect_hostname(bev, …)`. -/
  connectHostname : ℤ
  deriving DecidableEq, Repr

/-- `SLClient::startTunnelWithServerAddress`: the status it returns. -/
def SLClient.startTunnelWithServerAddress (c : SLClient) (calls : StartCalls) : TunnelStatus :=
  if c.mOptions.length = 0 then .configureInvalid
  else if calls.socket < 0 ∨ calls.nonblocking < 0 then .tunnelInitError
  else if calls.connectHostname < 0 then .tunnelInitError
  else .onEstablish

/-! ### The provider -/

/-- How far `startTunnelWithOptions` has come. -/
inductive StartPc
  /-- It is about to start the client. -/
  | connect
  /-- The client has been started with this status; the dispatch thread has not. -/
  | spawn (status : TunnelStatus)
  /-- The dispatch thread runs. -/
  | finish (status : TunnelStatus)
  | returned (status : TunnelStatus)
  deriving DecidableEq, Repr

/-- The status with which the dispatch thread runs. -/
def StartPc.dispatching : StartPc → Option TunnelStatus
  | .finish status | .returned status => some status
  | _ => none

/-- A `PacketTunnelProvider` while it starts. -/
structure PacketTunnelProvider where
  /-- `_clientTunnel`. -/
  client : SLClient
  start : StartPc := .connect
  /-- `_completionBlock` is set. -/
  completionBlock : Bool := false
  /-- The calls of the completion handler: `none` is `nil`, `some code` an error. -/
  completions : List (Option ℕ) := []
  /-- `_completionBlock` has been called while it was `nil`; this ends the process. -/
  calledNil : Bool := false
  /-- `tunnelDidEstablish` has been called. -/
  established : Bool := false
  /-- A failure or a refusal was delivered before that. -/
  failed : Bool := false

/-- The choices of the scheduler, of the network and of the server. -/
inductive ProviderAction
  /-- `startTunnelWithServerAddress` returns. -/
  | connect (calls : StartCalls)
  /-- The thread of `startTunnelWithOptions` goes on. -/
  | startThread
  /-- The dispatch thread delivers an event or a message. -/
  | deliver (d : Delivery)

namespace PacketTunnelProvider

/-- A call of the completion handler. -/
def complete (p : PacketTunnelProvider) (error : Option ℕ) : PacketTunnelProvider :=
  { p with completions := p.completions ++ [error] }

/-- `tunnelDidEstablish:`, up to the call of the block. -/
def tunnelDidEstablish (p : PacketTunnelProvider) : PacketTunnelProvider :=
  if p.completionBlock then { p.complete none with established := true }
  else { p with calledNil := true, established := true }

/-- The callbacks the provider has registered: `cb_error` is empty, and `cb_read` has nothing to
do with the start. -/
def callback (p : PacketTunnelProvider) : ClientAction → PacketTunnelProvider
  | .establishCallback _ _ => p.tunnelDidEstablish
  | _ => p

/-- The end of `startTunnelWithOptions`: the switch on the status. -/
def finishStart (p : PacketTunnelProvider) : TunnelStatus → PacketTunnelProvider
  | .onEstablish => { p with completionBlock := true }
  | .configureInvalid => p.complete (some 1)
  | .serverUnReachable => p.complete (some 2)
  | .tunnelInitError => p.complete (some 3)
  | _ => p

/-- A callback of the client, and what it makes the provider do. -/
def deliver (pb : Protobuf) (o : ByteOrder) (p : PacketTunnelProvider) (d : Delivery) :
    PacketTunnelProvider :=
  let client := p.client.deliver pb o d
  (client.trace.drop p.client.trace.length).foldl callback
    { p with client := client, failed := p.failed || (d.IsFailure && !p.established) }

/-- One step of the provider. -/
def step (pb : Protobuf) (o : ByteOrder) (p : PacketTunnelProvider) :
    ProviderAction → Option PacketTunnelProvider
  | .connect calls =>
    if p.start = .connect then
      some { p with start := .spawn (p.client.startTunnelWithServerAddress calls) }
    else none
  | .startThread =>
    if p.calledNil then none
    else match p.start with
      | .spawn status => some { p with start := .finish status }
      | .finish status => some { p.finishStart status with start := .returned status }
      | _ => none
  | .deliver d =>
    -- without a connection there is nothing to deliver
    if p.start.dispatching = some .onEstablish ∧ p.client.freed = false ∧
        p.client.running = true ∧ p.calledNil = false then
      some (p.deliver pb o d)
    else none

/-- The contract of the completion handler. -/
structure StartContract (p : PacketTunnelProvider) : Prop where
  once : p.completions.length ≤ 1
  stored : p.calledNil = false
  /-- A failure or refusal before the establishment is reported. -/
  reported : p.failed = true → ∃ code, some code ∈ p.completions

/-- The next step delivers no failure before the establishment, and an `ESTABLISH` response only
once and when the block is stored. -/
def Prompt (p : PacketTunnelProvider) : ProviderAction → Prop
  | .deliver d => (d.IsFailure → p.established = true) ∧
      (d.IsEstablish → p.completionBlock = true ∧ p.established = false)
  | _ => True

end PacketTunnelProvider

/-- `OPTIONS_USERNAME_KEY` and `OPTIONS_PASSWORD_KEY` as `startTunnelWithOptions` sets them. -/
def adminOptions : List (String × Bytes) :=
  [(SLClient.optionsUsernameKey, ascii "admin"), (SLClient.optionsPasswordKey, ascii "admin")]

/-- A provider whose `startTunnelWithOptions` is called. -/
def packetTunnelProvider (pb : Protobuf) (o : ByteOrder) :
    TransitionSystem PacketTunnelProvider ProviderAction where
  init p := p = { client := .start adminOptions }
  step := PacketTunnelProvider.step pb o

/-! ### What a delivery makes the provider do -/

namespace PacketTunnelProvider

variable {pb : Protobuf} {o : ByteOrder} {p p' : PacketTunnelProvider} {a : ProviderAction}

/-- What a delivery makes the provider do. -/
inductive Delivered (p : PacketTunnelProvider) (d : Delivery) : PacketTunnelProvider → Prop
  | establish (hd : d.IsEstablish) (hno : ¬ d.IsFailure) (client : SLClient)
      (hreg : client.Registered) : Delivered p d { p with client := client }.tunnelDidEstablish
  | other (hd : ¬ d.IsEstablish) (client : SLClient) (hreg : client.Registered) :
      Delivered p d
        { p with client := client, failed := p.failed || (d.IsFailure && !p.established) }

/-- **Every delivery is one of these.** -/
theorem deliver_spec (h : p.client.Registered) (d : Delivery) :
    Delivered p d (p.deliver pb o d) := by
  obtain ⟨new, hcalls, htrace, hreg⟩ := SLClient.deliveredTo_deliver pb o h d
  rw [deliver]
  generalize p.client.deliver pb o d = client at htrace hreg ⊢
  simp only [htrace, List.drop_left]
  cases hcalls with
  | nothing hd hr => exact .other hd client hreg
  | error hd hr status ctx => exact .other hd client hreg
  | establish msg ht hc =>
    have hd : (Delivery.message msg).IsEstablish := ⟨ht, hc⟩
    have hno : ¬ (Delivery.message msg).IsFailure := by simp [Delivery.IsFailure, ht, hc]
    simp only [List.foldl_cons, List.foldl_nil, callback, hno, decide_false, Bool.false_and,
      Bool.or_false]
    exact .establish hd hno client hreg
  | readPacket msg ht hc =>
    have hd : ¬ (Delivery.message msg).IsEstablish := fun hest => nomatch hc.symm.trans hest.2
    exact .other hd client hreg
  | release msg ht =>
    have hd : ¬ (Delivery.message msg).IsEstablish := fun hest => ht hest.1
    exact .other hd client hreg

/-- A start that has failed calls the handler at most once, with an error. -/
theorem finishStart_of_ne {status : TunnelStatus} (h : status ≠ .onEstablish) :
    ∃ es : List (Option ℕ), es.length ≤ 1 ∧ none ∉ es ∧
      p.finishStart status = { p with completions := p.completions ++ es } := by
  cases status with
  | onEstablish => exact absurd rfl h
  | configureInvalid => exact ⟨[some 1], by simp, by simp, rfl⟩
  | serverUnReachable => exact ⟨[some 2], by simp, by simp, rfl⟩
  | tunnelInitError => exact ⟨[some 3], by simp, by simp, rfl⟩
  | _ => exact ⟨[], by simp, by simp, by simp [finishStart]⟩

/-- What a step does. -/
inductive Stepped (p : PacketTunnelProvider) : ProviderAction → PacketTunnelProvider → Prop
  | connected (calls : StartCalls) (status : TunnelStatus) (h : p.start = .connect) :
      Stepped p (.connect calls) { p with start := .spawn status }
  | spawned (status : TunnelStatus) (h : p.start = .spawn status) :
      Stepped p .startThread { p with start := .finish status }
  | stored (h : p.start = .finish .onEstablish) : Stepped p .startThread
      { p with completionBlock := true, start := .returned .onEstablish }
  | refused (status : TunnelStatus) (hne : status ≠ .onEstablish) (h : p.start = .finish status)
      (es : List (Option ℕ)) (hlen : es.length ≤ 1) (hes : none ∉ es) : Stepped p .startThread
      { p with completions := p.completions ++ es, start := .returned status }
  | delivered (d : Delivery) (p' : PacketTunnelProvider)
      (h : p.start.dispatching = some .onEstablish) (hnil : p.calledNil = false)
      (hd : Delivered p d p') : Stepped p (.deliver d) p'

theorem step_cases (hreg : p.client.Registered) (hstep : p.step pb o a = some p') :
    Stepped p a p' := by
  cases a with
  | connect calls =>
    simp only [step, Option.ite_none_right_eq_some, Option.some.injEq] at hstep
    obtain ⟨h, rfl⟩ := hstep
    exact .connected calls _ h
  | startThread =>
    simp only [step] at hstep
    split_ifs at hstep with hnil
    split at hstep
    case h_1 status h =>
      rw [← Option.some.inj hstep]
      exact .spawned status h
    case h_2 status h =>
      rw [← Option.some.inj hstep]
      by_cases hne : status = .onEstablish
      · subst hne
        exact .stored h
      · obtain ⟨es, hlen, hes, heq⟩ := p.finishStart_of_ne hne
        rw [heq]
        exact .refused status hne h es hlen hes
    case h_3 => cases hstep
  | deliver d =>
    simp only [step, Option.ite_none_right_eq_some, Option.some.injEq] at hstep
    obtain ⟨⟨h, -, -, hnil⟩, rfl⟩ := hstep
    exact .delivered d _ h hnil (deliver_spec hreg d)

/-! ### Prompt runs -/

/-- What holds along every run. -/
structure Started (p : PacketTunnelProvider) : Prop where
  registered : p.client.Registered
  block : p.completionBlock = true ↔ p.start = .returned .onEstablish
  established : p.established = true → p.start.dispatching = some .onEstablish ∧
    (p.calledNil = true ∨ 1 ≤ p.completions.length)
  /-- Errors are reported by a start that fails, and by nothing else. -/
  errors : ∀ code, some code ∈ p.completions →
    ∃ status, status ≠ .onEstablish ∧ p.start = .returned status

/-- As long as `startTunnelWithOptions` has not returned, nothing is stored or reported. -/
private theorem Started.not_returned (h : p.Started) (hs : ∀ status, p.start ≠ .returned status) :
    p.completionBlock ≠ true ∧ ∀ code, some code ∉ p.completions := by
  refine ⟨fun hb => hs _ (h.block.mp hb), fun code hcode => ?_⟩
  obtain ⟨status, -, hreturned⟩ := h.errors code hcode
  exact hs status hreturned

theorem Started.next (h : p.Started) (hstep : p.step pb o a = some p') : p'.Started := by
  cases step_cases h.registered hstep with
  | connected calls status hs =>
    obtain ⟨hblock, hno⟩ := h.not_returned (by simp [hs])
    refine ⟨h.registered, iff_of_false hblock (by simp), fun he => ?_, fun code hcode =>
      absurd hcode (hno code)⟩
    have hdispatching := (h.established he).1
    simp [hs, StartPc.dispatching] at hdispatching
  | spawned status hs =>
    obtain ⟨hblock, hno⟩ := h.not_returned (by simp [hs])
    refine ⟨h.registered, iff_of_false hblock (by simp), fun he => ?_, fun code hcode =>
      absurd hcode (hno code)⟩
    have hdispatching := (h.established he).1
    simp [hs, StartPc.dispatching] at hdispatching
  | stored hs =>
    obtain ⟨-, hno⟩ := h.not_returned (by simp [hs])
    exact ⟨h.registered, iff_of_true rfl rfl, fun he => ⟨rfl, (h.established he).2⟩,
      fun code hcode => absurd hcode (hno code)⟩
  | refused status hne hs es hlen hes =>
    obtain ⟨hblock, -⟩ := h.not_returned (by simp [hs])
    refine ⟨h.registered, iff_of_false hblock (by simp [hne]), fun he => ?_,
      fun code _ => ⟨status, hne, rfl⟩⟩
    have hdispatching := (h.established he).1
    simp [hs, StartPc.dispatching, hne] at hdispatching
  | delivered d p' hs hnil hd =>
    cases hd with
    | establish hest hno client hreg =>
      rw [tunnelDidEstablish]
      split_ifs with hb
      · refine ⟨hreg, h.block, fun _ => ⟨hs, .inr (by simp [complete])⟩, fun code hcode => ?_⟩
        exact h.errors code (by simpa [complete] using hcode)
      · exact ⟨hreg, h.block, fun _ => ⟨hs, .inl rfl⟩, h.errors⟩
    | other hest client hreg => exact ⟨hreg, h.block, h.established, h.errors⟩

/-- What holds along the prompt runs. -/
structure Kept (p : PacketTunnelProvider) : Prop where
  started : p.Started
  calledNil : p.calledNil = false
  failed : p.failed = false
  once : p.completions.length ≤ 1
  none_yet : p.established = false → (∀ status, p.start = .returned status →
    status = .onEstablish) → p.completions = []

theorem Kept.startContract (h : p.Kept) : p.StartContract :=
  ⟨h.once, h.calledNil, by simp [h.failed]⟩

/-- **A prompt step keeps the contract.** -/
theorem Kept.next (h : p.Kept) (hguard : p.Prompt a) (hstep : p.step pb o a = some p') :
    p'.Kept := by
  have hnext := h.started.next hstep
  cases step_cases h.started.registered hstep with
  | connected calls status hs =>
    exact ⟨hnext, h.calledNil, h.failed, h.once, fun he _ => h.none_yet he (by simp [hs])⟩
  | spawned status hs =>
    exact ⟨hnext, h.calledNil, h.failed, h.once, fun he _ => h.none_yet he (by simp [hs])⟩
  | stored hs =>
    exact ⟨hnext, h.calledNil, h.failed, h.once, fun he _ => h.none_yet he (by simp [hs])⟩
  | refused status hne hs es hlen hes =>
    have hest : p.established = false := by
      by_contra he
      have hdispatching := (h.started.established (by simpa using he)).1
      simp [hs, StartPc.dispatching, hne] at hdispatching
    have hnone := h.none_yet hest (by simp [hs])
    exact ⟨hnext, h.calledNil, h.failed, by simpa [hnone] using hlen,
      fun _ hall => absurd (hall status rfl) hne⟩
  | delivered d p' hs hnil hd =>
    cases hd with
    | establish hest hno client hreg =>
      -- the block is stored, and this is the first response
      obtain ⟨hb, he⟩ := hguard.2 hest
      have hstart := h.started.block.mp hb
      have hnone := h.none_yet he (by simp [hstart])
      rw [tunnelDidEstablish, if_pos hb] at hnext ⊢
      exact ⟨hnext, h.calledNil, h.failed, by simp [complete, hnone], fun he' => by simp at he'⟩
    | other hest client hreg =>
      have hfailed : (d.IsFailure && !p.established) = false := by
        by_cases hf : d.IsFailure
        · simp [hguard.1 hf]
        · simp [hf]
      exact ⟨hnext, h.calledNil, by simp [h.failed, hfailed], h.once, h.none_yet⟩

/-! ### What is broken stays broken -/

/-- The contract is broken for good. -/
def Broken (p : PacketTunnelProvider) : Prop :=
  2 ≤ p.completions.length ∨ p.calledNil = true ∨
    (p.failed = true ∧ p.start.dispatching = some .onEstablish ∧
      ∀ code, some code ∉ p.completions)

theorem StartContract.not_broken (h : p.StartContract) : ¬ p.Broken := by
  rintro (hlen | hnil | ⟨hfailed, -, hno⟩)
  · have := h.once
    omega
  · simp [h.stored] at hnil
  · obtain ⟨code, hcode⟩ := h.reported hfailed
    exact hno code hcode

/-- **A step that is not prompt breaks the contract.** -/
theorem Started.broken (h : p.Started) (hstep : p.step pb o a = some p') (hguard : ¬ p.Prompt a) :
    p'.Broken := by
  cases step_cases h.registered hstep with
  | delivered d p' hs hnil hd =>
    have hno : ∀ code, some code ∉ p.completions := by
      intro code hcode
      obtain ⟨status, hne, hreturned⟩ := h.errors code hcode
      simp [hreturned, StartPc.dispatching, hne] at hs
    cases hd with
    | establish hest hnofail client hreg =>
      rw [tunnelDidEstablish]
      split_ifs with hb
      · -- not the first response
        have he : p.established = true := by
          by_contra he
          exact hguard ⟨fun hf => absurd hf hnofail, fun _ => ⟨hb, by simpa using he⟩⟩
        have hlen := (h.established he).2.resolve_left (by simp [hnil])
        exact .inl (by simp [complete]; omega)
      · exact .inr (.inl rfl)
    | other hest client hreg =>
      have hf : d.IsFailure ∧ p.established = false := by
        by_contra hf
        exact hguard ⟨fun hfail => by simpa [hfail] using hf, fun he => absurd he hest⟩
      exact .inr (.inr ⟨by simp [hf], hs, hno⟩)
  | _ => exact absurd trivial hguard

theorem Broken.next (h : p.Broken) (hreg : p.client.Registered)
    (hstep : p.step pb o a = some p') : p'.Broken := by
  rcases h with hlen | hnil | ⟨hfailed, hdispatching, hno⟩
  · -- completions are never taken back
    cases step_cases hreg hstep with
    | refused => exact .inl (by simp; omega)
    | delivered d p' hs hnil hd =>
      cases hd with
      | establish =>
        rw [tunnelDidEstablish]
        split_ifs
        · exact .inl (by simp [complete]; omega)
        · exact .inr (.inl rfl)
      | other => exact .inl hlen
    | _ => exact .inl hlen
  · cases step_cases hreg hstep with
    | delivered d p' hs hnil' => simp [hnil] at hnil'
    | _ => exact .inr (.inl hnil)
  · cases step_cases hreg hstep with
    | connected calls status hs => simp [hs, StartPc.dispatching] at hdispatching
    | spawned status hs => simp [hs, StartPc.dispatching] at hdispatching
    | stored hs => exact .inr (.inr ⟨hfailed, rfl, hno⟩)
    | refused status hne hs => simp [hs, StartPc.dispatching, hne] at hdispatching
    | delivered d p' hs hnil hd =>
      cases hd with
      | establish =>
        rw [tunnelDidEstablish]
        split_ifs
        · exact .inr (.inr ⟨hfailed, hs, by simpa [complete] using hno⟩)
        · exact .inr (.inl rfl)
      | other => exact .inr (.inr ⟨by simp [hfailed], hs, hno⟩)

/-- **The completion handler is called as it should exactly in the prompt runs.** -/
theorem startContract_iff (h : (packetTunnelProvider pb o).Reachable p) :
    p.StartContract ↔ (packetTunnelProvider pb o).ReachableUnder Prompt p := by
  have hinit : Started { client := .start adminOptions } :=
    ⟨⟨rfl, rfl, rfl, rfl⟩, by simp, by simp, by simp⟩
  have hstarted {p : PacketTunnelProvider} (h : (packetTunnelProvider pb o).Reachable p) :
      p.Started := by
    refine h.invariant (I := Started) ?_ fun p a p' hp hstep => hp.next hstep
    rintro p rfl
    exact hinit
  constructor
  · intro hcontract
    refine TransitionSystem.reachableUnder_of_not_mark
      (M := fun p => (packetTunnelProvider pb o).Reachable p ∧ p.Broken) ?_ ?_ h
      fun hbroken => hcontract.not_broken hbroken.2
    · exact fun p a p' hp hstep hguard => ⟨hp.next hstep, (hstarted hp).broken hstep hguard⟩
    · exact fun p a p' hstep hp =>
        ⟨hp.1.next hstep, hp.2.next (hstarted hp.1).registered hstep⟩
  · intro hunder
    refine Kept.startContract (hunder.invariant (I := Kept) ?_
      fun p a p' hp hguard hstep => hp.next hguard hstep)
    rintro p rfl
    exact ⟨hinit, rfl, rfl, by simp, by simp⟩

/-- An `ESTABLISH` response. -/
private def response : TunnelMessage :=
  { type := .known .response, messageCode := .known .establish }

/-- A start whose response comes once the block is stored. -/
theorem startContract_iff_established :
    ∃ p : PacketTunnelProvider, p.completions = [none] ∧
      (packetTunnelProvider wireFormat .little).ReachableUnder Prompt p := by
  have hrun : ((packetTunnelProvider wireFormat .little).replay { client := .start adminOptions }
      [.connect ⟨3, 0, 0⟩, .startThread, .deliver (.event SLClient.bevEventConnected),
        .startThread, .deliver (.message response)]).map
      (fun p => (p.completions, p.calledNil, p.failed)) = some ([none], false, false) := by decide
  obtain ⟨p, hreach, heq⟩ := TransitionSystem.exists_reachable_of_replay
    (T := packetTunnelProvider wireFormat .little) rfl hrun
  simp only [Prod.mk.injEq] at heq
  exact ⟨p, heq.1, (startContract_iff hreach).mp ⟨by simp [heq], heq.2.1, by simp [heq]⟩⟩

/-- A response that is delivered before the block is stored, a second response, and a refusal. -/
theorem not_startContract :
    (∃ p, (packetTunnelProvider wireFormat .little).Reachable p ∧ ¬ p.StartContract ∧
      p.calledNil = true) ∧
    (∃ p, (packetTunnelProvider wireFormat .little).Reachable p ∧ ¬ p.StartContract ∧
      p.completions = [none, none]) ∧
    ∃ p, (packetTunnelProvider wireFormat .little).Reachable p ∧ ¬ p.StartContract ∧
      p.failed = true := by
  have hinit : (packetTunnelProvider wireFormat .little).init { client := .start adminOptions } :=
    rfl
  refine ⟨?_, ?_, ?_⟩
  · have hrun : ((packetTunnelProvider wireFormat .little).replay { client := .start adminOptions }
        [.connect ⟨3, 0, 0⟩, .startThread, .deliver (.message response)]).map (·.calledNil) =
        some true := by decide
    obtain ⟨p, hreach, hnil⟩ := TransitionSystem.exists_reachable_of_replay hinit hrun
    exact ⟨p, hreach, fun h => by simp [h.stored] at hnil, hnil⟩
  · have hrun : ((packetTunnelProvider wireFormat .little).replay { client := .start adminOptions }
        [.connect ⟨3, 0, 0⟩, .startThread, .startThread, .deliver (.message response),
          .deliver (.message response)]).map (·.completions) = some [none, none] := by decide
    obtain ⟨p, hreach, htwo⟩ := TransitionSystem.exists_reachable_of_replay hinit hrun
    exact ⟨p, hreach, fun h => by simpa [htwo] using h.once, htwo⟩
  · have hrun : ((packetTunnelProvider wireFormat .little).replay { client := .start adminOptions }
        [.connect ⟨3, 0, 0⟩, .startThread, .startThread,
          .deliver (.message { type := .known .response, messageCode := .known .busy })]).map
        (fun p => (p.failed, p.completions)) = some (true, []) := by decide
    obtain ⟨p, hreach, heq⟩ := TransitionSystem.exists_reachable_of_replay hinit hrun
    simp only [Prod.mk.injEq] at heq
    exact ⟨p, hreach, fun h => by simpa [heq] using h.reported, heq.1⟩

end PacketTunnelProvider

end SplendidLinker
