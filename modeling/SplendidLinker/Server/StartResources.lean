import SplendidLinker.Client.StartResources
import SplendidLinker.Foundations.Recording

/-!
# What the starts leave open

`SLServer::startServerWithOptions` opens a socket and then has libevent make a listener, which
opens a socket of its own. A start should be all or nothing (`Resources.AllOrNothing`): after an
error nothing is open that was not open before, and after a success only what the client or the
server uses.

No error path of the two starts closes anything, and the first socket of the server is never
used. So a start is all or nothing exactly if it fails before its first socket is open, or is a
start of the client in which nothing fails (`StartAction.Complete`).
-/

namespace SplendidLinker

open Foundations

/-- The results of the calls in `startServerWithOptions`. -/
structure ServerCalls where
  /-- `::socket(AF_INET, SOCK_STREAM, 0)`. -/
  socket : ℤ
  /-- `evconnlistener_new_bind(mBase, …)` returns a listener. -/
  listener : Bool
  deriving DecidableEq, Repr

/-- The calls that start a tunnel. -/
inductive StartAction
  /-- `startTunnelWithServerAddress` of a client with these options. -/
  | client (options : List (String × Bytes)) (address : Option Bytes) (port : Int16)
      (calls : StartOutcomes)
  /-- `startServerWithOptions`. -/
  | server (listenPort : Int32) (options : List (String × Bytes)) (calls : ServerCalls)

namespace Resources

/-- `evconnlistener_new_bind`, where it succeeds. -/
def newListener (s : Resources) (server : Bytes) (port : UInt16) : Resources :=
  { s with
    sockets := s.sockets ++ [s.next]
    listeners := s.listeners ++ [⟨s.next, server, port⟩]
    next := s.next + 1 }

/-- `SLServer::startServerWithOptions`: the status, and what is open afterwards. -/
def startServerWithOptions (s : Resources) (listenPort : Int32) (options : List (String × Bytes))
    (calls : ServerCalls) : TunnelStatus × Resources :=
  let s := { s with mOptions := options, mListenPort := listenPort }
  if calls.socket < 0 then (.configureInvalid, s)
  else
    -- the listener does not use this socket
    let s := s.openSocket
    let server := (s.mOptions.lookup "server").getD (ascii "0.0.0.0")
    if calls.listener = false then (.configureInvalid, s)
    -- `htons` takes the lower half
    else (.establish, s.newListener server listenPort.toUInt32.toUInt16)

/-- One listener is added, with its socket. -/
def Listening (s s' : Resources) : Prop :=
  ∃ l : Listener, s'.sockets = s.sockets ++ [l.socket] ∧ s'.listeners = s.listeners ++ [l] ∧
    s'.bufferEvents = s.bufferEvents ∧ s'.dnsBases = s.dnsBases ∧
    s'.mServerBufferEvent = s.mServerBufferEvent

/-- A start: the status, and what is open afterwards. -/
def start (s : Resources) : StartAction → Option (TunnelStatus × Resources)
  | .client options address port calls =>
    s.startTunnelWithServerAddress options address port calls
  | .server listenPort options calls => some (s.startServerWithOptions listenPort options calls)

/-- What has to be open after a start. -/
def Expected (s s' : Resources) : StartAction → TunnelStatus → Prop
  | .client _ address port _, .onEstablish => s.Connecting s' address port
  | .server .., .establish => s.Listening s'
  | _, _ => s.Unchanged s'

/-- **All or nothing**, for one start. -/
def AllOrNothing (s : Resources) (a : StartAction) : Prop :=
  ∀ status s', s.start a = some (status, s') → s.Expected s' a status

end Resources

/-- The start fails before its first socket is open, or it is one of the client and goes
through. -/
def StartAction.Complete : StartAction → Prop
  | .client options _ _ calls =>
    options = [] ∨ calls.socket < 0 ∨ 0 ≤ calls.nonblocking ∧ 0 ≤ calls.connectHostname
  | .server _ _ calls => calls.socket < 0

instance : DecidablePred StartAction.Complete
  | .client .. => inferInstanceAs (Decidable (_ ∨ _))
  | .server .. => inferInstanceAs (Decidable (_ < _))

/-- Any sequence of starts. -/
def starts : TransitionSystem Resources StartAction where
  init s := s = {}
  step s a := (s.start a).map Prod.snd

namespace Resources

variable {s s' : Resources} {a : StartAction} {status : TunnelStatus}

/-- **What a start of the server returns, and what it leaves open.** -/
theorem startServerWithOptions_cases {listenPort : Int32} {options : List (String × Bytes)}
    {calls : ServerCalls}
    (h : s.startServerWithOptions listenPort options calls = (status, s')) :
    (calls.socket < 0 ∧ status = .configureInvalid ∧ s.Unchanged s') ∨
    (0 ≤ calls.socket ∧ status = .configureInvalid ∧ s'.sockets = s.sockets ++ [s.next]) ∨
    (0 ≤ calls.socket ∧ status = .establish ∧
      s'.sockets = s.sockets ++ [s.next] ++ [s.next + 1]) := by
  rw [startServerWithOptions] at h
  by_cases hs : calls.socket < 0
  · simp only [if_pos hs] at h
    obtain ⟨rfl, rfl⟩ := Prod.mk.inj h
    exact .inl ⟨hs, rfl, rfl, rfl, rfl, rfl, rfl⟩
  simp only [if_neg hs] at h
  split_ifs at h with hl
  · obtain ⟨rfl, rfl⟩ := Prod.mk.inj h
    exact .inr (.inl ⟨not_lt.mp hs, rfl, rfl⟩)
  · obtain ⟨rfl, rfl⟩ := Prod.mk.inj h
    exact .inr (.inr ⟨not_lt.mp hs, rfl, rfl⟩)

/-- A listener accounts for one socket, and not for two. -/
theorem not_listening_of_sockets {m n : ℕ} (h : s'.sockets = s.sockets ++ [m] ++ [n]) :
    ¬ s.Listening s' := by
  rintro ⟨l, hsockets, -⟩
  have hlength := congrArg List.length (h.symm.trans hsockets)
  simp at hlength

/-- **What a start has to leave open, it does exactly if it is complete.** -/
theorem expected_iff (h : s.start a = some (status, s')) :
    s.Expected s' a status ↔ a.Complete := by
  cases a with
  | client options address port calls =>
    rcases startTunnelWithServerAddress_cases h with ⟨ho, rfl, rfl⟩ | ⟨ho, hs, rfl, rfl⟩ |
      ⟨ho, hs, hn, rfl, rfl⟩ | ⟨ho, hs, hn, -, hconnecting, rfl⟩
    · exact iff_of_true (Unchanged.refl _) (.inl ho)
    · exact iff_of_true (Unchanged.refl _) (.inr (.inl hs))
    · refine iff_of_false (not_unchanged_of_sockets rfl) ?_
      simp [StartAction.Complete, ho, hs, hn]
    · split_ifs with hc
      · -- the connection is not begun, and everything that it needs is open
        obtain ⟨socket, bev, dns, hsockets, -⟩ := hconnecting
        refine iff_of_false (not_unchanged_of_sockets hsockets) ?_
        simp [StartAction.Complete, ho, hs, hc]
      · exact iff_of_true hconnecting (.inr (.inr ⟨hn, not_lt.mp hc⟩))
  | server listenPort options calls =>
    rcases startServerWithOptions_cases (Option.some.inj h) with ⟨hs, rfl, hunchanged⟩ |
      ⟨hs, rfl, hsockets⟩ | ⟨hs, rfl, hsockets⟩
    · exact iff_of_true hunchanged hs
    · exact iff_of_false (not_unchanged_of_sockets hsockets) (not_lt.mpr hs)
    · exact iff_of_false (not_listening_of_sockets hsockets) (not_lt.mpr hs)

/-- **The starts of a run are all or nothing exactly if they are complete.** -/
theorem allOrNothing_iff {p : Resources × List (Resources × StartAction)}
    (h : starts.history.Reachable p) :
    (∀ e ∈ p.2, e.1.AllOrNothing e.2) ↔
      starts.history.ReachableUnder (fun _ a => a.Complete) p := by
  refine TransitionSystem.forall_mem_log_iff (G := fun _ a => a.Complete)
    (P := fun e => e.1.AllOrNothing e.2) (fun s a s' _ hstep => ?_) h
  obtain ⟨⟨status, t⟩, hstart, -⟩ := Option.map_eq_some_iff.mp hstep
  rw [List.forall_mem_singleton, ← expected_iff hstart]
  constructor
  · exact fun hall => hall status t hstart
  · intro hexpected status' t' hstart'
    obtain ⟨rfl, rfl⟩ := Prod.mk.inj (Option.some.inj (hstart.symm.trans hstart'))
    exact hexpected

/-- The results of calls that succeed. -/
private def allSucceed : StartOutcomes where
  socket := 3
  nonblocking := 0
  connectHostname := 0
  bufferEvent := true
  dnsBase := true

/-- A start that fails for want of a socket, and a second one that goes through. -/
theorem allOrNothing_iff_retry :
    ∃ p, starts.history.Reachable p ∧ p.1.mServerBufferEvent = some 1 ∧
      ∀ e ∈ p.2, e.1.AllOrNothing e.2 := by
  have h₀ : starts.history.ReachableUnder (fun _ a => a.Complete) ({}, []) := .init ⟨rfl, rfl⟩
  have h₁ := h₀.step (l := .client adminOptions (some (ascii "a")) 80
    { allSucceed with socket := -1 }) (by decide) rfl
  have h₂ := h₁.step (l := .client adminOptions (some (ascii "a")) 80 allSucceed) (by decide) rfl
  exact ⟨_, h₂.reachable, rfl, (allOrNothing_iff h₂.reachable).mpr h₂⟩

/-- The connection of a client cannot be begun; its socket cannot be made non-blocking; the
server cannot listen; the server listens. -/
theorem not_allOrNothing :
    (∃ s', start {} (.client adminOptions (some (ascii "a")) 80
        { allSucceed with connectHostname := -1 }) = some (.tunnelInitError, s') ∧
      s'.sockets = [0] ∧ s'.bufferEvents = [(1, 0)] ∧ s'.dnsBases = [2] ∧
      s'.mServerBufferEvent = some 1) ∧
    (∃ s', start {} (.client adminOptions (some (ascii "a")) 80
        { allSucceed with nonblocking := -1 }) = some (.tunnelInitError, s') ∧
      s'.sockets = [0]) ∧
    (∃ s', start {} (.server 10080 [] ⟨3, false⟩) = some (.configureInvalid, s') ∧
      s'.sockets = [0]) ∧
    (∃ s', start {} (.server 10080 [] ⟨3, true⟩) = some (.establish, s') ∧
      s'.sockets = [0, 1] ∧ s'.listeners = [⟨1, ascii "0.0.0.0", 10080⟩]) ∧
    ¬ ∀ p, starts.history.Reachable p → ∀ e ∈ p.2, e.1.AllOrNothing e.2 := by
  refine ⟨⟨_, rfl, rfl, rfl, rfl, rfl⟩, ⟨_, rfl, rfl⟩, ⟨_, rfl, rfl⟩, ⟨_, rfl, rfl, rfl⟩,
    fun hall => ?_⟩
  have h₀ : starts.history.Reachable ({}, []) := .init ⟨rfl, rfl⟩
  have h₁ := h₀.next (l := .server 10080 [] ⟨3, true⟩) rfl
  have hlaw := hall _ h₁ _ (List.mem_singleton_self _) .establish _ rfl
  exact not_listening_of_sockets rfl hlaw

end Resources

end SplendidLinker
