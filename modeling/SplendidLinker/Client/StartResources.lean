import SplendidLinker.Client.StartCompletion

/-!
# What the start of the client opens

`SLClient::startTunnelWithServerAddress` opens a socket, creates a bufferevent on it and a resolver,
and asks libevent to connect. It returns early where one of these fails, and closes nothing.
`startTunnelWithServerAddress_cases` lists what a call leaves open, with the status that it
returns.
-/

namespace SplendidLinker

/-- The results of all calls in `startTunnelWithServerAddress`. -/
structure StartOutcomes extends StartCalls where
  /-- `bufferevent_socket_new(mBase, socket, …)` returns a bufferevent. -/
  bufferEvent : Bool
  /-- `evdns_base_new(mBase, 0)` returns a resolver. -/
  dnsBase : Bool
  deriving DecidableEq, Repr

/-- A call of `bufferevent_socket_connect_hostname(bev, dns, AF_INET, address, port)`; an `address`
that is `none` is the null pointer. -/
structure ConnectRequest where
  bev : ℕ
  dns : Option ℕ
  address : Option Bytes
  port : ℤ
  deriving DecidableEq, Repr

/-- A listener of the server. -/
structure Listener where
  /-- The socket that `evconnlistener_new_bind` has opened. -/
  socket : ℕ
  /-- What `inet_addr` was given. -/
  server : Bytes
  port : UInt16
  deriving DecidableEq, Repr

/-- What is open, and what the client and the server refer to. -/
structure Resources where
  sockets : List ℕ := []
  /-- The bufferevents, each with its socket. -/
  bufferEvents : List (ℕ × ℕ) := []
  /-- The resolvers. -/
  dnsBases : List ℕ := []
  /-- The connections that libevent was asked for. -/
  connects : List ConnectRequest := []
  /-- The bufferevent of the client. -/
  mServerBufferEvent : Option ℕ := none
  /-- The listeners of the server. -/
  listeners : List Listener := []
  /-- `SLServer::mOptions`. -/
  mOptions : List (String × Bytes) := []
  /-- `SLServer::mListenPort`. -/
  mListenPort : Int32 := 0
  /-- The next object is given this number. -/
  next : ℕ := 0
  deriving DecidableEq

namespace Resources

/-- `::socket`, where it succeeds. -/
def openSocket (s : Resources) : Resources :=
  { s with sockets := s.sockets ++ [s.next], next := s.next + 1 }

/-- `bufferevent_socket_new`, where it succeeds. -/
def newBufferEvent (s : Resources) (socket : ℕ) : Resources :=
  { s with bufferEvents := s.bufferEvents ++ [(s.next, socket)], next := s.next + 1 }

/-- `evdns_base_new`, where it succeeds. -/
def newDnsBase (s : Resources) : Resources :=
  { s with dnsBases := s.dnsBases ++ [s.next], next := s.next + 1 }

/-- `SLClient::startTunnelWithServerAddress` on a client with these options: the status, and what is
open afterwards. `none` is the call of `bufferevent_setcb` on a null pointer, which ends the
process. -/
def startTunnelWithServerAddress (s : Resources) (options : List (String × Bytes))
    (address : Option Bytes) (port : Int16) (calls : StartOutcomes) :
    Option (TunnelStatus × Resources) :=
  if options.length = 0 then some (.configureInvalid, s)
  else if calls.socket < 0 then some (.tunnelInitError, s)
  else
    let socket := s.next
    let s := s.openSocket
    if calls.nonblocking < 0 then some (.tunnelInitError, s)
    else if calls.bufferEvent = false then none
    else
      let bev := s.next
      let s := { s.newBufferEvent socket with mServerBufferEvent := some bev }
      let dns := if calls.dnsBase then some s.next else none
      let s := if calls.dnsBase then s.newDnsBase else s
      -- the `short` is widened to an `int`
      let s := { s with connects := s.connects ++ [⟨bev, dns, address, port.toInt⟩] }
      if calls.connectHostname < 0 then some (.tunnelInitError, s)
      else some (.onEstablish, s)

/-- Nothing is opened, and the client refers to the same bufferevent. -/
structure Unchanged (s s' : Resources) : Prop where
  sockets : s'.sockets = s.sockets
  bufferEvents : s'.bufferEvents = s.bufferEvents
  dnsBases : s'.dnsBases = s.dnsBases
  listeners : s'.listeners = s.listeners
  mServerBufferEvent : s'.mServerBufferEvent = s.mServerBufferEvent

/-- One bufferevent is added, on one socket and with at most one resolver. It is the one that the
client refers to, and that libevent was asked to connect. -/
def Connecting (s s' : Resources) (address : Option Bytes) (port : Int16) : Prop :=
  ∃ socket bev dns, s'.sockets = s.sockets ++ [socket] ∧
    s'.bufferEvents = s.bufferEvents ++ [(bev, socket)] ∧
    s'.dnsBases = s.dnsBases ++ dns.toList ∧ s'.listeners = s.listeners ∧
    s'.mServerBufferEvent = some bev ∧
    s'.connects = s.connects ++ [⟨bev, dns, address, port.toInt⟩]

variable {s s' : Resources} {options : List (String × Bytes)} {address : Option Bytes}
  {port : Int16} {calls : StartOutcomes} {status : TunnelStatus}

theorem Unchanged.refl (s : Resources) : s.Unchanged s := ⟨rfl, rfl, rfl, rfl, rfl⟩

/-- A socket that is added is a change. -/
theorem not_unchanged_of_sockets {n : ℕ} (h : s'.sockets = s.sockets ++ [n]) :
    ¬ s.Unchanged s' := by
  intro hu
  have hsockets := hu.sockets
  simp [h] at hsockets

/-- **What a call returns, and what it leaves open.** -/
theorem startTunnelWithServerAddress_cases
    (h : s.startTunnelWithServerAddress options address port calls = some (status, s')) :
    (options = [] ∧ status = .configureInvalid ∧ s' = s) ∨
    (options ≠ [] ∧ calls.socket < 0 ∧ status = .tunnelInitError ∧ s' = s) ∨
    (options ≠ [] ∧ 0 ≤ calls.socket ∧ calls.nonblocking < 0 ∧ status = .tunnelInitError ∧
      s' = s.openSocket) ∨
    (options ≠ [] ∧ 0 ≤ calls.socket ∧ 0 ≤ calls.nonblocking ∧ calls.bufferEvent = true ∧
      s.Connecting s' address port ∧
      status = if calls.connectHostname < 0 then .tunnelInitError else .onEstablish) := by
  rw [startTunnelWithServerAddress] at h
  by_cases ho : options = []
  · obtain ⟨rfl, rfl⟩ := Prod.mk.inj (Option.some.inj (by simpa [ho] using h))
    exact .inl ⟨ho, rfl, rfl⟩
  rw [if_neg (by simpa using ho)] at h
  by_cases hs : calls.socket < 0
  · rw [if_pos hs] at h
    obtain ⟨rfl, rfl⟩ := Prod.mk.inj (Option.some.inj h)
    exact .inr (.inl ⟨ho, hs, rfl, rfl⟩)
  rw [if_neg hs] at h
  by_cases hn : calls.nonblocking < 0
  · simp only [if_pos hn] at h
    obtain ⟨rfl, rfl⟩ := Prod.mk.inj (Option.some.inj h)
    exact .inr (.inr (.inl ⟨ho, not_lt.mp hs, hn, rfl, rfl⟩))
  simp only [if_neg hn] at h
  by_cases hb : calls.bufferEvent = false
  · simp [hb] at h
  simp only [if_neg hb] at h
  refine .inr (.inr (.inr ⟨ho, not_lt.mp hs, not_lt.mp hn, by simpa using hb, ?_⟩))
  split_ifs at h with hc hd hd
  all_goals obtain ⟨rfl, rfl⟩ := Prod.mk.inj (Option.some.inj h)
  · exact ⟨⟨s.next, s.next + 1, some (s.next + 2), rfl, rfl, rfl, rfl, rfl, rfl⟩,
      (if_pos hc).symm⟩
  · exact ⟨⟨s.next, s.next + 1, none, rfl, rfl, (List.append_nil _).symm, rfl, rfl, rfl⟩,
      (if_pos hc).symm⟩
  · exact ⟨⟨s.next, s.next + 1, some (s.next + 2), rfl, rfl, rfl, rfl, rfl, rfl⟩,
      (if_neg hc).symm⟩
  · exact ⟨⟨s.next, s.next + 1, none, rfl, rfl, (List.append_nil _).symm, rfl, rfl, rfl⟩,
      (if_neg hc).symm⟩

/-- The process ends exactly where a null bufferevent is used. -/
theorem startTunnelWithServerAddress_eq_none_iff :
    s.startTunnelWithServerAddress options address port calls = none ↔
      options ≠ [] ∧ 0 ≤ calls.socket ∧ 0 ≤ calls.nonblocking ∧ calls.bufferEvent = false := by
  rw [startTunnelWithServerAddress]
  split_ifs with ho hs hn hb <;> simp_all

/-- The status is the one of `SLClient.startTunnelWithServerAddress`. -/
theorem startTunnelWithServerAddress_status {c : SLClient}
    (h : s.startTunnelWithServerAddress c.mOptions address port calls = some (status, s')) :
    status = c.startTunnelWithServerAddress calls.toStartCalls := by
  rw [SLClient.startTunnelWithServerAddress]
  rcases startTunnelWithServerAddress_cases h with ⟨ho, rfl, -⟩ | ⟨ho, hs, rfl, -⟩ |
    ⟨ho, hs, hn, rfl, -⟩ | ⟨ho, hs, hn, -, -, rfl⟩
  · simp [ho]
  · simp [ho, hs]
  · simp [ho, hn]
  · simp [ho, not_lt.mpr hs, not_lt.mpr hn]

end Resources

end SplendidLinker
