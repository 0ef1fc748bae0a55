import Mathlib.Logic.Function.Basic
import SplendidLinker.Foundations.Recording
import SplendidLinker.Tunnel.Buffer

/-!
# Addressed delivery

The server program registers the bufferevent of a connection in `mClientBufferEvent`, under the
ip that it assigns to the client, and `SLServer::writePacketToIp` looks it up there to write a
frame to it. `cb_event` of `SLConnection.cpp` frees the bufferevent of a connection that ends.

A write should append one frame to the output of the live connection that is registered under the
ip, and do nothing else (`Delivers`); without such a connection it should do nothing. But the
lookup inserts a null pointer under an unknown ip, and no entry is removed when a connection ends,
while its address can be given to a new one. So the law is kept exactly by the runs that write
only to an ip under which a live connection is registered (`delivers_iff`).
-/

namespace SplendidLinker

open Foundations

/-- The use of a pointer that refers to no bufferevent. -/
inductive PointerFault
  | null
  | freed
  deriving DecidableEq, Repr

/-- The bufferevents of a server, by address, and its registry. -/
structure ClientRegistry where
  /-- `mClientBufferEvent`: no entry, an entry with a null pointer, or an entry with an address. -/
  mClientBufferEvent : Bytes → Option (Option ℕ) := fun _ => none
  /-- There is a bufferevent at the address. -/
  live : ℕ → Bool := fun _ => false
  /-- The bytes appended to the output buffer of the bufferevent at the address. -/
  output : ℕ → Bytes := fun _ => []
  /-- The fault with which the process has ended. -/
  fault : Option PointerFault := none
  /-- The live connection that was registered last under the ip. No code of the server keeps this;
  the law refers to it. -/
  registered : Bytes → Option ℕ := fun _ => none

/-- The arguments of a call of `writePacketToIp` with a size that is not negative: `data` points
to at least `size` bytes. -/
structure AddressedPacket where
  s : Bytes
  data : Bytes
  size : Int32
  nonneg : 0 ≤ size.toInt
  readable : size.toInt ≤ data.length

/-- What happens to the bufferevents of a server. -/
inductive RegistryAction
  /-- A connection is accepted, and its bufferevent allocated at the address `bev`. -/
  | connect (bev : ℕ)
  /-- `get_mClientBufferEvent()[ip] = bev`, in a callback of the connection. -/
  | register (ip : Bytes) (bev : ℕ)
  /-- `cb_event`: the connection ends and its bufferevent is freed. -/
  | close (bev : ℕ)
  /-- A call of `writePacketToIp`. -/
  | write (p : AddressedPacket)

/-- `mClientBufferEvent[s]`: a missing entry is inserted with a null pointer. -/
def SLServer.clientBufferEvent (m : Bytes → Option (Option ℕ)) (s : Bytes) :
    Option ℕ × (Bytes → Option (Option ℕ)) :=
  match m s with
  | some bev => (bev, m)
  | none => (none, Function.update m s (some none))

/-- `SLServer::writePacketToIp`. -/
def SLServer.writePacketToIp (o : ByteOrder) (r : ClientRegistry) (s data : Bytes)
    (size : Int32) : ClientRegistry :=
  let found := SLServer.clientBufferEvent r.mClientBufferEvent s
  let r := { r with mClientBufferEvent := found.2 }
  match found.1 with
  | none => { r with fault := some .null }
  | some bev =>
    if r.live bev then
      let l := size.toUInt32
      { r with
        output := Function.update r.output bev (r.output bev ++ (writeFrame o data l).flatten) }
    else { r with fault := some .freed }

namespace ClientRegistry

/-- A connection is accepted. -/
def connect (r : ClientRegistry) (bev : ℕ) : ClientRegistry :=
  { r with
    live := Function.update r.live bev true
    output := Function.update r.output bev [] }

/-- `get_mClientBufferEvent()[ip] = bev`. -/
def register (r : ClientRegistry) (ip : Bytes) (bev : ℕ) : ClientRegistry :=
  { r with
    mClientBufferEvent := Function.update r.mClientBufferEvent ip (some (some bev))
    registered := Function.update r.registered ip (some bev) }

/-- `bufferevent_free(bev)`: nothing is removed from the registry. -/
def close (r : ClientRegistry) (bev : ℕ) : ClientRegistry :=
  { r with
    live := Function.update r.live bev false
    registered := fun ip => if r.registered ip = some bev then none else r.registered ip }

/-- One action, where it is possible. -/
def step (o : ByteOrder) (r : ClientRegistry) (a : RegistryAction) : Option ClientRegistry :=
  match r.fault, a with
  | some _, _ => none
  | none, .connect bev => if r.live bev then none else some (r.connect bev)
  | none, .register ip bev => if r.live bev then some (r.register ip bev) else none
  | none, .close bev => if r.live bev then some (r.close bev) else none
  | none, .write p => some (SLServer.writePacketToIp o r p.s p.data p.size)

/-- The law of a write that makes `r'` of `r`. -/
structure Delivers (o : ByteOrder) (r : ClientRegistry) (p : AddressedPacket)
    (r' : ClientRegistry) : Prop where
  /-- One frame is appended to the output of the connection registered under the ip, and nothing
  to any other. -/
  output : ∀ bev, r'.output bev = r.output bev ++
    if r.registered p.s = some bev then (hostLength o).frame (p.data.take p.size.toInt.toNat)
    else []
  /-- The registry is not changed. -/
  map : r'.mClientBufferEvent = r.mClientBufferEvent
  /-- The process goes on. -/
  returns : r'.fault = none

/-- The next step is not a write to an ip without a live connection. -/
def Registered (r : ClientRegistry) : RegistryAction → Prop
  | .write p => r.registered p.s ≠ none
  | _ => True

/-- The writes of a step: the states around it and the packet. -/
def writes (o : ByteOrder) (r : ClientRegistry) :
    RegistryAction → List (ClientRegistry × AddressedPacket × ClientRegistry)
  | .write p => [(r, p, SLServer.writePacketToIp o r p.s p.data p.size)]
  | _ => []

end ClientRegistry

/-- A server without connections. -/
def clientRegistry (o : ByteOrder) : TransitionSystem ClientRegistry RegistryAction where
  init r := r = {}
  step := ClientRegistry.step o

/-- The server with the writes that were made. -/
def addressedWrites (o : ByteOrder) :
    TransitionSystem (ClientRegistry × List (ClientRegistry × AddressedPacket × ClientRegistry))
      RegistryAction :=
  (clientRegistry o).recording (ClientRegistry.writes o)

namespace ClientRegistry

variable {o : ByteOrder} {r r' : ClientRegistry} {a : RegistryAction} {p : AddressedPacket}
  {bev : ℕ}

/-! ### The actions -/

/-- **What an action does.** -/
theorem step_cases (h : r.step o a = some r') : r.fault = none ∧
    ((∃ bev, a = .connect bev ∧ r.live bev = false ∧ r' = r.connect bev) ∨
    (∃ ip bev, a = .register ip bev ∧ r.live bev = true ∧ r' = r.register ip bev) ∨
    (∃ bev, a = .close bev ∧ r' = r.close bev) ∨
    ∃ p, a = .write p ∧ r' = SLServer.writePacketToIp o r p.s p.data p.size) := by
  unfold step at h
  split at h
  case h_1 => cases h
  case h_2 bev hfault =>
    split_ifs at h with hlive
    exact ⟨hfault, .inl ⟨bev, rfl, Bool.eq_false_iff.mpr hlive, (Option.some.inj h).symm⟩⟩
  case h_3 ip bev hfault =>
    split_ifs at h with hlive
    exact ⟨hfault, .inr (.inl ⟨ip, bev, rfl, hlive, (Option.some.inj h).symm⟩)⟩
  case h_4 bev hfault =>
    split_ifs at h with hlive
    exact ⟨hfault, .inr (.inr (.inl ⟨bev, rfl, (Option.some.inj h).symm⟩))⟩
  case h_5 p hfault => exact ⟨hfault, .inr (.inr (.inr ⟨p, rfl, (Option.some.inj h).symm⟩))⟩

/-- A write to an ip with an entry that refers to a bufferevent. -/
theorem writePacketToIp_of_live (hentry : r.mClientBufferEvent p.s = some (some bev))
    (hlive : r.live bev = true) :
    SLServer.writePacketToIp o r p.s p.data p.size = { r with
      output := Function.update r.output bev
        (r.output bev ++ (hostLength o).frame (p.data.take p.size.toInt.toNat)) } := by
  rw [SLServer.writePacketToIp, SLServer.clientBufferEvent, hentry]
  simp only [hlive, if_true, flatten_writeFrame_int o p.nonneg p.readable]

/-- A write to an ip with an entry that refers to none. -/
theorem fault_of_freed (hentry : r.mClientBufferEvent p.s = some (some bev))
    (hlive : r.live bev = false) :
    (SLServer.writePacketToIp o r p.s p.data p.size).fault = some .freed := by
  rw [SLServer.writePacketToIp, SLServer.clientBufferEvent, hentry]
  simp [hlive]

/-- A write to an ip without an entry, or with a null pointer. -/
theorem fault_of_null (hentry : ∀ bev, r.mClientBufferEvent p.s ≠ some (some bev)) :
    (SLServer.writePacketToIp o r p.s p.data p.size).fault = some .null := by
  rw [SLServer.writePacketToIp, SLServer.clientBufferEvent]
  cases h : r.mClientBufferEvent p.s with
  | none => rfl
  | some bev =>
    cases bev with
    | none => rfl
    | some bev => exact absurd h (hentry bev)

/-- A write frees no bufferevent and registers none, and removes or replaces no entry. -/
theorem writePacketToIp_frame (o : ByteOrder) (r : ClientRegistry) (p : AddressedPacket) :
    (SLServer.writePacketToIp o r p.s p.data p.size).live = r.live ∧
    (SLServer.writePacketToIp o r p.s p.data p.size).registered = r.registered ∧
    ∀ ip entry, r.mClientBufferEvent ip = some entry →
      (SLServer.writePacketToIp o r p.s p.data p.size).mClientBufferEvent ip = some entry := by
  have hentry : ∀ ip entry, r.mClientBufferEvent ip = some entry →
      (SLServer.clientBufferEvent r.mClientBufferEvent p.s).2 ip = some entry := by
    intro ip entry h
    rw [SLServer.clientBufferEvent]
    cases hs : r.mClientBufferEvent p.s with
    | some bev => exact h
    | none =>
      have hne : ip ≠ p.s := fun heq => by simp [heq, hs] at h
      simp only [Function.update_of_ne hne, h]
  rw [SLServer.writePacketToIp]
  generalize SLServer.clientBufferEvent r.mClientBufferEvent p.s = found at hentry ⊢
  obtain ⟨bev, m⟩ := found
  cases bev with
  | none => exact ⟨rfl, rfl, hentry⟩
  | some bev =>
    cases hlive : r.live bev <;>
      · simp only [hlive]
        exact ⟨rfl, rfl, hentry⟩

/-! ### The invariant -/

/-- **The registry and the connections.** A connection that is registered and has not ended is
live, and the entry refers to it. -/
def Consistent (r : ClientRegistry) : Prop :=
  ∀ ip bev, r.registered ip = some bev →
    r.mClientBufferEvent ip = some (some bev) ∧ r.live bev = true

theorem Consistent.connect (h : r.Consistent) (bev : ℕ) : (r.connect bev).Consistent := by
  intro ip bev' hreg
  obtain ⟨hentry, hlive⟩ := h ip bev' hreg
  refine ⟨hentry, ?_⟩
  by_cases hb : bev' = bev
  · simp [ClientRegistry.connect, hb]
  · simp [ClientRegistry.connect, hb, hlive]

theorem Consistent.register (h : r.Consistent) (ip : Bytes) (hlive : r.live bev = true) :
    (r.register ip bev).Consistent := by
  intro ip' bev' hreg
  by_cases hip : ip' = ip
  · simp only [ClientRegistry.register, hip, Function.update_self] at hreg
    obtain rfl := Option.some.inj hreg
    exact ⟨by simp [ClientRegistry.register, hip], hlive⟩
  · simp only [ClientRegistry.register, Function.update_of_ne hip] at hreg ⊢
    exact h ip' bev' hreg

theorem Consistent.close (h : r.Consistent) (bev : ℕ) : (r.close bev).Consistent := by
  intro ip bev' hreg
  simp only [ClientRegistry.close] at hreg ⊢
  split_ifs at hreg with hended
  obtain ⟨hentry, hlive⟩ := h ip bev' hreg
  have hne : bev' ≠ bev := fun heq => hended (heq ▸ hreg)
  exact ⟨hentry, by rw [Function.update_of_ne hne, hlive]⟩

theorem Consistent.write (h : r.Consistent) (o : ByteOrder) (p : AddressedPacket) :
    (SLServer.writePacketToIp o r p.s p.data p.size).Consistent := by
  obtain ⟨hlive, hregistered, hentry⟩ := writePacketToIp_frame o r p
  intro ip bev hreg
  rw [hregistered] at hreg
  rw [hlive]
  exact ⟨hentry ip _ (h ip bev hreg).1, (h ip bev hreg).2⟩

theorem consistent_of_reachable (h : (clientRegistry o).Reachable r) : r.Consistent := by
  refine h.invariant ?_ fun r a r' hr hstep => ?_
  · rintro r rfl ip bev hreg
    cases hreg
  · obtain ⟨-, ⟨bev, -, -, rfl⟩ | ⟨ip, bev, -, hlive, rfl⟩ | ⟨bev, -, rfl⟩ | ⟨p, -, rfl⟩⟩ :=
      step_cases hstep
    · exact hr.connect bev
    · exact hr.register ip hlive
    · exact hr.close bev
    · exact hr.write o p

/-! ### The law -/

/-- **A write keeps its law exactly if a live connection is registered under the ip.** -/
theorem delivers_write_iff (h : r.Consistent) (hfault : r.fault = none) :
    Delivers o r p (SLServer.writePacketToIp o r p.s p.data p.size) ↔ r.registered p.s ≠ none := by
  constructor
  · intro hlaw hnone
    by_cases hentry : ∃ bev, r.mClientBufferEvent p.s = some (some bev)
    · obtain ⟨bev, hentry⟩ := hentry
      cases hlive : r.live bev with
      | false =>
        have := hlaw.returns
        rw [fault_of_freed hentry hlive] at this
        cases this
      | true =>
        -- the address is that of another connection by now
        have hout := hlaw.output bev
        rw [writePacketToIp_of_live hentry hlive, hnone] at hout
        have hframe : (hostLength o).frame (p.data.take p.size.toInt.toNat) = [] := by
          simpa using hout
        have hlen := congrArg List.length hframe
        rw [LengthCode.length_frame, hostLength_width, List.length_nil] at hlen
        omega
    · have := hlaw.returns
      rw [fault_of_null (not_exists.mp hentry)] at this
      cases this
  · intro hreg
    obtain ⟨bev, hreg⟩ := Option.ne_none_iff_exists'.mp hreg
    obtain ⟨hentry, hlive⟩ := h p.s bev hreg
    rw [writePacketToIp_of_live hentry hlive]
    refine ⟨fun bev' => ?_, rfl, hfault⟩
    by_cases hb : bev' = bev
    · simp [hb, hreg]
    · simp [hb, hreg, Ne.symm hb]

/-- **Addressed delivery.** The writes of a run keep their law exactly if each of them is to an
ip under which a live connection is registered. -/
theorem delivers_iff
    {q : ClientRegistry × List (ClientRegistry × AddressedPacket × ClientRegistry)}
    (h : (addressedWrites o).Reachable q) :
    (∀ w ∈ q.2, Delivers o w.1 w.2.1 w.2.2) ↔
      (addressedWrites o).ReachableUnder (fun q a => q.1.Registered a) q := by
  refine TransitionSystem.forall_mem_log_iff (P := fun w => Delivers o w.1 w.2.1 w.2.2)
    (fun r a r' hr hstep => ?_) h
  obtain ⟨hfault, hcases⟩ := step_cases hstep
  rcases hcases with ⟨bev, rfl, -⟩ | ⟨ip, bev, rfl, -⟩ | ⟨bev, rfl, -⟩ | ⟨p, rfl, -⟩
  · simp [writes, Registered]
  · simp [writes, Registered]
  · simp [writes, Registered]
  · rw [writes, List.forall_mem_singleton]
    exact delivers_write_iff (consistent_of_reachable hr) hfault

/-- Two bytes for the ip `[1]`. -/
private def twoBytes : AddressedPacket :=
  { s := [1], data := [7, 8], size := 2, nonneg := by decide, readable := by decide }

/-- A connection is registered, and a frame is written to it. -/
theorem delivers_iff_registered :
    ∃ q, (addressedWrites .little).ReachableUnder (fun q a => q.1.Registered a) q ∧
      q.1.output 5 = [2, 0, 0, 0, 7, 8] ∧ ∀ w ∈ q.2, Delivers .little w.1 w.2.1 w.2.2 := by
  have h₀ : (addressedWrites .little).ReachableUnder (fun q a => q.1.Registered a) ({}, []) :=
    .init ⟨rfl, rfl⟩
  have h₁ := h₀.step (l := RegistryAction.connect 5) trivial rfl
  have h₂ := h₁.step (l := RegistryAction.register [1] 5) trivial rfl
  have h₃ := h₂.step (l := RegistryAction.write twoBytes) (Option.some_ne_none 5) rfl
  exact ⟨_, h₃, by decide, (delivers_iff h₃.reachable).mpr h₃⟩

/-- A write to an unknown ip; a write after the connection has ended; and the same after another
connection has been given the address. -/
theorem not_delivers :
    (¬ ∀ q, (addressedWrites .little).Reachable q → ∀ w ∈ q.2, Delivers .little w.1 w.2.1 w.2.2) ∧
    (∃ r, (clientRegistry .little).Reachable r ∧ r.fault = some .null ∧
      r.mClientBufferEvent [1] = some none) ∧
    (∃ r, (clientRegistry .little).Reachable r ∧ r.fault = some .freed) ∧
    ∃ r, (clientRegistry .little).Reachable r ∧ r.registered [1] = none ∧
      r.output 5 = [2, 0, 0, 0, 7, 8] := by
  have hinit : (clientRegistry .little).init {} := rfl
  have hunknown : ((clientRegistry .little).replay {} [.write twoBytes]).map
      (fun r => (r.fault, r.mClientBufferEvent [1])) = some (some .null, some none) := by decide
  have hended : ((clientRegistry .little).replay {}
      [.connect 5, .register [1] 5, .close 5, .write twoBytes]).map (·.fault) =
        some (some .freed) := by decide
  have hother : ((clientRegistry .little).replay {}
      [.connect 5, .register [1] 5, .close 5, .connect 5, .write twoBytes]).map
        (fun r => (r.registered [1], r.output 5)) = some (none, [2, 0, 0, 0, 7, 8]) := by decide
  obtain ⟨r₁, hr₁, h₁⟩ := TransitionSystem.exists_reachable_of_replay hinit hunknown
  obtain ⟨r₃, hr₃, h₃⟩ := TransitionSystem.exists_reachable_of_replay hinit hother
  refine ⟨fun h => ?_, ⟨r₁, hr₁, Prod.mk.inj h₁⟩,
    TransitionSystem.exists_reachable_of_replay hinit hended, ⟨r₃, hr₃, Prod.mk.inj h₃⟩⟩
  have hstart : (addressedWrites .little).Reachable ({}, []) := .init ⟨rfl, rfl⟩
  have hwrite := hstart.next (l := RegistryAction.write twoBytes) rfl
  have hlaw := h _ hwrite _ (List.mem_singleton_self _)
  cases hlaw.returns

end ClientRegistry

end SplendidLinker
