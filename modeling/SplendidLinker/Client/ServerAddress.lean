import Mathlib.Data.List.TakeWhile
import Mathlib.Data.Nat.Digits.Defs
import SplendidLinker.Client.StartResources

/-!
# The server address

`startTunnelWithOptions` splits the configured `serverAddress` at its colons, takes the first part
for the host and the second for the port, and passes both to
`SLClient::startTunnelWithServerAddress`.

An address `host:port` should make libevent connect to this host and this port, and any other
string should be reported as an error (`HandlesAddress`). The code neither counts the parts nor
checks what it reads, and the port passes through a `short` on its way to libevent.
`handlesAddress_iff` says for which strings it does what it should.
-/

namespace SplendidLinker

open Foundations

/-- A `NSString`: its UTF-16 code units. -/
abbrev NSString := List UInt16

/-- The code unit of `:`. -/
def colon : UInt16 := 0x3A

/-- `cStringUsingEncoding:NSASCIIStringEncoding`, as a reader of C strings sees it; `none` is the
null pointer that stands for a string that is not ASCII. -/
def cStringUsingEncoding (s : NSString) : Option Bytes :=
  if s.all (· < 128) then some ((s.takeWhile (· ≠ 0)).map UInt16.toUInt8) else none

/-- A character of a C string in ASCII. -/
def isPlainAscii (c : UInt16) : Bool := c ≠ 0 && c < 128

/-- A decimal digit. -/
def isDigit (c : UInt16) : Bool := 0x30 ≤ c && c ≤ 0x39

/-- The digits of a decimal number. -/
def IsDecimal (s : NSString) : Prop := s ≠ [] ∧ s.all isDigit

/-- The number that a string of digits denotes. -/
def decimalValue (s : NSString) : ℕ := Nat.ofDigits 10 (s.map fun c => c.toNat - 0x30).reverse

/-- What `integerValue` of `NSString` is documented to do with the digits of a number that a
`NSInteger` can hold. -/
def ReadsDecimal (integerValue : NSString → Int64) : Prop :=
  ∀ s, IsDecimal s → decimalValue s < 2 ^ 63 → (integerValue s).toInt = decimalValue s

/-- `serverAddress` is `host:port`. -/
structure IsServerAddress (serverAddress host : NSString) (port : ℕ) : Prop where
  parts : ∃ portString, serverAddress = host ++ colon :: portString ∧ IsDecimal portString ∧
    decimalValue portString = port
  host_ne : host ≠ []
  no_colon : colon ∉ host
  range : 1 ≤ port ∧ port ≤ 65535

/-- The system and libevent during a start. -/
structure Environment where
  socket : ℤ
  nonblocking : ℤ
  bufferEvent : Bool
  dnsBase : Bool
  /-- `bufferevent_socket_connect_hostname(bev, dns, AF_INET, address, port)`. -/
  connectHostname : Option Bytes → ℤ → ℤ

namespace Environment

/-- The results of a start that asks for this address and port. -/
def outcomes (e : Environment) (address : Option Bytes) (port : ℤ) : StartOutcomes where
  socket := e.socket
  nonblocking := e.nonblocking
  connectHostname := e.connectHostname address port
  bufferEvent := e.bufferEvent
  dnsBase := e.dnsBase

/-- libevent rejects ports outside `1..65535`. -/
def RejectsPorts (e : Environment) : Prop :=
  ∀ address port, ¬ (1 ≤ port ∧ port ≤ 65535) → e.connectHostname address port < 0

/-- There is a socket to connect. -/
structure Ready (e : Environment) : Prop where
  socket : 0 ≤ e.socket
  nonblocking : 0 ≤ e.nonblocking

end Environment

/-- How `startTunnelWithOptions` ends. -/
inductive StartResult
  /-- `ta[1]` raises an `NSRangeException`. -/
  | rangeException
  /-- A null bufferevent is used. -/
  | nullBufferEvent
  | returned (provider : PacketTunnelProvider) (resources : Resources)

/-- `startTunnelWithOptions`, on the thread that calls it. -/
def PacketTunnelProvider.startTunnelWithOptions (integerValue : NSString → Int64)
    (serverAddress : NSString) (e : Environment) : StartResult :=
  let p : PacketTunnelProvider := { client := .start adminOptions }
  -- `componentsSeparatedByString:@":"`
  match serverAddress.splitOn colon with
  | addressString :: portString :: _ =>
    let address := cStringUsingEncoding addressString
    let port := (integerValue portString).toInt16
    match Resources.startTunnelWithServerAddress {} p.client.mOptions address port
        (e.outcomes address port.toInt) with
    | none => .nullBufferEvent
    | some (status, s) => .returned { p.finishStart status with start := .returned status } s
  | _ => .rangeException

namespace StartResult

/-- libevent was asked for one connection, to this host and this port. -/
def AsksFor (host : NSString) (port : ℕ) : StartResult → Prop
  | .returned _ s => ∃ bev dns address, s.connects = [⟨bev, dns, some address, port⟩] ∧
      address.map UInt8.toUInt16 = host
  | _ => False

/-- An error was reported through the completion handler. -/
def ReportsError : StartResult → Prop
  | .returned p _ => ∃ code, some code ∈ p.completions
  | _ => False

end StartResult

/-- **The law of the server address**, for a string, where `bufferevent_socket_new` returns a
bufferevent or not. -/
def HandlesAddress (integerValue : NSString → Int64) (serverAddress : NSString)
    (bufferEvent : Bool) : Prop :=
  ∀ e : Environment, e.bufferEvent = bufferEvent → e.RejectsPorts →
    (∀ host port, IsServerAddress serverAddress host port → e.Ready →
      (PacketTunnelProvider.startTunnelWithOptions integerValue serverAddress e).AsksFor
        host port) ∧
    ((∀ host port, ¬ IsServerAddress serverAddress host port) →
      (PacketTunnelProvider.startTunnelWithOptions integerValue serverAddress e).ReportsError)

variable {integerValue : NSString → Int64} {serverAddress host addressString portString : NSString}
  {rest : List NSString} {port : ℕ} {e : Environment}

/-! ### The parts of the string -/

/-- The parts of an address `host:port`. -/
theorem IsServerAddress.splitOn (h : IsServerAddress serverAddress host port) :
    ∃ portString, serverAddress.splitOn colon = [host, portString] ∧ IsDecimal portString ∧
      decimalValue portString = port := by
  obtain ⟨portString, rfl, hdecimal, hvalue⟩ := h.parts
  have hcolon : colon ∉ portString := by
    intro hmem
    exact absurd (List.all_eq_true.mp hdecimal.2 colon hmem) (by decide)
  refine ⟨portString, ?_, hdecimal, hvalue⟩
  rw [List.splitOn_append_cons_self_of_not_mem h.no_colon, List.splitOn_eq_singleton hcolon]

/-- A string is an address in one way. -/
theorem IsServerAddress.unique {host' : NSString} {port' : ℕ}
    (h : IsServerAddress serverAddress host port)
    (h' : IsServerAddress serverAddress host' port') : host = host' ∧ port = port' := by
  obtain ⟨portString, hsplit, -, rfl⟩ := h.splitOn
  obtain ⟨portString', hsplit', -, rfl⟩ := h'.splitOn
  obtain ⟨rfl, hports⟩ := List.cons.inj (hsplit.symm.trans hsplit')
  rw [(List.cons.inj hports).1]
  exact ⟨rfl, rfl⟩

/-- There is a second part exactly if there is a colon. -/
theorem splitOn_cons_cons_iff :
    (∃ addressString portString rest,
      serverAddress.splitOn colon = addressString :: portString :: rest) ↔
      colon ∈ serverAddress := by
  constructor
  · rintro ⟨addressString, portString, rest, hsplit⟩
    by_contra hcolon
    simp [List.splitOn_eq_singleton hcolon] at hsplit
  · intro hcolon
    obtain ⟨addressString, tail, rfl, hno⟩ := List.eq_append_cons_of_mem hcolon
    obtain ⟨portString, rest, htail⟩ := List.exists_cons_of_ne_nil (List.splitOn_ne_nil colon tail)
    refine ⟨addressString, portString, rest, ?_⟩
    rw [List.splitOn_append_cons_self_of_not_mem hno, htail]

/-- The C string spells a host exactly if the host is ASCII without a null character. -/
theorem spells_iff :
    (∃ address, cStringUsingEncoding host = some address ∧ address.map UInt8.toUInt16 = host) ↔
      host.all isPlainAscii := by
  constructor
  · rintro ⟨address, haddress, hspells⟩
    obtain ⟨hascii, hbytes⟩ := Option.ite_none_right_eq_some.mp haddress
    obtain rfl := Option.some.inj hbytes
    -- a C string as long as the host has lost nothing
    have hlength := congrArg List.length hspells
    rw [List.length_map, List.length_map] at hlength
    have hall := List.takeWhile_eq_self_iff.mp ((List.takeWhile_prefix _).eq_of_length hlength)
    refine List.all_eq_true.mpr fun c hc => ?_
    exact Bool.and_eq_true_iff.mpr ⟨hall c hc, List.all_eq_true.mp hascii c hc⟩
  · intro hplain
    have hascii (c) (hc : c ∈ host) := Bool.and_eq_true_iff.mp (List.all_eq_true.mp hplain c hc)
    have hall : host.takeWhile (· ≠ 0) = host :=
      List.takeWhile_eq_self_iff.mpr fun c hc => (hascii c hc).1
    refine ⟨host.map UInt16.toUInt8, ?_, ?_⟩
    · rw [cStringUsingEncoding, if_pos (List.all_eq_true.mpr fun c hc => (hascii c hc).2), hall]
    · rw [List.map_map, List.map_congr_left (g := id), List.map_id]
      intro c hc
      have hlt := UInt16.lt_iff_toNat_lt.mp (of_decide_eq_true (hascii c hc).2)
      refine UInt16.toNat_inj.mp ?_
      rw [Function.comp_apply, UInt8.toNat_toUInt16, UInt16.toNat_toUInt8]
      exact Nat.mod_eq_of_lt (hlt.trans (by decide))

/-- The `short` holds the port exactly up to 32767. -/
theorem narrow_eq_iff (h : ReadsDecimal integerValue) (hdecimal : IsDecimal portString)
    (hvalue : decimalValue portString = port) (hport : port ≤ 65535) :
    (integerValue portString).toInt16.toInt = port ↔ port ≤ 32767 := by
  have hread : (integerValue portString).toInt = port := by
    rw [h portString hdecimal (by omega), hvalue]
  rw [Int64.toInt_toInt16, hread, Int.bmod_def]
  split_ifs <;> omega

/-! ### The call -/

/-- A start with two parts. -/
theorem startTunnelWithOptions_eq
    (hsplit : serverAddress.splitOn colon = addressString :: portString :: rest) :
    PacketTunnelProvider.startTunnelWithOptions integerValue serverAddress e =
      match Resources.startTunnelWithServerAddress {} adminOptions
          (cStringUsingEncoding addressString) (integerValue portString).toInt16
          (e.outcomes (cStringUsingEncoding addressString)
            (integerValue portString).toInt16.toInt) with
      | none => .nullBufferEvent
      | some (status, s) => .returned
          { PacketTunnelProvider.finishStart { client := .start adminOptions } status with
            start := .returned status } s := by
  rw [PacketTunnelProvider.startTunnelWithOptions, hsplit]
  rfl

/-- What libevent is asked for: nothing, without a bufferevent. -/
theorem asksFor_iff (hsplit : serverAddress.splitOn colon = addressString :: portString :: rest)
    (he : e.Ready) :
    (PacketTunnelProvider.startTunnelWithOptions integerValue serverAddress e).AsksFor host port ↔
      e.bufferEvent = true ∧
      (∃ address, cStringUsingEncoding addressString = some address ∧
        address.map UInt8.toUInt16 = host) ∧
      (integerValue portString).toInt16.toInt = port := by
  rw [startTunnelWithOptions_eq hsplit]
  split
  case h_1 hnone =>
    obtain ⟨-, -, -, hb⟩ := Resources.startTunnelWithServerAddress_eq_none_iff.mp hnone
    exact iff_of_false not_false fun hb' => Bool.noConfusion (hb'.1.symm.trans hb)
  case h_2 status s hsome =>
    rcases Resources.startTunnelWithServerAddress_cases hsome with ⟨ho, -⟩ | ⟨-, hs, -⟩ |
      ⟨-, -, hn, -⟩ | ⟨-, -, -, hb, ⟨socket, bev, dns, -, -, -, -, -, hconnects⟩, -⟩
    · exact absurd ho (by decide)
    · exact absurd hs (not_lt.mpr he.socket)
    · exact absurd hn (not_lt.mpr he.nonblocking)
    · rw [StartResult.AsksFor, hconnects]
      constructor
      · rintro ⟨bev', dns', address, hrequest, hspells⟩
        obtain ⟨-, -, haddress, hport⟩ :=
          ConnectRequest.mk.inj (List.head_eq_of_cons_eq hrequest)
        exact ⟨hb, ⟨address, haddress, hspells⟩, hport⟩
      · rintro ⟨-, ⟨address, haddress, hspells⟩, hport⟩
        exact ⟨bev, dns, address, by rw [haddress, hport]; rfl, hspells⟩

/-- When an error is reported. -/
theorem reportsError_iff
    (hsplit : serverAddress.splitOn colon = addressString :: portString :: rest) :
    (PacketTunnelProvider.startTunnelWithOptions integerValue serverAddress e).ReportsError ↔
      e.socket < 0 ∨ e.nonblocking < 0 ∨ (e.bufferEvent = true ∧
        e.connectHostname (cStringUsingEncoding addressString)
          (integerValue portString).toInt16.toInt < 0) := by
  rw [startTunnelWithOptions_eq hsplit]
  split
  case h_1 hnone =>
    obtain ⟨-, hs, hn, hb⟩ := Resources.startTunnelWithServerAddress_eq_none_iff.mp hnone
    refine iff_of_false not_false ?_
    rintro (hs' | hn' | ⟨hb', -⟩)
    · exact absurd hs' (not_lt.mpr hs)
    · exact absurd hn' (not_lt.mpr hn)
    · exact Bool.noConfusion (hb'.symm.trans hb)
  case h_2 status s hsome =>
    rcases Resources.startTunnelWithServerAddress_cases hsome with ⟨ho, -⟩ | ⟨-, hs, rfl, -⟩ |
      ⟨-, -, hn, rfl, -⟩ | ⟨-, hs, hn, hb, -, rfl⟩
    · exact absurd ho (by decide)
    · exact iff_of_true ⟨3, List.mem_singleton_self _⟩ (.inl hs)
    · exact iff_of_true ⟨3, List.mem_singleton_self _⟩ (.inr (.inl hn))
    · split_ifs with hc
      · exact iff_of_true ⟨3, List.mem_singleton_self _⟩ (.inr (.inr ⟨hb, hc⟩))
      · refine iff_of_false (fun ⟨code, hcode⟩ => absurd hcode List.not_mem_nil) ?_
        rintro (hs' | hn' | ⟨-, hc'⟩)
        · exact absurd hs' (not_lt.mpr hs)
        · exact absurd hn' (not_lt.mpr hn)
        · exact hc hc'

/-- Without a colon there is no `ta[1]`. -/
theorem startTunnelWithOptions_of_no_colon (h : colon ∉ serverAddress) :
    PacketTunnelProvider.startTunnelWithOptions integerValue serverAddress e =
      .rangeException := by
  rw [PacketTunnelProvider.startTunnelWithOptions, List.splitOn_eq_singleton h]

/-- **The call is a run of the provider**: the start of the client, the start of the dispatch
thread, and the switch on the status. -/
theorem startTunnelWithOptions_run {p : PacketTunnelProvider} {s : Resources}
    (h : PacketTunnelProvider.startTunnelWithOptions integerValue serverAddress e =
      .returned p s) (pb : Protobuf) (o : ByteOrder) :
    ∃ calls, (packetTunnelProvider pb o).replay { client := .start adminOptions }
      [.connect calls, .startThread, .startThread] = some p := by
  have hcolon : colon ∈ serverAddress := by
    by_contra hno
    rw [startTunnelWithOptions_of_no_colon hno] at h
    cases h
  obtain ⟨addressString, portString, rest, hsplit⟩ := splitOn_cons_cons_iff.mpr hcolon
  rw [startTunnelWithOptions_eq hsplit] at h
  split at h
  case h_1 => cases h
  case h_2 status t hsome =>
    obtain ⟨rfl, -⟩ := StartResult.returned.inj h
    have hstatus := Resources.startTunnelWithServerAddress_status (c := .start adminOptions) hsome
    refine ⟨(e.outcomes (cStringUsingEncoding addressString)
      (integerValue portString).toInt16.toInt).toStartCalls, ?_⟩
    simp only [TransitionSystem.replay, packetTunnelProvider, PacketTunnelProvider.step, ← hstatus]
    cases status <;> rfl

/-- An environment that grants every request it may grant. -/
def Environment.willing (bufferEvent : Bool) : Environment where
  socket := 3
  nonblocking := 0
  bufferEvent := bufferEvent
  dnsBase := true
  connectHostname _ port := if 1 ≤ port ∧ port ≤ 65535 then 0 else -1

/-- It rejects what libevent has to reject, and nothing else. -/
theorem Environment.willing_connectHostname {bufferEvent : Bool} {address : Option Bytes}
    {port : ℤ} : (Environment.willing bufferEvent).connectHostname address port < 0 ↔
      ¬ (1 ≤ port ∧ port ≤ 65535) := by
  change (if 1 ≤ port ∧ port ≤ 65535 then (0 : ℤ) else -1) < 0 ↔ _
  split_ifs with hport
  · exact iff_of_false (by decide) (not_not.mpr hport)
  · exact iff_of_true (by decide) hport

theorem Environment.willing_rejectsPorts (bufferEvent : Bool) :
    (Environment.willing bufferEvent).RejectsPorts :=
  fun _ _ => Environment.willing_connectHostname.mpr

/-! ### The law -/

/-- **An address `host:port`** is passed on in every environment exactly if there is a bufferevent,
its host is ASCII without a null character and its port is at most 32767. -/
theorem forall_asksFor_iff (h : ReadsDecimal integerValue) {bufferEvent : Bool}
    (haddress : IsServerAddress serverAddress host port) :
    (∀ e : Environment, e.bufferEvent = bufferEvent → e.RejectsPorts → e.Ready →
      (PacketTunnelProvider.startTunnelWithOptions integerValue serverAddress e).AsksFor
        host port) ↔
      bufferEvent = true ∧ host.all isPlainAscii ∧ port ≤ 32767 := by
  obtain ⟨portString, hsplit, hdecimal, hvalue⟩ := haddress.splitOn
  have hasks {e : Environment} (he : e.Ready) :
      (PacketTunnelProvider.startTunnelWithOptions integerValue serverAddress e).AsksFor
        host port ↔ e.bufferEvent = true ∧ host.all isPlainAscii ∧ port ≤ 32767 := by
    rw [asksFor_iff hsplit he, spells_iff, narrow_eq_iff h hdecimal hvalue haddress.range.2]
  constructor
  · intro hall
    have hready : (Environment.willing bufferEvent).Ready :=
      ⟨show (0 : ℤ) ≤ 3 by decide, show (0 : ℤ) ≤ 0 from le_rfl⟩
    exact (hasks hready).mp (hall _ rfl (Environment.willing_rejectsPorts bufferEvent) hready)
  · rintro hcond e rfl - he
    exact (hasks he).mpr hcond

/-- **Another string** is reported in every environment exactly if it has a second part, and the
`short` that is read from it is not positive. -/
theorem forall_reportsError_iff {bufferEvent : Bool} :
    (∀ e : Environment, e.bufferEvent = bufferEvent → e.RejectsPorts →
      (PacketTunnelProvider.startTunnelWithOptions integerValue serverAddress e).ReportsError) ↔
      bufferEvent = true ∧ ∃ addressString portString rest,
        serverAddress.splitOn colon = addressString :: portString :: rest ∧
        (integerValue portString).toInt.bmod (2 ^ 16) ≤ 0 := by
  constructor
  · intro hall
    have herror := hall _ rfl (Environment.willing_rejectsPorts bufferEvent)
    have hcolon : colon ∈ serverAddress := by
      by_contra hno
      rw [startTunnelWithOptions_of_no_colon hno] at herror
      exact herror
    obtain ⟨addressString, portString, rest, hsplit⟩ := splitOn_cons_cons_iff.mpr hcolon
    rcases (reportsError_iff hsplit).mp herror with hs | hn | ⟨hb, hconnect⟩
    · exact absurd hs (by simp [Environment.willing])
    · exact absurd hn (by simp [Environment.willing])
    · refine ⟨hb, addressString, portString, rest, hsplit, ?_⟩
      have hrange := Environment.willing_connectHostname.mp hconnect
      have hlt := Int.bmod_lt (x := (integerValue portString).toInt) (m := 2 ^ 16) (by decide)
      rw [Int64.toInt_toInt16] at hrange
      omega
  · rintro ⟨rfl, addressString, portString, rest, hsplit, hport⟩ e hb hrejects
    refine (reportsError_iff hsplit).mpr (.inr (.inr ⟨hb, hrejects _ _ ?_⟩))
    rw [Int64.toInt_toInt16]
    omega

/-- **The server address is handled as it should be exactly for these strings**, and if there is a
bufferevent. -/
theorem handlesAddress_iff (h : ReadsDecimal integerValue) (serverAddress : NSString)
    (bufferEvent : Bool) :
    HandlesAddress integerValue serverAddress bufferEvent ↔
      bufferEvent = true ∧
      (∀ host port, IsServerAddress serverAddress host port →
        host.all isPlainAscii ∧ port ≤ 32767) ∧
      ((∀ host port, ¬ IsServerAddress serverAddress host port) →
        ∃ addressString portString rest,
          serverAddress.splitOn colon = addressString :: portString :: rest ∧
          (integerValue portString).toInt.bmod (2 ^ 16) ≤ 0) := by
  constructor
  · intro hlaw
    have hvalid (host port) (haddress : IsServerAddress serverAddress host port) :
        bufferEvent = true ∧ host.all isPlainAscii ∧ port ≤ 32767 :=
      (forall_asksFor_iff h haddress).mp fun e hb hrejects =>
        (hlaw e hb hrejects).1 host port haddress
    have hinvalid (hnone : ∀ host port, ¬ IsServerAddress serverAddress host port) :=
      forall_reportsError_iff.mp fun e hb hrejects => (hlaw e hb hrejects).2 hnone
    refine ⟨?_, fun host port haddress => (hvalid host port haddress).2,
      fun hnone => (hinvalid hnone).2⟩
    -- every string is of one kind or the other
    by_cases haddress : ∃ host port, IsServerAddress serverAddress host port
    · obtain ⟨host, port, haddress⟩ := haddress
      exact (hvalid host port haddress).1
    · push Not at haddress
      exact (hinvalid haddress).1
  · rintro ⟨hbev, hvalid, hinvalid⟩ e hb hrejects
    refine ⟨fun host port haddress => ?_, fun hnone => ?_⟩
    · exact (forall_asksFor_iff h haddress).mpr ⟨hbev, hvalid host port haddress⟩ e hb hrejects
    · exact forall_reportsError_iff.mpr ⟨hbev, hinvalid hnone⟩ e hb hrejects

/-- The code units of a text. -/
def unichars (s : String) : NSString := s.toList.map fun c => c.val.toUInt16

/-- The value of the digits with which a string begins, at most the largest `NSInteger`. -/
def digitsValue (s : NSString) : Int64 :=
  .ofNat (min (decimalValue (s.takeWhile isDigit)) (2 ^ 63 - 1))

theorem readsDecimal_digitsValue : ReadsDecimal digitsValue := by
  intro s hdecimal hlt
  have hall : s.takeWhile isDigit = s :=
    List.takeWhile_eq_self_iff.mpr (List.all_eq_true.mp hdecimal.2)
  rw [digitsValue, hall, min_eq_left (by omega), Int64.toInt_ofNat_of_lt hlt]

/-- The port that is in use. -/
theorem handlesAddress_iff_in_use : HandlesAddress digitsValue (unichars "vpn:10080") true := by
  have haddress : IsServerAddress (unichars "vpn:10080") (unichars "vpn") 10080 :=
    ⟨⟨unichars "10080", rfl, ⟨by decide, by decide⟩, by decide⟩, by decide, by decide, by decide⟩
  refine (handlesAddress_iff readsDecimal_digitsValue _ _).mpr ⟨rfl, fun host port h => ?_,
    fun hno => absurd haddress (hno _ _)⟩
  obtain ⟨rfl, rfl⟩ := h.unique haddress
  exact ⟨by decide, by decide⟩

/-- A string without a colon, a port that the `short` cannot hold, and two colons. -/
theorem not_handlesAddress :
    (PacketTunnelProvider.startTunnelWithOptions digitsValue (unichars "host") (.willing true) =
        .rangeException ∧ ¬ HandlesAddress digitsValue (unichars "host") true) ∧
    ((∃ p s, PacketTunnelProvider.startTunnelWithOptions digitsValue (unichars "host:40000")
        (.willing true) = .returned p s ∧
        s.connects = [⟨1, some 2, some (ascii "host"), -25536⟩]) ∧
      ¬ HandlesAddress digitsValue (unichars "host:40000") true) ∧
    (∃ p s, PacketTunnelProvider.startTunnelWithOptions digitsValue (unichars "host:80:1")
        (.willing true) = .returned p s ∧ p.completions = []) ∧
      ¬ HandlesAddress digitsValue (unichars "host:80:1") true := by
  refine ⟨⟨startTunnelWithOptions_of_no_colon (by decide), fun hlaw => ?_⟩,
    ⟨⟨_, _, rfl, by decide⟩, fun hlaw => ?_⟩, ⟨_, _, rfl, by decide⟩, fun hlaw => ?_⟩
  · have hno (host port) : ¬ IsServerAddress (unichars "host") host port := by
      intro haddress
      obtain ⟨portString, hsplit, -⟩ := haddress.splitOn
      exact absurd (splitOn_cons_cons_iff.mp ⟨_, _, _, hsplit⟩) (by decide)
    have herror := (hlaw (.willing true) rfl (Environment.willing_rejectsPorts true)).2 hno
    rwa [startTunnelWithOptions_of_no_colon (by decide)] at herror
  · have haddress : IsServerAddress (unichars "host:40000") (unichars "host") 40000 :=
      ⟨⟨unichars "40000", rfl, ⟨by decide, by decide⟩, by decide⟩, by decide, by decide, by decide⟩
    have hport := (forall_asksFor_iff readsDecimal_digitsValue haddress).mp
      fun e hb hrejects => (hlaw e hb hrejects).1 _ _ haddress
    exact absurd hport.2.2 (by decide)
  · have hno (host port) : ¬ IsServerAddress (unichars "host:80:1") host port := by
      intro haddress
      obtain ⟨portString, hsplit, -⟩ := haddress.splitOn
      have hlength : 3 = 2 := congrArg List.length hsplit
      exact absurd hlength (by decide)
    obtain ⟨code, hcode⟩ := (hlaw (.willing true) rfl (Environment.willing_rejectsPorts true)).2 hno
    exact absurd hcode List.not_mem_nil

end SplendidLinker
