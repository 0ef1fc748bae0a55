import SplendidLinker.Tunnel.Buffer

/-!
# The utun interface

`SLUTNInterface.cpp`: the constructor, as a function of the results of the system calls it
makes, and the read pump that `dispatchUTUNPacket` starts.

The constructor reports each failure through its error callback. Of its failure points one
ends the process, one returns at once and leaves the members unset, and the others carry on;
`SLUTUNInterface.construct` keeps that order.

The pump is a libevent event on the utun socket. `dispatchUTUNPacket` creates it with the flag
`EV_READ` alone and `cb_event` does not add it again, and libevent deletes an event without
`EV_PERSIST` when it fires (`Event.fire`). `pump_cons` is the consequence: whatever the socket
delivers, the read handler runs once, for the first readiness, and also for a result that is
not positive.
-/

namespace SplendidLinker

/-! ### Construction -/

/-- The results of the calls in the constructor, in the order the source makes them. -/
structure SysCalls where
  /-- `::socket(PF_SYSTEM, SOCK_DGRAM, SYSPROTO_CONTROL)`. -/
  utunSocket : ℤ
  /-- `::ioctl(utunSocket, CTLIOCGINFO, …)`. -/
  ioctlInfo : ℤ
  /-- `connect(utunSocket, …)`. -/
  connectCtl : ℤ
  /-- `getsockopt(utunSocket, …, UTUN_OPT_IFNAME, …)`. -/
  getsockoptName : ℤ
  /-- The interface name `getsockopt` stores; empty when it stores none. -/
  ifname : String
  /-- `inet_pton(AF_INET, addr, …)`. -/
  inetPton : ℤ
  /-- `socket(AF_INET, SOCK_DGRAM, 0)`. -/
  socketDescriptor : ℤ
  /-- `ioctl(socketDescriptor, SIOCAIFADDR, …)`. -/
  ioctlAddr : ℤ
  /-- `strerror(errno)` where the constructor asks for it. -/
  strerror : String
  deriving DecidableEq, Repr

/-- The results of a construction in which nothing fails. -/
def SysCalls.succeed : SysCalls where
  utunSocket := 5
  ioctlInfo := 0
  connectCtl := 0
  getsockoptName := 0
  ifname := "utun0"
  inetPton := 1
  socketDescriptor := 6
  ioctlAddr := 0
  strerror := ""

/-- `SLUTUNInterface`, as far as the constructor sets it. -/
structure SLUTUNInterface where
  /-- The utun socket; unset if the constructor returned early. -/
  mUTUNSocket : Option ℤ := none
  mUTUNInterfaceName : String := ""
  deriving DecidableEq, Repr

/-- What a constructor call that returns leaves behind: the object, the errors reported through
the callback, and the descriptors it closed, in order. -/
structure Constructed where
  utun : SLUTUNInterface
  errs : List String
  closed : List ℤ
  deriving DecidableEq, Repr

/-- The error a negative result reports. -/
def errorOf (ret : ℤ) (err : String) : List String := if ret < 0 then [err] else []

/-- The address branch of the constructor: its errors and the descriptors it closes. The
failure of `ioctl` closes the descriptor, and so does the end of the branch. -/
def setInterfaceAddress (sys : SysCalls) : List String × List ℤ :=
  (errorOf sys.socketDescriptor ("Failed to create a DGRAM socket: %s\n" ++ sys.strerror) ++
      errorOf sys.ioctlAddr ("Failed to set the address of %s interface address to " ++
        "10.1.21.1: %s\n" ++ sys.strerror),
    (if sys.ioctlAddr < 0 then [sys.socketDescriptor] else []) ++ [sys.socketDescriptor])

/-- `SLUTUNInterface::SLUTUNInterface(addr, c)`; `none` is `std::terminate`. -/
def SLUTUNInterface.construct (sys : SysCalls) : Option Constructed :=
  if sys.utunSocket < 0 then none
  else if sys.ioctlInfo < 0 then
    -- the early return: no member is set and the socket stays open
    some ⟨{}, ["ioctl failed on kernel control socket: %s\n" ++ sys.strerror], []⟩
  else
    let address := if sys.inetPton = 1 then setInterfaceAddress sys else ([], [])
    some
      { utun := { mUTUNSocket := some sys.utunSocket, mUTUNInterfaceName := sys.ifname }
        errs := errorOf sys.connectCtl "error connect utun socket" ++
          errorOf sys.getsockoptName "error to set utun opt" ++ address.1
        closed := address.2 }

/-! ### The read pump -/

/-- `EV_READ`. -/
def evRead : UInt16 := 0x02

/-- `EV_PERSIST`. -/
def evPersist : UInt16 := 0x10

/-- A libevent event: the flags it was created with, and whether it is added. -/
structure Event where
  events : UInt16
  pending : Bool
  deriving DecidableEq, Repr

/-- libevent deletes an event that fires, unless it was created with `EV_PERSIST`. -/
def Event.fire (e : Event) : Event :=
  if e.events &&& evPersist = 0 then { e with pending := false } else e

/-- A packet as the utun socket delivers it: 1 to 1500 bytes. -/
structure TunPacket where
  data : Bytes
  length_pos : 0 < data.length
  length_le : data.length ≤ 1500
  deriving DecidableEq

/-- The outcome of `read(mUTUNSocket, buff, 1500)`. -/
inductive ReadResult
  /-- The result `-1`. -/
  | error
  /-- The result `0`. -/
  | endOfFile
  /-- A positive result. -/
  | packet (p : TunPacket)
  deriving DecidableEq

/-- The bytes `read` stored. -/
def ReadResult.bytes : ReadResult → Bytes
  | error => []
  | endOfFile => []
  | packet p => p.data

/-- The value `read` returned. -/
def ReadResult.readLen : ReadResult → ℤ
  | error => -1
  | endOfFile => 0
  | packet p => p.data.length

/-- A call of the read handler: the bytes read and the size it is told. -/
structure ReadHandleCall where
  data : Bytes
  size : ℤ
  deriving DecidableEq

/-- `cb_event` of `SLUTNInterface.cpp`, called with the flags `event`: the handler calls it
makes when `read` gives `r`. -/
def cbEvent (event : UInt16) (r : ReadResult) : List ReadHandleCall :=
  if event &&& evRead ≠ 0 then [⟨r.bytes, r.readLen⟩] else []

/-- The event of a dispatched interface and the handler calls made so far. -/
structure Pump where
  event : Event
  calls : List ReadHandleCall
  deriving DecidableEq

/-- `SLUTUNInterface::dispatchUTUNPacket`: the event is created and added. -/
def dispatchUTUNPacket : Pump :=
  { event := { events := evRead, pending := true }, calls := [] }

/-- The socket becomes readable, and reading it would give `r`. -/
def Pump.ready (p : Pump) (r : ReadResult) : Pump :=
  if p.event.pending then
    { event := p.event.fire, calls := p.calls ++ cbEvent evRead r }
  else p

/-- The pump after a sequence of readiness events. -/
def pump (rs : List ReadResult) : Pump := rs.foldl Pump.ready dispatchUTUNPacket

/-- The handler call a result asks for: one for a positive result, none otherwise. -/
def ReadResult.delivery : ReadResult → Option ReadHandleCall
  | error => none
  | endOfFile => none
  | packet p => some ⟨p.data, p.data.length⟩

/-- A pump whose event is not added ignores readiness. -/
private theorem foldl_ready_of_not_pending {p : Pump} (h : p.event.pending = false)
    (rs : List ReadResult) : rs.foldl Pump.ready p = p := by
  induction rs with
  | nil => rfl
  | cons r rs ih =>
    have hr : p.ready r = p := by
      rw [Pump.ready, h]
      rfl
    rw [List.foldl_cons, hr, ih]

/-- **The pump reads once.** The first readiness event fires the event for good: its result is
handed to the handler, of whatever sign, and later packets are not read. -/
theorem pump_cons (r : ReadResult) (rs : List ReadResult) :
    pump (r :: rs) =
      { event := { events := evRead, pending := false }, calls := [⟨r.bytes, r.readLen⟩] } :=
  foldl_ready_of_not_pending rfl rs

/-- The forwarding law of the pump, for the readiness events whose reads give `rs`. -/
structure ForwardsEveryPacket (rs : List ReadResult) : Prop where
  /-- Each positive result is forwarded, once and in order. -/
  forwarded : (pump rs).calls.filter (fun c => 0 < c.size) = rs.filterMap ReadResult.delivery
  /-- No other result is. -/
  positive : ∀ c ∈ (pump rs).calls, 0 < c.size
  /-- After each event the read event is added. -/
  registered : ∀ i, 0 < i → i ≤ rs.length → (pump (rs.take i)).event.pending = true

/-- **The pump meets its forwarding law only while the socket has never been readable.** -/
theorem forwardsEveryPacket_iff (rs : List ReadResult) :
    ForwardsEveryPacket rs ↔ rs = [] := by
  constructor
  · intro h
    cases rs with
    | nil => rfl
    | cons r rs =>
      have hpending := h.registered 1 (by decide) (by simp)
      rw [List.take_succ_cons, List.take_zero, pump_cons] at hpending
      cases hpending
  · rintro rfl
    exact
      { forwarded := rfl
        positive := by simp [pump, dispatchUTUNPacket]
        registered := fun i hpos hle => absurd hle (by simp; omega) }

/-- Two packets and a failed read: only the first packet is forwarded, and a failed first read
is forwarded with size `-1`. -/
theorem not_forwardsEveryPacket :
    ¬ ForwardsEveryPacket [.packet ⟨[0x45], by decide, by decide⟩,
        .packet ⟨[0x46], by decide, by decide⟩] ∧
      ¬ ForwardsEveryPacket [.error] := by
  constructor
  · intro h
    exact absurd h.forwarded (by decide)
  · intro h
    exact absurd (h.positive ⟨[], -1⟩ (by decide)) (by decide)

end SplendidLinker
