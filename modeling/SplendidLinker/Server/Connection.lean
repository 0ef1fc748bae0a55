import SplendidLinker.Tunnel.UTUNInterface

/-!
# A server connection

`SLConnection.cpp` as its event thread runs it: the read callback, which takes one frame off
the input buffer, parses it and dispatches the message; the event callback, which frees the
bufferevent; and `writePacket`.

A connection carries, besides the buffers and the interface pointer of the source, the trace of
what its event thread has done so far, in order (`Action`). `running` is lost when a callback
ends the process: when the constructor of the interface calls `std::terminate`, or when
`SLUTUNInterface::writePacket` reads the descriptor through the null pointer, which it does once
it has a byte to write. No callback runs after that. The loop of `writePacket` on an interface is
the subject of `Tunnel/WriteLoop.lean`; here the call is recorded and taken to come back.

The callback is characterised once, for all its users: `cbBuffereventWillRead_of_none` and
`cbBuffereventWillRead_of_some` relate the peek, the completeness test and the two consuming
reads of the source to `LengthCode.next?`, and `dispatch_spec` lists everything the dispatch of
a message can do.
-/

namespace SplendidLinker

open Foundations

/-- What the event thread of a connection does, besides changing its buffers. -/
inductive Action
  /-- `msg.ParseFromArray(payload, size)`. -/
  | parse (payload : Bytes) (size : ℤ)
  /-- `new SLUTUNInterface(…)` has returned. -/
  | create (utun : SLUTUNInterface) (errs : List String)
  /-- The constructor has called `std::terminate`. -/
  | terminate
  /-- `set_mUTUNInterface(utun)`. -/
  | install (utun : SLUTUNInterface)
  /-- The TUN thread is started and detached. -/
  | startTunThread
  /-- `connection->writePacket(packet, l)`. -/
  | send (packet : Bytes) (l : UInt32)
  /-- `get_mUTUNInterface()->writePacket(data)` on an interface. -/
  | tunWrite (data : Bytes)
  /-- `get_mUTUNInterface()->writePacket(data)` on the null pointer. -/
  | nullDeref
  deriving DecidableEq

/-- A `SLConnection` and its bufferevent. -/
structure SLConnection where
  /-- The input buffer of `mBufferEvent`. -/
  input : Bytes := []
  /-- The bytes appended to the output buffer of `mBufferEvent`. -/
  output : Bytes := []
  /-- The interface pointer; `none` is `nullptr`. -/
  mUTUNInterface : Option SLUTUNInterface := none
  /-- `bufferevent_free(mBufferEvent)` has been called. -/
  freed : Bool := false
  /-- No callback has ended the process. -/
  running : Bool := true
  /-- What the event thread has done so far. -/
  trace : List Action := []
  deriving DecidableEq

namespace SLConnection

/-- Record an action. -/
def act (c : SLConnection) (a : Action) : SLConnection := { c with trace := c.trace ++ [a] }

/-- Record an action that ends the process. -/
def halt (c : SLConnection) (a : Action) : SLConnection := { c.act a with running := false }

/-- New bytes arrive from the socket. -/
def arrive (c : SLConnection) (chunk : Bytes) : SLConnection :=
  { c with input := c.input ++ chunk }

/-- `SLConnection::writePacket`. -/
def writePacket (o : ByteOrder) (c : SLConnection) (packet : Bytes) (l : UInt32) : SLConnection :=
  { c.act (.send packet l) with output := c.output ++ (writeFrame o packet l).flatten }

/-- `set_mUTUNInterface`. -/
def setMUTUNInterface (c : SLConnection) (utun : SLUTUNInterface) : SLConnection :=
  { c.act (.install utun) with mUTUNInterface := some utun }

/-- The request turned into the response, in place. -/
def establishResponse (msg : TunnelMessage) : TunnelMessage :=
  { msg with
    type := .known .response
    ip := ascii "10.1.21.2"
    gateway := ascii "10.1.21.2"
    submask := ascii "255.255.255.0"
    dns := msg.dns ++ [ascii "8.8.8.8"]
    messageCode := .known .establish }

/-- The `ESTABLISH` case of the dispatch. -/
def establish (pb : Protobuf) (o : ByteOrder) (sys : SysCalls) (c : SLConnection)
    (msg : TunnelMessage) : SLConnection :=
  let msgBuf := pb.serializeToArray (establishResponse msg)
  let msgLen := UInt32.ofNat (establishResponse msg).byteSize
  match SLUTUNInterface.construct sys with
  | none => c.halt .terminate
  | some r =>
    let c := c.act (.create r.utun r.errs)
    -- `isUTUNFinish` is cleared by the error callback
    if r.errs ≠ [] then c
    else ((c.setMUTUNInterface r.utun).act .startTunThread).writePacket o msgBuf msgLen

/-- The `DATA` case of the dispatch. Without an interface `writePacket` is called through the null
pointer: if there is nothing to write, its loop is not entered. -/
def data (c : SLConnection) (msg : TunnelMessage) : SLConnection :=
  match c.mUTUNInterface with
  | none => if msg.packetData = [] then c.act .nullDeref else c.halt .nullDeref
  | some _ => c.act (.tunWrite msg.packetData)

/-- What `cb_bufferevent_will_read` does with a parsed message. -/
def dispatch (pb : Protobuf) (o : ByteOrder) (sys : SysCalls) (c : SLConnection)
    (msg : TunnelMessage) : SLConnection :=
  if msg.type ≠ .known .request then c
  else
    match msg.messageCode with
    | .known .establish => c.establish pb o sys msg
    | .known .data => c.data msg
    | _ => c

/-- `cb_bufferevent_will_read` of `SLConnection.cpp`. The result of `ParseFromArray` is not
looked at. (`new` does not return null, so the branch for a null payload is never taken.) -/
def cbBuffereventWillRead (pb : Protobuf) (o : ByteOrder) (sys : SysCalls) (c : SLConnection) :
    SLConnection :=
  let length := o.ofBytes (evbufferCopyout c.input sizeofLength)
  let copyOutLen := (evbufferCopyout c.input sizeofLength).length
  -- the peek leaves the header in the buffer
  let bufLen := evbufferGetLength c.input
  if copyOutLen < 4 then c
  else if sizeT (length.toNat + sizeofLength) > bufLen then c
  else
    let header := buffereventRead c.input sizeofLength
    let length := o.ofBytes header.1
    let payload := buffereventRead header.2 length.toNat
    let size := sizeArg length
    let c := { c with input := payload.2 }.act (.parse payload.1 size)
    c.dispatch pb o sys (pb.parseFromArray payload.1 size).2

/-- `cb_event` of `SLConnection.cpp`: whatever the event, the bufferevent is freed, and its
buffers with it. -/
def cbEvent (c : SLConnection) : SLConnection := { c with freed := true, input := [] }

/-! ### The read handler of the interface -/

/-- The message the read handler builds from a packet, except for the packet. -/
def dataResponseHeader : TunnelMessage where
  type := .known .response
  ip := ascii "10.1.21.1"
  gateway := ascii "10.1.21.2"
  submask := ascii "255.255.255.0"
  dns := [ascii "8.8.8.8"]
  messageCode := .known .data

/-- The message the read handler builds from a packet. -/
def dataResponse (packet : Bytes) : TunnelMessage := dataResponseHeader.setPacketData packet

/-- `new unsigned char[l]`: it holds what the heap held. -/
def allocate (heap : ℕ → UInt8) (l : ℕ) : Bytes := (List.range l).map heap

/-- The handler passed to `dispatchUTUNPacket`. The message is measured, but not serialized
into the buffer that is sent. -/
def tunReadHandler (o : ByteOrder) (heap : ℕ → UInt8) (c : SLConnection) (packet : Bytes) :
    SLConnection :=
  let m := dataResponse packet
  let l := UInt32.ofNat m.byteSize
  let mPtr := allocate heap l.toNat
  c.writePacket o mPtr l

/-! ### The read callback and the framing library -/

variable {pb : Protobuf} {o : ByteOrder} {sys : SysCalls} {c : SLConnection}

/-- **The peek, the completeness test and the two reads are `next?`.** The sum of a 32-bit
length and the header size does not wrap in a 64-bit `size_t`. -/
theorem hostLength_next? (o : ByteOrder) (b : Bytes) :
    (hostLength o).next? b =
      if (evbufferCopyout b sizeofLength).length < 4 then none
      else if sizeT ((o.ofBytes (evbufferCopyout b sizeofLength)).toNat + sizeofLength) >
        evbufferGetLength b then none
      else some (buffereventRead (buffereventRead b sizeofLength).2
        (o.ofBytes (buffereventRead b sizeofLength).1).toNat) := by
  have hwrap : sizeT ((o.ofBytes (b.take 4)).toNat + 4) = (o.ofBytes (b.take 4)).toNat + 4 :=
    Nat.mod_eq_of_lt (by have := UInt32.toNat_lt (o.ofBytes (b.take 4)); omega)
  have hnext : (hostLength o).next? b =
      if b.length < 4 then none
      else if b.length < 4 + (o.ofBytes (b.take 4)).toNat then none
      else some (buffereventRead (b.drop 4) (o.ofBytes (b.take 4)).toNat) := rfl
  rw [hnext]
  simp only [evbufferCopyout, evbufferGetLength, buffereventRead, sizeofLength,
    List.length_take, hwrap]
  refine if_congr (by omega) rfl (if_congr (by omega) rfl rfl)

/-- The connection once a frame has been taken off its input and handed to the parser. -/
def received (c : SLConnection) (payload rest : Bytes) : SLConnection :=
  { c with input := rest }.act (.parse payload (sizeArg (UInt32.ofNat payload.length)))

/-- **No complete frame, no change.** -/
theorem cbBuffereventWillRead_of_none (h : (hostLength o).next? c.input = none) :
    c.cbBuffereventWillRead pb o sys = c := by
  rw [hostLength_next?] at h
  rw [cbBuffereventWillRead]
  split_ifs at h ⊢ with h1 h2
  · rfl
  · rfl

/-- **A complete frame is taken off the input, parsed and dispatched.** -/
theorem cbBuffereventWillRead_of_some {payload rest : Bytes}
    (h : (hostLength o).next? c.input = some (payload, rest)) :
    c.cbBuffereventWillRead pb o sys =
      (c.received payload rest).dispatch pb o sys
        (pb.parseFromArray payload (sizeArg (UInt32.ofNat payload.length))).2 := by
  obtain ⟨w, hw, hd, hb⟩ := LengthCode.next?_eq_some h
  have htake : c.input.take 4 = w := by
    rw [hb, List.append_assoc]
    exact List.take_left' hw
  have hlen : UInt32.ofNat payload.length = o.ofBytes w := by
    rw [← hd]
    exact UInt32.ofNat_toNat
  rw [hostLength_next?] at h
  rw [cbBuffereventWillRead]
  split_ifs at h ⊢ with h1 h2
  obtain ⟨hp, hr⟩ := Prod.mk.inj (Option.some.inj h)
  simp only [buffereventRead, sizeofLength, htake] at hp hr
  simp only [buffereventRead, sizeofLength, htake, hp, hr, received, hlen]

/-! ### What a dispatch can do -/

/-- The outcomes of dispatching `msg` on the connection `c`, with what leads to each. -/
inductive Dispatched (pb : Protobuf) (o : ByteOrder) (sys : SysCalls) (c : SLConnection)
    (msg : TunnelMessage) : SLConnection → Prop
  /-- Not a request, or a request with another code. -/
  | ignored (h : msg.type = .known .request →
      msg.messageCode ≠ .known .establish ∧ msg.messageCode ≠ .known .data) :
      Dispatched pb o sys c msg c
  /-- `ESTABLISH`: the constructor terminates the process. -/
  | terminated (ht : msg.type = .known .request) (hc : msg.messageCode = .known .establish)
      (h : SLUTUNInterface.construct sys = none) : Dispatched pb o sys c msg (c.halt .terminate)
  /-- `ESTABLISH`: the constructor has reported an error. -/
  | notCreated (ht : msg.type = .known .request) (hc : msg.messageCode = .known .establish)
      (r : Constructed) (h : SLUTUNInterface.construct sys = some r) (herr : r.errs ≠ []) :
      Dispatched pb o sys c msg (c.act (.create r.utun r.errs))
  /-- `ESTABLISH`: the interface is installed, its thread started, the response sent. -/
  | established (ht : msg.type = .known .request) (hc : msg.messageCode = .known .establish)
      (r : Constructed) (h : SLUTUNInterface.construct sys = some r) (herr : r.errs = []) :
      Dispatched pb o sys c msg
        ((((c.act (.create r.utun r.errs)).setMUTUNInterface r.utun).act .startTunThread
          ).writePacket o (pb.serializeToArray (establishResponse msg))
            (UInt32.ofNat (establishResponse msg).byteSize))
  /-- `DATA` with nothing in it, without an interface. -/
  | calledNull (ht : msg.type = .known .request) (hc : msg.messageCode = .known .data)
      (h : c.mUTUNInterface = none) (hdata : msg.packetData = []) :
      Dispatched pb o sys c msg (c.act .nullDeref)
  /-- `DATA` with a packet, without an interface. -/
  | dereferenced (ht : msg.type = .known .request) (hc : msg.messageCode = .known .data)
      (h : c.mUTUNInterface = none) (hdata : msg.packetData ≠ []) :
      Dispatched pb o sys c msg (c.halt .nullDeref)
  /-- `DATA` with an interface. -/
  | written (ht : msg.type = .known .request) (hc : msg.messageCode = .known .data)
      (utun : SLUTUNInterface) (h : c.mUTUNInterface = some utun) :
      Dispatched pb o sys c msg (c.act (.tunWrite msg.packetData))

/-- **Every dispatch has one of the seven outcomes.** -/
theorem dispatch_spec (pb : Protobuf) (o : ByteOrder) (sys : SysCalls) (c : SLConnection)
    (msg : TunnelMessage) : Dispatched pb o sys c msg (c.dispatch pb o sys msg) := by
  by_cases ht : msg.type = .known .request
  · rw [dispatch, if_neg (not_not.mpr ht)]
    split
    case h_1 hc =>
      rw [establish]
      cases hs : SLUTUNInterface.construct sys with
      | none => exact .terminated ht hc hs
      | some r =>
        by_cases herr : r.errs = []
        · simpa [herr] using Dispatched.established ht hc r hs herr
        · simpa [herr] using Dispatched.notCreated ht hc r hs herr
    case h_2 hc =>
      rw [data]
      cases hu : c.mUTUNInterface with
      | none =>
        simp only
        split_ifs with hdata
        · exact .calledNull ht hc hu hdata
        · exact .dereferenced ht hc hu hdata
      | some utun => exact .written ht hc utun hu
    case h_3 he hd => exact .ignored fun _ => ⟨he, hd⟩
  · rw [dispatch, if_pos ht]
    exact .ignored fun h => absurd h ht

/-- `DATA` without an interface calls `writePacket` through the null pointer. -/
theorem dispatch_of_data_none {msg : TunnelMessage} (hmsg : msg.IsRequest .data)
    (hu : c.mUTUNInterface = none) :
    c.dispatch pb o sys msg =
      if msg.packetData = [] then c.act .nullDeref else c.halt .nullDeref := by
  rw [dispatch, if_neg (not_not.mpr hmsg.1), hmsg.2]
  simp [data, hu]

/-- `DATA` with an interface writes the packet to it. -/
theorem dispatch_of_data_some {msg : TunnelMessage} (hmsg : msg.IsRequest .data)
    (hu : c.mUTUNInterface ≠ none) :
    c.dispatch pb o sys msg = c.act (.tunWrite msg.packetData) := by
  obtain ⟨utun, hutun⟩ := Option.ne_none_iff_exists'.mp hu
  rw [dispatch, if_neg (not_not.mpr hmsg.1), hmsg.2]
  simp [data, hutun]

/-- `ESTABLISH` with an interface that is created without an error. -/
theorem dispatch_of_establish {msg : TunnelMessage} (hmsg : msg.IsRequest .establish)
    {r : Constructed} (hs : SLUTUNInterface.construct sys = some r) (herr : r.errs = []) :
    c.dispatch pb o sys msg =
      (((c.act (.create r.utun r.errs)).setMUTUNInterface r.utun).act .startTunThread).writePacket
        o (pb.serializeToArray (establishResponse msg))
          (UInt32.ofNat (establishResponse msg).byteSize) := by
  rw [dispatch, if_neg (not_not.mpr hmsg.1), hmsg.2]
  simp [establish, hs, herr]

/-- The payload and size a `ParseFromArray` call was given. -/
def parseCall : Action → Option (Bytes × ℤ)
  | .parse payload size => some (payload, size)
  | _ => none

/-- The `ParseFromArray` calls so far. -/
def parsed (c : SLConnection) : List (Bytes × ℤ) := c.trace.filterMap parseCall

/-- The data passed to `SLUTUNInterface::writePacket`. -/
def tunWriteCall : Action → Option Bytes
  | .tunWrite data => some data
  | _ => none

/-- The packets passed to `SLUTUNInterface::writePacket` so far. -/
def tunWrites (c : SLConnection) : List Bytes := c.trace.filterMap tunWriteCall

/-- A dispatch changes neither the input buffer nor the life of the bufferevent, and parses
nothing. -/
theorem dispatch_frame (pb : Protobuf) (o : ByteOrder) (sys : SysCalls) (c : SLConnection)
    (msg : TunnelMessage) :
    (c.dispatch pb o sys msg).input = c.input ∧ (c.dispatch pb o sys msg).freed = c.freed ∧
      (c.dispatch pb o sys msg).parsed = c.parsed := by
  have h := dispatch_spec pb o sys c msg
  generalize c.dispatch pb o sys msg = c' at h ⊢
  cases h <;> simp [parsed, parseCall, halt, act, writePacket, setMUTUNInterface]

/-- A dispatch only adds to the trace. -/
theorem dispatch_trace (pb : Protobuf) (o : ByteOrder) (sys : SysCalls) (c : SLConnection)
    (msg : TunnelMessage) : c.trace <+: (c.dispatch pb o sys msg).trace := by
  have h := dispatch_spec pb o sys c msg
  generalize c.dispatch pb o sys msg = c' at h ⊢
  cases h <;> simp [halt, act, writePacket, setMUTUNInterface, List.append_assoc]

@[simp]
theorem parsed_received (c : SLConnection) (payload rest : Bytes) :
    (c.received payload rest).parsed =
      c.parsed ++ [(payload, sizeArg (UInt32.ofNat payload.length))] := by
  simp [received, parsed, act, parseCall]

@[simp]
theorem tunWrites_received (c : SLConnection) (payload rest : Bytes) :
    (c.received payload rest).tunWrites = c.tunWrites := by
  simp [received, tunWrites, act, tunWriteCall]

@[simp]
theorem tunWrites_act_tunWrite (c : SLConnection) (data : Bytes) :
    (c.act (.tunWrite data)).tunWrites = c.tunWrites ++ [data] := by
  simp [tunWrites, act, tunWriteCall]

end SLConnection

end SplendidLinker
