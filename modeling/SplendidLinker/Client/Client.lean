import SplendidLinker.Tunnel.Buffer

/-!
# The client

`SLClient.cpp` as the dispatch thread of the client runs it: the read callback, which reads a
length and a payload, parses it and dispatches the message to the registered callbacks; the
event callback, which sends the `ESTABLISH` request once the connection is made; and
`writePacket`.

Unlike the server, the client does not look before it reads: `length` starts as zero and the
payload buffer is cleared, so what `bufferevent_read` does not deliver stays zero.

The registered callbacks are Boolean members, since nothing of the client depends on what they
do; each call of one is recorded in the trace with its arguments. Calling an empty
`std::function` throws (`badFunctionCall`), and no callback runs after that.
-/

namespace SplendidLinker

open Foundations

/-- `SLTunnel::TunnelStatus`. -/
inductive TunnelStatus
  | establish
  | serverUnReachable
  | configureInvalid
  | onEstablish
  | establishError
  | authorizationFaild
  | tunnelInitError
  | tunnelBusy
  | tunnelEnd
  | tunnelError
  | tunnelData
  deriving DecidableEq, Repr

/-- The pointers that are passed to callbacks as their context. -/
inductive CallbackContext
  /-- `mContext`. -/
  | mContext
  /-- The `SLClient` itself. -/
  | tunnel
  /-- The address of the message. -/
  | message
  deriving DecidableEq, Repr

/-- What the dispatch thread of the client does, besides changing its members. -/
inductive ClientAction
  /-- `msg.ParseFromArray(payload, size)`. -/
  | parse (payload : Bytes) (size : ℤ)
  /-- `mErrorCallback(status, ctx)`. -/
  | errorCallback (status : TunnelStatus) (ctx : CallbackContext)
  /-- `mEstablishCallback(Establish, msg, ctx)`. -/
  | establishCallback (msg : TunnelMessage) (ctx : CallbackContext)
  /-- `mReadPacketCallback(TunnelData, msg, ctx)`. -/
  | readPacketCallback (msg : TunnelMessage) (ctx : CallbackContext)
  /-- The call of a callback that is not registered. -/
  | badFunctionCall
  /-- `bufferevent_free(bev)`. -/
  | bufferEventFree
  deriving DecidableEq

/-- A `SLClient` and its bufferevent. -/
structure SLClient where
  /-- The input buffer of `mServerBufferEvent`. -/
  input : Bytes := []
  /-- The bytes appended to the output buffer of `mServerBufferEvent`. -/
  output : Bytes := []
  mIp : Bytes := []
  mGateway : Bytes := []
  mSubmask : Bytes := []
  mDns : List Bytes := []
  mOptions : List (String × Bytes) := []
  /-- Whether `mErrorCallback` is registered. -/
  mErrorCallback : Bool := false
  /-- Whether `mEstablishCallback` is registered. -/
  mEstablishCallback : Bool := false
  /-- Whether `mReadPacketCallback` is registered. -/
  mReadPacketCallback : Bool := false
  /-- `bufferevent_free` has been called. -/
  freed : Bool := false
  /-- The dispatch thread has come back from every callback so far. -/
  running : Bool := true
  /-- What the dispatch thread has done so far. -/
  trace : List ClientAction := []
  deriving DecidableEq

namespace SLClient

/-- A client as its users set it up: the three callbacks are registered. -/
def start (options : List (String × Bytes)) : SLClient where
  mOptions := options
  mErrorCallback := true
  mEstablishCallback := true
  mReadPacketCallback := true

/-- Record an action. -/
def act (c : SLClient) (a : ClientAction) : SLClient := { c with trace := c.trace ++ [a] }

/-- Call a callback that is registered or not. -/
def call (c : SLClient) (registered : Bool) (a : ClientAction) : SLClient :=
  if registered then c.act a else { c.act .badFunctionCall with running := false }

/-- `get_mErrorCallback()(status, ctx)`. -/
def callError (c : SLClient) (status : TunnelStatus) (ctx : CallbackContext) : SLClient :=
  c.call c.mErrorCallback (.errorCallback status ctx)

/-- `bufferevent_free(bev)`: the buffers go with it. -/
def bufferEventFree (c : SLClient) : SLClient :=
  { c.act .bufferEventFree with freed := true, input := [] }

/-- `bufferevent_write` of a frame. -/
def writeFrames (o : ByteOrder) (c : SLClient) (packet : Bytes) (l : UInt32) : SLClient :=
  { c with output := c.output ++ (writeFrame o packet l).flatten }

/-- `SLClient::writePacket`: `uint32_t l = size`. -/
def writePacket (o : ByteOrder) (c : SLClient) (packet : Bytes) (size : Int32) : SLClient :=
  c.writeFrames o packet size.toUInt32

/-! ### The event callback -/

/-- `OPTIONS_USERNAME_KEY`. -/
def optionsUsernameKey : String := "username"

/-- `OPTIONS_PASSWORD_KEY`. -/
def optionsPasswordKey : String := "password"

/-- `mOptions[key]`, as a value: a missing key reads as the empty string. -/
def option (c : SLClient) (key : String) : Bytes := (c.mOptions.lookup key).getD []

/-- `mOptions[key]`, as an effect: a missing key is inserted. -/
def touchOption (c : SLClient) (key : String) : SLClient :=
  { c with mOptions := if (c.mOptions.lookup key).isSome then c.mOptions
      else c.mOptions ++ [(key, [])] }

/-- The `ESTABLISH` request. -/
def establishRequest (c : SLClient) : TunnelMessage where
  type := .known .request
  messageCode := .known .establish
  username := c.option optionsUsernameKey
  password := c.option optionsPasswordKey
  passwordEncryptType := .known .no
  linkEncryptType := .known .rawData

/-- `BEV_EVENT_EOF`. -/
def bevEventEof : UInt16 := 0x10

/-- `BEV_EVENT_ERROR`. -/
def bevEventError : UInt16 := 0x20

/-- `BEV_EVENT_TIMEOUT`. -/
def bevEventTimeout : UInt16 := 0x40

/-- `BEV_EVENT_READING`. -/
def bevEventReading : UInt16 := 0x01

/-- `BEV_EVENT_WRITING`. -/
def bevEventWriting : UInt16 := 0x02

/-- `BEV_EVENT_CONNECTED`. -/
def bevEventConnected : UInt16 := 0x80

/-- `cb_bufferevent_event`: a switch on the exact flags. -/
def cbBuffereventEvent (pb : Protobuf) (o : ByteOrder) (c : SLClient) (event : UInt16) :
    SLClient :=
  if event = bevEventEof then c
  else if event = bevEventError ∨ event = bevEventTimeout then
    if c.mErrorCallback then c.callError .serverUnReachable .tunnel else c
  else if event = bevEventReading then c
  else if event = bevEventWriting then c
  else if event = bevEventConnected then
    let msg := c.establishRequest
    ((c.touchOption optionsUsernameKey).touchOption optionsPasswordKey).writeFrames o
      (pb.serializeToArray msg) (UInt32.ofNat msg.byteSize)
  else if c.mErrorCallback then c.callError .serverUnReachable .mContext else c

/-! ### The read callback -/

/-- The members that an `ESTABLISH` response sets; its DNS servers are appended. -/
def setAddresses (c : SLClient) (msg : TunnelMessage) : SLClient :=
  { c with
    mIp := msg.ip
    mGateway := msg.gateway
    mSubmask := msg.submask
    mDns := c.mDns ++ msg.dns }

/-- What `cb_bufferevent_will_read` does with a parsed message. -/
def dispatch (c : SLClient) (msg : TunnelMessage) : SLClient :=
  if msg.type ≠ .known .response then
    let c := c.callError .establishError .message
    if c.running then c.bufferEventFree else c
  else
    match msg.messageCode with
    | .known .establish =>
      (c.setAddresses msg).call c.mEstablishCallback (.establishCallback msg .mContext)
    | .known .authorization => c.callError .authorizationFaild .mContext
    | .known .busy => c.callError .tunnelBusy .mContext
    | .known .data => c.call c.mReadPacketCallback (.readPacketCallback msg .mContext)
    | _ => c.callError .establishError .mContext

/-- `cb_bufferevent_will_read` of `SLClient.cpp`: `length` is zero and the payload cleared before
they are read. The result of `ParseFromArray` is not looked at. -/
def cbBuffereventWillRead (pb : Protobuf) (o : ByteOrder) (c : SLClient) : SLClient :=
  let header := buffereventRead c.input sizeofLength
  let length := o.ofBytes header.1
  let read := buffereventRead header.2 length.toNat
  let payload := read.1 ++ List.replicate (length.toNat - read.1.length) 0
  let size := sizeArg length
  let c := { c with input := read.2 }.act (.parse payload size)
  c.dispatch (pb.parseFromArray payload size).2

/-- A chunk arrives and the read callback runs, if the client still has its bufferevent. -/
def receive (pb : Protobuf) (o : ByteOrder) (c : SLClient) (chunk : Bytes) : SLClient :=
  if c.freed ∨ ¬ c.running then c
  else { c with input := c.input ++ chunk }.cbBuffereventWillRead pb o

/-- The payload and size a `ParseFromArray` call was given. -/
def parseCall : ClientAction → Option (Bytes × ℤ)
  | .parse payload size => some (payload, size)
  | _ => none

/-- The `ParseFromArray` calls so far. -/
def parsed (c : SLClient) : List (Bytes × ℤ) := c.trace.filterMap parseCall

end SLClient

end SplendidLinker
