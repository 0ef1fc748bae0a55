import SplendidLinker.Foundations.TransitionSystem
import SplendidLinker.Foundations.EventLog
import SplendidLinker.Foundations.Recording
import SplendidLinker.Foundations.Family
import SplendidLinker.Foundations.SharedFate
import SplendidLinker.Foundations.Fifo
import SplendidLinker.Foundations.Backlog
import SplendidLinker.Foundations.ByteOrder
import SplendidLinker.Foundations.Framing
import SplendidLinker.Foundations.WireFormat
import SplendidLinker.Foundations.WireReaders
import SplendidLinker.Foundations.CodedStream
import SplendidLinker.Foundations.Handles
import SplendidLinker.Message.TunnelMessage
import SplendidLinker.Message.Merge
import SplendidLinker.Message.GeneratedCodec
import SplendidLinker.Message.FieldSequences
import SplendidLinker.Message.AcceptedInput
import SplendidLinker.Message.TornInput
import SplendidLinker.Tunnel.Buffer
import SplendidLinker.Tunnel.UTUNInterface
import SplendidLinker.Tunnel.WriteLoop
import SplendidLinker.Tunnel.Descriptors
import SplendidLinker.Server.Connection
import SplendidLinker.Server.Framing
import SplendidLinker.Server.Backlog
import SplendidLinker.Server.Session
import SplendidLinker.Server.EstablishResponse
import SplendidLinker.Server.ConcurrentWrites
import SplendidLinker.Server.ConnectionThreads
import SplendidLinker.Server.Teardown
import SplendidLinker.Server.Precedence
import SplendidLinker.Server.Ownership
import SplendidLinker.Server.Admission
import SplendidLinker.Server.PacketQueue
import SplendidLinker.Server.AddressedDelivery
import SplendidLinker.Server.StartResources
import SplendidLinker.Server.Service
import SplendidLinker.Server.Process
import SplendidLinker.Client.Client
import SplendidLinker.Client.Framing
import SplendidLinker.Client.PacketTunnelProvider
import SplendidLinker.Client.Delivery
import SplendidLinker.Client.StartCompletion
import SplendidLinker.Client.ReleasedBufferEvent
import SplendidLinker.Client.Configuration
import SplendidLinker.Client.CallbackContract
import SplendidLinker.Client.StartResources
import SplendidLinker.Client.ServerAddress
import SplendidLinker.Client.TornReply
import SplendidLinker.Client.NetworkSettings
import SplendidLinker.EndToEnd.Downlink
import SplendidLinker.EndToEnd.Uplink
import SplendidLinker.EndToEnd.Malformed
import SplendidLinker.EndToEnd.Encapsulation
import SplendidLinker.EndToEnd.FrameSizes
import SplendidLinker.EndToEnd.Handshake
import SplendidLinker.EndToEnd.HandshakeOutcome
import SplendidLinker.EndToEnd.Conversation
import SplendidLinker.EndToEnd.PacketLengths
import SplendidLinker.EndToEnd.CatchingUp
