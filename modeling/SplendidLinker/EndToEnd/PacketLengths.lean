import SplendidLinker.EndToEnd.Conversation
import SplendidLinker.EndToEnd.Downlink
import SplendidLinker.Foundations.WireReaders

/-!
# What comes down

The read handler of the server builds a message around the packet it has been given, measures it,
and sends as many bytes of the heap. The size of the message grows with the packet, so that the
length of the packet can be told from the frame, and nothing else can.

`replay_eq_iff_lengths_eq` says this of whole runs of a conversation: exchange the packets that the
TUN thread reads for others, and leave everything else as it is. The two runs end in the same state,
of both sides and of what is under way, exactly if the packets agree in their lengths. One step
is `Exchanged.step_eq` and `Exchanged.diverges`; that a difference is never made up for follows as
the server only ever appends to its output (`output_prefix_of_replay`).
-/

namespace SplendidLinker

open Foundations TunnelMessage WireFormat

variable {pb : Protobuf} {o : ByteOrder} {options : List (String × Bytes)}

/-! ### The frames of the read handler -/

/-- A longer packet makes a longer message. -/
theorem byteSize_dataResponse_lt {p p' : Bytes} (h : p.length < p'.length) :
    (SLConnection.dataResponse p).byteSize < (SLConnection.dataResponse p').byteSize := by
  have hvarint := varintSize_mono h.le
  have hpacket : packetSize { packetData := p } < packetSize { packetData := p' } := by
    simp only [packetSize, stringFieldSize, stringSize]
    split_ifs <;> omega
  have hvarint' := varintSize_mono hpacket.le
  simp only [SLConnection.dataResponse, byteSize, setPacketData, packetFieldSize]
  omega

/-- Two messages are of the same size exactly if their packets are of the same length. -/
theorem byteSize_dataResponse_eq_iff {p p' : Bytes} :
    (SLConnection.dataResponse p).byteSize = (SLConnection.dataResponse p').byteSize ↔
      p.length = p'.length := by
  refine ⟨fun h => ?_, TunnelMessage.byteSize_setPacketData_congr _⟩
  rcases lt_trichotomy p.length p'.length with hlt | heq | hgt
  · exact absurd h (byteSize_dataResponse_lt hlt).ne
  · exact heq
  · exact absurd h (byteSize_dataResponse_lt hgt).ne'

namespace SLConnection

/-- The payload that the handler sends for a packet. -/
def heapPayload (heap : ℕ → UInt8) (packet : TunPacket) : Bytes :=
  allocate heap (dataResponse packet.data).byteSize

theorem fits_heapPayload (heap : ℕ → UInt8) (packet : TunPacket) :
    (hostLength o).Fits (heapPayload heap packet) := by
  have hsize := (valid_dataResponse packet).size
  rw [hostLength_fits, heapPayload, length_allocate]
  omega

/-- The frame of one packet begins with that of another only if they are of the same length. -/
theorem length_eq_of_frame_starts {heap : ℕ → UInt8} {p p' : TunPacket}
    (h : (hostLength o).frame (heapPayload heap p) <+: (hostLength o).frame (heapPayload heap p')) :
    p.data.length = p'.data.length := by
  obtain ⟨rest, hrest⟩ := h
  have hnext := LengthCode.next?_frame_append (fits_heapPayload (o := o) heap p) rest
  have hnext' := LengthCode.next?_frame_append (fits_heapPayload (o := o) heap p') []
  rw [hrest] at hnext
  rw [List.append_nil, hnext] at hnext'
  have hpayload := congrArg List.length (Prod.mk.inj (Option.some.inj hnext')).1
  simpa [heapPayload, byteSize_dataResponse_eq_iff] using hpayload

/-- The read callback only appends to the output. -/
theorem output_prefix_receive (pb : Protobuf) (o : ByteOrder) (sys : SysCalls) (c : SLConnection)
    (chunk : Bytes) : c.output <+: (c.receive pb o sys chunk).output := by
  rcases receive_spec pb o sys c chunk with ⟨-, heq⟩ | ⟨payload, rest, -, heq⟩
  · exact heq ▸ List.prefix_rfl
  · have hspec := dispatch_spec pb o sys (c.received payload rest)
      (pb.parseFromArray payload (sizeArg (UInt32.ofNat payload.length))).2
    rw [heq]
    generalize (c.received payload rest).dispatch pb o sys _ = c' at hspec
    cases hspec <;> simp [received, halt, act, writePacket, setMUTUNInterface]

end SLConnection

namespace Conversation

open Handshake SLConnection

variable {t t' u : Conversation} {a a' : ConversationAction} {as as' : List ConversationAction}

/-! ### Runs -/

/-- A step of the conversation only appends to the output of the server. -/
theorem output_prefix_of_step (h : t.step pb o a = some t') :
    t.server.output <+: t'.server.output := by
  obtain ⟨b, h', rfl, hh', rfl⟩ | ⟨packets, -, -, rfl⟩ := step_cases h
  · cases hh' with
    | deliverUp => exact output_prefix_receive _ _ _ _ _
    | connect => exact List.prefix_rfl
    | deliverDown => exact List.prefix_rfl
    | clientEvent => exact List.prefix_rfl
    | serverEvent => exact List.prefix_rfl
    | tunRead => simp [tunReadHandler, writePacket]
  · exact List.prefix_rfl

/-- A run of the conversation only appends to the output of the server. -/
theorem output_prefix_of_replay (h : (conversation pb o options).replay t as = some u) :
    t.server.output <+: u.server.output := by
  have hlead := TransitionSystem.leadsTo_of_replay h
  clear h
  induction hlead with
  | refl => exact List.prefix_rfl
  | tail _ hstep ih =>
    obtain ⟨a, ha⟩ := hstep
    exact ih.trans (output_prefix_of_step ha)

/-- The action is the same, or another packet is read on the same heap. -/
inductive Exchanged : ConversationAction → ConversationAction → Prop
  | same (a : ConversationAction) : Exchanged a a
  | packet (heap : ℕ → UInt8) (p p' : TunPacket) :
      Exchanged (.handshake (.tunRead heap p.data)) (.handshake (.tunRead heap p'.data))

/-- The length of the packet that is read. -/
def packetLength : ConversationAction → Option ℕ
  | .handshake (.tunRead _ packet) => some packet.length
  | _ => none

/-- **One step.** With a packet of the same length it leads to the same state. -/
theorem Exchanged.step_eq (h : Exchanged a a') (hlen : packetLength a = packetLength a') :
    t.step pb o a = t.step pb o a' := by
  cases h with
  | same => rfl
  | packet heap p p' =>
    have hsize : (dataResponse p.data).byteSize = (dataResponse p'.data).byteSize :=
      byteSize_dataResponse_eq_iff.mpr (Option.some.inj hlen)
    simp only [step, Handshake.step, tunReadHandler, hsize]

/-- **One step apart.** With a packet of another length, the output goes on in another way. -/
theorem Exchanged.diverges (h : Exchanged a a') (hlen : packetLength a ≠ packetLength a')
    (hstep : t.step pb o a = some t') (hstep' : t.step pb o a' = some u) {z : Bytes}
    (hz : t'.server.output <+: z) : ¬ u.server.output <+: z := by
  cases h with
  | same => exact absurd rfl hlen
  | packet heap p p' =>
    intro hz'
    obtain ⟨h₁, hh₁, rfl⟩ := Option.map_eq_some_iff.mp hstep
    obtain ⟨h₂, hh₂, rfl⟩ := Option.map_eq_some_iff.mp hstep'
    cases stepped hh₁
    cases stepped hh₂
    simp only [output_tunReadHandler] at hz hz'
    have hne : p.data.length ≠ p'.data.length := fun heq => hlen (congrArg some heq)
    rcases List.prefix_or_prefix_of_prefix hz hz' with hle | hge
    · exact hne (length_eq_of_frame_starts ((List.prefix_append_right_inj _).mp hle))
    · exact hne (length_eq_of_frame_starts ((List.prefix_append_right_inj _).mp hge)).symm

/-- **Exactly the lengths come down.** If the packets that the TUN thread reads are exchanged for
others, the run leads to the same state, of both sides and of what is under way between them, if and
only if the packets are of the same lengths. -/
theorem replay_eq_iff_lengths_eq (h : List.Forall₂ Exchanged as as')
    (hrun : (conversation pb o options).replay t as = some u) :
    (conversation pb o options).replay t as' = some u ↔
      as.map packetLength = as'.map packetLength := by
  induction h generalizing t with
  | nil => exact iff_of_true hrun rfl
  | @cons a a' as as' hhead _ ih =>
    obtain ⟨t₁, hstep, hrest⟩ := TransitionSystem.replay_cons_eq_some_iff.mp hrun
    rw [TransitionSystem.replay_cons_eq_some_iff, List.map_cons, List.map_cons, List.cons.injEq]
    by_cases hlen : packetLength a = packetLength a'
    · have hstep' : t.step pb o a' = some t₁ := hhead.step_eq hlen ▸ hstep
      rw [← ih hrest]
      constructor
      · rintro ⟨t₂, hstep₂, hrest'⟩
        obtain rfl := Option.some.inj (hstep'.symm.trans hstep₂)
        exact ⟨hlen, hrest'⟩
      · rintro ⟨-, hrest'⟩
        exact ⟨t₁, hstep', hrest'⟩
    · -- both outputs would begin that of the last state
      refine iff_of_false ?_ fun heq => hlen heq.1
      rintro ⟨t₂, hstep₂, hrest'⟩
      exact hhead.diverges hlen hstep hstep₂ (output_prefix_of_replay hrest)
        (output_prefix_of_replay hrest')

/-- The TUN thread reads a packet of one byte once the interface is there. -/
private def readsByte (b : UInt8) : List ConversationAction :=
  [.handshake .connect, .handshake (.deliverUp 6 .succeed), .handshake (.tunRead (fun _ => 0) [b])]

/-- Another byte, and the same state. -/
theorem replay_eq_iff_lengths_eq_one_byte :
    ∃ u, (conversation wireFormat .little []).replay { client := .start [] }
        (readsByte 0x45) = some u ∧
      ((conversation wireFormat .little []).replay { client := .start [] }
          (readsByte 0x60) = some u ↔
        (readsByte 0x45).map packetLength = (readsByte 0x60).map packetLength) := by
  have hsome : ((conversation wireFormat .little []).replay { client := .start [] }
      (readsByte 0x45)).isSome = true := by decide +kernel
  obtain ⟨u, hrun⟩ := Option.isSome_iff_exists.mp hsome
  have hexchanged : List.Forall₂ Exchanged (readsByte 0x45) (readsByte 0x60) :=
    .cons (.same _) (.cons (.same _) (.cons (.packet _ ⟨[0x45], by decide, by decide⟩
      ⟨[0x60], by decide, by decide⟩) .nil))
  exact ⟨u, hrun, replay_eq_iff_lengths_eq hexchanged hrun⟩

end Conversation

end SplendidLinker
