import Mathlib.Data.List.GetD
import SplendidLinker.Client.Client
import SplendidLinker.Message.FieldSequences

/-!
# The framing of the client

The read callback of the client takes a length and a payload off its input buffer whether or
not they are there (`readFrame`): each callback hands exactly one payload to the parser, with
zeros in place of the bytes that have not arrived.

For the responses of the server this is exact if and only if the chunks keep up with the
frames (`KeepsUp`): there are as many chunks as frames, and the first `i` frames have arrived
when the callback runs for the `i`-th time. That this is necessary has two steps. If a
payload is handed over before its frame is complete, the missing bytes must have been zeros
(`readFrame_of_incomplete`). They are then still to come, and the callback that finds them
reads a header that can only belong to an empty payload (`readFrame_ne_of_zeros`), while a
response never is encoded by nothing.
-/

namespace SplendidLinker

open Foundations

/-! ### Reading without looking -/

/-- What the two reads of the client take off a buffer: the payload, with zeros in place of
what is not there, and the bytes that are left. -/
def readFrame (o : ByteOrder) (b : Bytes) : Bytes × Bytes :=
  let length := (o.ofBytes (b.take 4)).toNat
  let payload := (b.drop 4).take length
  (payload ++ List.replicate (length - payload.length) 0, (b.drop 4).drop length)

variable {pb : Protobuf} {o : ByteOrder} {p b m rest : Bytes}

@[simp]
theorem length_readFrame : (readFrame o b).1.length = (o.ofBytes (b.take 4)).toNat := by
  simp only [readFrame, List.length_append, List.length_replicate, List.length_take]
  omega

/-- The length the client reads is that of the payload it hands over. -/
theorem ofNat_length_readFrame :
    UInt32.ofNat (readFrame o b).1.length = o.ofBytes (b.take 4) := by
  rw [length_readFrame]
  exact UInt32.ofNat_toNat

/-- **A frame that is there is read exactly.** -/
theorem readFrame_frame_append (hp : p.length < 2 ^ 32) (rest : Bytes) :
    readFrame o ((hostLength o).frame p ++ rest) = (p, rest) := by
  have htake : ((hostLength o).frame p ++ rest).take 4 = o.toBytes (UInt32.ofNat p.length) :=
    (hostLength o).take_frame_append p rest
  have hdrop : ((hostLength o).frame p ++ rest).drop 4 = p ++ rest :=
    (hostLength o).drop_frame_append p rest
  have hlen : (UInt32.ofNat p.length).toNat = p.length := by
    rw [UInt32.toNat_ofNat', Nat.mod_eq_of_lt hp]
  simp [readFrame, htake, hdrop, hlen]

/-- The header of the payload the client hands over: the first bytes of the buffer, with zeros
in place of what is not there. -/
private theorem getD_header_readFrame {j : ℕ} (hj : j < 4) :
    (o.toBytes (UInt32.ofNat (readFrame o b).1.length)).getD j 0 = b.getD j 0 := by
  have hget : (b.take 4).getD j 0 = b.getD j 0 := by
    simp [List.getD_eq_getElem?_getD, hj]
  rw [ofNat_length_readFrame, ByteOrder.toBytes_ofBytes, ← hget]
  match j, hj with
  | 0, _ => rfl
  | 1, _ => rfl
  | 2, _ => rfl
  | 3, _ => rfl

/-- Behind the end of the buffer the payload the client hands over is zero. -/
private theorem getD_readFrame_of_le {j : ℕ} (hj : b.length ≤ 4 + j) :
    (readFrame o b).1.getD j 0 = 0 := by
  have hlen : ((b.drop 4).take (o.ofBytes (b.take 4)).toNat).length ≤ j := by
    rw [List.length_take, List.length_drop]
    omega
  simp only [readFrame]
  rw [List.getD_append_right _ _ _ _ hlen, List.getD_eq_getElem?_getD]
  exact List.getElem?_getD_replicate_default_eq _ _ _

/-- **Reading ahead.** If the client hands over the payload of a frame that is not complete,
it empties the buffer, and the missing bytes are zeros. -/
theorem readFrame_of_incomplete (h : b ++ m = (hostLength o).frame p) (hm : m ≠ [])
    (hread : (readFrame o b).1 = p) : (readFrame o b).2 = [] ∧ ∀ j, m.getD j 0 = 0 := by
  have hlen : b.length + m.length = 4 + p.length := by
    rw [← List.length_append, h, LengthCode.length_frame, hostLength_width]
  have hpos : 0 < m.length := List.length_pos_of_ne_nil hm
  refine ⟨?_, fun j => ?_⟩
  · have hdrop : (readFrame o b).2 = b.drop (4 + p.length) := by
      rw [← hread, length_readFrame, ← List.drop_drop]
      rfl
    rw [hdrop, List.drop_eq_nil_of_le (by omega)]
  · have hget : m.getD j 0 = (o.toBytes (UInt32.ofNat p.length) ++ p).getD (b.length + j) 0 := by
      rw [← hostLength_frame, ← h, List.getD_append_right _ _ _ _ (by omega)]
      congr 1
      omega
    rw [hget]
    -- a missing byte belongs to the header or to the payload
    rcases lt_or_ge (b.length + j) 4 with hj | hj
    · rw [List.getD_append _ _ _ _ (by simpa using hj), ← hread, getD_header_readFrame hj]
      exact List.getD_eq_default _ _ (by omega)
    · rw [List.getD_append_right _ _ _ _ (by simpa using hj), ← hread]
      exact getD_readFrame_of_le (by rw [ByteOrder.length_toBytes]; omega)

/-- **Reading behind.** Zeros left over in front of the frame of a payload make its header that
of an empty payload. -/
theorem readFrame_ne_of_zeros (hp : p.length < 2 ^ 32) (hne : p ≠ []) (hm : m ≠ [])
    (hzero : ∀ j, m.getD j 0 = 0) (h : b <+: m ++ ((hostLength o).frame p ++ rest)) :
    (readFrame o b).1 ≠ p := by
  intro hread
  have hpos : 0 < m.length := List.length_pos_of_ne_nil hm
  obtain ⟨later, hlater⟩ := h
  -- each byte of the header is zero or an earlier byte of the header
  have hheader : ∀ j, j < 4 → (o.toBytes (UInt32.ofNat p.length)).getD j 0 = 0 := by
    intro j
    induction j using Nat.strongRecOn with
    | _ j ih =>
      intro hj
      rw [← hread, getD_header_readFrame hj]
      rcases le_or_gt b.length j with hb | hb
      · exact List.getD_eq_default _ _ hb
      · rw [← List.getD_append _ later _ _ hb, hlater]
        rcases lt_or_ge j m.length with hjm | hjm
        · rw [List.getD_append _ _ _ _ hjm, hzero]
        · rw [List.getD_append_right _ _ _ _ hjm, hostLength_frame, List.append_assoc,
            List.getD_append _ _ _ _ (by rw [ByteOrder.length_toBytes]; omega)]
          exact ih (j - m.length) (by omega) (by omega)
  have hword : o.toBytes (UInt32.ofNat p.length) = o.toBytes 0 := by
    have hbytes := o.toBytes_ofBytes (o.toBytes (UInt32.ofNat p.length))
    rw [o.ofBytes_toBytes, hheader 0 (by omega), hheader 1 (by omega), hheader 2 (by omega),
      hheader 3 (by omega)] at hbytes
    rw [hbytes, ByteOrder.toBytes_zero]
  have hlen : (UInt32.ofNat p.length).toNat = 0 := by
    rw [o.toBytes_injective hword]
    rfl
  rw [UInt32.toNat_ofNat', Nat.mod_eq_of_lt hp] at hlen
  exact hne (List.length_eq_zero_iff.mp hlen)

/-! ### The read callback -/

namespace SLClient

variable {c : SLClient} {chunk : Bytes}

/-- The client can run its read callback, and its callbacks are registered. -/
structure Ready (c : SLClient) : Prop where
  freed : c.freed = false
  running : c.running = true
  mErrorCallback : c.mErrorCallback = true
  mEstablishCallback : c.mEstablishCallback = true
  mReadPacketCallback : c.mReadPacketCallback = true

theorem parsed_call (registered : Bool) {a : ClientAction} (ha : parseCall a = none) :
    (c.call registered a).parsed = c.parsed := by
  rw [call]
  split
  · simp [parsed, act, ha]
  · simp [parsed, act, parseCall]

/-- Dispatching a message parses nothing. -/
theorem parsed_dispatch (c : SLClient) (msg : TunnelMessage) :
    (c.dispatch msg).parsed = c.parsed := by
  rw [dispatch]
  split
  · have herr : (c.callError .establishError .message).parsed = c.parsed := parsed_call _ rfl
    simp only
    split
    · rw [← herr]
      simp [bufferEventFree, parsed, act, parseCall]
    · exact herr
  · split <;> exact parsed_call _ rfl

private theorem Ready.call (h : c.Ready) {registered : Bool} (hr : registered = true)
    (a : ClientAction) :
    (c.call registered a).Ready ∧ (c.call registered a).input = c.input := by
  rw [SLClient.call, if_pos hr]
  exact ⟨⟨h.1, h.2, h.3, h.4, h.5⟩, rfl⟩

/-- A response leaves a ready client ready, and its input as it is. -/
theorem Ready.dispatch (h : c.Ready) {msg : TunnelMessage} (hmsg : msg.type = .known .response) :
    (c.dispatch msg).Ready ∧ (c.dispatch msg).input = c.input := by
  rw [SLClient.dispatch, if_neg (not_not.mpr hmsg)]
  split
  · have hset : (c.setAddresses msg).Ready := ⟨h.1, h.2, h.3, h.4, h.5⟩
    exact hset.call h.mEstablishCallback _
  · exact h.call h.mErrorCallback _
  · exact h.call h.mErrorCallback _
  · exact h.call h.mReadPacketCallback _
  · exact h.call h.mErrorCallback _

/-- The call of `ParseFromArray` for the payload `p`. -/
def parseOf (p : Bytes) : Bytes × ℤ := (p, sizeArg (UInt32.ofNat p.length))

/-- What the read callback does: one payload is taken off, parsed and dispatched. -/
theorem cbBuffereventWillRead_of_read (hread : readFrame o c.input = (p, rest)) :
    c.cbBuffereventWillRead pb o =
      ({ c with input := rest }.act (.parse p (sizeArg (UInt32.ofNat p.length)))).dispatch
        (pb.parseFromArray p (sizeArg (UInt32.ofNat p.length))).2 := by
  have hp : p = (readFrame o c.input).1 := by rw [hread]
  have hrest : rest = (readFrame o c.input).2 := by rw [hread]
  rw [hp, hrest, ofNat_length_readFrame]
  rfl

/-- A ready client runs its read callback on every chunk. -/
theorem receive_eq (h : c.Ready) (chunk : Bytes) :
    c.receive pb o chunk = { c with input := c.input ++ chunk }.cbBuffereventWillRead pb o :=
  if_neg (by simp [h.freed, h.running])

/-- **Each callback hands over one payload.** -/
theorem parsed_receive (h : c.Ready) (chunk : Bytes) :
    (c.receive pb o chunk).parsed = c.parsed ++ [parseOf (readFrame o (c.input ++ chunk)).1] := by
  have hread : readFrame o (c.input ++ chunk) =
      ((readFrame o (c.input ++ chunk)).1, (readFrame o (c.input ++ chunk)).2) := rfl
  rw [receive_eq h, cbBuffereventWillRead_of_read hread, parsed_dispatch]
  simp [parsed, act, parseCall, parseOf]

/-- After a response the client goes on with what is left in the buffer. -/
theorem Ready.receive (h : c.Ready) {p rest : Bytes}
    (hread : readFrame o (c.input ++ chunk) = (p, rest))
    (hmsg : (pb.parseFromArray p (parseOf p).2).2.type = .known .response) :
    (c.receive pb o chunk).Ready ∧ (c.receive pb o chunk).input = rest := by
  have hready : ({ c with input := rest }.act (.parse p (parseOf p).2)).Ready :=
    ⟨h.1, h.2, h.3, h.4, h.5⟩
  rw [receive_eq h, cbBuffereventWillRead_of_read hread]
  exact hready.dispatch hmsg

/-! ### Keeping up -/

/-- The chunks arrive one after the other, and the read callback runs after each. -/
def receiveAll (pb : Protobuf) (o : ByteOrder) (c : SLClient) (chunks : List Bytes) : SLClient :=
  chunks.foldl (receive pb o) c

/-- Along the chunks the client hands over the payloads `ps`, each once and in order, and
nothing else. -/
structure ReadsExactly (pb : Protobuf) (o : ByteOrder) (c : SLClient) (chunks ps : List Bytes) :
    Prop where
  isPrefix : ∀ i, (c.receiveAll pb o (chunks.take i)).parsed <+: c.parsed ++ ps.map parseOf
  complete : (c.receiveAll pb o chunks).parsed = c.parsed ++ ps.map parseOf

/-- There are as many chunks as frames, and with the `i`-th chunk the first `i` frames are
there; `b` is what was in the buffer before. -/
structure KeepsUp (o : ByteOrder) (b : Bytes) (chunks ps : List Bytes) : Prop where
  length_eq : chunks.length = ps.length
  arrived : ∀ i, (hostLength o).stream (ps.take i) <+: b ++ (chunks.take i).flatten

/-- One chunk more for a ready client: it hands over one payload. -/
private theorem readsExactly_cons (h : c.Ready) {chunks ps : List Bytes} :
    c.ReadsExactly pb o (chunk :: chunks) ps ↔
      ∃ ps', ps = (readFrame o (c.input ++ chunk)).1 :: ps' ∧
        (c.receive pb o chunk).ReadsExactly pb o chunks ps' := by
  set p := (readFrame o (c.input ++ chunk)).1
  have hsplit (ps' : List Bytes) : (c.receive pb o chunk).parsed ++ ps'.map parseOf =
      c.parsed ++ (p :: ps').map parseOf := by
    rw [parsed_receive h, List.append_assoc]
    rfl
  constructor
  · intro hread
    have hfirst : (c.receive pb o chunk).parsed <+: c.parsed ++ ps.map parseOf := by
      simpa [receiveAll] using hread.isPrefix 1
    rw [parsed_receive h, List.prefix_append_right_inj] at hfirst
    cases ps with
    | nil => simp at hfirst
    | cons p' ps' =>
      obtain rfl : p = p' := congrArg Prod.fst (by simpa using hfirst)
      refine ⟨ps', rfl, fun i => ?_, ?_⟩
      · rw [hsplit]
        simpa [receiveAll] using hread.isPrefix (i + 1)
      · rw [hsplit]
        simpa [receiveAll] using hread.complete
  · rintro ⟨ps', rfl, hread⟩
    refine ⟨fun i => ?_, ?_⟩
    · cases i with
      | zero => exact List.prefix_append _ _
      | succ i =>
        rw [← hsplit]
        simpa [receiveAll] using hread.isPrefix i
    · rw [← hsplit]
      simpa [receiveAll] using hread.complete

/-- One chunk more keeps up if it completes the next frame, and the others keep up with what
follows that frame. -/
private theorem keepsUp_cons {b : Bytes} {chunks ps : List Bytes} {p : Bytes} :
    KeepsUp o b (chunk :: chunks) (p :: ps) ↔
      ∃ b', b ++ chunk = (hostLength o).frame p ++ b' ∧ KeepsUp o b' chunks ps := by
  constructor
  · intro h
    obtain ⟨b', hb'⟩ : (hostLength o).frame p <+: b ++ chunk := by simpa using h.arrived 1
    refine ⟨b', hb'.symm, by simpa using h.length_eq, fun i => ?_⟩
    have harr : (hostLength o).frame p ++ (hostLength o).stream (ps.take i) <+:
        b ++ chunk ++ (chunks.take i).flatten := by
      simpa using h.arrived (i + 1)
    rwa [← hb', List.append_assoc, List.prefix_append_right_inj] at harr
  · rintro ⟨b', hb', h⟩
    refine ⟨by simpa using h.length_eq, fun i => ?_⟩
    cases i with
    | zero => exact List.nil_prefix
    | succ i =>
      have harr := (List.prefix_append_right_inj ((hostLength o).frame p)).mpr (h.arrived i)
      rw [← List.append_assoc, ← hb'] at harr
      simpa using harr

/-- A payload of the server: it is not empty, not too long, and parses as a response. -/
structure IsResponse (pb : Protobuf) (p : Bytes) : Prop where
  ne_nil : p ≠ []
  length_lt : p.length < 2 ^ 31
  parse : (pb.parseFromArray p (parseOf p).2).2.type = .known .response

/-- A complete frame in front of the buffer: the client reads its payload, and goes on. -/
private theorem Ready.receive_frame (h : c.Ready) {p b' : Bytes} (hp : IsResponse pb p)
    (hb : c.input ++ chunk = (hostLength o).frame p ++ b') :
    readFrame o (c.input ++ chunk) = (p, b') ∧ (c.receive pb o chunk).Ready ∧
      (c.receive pb o chunk).input = b' := by
  have hread : readFrame o (c.input ++ chunk) = (p, b') := by
    rw [hb]
    exact readFrame_frame_append (lt_trans hp.length_lt (by norm_num)) b'
  exact ⟨hread, h.receive hread hp.parse⟩

/-- A client that reads ahead does not read exactly: the next payload it hands over is not
that of the next frame. -/
private theorem not_readsExactly_of_incomplete (h : c.Ready) {chunks ps : List Bytes} {p m : Bytes}
    (hps : ∀ q ∈ p :: ps, IsResponse pb q) (hb : (hostLength o).frame p = c.input ++ chunk ++ m)
    (hm : m ≠ []) (hlater : chunks.flatten = m ++ (hostLength o).stream ps) :
    ¬ c.ReadsExactly pb o (chunk :: chunks) (p :: ps) := by
  intro hexact
  obtain ⟨ps', heq, hexact⟩ := (readsExactly_cons h).mp hexact
  obtain ⟨hp, rfl⟩ := List.cons.inj heq
  obtain ⟨hempty, hzero⟩ := readFrame_of_incomplete hb.symm hm hp.symm
  obtain ⟨hready, hinput⟩ := h.receive (Prod.ext hp.symm hempty) (hps p (by simp)).parse
  cases chunks with
  | nil => exact hm (List.append_eq_nil_iff.mp hlater.symm).1
  | cons chunk' chunks =>
    obtain ⟨ps', heq, -⟩ := (readsExactly_cons hready).mp hexact
    have hp' : IsResponse pb (readFrame o ((c.receive pb o chunk).input ++ chunk')).1 :=
      hps _ (by simp [heq])
    rw [hinput, List.nil_append] at heq hp'
    have hfront : chunk' <+: m ++ ((hostLength o).frame (readFrame o chunk').1 ++
        (hostLength o).stream ps') := by
      rw [← LengthCode.stream_cons, ← heq, ← hlater]
      exact List.prefix_append _ _
    exact readFrame_ne_of_zeros (lt_trans hp'.length_lt (by norm_num)) hp'.ne_nil hm hzero hfront
      rfl

/-- **Keeping up, from any state of the buffer.** The induction is on the chunks. -/
private theorem readsExactly_iff_keepsUp {chunks : List Bytes} :
    ∀ {c : SLClient} {ps : List Bytes}, c.Ready → (∀ p ∈ ps, IsResponse pb p) →
      c.input ++ chunks.flatten = (hostLength o).stream ps →
      (c.ReadsExactly pb o chunks ps ↔ KeepsUp o c.input chunks ps) := by
  induction chunks with
  | nil =>
    intro c ps hc hps hcut
    constructor
    · intro h
      obtain rfl : ps = [] := by simpa [receiveAll] using h.complete
      exact ⟨rfl, fun i => by simp⟩
    · intro h
      obtain rfl : ps = [] := List.length_eq_zero_iff.mp h.length_eq.symm
      exact ⟨fun i => by simp [receiveAll], by simp [receiveAll]⟩
  | cons chunk chunks ih =>
    intro c ps hc hps hcut
    cases ps with
    | nil =>
      refine iff_of_false (fun h => ?_) fun h => by simpa using h.length_eq
      obtain ⟨ps', heq, -⟩ := (readsExactly_cons hc).mp h
      cases heq
    | cons p ps =>
      have hp := hps p (by simp)
      have hps' : ∀ q ∈ ps, IsResponse pb q := fun q hq => hps q (by simp [hq])
      -- the frame of `p` is complete with this chunk, or it is not
      have hcomplete : ∀ b', c.input ++ chunk = (hostLength o).frame p ++ b' →
          (c.ReadsExactly pb o (chunk :: chunks) (p :: ps) ↔
            KeepsUp o c.input (chunk :: chunks) (p :: ps)) := by
        intro b' hb
        obtain ⟨hread, hready, hinput⟩ := hc.receive_frame hp hb
        have hrest : b' ++ chunks.flatten = (hostLength o).stream ps := by
          rw [List.flatten_cons, ← List.append_assoc, hb, List.append_assoc] at hcut
          exact List.append_cancel_left hcut
        have hih := ih hready hps' (by rwa [hinput])
        rw [readsExactly_cons hc, keepsUp_cons, hread]
        rw [hinput] at hih
        constructor
        · rintro ⟨ps', heq, h⟩
          obtain ⟨-, rfl⟩ := List.cons.inj heq
          exact ⟨b', hb, hih.mp h⟩
        · rintro ⟨b'', hb', h⟩
          obtain rfl : b' = b'' := List.append_cancel_left (hb.symm.trans hb')
          exact ⟨ps, rfl, hih.mpr h⟩
      rw [List.flatten_cons, ← List.append_assoc, LengthCode.stream_cons] at hcut
      rcases List.append_eq_append_iff.mp hcut with ⟨m, hm, hlater⟩ | ⟨b', hb, -⟩
      · -- nothing of the frame is missing, or the client reads ahead
        by_cases hnil : m = []
        · exact hcomplete [] (by rw [hm, hnil, List.append_nil, List.append_nil])
        · refine iff_of_false (not_readsExactly_of_incomplete hc hps hm hnil hlater) fun h => ?_
          obtain ⟨b', hb, -⟩ := keepsUp_cons.mp h
          rw [hm, List.append_assoc] at hb
          simp [hnil] at hb
      · exact hcomplete b' hb

/-- What the server writes for a valid response is a response to the client. -/
private theorem isResponse_serialize {m : TunnelMessage} (hm : m.Valid)
    (ht : m.type = .known .response) : IsResponse pb (pb.serializeToArray m) := by
  have hlen := pb.length_serialize m hm
  refine ⟨fun hnil => ?_, hlen ▸ hm.size, ?_⟩
  · have := TunnelMessage.byteSize_pos_of_response ht
    rw [hnil, List.length_nil] at hlen
    omega
  · rw [parseOf, parse_serialize_sizeArg hm]
    exact ht

/-- **The client reads the responses of the server exactly if and only if the chunks keep up
with the frames.** -/
theorem readsExactly_iff (pb : Protobuf) (o : ByteOrder) (options : List (String × Bytes))
    (msgs : List TunnelMessage) (hmsgs : ∀ m ∈ msgs, m.Valid ∧ m.type = .known .response)
    (chunks : List Bytes)
    (hcut : chunks.flatten = (hostLength o).stream (msgs.map pb.serializeToArray)) :
    (start options).ReadsExactly pb o chunks (msgs.map pb.serializeToArray) ↔
      KeepsUp o [] chunks (msgs.map pb.serializeToArray) := by
  have hps : ∀ p ∈ msgs.map pb.serializeToArray, IsResponse pb p := by
    intro p hp
    obtain ⟨m, hm, rfl⟩ := List.mem_map.mp hp
    exact isResponse_serialize (hmsgs m hm).1 (hmsgs m hm).2
  exact readsExactly_iff_keepsUp (c := start options) ⟨rfl, rfl, rfl, rfl, rfl⟩ hps
    (by simpa [start] using hcut)

/-- A `DATA` response with the packet `[0x45]`. -/
def dataResponse : TunnelMessage where
  type := .known .response
  messageCode := .known .data
  packet := some { packetData := [0x45] }

theorem valid_dataResponse : dataResponse.Valid where
  utf8 := by decide
  size := by decide

/-- One frame in one chunk. -/
theorem readsExactly_iff_one_frame :
    (start []).ReadsExactly wireFormat .little
        [(hostLength .little).frame (wireFormat.serializeToArray dataResponse)]
        [wireFormat.serializeToArray dataResponse] ↔
      KeepsUp .little [] [(hostLength .little).frame (wireFormat.serializeToArray dataResponse)]
        [wireFormat.serializeToArray dataResponse] :=
  readsExactly_iff wireFormat .little [] [dataResponse]
    (by simpa using ⟨valid_dataResponse, rfl⟩) _ (by simp)

/-- Two frames in one chunk, or one frame cut inside its header. -/
theorem not_readsExactly :
    ¬ (∀ chunks, (∀ chunk ∈ chunks, chunk ≠ []) →
        chunks.flatten = (hostLength .little).stream
          ([dataResponse, dataResponse].map wireFormat.serializeToArray) →
        (start []).ReadsExactly wireFormat .little chunks
          ([dataResponse, dataResponse].map wireFormat.serializeToArray)) ∧
      ¬ (∀ chunks, (∀ chunk ∈ chunks, chunk ≠ []) →
        chunks.flatten = (hostLength .little).stream
          ([dataResponse].map wireFormat.serializeToArray) →
        (start []).ReadsExactly wireFormat .little chunks
          ([dataResponse].map wireFormat.serializeToArray)) := by
  constructor
  · intro h
    have hexact := h [(hostLength .little).stream
      ([dataResponse, dataResponse].map wireFormat.serializeToArray)] (by decide) (by simp)
    exact absurd hexact.complete (by decide)
  · intro h
    have hexact := h [[9, 0], [0, 0] ++ wireFormat.serializeToArray dataResponse]
      (by decide) (by decide)
    exact absurd hexact.complete (by decide)

end SLClient

end SplendidLinker
