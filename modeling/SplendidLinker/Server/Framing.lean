import SplendidLinker.Foundations.TransitionSystem
import SplendidLinker.Message.FieldSequences
import SplendidLinker.Server.Connection

/-!
# The framing of a server connection

A `Link` is a connection together with the bytes that have reached it and the chunks that are
still on their way. libevent runs the read callback after each chunk, and the event callback
at any time; no callback runs once the bufferevent is freed or a callback has not come back.

Two results, for every cutting of the stream into chunks:

* `framing_synchronised`: the read callback never loses its place in the stream.
* `nothingWaiting_iff`: it takes one frame each time, so no complete frame is left waiting
  exactly as long as no chunk completes more than one.

Both follow from what one chunk does (`receive_spec`). The second goes through `accounted`: the
frames that have arrived are those that were parsed followed by those that wait in the input
buffer.
-/

namespace SplendidLinker

open Foundations

namespace SLConnection

/-- A chunk arrives and the read callback runs. -/
def receive (pb : Protobuf) (o : ByteOrder) (sys : SysCalls) (c : SLConnection) (chunk : Bytes) :
    SLConnection :=
  (c.arrive chunk).cbBuffereventWillRead pb o sys

variable {pb : Protobuf} {o : ByteOrder} {sys : SysCalls}

/-- **What a chunk does**: it waits in the input buffer, or it completes the frame at the front
of the buffer, which is then taken off, parsed and dispatched. -/
theorem receive_spec (pb : Protobuf) (o : ByteOrder) (sys : SysCalls) (c : SLConnection)
    (chunk : Bytes) :
    ((hostLength o).next? (c.input ++ chunk) = none ∧
        c.receive pb o sys chunk = c.arrive chunk) ∨
      ∃ payload rest, (hostLength o).next? (c.input ++ chunk) = some (payload, rest) ∧
        c.receive pb o sys chunk =
          (c.received payload rest).dispatch pb o sys
            (pb.parseFromArray payload (sizeArg (UInt32.ofNat payload.length))).2 := by
  cases h : (hostLength o).next? (c.input ++ chunk) with
  | none => exact .inl ⟨rfl, cbBuffereventWillRead_of_none h⟩
  | some r => exact .inr ⟨r.1, r.2, rfl, cbBuffereventWillRead_of_some h⟩

/-- What a chunk does to the input buffer and to the list of parsed payloads. -/
theorem receive_frame (pb : Protobuf) (o : ByteOrder) (sys : SysCalls) (c : SLConnection)
    (chunk : Bytes) :
    ((hostLength o).next? (c.input ++ chunk) = none ∧
        (c.receive pb o sys chunk).input = c.input ++ chunk ∧
        (c.receive pb o sys chunk).parsed = c.parsed) ∨
      ∃ payload rest, (hostLength o).next? (c.input ++ chunk) = some (payload, rest) ∧
        (c.receive pb o sys chunk).input = rest ∧
        (c.receive pb o sys chunk).parsed =
          c.parsed ++ [(payload, sizeArg (UInt32.ofNat payload.length))] := by
  rcases receive_spec pb o sys c chunk with ⟨hn, hr⟩ | ⟨payload, rest, hn, hr⟩
  · exact .inl ⟨hn, by rw [hr, arrive], by rw [hr]; rfl⟩
  · obtain ⟨hin, -, hpar⟩ := dispatch_frame pb o sys (c.received payload rest)
      (pb.parseFromArray payload (sizeArg (UInt32.ofNat payload.length))).2
    refine .inr ⟨payload, rest, hn, ?_, ?_⟩
    · rw [hr, hin]
      rfl
    · rw [hr, hpar, parsed_received]

end SLConnection

/-! ### Links -/

/-- A connection, the bytes that have reached it, and the chunks that have not yet. -/
structure Link where
  conn : SLConnection
  arrived : Bytes
  pending : List Bytes

/-- What libevent can do next. -/
inductive LinkAction
  /-- Deliver the next chunk; `sys` is what the system calls of the callback return. -/
  | deliver (sys : SysCalls)
  /-- Report an event on the bufferevent, for instance the end of the stream. -/
  | event

namespace Link

/-- libevent can run a callback of the connection. -/
def Live (s : Link) : Prop := s.conn.freed = false ∧ s.conn.running = true

instance (s : Link) : Decidable s.Live := inferInstanceAs (Decidable (_ ∧ _))

/-- One action of libevent. -/
def step (pb : Protobuf) (o : ByteOrder) (s : Link) : LinkAction → Option Link
  | .deliver sys =>
    match s.pending with
    | [] => none
    | chunk :: pending =>
      if s.Live then
        some ⟨s.conn.receive pb o sys chunk, s.arrived ++ chunk, pending⟩
      else none
  | .event => if s.Live then some { s with conn := s.conn.cbEvent } else none

end Link

/-- A fresh connection that the bytes of `chunks` are sent to. -/
def link (pb : Protobuf) (o : ByteOrder) (chunks : List Bytes) :
    TransitionSystem Link LinkAction where
  init s := s = ⟨{}, [], chunks⟩
  step := Link.step pb o

/-- The frame of an `ESTABLISH` request. -/
def establishFrame : Bytes := (hostLength .little).frame [0x48, 1]

/-- The frame of a `DATA` request with the packet `[0x45]`. -/
def dataFrame : Bytes := (hostLength .little).frame [0x48, 3, 0x6A, 3, 0x62, 1, 0x45]

namespace Link

variable {pb : Protobuf} {o : ByteOrder} {chunks : List Bytes}

/-- What a step does: it delivers the next chunk, or it frees the bufferevent. -/
theorem step_cases {s s' : Link} {l : LinkAction} (h : s.step pb o l = some s') :
    s.Live ∧
      ((∃ sys chunk pending, l = .deliver sys ∧ s.pending = chunk :: pending ∧
          s' = ⟨s.conn.receive pb o sys chunk, s.arrived ++ chunk, pending⟩) ∨
        (l = .event ∧ s' = { s with conn := s.conn.cbEvent })) := by
  cases l with
  | deliver sys =>
    rw [step] at h
    split at h
    case h_1 => cases h
    case h_2 chunk pending hp =>
      split_ifs at h with hlive
      exact ⟨hlive, .inl ⟨sys, chunk, pending, rfl, hp, (Option.some.inj h).symm⟩⟩
  | event =>
    rw [step] at h
    split_ifs at h with hlive
    exact ⟨hlive, .inr ⟨rfl, (Option.some.inj h).symm⟩⟩

/-- A chunk that waits for a live connection can be delivered. -/
theorem reachable_deliver {c : SLConnection} {arrived chunk : Bytes} {pending : List Bytes}
    (sys : SysCalls) (h : (link pb o chunks).Reachable ⟨c, arrived, chunk :: pending⟩)
    (hlive : Live ⟨c, arrived, chunk :: pending⟩) :
    (link pb o chunks).Reachable ⟨c.receive pb o sys chunk, arrived ++ chunk, pending⟩ :=
  h.next (l := .deliver sys) (if_pos hlive)

/-- The reader is in step with the stream of the payloads `ps`: it has parsed a first part
`done` of them, unaltered, and the bytes in the buffer followed by those still under way are
the frames of the others. -/
def InStep (o : ByteOrder) (ps : List Bytes) (s : Link) : Prop :=
  ∃ done todo, ps = done ++ todo ∧ s.conn.parsed = done.map (fun p => (p, (p.length : ℤ))) ∧
    (s.conn.freed = false → s.conn.input ++ s.pending.flatten = (hostLength o).stream todo)

/-- A step keeps the reader in step. -/
theorem InStep.next {ps : List Bytes} (hps : ∀ p ∈ ps, p.length < 2 ^ 31) {s s' : Link}
    {l : LinkAction} (hs : InStep o ps s) (h : s.step pb o l = some s') : InStep o ps s' := by
  obtain ⟨done, todo, rfl, hparsed, hstream⟩ := hs
  obtain ⟨⟨hfreed, -⟩, ⟨sys, chunk, pending, rfl, hp, rfl⟩ | ⟨rfl, rfl⟩⟩ := step_cases h
  · have hbytes : s.conn.input ++ chunk ++ pending.flatten = (hostLength o).stream todo := by
      rw [← hstream hfreed, hp, List.flatten_cons, List.append_assoc]
    have hfits : ∀ p ∈ todo, (hostLength o).Fits p := fun p hmem =>
      hostLength_fits.mpr (lt_trans (hps p (List.mem_append_right _ hmem)) (by norm_num))
    rcases s.conn.receive_frame pb o sys chunk with
      ⟨hn, hin, hpar⟩ | ⟨payload, rest, hn, hin, hpar⟩
    · refine ⟨done, todo, rfl, hpar.trans hparsed, fun _ => ?_⟩
      rw [hin]
      exact hbytes
    · rcases LengthCode.next?_of_stream hfits hbytes with hnone | ⟨p, todo, b', rfl, hsome, hrest⟩
      · rw [hn] at hnone
        cases hnone
      · obtain ⟨rfl, rfl⟩ := Prod.mk.inj (Option.some.inj (hn.symm.trans hsome))
        have hshort : payload.length < 2 ^ 31 := hps payload (by simp)
        refine ⟨done ++ [payload], todo, by simp, ?_, fun _ => ?_⟩
        · rw [hpar, hparsed, sizeArg_of_lt hshort, List.map_append]
          rfl
        · rw [hin]
          exact hrest
  · exact ⟨done, todo, rfl, hparsed, fun hf => absurd hf (by simp [SLConnection.cbEvent])⟩

/-- **The server never loses its place in the stream.** Whatever the payloads, each shorter
than 2 GiB, and however their frames are cut into chunks, the reader is in step after every
callback. -/
theorem framing_synchronised (pb : Protobuf) (o : ByteOrder) (ps chunks : List Bytes)
    (hps : ∀ p ∈ ps, p.length < 2 ^ 31) (hcut : chunks.flatten = (hostLength o).stream ps)
    {s : Link} (h : (link pb o chunks).Reachable s) : InStep o ps s := by
  refine h.invariant ?_ fun s l s' hs hstep => hs.next hps hstep
  rintro s rfl
  exact ⟨[], ps, rfl, rfl, fun _ => hcut⟩

/-- Two payloads, the first one empty, cut across the frame boundary and inside the header. -/
theorem framing_synchronised_two_frames :
    InStep .little [[], [0x40, 1]] ⟨{ input := [2, 0], trace := [.parse [] 0] },
      [0, 0, 0, 0, 2, 0], [[0, 0, 0x40, 1]]⟩ :=
  framing_synchronised wireFormat .little [[], [0x40, 1]] [[0, 0], [0, 0, 2, 0], [0, 0, 0x40, 1]]
    (by decide) (by decide)
    (reachable_deliver .succeed (reachable_deliver .succeed (.init rfl) (by decide)) (by decide))

/-! ### Frames that wait -/

/-- The payloads of the complete frames of a buffer. -/
def framesIn (o : ByteOrder) (b : Bytes) : List Bytes := ((hostLength o).split b).1

/-- No complete frame waits: there is none in the input buffer, and every one that has arrived
has been parsed and dispatched, also if the bufferevent is freed. -/
structure NothingWaiting (o : ByteOrder) (s : Link) : Prop where
  noFrame : s.conn.freed = false → (hostLength o).next? s.conn.input = none
  dispatched : s.conn.parsed.map Prod.fst = framesIn o s.arrived

/-- The next step delivers no chunk that completes more than one frame. -/
def OneFrameAtATime (o : ByteOrder) (s : Link) : LinkAction → Prop
  | .deliver _ => ∀ chunk ∈ s.pending.head?,
      (framesIn o (s.arrived ++ chunk)).length ≤ (framesIn o s.arrived).length + 1
  | .event => True

/-- The frames that have arrived on a connection that is not freed are those that were parsed,
then those that wait in the input buffer; what is left behind them is the same. -/
def Accounted (o : ByteOrder) (s : Link) : Prop :=
  s.conn.freed = false →
    (hostLength o).split s.arrived =
      (s.conn.parsed.map Prod.fst ++ framesIn o s.conn.input,
        ((hostLength o).split s.conn.input).2)

/-- A buffer has no frames in it exactly when none can be taken off. -/
theorem framesIn_eq_nil_iff {b : Bytes} :
    framesIn o b = [] ↔ (hostLength o).next? b = none := by
  rw [framesIn]
  cases h : (hostLength o).next? b with
  | none => simp [LengthCode.split_of_next?_none h]
  | some r => simp [LengthCode.split_of_next?_some h]

/-- The account goes on with a chunk that arrives. -/
private theorem Accounted.append {s : Link} (hs : s.Accounted o) (hf : s.conn.freed = false)
    (chunk : Bytes) :
    (hostLength o).split (s.arrived ++ chunk) =
      (s.conn.parsed.map Prod.fst ++ framesIn o (s.conn.input ++ chunk),
        ((hostLength o).split (s.conn.input ++ chunk)).2) := by
  rw [LengthCode.split_append, hs hf, framesIn, framesIn, List.append_assoc,
    LengthCode.split_append s.conn.input chunk]

/-- **The backlog.** In every reachable state the account is right. -/
theorem accounted {s : Link} (h : (link pb o chunks).Reachable s) : s.Accounted o := by
  refine h.invariant ?_ fun s l s' hs hstep hf' => ?_
  · rintro s rfl -
    rfl
  · obtain ⟨⟨hfreed, -⟩, ⟨sys, chunk, pending, rfl, -, rfl⟩ | ⟨rfl, rfl⟩⟩ := step_cases hstep
    · rw [hs.append hfreed chunk]
      rcases s.conn.receive_frame pb o sys chunk with
        ⟨-, hin, hpar⟩ | ⟨payload, rest, hn, hin, hpar⟩
      · rw [hin, hpar]
      · rw [hin, hpar, framesIn, framesIn, LengthCode.split_of_next?_some hn]
        simp
    · exact absurd hf' (by simp [SLConnection.cbEvent])

/-- From a state in which nothing waits, a step leads to another one exactly when it does not
deliver more than one frame. -/
private theorem nothingWaiting_step {s s' : Link} {l : LinkAction} (hacc : s.Accounted o)
    (hs : s.NothingWaiting o) (h : s.step pb o l = some s') :
    s'.NothingWaiting o ↔ s.OneFrameAtATime o l := by
  obtain ⟨⟨hfreed, -⟩, ⟨sys, chunk, pending, rfl, hp, rfl⟩ | ⟨rfl, rfl⟩⟩ := step_cases h
  · have hlen : (framesIn o s.arrived).length = s.conn.parsed.length := by
      rw [← hs.dispatched, List.length_map]
    have hall : framesIn o (s.arrived ++ chunk) =
        s.conn.parsed.map Prod.fst ++ framesIn o (s.conn.input ++ chunk) := by
      rw [framesIn, hacc.append hfreed chunk]
    have hguard : s.OneFrameAtATime o (.deliver sys) ↔
        (framesIn o (s.conn.input ++ chunk)).length ≤ 1 := by
      simp [OneFrameAtATime, hp, hall, hlen]
    rw [hguard]
    -- the callback takes one frame off at most, so one is left if the chunk completes two
    rcases s.conn.receive_frame pb o sys chunk with
      ⟨hn, hin, hpar⟩ | ⟨payload, rest, hn, hin, hpar⟩
    · have hnil := framesIn_eq_nil_iff.mpr hn
      refine iff_of_true ⟨fun _ => ?_, ?_⟩ (by simp [hnil])
      · rw [hin]
        exact hn
      · rw [hpar, hall, hnil, List.append_nil]
    · have hcons : framesIn o (s.conn.input ++ chunk) = payload :: framesIn o rest := by
        rw [framesIn, LengthCode.split_of_next?_some hn]
        rfl
      rw [hcons, List.length_cons, Nat.succ_le_succ_iff, Nat.le_zero, List.length_eq_zero_iff]
      constructor
      · intro hw
        have hd := hw.dispatched
        rw [hpar, hall, hcons, List.map_append] at hd
        simpa using hd
      · intro hnil
        refine ⟨fun _ => ?_, ?_⟩
        · rw [hin]
          exact framesIn_eq_nil_iff.mp hnil
        · rw [hpar, hall, hcons, hnil, List.map_append]
          rfl
  · exact iff_of_true ⟨fun hf => absurd hf (by simp [SLConnection.cbEvent]), hs.dispatched⟩
      trivial

/-- **The server drains its input exactly as long as no chunk completes two frames.** However
the bytes of the peer are cut: nothing waits in any state from which the callbacks have come
back, if and only if no chunk whose callback comes back completes more than one frame. -/
theorem nothingWaiting_iff (pb : Protobuf) (o : ByteOrder) (chunks : List Bytes) :
    (∀ s, (link pb o chunks).Reachable s → s.conn.running = true → s.NothingWaiting o) ↔
      ∀ s l s', (link pb o chunks).Reachable s → s.step pb o l = some s' →
        s'.conn.running = true → s.OneFrameAtATime o l := by
  constructor
  · intro hall s l s' hreach hstep hrun
    have hs : s.NothingWaiting o := hall s hreach (step_cases hstep).1.2
    exact (nothingWaiting_step (accounted hreach) hs hstep).mp
      (hall s' (hreach.next hstep) hrun)
  · intro hguard s hreach
    induction hreach with
    | init hinit =>
      rintro -
      obtain rfl := hinit
      exact ⟨fun _ => by rfl, rfl⟩
    | @step s s' l hreach _ hstep ih =>
      intro hrun
      have hs : s.NothingWaiting o := ih (step_cases hstep).1.2
      exact (nothingWaiting_step (accounted hreach.reachable) hs hstep).mpr
        (hguard s l s' hreach.reachable hstep hrun)

private theorem burst_reachable :
    (link wireFormat .little [establishFrame ++ dataFrame]).Reachable
      ⟨({} : SLConnection).receive wireFormat .little .succeed (establishFrame ++ dataFrame),
        establishFrame ++ dataFrame, []⟩ :=
  reachable_deliver .succeed (.init rfl) (by decide)

/-- `ESTABLISH` and `DATA` in one chunk: when the callback returns the `DATA` frame waits in
the input buffer, and it has not been dispatched when the end of the stream is reported. -/
theorem not_nothingWaiting :
    ¬ (∀ s, (link wireFormat .little [establishFrame ++ dataFrame]).Reachable s →
        s.conn.running = true → s.conn.freed = false →
        (hostLength .little).next? s.conn.input = none) ∧
      ¬ (∀ s, (link wireFormat .little [establishFrame ++ dataFrame]).Reachable s →
        s.conn.running = true → s.conn.freed = true →
        s.conn.parsed.map Prod.fst = framesIn .little s.arrived) := by
  constructor
  · intro h
    exact absurd (h _ burst_reachable (by decide) (by decide)) (by decide)
  · intro h
    have hfreed := burst_reachable.next (l := .event) rfl
    exact absurd (h _ hfreed (by decide) (by decide)) (by decide)

end Link

end SplendidLinker
