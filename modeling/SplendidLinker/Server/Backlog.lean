import SplendidLinker.Foundations.Backlog
import SplendidLinker.Server.Framing

/-!
# How far the server falls behind

The read callback takes one frame off the input buffer each time, and libevent runs it once for
each chunk. The connection is therefore a server that serves one item a round, with the chunks
as the rounds and the frames they complete as the items, and what waits in its input buffer is
the worst burst of the chunks so far (`waiting_isBacklog`). A chunk that completes two frames
leaves one behind, and only a chunk that completes none makes up for it.
-/

namespace SplendidLinker

open Foundations

namespace Link

variable {pb : Protobuf} {o : ByteOrder} {chunks : List Bytes}

/-- How many frames a list of chunks completes. -/
def completed (o : ByteOrder) (chunks : List Bytes) : ℕ := (framesIn o chunks.flatten).length

/-- The frames of a buffer and those that a further chunk completes. -/
private theorem framesIn_append (b chunk : Bytes) :
    framesIn o (b ++ chunk) =
      framesIn o b ++ framesIn o (((hostLength o).split b).2 ++ chunk) := by
  rw [framesIn, LengthCode.split_append]
  rfl

/-- The chunks `done` have been delivered, and the frames that wait are their worst burst. -/
structure Lags (o : ByteOrder) (chunks done : List Bytes) (s : Link) : Prop where
  split : chunks = done ++ s.pending
  arrived : s.arrived = done.flatten
  waiting : s.conn.freed = false →
    IsBacklog (completed o) done (framesIn o s.conn.input).length

/-- What a callback leaves in the input buffer: the frames that waited and those that the chunk
completed, less the one it takes off. -/
private theorem waiting_receive (pb : Protobuf) (o : ByteOrder) (sys : SysCalls)
    (c : SLConnection) (chunk : Bytes) :
    (framesIn o (c.receive pb o sys chunk).input).length =
      (framesIn o (c.input ++ chunk)).length - 1 := by
  rcases c.receive_frame pb o sys chunk with ⟨hn, hin, -⟩ | ⟨payload, rest, hn, hin, -⟩
  · rw [hin, framesIn_eq_nil_iff.mpr hn]
    rfl
  · have hcons : framesIn o (c.input ++ chunk) = payload :: framesIn o rest := by
      rw [framesIn, LengthCode.split_of_next?_some hn]
      rfl
    rw [hin, hcons]
    rfl

/-- A step of the link is a round of the server, or ends its service. -/
private theorem Lags.next {s s' : Link} {l : LinkAction} {done : List Bytes}
    (hs : s.Lags o chunks done) (hacc : s.Accounted o) (h : s.step pb o l = some s') :
    ∃ done', s'.Lags o chunks done' := by
  obtain ⟨⟨hfreed, -⟩, ⟨sys, chunk, pending, rfl, hp, rfl⟩ | ⟨rfl, rfl⟩⟩ := step_cases h
  · refine ⟨done ++ [chunk], ?_, ?_, fun _ => ?_⟩
    · rw [hs.split, hp, List.append_assoc, List.singleton_append]
    · rw [hs.arrived, List.flatten_append, List.flatten_singleton]
    · -- what is left behind the complete frames is the same in the stream and in the buffer
      have hrest : ((hostLength o).split done.flatten).2 =
          ((hostLength o).split s.conn.input).2 := by
        rw [← hs.arrived, hacc hfreed]
      have harrive : completed o (done ++ [chunk]) = completed o done +
          (framesIn o (((hostLength o).split s.conn.input).2 ++ chunk)).length := by
        rw [completed, List.flatten_append, List.flatten_singleton, framesIn_append,
          List.length_append, hrest, completed]
      have hround := (hs.waiting hfreed).concat harrive
      rwa [← List.length_append, ← framesIn_append, ← waiting_receive pb o sys] at hround
  · exact ⟨done, hs.split, hs.arrived, fun hf => absurd hf (by simp [SLConnection.cbEvent])⟩

/-- Every reachable state is some rounds of the server. -/
private theorem lags_of_reachable {s : Link} (h : (link pb o chunks).Reachable s) :
    ∃ done, s.Lags o chunks done := by
  induction h with
  | init hinit =>
    obtain rfl := hinit
    exact ⟨[], rfl, rfl, fun _ => isBacklog_nil⟩
  | step hreach _ hstep ih =>
    obtain ⟨done, hdone⟩ := ih
    exact hdone.next (accounted hreach.reachable) hstep

/-- **What waits is the worst burst.** However the bytes of the peer are cut: on a connection
that is not freed, the frames that have arrived are those that were dispatched and those that
wait in the input buffer, and the number of the latter is the largest number by which the frames
that some last chunks have completed exceed those chunks. -/
theorem waiting_isBacklog {s : Link} (h : (link pb o chunks).Reachable s)
    (hfreed : s.conn.freed = false) :
    ∃ done, chunks = done ++ s.pending ∧
      s.conn.parsed.length + (framesIn o s.conn.input).length = completed o done ∧
      IsBacklog (completed o) done (framesIn o s.conn.input).length := by
  obtain ⟨done, hdone⟩ := lags_of_reachable h
  refine ⟨done, hdone.split, ?_, hdone.waiting hfreed⟩
  have hframes : framesIn o s.arrived = s.conn.parsed.map Prod.fst ++ framesIn o s.conn.input :=
    congrArg Prod.fst (accounted h hfreed)
  rw [completed, ← hdone.arrived, hframes, List.length_append, List.length_map]

private theorem firstBurst_reachable :
    (link wireFormat .little [establishFrame ++ dataFrame, dataFrame]).Reachable
      ⟨({} : SLConnection).receive wireFormat .little .succeed (establishFrame ++ dataFrame),
        establishFrame ++ dataFrame, [dataFrame]⟩ :=
  reachable_deliver .succeed (.init rfl) (by decide)

/-- `ESTABLISH` and `DATA` in one chunk have arrived, and another `DATA` is under way: the first
`DATA` waits. -/
theorem waiting_isBacklog_burst :
    let burst := establishFrame ++ dataFrame
    let conn := ({} : SLConnection).receive wireFormat .little .succeed burst
    (framesIn .little conn.input).length = 1 ∧
    ∃ done, [burst, dataFrame] = done ++ [dataFrame] ∧
      conn.parsed.length + (framesIn .little conn.input).length = completed .little done ∧
      IsBacklog (completed .little) done (framesIn .little conn.input).length :=
  ⟨by decide, waiting_isBacklog firstBurst_reachable (by decide)⟩

end Link

end SplendidLinker
