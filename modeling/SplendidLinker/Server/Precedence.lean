import SplendidLinker.Foundations.Recording
import SplendidLinker.Server.ConnectionThreads

/-!
# Establishment precedes traffic

The `ESTABLISH` case of the read callback starts the TUN thread of the new interface before it
writes the response. The first frame that is appended to the output after a request should be
the response (`EstablishFirst`), so that no client sees a `DATA` response before the `ESTABLISH`
response.

The threads are recorded with the requests and the frames they append (`sessionEvents`); a frame
is appended when its header is. Nothing in the program orders the two appends, so the rule is
kept exactly by the schedules in which no TUN thread makes its append while a response is
outstanding (`establishFirst_iff`), and `not_establishFirst` is a packet that arrives in time.
-/

namespace SplendidLinker

open Foundations

/-- What a client can tell the order of. -/
inductive SessionEvent
  /-- A successful `ESTABLISH` request. -/
  | request
  /-- The thread `t` appends a frame: the `ESTABLISH` response, or a `DATA` response of a TUN
  thread. -/
  | frame (t : Sender)
  deriving DecidableEq

/-- No frame has been appended since the last request. -/
def Unanswered (log : List SessionEvent) : Prop :=
  ∃ pre post, log = pre ++ .request :: post ∧ ∀ t, .frame t ∉ post

/-- The first frame after a request is not one of a TUN thread. -/
def EstablishFirst (log : List SessionEvent) : SessionEvent → Prop
  | .frame (.tunThread _) => ¬ Unanswered log
  | _ => True

/-- The event thread has created the interface and has not begun to write the response. -/
def EventPc.outstanding : EventPc → Bool
  | .establish _ .created | .establish _ .installed | .establish _ .spawned => true
  | _ => false

namespace ConnectionThreads

/-- The requests and frames of a step. -/
def sessionEvents (s : ConnectionThreads) : ThreadAction → List SessionEvent
  | .establish => [.request]
  | .eventThread =>
    match s.event with
    | .establish _ .spawned => [.frame .eventThread]
    | _ => []
  | .tunThread k =>
    match s.tun k with
    | .header _ => [.frame (.tunThread k)]
    | _ => []
  | _ => []

/-- The next step is not the append of a TUN thread while a response is outstanding. -/
def AwaitsResponse (s : ConnectionThreads) : ThreadAction → Prop
  | .tunThread k => s.event.outstanding = true → ∀ b, s.tun k ≠ .header b
  | _ => True

end ConnectionThreads

/-- The threads of a connection with their requests and frames. -/
def session : TransitionSystem (ConnectionThreads × List SessionEvent) ThreadAction :=
  connectionThreads.recording ConnectionThreads.sessionEvents

/-- Recording the threads changes none of their runs. -/
theorem exists_reachable_session_iff {s : ConnectionThreads} :
    (∃ log, session.Reachable (s, log)) ↔ connectionThreads.Reachable s := by
  constructor
  · rintro ⟨log, h⟩
    exact TransitionSystem.ReachableUnder.forget (G := fun _ _ => True) h
  · exact fun h => TransitionSystem.ReachableUnder.record (G := fun _ _ => True) h _

/-! ### The rule on the log -/

section Log

variable {log : List SessionEvent}

theorem not_unanswered_nil : ¬ Unanswered [] := by
  rintro ⟨pre, post, h, -⟩
  simp at h

theorem unanswered_request (log : List SessionEvent) : Unanswered (log ++ [.request]) :=
  ⟨log, [], rfl, by simp⟩

theorem not_unanswered_frame (t : Sender) : ¬ Unanswered (log ++ [.frame t]) := by
  rintro ⟨pre, post, h, hpost⟩
  -- the last event of the right-hand side is the request, or one of `post`
  rcases List.eq_nil_or_concat post with rfl | ⟨post, e, rfl⟩
  · obtain ⟨-, hlast⟩ := List.append_inj' h rfl
    cases hlast
  · have h' : log ++ [.frame t] = (pre ++ .request :: post) ++ [e] := by simpa using h
    obtain ⟨-, hlast⟩ := List.append_inj' h' rfl
    exact hpost t (by simp [List.singleton_inj.mp hlast])

end Log

namespace ConnectionThreads

variable {s s' : ConnectionThreads} {a : ThreadAction}

/-! ### What a step adds -/

/-- The threads that have appended a header, in order. -/
def headers (s : ConnectionThreads) : List Sender :=
  s.output.filterMap fun
    | (t, .header) => some t
    | (_, .packet) => none

/-- The thread of a frame. -/
def frameOf : SessionEvent → Option Sender
  | .request => none
  | .frame t => some t

/-- What a step adds to the log, and what it does to the outstanding response. -/
inductive SessionStep (s s' : ConnectionThreads) : List SessionEvent → Prop
  | silent (hev : s'.event.outstanding = s.event.outstanding)
      (hheaders : s'.headers = s.headers) : SessionStep s s' []
  | request (hev : s'.event.outstanding = true) (hheaders : s'.headers = s.headers) :
      SessionStep s s' [.request]
  | response (hev : s'.event.outstanding = false)
      (hheaders : s'.headers = s.headers ++ [.eventThread]) : SessionStep s s' [.frame .eventThread]
  | traffic (k b : ℕ) (hk : s.tun k = .header b) (hev : s'.event = s.event)
      (hheaders : s'.headers = s.headers ++ [.tunThread k]) :
      SessionStep s s' [.frame (.tunThread k)]

/-- The event thread goes on without an append. -/
private theorem EventMoved.silent {event : EventPc} (h : EventMoved s event [] s')
    (hout : event.outstanding = s.event.outstanding) : SessionStep s s' [] :=
  .silent (by rw [h.event, hout]) (by simp [headers, h.output])

private theorem EventStepped.session (h : EventStepped s s') :
    SessionStep s s' (s.sessionEvents .eventThread) := by
  cases h with
  | installed k hev htun h =>
    simp only [sessionEvents, hev]
    exact h.silent (by rw [hev]; rfl)
  | spawned k hev htun h =>
    simp only [sessionEvents, hev]
    exact h.silent (by rw [hev]; rfl)
  | header k hev htun h =>
    simp only [sessionEvents, hev]
    exact .response (by rw [h.event]; rfl) (by simp [headers, h.output])
  | packet k hev htun h =>
    simp only [sessionEvents, hev]
    exact .silent (by rw [h.event, hev]; rfl) (by simp [headers, h.output])
  | returned k hev htun h =>
    simp only [sessionEvents, hev]
    exact h.silent (by rw [hev]; rfl)
  | ending event hev hidle hended hno htun h =>
    have hnone : s.sessionEvents .eventThread = [] := by
      simp only [sessionEvents]
      split
      case h_1 k hk => exact absurd hk (hev k .spawned)
      case h_2 => rfl
    have hnot {event : EventPc} (he : ∀ k stage, event ≠ .establish k stage) :
        event.outstanding = false := by
      cases event with
      | establish k stage => exact absurd rfl (he k stage)
      | _ => rfl
    rw [hnone]
    exact h.silent (by rw [hnot hno, hnot hev])

private theorem TunStepped.session {k : ℕ} (h : TunStepped s k s') :
    SessionStep s s' (s.sessionEvents (.tunThread k)) := by
  cases h with
  | goto pc hk hpc h =>
    have hnone : s.sessionEvents (.tunThread k) = [] := by
      simp only [sessionEvents]
      split
      case h_1 b hb => exact absurd hb (hk b).1
      case h_2 => rfl
    rw [hnone]
    exact .silent (by rw [h.event]) (by simp [headers, h.output])
  | header b hk h =>
    simp only [sessionEvents, hk]
    exact .traffic k b hk h.event (by simp [headers, h.output])
  | packet b hk h =>
    simp only [sessionEvents, hk]
    exact .silent (by rw [h.event]) (by simp [headers, h.output])

/-- **One step of the threads in the log.** -/
theorem session_step (hstep : s.step a = some s') : SessionStep s s' (s.sessionEvents a) := by
  cases a with
  | establish =>
    simp only [step, Option.ite_none_right_eq_some, Option.some.injEq] at hstep
    rw [← hstep.2]
    exact .request rfl rfl
  | callback =>
    simp only [step, Option.ite_none_right_eq_some, Option.some.injEq] at hstep
    rw [← hstep.2]
    exact .silent rfl rfl
  | bufferEvent =>
    simp only [step, Option.ite_none_right_eq_some, Option.some.injEq] at hstep
    rw [← hstep.2]
    exact .silent rfl rfl
  | eventThread => exact (eventStep_cases hstep).session
  | tunThread k => exact (tunStep_cases hstep).session
  | packet k =>
    simp only [step, packetStep] at hstep
    split at hstep
    case h_1 n b _ =>
      obtain ⟨i, -, hs⟩ := Option.map_eq_some_iff.mp hstep
      rw [← hs]
      exact .silent (by simp) (by simp [headers])
    case h_2 => cases hstep

end ConnectionThreads

/-! ### The first frame after a request -/

variable {p p' : ConnectionThreads × List SessionEvent} {a : ThreadAction}

/-- The frames of the log are those of the output. -/
theorem headers_session (h : session.Reachable p) :
    p.1.headers = p.2.filterMap ConnectionThreads.frameOf := by
  refine h.invariant (I := fun p => p.1.headers = p.2.filterMap ConnectionThreads.frameOf) ?_ ?_
  · rintro ⟨s, log⟩ ⟨rfl, rfl⟩
    rfl
  · intro p a p' hp hstep
    obtain ⟨hstep, hlog⟩ := TransitionSystem.recording_step.mp hstep
    have hadd := ConnectionThreads.session_step hstep
    rw [hlog, List.filterMap_append, ← hp]
    generalize p.1.sessionEvents a = es at hadd
    cases hadd <;> simp [*, ConnectionThreads.frameOf]

/-- While the rule is obeyed, the log tells whether a response is outstanding. -/
theorem unanswered_iff (h : session.Reachable p) :
    Obeys EstablishFirst p.2 → (Unanswered p.2 ↔ p.1.event.outstanding = true) := by
  refine h.invariant (I := fun p => Obeys EstablishFirst p.2 →
    (Unanswered p.2 ↔ p.1.event.outstanding = true)) ?_ ?_
  · rintro ⟨s, log⟩ ⟨rfl, rfl⟩ -
    exact iff_of_false not_unanswered_nil (by decide)
  · intro p a p' hp hstep hobeys
    obtain ⟨hstep, hlog⟩ := TransitionSystem.recording_step.mp hstep
    have hadd := ConnectionThreads.session_step hstep
    rw [hlog] at hobeys ⊢
    generalize p.1.sessionEvents a = es at hadd hobeys ⊢
    cases hadd with
    | silent hev =>
      rw [List.append_nil] at hobeys ⊢
      rw [hev]
      exact hp hobeys
    | request hev => exact iff_of_true (unanswered_request _) hev
    | response hev => exact iff_of_false (not_unanswered_frame _) (by simp [hev])
    | traffic k b hk hev =>
      obtain ⟨hobeys, hanswered⟩ := obeys_concat.mp hobeys
      rw [hev]
      exact iff_of_false (not_unanswered_frame _) fun hout => hanswered ((hp hobeys).mpr hout)

/-- The guard in terms of the log. -/
theorem awaitsResponse_iff {s : ConnectionThreads} :
    s.AwaitsResponse a ↔
      ∀ k, .frame (.tunThread k) ∈ s.sessionEvents a → s.event.outstanding = false := by
  cases a with
  | tunThread k =>
    simp only [ConnectionThreads.AwaitsResponse, ConnectionThreads.sessionEvents]
    cases s.tun k <;> simp
  | eventThread =>
    simp only [ConnectionThreads.AwaitsResponse, ConnectionThreads.sessionEvents]
    split <;> simp
  | _ => simp [ConnectionThreads.AwaitsResponse, ConnectionThreads.sessionEvents]

/-- A step keeps the rule unless a TUN thread appends while a response is outstanding. -/
theorem obeys_establishFirst_step (h : session.Reachable p) (hobeys : Obeys EstablishFirst p.2)
    (hstep : session.step p a = some p') :
    Obeys EstablishFirst p'.2 ↔ p.1.AwaitsResponse a := by
  have hunanswered := unanswered_iff h hobeys
  obtain ⟨hstep, hlog⟩ := TransitionSystem.recording_step.mp hstep
  have hadd := ConnectionThreads.session_step hstep
  rw [hlog, awaitsResponse_iff]
  generalize p.1.sessionEvents a = es at hadd ⊢
  cases hadd with
  | silent => simpa using hobeys
  | request => simp [obeys_concat, hobeys, EstablishFirst]
  | response => simp [obeys_concat, hobeys, EstablishFirst]
  | traffic k b hk hev =>
    rw [obeys_concat, EstablishFirst, hunanswered, Bool.not_eq_true]
    simp [hobeys]

/-- **The first frame after each request is its response exactly if no TUN thread appends while a
response is outstanding.** -/
theorem establishFirst_iff (h : session.Reachable p) :
    Obeys EstablishFirst p.2 ↔ session.ReachableUnder (fun p a => p.1.AwaitsResponse a) p :=
  TransitionSystem.obeys_iff
    (fun _ _ _ hp hobeys hstep => obeys_establishFirst_step hp hobeys hstep) h

/-- A request that is answered before its TUN thread writes. -/
theorem establishFirst_iff_answered :
    ∃ p, p.2 = [.request, .frame .eventThread, .frame (.tunThread 0)] ∧
      session.ReachableUnder (fun p a => p.1.AwaitsResponse a) p := by
  have hrun : (session.replay ({}, []) (.establish :: .replicate 4 .eventThread ++
      .replicate 4 (.tunThread 0) ++ [.packet 0, .tunThread 0, .tunThread 0])).map (·.2) =
      some [.request, .frame .eventThread, .frame (.tunThread 0)] := by decide
  have hinit : session.init ({}, []) := ⟨rfl, rfl⟩
  obtain ⟨p, hreach, hlog⟩ := TransitionSystem.exists_reachable_of_replay hinit hrun
  refine ⟨p, hlog, (establishFirst_iff hreach).mp ?_⟩
  have hfirst : Obeys EstablishFirst [.request, .frame .eventThread] :=
    obeys_concat.mpr ⟨obeys_concat.mpr ⟨obeys_nil, trivial⟩, trivial⟩
  have hlast : EstablishFirst ([.request] ++ [.frame .eventThread]) (.frame (.tunThread 0)) :=
    not_unanswered_frame .eventThread
  rw [hlog]
  exact obeys_concat.mpr ⟨hfirst, hlast⟩

/-- A packet that arrives before the response is written. -/
theorem not_establishFirst : ¬ ∀ p, session.Reachable p → Obeys EstablishFirst p.2 := by
  intro h
  have hrun : (session.replay ({}, []) (.establish :: .replicate 2 .eventThread ++
      .replicate 4 (.tunThread 0) ++ [.packet 0, .tunThread 0, .tunThread 0])).map (·.2) =
      some [.request, .frame (.tunThread 0)] := by decide
  have hinit : session.init ({}, []) := ⟨rfl, rfl⟩
  obtain ⟨p, hreach, hlog⟩ := TransitionSystem.exists_reachable_of_replay hinit hrun
  have hobeys := h p hreach
  rw [hlog] at hobeys
  exact hobeys [.request] (.frame (.tunThread 0)) List.prefix_rfl (unanswered_request [])

end SplendidLinker
