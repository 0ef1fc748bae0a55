import SplendidLinker.Foundations.Recording
import SplendidLinker.Message.TunnelMessage

/-!
# The packet queue of a connection

`SLConnection::pushPacket` and `SLConnection::popPacket` are meant to make `mPacketDeque` a
first-in first-out queue (`IsFifo`). Each of them holds a mutex of its own while it works on the
deque, so a run is a sequence of pushes and pops, in the order in which they take effect.

A push appends a copy. A pop returns a reference to the front and removes nothing
(`pushedMessages_eq`, `popped_eq_front`); on an empty deque it returns a reference to a variable
of its own. So the first pop breaks the law, whatever it finds, and the law is kept exactly by
the runs without one (`isFifo_iff`).
-/

namespace SplendidLinker

open Foundations

/-- `SLConnection::pushPacket`: a copy of the message is appended. -/
def SLConnection.pushPacket (mPacketDeque : List TunnelMessage) (msg : TunnelMessage) :
    List TunnelMessage :=
  mPacketDeque ++ [msg]

/-- `SLConnection::popPacket`: the message that the returned reference is to, and the deque
afterwards. `none` is a reference to the local variable `s` of the call, whose lifetime is
over. -/
def SLConnection.popPacket (mPacketDeque : List TunnelMessage) :
    Option TunnelMessage × List TunnelMessage :=
  match mPacketDeque with
  | [] => (none, mPacketDeque)
  | m :: _ => (some m, mPacketDeque)

/-- The calls on the queue of a connection. -/
inductive QueueAction
  | push (msg : TunnelMessage)
  | pop

/-- What the calls have done. -/
inductive QueueEvent
  | pushed (msg : TunnelMessage)
  /-- A pop that found the queue not empty, and what it returned. -/
  | popped (m : Option TunnelMessage)
  /-- A pop that found the queue empty, and what it returned. -/
  | poppedEmpty (m : Option TunnelMessage)
  deriving DecidableEq

/-- The events of a call. -/
def queueEvents (mPacketDeque : List TunnelMessage) : QueueAction → List QueueEvent
  | .push msg => [.pushed msg]
  | .pop =>
    let m := (SLConnection.popPacket mPacketDeque).1
    if mPacketDeque.length = 0 then [.poppedEmpty m] else [.popped m]

/-- The queue of a new connection, and any calls on it, with what they have done. -/
def packetQueue : TransitionSystem (List TunnelMessage × List QueueEvent) QueueAction :=
  TransitionSystem.recording
    { init := fun mPacketDeque => mPacketDeque = []
      step := fun mPacketDeque a =>
        match a with
        | .push msg => some (SLConnection.pushPacket mPacketDeque msg)
        | .pop => some (SLConnection.popPacket mPacketDeque).2 }
    queueEvents

/-- The messages that were pushed, in order. -/
def pushedMessages (log : List QueueEvent) : List TunnelMessage :=
  log.filterMap fun
    | .pushed msg => some msg
    | _ => none

/-- The messages that pops have returned from a queue that was not empty, in order. -/
def poppedMessages (log : List QueueEvent) : List TunnelMessage :=
  log.filterMap fun
    | .popped m => m
    | _ => none

/-- The law of the queue. -/
structure IsFifo (p : List TunnelMessage × List QueueEvent) : Prop where
  /-- The messages popped so far are the first ones pushed, in their order and each once, and the
  queue holds the others. -/
  order : pushedMessages p.2 = poppedMessages p.2 ++ p.1
  /-- A pop of a queue that is not empty returns a message. -/
  returned : .popped none ∉ p.2
  /-- A pop of an empty queue returns an empty message. -/
  empty : ∀ m, .poppedEmpty m ∈ p.2 → m = some {}

/-- The next call is not a pop. -/
def Pushes (_ : List TunnelMessage × List QueueEvent) : QueueAction → Prop
  | .push _ => True
  | .pop => False

section Runs

variable {p p' : List TunnelMessage × List QueueEvent} {a : QueueAction}

/-- A call is one of three. -/
theorem packetQueue_cases (h : packetQueue.step p a = some p') :
    (∃ msg, a = .push msg ∧ p' = (p.1 ++ [msg], p.2 ++ [.pushed msg])) ∨
    (a = .pop ∧ p.1 = [] ∧ p' = ([], p.2 ++ [.poppedEmpty none])) ∨
    ∃ m rest, a = .pop ∧ p.1 = m :: rest ∧ p' = (m :: rest, p.2 ++ [.popped (some m)]) := by
  obtain ⟨q, log⟩ := p
  cases a with
  | push msg => exact .inl ⟨msg, rfl, (Option.some.inj h).symm⟩
  | pop =>
    cases q with
    | nil => exact .inr (.inl ⟨rfl, rfl, (Option.some.inj h).symm⟩)
    | cons m rest => exact .inr (.inr ⟨m, rest, rfl, rfl, (Option.some.inj h).symm⟩)

/-- **Nothing is removed**: the queue holds everything that was pushed. -/
theorem pushedMessages_eq (h : packetQueue.Reachable p) : pushedMessages p.2 = p.1 := by
  refine h.invariant (I := fun p => pushedMessages p.2 = p.1) ?_ fun p a p' hp hstep => ?_
  · rintro ⟨q, log⟩ ⟨rfl, rfl⟩
    rfl
  · rcases packetQueue_cases hstep with ⟨msg, rfl, rfl⟩ | ⟨rfl, hq, rfl⟩ | ⟨m, rest, rfl, hq, rfl⟩
    · simp [← hp, pushedMessages]
    · simp [← hq, ← hp, pushedMessages]
    · simp [← hq, ← hp, pushedMessages]

/-- **Every pop returns the front**: the message that was pushed first. -/
theorem popped_eq_front (h : packetQueue.Reachable p) {m : Option TunnelMessage}
    (hm : .popped m ∈ p.2) : m = (pushedMessages p.2).head? ∧ p.1 ≠ [] := by
  revert m
  rw [pushedMessages_eq h]
  refine h.invariant (I := fun p => ∀ {m}, .popped m ∈ p.2 → m = p.1.head? ∧ p.1 ≠ []) ?_
    fun p a p' hp hstep m hm => ?_
  · rintro ⟨q, log⟩ ⟨rfl, rfl⟩ m hm
    simp at hm
  · rcases packetQueue_cases hstep with ⟨msg, rfl, rfl⟩ | ⟨rfl, hq, rfl⟩ | ⟨m', rest, rfl, hq, rfl⟩
    · obtain ⟨hfront, hne⟩ := hp (by simpa using hm)
      exact ⟨by rw [hfront, List.head?_append_of_ne_nil _ hne], by simp⟩
    · exact absurd hq (hp (by simpa using hm)).2
    · refine ⟨?_, by simp⟩
      rcases List.mem_append.mp hm with hm | hm
      · exact hq ▸ (hp hm).1
      · simpa using hm

/-- **A pop of an empty queue returns no message**, but the reference to a dead variable. -/
theorem poppedEmpty_eq_none (h : packetQueue.Reachable p) {m : Option TunnelMessage}
    (hm : .poppedEmpty m ∈ p.2) : m = none := by
  revert m
  refine h.invariant (I := fun p => ∀ {m}, .poppedEmpty m ∈ p.2 → m = none) ?_
    fun p a p' hp hstep m hm => ?_
  · rintro ⟨q, log⟩ ⟨rfl, rfl⟩ m hm
    simp at hm
  · rcases packetQueue_cases hstep with ⟨msg, rfl, rfl⟩ | ⟨rfl, hq, rfl⟩ | ⟨m', rest, rfl, hq, rfl⟩
    · exact hp (by simpa using hm)
    · rcases List.mem_append.mp hm with hm | hm
      · exact hp hm
      · simpa using hm
    · exact hp (by simpa using hm)

/-- Nothing but pushes is in the log exactly in the runs without pops. -/
theorem forall_pushed_iff (h : packetQueue.Reachable p) :
    (∀ e ∈ p.2, ∃ msg, e = .pushed msg) ↔ packetQueue.ReachableUnder Pushes p := by
  refine TransitionSystem.forall_mem_log_iff (G := fun q a => Pushes (q, []) a)
    (P := fun e => ∃ msg, e = .pushed msg) (fun q a q' _ _ => ?_) h
  cases a with
  | push msg => simp [queueEvents, Pushes]
  | pop =>
    rw [queueEvents]
    split_ifs <;> simp [Pushes]

/-- **A pop breaks the law**, whatever it finds. -/
theorem IsFifo.pushed (hfifo : IsFifo p) (h : packetQueue.Reachable p) {e : QueueEvent}
    (he : e ∈ p.2) : ∃ msg, e = .pushed msg := by
  cases e with
  | pushed msg => exact ⟨msg, rfl⟩
  | popped m =>
    -- the queue still holds the message that was popped
    have horder := hfifo.order
    rw [pushedMessages_eq h, List.self_eq_append_left] at horder
    cases m with
    | none => exact absurd he hfifo.returned
    | some m =>
      have hmem : m ∈ poppedMessages p.2 := List.mem_filterMap.mpr ⟨_, he, rfl⟩
      rw [horder] at hmem
      cases hmem
  | poppedEmpty m =>
    have hmsg := hfifo.empty m he
    rw [poppedEmpty_eq_none h he] at hmsg
    cases hmsg

/-- **The queue is first-in first-out exactly in the runs in which nothing is popped.** -/
theorem isFifo_iff (h : packetQueue.Reachable p) :
    IsFifo p ↔ packetQueue.ReachableUnder Pushes p := by
  rw [← forall_pushed_iff h]
  constructor
  · exact fun hfifo e he => hfifo.pushed h he
  · intro hall
    have hnone : poppedMessages p.2 = [] := by
      refine List.filterMap_eq_nil_iff.mpr fun e he => ?_
      obtain ⟨msg, rfl⟩ := hall e he
      rfl
    refine ⟨?_, fun hm => ?_, fun m hm => ?_⟩
    · rw [hnone, pushedMessages_eq h, List.nil_append]
    · obtain ⟨msg, hmsg⟩ := hall _ hm
      cases hmsg
    · obtain ⟨msg, hmsg⟩ := hall _ hm
      cases hmsg

end Runs

/-- Two messages are pushed. -/
theorem isFifo_iff_two_pushes :
    IsFifo ([{ ip := [1] }, { ip := [2] }], [.pushed { ip := [1] }, .pushed { ip := [2] }]) := by
  have h : packetQueue.ReachableUnder Pushes ([], []) := .init ⟨rfl, rfl⟩
  have hpush (msg : TunnelMessage) {p : List TunnelMessage × List QueueEvent}
      (hp : packetQueue.ReachableUnder Pushes p) :
      packetQueue.ReachableUnder Pushes (p.1 ++ [msg], p.2 ++ [.pushed msg]) :=
    hp.step (l := .push msg) trivial rfl
  have h₂ := hpush { ip := [2] } (hpush { ip := [1] } h)
  exact (isFifo_iff h₂.reachable).mpr h₂

/-- Two messages are pushed, and two pops return the first of them twice. A pop before any push
returns no message. -/
theorem not_isFifo :
    (¬ ∀ p, packetQueue.Reachable p → IsFifo p) ∧
      (∃ p, packetQueue.Reachable p ∧ pushedMessages p.2 = [{ ip := [1] }, { ip := [2] }] ∧
        poppedMessages p.2 = [{ ip := [1] }, { ip := [1] }]) ∧
      ∃ p, packetQueue.Reachable p ∧ p.2 = [.poppedEmpty none] := by
  have hinit : packetQueue.init ([], []) := ⟨rfl, rfl⟩
  have htwice : (packetQueue.replay ([], [])
      [.push { ip := [1] }, .push { ip := [2] }, .pop, .pop]).map
        (fun p => (pushedMessages p.2, poppedMessages p.2)) =
      some ([{ ip := [1] }, { ip := [2] }], [{ ip := [1] }, { ip := [1] }]) := rfl
  have hempty : packetQueue.replay ([], []) [.pop] = some ([], [.poppedEmpty none]) := rfl
  obtain ⟨p, hp, hf⟩ := TransitionSystem.exists_reachable_of_replay hinit htwice
  obtain ⟨hpushed, hpopped⟩ := Prod.mk.inj hf
  refine ⟨fun h => ?_, ⟨p, hp, hpushed, hpopped⟩, ?_⟩
  · have horder := (h p hp).order
    rw [hpushed, hpopped, ← pushedMessages_eq hp, hpushed] at horder
    exact absurd horder (by decide)
  · exact ⟨_, TransitionSystem.reachable_of_replay hinit hempty, rfl⟩

end SplendidLinker
