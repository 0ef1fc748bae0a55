import SplendidLinker.Server.ConnectionThreads

/-!
# Admission of connections

`SLServer.cpp` with any number of connections: the accept callback `cb_connlisterner` on the
listener thread, and the thread of each admitted connection, which creates the `SLConnection`,
runs it (`ConnectionThreads`), deletes it and counts itself out. The callback is taken in its
steps, so that the threads can come between its check and its increment.

Two laws are at stake. The counter should be the number of connections whose thread has not
finished (`Counted`). The callback checks before it increments, but there is only one listener,
so the bound is kept; yet the constructor does not initialise the counter, and the law holds
exactly if the indeterminate value happens to be zero (`counted_iff`).

And each accepted socket and each event base should have an owner that will close it
(`NoOrphans`). Both early returns of the callback forget the socket, and the second one the event
base too, and nothing ever closes them (`noOrphans_iff`).
-/

namespace SplendidLinker

open Foundations

/-- How far the accept callback has come. -/
inductive AcceptStage
  | entered
  /-- `count > 1000` was false. -/
  | checked
  /-- `event_base_new` has returned. -/
  | based
  /-- `bufferevent_socket_new` has returned a bufferevent. -/
  | buffered
  /-- `++count` has been executed. -/
  | counted
  deriving DecidableEq, Repr

/-- How far the thread of a connection has come. -/
inductive ThreadStage
  /-- It is about to create the `SLConnection`. -/
  | spawned
  /-- From the creation of the `SLConnection` to its release. -/
  | serving
  /-- The `SLConnection` has been deleted. -/
  | deleted
  /-- `--count` has been executed. -/
  | finished
  deriving DecidableEq, Repr

/-- What became of a socket whose accept callback has returned. -/
inductive Accepted
  /-- Refused for load, when there were `live` connections. -/
  | refused (live : ℕ)
  /-- `bufferevent_socket_new` has returned null. -/
  | notBuffered
  /-- A thread was started for it. -/
  | admitted (stage : ThreadStage) (conn : ConnectionThreads)

/-- The event thread is before `event_base_free`, the first call of `~SLConnection`. -/
def EventPc.hasBase : EventPc → Bool
  | .idle | .establish _ _ | .resumed => true
  | _ => false

/-- `resume` has returned. -/
def EventPc.hasResumed : EventPc → Bool
  | .idle | .establish _ _ => false
  | _ => true

namespace Accepted

/-- The thread of the connection has not finished. -/
def live : Accepted → Bool
  | admitted stage _ => stage ≠ .finished
  | _ => false

/-- The socket is open. It is closed with its bufferevent, and nowhere else. -/
def socketOpen : Accepted → Bool
  | admitted _ conn => !conn.bufferEventFreed
  | _ => true

/-- The socket is owned by the bufferevent of a live connection. -/
def socketOwned : Accepted → Bool
  | admitted stage conn => stage ≠ .finished ∧ conn.bufferEventFreed = false
  | _ => false

/-- An event base was created for the socket, and has not been freed. -/
def hasBase : Accepted → Bool
  | refused _ => false
  | notBuffered => true
  | admitted _ conn => conn.event.hasBase

end Accepted

/-- An `SLServer` with the accept callback that is running, if any, and the sockets whose
callback has returned. -/
structure Admission where
  mThreadCount : Int64
  listener : Option AcceptStage := none
  accepted : List Accepted := []

/-- The choices of the scheduler and of the peers. -/
inductive ServerAction
  /-- A connection is accepted, and the accept callback called. -/
  | accept
  /-- The accept callback goes on. -/
  | listener
  /-- The accept callback goes on, and `bufferevent_socket_new` returns null. -/
  | bufferEventFails
  /-- The thread of the socket `k` goes on outside its `SLConnection`. -/
  | thread (k : ℕ)
  /-- A step of the `SLConnection` of the socket `k`. -/
  | connection (k : ℕ) (a : ThreadAction)

namespace Admission

/-- The admitted connections whose thread has not finished. -/
def live (s : Admission) : ℕ :=
  s.accepted.countP (·.live) + if s.listener = some .counted then 1 else 0

/-- The accept callback returns. -/
def leave (s : Admission) (x : Accepted) : Admission :=
  { s with listener := none, accepted := s.accepted ++ [x] }

/-- The next step of `cb_connlisterner`. -/
def listenerStep (s : Admission) : Option Admission :=
  match s.listener with
  | none => none
  | some .entered =>
    if s.mThreadCount > 1000 then some (s.leave (.refused s.live))
    else some { s with listener := some .checked }
  | some .checked => some { s with listener := some .based }
  | some .based => some { s with listener := some .buffered }
  | some .buffered =>
    some { s with mThreadCount := s.mThreadCount + 1, listener := some .counted }
  | some .counted => some (s.leave (.admitted .spawned {}))

/-- The next step of the thread of the socket `k`. -/
def threadStep (s : Admission) (k : ℕ) : Option Admission :=
  match s.accepted[k]? with
  | some (.admitted .spawned conn) =>
    some { s with accepted := s.accepted.set k (.admitted .serving conn) }
  | some (.admitted .serving conn) =>
    if conn.event = .ended then
      some { s with accepted := s.accepted.set k (.admitted .deleted conn) }
    else none
  | some (.admitted .deleted conn) =>
    some { s with
      mThreadCount := s.mThreadCount - 1
      accepted := s.accepted.set k (.admitted .finished conn) }
  | _ => none

/-- A step of the `SLConnection` of the socket `k`, once it is created. Its TUN threads may
outlive it. -/
def connectionStep (s : Admission) (k : ℕ) (a : ThreadAction) : Option Admission :=
  match s.accepted[k]? with
  | some (.admitted stage conn) =>
    if stage = .spawned then none
    else (conn.step a).map fun conn' =>
      { s with accepted := s.accepted.set k (.admitted stage conn') }
  | _ => none

/-- One step of the server. -/
def step (s : Admission) : ServerAction → Option Admission
  | .accept => if s.listener = none then some { s with listener := some .entered } else none
  | .listener => s.listenerStep
  | .bufferEventFails => if s.listener = some .based then some (s.leave .notBuffered) else none
  | .thread k => s.threadStep k
  | .connection k a => s.connectionStep k a

/-- The law of the counter. -/
structure Counted (s : Admission) : Prop where
  count : s.mThreadCount.toInt = s.live
  nonneg : 0 ≤ s.mThreadCount.toInt
  bound : s.live ≤ 1001
  /-- A connection is refused for load only when the bound is reached. -/
  refusals : ∀ n, .refused n ∈ s.accepted → n = 1001

/-- The law of the sockets. -/
structure NoOrphans (s : Admission) : Prop where
  sockets : ∀ x ∈ s.accepted, x.socketOpen = true → x.socketOwned = true
  /-- The thread of a live connection will free its event base. -/
  bases : ∀ x ∈ s.accepted, x.hasBase = true → x.live = true
  count : s.accepted.countP (·.socketOpen) ≤ s.accepted.countP (·.live)

/-- The next step takes neither of the early returns of the accept callback. -/
def Admits (s : Admission) : ServerAction → Prop
  | .listener => s.listener = some .entered → ¬ s.mThreadCount > 1000
  | .bufferEventFails => False
  | _ => True

end Admission

/-- A server whose constructor has left the value `v` in `mThreadCount`, which it does not
initialise. -/
def admission (v : Int64) : TransitionSystem Admission ServerAction where
  init s := s = { mThreadCount := v }
  step := Admission.step

namespace ConnectionThreads

variable {s s' : ConnectionThreads} {a : ThreadAction} {k : ℕ}

/-! ### The life of the bufferevent -/

/-- What a step does to the life of the bufferevent and of the event thread. -/
structure LifeStep (s s' : ConnectionThreads) : Prop where
  freed : s.bufferEventFreed = true → s'.bufferEventFreed = true
  /-- `resume` returns only once the bufferevent is freed. -/
  resumed : s'.event.hasResumed = true → s.event.hasResumed = true ∨ s.bufferEventFreed = true
  ended : s.event = .ended → s'.event = .ended

private theorem lifeStep_of_frame
    (h : s'.event = s.event ∧ s'.bufferEventFreed = s.bufferEventFreed) : LifeStep s s' :=
  ⟨fun hf => h.2.trans hf, fun hr => .inl (by rwa [← h.1]), fun he => h.1.trans he⟩

private theorem TunStepped.life (h : TunStepped s k s') : LifeStep s s' := by
  cases h with
  | goto pc hk hpc h => exact lifeStep_of_frame ⟨h.event, h.bufferEventFreed⟩
  | header b hk h => exact lifeStep_of_frame ⟨h.event, h.bufferEventFreed⟩
  | packet b hk h => exact lifeStep_of_frame ⟨h.event, h.bufferEventFreed⟩

/-- The event thread goes on before `resume` returns. -/
private theorem EventMoved.life {event : EventPc} {new : List (Sender × AppendPart)}
    (h : EventMoved s event new s') (hr : event.hasResumed = false) (he : s.event ≠ .ended) :
    LifeStep s s' :=
  ⟨fun hf => h.bufferEventFreed.trans hf, fun hr' => by simp [h.event, hr] at hr',
    fun he' => absurd he' he⟩

private theorem EventStepped.life (h : EventStepped s s') : LifeStep s s' := by
  cases h with
  | installed k hev htun h => exact h.life rfl (by simp [hev])
  | spawned k hev htun h => exact h.life rfl (by simp [hev])
  | header k hev htun h => exact h.life rfl (by simp [hev])
  | packet k hev htun h => exact h.life rfl (by simp [hev])
  | returned k hev htun h => exact h.life rfl (by simp [hev])
  | ending event hev hidle hended hno htun h =>
    refine ⟨fun hf => h.bufferEventFreed.trans hf, fun _ => ?_, fun he => absurd he hended⟩
    cases hs : s.event with
    | idle => exact .inr (hidle hs)
    | establish k stage => exact absurd hs (hev k stage)
    | _ => exact .inl rfl

/-- **The bufferevent is freed before `resume` returns,** and stays freed. -/
theorem lifeStep (hstep : s.step a = some s') : LifeStep s s' := by
  cases a with
  | establish =>
    simp only [step, Option.ite_none_right_eq_some, Option.some.injEq] at hstep
    obtain ⟨⟨hev, -⟩, rfl⟩ := hstep
    exact ⟨fun hf => hf, by simp [EventPc.hasResumed], by simp [hev]⟩
  | callback =>
    simp only [step, Option.ite_none_right_eq_some, Option.some.injEq] at hstep
    rw [← hstep.2]
    exact lifeStep_of_frame ⟨rfl, rfl⟩
  | bufferEvent =>
    simp only [step, Option.ite_none_right_eq_some, Option.some.injEq] at hstep
    rw [← hstep.2]
    exact ⟨fun _ => rfl, fun hr => .inl hr, fun he => he⟩
  | eventThread => exact (eventStep_cases hstep).life
  | tunThread k => exact (tunStep_cases hstep).life
  | packet k => exact (packetStep_cases hstep).life

end ConnectionThreads

namespace Admission

variable {s s' : Admission} {a : ServerAction} {v : Int64}

/-! ### What a step does -/

/-- The stage of a thread and its connection move on without the counter. -/
inductive Moves : ThreadStage → ConnectionThreads → ThreadStage → ConnectionThreads → Prop
  | create (conn : ConnectionThreads) : Moves .spawned conn .serving conn
  | run (stage : ThreadStage) (conn conn' : ConnectionThreads) (a : ThreadAction)
      (hstage : stage ≠ .spawned) (hstep : conn.step a = some conn') : Moves stage conn stage conn'
  | delete (conn : ConnectionThreads) (hended : conn.event = .ended) :
      Moves .serving conn .deleted conn

/-- What a step does. -/
inductive Stepped (s : Admission) : ServerAction → Admission → Prop
  | entered (h : s.listener = none) : Stepped s .accept { s with listener := some .entered }
  | refused (h : s.listener = some .entered) (hc : s.mThreadCount > 1000) :
      Stepped s .listener (s.leave (.refused s.live))
  | checked (h : s.listener = some .entered) (hc : ¬ s.mThreadCount > 1000) :
      Stepped s .listener { s with listener := some .checked }
  | based (h : s.listener = some .checked) : Stepped s .listener { s with listener := some .based }
  | buffered (h : s.listener = some .based) :
      Stepped s .listener { s with listener := some .buffered }
  | failed (h : s.listener = some .based) : Stepped s .bufferEventFails (s.leave .notBuffered)
  | counted (h : s.listener = some .buffered) : Stepped s .listener
      { s with mThreadCount := s.mThreadCount + 1, listener := some .counted }
  | spawned (h : s.listener = some .counted) :
      Stepped s .listener (s.leave (.admitted .spawned {}))
  | moved (a : ServerAction) (pre post : List Accepted) (stage stage' : ThreadStage)
      (conn conn' : ConnectionThreads) (h : s.accepted = pre ++ .admitted stage conn :: post)
      (hmoves : Moves stage conn stage' conn') (ha : s.Admits a) :
      Stepped s a { s with accepted := pre ++ .admitted stage' conn' :: post }
  | finished (k : ℕ) (pre post : List Accepted) (conn : ConnectionThreads)
      (h : s.accepted = pre ++ .admitted .deleted conn :: post) :
      Stepped s (.thread k) { s with
        mThreadCount := s.mThreadCount - 1
        accepted := pre ++ .admitted .finished conn :: post }

/-- An entry of a list, and the list with the entry replaced. -/
private theorem exists_split {α : Type} {l : List α} {k : ℕ} {x : α} (h : l[k]? = some x) :
    ∃ pre post, l = pre ++ x :: post ∧ ∀ y, l.set k y = pre ++ y :: post := by
  obtain ⟨hk, rfl⟩ := List.getElem?_eq_some_iff.mp h
  refine ⟨l.take k, l.drop (k + 1), by simp, fun y => ?_⟩
  rw [List.set_eq_take_append_cons_drop, if_pos hk]

/-- **Every step is one of these.** -/
theorem step_cases (hstep : s.step a = some s') : Stepped s a s' := by
  cases a with
  | accept =>
    simp only [step, Option.ite_none_right_eq_some, Option.some.injEq] at hstep
    obtain ⟨h, rfl⟩ := hstep
    exact .entered h
  | listener =>
    simp only [step, listenerStep] at hstep
    split at hstep
    case h_1 => cases hstep
    case h_2 h =>
      split_ifs at hstep with hc
      · rw [← Option.some.inj hstep]
        exact .refused h hc
      · rw [← Option.some.inj hstep]
        exact .checked h hc
    case h_3 h =>
      rw [← Option.some.inj hstep]
      exact .based h
    case h_4 h =>
      rw [← Option.some.inj hstep]
      exact .buffered h
    case h_5 h =>
      rw [← Option.some.inj hstep]
      exact .counted h
    case h_6 h =>
      rw [← Option.some.inj hstep]
      exact .spawned h
  | bufferEventFails =>
    simp only [step, Option.ite_none_right_eq_some, Option.some.injEq] at hstep
    obtain ⟨h, rfl⟩ := hstep
    exact .failed h
  | thread k =>
    simp only [step, threadStep] at hstep
    split at hstep
    case h_1 conn hk =>
      obtain ⟨pre, post, hacc, hset⟩ := exists_split hk
      rw [← Option.some.inj hstep, hset]
      exact .moved _ pre post _ _ conn conn hacc (.create conn) trivial
    case h_2 conn hk =>
      obtain ⟨pre, post, hacc, hset⟩ := exists_split hk
      rw [Option.ite_none_right_eq_some, Option.some.injEq] at hstep
      rw [← hstep.2, hset]
      exact .moved _ pre post _ _ conn conn hacc (.delete conn hstep.1) trivial
    case h_3 conn hk =>
      obtain ⟨pre, post, hacc, hset⟩ := exists_split hk
      rw [← Option.some.inj hstep, hset]
      exact .finished k pre post conn hacc
    case h_4 => cases hstep
  | connection k a =>
    simp only [step, connectionStep] at hstep
    split at hstep
    case h_1 stage conn hk =>
      obtain ⟨pre, post, hacc, hset⟩ := exists_split hk
      split_ifs at hstep with hstage
      obtain ⟨conn', hconn, rfl⟩ := Option.map_eq_some_iff.mp hstep
      rw [hset]
      exact .moved _ pre post _ _ conn conn' hacc (.run stage conn conn' a hstage hconn) trivial
    case h_2 => cases hstep

/-! ### The counter -/

/-- What holds along every run from a counter of zero. -/
structure Counting (s : Admission) : Prop where
  count : s.mThreadCount.toInt = s.live
  bound : s.live ≤ 1001
  /-- The callback has checked that there is room, and only it makes connections. -/
  room : s.listener = some .checked ∨ s.listener = some .based ∨ s.listener = some .buffered →
    s.live ≤ 1000
  refusals : ∀ n, .refused n ∈ s.accepted → n = 1001

theorem Counting.counted (h : s.Counting) : s.Counted :=
  ⟨h.count, by rw [h.count]; omega, h.bound, h.refusals⟩

/-- The counter stays far from the bounds of a `long`. -/
private theorem toInt_add {c d : Int64} (hc : 0 ≤ c.toInt ∧ c.toInt ≤ 1001)
    (hd : -1 ≤ d.toInt ∧ d.toInt ≤ 1) : (c + d).toInt = c.toInt + d.toInt := by
  rw [Int64.toInt_add]
  exact Int.bmod_eq_of_le (by omega) (by omega)

private theorem gt_iff {c : Int64} : c > 1000 ↔ 1000 < c.toInt := Int64.lt_iff_toInt_lt

/-- The live connections once the callback has returned. -/
theorem live_leave (x : Accepted) :
    (s.leave x).live = s.accepted.countP (·.live) + if x.live then 1 else 0 := by
  simp [live, leave, List.countP_append, List.countP_singleton]

/-- Outside its last step, the callback holds no connection. -/
theorem live_of_ne (h : s.listener ≠ some .counted) :
    s.live = s.accepted.countP (·.live) := by
  rw [live, if_neg h, Nat.add_zero]

theorem Moves.live {stage stage' : ThreadStage} {conn conn' : ConnectionThreads}
    (h : Moves stage conn stage' conn') :
    (Accepted.admitted stage' conn').live = (Accepted.admitted stage conn).live := by
  cases h <;> rfl

/-- The callback goes on to a stage in which it holds no connection. -/
private theorem Counting.goto (h : s.Counting) {stage : AcceptStage} (hstage : stage ≠ .counted)
    (hl : s.listener ≠ some .counted) (hroom : stage ≠ .entered → s.live ≤ 1000) :
    Counting { s with listener := some stage } := by
  have hlive : live { s with listener := some stage } = s.live := by
    rw [live_of_ne hl, live_of_ne (by simpa using hstage)]
  refine ⟨by rw [hlive, h.count], by rw [hlive]; exact h.bound, fun hs => ?_, h.refusals⟩
  rw [hlive]
  refine hroom ?_
  rintro rfl
  simp at hs

/-- The callback returns and leaves as many live connections as there were. -/
private theorem Counting.leave (h : s.Counting) {x : Accepted} (hlive : (s.leave x).live = s.live)
    (hx : ∀ n, x = .refused n → n = 1001) : (s.leave x).Counting := by
  refine ⟨by rw [hlive]; exact h.count, by rw [hlive]; exact h.bound, by simp [Admission.leave],
    fun n hn => ?_⟩
  rcases List.mem_append.mp hn with hn | hn
  · exact h.refusals n hn
  · exact hx n (List.mem_singleton.mp hn).symm

/-- **Every step keeps the count.** -/
theorem Counting.next (h : s.Counting) (hstep : s.step a = some s') : s'.Counting := by
  have hcounting := h
  obtain ⟨hcount, hbound, hroom, hrefusals⟩ := h
  cases step_cases hstep with
  | entered h => exact hcounting.goto (by decide) (by simp [h]) fun he => absurd rfl he
  | refused h hc =>
    have hlive : (s.leave (.refused s.live)).live = s.live := by
      rw [live_leave, live_of_ne (by simp [h])]
      rfl
    rw [gt_iff, hcount] at hc
    refine hcounting.leave hlive fun n hn => ?_
    rw [← Accepted.refused.inj hn]
    omega
  | checked h hc =>
    rw [gt_iff, hcount] at hc
    exact hcounting.goto (by decide) (by simp [h]) fun _ => by omega
  | based h => exact hcounting.goto (by decide) (by simp [h]) fun _ => hroom (by simp [h])
  | buffered h => exact hcounting.goto (by decide) (by simp [h]) fun _ => hroom (by simp [h])
  | failed h =>
    have hlive : (s.leave .notBuffered).live = s.live := by
      rw [live_leave, live_of_ne (by simp [h])]
      rfl
    exact hcounting.leave hlive fun n hn => by cases hn
  | counted h =>
    have hroom' := hroom (by simp [h])
    have hlive : live { s with
        mThreadCount := s.mThreadCount + 1, listener := some .counted } = s.live + 1 := by
      rw [live_of_ne (s := s) (by simp [h]), live, if_pos rfl]
    have hadd : (s.mThreadCount + 1).toInt = s.mThreadCount.toInt + 1 :=
      toInt_add (d := 1) (by omega) (by decide)
    exact ⟨by rw [hlive, hadd, hcount]; rfl, by rw [hlive]; omega, by simp, hrefusals⟩
  | spawned h =>
    have hlive : (s.leave (.admitted .spawned {})).live = s.live := by
      rw [live_leave, live, if_pos h]
      rfl
    exact hcounting.leave hlive fun n hn => by cases hn
  | moved a pre post stage stage' conn conn' hacc hmoves ha =>
    have hlive : live { s with accepted := pre ++ .admitted stage' conn' :: post } = s.live := by
      simp [live, hacc, List.countP_cons, hmoves.live]
    refine ⟨by rw [hlive, hcount], by rw [hlive]; exact hbound, by rw [hlive]; exact hroom,
      fun n hn => hrefusals n ?_⟩
    simpa [hacc] using hn
  | finished k pre post conn hacc =>
    have hlive : live { s with
        mThreadCount := s.mThreadCount - 1
        accepted := pre ++ .admitted .finished conn :: post } + 1 = s.live := by
      have hdeleted : (Accepted.admitted .deleted conn).live = true := rfl
      have hfinished : (Accepted.admitted .finished conn).live = false := rfl
      simp [live, hacc, hdeleted, hfinished]
      omega
    have hsub : (s.mThreadCount - 1).toInt = s.mThreadCount.toInt - 1 := by
      rw [Int64.sub_eq_add_neg]
      exact toInt_add (d := -1) (by omega) (by decide)
    refine ⟨by rw [hsub, hcount]; omega, by omega, fun hl => ?_, fun n hn => hrefusals n ?_⟩
    · have := hroom hl
      omega
    · simpa [hacc] using hn

/-- **The counter is right exactly if the constructor happens to find it zero.** -/
theorem counted_iff (v : Int64) : (∀ s, (admission v).Reachable s → s.Counted) ↔ v = 0 := by
  constructor
  · intro h
    have hinit := (h { mThreadCount := v } (.init rfl)).count
    exact Int64.toInt_inj.mp hinit
  · rintro rfl s hs
    refine (hs.invariant (I := Counting) ?_ fun s a s' h hstep => h.next hstep).counted
    rintro s rfl
    exact ⟨rfl, by decide, by simp, by simp⟩

/-- With an indeterminate value of 2000, the first client is refused for load. -/
theorem not_counted : ¬ ∀ v s, (admission v).Reachable s → s.Counted := by
  intro h
  have hrun : (admission 2000).replay { mThreadCount := 2000 } [.accept, .listener] =
      some { mThreadCount := 2000, accepted := [.refused 0] } := rfl
  have hrefused := (h 2000 _ (TransitionSystem.reachable_of_replay rfl hrun)).refusals 0 (by simp)
  exact absurd hrefused (by decide)

/-! ### The sockets -/

/-- What is known of a socket that was admitted. -/
def Sound (x : Accepted) : Prop :=
  ∃ stage conn, x = .admitted stage conn ∧
    (conn.event.hasResumed = true → conn.bufferEventFreed = true) ∧
    (stage = .deleted ∨ stage = .finished → conn.event = .ended)

theorem Moves.sound {stage stage' : ThreadStage} {conn conn' : ConnectionThreads}
    (h : Moves stage conn stage' conn') (hsound : Sound (.admitted stage conn)) :
    Sound (.admitted stage' conn') := by
  obtain ⟨_, _, heq, hfreed, hended⟩ := hsound
  obtain ⟨rfl, rfl⟩ := Accepted.admitted.inj heq
  cases h with
  | create => exact ⟨_, _, rfl, hfreed, by simp⟩
  | run _ _ _ a _ hstep =>
    have hlife := ConnectionThreads.lifeStep hstep
    refine ⟨_, _, rfl, fun hr => ?_, fun hs => hlife.ended (hended hs)⟩
    exact hlife.freed ((hlife.resumed hr).elim hfreed id)
  | delete _ hend => exact ⟨_, _, rfl, hfreed, fun _ => hend⟩

/-- Every socket was admitted. -/
def AllSound (s : Admission) : Prop := ∀ x ∈ s.accepted, Sound x

/-- An entry of a list in which one entry was replaced. -/
private theorem forall_mem_replace {P : Accepted → Prop} {l pre post : List Accepted}
    {x y : Accepted} (h : ∀ z ∈ l, P z) (hl : l = pre ++ x :: post) (hy : P x → P y) :
    ∀ z ∈ pre ++ y :: post, P z := by
  subst hl
  intro z hz
  rcases List.mem_append.mp hz with hz | hz
  · exact h z (by simp [hz])
  · rcases List.mem_cons.mp hz with rfl | hz
    · exact hy (h x (by simp))
    · exact h z (by simp [hz])

/-- **No early return, no orphan.** -/
theorem AllSound.next (h : s.AllSound) (hguard : s.Admits a) (hstep : s.step a = some s') :
    s'.AllSound := by
  cases step_cases hstep with
  | refused hl hc => exact absurd hc (hguard hl)
  | failed => exact absurd hguard not_false
  | spawned =>
    intro x hx
    rcases List.mem_append.mp hx with hx | hx
    · exact h x hx
    · rw [List.mem_singleton.mp hx]
      exact ⟨_, _, rfl, by simp [EventPc.hasResumed], by simp⟩
  | moved _ pre post stage stage' conn conn' hacc hmoves =>
    exact forall_mem_replace h hacc hmoves.sound
  | finished k pre post conn hacc =>
    refine forall_mem_replace h hacc ?_
    rintro ⟨_, _, heq, hfreed, hended⟩
    obtain ⟨rfl, rfl⟩ := Accepted.admitted.inj heq
    exact ⟨_, _, rfl, hfreed, fun _ => hended (.inl rfl)⟩
  | _ => exact h

/-- The bufferevent of a connection whose thread has finished is freed, and its base too. -/
theorem AllSound.noOrphans (h : s.AllSound) : s.NoOrphans := by
  have hsockets : ∀ x ∈ s.accepted, x.socketOpen = true → x.socketOwned = true := by
    intro x hx hopen
    obtain ⟨stage, conn, rfl, hfreed, hended⟩ := h x hx
    have hfreed' : conn.bufferEventFreed = false := by simpa [Accepted.socketOpen] using hopen
    have hstage : stage ≠ .finished := by
      intro hfin
      rw [hfreed (by rw [hended (.inr hfin)]; rfl)] at hfreed'
      cases hfreed'
    simp [Accepted.socketOwned, hstage, hfreed']
  refine ⟨hsockets, fun x hx hbase => ?_, List.countP_mono_left fun x hx hopen => ?_⟩
  · obtain ⟨stage, conn, rfl, hfreed, hended⟩ := h x hx
    have hstage : stage ≠ .finished := by
      intro hfin
      rw [Accepted.hasBase, hended (.inr hfin)] at hbase
      cases hbase
    simp [Accepted.live, hstage]
  · have howned := hsockets x hx hopen
    cases x with
    | admitted stage conn =>
      simp only [Accepted.socketOwned, Accepted.live, decide_eq_true_eq] at howned ⊢
      exact howned.1
    | _ => cases howned

/-- A socket that was forgotten: it is open, and no connection will close it. -/
def Orphan : Accepted → Prop
  | .admitted _ _ => False
  | _ => True

/-- What was forgotten stays forgotten. -/
private theorem orphan_next (hstep : s.step a = some s') (h : ∃ x ∈ s.accepted, Orphan x) :
    ∃ x ∈ s'.accepted, Orphan x := by
  obtain ⟨x, hx, horphan⟩ := h
  have hreplace {pre post : List Accepted} {stage : ThreadStage} {conn : ConnectionThreads}
      (y : Accepted) (hacc : s.accepted = pre ++ .admitted stage conn :: post) :
      x ∈ pre ++ y :: post := by
    have hne : x ≠ .admitted stage conn := by
      rintro rfl
      exact horphan
    rw [hacc] at hx
    simp only [List.mem_append, List.mem_cons, hne, false_or] at hx ⊢
    exact hx.imp_right .inr
  cases step_cases hstep with
  | refused => exact ⟨x, List.mem_append_left _ hx, horphan⟩
  | failed => exact ⟨x, List.mem_append_left _ hx, horphan⟩
  | spawned => exact ⟨x, List.mem_append_left _ hx, horphan⟩
  | moved _ pre post stage stage' conn conn' hacc => exact ⟨x, hreplace _ hacc, horphan⟩
  | finished k pre post conn hacc => exact ⟨x, hreplace _ hacc, horphan⟩
  | _ => exact ⟨x, hx, horphan⟩

/-- **Every accepted socket and event base has an owner exactly in the runs in which no
connection is refused and no bufferevent fails.** -/
theorem noOrphans_iff (h : (admission v).Reachable s) :
    s.NoOrphans ↔ (admission v).ReachableUnder Admits s := by
  constructor
  · intro hno
    refine TransitionSystem.reachableUnder_of_not_mark
      (M := fun s : Admission => ∃ x ∈ s.accepted, Orphan x) ?_
      (fun s a s' hstep => orphan_next hstep) h ?_
    · intro s a s' _ hstep hguard
      cases step_cases hstep with
      | refused => exact ⟨_, List.mem_append_right _ (List.mem_singleton_self _), trivial⟩
      | failed => exact ⟨_, List.mem_append_right _ (List.mem_singleton_self _), trivial⟩
      | entered => exact absurd trivial hguard
      | checked _ hc => exact absurd (fun _ => hc) hguard
      | moved _ _ _ _ _ _ _ _ _ ha => exact absurd ha hguard
      | finished => exact absurd trivial hguard
      | _ hl => exact absurd (fun he => nomatch he.symm.trans hl) hguard
    · rintro ⟨x, hx, horphan⟩
      cases x with
      | admitted => exact horphan
      | _ => exact absurd (hno.sockets _ hx rfl) (by simp [Accepted.socketOwned])
  · intro hunder
    refine AllSound.noOrphans (hunder.invariant (I := AllSound) ?_
      fun s a s' hs hguard hstep => hs.next hguard hstep)
    rintro s rfl
    simp [AllSound]

/-- A connection that is admitted and served. -/
theorem noOrphans_iff_admitted : (admission 0).ReachableUnder Admits
    { mThreadCount := 1, accepted := [.admitted .serving {}] } := by
  have hrun : (admission 0).replay { mThreadCount := 0 }
      (.accept :: .replicate 5 .listener ++ [.thread 0]) =
      some { mThreadCount := 1, accepted := [.admitted .serving {}] } := rfl
  refine (noOrphans_iff (TransitionSystem.reachable_of_replay rfl hrun)).mp ?_
  exact ⟨by simp [Accepted.socketOwned], by simp [Accepted.live], by decide⟩

/-- A bufferevent that cannot be created, and a refusal: each leaves the socket open. -/
theorem not_noOrphans :
    (¬ ∀ s, (admission 0).Reachable s → s.NoOrphans) ∧
      ¬ ∀ v s, (admission v).Reachable s → s.NoOrphans := by
  constructor
  · intro h
    have hrun : (admission 0).replay { mThreadCount := 0 }
        [.accept, .listener, .listener, .bufferEventFails] =
        some { mThreadCount := 0, accepted := [.notBuffered] } := rfl
    have hno := h _ (TransitionSystem.reachable_of_replay rfl hrun)
    exact absurd (hno.bases .notBuffered (by simp) rfl) (by decide)
  · intro h
    have hrun : (admission 2000).replay { mThreadCount := 2000 } [.accept, .listener] =
        some { mThreadCount := 2000, accepted := [.refused 0] } := rfl
    have hno := h 2000 _ (TransitionSystem.reachable_of_replay rfl hrun)
    exact absurd (hno.sockets (.refused 0) (by simp) rfl) (by decide)

end Admission

end SplendidLinker
