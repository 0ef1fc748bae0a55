import SplendidLinker.Server.ConcurrentWrites

/-!
# The threads of a connection

The event thread of a connection runs its read callbacks, frees the bufferevent on any event,
returns from `resume` and deletes the `SLConnection`, and with it the current interface. Each
`ESTABLISH` request that succeeds starts a detached TUN thread, which captures the local
variable `connection` of the callback by reference, reads it, asks it for the interface,
creates the event base of the interface, and dispatches; the handler of a packet reads the
variable again and writes to the connection.

`ConnectionThreads` has a program counter for each thread, and a flag for the end of the life
of each object they share. An access to an object that is gone is recorded as a fault, and so
is the deletion of an interface without an event base.

The threads write to the connection as `SharedOutput` has it: `appends_simulated` matches
every run of the threads, whatever their calls write, by a run of the shared output with the
same bytes and the same threads between their two appends.
-/

namespace SplendidLinker

open Foundations

/-- The accesses that must not happen. -/
inductive Fault
  /-- The variable `connection` of a callback that has returned. -/
  | localVariable
  /-- The bufferevent after `bufferevent_free`. -/
  | bufferEvent
  /-- The `SLConnection` after its release. -/
  | connection
  /-- The `SLUTUNInterface` after its release, or none at all. -/
  | interface
  /-- The event base of the interface after `event_base_free`. -/
  | eventBase
  /-- `~SLUTUNInterface` on an interface whose `mBase` is not set. -/
  | baseNotSet
  deriving DecidableEq, Repr

/-- How far an `ESTABLISH` callback has come. -/
inductive EstablishStage
  /-- `new SLUTUNInterface` has returned. -/
  | created
  /-- `set_mUTUNInterface` has returned. -/
  | installed
  /-- The TUN thread has been started and detached. -/
  | spawned
  /-- The length of the response has been appended. -/
  | header
  /-- The response has been appended. -/
  | responded
  deriving DecidableEq, Repr

/-- Where the event thread is. -/
inductive EventPc
  /-- In `event_base_dispatch`, between callbacks. -/
  | idle
  /-- In the read callback that handles the `k`-th successful `ESTABLISH`. -/
  | establish (k : ℕ) (stage : EstablishStage)
  /-- `resume` has returned, and the `SLConnection` is being deleted. -/
  | resumed
  /-- `~SLUTUNInterface` of the interface `n` is about to call `event_base_loopbreak`. -/
  | loopbreak (n : ℕ)
  /-- It is about to call `event_base_free`. -/
  | freeBase (n : ℕ)
  /-- It is about to close the socket, and the interface to be released. -/
  | releaseInterface (n : ℕ)
  /-- The `SLConnection` is about to be released. -/
  | releaseConnection
  | ended
  deriving DecidableEq, Repr

/-- Where a TUN thread is; `n` is an interface and `b` its event base. -/
inductive TunPc
  | unborn
  /-- About to read `connection`. -/
  | started
  /-- About to call `get_mUTUNInterface`. -/
  | getInterface
  /-- In `dispatchUTUNPacket`, about to set `mReadHandle` and `mBase`. -/
  | setBase (n : ℕ)
  /-- About to add the read event and to dispatch. -/
  | dispatch (n : ℕ)
  /-- In `event_base_dispatch`, waiting for a packet. -/
  | waiting (n b : ℕ)
  /-- In the read handler made by the callback `h`, about to read its `connection`. -/
  | handler (b h : ℕ)
  /-- In `writePacket`, about to append the length. -/
  | header (b : ℕ)
  /-- About to append the packet. -/
  | packet (b : ℕ)
  /-- The handler has returned to `event_base_dispatch`. -/
  | loop (b : ℕ)
  | done
  deriving DecidableEq, Repr

/-- The two appends of a `writePacket` call. -/
inductive AppendPart
  | header
  | packet
  deriving DecidableEq, Repr

/-- A connection with its threads. Callbacks, TUN threads, interfaces and event bases carry the
number of the successful `ESTABLISH` that they belong to. -/
structure ConnectionThreads where
  event : EventPc := .idle
  tun : ℕ → TunPc := fun _ => .unborn
  /-- How many successful `ESTABLISH` callbacks have begun. -/
  callbacks : ℕ := 0
  /-- The callbacks that have returned. -/
  returned : ℕ → Bool := fun _ => false
  mUTUNInterface : Option ℕ := none
  /-- `mBase` of an interface. The TUN thread that sets it sets `mReadHandle` with it. -/
  mBase : ℕ → Option ℕ := fun _ => none
  /-- `event_base_loopbreak` has been called on the base. -/
  broken : ℕ → Bool := fun _ => false
  baseFreed : ℕ → Bool := fun _ => false
  interfaceReleased : ℕ → Bool := fun _ => false
  bufferEventFreed : Bool := false
  connectionReleased : Bool := false
  /-- The appends to the output buffer, in order. -/
  output : List (Sender × AppendPart) := []
  faults : List Fault := []

/-- The choices of the scheduler and of the peer. -/
inductive ThreadAction
  /-- An `ESTABLISH` request arrives, and its interface is created without an error. -/
  | establish
  /-- A read callback that starts no TUN thread runs. -/
  | callback
  /-- An event is reported on the bufferevent, and `cb_event` frees it. -/
  | bufferEvent
  /-- The event thread goes on. -/
  | eventThread
  /-- The TUN thread `k` goes on. -/
  | tunThread (k : ℕ)
  /-- A packet arrives on the socket that the TUN thread `k` waits for. -/
  | packet (k : ℕ)

namespace ConnectionThreads

/-- An access to an object that may be gone. -/
def access (s : ConnectionThreads) (gone : Bool) (f : Fault) : ConnectionThreads :=
  if gone then { s with faults := s.faults ++ [f] } else s

/-- The TUN thread `k` moves on to `pc`. -/
def goto (s : ConnectionThreads) (k : ℕ) (pc : TunPc) : ConnectionThreads :=
  { s with tun := Function.update s.tun k pc }

/-- A `bufferevent_write` of `SLConnection::writePacket` on a TUN thread. -/
def append (s : ConnectionThreads) (t : Sender) (part : AppendPart) : ConnectionThreads :=
  let s := (s.access s.connectionReleased .connection).access s.bufferEventFreed .bufferEvent
  { s with output := s.output ++ [(t, part)] }

/-- The next step of the event thread inside a callback, or after the last one. -/
def eventStep (s : ConnectionThreads) : Option ConnectionThreads :=
  match s.event with
  | .idle =>
    -- the freed bufferevent was the last event of the base
    if s.bufferEventFreed then some { s with event := .resumed } else none
  | .establish k .created =>
    -- an interface installed before is neither stopped nor deleted
    some { s with mUTUNInterface := some k, event := .establish k .installed }
  | .establish k .installed =>
    some { s.goto k .started with event := .establish k .spawned }
  | .establish k .spawned =>
    some { s.append .eventThread .header with event := .establish k .header }
  | .establish k .header =>
    some { s.append .eventThread .packet with event := .establish k .responded }
  | .establish k .responded =>
    some { s with returned := Function.update s.returned k true, event := .idle }
  | .resumed =>
    -- `~SLConnection`
    match s.mUTUNInterface with
    | none => some { s with event := .releaseConnection }
    | some n => some { s with event := .loopbreak n }
  | .loopbreak n =>
    match s.mBase n with
    | none => some { s.access true .baseNotSet with event := .freeBase n }
    | some b => some { s with broken := Function.update s.broken b true, event := .freeBase n }
  | .freeBase n =>
    match s.mBase n with
    | none => some { s.access true .baseNotSet with event := .releaseInterface n }
    | some b =>
      some { s with baseFreed := Function.update s.baseFreed b true, event := .releaseInterface n }
  | .releaseInterface n =>
    some { s with
      interfaceReleased := Function.update s.interfaceReleased n true
      event := .releaseConnection }
  | .releaseConnection => some { s with connectionReleased := true, event := .ended }
  | .ended => none

/-- The next step of the TUN thread `k`. -/
def tunStep (s : ConnectionThreads) (k : ℕ) : Option ConnectionThreads :=
  match s.tun k with
  | .unborn => none
  | .started => some ((s.access (s.returned k) .localVariable).goto k .getInterface)
  | .getInterface =>
    -- the interface of a later callback, if there has been one
    let s := s.access s.connectionReleased .connection
    match s.mUTUNInterface with
    | none => some ((s.access true .interface).goto k .done)
    | some n => some (s.goto k (.setBase n))
  | .setBase n =>
    some { (s.access (s.interfaceReleased n) .interface).goto k (.dispatch n) with
      mBase := Function.update s.mBase n (some k) }
  | .dispatch n =>
    let s := s.access (s.interfaceReleased n) .interface
    match s.mBase n with
    | none => none
    | some b => some ((s.access (s.baseFreed b) .eventBase).goto k (.waiting n b))
  | .waiting _ b =>
    -- `event_base_loopbreak` wakes the loop
    if s.broken b then some ((s.access (s.baseFreed b) .eventBase).goto k .done) else none
  | .handler b h => some ((s.access (s.returned h) .localVariable).goto k (.header b))
  | .header b => some ((s.append (.tunThread k) .header).goto k (.packet b))
  | .packet b => some ((s.append (.tunThread k) .packet).goto k (.loop b))
  | .loop b =>
    -- the read event is not persistent: no event is left, and the dispatch returns
    some ((s.access (s.baseFreed b) .eventBase).goto k .done)
  | .done => none

/-- A packet for the TUN thread `k`: `cb_event` reads it and calls `mReadHandle`. -/
def packetStep (s : ConnectionThreads) (k : ℕ) : Option ConnectionThreads :=
  match s.tun k with
  | .waiting n b =>
    -- the handler is that of the last thread to have set `mReadHandle`
    (s.mBase n).map fun h =>
      ((s.access (s.baseFreed b) .eventBase).access (s.interfaceReleased n) .interface).goto k
        (.handler b h)
  | _ => none

/-- One step of the connection. -/
def step (s : ConnectionThreads) : ThreadAction → Option ConnectionThreads
  | .establish =>
    if s.event = .idle ∧ s.bufferEventFreed = false then
      some { s with event := .establish s.callbacks .created, callbacks := s.callbacks + 1 }
    else none
  | .callback => if s.event = .idle ∧ s.bufferEventFreed = false then some s else none
  | .bufferEvent =>
    if s.event = .idle ∧ s.bufferEventFreed = false then some { s with bufferEventFreed := true }
    else none
  | .eventThread => s.eventStep
  | .tunThread k => s.tunStep k
  | .packet k => s.packetStep k

end ConnectionThreads

/-- A fresh connection. -/
def connectionThreads : TransitionSystem ConnectionThreads ThreadAction where
  init s := s = {}
  step := ConnectionThreads.step

namespace ConnectionThreads

variable {s s' : ConnectionThreads} {a : ThreadAction} {k : ℕ}

/-! ### What the parts of a step leave alone -/

@[simp]
theorem access_false (f : Fault) : s.access false f = s := rfl

@[simp]
theorem access_event (gone : Bool) (f : Fault) : (s.access gone f).event = s.event := by
  cases gone <;> rfl

@[simp]
theorem access_tun (gone : Bool) (f : Fault) : (s.access gone f).tun = s.tun := by
  cases gone <;> rfl

@[simp]
theorem access_returned (gone : Bool) (f : Fault) : (s.access gone f).returned = s.returned := by
  cases gone <;> rfl

@[simp]
theorem access_mUTUNInterface (gone : Bool) (f : Fault) :
    (s.access gone f).mUTUNInterface = s.mUTUNInterface := by
  cases gone <;> rfl

@[simp]
theorem access_mBase (gone : Bool) (f : Fault) : (s.access gone f).mBase = s.mBase := by
  cases gone <;> rfl

@[simp]
theorem access_callbacks (gone : Bool) (f : Fault) :
    (s.access gone f).callbacks = s.callbacks := by
  cases gone <;> rfl

@[simp]
theorem access_output (gone : Bool) (f : Fault) : (s.access gone f).output = s.output := by
  cases gone <;> rfl

@[simp]
theorem access_bufferEventFreed (gone : Bool) (f : Fault) :
    (s.access gone f).bufferEventFreed = s.bufferEventFreed := by
  cases gone <;> rfl

/-- An access to an object that is gone is a fault. -/
theorem faults_access (f : Fault) : (s.access true f).faults = s.faults ++ [f] := rfl

@[simp]
theorem goto_tun (pc : TunPc) : (s.goto k pc).tun = Function.update s.tun k pc := rfl

@[simp]
theorem goto_event (pc : TunPc) : (s.goto k pc).event = s.event := rfl

@[simp]
theorem goto_callbacks (pc : TunPc) : (s.goto k pc).callbacks = s.callbacks := rfl

@[simp]
theorem goto_returned (pc : TunPc) : (s.goto k pc).returned = s.returned := rfl

@[simp]
theorem goto_mBase (pc : TunPc) : (s.goto k pc).mBase = s.mBase := rfl

@[simp]
theorem goto_output (pc : TunPc) : (s.goto k pc).output = s.output := rfl

@[simp]
theorem goto_bufferEventFreed (pc : TunPc) :
    (s.goto k pc).bufferEventFreed = s.bufferEventFreed := rfl

@[simp]
theorem goto_faults (pc : TunPc) : (s.goto k pc).faults = s.faults := rfl

@[simp]
theorem append_event (t : Sender) (part : AppendPart) : (s.append t part).event = s.event := by
  simp [append]

@[simp]
theorem append_tun (t : Sender) (part : AppendPart) : (s.append t part).tun = s.tun := by
  simp [append]

@[simp]
theorem append_callbacks (t : Sender) (part : AppendPart) :
    (s.append t part).callbacks = s.callbacks := by
  simp [append]

@[simp]
theorem append_bufferEventFreed (t : Sender) (part : AppendPart) :
    (s.append t part).bufferEventFreed = s.bufferEventFreed := by
  simp [append]

@[simp]
theorem append_output (t : Sender) (part : AppendPart) :
    (s.append t part).output = s.output ++ [(t, part)] := by
  simp [append]

/-! ### What a thread does -/

/-- The event thread moves on to `event` and appends `new`. -/
structure EventMoved (s : ConnectionThreads) (event : EventPc)
    (new : List (Sender × AppendPart)) (s' : ConnectionThreads) : Prop where
  event : s'.event = event
  bufferEventFreed : s'.bufferEventFreed = s.bufferEventFreed
  callbacks : s'.callbacks = s.callbacks
  output : s'.output = s.output ++ new

/-- What the event thread does to the threads and to the output. -/
inductive EventStepped (s s' : ConnectionThreads) : Prop
  | installed (k : ℕ) (hev : s.event = .establish k .created) (htun : s'.tun = s.tun)
      (h : EventMoved s (.establish k .installed) [] s')
  | spawned (k : ℕ) (hev : s.event = .establish k .installed)
      (htun : s'.tun = Function.update s.tun k .started)
      (h : EventMoved s (.establish k .spawned) [] s')
  | header (k : ℕ) (hev : s.event = .establish k .spawned) (htun : s'.tun = s.tun)
      (h : EventMoved s (.establish k .header) [(.eventThread, .header)] s')
  | packet (k : ℕ) (hev : s.event = .establish k .header) (htun : s'.tun = s.tun)
      (h : EventMoved s (.establish k .responded) [(.eventThread, .packet)] s')
  | returned (k : ℕ) (hev : s.event = .establish k .responded) (htun : s'.tun = s.tun)
      (h : EventMoved s .idle [] s')
  /-- Behind the last callback, on the way to the end. -/
  | ending (event : EventPc) (hev : ∀ k stage, s.event ≠ .establish k stage)
      (hidle : s.event = .idle → s.bufferEventFreed = true) (hended : s.event ≠ .ended)
      (hno : ∀ k stage, event ≠ .establish k stage) (htun : s'.tun = s.tun)
      (h : EventMoved s event [] s')

/-- **Every step of the event thread is one of these.** -/
theorem eventStep_cases (hstep : s.eventStep = some s') : EventStepped s s' := by
  rw [eventStep] at hstep
  cases hev : s.event with
  | ended => simp [hev] at hstep
  | idle =>
    simp only [hev, Option.ite_none_right_eq_some, Option.some.injEq] at hstep
    obtain ⟨hfreed, rfl⟩ := hstep
    exact .ending .resumed (by simp [hev]) (fun _ => hfreed) (by simp [hev]) (by simp) rfl
      ⟨rfl, rfl, rfl, by simp⟩
  | resumed =>
    simp only [hev] at hstep
    split at hstep
    all_goals
      rw [← Option.some.inj hstep]
      exact .ending _ (by simp [hev]) (by simp [hev]) (by simp [hev]) (by simp) rfl
        ⟨rfl, rfl, rfl, by simp⟩
  | loopbreak n =>
    simp only [hev] at hstep
    split at hstep
    all_goals
      rw [← Option.some.inj hstep]
      exact .ending (.freeBase n) (by simp [hev]) (by simp [hev]) (by simp [hev]) (by simp)
        (by simp) ⟨rfl, by simp, by simp, by simp⟩
  | freeBase n =>
    simp only [hev] at hstep
    split at hstep
    all_goals
      rw [← Option.some.inj hstep]
      exact .ending (.releaseInterface n) (by simp [hev]) (by simp [hev]) (by simp [hev])
        (by simp) (by simp) ⟨rfl, by simp, by simp, by simp⟩
  | releaseInterface n =>
    simp only [hev, Option.some.injEq] at hstep
    rw [← hstep]
    exact .ending .releaseConnection (by simp [hev]) (by simp [hev]) (by simp [hev]) (by simp) rfl
      ⟨rfl, rfl, rfl, by simp⟩
  | releaseConnection =>
    simp only [hev, Option.some.injEq] at hstep
    rw [← hstep]
    exact .ending .ended (by simp [hev]) (by simp [hev]) (by simp [hev]) (by simp) rfl
      ⟨rfl, rfl, rfl, by simp⟩
  | establish k stage =>
    cases stage with
    | created =>
      simp only [hev, Option.some.injEq] at hstep
      rw [← hstep]
      exact .installed k hev rfl ⟨rfl, rfl, rfl, by simp⟩
    | installed =>
      simp only [hev, Option.some.injEq] at hstep
      rw [← hstep]
      exact .spawned k hev rfl ⟨rfl, rfl, rfl, by simp⟩
    | spawned =>
      simp only [hev, Option.some.injEq] at hstep
      rw [← hstep]
      exact .header k hev (by simp) ⟨rfl, by simp, by simp, by simp⟩
    | header =>
      simp only [hev, Option.some.injEq] at hstep
      rw [← hstep]
      exact .packet k hev (by simp) ⟨rfl, by simp, by simp, by simp⟩
    | responded =>
      simp only [hev, Option.some.injEq] at hstep
      rw [← hstep]
      exact .returned k hev rfl ⟨rfl, rfl, rfl, by simp⟩

/-- The TUN thread `k` moves on to `pc` and appends `new`. -/
structure TunMoved (s : ConnectionThreads) (k : ℕ) (pc : TunPc)
    (new : List (Sender × AppendPart)) (s' : ConnectionThreads) : Prop where
  born : s.tun k ≠ .unborn
  tun : s'.tun = Function.update s.tun k pc
  event : s'.event = s.event
  bufferEventFreed : s'.bufferEventFreed = s.bufferEventFreed
  callbacks : s'.callbacks = s.callbacks
  output : s'.output = s.output ++ new

/-- What the TUN thread `k` does to the threads and to the output. -/
inductive TunStepped (s : ConnectionThreads) (k : ℕ) (s' : ConnectionThreads) : Prop
  | goto (pc : TunPc) (hk : ∀ b, s.tun k ≠ .header b ∧ s.tun k ≠ .packet b)
      (hpc : ∀ b, pc ≠ .packet b) (h : TunMoved s k pc [] s')
  | header (b : ℕ) (hk : s.tun k = .header b)
      (h : TunMoved s k (.packet b) [(.tunThread k, .header)] s')
  | packet (b : ℕ) (hk : s.tun k = .packet b)
      (h : TunMoved s k (.loop b) [(.tunThread k, .packet)] s')

/-- **Every step of a TUN thread is one of these.** -/
theorem tunStep_cases (hstep : s.tunStep k = some s') : TunStepped s k s' := by
  rw [tunStep] at hstep
  cases hpc : s.tun k with
  | unborn => simp [hpc] at hstep
  | done => simp [hpc] at hstep
  | started =>
    simp only [hpc, Option.some.injEq] at hstep
    rw [← hstep]
    exact .goto .getInterface (by simp [hpc]) (by simp)
      ⟨by simp [hpc], by simp, by simp, by simp, by simp, by simp⟩
  | getInterface =>
    simp only [hpc, access_mUTUNInterface] at hstep
    split at hstep
    case h_1 =>
      rw [← Option.some.inj hstep]
      exact .goto .done (by simp [hpc]) (by simp)
        ⟨by simp [hpc], by simp, by simp, by simp, by simp, by simp⟩
    case h_2 n _ =>
      rw [← Option.some.inj hstep]
      exact .goto (.setBase n) (by simp [hpc]) (by simp)
        ⟨by simp [hpc], by simp, by simp, by simp, by simp, by simp⟩
  | setBase n =>
    simp only [hpc, Option.some.injEq] at hstep
    rw [← hstep]
    exact .goto (.dispatch n) (by simp [hpc]) (by simp)
      ⟨by simp [hpc], by simp, by simp, by simp, by simp, by simp⟩
  | dispatch n =>
    simp only [hpc, access_mBase] at hstep
    split at hstep
    case h_1 => cases hstep
    case h_2 b _ =>
      rw [← Option.some.inj hstep]
      exact .goto (.waiting n b) (by simp [hpc]) (by simp)
        ⟨by simp [hpc], by simp, by simp, by simp, by simp, by simp⟩
  | waiting n b =>
    simp only [hpc, Option.ite_none_right_eq_some, Option.some.injEq] at hstep
    rw [← hstep.2]
    exact .goto .done (by simp [hpc]) (by simp)
      ⟨by simp [hpc], by simp, by simp, by simp, by simp, by simp⟩
  | handler b i =>
    simp only [hpc, Option.some.injEq] at hstep
    rw [← hstep]
    exact .goto (.header b) (by simp [hpc]) (by simp)
      ⟨by simp [hpc], by simp, by simp, by simp, by simp, by simp⟩
  | header b =>
    simp only [hpc, Option.some.injEq] at hstep
    rw [← hstep]
    exact .header b hpc ⟨by simp [hpc], by simp, by simp, by simp, by simp, by simp⟩
  | packet b =>
    simp only [hpc, Option.some.injEq] at hstep
    rw [← hstep]
    exact .packet b hpc ⟨by simp [hpc], by simp, by simp, by simp, by simp, by simp⟩
  | loop b =>
    simp only [hpc, Option.some.injEq] at hstep
    rw [← hstep]
    exact .goto .done (by simp [hpc]) (by simp)
      ⟨by simp [hpc], by simp, by simp, by simp, by simp, by simp⟩

/-- A packet makes its TUN thread go on to the handler. -/
theorem packetStep_cases (hstep : s.packetStep k = some s') : TunStepped s k s' := by
  rw [packetStep] at hstep
  split at hstep
  case h_1 n b hpc =>
    obtain ⟨i, -, hs⟩ := Option.map_eq_some_iff.mp hstep
    rw [← hs]
    exact .goto (.handler b i) (by simp [hpc]) (by simp)
      ⟨by simp [hpc], by simp, by simp, by simp, by simp, by simp⟩
  case h_2 => cases hstep

/-! ### The appends of the threads -/

/-- A thread is between the two appends of a `writePacket` call. -/
def Between (s : ConnectionThreads) : Sender → Prop
  | .eventThread => ∃ k, s.event = .establish k .header
  | .tunThread k => ∃ b, s.tun k = .packet b

/-- A TUN thread is not started twice. -/
structure Spawning (s : ConnectionThreads) : Prop where
  fresh : ∀ j, s.callbacks ≤ j → s.tun j = .unborn
  current : ∀ k stage, s.event = .establish k stage → k < s.callbacks
  unborn : ∀ k stage, s.event = .establish k stage → stage = .created ∨ stage = .installed →
    s.tun k = .unborn

/-- What a step does to the appends. -/
inductive Appends (s s' : ConnectionThreads) : Prop
  | none (hout : s'.output = s.output) (hbetween : ∀ t, s'.Between t ↔ s.Between t)
  | header (t : Sender) (ht : ¬ s.Between t) (hout : s'.output = s.output ++ [(t, .header)])
      (hbetween : ∀ u, s'.Between u ↔ u = t ∨ s.Between u)
  | packet (t : Sender) (ht : s.Between t) (hout : s'.output = s.output ++ [(t, .packet)])
      (hbetween : ∀ u, s'.Between u ↔ u ≠ t ∧ s.Between u)

/-- The event thread goes on, or leaves a callback, without an append. -/
private theorem Spawning.of_event (h : s.Spawning) (hev : ∀ k, s.event ≠ .establish k .header)
    {event : EventPc} (hno : ∀ k stage, event ≠ .establish k stage) (htun : s'.tun = s.tun)
    (hmoved : EventMoved s event [] s') : s'.Spawning ∧ Appends s s' := by
  have hno' : ∀ k stage, s'.event ≠ .establish k stage := by
    rw [hmoved.event]
    exact hno
  refine ⟨⟨?_, fun k stage hk => absurd hk (hno' k stage), fun k stage hk => absurd hk
    (hno' k stage)⟩, .none (by simp [hmoved.output]) fun t => ?_⟩
  · rw [htun, hmoved.callbacks]
    exact h.fresh
  · cases t with
    | eventThread => simp [Between, hev, hno']
    | tunThread k => simp [Between, htun]

/-- A callback goes on to a stage at which its TUN thread has been started. -/
private theorem Spawning.establish (h : s.Spawning) {stage stage' : EstablishStage}
    {new : List (Sender × AppendPart)} (hev : s.event = .establish k stage)
    (hmoved : EventMoved s (.establish k stage') new s')
    (hstage : stage' ≠ .created ∧ stage' ≠ .installed)
    (htun : ∀ j, j ≠ k → s'.tun j = s.tun j) : s'.Spawning := by
  have hlt := h.current k stage hev
  refine ⟨fun j hj => ?_, fun i st hi => ?_, fun i st hi hst => ?_⟩
  · rw [hmoved.callbacks] at hj
    rw [htun j (by omega), h.fresh j hj]
  · obtain ⟨rfl, -⟩ := EventPc.establish.inj (hmoved.event.symm.trans hi)
    rw [hmoved.callbacks]
    exact hlt
  · obtain ⟨-, rfl⟩ := EventPc.establish.inj (hmoved.event.symm.trans hi)
    simp [hstage] at hst

private theorem Spawning.eventStep (h : s.Spawning) (hstep : s.eventStep = some s') :
    s'.Spawning ∧ Appends s s' := by
  cases eventStep_cases hstep with
  | installed k hev htun hmoved =>
    refine ⟨⟨fun j hj => ?_, fun i stage hi => ?_, fun i stage hi _ => ?_⟩,
      .none (by simp [hmoved.output]) fun t => ?_⟩
    · rw [hmoved.callbacks] at hj
      rw [htun, h.fresh j hj]
    · obtain ⟨rfl, -⟩ := EventPc.establish.inj (hmoved.event.symm.trans hi)
      rw [hmoved.callbacks]
      exact h.current _ _ hev
    · obtain ⟨rfl, -⟩ := EventPc.establish.inj (hmoved.event.symm.trans hi)
      rw [htun]
      exact h.unborn _ _ hev (.inl rfl)
    · cases t <;> simp [Between, hev, hmoved.event, htun]
  | spawned k hev htun hmoved =>
    have hunborn := h.unborn k .installed hev (.inr rfl)
    refine ⟨h.establish hev hmoved (by simp) (fun j hj => by simp [htun, hj]),
      .none (by simp [hmoved.output]) fun t => ?_⟩
    cases t with
    | eventThread => simp [Between, hev, hmoved.event]
    | tunThread j =>
      by_cases hj : j = k
      · subst hj
        simp [Between, htun, hunborn]
      · simp [Between, htun, hj]
  | header k hev htun hmoved =>
    refine ⟨h.establish hev hmoved (by simp) (fun j _ => by rw [htun]),
      .header .eventThread (by simp [Between, hev]) hmoved.output fun t => ?_⟩
    cases t <;> simp [Between, hmoved.event, htun]
  | packet k hev htun hmoved =>
    refine ⟨h.establish hev hmoved (by simp) (fun j _ => by rw [htun]),
      .packet .eventThread (by simp [Between, hev]) hmoved.output fun t => ?_⟩
    cases t <;> simp [Between, hmoved.event, htun]
  | returned k hev htun hmoved => exact h.of_event (by simp [hev]) (by simp) htun hmoved
  | ending event hev hidle hended hno htun hmoved =>
    exact h.of_event (fun k => hev k .header) hno htun hmoved

/-- A TUN thread goes on. -/
private theorem Spawning.of_tun (h : s.Spawning) {pc : TunPc} {new : List (Sender × AppendPart)}
    (hmoved : TunMoved s k pc new s') : s'.Spawning := by
  have hkeep : ∀ j, s.tun j = .unborn → s'.tun j = .unborn := by
    intro j hj
    have hne : j ≠ k := by
      rintro rfl
      exact hmoved.born hj
    simpa [hmoved.tun, hne] using hj
  refine ⟨fun j hj => ?_, ?_, fun i stage hi hstage => ?_⟩
  · rw [hmoved.callbacks] at hj
    exact hkeep j (h.fresh j hj)
  · rw [hmoved.event, hmoved.callbacks]
    exact h.current
  · rw [hmoved.event] at hi
    exact hkeep i (h.unborn i stage hi hstage)

/-- What a step of the TUN thread `k` does to the other threads. -/
private theorem TunMoved.between {pc : TunPc} {new : List (Sender × AppendPart)}
    (hmoved : TunMoved s k pc new s') {t : Sender} (ht : t ≠ .tunThread k) :
    s'.Between t ↔ s.Between t := by
  cases t with
  | eventThread => simp [Between, hmoved.event]
  | tunThread j =>
    have hj : j ≠ k := fun hj => ht (by rw [hj])
    simp [Between, hmoved.tun, hj]

private theorem Spawning.tunStep (h : s.Spawning) (hstepped : TunStepped s k s') :
    s'.Spawning ∧ Appends s s' := by
  cases hstepped with
  | goto pc hk hpc hmoved =>
    refine ⟨h.of_tun hmoved, .none (by simp [hmoved.output]) fun t => ?_⟩
    by_cases ht : t = .tunThread k
    · simp [ht, Between, hmoved.tun, hk, hpc]
    · exact hmoved.between ht
  | header b hk hmoved =>
    refine ⟨h.of_tun hmoved, .header (.tunThread k) (by simp [Between, hk]) hmoved.output
      fun t => ?_⟩
    by_cases ht : t = .tunThread k
    · simp [ht, Between, hmoved.tun]
    · rw [hmoved.between ht]
      simp [ht]
  | packet b hk hmoved =>
    refine ⟨h.of_tun hmoved, .packet (.tunThread k) (by simp [Between, hk]) hmoved.output
      fun t => ?_⟩
    by_cases ht : t = .tunThread k
    · simp [ht, Between, hmoved.tun]
    · rw [hmoved.between ht]
      simp [ht]

/-- **A step makes one append at most**, and at the right point of its call. -/
theorem Spawning.next (h : s.Spawning) (hstep : s.step a = some s') :
    s'.Spawning ∧ Appends s s' := by
  cases a with
  | establish =>
    simp only [step, Option.ite_none_right_eq_some, Option.some.injEq] at hstep
    obtain ⟨⟨hev, -⟩, rfl⟩ := hstep
    refine ⟨⟨fun j hj => h.fresh j (by simp only at hj; omega), ?_, ?_⟩, .none rfl fun t => ?_⟩
    · rintro k stage hk
      obtain ⟨rfl, -⟩ := EventPc.establish.inj hk
      simp
    · rintro k stage hk -
      obtain ⟨rfl, -⟩ := EventPc.establish.inj hk
      exact h.fresh _ le_rfl
    · cases t <;> simp [Between, hev]
  | callback =>
    simp only [step, Option.ite_none_right_eq_some, Option.some.injEq] at hstep
    obtain ⟨-, rfl⟩ := hstep
    exact ⟨h, .none rfl fun _ => Iff.rfl⟩
  | bufferEvent =>
    simp only [step, Option.ite_none_right_eq_some, Option.some.injEq] at hstep
    obtain ⟨-, rfl⟩ := hstep
    refine ⟨⟨h.fresh, h.current, h.unborn⟩, .none rfl fun t => ?_⟩
    cases t <;> exact Iff.rfl
  | eventThread => exact h.eventStep hstep
  | tunThread k => exact h.tunStep (tunStep_cases hstep)
  | packet k => exact h.tunStep (packetStep_cases hstep)

/-- The bytes of an append, where each thread writes by the call `w` gives it. -/
def appended (o : ByteOrder) (w : Sender → WriteCall) : Sender × AppendPart → Bytes
  | (t, .header) => o.toBytes (w t).l
  | (t, .packet) => (w t).packet

/-- The threads and the shared output agree. -/
structure AppendsAs (o : ByteOrder) (w : Sender → WriteCall) (s : ConnectionThreads)
    (q : SharedOutput) : Prop where
  bytes : q.bytes.map Prod.snd = s.output.flatMap (appended o w)
  between : ∀ t, s.Between t → ∃ n, q.pending t = some (n, w t)
  others : ∀ t, ¬ s.Between t → q.pending t = none

/-- A step without an append is matched by none. -/
private theorem AppendsAs.none {o : ByteOrder} {w : Sender → WriteCall} {q : SharedOutput}
    (h : AppendsAs o w s q) (hout : s'.output = s.output)
    (hbetween : ∀ t, s'.Between t ↔ s.Between t) : AppendsAs o w s' q := by
  refine ⟨by rw [hout]; exact h.bytes, fun t ht => ?_, fun t ht => ?_⟩
  · exact h.between t ((hbetween t).mp ht)
  · exact h.others t fun hb => ht ((hbetween t).mpr hb)

private theorem AppendsAs.header {o : ByteOrder} {w : Sender → WriteCall} {q : SharedOutput}
    {t : Sender} (h : AppendsAs o w s q) (ht : ¬ s.Between t)
    (hout : s'.output = s.output ++ [(t, .header)])
    (hbetween : ∀ u, s'.Between u ↔ u = t ∨ s.Between u) :
    ∃ q', q.step o (.header t (w t)) = some q' ∧ AppendsAs o w s' q' := by
  refine ⟨_, SharedOutput.step_header (h.others t ht), ?_, fun u hu => ?_, fun u hu => ?_⟩
  · simp [hout, h.bytes, appended, SharedOutput.tag, Function.comp_def]
  · by_cases hut : u = t
    · subst hut
      exact ⟨q.calls.length, by simp⟩
    · obtain ⟨n, hn⟩ := h.between u (((hbetween u).mp hu).resolve_left hut)
      exact ⟨n, by simpa [hut] using hn⟩
  · obtain ⟨hut, hub⟩ := not_or.mp fun hor => hu ((hbetween u).mpr hor)
    simpa [hut] using h.others u hub

private theorem AppendsAs.packet {o : ByteOrder} {w : Sender → WriteCall} {q : SharedOutput}
    {t : Sender} (h : AppendsAs o w s q) (ht : s.Between t)
    (hout : s'.output = s.output ++ [(t, .packet)])
    (hbetween : ∀ u, s'.Between u ↔ u ≠ t ∧ s.Between u) :
    ∃ q', q.step o (.packet t) = some q' ∧ AppendsAs o w s' q' := by
  obtain ⟨n, hn⟩ := h.between t ht
  refine ⟨_, SharedOutput.step_packet hn, ?_, fun u hu => ?_, fun u hu => ?_⟩
  · simp [hout, h.bytes, appended, SharedOutput.tag, Function.comp_def]
  · obtain ⟨hut, hub⟩ := (hbetween u).mp hu
    obtain ⟨m, hm⟩ := h.between u hub
    exact ⟨m, by simpa [hut] using hm⟩
  · by_cases hut : u = t
    · simp [hut]
    · have hub : ¬ s.Between u := fun hb => hu ((hbetween u).mpr ⟨hut, hb⟩)
      simpa [hut] using h.others u hub

/-- **The threads of a connection write as the shared output has it.** Whatever the calls of
the threads write, every run of the threads is matched by a run of the shared output. -/
theorem appends_simulated (o : ByteOrder) (w : Sender → WriteCall)
    (h : connectionThreads.Reachable s) :
    ∃ q, (sharedOutput o).Reachable q ∧ AppendsAs o w s q := by
  obtain ⟨q, hq, -, has⟩ : ∃ q, (sharedOutput o).Reachable q ∧ s.Spawning ∧
      AppendsAs o w s q := by
    refine h.simulate (R := fun s q => s.Spawning ∧ AppendsAs o w s q) ?_ ?_
    · rintro s rfl
      refine ⟨_, rfl, ⟨fun _ _ => rfl, by simp, by simp⟩, rfl, ?_, fun _ _ => rfl⟩
      rintro (_ | k) ⟨_, ⟨⟩⟩
    · rintro s a s' q ⟨hs, has⟩ hstep
      obtain ⟨hs', happ⟩ := hs.next hstep
      cases happ with
      | none hout hbetween => exact ⟨q, .refl, hs', has.none hout hbetween⟩
      | header t ht hout hbetween =>
        obtain ⟨q', hq', has'⟩ := has.header ht hout hbetween
        exact ⟨q', .single ⟨.header t (w t), hq'⟩, hs', has'⟩
      | packet t ht hout hbetween =>
        obtain ⟨q', hq', has'⟩ := has.packet ht hout hbetween
        exact ⟨q', .single ⟨.packet t, hq'⟩, hs', has'⟩
  exact ⟨q, hq, has⟩

/-- A `DATA` response can come between the two appends of the `ESTABLISH` response. -/
example :
    (connectionThreads.replay {}
      (.establish :: .replicate 3 .eventThread ++ .replicate 4 (.tunThread 0) ++
        [.packet 0, .tunThread 0, .tunThread 0, .eventThread, .tunThread 0])).map (·.output) =
      some [(.eventThread, .header), (.tunThread 0, .header), (.eventThread, .packet),
        (.tunThread 0, .packet)] := by
  decide

end ConnectionThreads

end SplendidLinker
