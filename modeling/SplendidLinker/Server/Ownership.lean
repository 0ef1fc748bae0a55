import SplendidLinker.Foundations.Family
import SplendidLinker.Message.FieldSequences
import SplendidLinker.Server.Connection

/-!
# Who owns an interface

Each connection of the server owns the interface its pointer refers to, and deletes it when it
is destroyed. The interfaces and utun sockets that exist should be exactly those that some live
connection refers to (`Owned`), however the requests, the outcomes of the constructor and the
disconnects follow each other.

Two paths of the read callback lose an interface. After an error of the constructor it returns
without deleting the object, whose socket stays open; and a second `ESTABLISH` request replaces
the pointer without deleting what it referred to. Nothing else loses one, and what is lost is
never found again (`Lost`), so the law is kept exactly by the runs in which each interface is
created without an error on a connection that has none (`owned_iff`).
-/

namespace SplendidLinker

open Foundations

/-- Where a TUN thread is. -/
inductive TunThread
  /-- It has not asked the connection for its interface yet. -/
  | started
  /-- In `dispatchUTUNPacket` of the interface `n`. -/
  | pumping (n : ℕ)
  | ended
  deriving DecidableEq, Repr

/-- The life of an `SLConnection`. -/
inductive Lifetime
  | notAccepted
  | live
  | destroyed
  deriving DecidableEq, Repr

/-- A connection and the interfaces that have been created for it. Interfaces are numbered in the
order of their creation, and a utun socket has the number of its interface. -/
structure OwningConnection where
  life : Lifetime := .notAccepted
  conn : SLConnection := {}
  /-- How many interfaces have been created. -/
  created : ℕ := 0
  /-- The interfaces that exist. -/
  objects : List (ℕ × SLUTUNInterface) := []
  /-- The utun sockets that are open. -/
  sockets : List ℕ := []
  /-- The interface `mUTUNInterface` refers to. -/
  current : Option ℕ := none
  /-- The TUN threads, in the order of their start. -/
  threads : List TunThread := []

/-- What can happen to a connection. -/
inductive OwnerAction
  /-- The connection is accepted. -/
  | accept
  /-- A message is received; `sys` are the results of the system calls of the constructor. -/
  | message (msg : TunnelMessage) (sys : SysCalls)
  /-- An event is reported on the bufferevent. -/
  | event
  /-- `resume` has returned, and the connection is deleted. -/
  | destroy
  /-- The TUN thread `k` goes on. -/
  | tunThread (k : ℕ)

namespace OwningConnection

/-- What an action of the event thread does to the interfaces. A constructor that returns has
opened a utun socket and does not close it. -/
def record (g : OwningConnection) : Action → OwningConnection
  | .create utun _ =>
    { g with
      created := g.created + 1
      objects := g.objects ++ [(g.created, utun)]
      sockets := g.sockets ++ [g.created] }
  | .install _ => { g with current := some (g.created - 1) }
  | .startTunThread => { g with threads := g.threads ++ [.started] }
  | _ => g

/-- The connection becomes `conn`: what its trace has gained is recorded. -/
def follow (g : OwningConnection) (conn : SLConnection) : OwningConnection :=
  (conn.trace.drop g.conn.trace.length).foldl record { g with conn := conn }

/-- The dispatch of a message. -/
def message (pb : Protobuf) (o : ByteOrder) (g : OwningConnection) (msg : TunnelMessage)
    (sys : SysCalls) : OwningConnection :=
  g.follow (g.conn.dispatch pb o sys msg)

/-- `~SLUTUNInterface` and the release of the interface `n`: it closes the socket that is stored
in the object. -/
def deleteInterface (g : OwningConnection) (n : ℕ) : OwningConnection :=
  { g with
    objects := g.objects.filter fun x => x.1 ≠ n
    sockets := if g.objects.any fun x => x.1 = n ∧ x.2.mUTUNSocket.isSome then
        g.sockets.filter (· ≠ n)
      else g.sockets }

/-- `~SLConnection`. -/
def destroy (g : OwningConnection) : OwningConnection :=
  match g.current with
  | none => { g with life := .destroyed }
  | some n => { g.deleteInterface n with life := .destroyed }

/-- The TUN thread `k` asks for the interface and dispatches it, or its dispatch returns. -/
def tunThread (g : OwningConnection) (k : ℕ) : Option OwningConnection :=
  match g.threads[k]? with
  | some .started =>
    some { g with threads := g.threads.set k (g.current.elim .ended .pumping) }
  | some (.pumping _) => some { g with threads := g.threads.set k .ended }
  | _ => none

/-- One step of a connection. -/
def step (pb : Protobuf) (o : ByteOrder) (g : OwningConnection) :
    OwnerAction → Option OwningConnection
  | .accept => if g.life = .notAccepted then some { g with life := .live } else none
  | .message msg sys =>
    if g.life = .live ∧ g.conn.freed = false ∧ g.conn.running = true then
      some (g.message pb o msg sys)
    else none
  | .event =>
    if g.life = .live ∧ g.conn.freed = false ∧ g.conn.running = true then
      some { g with conn := g.conn.cbEvent }
    else none
  | .destroy =>
    if g.life = .live ∧ g.conn.freed = true ∧ g.conn.running = true then some g.destroy else none
  | .tunThread k => g.tunThread k

/-- The interfaces that a live connection refers to. -/
def referenced (g : OwningConnection) : List ℕ :=
  if g.life = .live then g.current.toList else []

/-- The ownership law of a connection. -/
structure Owned (g : OwningConnection) : Prop where
  atMostOne : g.objects.length ≤ 1
  /-- The interfaces that exist are those referred to; after a destruction, there are none. -/
  objects : g.objects.map Prod.fst = g.referenced
  sockets : g.sockets = g.referenced
  pumped : ∀ n ∈ g.objects.map Prod.fst, g.threads.count (.pumping n) ≤ 1

/-- The next step does not create an interface with an error, or on a connection that has one. -/
def CreatesOnce (g : OwningConnection) : OwnerAction → Prop
  | .message msg sys => msg.IsRequest .establish → ∀ r, SLUTUNInterface.construct sys = some r →
      r.errs = [] ∧ g.conn.mUTUNInterface = none
  | _ => True

end OwningConnection

/-- A connection with the interfaces created for it. -/
def owningConnection (pb : Protobuf) (o : ByteOrder) :
    TransitionSystem OwningConnection OwnerAction where
  init g := g = {}
  step := OwningConnection.step pb o

/-- A server with any number of connections. `std::terminate` ends all of them; that the others
can go on here only adds runs. -/
def owningServer (pb : Protobuf) (o : ByteOrder) :
    TransitionSystem (ℕ → OwningConnection) (ℕ × OwnerAction) :=
  (owningConnection pb o).family ℕ

namespace OwningConnection

variable {pb : Protobuf} {o : ByteOrder} {g g' : OwningConnection} {a : OwnerAction}
  {msg : TunnelMessage} {sys : SysCalls}

/-! ### What a message does to the interfaces -/

/-- The outcomes of a message for the interfaces. -/
inductive Messaged (g : OwningConnection) (msg : TunnelMessage) (sys : SysCalls) :
    OwningConnection → Prop
  /-- No interface is created. -/
  | kept (conn : SLConnection) (hptr : conn.mUTUNInterface = g.conn.mUTUNInterface)
      (hno : msg.IsRequest .establish → SLUTUNInterface.construct sys = none) :
      Messaged g msg sys { g with conn := conn }
  /-- An interface is created with an error. -/
  | failed (conn : SLConnection) (hptr : conn.mUTUNInterface = g.conn.mUTUNInterface)
      (hmsg : msg.IsRequest .establish) (r : Constructed)
      (hr : SLUTUNInterface.construct sys = some r) (herr : r.errs ≠ []) :
      Messaged g msg sys { g with
        conn := conn
        created := g.created + 1
        objects := g.objects ++ [(g.created, r.utun)]
        sockets := g.sockets ++ [g.created] }
  /-- An interface is created without an error and installed. -/
  | installed (conn : SLConnection) (hmsg : msg.IsRequest .establish) (r : Constructed)
      (hptr : conn.mUTUNInterface = some r.utun)
      (hr : SLUTUNInterface.construct sys = some r) (herr : r.errs = []) :
      Messaged g msg sys { g with
        conn := conn
        created := g.created + 1
        objects := g.objects ++ [(g.created, r.utun)]
        sockets := g.sockets ++ [g.created]
        current := some g.created
        threads := g.threads ++ [.started] }

private theorem follow_eq {conn : SLConnection} (new : List Action)
    (h : conn.trace = g.conn.trace ++ new) :
    g.follow conn = new.foldl record { g with conn := conn } := by
  rw [follow, h, List.drop_left]

/-- **Every message has one of the three outcomes.** -/
theorem message_spec (pb : Protobuf) (o : ByteOrder) (g : OwningConnection) (msg : TunnelMessage)
    (sys : SysCalls) : Messaged g msg sys (g.message pb o msg sys) := by
  have hspec := SLConnection.dispatch_spec pb o sys g.conn msg
  rw [message]
  generalize g.conn.dispatch pb o sys msg = conn at hspec ⊢
  cases hspec with
  | ignored hno =>
    rw [follow_eq [] (List.append_nil _).symm]
    exact .kept _ rfl fun hmsg => absurd hmsg.2 (hno hmsg.1).1
  | terminated ht hc hs =>
    rw [follow_eq [.terminate] rfl]
    exact .kept _ rfl fun _ => hs
  | notCreated ht hc r hr herr =>
    rw [follow_eq [.create r.utun r.errs] rfl]
    exact .failed (g.conn.act (.create r.utun r.errs)) rfl ⟨ht, hc⟩ r hr herr
  | established ht hc r hr herr =>
    rw [follow_eq [.create r.utun r.errs, .install r.utun, .startTunThread,
      .send (pb.serializeToArray (SLConnection.establishResponse msg))
        (UInt32.ofNat (SLConnection.establishResponse msg).byteSize)] (by
          simp [SLConnection.writePacket, SLConnection.setMUTUNInterface, SLConnection.act])]
    exact .installed _ ⟨ht, hc⟩ r rfl hr herr
  | calledNull ht hc hu =>
    rw [follow_eq [.nullDeref] rfl]
    exact .kept _ rfl fun hmsg => absurd (hc.symm.trans hmsg.2) (by decide)
  | dereferenced ht hc hu =>
    rw [follow_eq [.nullDeref] rfl]
    exact .kept _ rfl fun hmsg => absurd (hc.symm.trans hmsg.2) (by decide)
  | written ht hc utun hu =>
    rw [follow_eq [.tunWrite msg.packetData] rfl]
    exact .kept _ rfl fun hmsg => absurd (hc.symm.trans hmsg.2) (by decide)

/-- What a step does. -/
inductive Stepped (g : OwningConnection) : OwnerAction → OwningConnection → Prop
  | accepted (hlife : g.life = .notAccepted) : Stepped g .accept { g with life := .live }
  | messaged (msg : TunnelMessage) (sys : SysCalls) (hlive : g.life = .live)
      (g' : OwningConnection) (h : Messaged g msg sys g') : Stepped g (.message msg sys) g'
  | event (hlive : g.life = .live) : Stepped g .event { g with conn := g.conn.cbEvent }
  | destroyed (hlive : g.life = .live) : Stepped g .destroy g.destroy
  | ran (k : ℕ) (threads : List TunThread) (hlen : threads.length = g.threads.length) :
      Stepped g (.tunThread k) { g with threads := threads }

theorem step_cases (hstep : g.step pb o a = some g') : Stepped g a g' := by
  cases a with
  | accept =>
    simp only [step, Option.ite_none_right_eq_some, Option.some.injEq] at hstep
    obtain ⟨hlife, rfl⟩ := hstep
    exact .accepted hlife
  | message msg sys =>
    simp only [step, Option.ite_none_right_eq_some, Option.some.injEq] at hstep
    obtain ⟨⟨hlive, -⟩, rfl⟩ := hstep
    exact .messaged msg sys hlive _ (message_spec pb o g msg sys)
  | event =>
    simp only [step, Option.ite_none_right_eq_some, Option.some.injEq] at hstep
    obtain ⟨⟨hlive, -⟩, rfl⟩ := hstep
    exact .event hlive
  | destroy =>
    simp only [step, Option.ite_none_right_eq_some, Option.some.injEq] at hstep
    obtain ⟨⟨hlive, -⟩, rfl⟩ := hstep
    exact .destroyed hlive
  | tunThread k =>
    simp only [step, tunThread] at hstep
    split at hstep
    case h_1 =>
      rw [← Option.some.inj hstep]
      exact .ran k _ List.length_set
    case h_2 =>
      rw [← Option.some.inj hstep]
      exact .ran k _ List.length_set
    case h_3 => cases hstep

@[simp]
theorem destroy_life : g.destroy.life = .destroyed := by
  rw [destroy]
  split <;> rfl

@[simp]
theorem destroy_created : g.destroy.created = g.created := by
  rw [destroy]
  split <;> rfl

/-- The connection deletes the interface it refers to, and no other. -/
theorem mem_destroy {x : ℕ × SLUTUNInterface} :
    x ∈ g.destroy.objects ↔ x ∈ g.objects ∧ g.current ≠ some x.1 := by
  rw [destroy]
  cases g.current with
  | none => simp
  | some n =>
    simp only [deleteInterface, List.mem_filter, decide_eq_true_eq, ne_eq, Option.some.injEq]
    exact and_congr_right fun _ => not_congr eq_comm

/-! ### Nothing is lost by other steps -/

/-- A connection that has lost nothing: no interface, or one with its socket and its thread. -/
inductive Tidy (g : OwningConnection) : Prop
  | empty (hobjects : g.objects = []) (hsockets : g.sockets = [])
      (hcurrent : g.life ≠ .destroyed →
        g.current = none ∧ g.conn.mUTUNInterface = none ∧ g.threads = [])
  | single (n : ℕ) (utun : SLUTUNInterface) (thread : TunThread) (hlive : g.life = .live)
      (hobjects : g.objects = [(n, utun)]) (hsockets : g.sockets = [n])
      (hcurrent : g.current = some n) (hptr : g.conn.mUTUNInterface = some utun)
      (hsocket : utun.mUTUNSocket.isSome = true) (hthreads : g.threads = [thread])

/-- A tidy connection is owned. -/
theorem Tidy.owned (h : g.Tidy) : g.Owned := by
  cases h with
  | empty hobjects hsockets hcurrent =>
    have href : g.referenced = [] := by
      rw [referenced]
      split_ifs with hlive
      · simp [hcurrent (by simp [hlive])]
      · rfl
    exact ⟨by simp [hobjects], by simp [hobjects, href], by simp [hsockets, href],
      by simp [hobjects]⟩
  | single n utun thread hlive hobjects hsockets hcurrent hptr hsocket hthreads =>
    have href : g.referenced = [n] := by simp [referenced, hlive, hcurrent]
    refine ⟨by simp [hobjects], by simp [hobjects, href], by simp [hsockets, href], fun m _ => ?_⟩
    rw [hthreads]
    exact List.count_le_length

/-- An interface that is created without an error stores its socket. -/
theorem isSome_of_construct {r : Constructed} (hr : SLUTUNInterface.construct sys = some r)
    (herr : r.errs = []) : r.utun.mUTUNSocket.isSome = true := by
  rw [SLUTUNInterface.construct] at hr
  split_ifs at hr
  · rw [← Option.some.inj hr] at herr
    cases herr
  all_goals
    rw [← Option.some.inj hr]
    rfl

/-- **A step that creates no interface too many keeps the connection tidy.** -/
theorem Tidy.next (h : g.Tidy) (hguard : g.CreatesOnce a) (hstep : g.step pb o a = some g') :
    g'.Tidy := by
  cases step_cases hstep with
  | accepted hlife =>
    cases h with
    | empty hobjects hsockets hcurrent =>
      exact .empty hobjects hsockets fun _ => hcurrent (by simp [hlife])
    | single n utun thread hlive => simp [hlife] at hlive
  | messaged msg sys hlive g' hmsg =>
    cases hmsg with
    | kept conn hptr hno =>
      cases h with
      | empty hobjects hsockets hcurrent =>
        refine .empty hobjects hsockets fun hlife => ?_
        obtain ⟨hc, hp, ht⟩ := hcurrent hlife
        exact ⟨hc, hptr.trans hp, ht⟩
      | single n utun thread hlive hobjects hsockets hcurrent hp hsocket hthreads =>
        exact .single n utun thread hlive hobjects hsockets hcurrent (hptr.trans hp) hsocket
          hthreads
    | failed conn hptr hest r hr herr => exact absurd (hguard hest r hr).1 herr
    | installed conn hest r hptr hr herr =>
      have hnone := (hguard hest r hr).2
      cases h with
      | empty hobjects hsockets hcurrent =>
        obtain ⟨-, -, ht⟩ := hcurrent (by simp [hlive])
        exact .single g.created r.utun .started hlive (by simp [hobjects]) (by simp [hsockets]) rfl
          hptr (isSome_of_construct hr herr) (by simp [ht])
      | single n utun thread hlive hobjects hsockets hcurrent hp => simp [hnone] at hp
  | event hlive =>
    cases h with
    | empty hobjects hsockets hcurrent => exact .empty hobjects hsockets hcurrent
    | single n utun thread hlive hobjects hsockets hcurrent hp hsocket hthreads =>
      exact .single n utun thread hlive hobjects hsockets hcurrent hp hsocket hthreads
  | destroyed hlive =>
    cases h with
    | empty hobjects hsockets hcurrent =>
      rw [destroy, (hcurrent (by simp [hlive])).1]
      exact .empty hobjects hsockets fun hlife => absurd rfl hlife
    | single n utun thread hlive hobjects hsockets hcurrent hp hsocket hthreads =>
      rw [destroy, hcurrent]
      exact .empty (by simp [deleteInterface, hobjects])
        (by simp [deleteInterface, hobjects, hsockets, hsocket]) fun hlife => absurd rfl hlife
  | ran k threads hlen =>
    cases h with
    | empty hobjects hsockets hcurrent =>
      refine .empty hobjects hsockets fun hlife => ?_
      obtain ⟨hc, hp, ht⟩ := hcurrent hlife
      rw [ht] at hlen
      exact ⟨hc, hp, List.length_eq_zero_iff.mp hlen⟩
    | single n utun thread hlive hobjects hsockets hcurrent hp hsocket hthreads =>
      rw [hthreads] at hlen
      obtain ⟨thread', hthread'⟩ := List.length_eq_one_iff.mp hlen
      exact .single n utun thread' hlive hobjects hsockets hcurrent hp hsocket hthread'

/-! ### What is lost stays lost -/

/-- An interface exists to which the connection does not refer. -/
def Lost (g : OwningConnection) : Prop :=
  g.life ≠ .notAccepted ∧ ∃ x ∈ g.objects, x.1 < g.created ∧ x.1 ∉ g.referenced

theorem Owned.not_lost (h : g.Owned) : ¬ g.Lost := by
  rintro ⟨-, x, hx, -, hno⟩
  rw [← h.objects] at hno
  exact hno (List.mem_map_of_mem hx)

/-- **What is lost stays lost.** -/
theorem Lost.next (h : g.Lost) (hstep : g.step pb o a = some g') : g'.Lost := by
  obtain ⟨hlife, x, hx, hfresh, hno⟩ := h
  cases step_cases hstep with
  | accepted hlife' => exact absurd hlife' hlife
  | messaged msg sys hlive g' hmsg =>
    cases hmsg with
    | kept conn hptr hno' => exact ⟨hlife, x, hx, hfresh, hno⟩
    | failed conn hptr hest r hr herr =>
      exact ⟨hlife, x, List.mem_append_left _ hx, Nat.lt_succ_of_lt hfresh, hno⟩
    | installed conn hest r hptr hr herr =>
      refine ⟨hlife, x, List.mem_append_left _ hx, Nat.lt_succ_of_lt hfresh, ?_⟩
      simp [referenced, hlive, hfresh.ne]
  | event hlive => exact ⟨hlife, x, hx, hfresh, hno⟩
  | destroyed hlive =>
    -- the connection deletes what it refers to
    have hcurrent : g.current ≠ some x.1 := by
      intro hc
      simp [referenced, hlive, hc] at hno
    exact ⟨by simp, x, mem_destroy.mpr ⟨hx, hcurrent⟩, by rwa [destroy_created],
      by simp [referenced]⟩
  | ran k threads hlen => exact ⟨hlife, x, hx, hfresh, hno⟩

/-- What holds along every run: the numbers are in order, and the pointer refers to the current
interface. -/
structure Bookkeeping (g : OwningConnection) : Prop where
  fresh : ∀ x ∈ g.objects, x.1 < g.created
  current_none : g.life ≠ .destroyed → g.current = none → g.conn.mUTUNInterface = none
  current_some : g.life ≠ .destroyed → ∀ n, g.current = some n →
    ∃ utun, (n, utun) ∈ g.objects ∧ g.conn.mUTUNInterface = some utun

/-- A new interface gets a new number. -/
theorem Bookkeeping.fresh_append (h : g.Bookkeeping) (utun : SLUTUNInterface) :
    ∀ x ∈ g.objects ++ [(g.created, utun)], x.1 < g.created + 1 := by
  intro x hx
  rcases List.mem_append.mp hx with hx | hx
  · exact Nat.lt_succ_of_lt (h.fresh x hx)
  · rw [List.mem_singleton.mp hx]
    exact Nat.lt_succ_self _

theorem Bookkeeping.next (h : g.Bookkeeping) (hstep : g.step pb o a = some g') :
    g'.Bookkeeping := by
  cases step_cases hstep with
  | accepted hlife =>
    exact ⟨h.fresh, fun _ => h.current_none (by simp [hlife]),
      fun _ => h.current_some (by simp [hlife])⟩
  | messaged msg sys hlive g' hmsg =>
    have hnone := h.current_none (by simp [hlive])
    have hsome := h.current_some (by simp [hlive])
    cases hmsg with
    | kept conn hptr hno =>
      refine ⟨h.fresh, fun _ hc => hptr.trans (hnone hc), fun _ n hn => ?_⟩
      obtain ⟨utun, hmem, hp⟩ := hsome n hn
      exact ⟨utun, hmem, hptr.trans hp⟩
    | failed conn hptr hest r hr herr =>
      refine ⟨h.fresh_append r.utun, fun _ hc => hptr.trans (hnone hc), fun _ n hn => ?_⟩
      obtain ⟨utun, hmem, hp⟩ := hsome n hn
      exact ⟨utun, List.mem_append_left _ hmem, hptr.trans hp⟩
    | installed conn hest r hptr hr herr =>
      refine ⟨h.fresh_append r.utun, fun _ hc => absurd hc (by simp), fun _ n hn => ?_⟩
      obtain rfl := Option.some.inj hn
      exact ⟨r.utun, by simp, hptr⟩
  | event hlive =>
    exact ⟨h.fresh, fun _ => h.current_none (by simp [hlive]),
      fun _ => h.current_some (by simp [hlive])⟩
  | destroyed hlive =>
    refine ⟨fun x hx => ?_, fun hno => absurd destroy_life hno, fun hno => absurd destroy_life hno⟩
    rw [destroy_created]
    exact h.fresh x (mem_destroy.mp hx).1
  | ran k threads hlen => exact ⟨h.fresh, h.current_none, h.current_some⟩

/-- **A step that creates an interface too many loses one.** -/
theorem Bookkeeping.lost (h : g.Bookkeeping) (hstep : g.step pb o a = some g')
    (hguard : ¬ g.CreatesOnce a) : g'.Lost := by
  cases step_cases hstep with
  | messaged msg sys hlive g' hmsg =>
    simp only [CreatesOnce, not_forall] at hguard
    obtain ⟨hest, r, hr, hbad⟩ := hguard
    cases hmsg with
    | kept conn hptr hno => simp [hno hest] at hr
    | failed conn hptr _ r' hr' herr =>
      -- the new interface is not referred to
      refine ⟨by simp [hlive], (g.created, r'.utun), by simp, Nat.lt_succ_self _, ?_⟩
      have hcurrent : g.current ≠ some g.created := by
        intro hc
        obtain ⟨utun, hmem, -⟩ := h.current_some (by simp [hlive]) _ hc
        exact absurd (h.fresh _ hmem) (lt_irrefl _)
      simpa [referenced, hlive] using hcurrent
    | installed conn _ r' hptr hr' herr =>
      -- the interface there was is no longer referred to
      obtain rfl : r' = r := Option.some.inj (hr'.symm.trans hr)
      have hsome : g.conn.mUTUNInterface ≠ none := fun hnone => hbad ⟨herr, hnone⟩
      obtain ⟨n, hn⟩ := Option.ne_none_iff_exists'.mp fun hc =>
        hsome (h.current_none (by simp [hlive]) hc)
      obtain ⟨utun, hmem, -⟩ := h.current_some (by simp [hlive]) n hn
      have hlt : n < g.created := h.fresh _ hmem
      refine ⟨by simp [hlive], (n, utun), List.mem_append_left _ hmem, Nat.lt_succ_of_lt hlt, ?_⟩
      simp [referenced, hlive, hlt.ne]
  | _ => exact absurd trivial hguard

end OwningConnection

/-- **Interfaces are owned exactly in the runs in which each is created without an error, on a
connection that has none.** -/
theorem owned_iff {pb : Protobuf} {o : ByteOrder} {s : ℕ → OwningConnection}
    (h : (owningServer pb o).Reachable s) :
    (∀ i, (s i).Owned) ↔
      (owningServer pb o).ReachableUnder (fun s p => (s p.1).CreatesOnce p.2) s := by
  constructor
  · intro howned
    refine TransitionSystem.reachableUnder_family (M := OwningConnection.Lost) ?_ ?_ h
      fun i => (howned i).not_lost
    · intro g a g' hreach hstep hguard
      have hbook : g.Bookkeeping := by
        refine hreach.invariant (I := OwningConnection.Bookkeeping) ?_
          fun g a g' hg hs => hg.next hs
        rintro g rfl
        exact ⟨by simp, fun _ _ => rfl, by simp⟩
      exact hbook.lost hstep hguard
    · exact fun g a g' hstep hlost => hlost.next hstep
  · intro hunder i
    have htidy : (s i).Tidy := by
      refine (hunder.component i).invariant (I := OwningConnection.Tidy) ?_
        fun g a g' hg hguard hs => hg.next hguard hs
      rintro g rfl
      exact .empty rfl rfl fun _ => ⟨rfl, rfl, rfl⟩
    exact htidy.owned

/-- An `ESTABLISH` request. -/
private def request : TunnelMessage :=
  { type := .known .request, messageCode := .known .establish }

/-- One connection that creates an interface, and whose TUN thread pumps it. -/
theorem owned_iff_one_interface :
    ∃ s : ℕ → OwningConnection, (s 0).objects.map Prod.fst = [0] ∧
      (s 0).threads = [.pumping 0] ∧ ∀ i, (s i).Owned := by
  have hinit : (owningServer wireFormat .little).init fun _ => {} := fun _ => rfl
  have hcreate : SLUTUNInterface.construct .succeed = some ⟨⟨some 5, "utun0"⟩, [], [6]⟩ := by
    decide
  have hguard (g : OwningConnection) (hg : g.conn.mUTUNInterface = none) :
      g.CreatesOnce (.message request .succeed) := by
    intro _ r hr
    obtain rfl := Option.some.inj (hcreate.symm.trans hr)
    exact ⟨rfl, hg⟩
  have h1 := TransitionSystem.ReachableUnder.step (l := (0, .accept))
    (G := fun s p => (s p.1).CreatesOnce p.2) (.init hinit) trivial rfl
  have h2 := h1.step (l := (0, .message request .succeed)) (hguard _ rfl) rfl
  have h3 := h2.step (l := (0, OwnerAction.tunThread 0)) trivial rfl
  exact ⟨_, by decide, by decide, (owned_iff h3.reachable).mpr h3⟩

/-- A constructor that fails leaves an interface without an owner, and so does a second request,
even once the connection is destroyed. -/
theorem not_owned :
    (∃ s, (owningServer wireFormat .little).Reachable s ∧ ¬ (s 0).Owned ∧
      (s 0).life = .live ∧ (s 0).referenced = []) ∧
    ∃ s, (owningServer wireFormat .little).Reachable s ∧ ¬ (s 0).Owned ∧
      (s 0).life = .destroyed := by
  have hinit : (owningServer wireFormat .little).init fun _ => {} := fun _ => rfl
  constructor
  · have hrun : ((owningServer wireFormat .little).replay (fun _ => {}) [(0, .accept),
        (0, .message request { SysCalls.succeed with connectCtl := -1 })]).map
        (fun s => ((s 0).sockets, (s 0).life, (s 0).referenced)) = some ([0], .live, []) := by
      decide
    obtain ⟨s, hreach, heq⟩ := TransitionSystem.exists_reachable_of_replay hinit hrun
    simp only [Prod.mk.injEq] at heq
    refine ⟨s, hreach, fun h => ?_, heq.2.1, heq.2.2⟩
    have hsockets := h.sockets
    rw [heq.1, heq.2.2] at hsockets
    cases hsockets
  · have hrun : ((owningServer wireFormat .little).replay (fun _ => {}) [(0, .accept),
        (0, .message request .succeed), (0, .message request .succeed), (0, .event),
        (0, .destroy)]).map
        (fun s => ((s 0).sockets, (s 0).life, (s 0).referenced)) = some ([0], .destroyed, []) := by
      decide
    obtain ⟨s, hreach, heq⟩ := TransitionSystem.exists_reachable_of_replay hinit hrun
    simp only [Prod.mk.injEq] at heq
    refine ⟨s, hreach, fun h => ?_, heq.2.1⟩
    have hsockets := h.sockets
    rw [heq.1, heq.2.2] at hsockets
    cases hsockets

end SplendidLinker
