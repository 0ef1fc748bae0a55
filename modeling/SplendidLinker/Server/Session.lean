import SplendidLinker.Foundations.EventLog
import SplendidLinker.Server.Framing

/-!
# The session of a connection

The order in which a connection may do things is a rule on its trace (`SessionRule`): packets
go to an interface that an earlier `ESTABLISH` request on the same connection has installed,
and a `DATA` request that comes without one is followed by nothing.

The read callback keeps no session state besides the interface pointer, and the `DATA` case
of its dispatch does not look at it, where the destructor of the connection does.
`sessionOrder_iff` says what this leaves: a run keeps the rule exactly as long as no `DATA`
request is dispatched while the pointer is null. The peer decides that, and
`not_sessionOrder` is a peer that sends `DATA` first.
-/

namespace SplendidLinker

open Foundations

/-- An `ESTABLISH` request has been parsed and has installed an interface. -/
def Installed (pb : Protobuf) (log : List Action) : Prop :=
  ∃ payload size utun, [.parse payload size, .create utun [], .install utun] <:+: log ∧
    (pb.parseFromArray payload size).2.IsRequest .establish

/-- The last action was to parse a `DATA` request that finds no interface installed. -/
def Rejecting (pb : Protobuf) (log : List Action) : Prop :=
  ∃ pre payload size, log = pre ++ [.parse payload size] ∧
    (pb.parseFromArray payload size).2.IsRequest .data ∧ ¬ Installed pb pre

/-- The session rule: which action may follow which trace. -/
def SessionRule (pb : Protobuf) (log : List Action) : Action → Prop
  | .nullDeref => False
  | .tunWrite _ => Installed pb log
  | .parse _ _ => True
  | _ => ¬ Rejecting pb log

/-- A connection keeps the session order if its trace obeys the rule. -/
def SessionOrder (pb : Protobuf) (c : SLConnection) : Prop := Obeys (SessionRule pb) c.trace

/-- The next step dispatches no `DATA` request while the interface pointer is null. -/
def NoEarlyData (pb : Protobuf) (o : ByteOrder) (s : Link) : LinkAction → Prop
  | .deliver _ => s.conn.mUTUNInterface = none →
      ∀ chunk ∈ s.pending.head?, ∀ frame ∈ (hostLength o).next? (s.conn.input ++ chunk),
        ¬ (pb.parseFromArray frame.1 (sizeArg (UInt32.ofNat frame.1.length))).2.IsRequest .data
  | .event => True

variable {pb : Protobuf} {o : ByteOrder} {sys : SysCalls} {c : SLConnection} {chunks : List Bytes}

/-- An interface once installed stays in the log. -/
theorem Installed.append {log : List Action} (h : Installed pb log) (a : Action) :
    Installed pb (log ++ [a]) := by
  obtain ⟨payload, size, utun, hlog, hmsg⟩ := h
  exact ⟨payload, size, utun, hlog.trans (List.prefix_append log [a]).isInfix, hmsg⟩

/-- A log that ends with another request is not rejecting. -/
private theorem not_rejecting_of_parse {log : List Action} {payload : Bytes} {size : ℤ}
    (h : ¬ (pb.parseFromArray payload size).2.IsRequest .data) :
    ¬ Rejecting pb (log ++ [.parse payload size]) := by
  rintro ⟨pre, payload', size', heq, hdata, -⟩
  obtain ⟨-, hs⟩ := List.append_inj' heq rfl
  obtain ⟨rfl, rfl⟩ := Action.parse.inj (List.head_eq_of_cons_eq hs)
  exact h hdata

/-- A log that ends with something else than a parse is not rejecting. -/
private theorem not_rejecting_of_ne {log : List Action} {a : Action}
    (h : ∀ payload size, a ≠ .parse payload size) : ¬ Rejecting pb (log ++ [a]) := by
  rintro ⟨pre, payload, size, heq, -, -⟩
  obtain ⟨-, hs⟩ := List.append_inj' heq rfl
  exact h payload size (List.head_eq_of_cons_eq hs)

/-- What holds along a run that is spared early `DATA`: the session order is kept, and the
interface pointer is set only by an installation. -/
structure SessionInvariant (pb : Protobuf) (c : SLConnection) : Prop where
  order : SessionOrder pb c
  installed : c.mUTUNInterface ≠ none → Installed pb c.trace

/-- Dispatching a message keeps the session invariant, unless it is `DATA` without an
interface. -/
private theorem SessionInvariant.dispatch {payload rest : Bytes} (h : SessionInvariant pb c)
    (hguard : c.mUTUNInterface = none →
      ¬ (pb.parseFromArray payload (sizeArg (UInt32.ofNat payload.length))).2.IsRequest .data) :
    SessionInvariant pb ((c.received payload rest).dispatch pb o sys
      (pb.parseFromArray payload (sizeArg (UInt32.ofNat payload.length))).2) := by
  set size := sizeArg (UInt32.ofNat payload.length) with hsize
  set msg := (pb.parseFromArray payload size).2 with hmsg
  have hparsed : SessionInvariant pb (c.received payload rest) :=
    ⟨obeys_concat.mpr ⟨h.order, trivial⟩, fun hu => (h.installed hu).append _⟩
  have htrace : (c.received payload rest).trace = c.trace ++ [.parse payload size] := rfl
  -- the request just parsed is not one that the rule rejects
  have hestablish (hc : msg.messageCode = .known .establish) :
      ¬ Rejecting pb (c.received payload rest).trace := by
    rw [htrace]
    refine not_rejecting_of_parse fun hd => ?_
    rw [← hmsg, TunnelMessage.IsRequest, hc] at hd
    cases hd.2
  have hout := SLConnection.dispatch_spec pb o sys (c.received payload rest) msg
  generalize (c.received payload rest).dispatch pb o sys msg = c' at hout ⊢
  cases hout with
  | ignored => exact hparsed
  | terminated ht hc hs =>
    exact ⟨obeys_concat.mpr ⟨hparsed.order, hestablish hc⟩,
      fun hu => (hparsed.installed hu).append _⟩
  | notCreated ht hc r hs herr =>
    exact ⟨obeys_concat.mpr ⟨hparsed.order, hestablish hc⟩,
      fun hu => (hparsed.installed hu).append _⟩
  | established ht hc r hs herr =>
    -- parse, create and install are consecutive in the trace
    have hinst : Installed pb
        (c.trace ++ [.parse payload size] ++ [.create r.utun r.errs] ++ [.install r.utun]) :=
      ⟨payload, size, r.utun, ⟨c.trace, [], by simp [herr]⟩, ht, hc⟩
    refine ⟨?_, fun _ => (hinst.append .startTunThread).append _⟩
    refine obeys_concat.mpr ⟨obeys_concat.mpr ⟨obeys_concat.mpr ⟨obeys_concat.mpr
      ⟨hparsed.order, hestablish hc⟩, ?_⟩, ?_⟩, ?_⟩ <;>
    exact not_rejecting_of_ne (by simp)
  | calledNull ht hc hu => exact absurd ⟨ht, hc⟩ (hguard hu)
  | dereferenced ht hc hu => exact absurd ⟨ht, hc⟩ (hguard hu)
  | written ht hc utun hu =>
    have hu' : (c.received payload rest).mUTUNInterface ≠ none := by simp [hu]
    exact ⟨obeys_concat.mpr ⟨hparsed.order, hparsed.installed hu'⟩,
      fun hu => (hparsed.installed hu).append _⟩

/-- The session invariant holds along every run that is spared early `DATA`. -/
theorem sessionInvariant {s : Link}
    (h : (link pb o chunks).ReachableUnder (NoEarlyData pb o) s) : SessionInvariant pb s.conn := by
  refine h.invariant (I := fun s => SessionInvariant pb s.conn) ?_ fun s l s' hs hguard hstep => ?_
  · rintro s rfl
    exact ⟨obeys_nil, fun h => absurd rfl h⟩
  · obtain ⟨-, ⟨sys, chunk, pending, rfl, hp, rfl⟩ | ⟨rfl, rfl⟩⟩ := Link.step_cases hstep
    · rcases s.conn.receive_spec pb o sys chunk with ⟨-, hr⟩ | ⟨payload, rest, hn, hr⟩
      · rw [hr]
        exact ⟨hs.order, hs.installed⟩
      · rw [hr]
        exact SessionInvariant.dispatch (c := s.conn.arrive chunk) ⟨hs.order, hs.installed⟩
          fun hu => hguard hu chunk (by simp [hp]) (payload, rest) hn
    · exact ⟨hs.order, hs.installed⟩

/-- The trace of a step extends the trace before it. -/
theorem trace_grows {s s' : Link} {l : LinkAction} (h : s.step pb o l = some s') :
    s.conn.trace <+: s'.conn.trace := by
  obtain ⟨-, ⟨sys, chunk, pending, rfl, hp, rfl⟩ | ⟨rfl, rfl⟩⟩ := Link.step_cases h
  · rcases s.conn.receive_spec pb o sys chunk with ⟨-, hr⟩ | ⟨payload, rest, -, hr⟩
    · rw [hr]
      exact List.prefix_rfl
    · rw [hr]
      have hparse : s.conn.trace <+: (s.conn.received payload rest).trace :=
        List.prefix_append _ _
      exact hparse.trans (SLConnection.dispatch_trace pb o sys _ _)
  · exact List.prefix_rfl

/-- Early `DATA` calls `writePacket` through the null pointer. -/
theorem not_sessionOrder_of_earlyData {s s' : Link} {l : LinkAction}
    (h : s.step pb o l = some s') (hearly : ¬ NoEarlyData pb o s l) :
    ¬ SessionOrder pb s'.conn := by
  obtain ⟨-, ⟨sys, chunk, pending, rfl, hp, rfl⟩ | ⟨rfl, rfl⟩⟩ := Link.step_cases h
  · simp only [NoEarlyData, not_forall, not_not] at hearly
    obtain ⟨hu, chunk', hchunk, ⟨payload, rest⟩, hn, hdata⟩ := hearly
    obtain rfl : chunk = chunk' := by simpa [hp] using hchunk
    have hnone : ((s.conn.arrive chunk).received payload rest).mUTUNInterface = none := hu
    have hr : (s.conn.receive pb o sys chunk).trace =
        ((s.conn.arrive chunk).received payload rest).trace ++ [.nullDeref] := by
      rw [SLConnection.receive, SLConnection.cbBuffereventWillRead_of_some hn,
        SLConnection.dispatch_of_data_none hdata hnone]
      split_ifs <;> rfl
    rw [SessionOrder, hr]
    exact fun h => (obeys_concat.mp h).2
  · exact absurd trivial hearly

/-- **The session order is kept exactly as long as `DATA` does not come early.** -/
theorem sessionOrder_iff (pb : Protobuf) (o : ByteOrder) (chunks : List Bytes) {s : Link}
    (h : (link pb o chunks).Reachable s) :
    SessionOrder pb s.conn ↔ (link pb o chunks).ReachableUnder (NoEarlyData pb o) s := by
  constructor
  · intro horder
    refine TransitionSystem.reachableUnder_of_not_mark
      (M := fun s => ¬ SessionOrder pb s.conn) ?_ ?_ h (not_not.mpr horder)
    · exact fun s l s' _ hstep hearly => not_sessionOrder_of_earlyData hstep hearly
    · exact fun s l s' hstep hbad hgood => hbad (hgood.of_prefix (trace_grows hstep))
  · exact fun hguard => (sessionInvariant hguard).order

/-- A session that opens with `ESTABLISH` and goes on with `DATA`. -/
theorem sessionOrder_iff_establish_data :
    let conn :=
      [establishFrame, dataFrame].foldl (SLConnection.receive wireFormat .little .succeed) {}
    SessionOrder wireFormat conn ↔
      (link wireFormat .little [establishFrame, dataFrame]).ReachableUnder
        (NoEarlyData wireFormat .little) ⟨conn, establishFrame ++ dataFrame, []⟩ :=
  sessionOrder_iff wireFormat .little [establishFrame, dataFrame]
    (Link.reachable_deliver .succeed (Link.reachable_deliver .succeed (.init rfl) (by decide))
      (by decide))

/-- A peer that sends `DATA` first. -/
theorem not_sessionOrder :
    ¬ ∀ s, (link wireFormat .little [dataFrame]).Reachable s → SessionOrder wireFormat s.conn := by
  intro h
  have hreach : (link wireFormat .little [dataFrame]).Reachable _ :=
    Link.reachable_deliver .succeed (.init rfl) (by decide)
  exact h _ hreach [.parse [0x48, 3, 0x6A, 3, 0x62, 1, 0x45] 7] .nullDeref (by decide)

end SplendidLinker
