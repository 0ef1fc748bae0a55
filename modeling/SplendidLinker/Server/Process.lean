import Mathlib.Data.Fin.VecNotation
import SplendidLinker.Foundations.SharedFate
import SplendidLinker.Server.Service

/-!
# The process of a server

Each connection has a thread, an event base and an interface of its own. What all of them have in
common is the process, and the read callback of any of them can end it for all: by `std::terminate`,
if no utun socket is left, and through the null pointer, by a `DATA` request that has a packet for
an interface that is not there.

The connections have nothing else in common (`serverProcess_reachableUnder_iff`): the states of the
process are the families of states of the single connections, of which at most one has ended it. So
whether a server stays up is a matter of each peer alone, and it takes only one. `staysUp_iff` says
which peers are harmless if the system calls succeed: those that ask for an interface before they
send packets. `staysUp_iff_idle` says it for system calls that may fail: only those that do
neither. Both hold with any codec.
-/

namespace SplendidLinker

open Foundations TunnelMessage

/-! ### The connections of a process -/

namespace Link

/-- The last callback has ended the process. -/
def Ended (s : Link) : Prop := s.conn.running = false

instance : DecidablePred Ended := fun _ => inferInstanceAs (Decidable (_ = _))

end Link

/-- The process of a server with `n` connections; the peer of the connection `i` sends the bytes of
`chunks i`. -/
def serverProcess (pb : Protobuf) (o : ByteOrder) {n : ℕ} (chunks : Fin n → List Bytes) :
    TransitionSystem (Fin n → Link) (Fin n × LinkAction) :=
  .sharingFate (fun i => link pb o (chunks i)) Link.Ended

variable {pb : Protobuf} {o : ByteOrder} {n : ℕ} {chunks : Fin n → List Bytes}

/-- The callback that ends the process is the last one of its connection. -/
theorem Link.not_ended_of_step {chunks : List Bytes} {s s' : Link} {l : LinkAction}
    (h : (link pb o chunks).step s l = some s') : ¬ s.Ended := fun hended =>
  Bool.noConfusion ((Link.step_cases h).1.2.symm.trans hended)

theorem Link.not_ended_of_init {chunks : List Bytes} {s : Link} (h : (link pb o chunks).init s) :
    ¬ s.Ended := by
  rw [Ended, show s = ⟨{}, [], chunks⟩ from h]
  exact Bool.noConfusion

/-- **The connections share the process, and nothing else.** Whatever the bytes of the peers, and
whatever guard the callbacks run under: the process reaches exactly the families of states that the
single connections reach, as long as at most one of them has ended it. -/
theorem serverProcess_reachableUnder_iff {G : Link → LinkAction → Prop} {s : Fin n → Link} :
    (serverProcess pb o chunks).ReachableUnder (TransitionSystem.EachUnder G) s ↔
      (∀ i, (link pb o (chunks i)).ReachableUnder G (s i)) ∧
        ∀ i j, (s i).Ended → (s j).Ended → i = j :=
  TransitionSystem.reachableUnder_sharingFate_iff (fun _ _ _ _ => Link.not_ended_of_step)
    fun _ _ => Link.not_ended_of_init

/-- The process stays up exactly if no connection can end it on its own. -/
theorem serverProcess_staysUp_iff {G : Link → LinkAction → Prop} :
    (∀ s, (serverProcess pb o chunks).ReachableUnder (TransitionSystem.EachUnder G) s →
        ∀ i, ¬ (s i).Ended) ↔
      ∀ i s, (link pb o (chunks i)).ReachableUnder G s → ¬ s.Ended :=
  TransitionSystem.forall_not_dead_iff (fun _ _ _ _ => Link.not_ended_of_step)
    (fun _ _ => Link.not_ended_of_init) fun _ => ⟨_, rfl⟩

/-! ### Harmless peers -/

/-- A `DATA` request with a packet in it. -/
def SendsPacket (m : TunnelMessage) : Prop := m.IsRequest .data ∧ m.packetData ≠ []

instance : DecidablePred SendsPacket := fun _ => inferInstanceAs (Decidable (_ ∧ _))

/-- No packet is sent before the first `ESTABLISH` request. -/
def AsksFirst : List TunnelMessage → Prop
  | [] => True
  | m :: ms => m.IsRequest .establish ∨ ¬ SendsPacket m ∧ AsksFirst ms

theorem AsksFirst.of_append {ms ms' : List TunnelMessage} (h : AsksFirst (ms ++ ms')) :
    AsksFirst ms := by
  induction ms with
  | nil => trivial
  | cons m ms ih => exact h.imp_right fun hlater => ⟨hlater.1, ih hlater.2⟩

/-- Neither an `ESTABLISH` request nor one that sends a packet. -/
def Idle (m : TunnelMessage) : Prop := ¬ m.IsRequest .establish ∧ ¬ SendsPacket m

instance : DecidablePred Idle := fun _ => inferInstanceAs (Decidable (_ ∧ _))

/-- Idle messages make no difference to whether the peer asks first. -/
theorem asksFirst_append_of_idle {before ms : List TunnelMessage} (hidle : ∀ b ∈ before, Idle b) :
    AsksFirst (before ++ ms) ↔ AsksFirst ms := by
  induction before with
  | nil => rfl
  | cons b before ih =>
    obtain ⟨hestablish, hdata⟩ := hidle b (by simp)
    rw [List.cons_append, AsksFirst, or_iff_right hestablish, and_iff_right hdata]
    exact ih fun d hd => hidle d (List.mem_cons_of_mem b hd)

/-- Messages that are not all idle split at the first one that is not. -/
theorem exists_first_of_not_idle {ms : List TunnelMessage} (h : ¬ ∀ m ∈ ms, Idle m) :
    ∃ before m after, ms = before ++ m :: after ∧ (∀ b ∈ before, Idle b) ∧ ¬ Idle m := by
  push Not at h
  obtain ⟨m, hm, hnot⟩ := h
  have hfind : (ms.find? fun m => ¬ Idle m).isSome :=
    List.find?_isSome.mpr ⟨m, hm, by simpa using hnot⟩
  obtain ⟨first, hfirst⟩ := Option.isSome_iff_exists.mp hfind
  obtain ⟨hno, before, after, hsplit, hbefore⟩ := List.find?_eq_some_iff_append.mp hfirst
  exact ⟨before, first, after, hsplit, by simpa using hbefore, by simpa using hno⟩

/-- A peer that does not ask first sends a packet after idle messages. -/
theorem exists_packet_of_not_asksFirst {ms : List TunnelMessage} (h : ¬ AsksFirst ms) :
    ∃ before m after, ms = before ++ m :: after ∧ (∀ b ∈ before, Idle b) ∧ SendsPacket m := by
  have hsome : ¬ ∀ m ∈ ms, Idle m := by
    intro hall
    have hnil : AsksFirst (ms ++ []) := (asksFirst_append_of_idle hall).mpr trivial
    rw [List.append_nil] at hnil
    exact h hnil
  obtain ⟨before, m, after, rfl, hidle, hnot⟩ := exists_first_of_not_idle hsome
  refine ⟨before, m, after, rfl, hidle, ?_⟩
  rw [asksFirst_append_of_idle hidle, AsksFirst, not_or] at h
  by_contra hdata
  exact hnot ⟨h.1, hdata⟩

namespace Service

variable {a a' : Service} {inputs : List (TunnelMessage × Construction)}

/-- A service whose interfaces are created stays alive for a peer that asks first. -/
theorem alive_of_asksFirst (hsucceeded : ∀ i ∈ inputs, i.2 = .succeeded) (halive : a.alive = true)
    (hfirst : a.established = true ∨ AsksFirst (inputs.map Prod.fst))
    (h : service.replay a inputs = some a') : a'.alive = true := by
  induction inputs generalizing a with
  | nil => exact Option.some.inj h ▸ halive
  | cons i inputs ih =>
    obtain ⟨b, hstep, hrest⟩ := TransitionSystem.replay_cons_eq_some_iff.mp h
    obtain rfl : a.serve i.1 i.2 = b := by simpa [service, halive] using hstep
    rw [hsucceeded i (by simp), Service.serve.eq_def] at hrest
    have hlater := fun j hj => hsucceeded j (List.mem_cons_of_mem i hj)
    split_ifs at hrest with hestablish hdata hest hempty
    · refine ih hlater ?_ (.inl ?_) hrest
      · exact halive
      · rfl
    · refine ih hlater ?_ (.inl ?_) hrest
      · exact halive
      · exact hest
    · refine ih hlater halive (hfirst.imp_right fun hask => ?_) hrest
      exact (hask.resolve_left hestablish).2
    · -- the service is not established, so the peer would have had to ask first
      rcases hfirst with hest' | hask | ⟨hno, -⟩
      · exact absurd hest' hest
      · exact absurd hask hestablish
      · exact absurd ⟨hdata, hempty⟩ hno
    · refine ih hlater halive (hfirst.imp_right fun hask => ?_) hrest
      exact (hask.resolve_left hestablish).2

end Service

/-- All system calls of the callback succeed. -/
def Succeeds (_ : Link) : LinkAction → Prop
  | .deliver sys => sys.AllSucceed
  | .event => True

theorem SysCalls.AllSucceed.construction {sys : SysCalls} (h : sys.AllSucceed) :
    sys.construction = .succeeded := by
  obtain ⟨r, hr, herr⟩ := sys.allSucceed_iff.mp h
  rw [SysCalls.construction, hr]
  exact if_pos herr

namespace Link

variable {chunks : List Bytes} {ms before after : List TunnelMessage} {m : TunnelMessage} {s : Link}

/-- A peer that asks first does not end the process. -/
theorem not_ended_of_asksFirst (hms : ∀ m ∈ ms, m.Valid)
    (hcut : chunks.flatten = (hostLength o).stream (ms.map pb.serializeToArray))
    (hfirst : AsksFirst ms)
    (h : (link pb o chunks).ReachableUnder Succeeds s) : ¬ s.Ended := by
  obtain ⟨inputs, a, hinputs, hsucceeded, hreplay, href⟩ :=
    refines_service_under (P := (· = .succeeded)) (fun _ _ hsys => hsys.construction) h
  obtain ⟨rest, rfl, -⟩ := messages_of_sent hms hcut h.reachable
  have halive := Service.alive_of_asksFirst hsucceeded rfl
    (.inr (hinputs ▸ hfirst.of_append)) hreplay
  rw [Ended, href.alive, halive]
  exact Bool.noConfusion

/-- The frames of the messages, each in a chunk of its own. -/
def frames (pb : Protobuf) (o : ByteOrder) (ms : List TunnelMessage) : List Bytes :=
  ms.map fun m => (hostLength o).frame (pb.serializeToArray m)

theorem flatten_frames : (frames pb o ms).flatten =
    (hostLength o).stream (ms.map pb.serializeToArray) := by
  rw [frames, LengthCode.stream, List.flatMap_map, List.flatMap_def]

/-- A message that arrives in a chunk of its own is dispatched. -/
private theorem receive_frame_of_nil (sys : SysCalls) {c : SLConnection} (hin : c.input = [])
    (hm : m.Valid) : c.receive pb o sys ((hostLength o).frame (pb.serializeToArray m)) =
      (c.received (pb.serializeToArray m) []).dispatch pb o sys m := by
  have hnext : (hostLength o).next? (c.input ++ (hostLength o).frame (pb.serializeToArray m)) =
      some (pb.serializeToArray m, []) := by
    rw [hin, List.nil_append, ← List.append_nil ((hostLength o).frame (pb.serializeToArray m))]
    exact LengthCode.next?_frame_append (fits_serialize hm) []
  have hparse : (pb.parseFromArray (pb.serializeToArray m)
      (sizeArg (UInt32.ofNat (pb.serializeToArray m).length))).2 = m :=
    congrArg Prod.snd (parse_serialize_sizeArg hm)
  rcases c.receive_spec pb o sys ((hostLength o).frame (pb.serializeToArray m)) with
    ⟨hnone, -⟩ | ⟨payload, rest, hsome, hr⟩
  · rw [hnext] at hnone
    cases hnone
  · obtain ⟨rfl, rfl⟩ := Prod.mk.inj (Option.some.inj (hnext.symm.trans hsome))
    rw [hr, hparse]

/-- The message ends the process of a connection without an interface. -/
def Fatal (sys : SysCalls) (m : TunnelMessage) : Prop :=
  SendsPacket m ∨ m.IsRequest .establish ∧ SLUTUNInterface.construct sys = none

private theorem running_dispatch_of_fatal {sys : SysCalls} {c : SLConnection}
    (hnone : c.mUTUNInterface = none) (hm : Fatal sys m) :
    (c.dispatch pb o sys m).running = false := by
  rcases hm with hdata | ⟨hestablish, hsys⟩
  · rw [SLConnection.dispatch_of_data_none hdata.1 hnone, if_neg hdata.2]
    rfl
  · rw [SLConnection.dispatch, if_neg (not_not.mpr hestablish.1), hestablish.2]
    simp [SLConnection.establish, hsys, SLConnection.halt]

/-- An idle message leaves a connection without an interface as it is, but for the trace. -/
private theorem exists_of_idle (pb : Protobuf) (o : ByteOrder) (sys : SysCalls) {c : SLConnection}
    (hnone : c.mUTUNInterface = none) (hm : Idle m) :
    ∃ trace, c.dispatch pb o sys m = { c with trace := trace } := by
  have hspec := SLConnection.dispatch_spec pb o sys c m
  generalize c.dispatch pb o sys m = c' at hspec
  cases hspec with
  | ignored => exact ⟨c.trace, rfl⟩
  | terminated ht hc => exact absurd ⟨ht, hc⟩ hm.1
  | notCreated ht hc => exact absurd ⟨ht, hc⟩ hm.1
  | established ht hc => exact absurd ⟨ht, hc⟩ hm.1
  | calledNull => exact ⟨_, rfl⟩
  | dereferenced ht hc hu hdata => exact absurd ⟨⟨ht, hc⟩, hdata⟩ hm.2
  | written ht hc utun hu => cases hu.symm.trans hnone

/-- **One message is enough.** Behind idle messages, a fatal one ends the process. The induction is
on the idle messages. -/
private theorem exists_ended {G : Link → LinkAction → Prop} {sys : SysCalls}
    (hG : ∀ s, G s (.deliver sys)) (hms : ∀ b ∈ before ++ m :: after, b.Valid)
    (hidle : ∀ b ∈ before, Idle b) (hfatal : Fatal sys m) {c : SLConnection} {arrived : Bytes}
    (hin : c.input = []) (hlive : c.freed = false ∧ c.running = true)
    (hnone : c.mUTUNInterface = none)
    (h : (link pb o chunks).ReachableUnder G
      ⟨c, arrived, frames pb o (before ++ m :: after)⟩) :
    ∃ s, (link pb o chunks).ReachableUnder G s ∧ s.Ended := by
  induction before generalizing c arrived with
  | nil =>
    refine ⟨_, h.step (l := .deliver sys) (hG _) (if_pos hlive), ?_⟩
    rw [Ended, receive_frame_of_nil sys hin (hms m (by simp))]
    exact running_dispatch_of_fatal hnone hfatal
  | cons b before ih =>
    have hstep : (link pb o chunks).ReachableUnder G
        ⟨c.receive pb o sys ((hostLength o).frame (pb.serializeToArray b)),
          arrived ++ (hostLength o).frame (pb.serializeToArray b),
          frames pb o (before ++ m :: after)⟩ :=
      h.step (l := .deliver sys) (hG _) (if_pos hlive)
    obtain ⟨trace, hignored⟩ := exists_of_idle pb o sys
      (c := c.received (pb.serializeToArray b) []) hnone (hidle b (by simp))
    rw [receive_frame_of_nil sys hin (hms b (by simp)), hignored] at hstep
    refine ih (fun d hd => hms d (List.mem_cons_of_mem b hd))
      (fun d hd => hidle d (List.mem_cons_of_mem b hd)) ?_ ?_ ?_ hstep
    · rfl
    · exact hlive
    · exact hnone

end Link

/-! ### When a server stays up -/

/-- No connection ends the process of a server whose peers send the messages `ms`: not however the
streams are cut, and not in any order of the callbacks that the guard allows. -/
def StaysUp (pb : Protobuf) (G : Link → LinkAction → Prop) (o : ByteOrder)
    (ms : Fin n → List TunnelMessage) : Prop :=
  ∀ chunks : Fin n → List Bytes,
    (∀ i, (chunks i).flatten = (hostLength o).stream ((ms i).map pb.serializeToArray)) →
    ∀ s, (serverProcess pb o chunks).ReachableUnder (TransitionSystem.EachUnder G) s →
      ∀ i, ¬ (s i).Ended

variable {ms : Fin n → List TunnelMessage}

/-- A fatal message behind idle ones brings the server down. -/
private theorem not_staysUp_of_fatal {G : Link → LinkAction → Prop} {sys : SysCalls}
    (hG : ∀ s, G s (.deliver sys)) (hms : ∀ i, ∀ m ∈ ms i, m.Valid) {i : Fin n}
    {before after : List TunnelMessage} {m : TunnelMessage} (hsplit : ms i = before ++ m :: after)
    (hidle : ∀ b ∈ before, Idle b) (hfatal : Link.Fatal sys m) : ¬ StaysUp pb G o ms := by
  intro h
  have hup := serverProcess_staysUp_iff.mp
    (h (fun i => Link.frames pb o (ms i)) fun _ => Link.flatten_frames) i
  rw [hsplit] at hup
  obtain ⟨s, hs, hended⟩ := Link.exists_ended hG (hsplit ▸ hms i) hidle hfatal (c := {}) rfl
    ⟨rfl, rfl⟩ rfl (.init rfl)
  exact hup s hs hended

/-- **Harmless peers.** As long as the system calls succeed, a server stays up exactly if each of
its peers asks for an interface before it sends packets. -/
theorem staysUp_iff (hms : ∀ i, ∀ m ∈ ms i, m.Valid) :
    StaysUp pb Succeeds o ms ↔ ∀ i, AsksFirst (ms i) := by
  constructor
  · intro h i
    by_contra hnot
    obtain ⟨before, m, after, hsplit, hidle, hdata⟩ := exists_packet_of_not_asksFirst hnot
    have hsucceed : SysCalls.succeed.AllSucceed := by
      rw [SysCalls.allSucceed_iff]
      decide
    exact not_staysUp_of_fatal (fun _ => hsucceed) hms hsplit hidle (.inl hdata) h
  · exact fun hfirst chunks hcut => serverProcess_staysUp_iff.mpr fun i _ =>
      Link.not_ended_of_asksFirst (hms i) (hcut i) (hfirst i)

/-- An `ESTABLISH` and a `DATA` request. -/
def askingPeer : List TunnelMessage :=
  [{ messageCode := .known .establish }, setPacketData { messageCode := .known .data } [0x45]]

/-- A `DATA` request with a packet. -/
def rashPeer : List TunnelMessage := [setPacketData { messageCode := .known .data } [0x45]]

private theorem valid_of_mem_askingPeer : ∀ m ∈ askingPeer, m.Valid := by
  simp only [askingPeer, List.forall_mem_cons]
  exact ⟨⟨by decide, by decide⟩, ⟨by decide, by decide⟩, by simp⟩

private theorem valid_of_mem_rashPeer : ∀ m ∈ rashPeer, m.Valid :=
  fun m hm => valid_of_mem_askingPeer m (List.mem_cons_of_mem _ hm)

/-- The peer that asks is served, until another one does not ask. -/
theorem staysUp_iff_two_peers :
    StaysUp wireFormat Succeeds .little ![askingPeer] ∧
      ¬ StaysUp wireFormat Succeeds .little ![askingPeer, rashPeer] := by
  constructor
  · refine (staysUp_iff fun i => ?_).mpr fun i => ?_
    · rw [Matrix.cons_val_fin_one]
      exact valid_of_mem_askingPeer
    · rw [Matrix.cons_val_fin_one]
      exact .inl ⟨rfl, rfl⟩
  · intro h
    have hfirst := (staysUp_iff (Fin.forall_fin_two.mpr
      ⟨valid_of_mem_askingPeer, valid_of_mem_rashPeer⟩)).mp h 1
    exact hfirst.elim (fun hestablish => nomatch hestablish.2) fun hno =>
      hno.1 ⟨⟨rfl, rfl⟩, by decide⟩

end SplendidLinker
