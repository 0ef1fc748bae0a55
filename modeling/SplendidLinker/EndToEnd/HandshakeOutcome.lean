import SplendidLinker.EndToEnd.Handshake

/-!
# The outcome of a handshake

The server waits for the whole request, and the client does not wait for the whole reply. So it
comes down to one step: if the first bytes that reach the client are the whole reply
(`WholeReply`), both sides agree on the session, and if a single byte is missing, the client
refuses the reply, although all of it arrives in the end. As long as the TUN thread of the server
sends nothing, `established_iff_wholeReply` is the exact condition, `agreed_or_refused` says that
the outcome is final, and `agreed_of_cooperation` that nothing else goes wrong: as long as the
interface is created, no reply is torn and the connection stands, the two sides can still come to
agree. About the codec this needs what it makes of a torn reply (`Protobuf.TellsTorn`).

Both sides write a length in the byte order of their host. `stalled_iff` says for which lengths of
the request nothing comes of a handshake between hosts of any byte orders, with any codec.
-/

namespace SplendidLinker

open Foundations TunnelMessage WireFormat

namespace Handshake

variable {pb : Protobuf} {oc os o : ByteOrder} {options : List (String × Bytes)}
  {h h' : Handshake} {a : HandshakeAction}

/-- The two outcomes, and the state before, exclude each other. -/
private theorem Refused.not_agreed (hrefused : h.Refused pb o options) :
    ¬ (h.Untold ∨ h.Agreed pb o options) := by
  rintro (huntold | hagreed)
  · have := hrefused.arrivedDown_pos
    rw [huntold.arrivedDown] at this
    cases this
  · have := hrefused.establishments.symm.trans hagreed.establishments
    cases this

/-- The client is established exactly in the states in which both sides agree. -/
private theorem Inv.established_iff (hinv : Inv pb o options h) :
    h.client.establishments ≠ [] ↔ h.Agreed pb o options := by
  refine ⟨fun hest => ?_, fun hagreed => by simp [hagreed.establishments]⟩
  rcases hinv.client with huntold | hagreed | hrefused
  · exact absurd huntold.establishments hest
  · exact hagreed
  · exact absurd hrefused.establishments hest

/-- **The exact condition.** Whatever the order of the steps of a quiet handshake, the client is
established exactly if bytes have reached it and the first of them were the whole reply. -/
theorem established_iff_wholeReply (hpb : pb.TellsTorn) (hopt : Admissible options)
    (hreach : (quietHandshake pb o o options).Reachable h) :
    h.client.establishments ≠ [] ↔
      0 < h.arrivedDown ∧ (quietHandshake pb o o options).ReachableUnder WholeReply h := by
  have hexact : (h.Untold ∨ h.Agreed pb o options) ↔
      (quietHandshake pb o o options).ReachableUnder WholeReply h := by
    refine TransitionSystem.iff_reachableUnder (K := fun h => h.Untold ∨ h.Agreed pb o options)
      ?_ (fun h a h' hreach hstep hh' => ?_) (fun h a h' hreach hh hstep => ?_) hreach
    · rintro h rfl
      exact .inl ⟨⟨rfl, rfl, rfl, rfl, rfl⟩, rfl, rfl, rfl, rfl⟩
    · -- a refusal would last
      have hinv := inv_of_reachable hpb hopt hreach
      rcases hinv.client with huntold | hagreed | hrefused
      · exact .inl huntold
      · exact .inr hagreed
      · exact absurd hh' ((hinv.next hpb hopt hstep).refused hrefused).not_agreed
    · have hnext := (inv_of_reachable hpb hopt hreach).next hpb hopt hstep
      rcases hh with huntold | hagreed
      · rcases hnext.untold huntold with ⟨hh', hwhole⟩ | ⟨hrefused, htorn⟩
        · exact iff_of_true hh' hwhole
        · exact iff_of_false hrefused.not_agreed htorn
      · exact iff_of_true (.inr (hnext.agreed hagreed).1) (hnext.agreed hagreed).2
  rw [(inv_of_reachable hpb hopt hreach).established_iff, ← hexact]
  constructor
  · intro hagreed
    refine ⟨?_, .inr hagreed⟩
    have := hagreed.length_output hopt
    rw [hagreed.arrivedDown]
    omega
  · rintro ⟨hpos, huntold | hagreed⟩
    · rw [huntold.arrivedDown] at hpos
      cases hpos
    · exact hagreed

/-- The request arrives in two pieces, and the reply in one. -/
theorem established_iff_wholeReply_whole :
    ∃ h, (quietHandshake wireFormat .little .little adminOptions).Reachable h ∧
      h.client.establishments ≠ [] ∧
      (h.client.establishments ≠ [] ↔ 0 < h.arrivedDown ∧
        (quietHandshake wireFormat .little .little adminOptions).ReachableUnder WholeReply h) := by
  have hrun : ((quietHandshake wireFormat .little .little adminOptions).replay
      { client := .start adminOptions }
      [.connect, .deliverUp 7 .succeed, .deliverUp 13 .succeed, .deliverDown 68]).map
        (·.client.establishments.length) = some 1 := by decide +kernel
  obtain ⟨h, hreach, hlen⟩ := TransitionSystem.exists_reachable_of_replay
    (T := quietHandshake wireFormat .little .little adminOptions) rfl hrun
  exact ⟨h, hreach, List.ne_nil_of_length_pos (by omega),
    established_iff_wholeReply (tellsTorn_generated lawful_listStream) admissible_adminOptions
      hreach⟩

/-- **The outcome is final.** Once a byte has reached the client, either both sides agree on the
session for good, or the reply is refused for good: an error has been reported, and the bufferevent
is freed at the latest when all of the reply has arrived. For good means as long as the TUN thread
sends nothing. -/
theorem agreed_or_refused (hpb : pb.TellsTorn) (hopt : Admissible options)
    (hreach : (quietHandshake pb o o options).Reachable h) (hpos : 0 < h.arrivedDown) :
    (∀ h', (quietHandshake pb o o options).LeadsTo h h' → h'.Agreed pb o options) ∨
      ∀ h', (quietHandshake pb o o options).LeadsTo h h' → h'.Refused pb o options ∧
        (h'.down = [] → h'.client.freed = true) := by
  have hlast {P : Handshake → Prop} (hP : P h) (hkeep : ∀ h a h', Inv pb o options h → P h →
      (quietHandshake pb o o options).step h a = some h' → P h') :
      ∀ h', (quietHandshake pb o o options).LeadsTo h h' → P h' := by
    intro h' hlead
    induction hlead with
    | refl => exact hP
    | @tail h₁ h₂ hlead hstep ih =>
      obtain ⟨a, hstep⟩ := hstep
      exact hkeep _ a _ (inv_of_reachable hpb hopt (hreach.leadsTo hlead)) ih hstep
  rcases (inv_of_reachable hpb hopt hreach).client with huntold | hagreed | hrefused
  · rw [huntold.arrivedDown] at hpos
    cases hpos
  · exact .inl (hlast hagreed fun h a h' hinv hh hstep => ((hinv.next hpb hopt hstep).agreed hh).1)
  · refine .inr fun h' hlead => ?_
    have hrefused' : h'.Refused pb o options :=
      hlast hrefused (fun h a h' hinv hh hstep => (hinv.next hpb hopt hstep).refused hh) h' hlead
    refine ⟨hrefused', fun hdown => ?_⟩
    rcases hrefused'.rest with hfreed | ⟨-, hlt, -⟩
    · exact hfreed
    · rw [down, List.drop_eq_nil_iff] at hdown
      omega

/-- All but the last byte of the reply reaches the client. -/
theorem agreed_or_refused_torn :
    ∃ h, (quietHandshake wireFormat .little .little adminOptions).Reachable h ∧
      h.client.establishments = [] ∧
      ((∀ h', (quietHandshake wireFormat .little .little adminOptions).LeadsTo h h' →
          h'.Agreed wireFormat .little adminOptions) ∨
        ∀ h', (quietHandshake wireFormat .little .little adminOptions).LeadsTo h h' →
          h'.Refused wireFormat .little adminOptions ∧
            (h'.down = [] → h'.client.freed = true)) := by
  have hrun : ((quietHandshake wireFormat .little .little adminOptions).replay
      { client := .start adminOptions }
      [.connect, .deliverUp 20 .succeed, .deliverDown 67]).map
        (fun h => (h.client.establishments.length, h.arrivedDown)) = some (0, 67) := by
    decide +kernel
  obtain ⟨h, hreach, hlast⟩ := TransitionSystem.exists_reachable_of_replay
    (T := quietHandshake wireFormat .little .little adminOptions) rfl hrun
  obtain ⟨hest, hdown⟩ := Prod.mk.inj hlast
  exact ⟨h, hreach, List.length_eq_zero_iff.mp hest,
    agreed_or_refused (tellsTorn_generated lawful_listStream) admissible_adminOptions hreach
      (by omega)⟩

/-- A frame of the TUN thread can end an agreement: here the heap held zeros, which the client
takes for a request. -/
example : ((handshake wireFormat .little .little adminOptions).replay
    { client := .start adminOptions }
    [.connect, .deliverUp 20 .succeed, .deliverDown 68, .tunRead (fun _ => 0) [0x45],
      .deliverDown 59]).map (fun h => (h.client.establishments.length, h.client.freed)) =
        some (1, true) := by
  decide +kernel

/-- The reply that has been written can reach the client as a whole. -/
private theorem agreed_of_answered (hpb : pb.TellsTorn) (hopt : Admissible options)
    (hinv : Inv pb o options h) (huntold : h.Untold) (hanswered : h.Answered pb o options) :
    ∃ h', (quietHandshake pb o o options).LeadsTo h h' ∧ h'.Agreed pb o options ∧
      h'.failed = h.failed := by
  have hdown : h.down.length = 4 + (reply options).byteSize := by
    rw [down, huntold.arrivedDown, List.drop_zero, hanswered.length_output hopt]
  obtain ⟨h', hstep⟩ : ∃ h', h.step pb o o (.deliverDown h.down.length) = some h' :=
    ⟨_, if_pos ⟨⟨huntold.ready.freed, huntold.ready.running⟩, by omega, le_rfl⟩⟩
  have hfailed : h'.failed = h.failed := by
    cases stepped hstep
    rfl
  have hquiet : (quietHandshake pb o o options).step h (.deliverDown h.down.length) = some h' :=
    quiet_step trivial hstep
  refine ⟨h', Relation.ReflTransGen.single ⟨.deliverDown h.down.length, hquiet⟩, ?_, hfailed⟩
  rcases (hinv.next hpb hopt hquiet).untold huntold with ⟨hu | hagreed, -⟩ | ⟨-, htorn⟩
  · -- bytes have arrived
    have harrived := hu.arrivedDown
    cases stepped hstep with
    | deliverDown hlive hpos hn =>
      simp only at harrived
      omega
  · exact hagreed
  · exact absurd rfl htorn

/-- The request that has been written can reach the server, and be served. -/
private theorem agreed_of_waits (hpb : pb.TellsTorn) (hopt : Admissible options)
    (hinv : Inv pb o options h) (hconn : h.connected = true) (hlive : h.server.freed = false)
    (hwaits : h.Waits) :
    ∃ h', (quietHandshake pb o o options).LeadsTo h h' ∧ h'.Agreed pb o options ∧
      h'.failed = h.failed := by
  have hlt : h.arrivedUp < h.client.output.length := by
    rcases hinv.server with hw | hserved | hanswered
    · exact hw.2 hconn
    · exact absurd (hwaits.parsed.symm.trans hserved.1.parsed) (List.cons_ne_nil _ _).symm
    · exact absurd (hwaits.parsed.symm.trans hanswered.parsed) (List.cons_ne_nil _ _).symm
  have hup : h.up.length = h.client.output.length - h.arrivedUp := List.length_drop
  obtain ⟨h', hstep⟩ : ∃ h', h.step pb o o (.deliverUp h.up.length .succeed) = some h' :=
    ⟨_, if_pos ⟨⟨hlive, hwaits.running⟩, by omega, le_rfl⟩⟩
  have hquiet : (quietHandshake pb o o options).step h (.deliverUp h.up.length .succeed) =
      some h' :=
    quiet_step trivial hstep
  have hnext := hinv.next hpb hopt hquiet
  have huntold : h'.Untold := by
    rcases hnext.untold (hinv.untold hwaits.output) with ⟨hu | hagreed, -⟩ | ⟨-, htorn⟩
    · exact hu
    · have hdown : h'.arrivedDown = h.arrivedDown := by
        cases stepped hstep
        rfl
      have := hagreed.length_output hopt
      rw [← hagreed.arrivedDown, hdown, (hinv.untold hwaits.output).arrivedDown] at this
      omega
    · exact absurd trivial htorn
  have hanswered : h'.Answered pb o options := by
    have hcreates : Uplink.Creates .succeed := by decide
    rcases hnext.created hcreates (.inl hwaits) with hw | hanswered
    · -- nothing of the request is missing
      have hall : h'.arrivedUp = h'.client.output.length ∧ h'.connected = true := by
        cases stepped hstep with
        | deliverUp hlive hpos hn =>
          refine ⟨?_, hconn⟩
          simp only
          omega
      rcases hnext.inv.server with hw' | hserved | hanswered
      · have := hw'.2 hall.2
        omega
      · exact absurd (hw.parsed.symm.trans hserved.1.parsed) (List.cons_ne_nil _ _).symm
      · exact hanswered
    · exact hanswered
  have hfailed : h'.failed = h.failed := by
    cases stepped hstep
    rfl
  obtain ⟨h'', hlead, hagreed, hsame⟩ := agreed_of_answered hpb hopt hnext.inv huntold hanswered
  exact ⟨h'', Relation.ReflTransGen.head ⟨.deliverUp h.up.length .succeed, hquiet⟩ hlead, hagreed,
    hsame.trans hfailed⟩

/-- The interface is created without an error, and the reply is not torn. -/
def Cooperates (h : Handshake) (a : HandshakeAction) : Prop := WholeReply h a ∧ Creates a

/-- **Nothing else goes wrong.** As long as the TUN thread sends nothing, the interface is created
without an error and no reply is torn, the two sides can still come to agree, if the server has not
freed its bufferevent and the client has not been told that the connection has failed; and it need
not be told so on the way. -/
theorem agreed_of_cooperation (hpb : pb.TellsTorn) (hopt : Admissible options)
    (hreach : (quietHandshake pb o o options).ReachableUnder Cooperates h)
    (hlive : h.server.freed = false) (hfailed : h.failed = false) :
    ∃ h', (quietHandshake pb o o options).LeadsTo h h' ∧ h'.Agreed pb o options ∧
      h'.failed = false := by
  have hboth : Inv pb o options h ∧ (h.Waits ∨ h.Answered pb o options) ∧
      (h.Untold ∨ h.Agreed pb o options) := by
    refine hreach.invariant (I := fun h => Inv pb o options h ∧
      (h.Waits ∨ h.Answered pb o options) ∧ (h.Untold ∨ h.Agreed pb o options)) ?_
      fun h a h' ⟨hinv, hserver, hclient⟩ hguard hstep => ?_
    · rintro h rfl
      exact ⟨inv_of_reachable hpb hopt (.init rfl),
        .inl ⟨rfl, rfl, rfl, rfl, fun _ => rfl, le_rfl⟩,
        .inl ⟨⟨rfl, rfl, rfl, rfl, rfl⟩, rfl, rfl, rfl, rfl⟩⟩
    · have hnext := hinv.next hpb hopt hstep
      refine ⟨hnext.inv, hnext.created hguard.2 hserver, ?_⟩
      rcases hclient with huntold | hagreed
      · rcases hnext.untold huntold with hh' | hrefused
        · exact hh'.1
        · exact absurd hguard.1 hrefused.2
      · exact .inr (hnext.agreed hagreed).1
  obtain ⟨hinv, hserver, huntold | hagreed⟩ := hboth
  · by_cases hconn : h.connected = true
    · rcases hserver with hwaits | hanswered
      · exact hfailed ▸ agreed_of_waits hpb hopt hinv hconn hlive hwaits
      · exact hfailed ▸ agreed_of_answered hpb hopt hinv huntold hanswered
    · -- the connection is made first
      have hconn := Bool.eq_false_of_not_eq_true hconn
      obtain ⟨h', hstep⟩ : ∃ h', h.step pb o o .connect = some h' :=
        ⟨_, if_neg (by simp [hconn])⟩
      have hserver' : h'.server = h.server ∧ h'.connected = true ∧ h'.failed = h.failed := by
        cases stepped hstep
        exact ⟨rfl, rfl, rfl⟩
      have hquiet : (quietHandshake pb o o options).step h .connect = some h' :=
        quiet_step trivial hstep
      have hnext := hinv.next hpb hopt hquiet
      have hwaits' : h'.Waits := by
        rcases hnext.created trivial hserver with hw | hanswered
        · exact hw
        · have := hanswered.parsed
          rw [hserver'.1, (hinv.waits hconn).parsed] at this
          cases this
      obtain ⟨h'', hlead, hagreed, hsame⟩ := agreed_of_waits hpb hopt hnext.inv hserver'.2.1
        (hserver'.1 ▸ hlive) hwaits'
      exact ⟨h'', Relation.ReflTransGen.head ⟨.connect, hquiet⟩ hlead, hagreed,
        hsame.trans (hserver'.2.2.trans hfailed)⟩
  · exact ⟨h, .refl, hagreed, hfailed⟩

/-- From the start. -/
theorem agreed_of_cooperation_start :
    ∃ h, (quietHandshake wireFormat .big .big adminOptions).LeadsTo
        { client := .start adminOptions } h ∧
      h.Agreed wireFormat .big adminOptions ∧ h.failed = false :=
  agreed_of_cooperation (tellsTorn_generated lawful_listStream) admissible_adminOptions (.init rfl)
    rfl rfl

/-! ### Different byte orders -/

/-- The length of the request, as the server reads it. -/
def announced (oc os : ByteOrder) (options : List (String × Bytes)) : ℕ :=
  (os.ofBytes (oc.toBytes (UInt32.ofNat (firstRequest options).byteSize))).toNat

/-- **The completeness test of the server**, for a first part of the frame of the request. -/
private theorem next?_take_frame (hvalid : (firstRequest options).Valid) (n : ℕ) :
    (hostLength os).next? (((hostLength oc).frame
        (pb.serializeToArray (firstRequest options))).take n) = none ↔
      (((hostLength oc).frame (pb.serializeToArray (firstRequest options))).take n).length <
        4 + announced oc os options := by
  have hheader : (((hostLength oc).frame (pb.serializeToArray (firstRequest options))).take n).take
      (hostLength os).width <+: (hostLength os).encode (announced oc os options) := by
    have hencode : (hostLength os).encode (announced oc os options) =
        oc.toBytes (UInt32.ofNat (firstRequest options).byteSize) := by
      rw [← oc.toBytes_ofBytes_toBytes os]
      exact congrArg os.toBytes UInt32.ofNat_toNat
    rw [hencode, List.take_take, Nat.min_comm, ← List.take_take, hostLength_width,
      hostLength_frame, pb.length_serialize _ hvalid, List.take_left' (oc.length_toBytes _)]
    exact List.take_prefix _ _
  rw [LengthCode.next?_of_header (UInt32.toNat_lt _) hheader, hostLength_width]
  by_cases hall : 4 + announced oc os options ≤
      (((hostLength oc).frame (pb.serializeToArray (firstRequest options))).take n).length
  · rw [if_pos hall]
    exact iff_of_false (Option.some_ne_none _) (Nat.not_lt.mpr hall)
  · rw [if_neg hall]
    exact iff_of_true rfl (Nat.lt_of_not_le hall)

/-- Neither side gets anywhere. -/
structure Stalled (pb : Protobuf) (oc : ByteOrder) (options : List (String × Bytes))
    (h : Handshake) : Prop where
  mOptions : h.connected = false → h.client.mOptions = options
  output : h.client.output =
    if h.connected then (hostLength oc).frame (pb.serializeToArray (firstRequest options)) else []
  waits : h.Waits
  untold : h.Untold

/-- A length that is never reached. -/
private theorem Stalled.next (hvalid : (firstRequest options).Valid)
    (hlt : (firstRequest options).byteSize < announced oc os options) (hh : h.Stalled pb oc options)
    (hstep : h.step pb oc os a = some h') : h'.Stalled pb oc options := by
  obtain ⟨hopt, hout, hwaits, huntold⟩ := hh
  obtain ⟨hready, hin, hest, haddr, hdown⟩ := huntold
  cases stepped hstep with
  | connect hconn =>
    have hnil : h.client.output = [] := by rw [hout, hconn]; rfl
    obtain ⟨mOptions, hclient⟩ := connect_eq oc hvalid (hopt hconn) hnil
    rw [hclient]
    exact ⟨fun hc => Bool.noConfusion hc, rfl, (hwaits.connect hnil).2,
      ⟨hready.1, hready.2, hready.3, hready.4, hready.5⟩, hin, hest, haddr, hdown⟩
  | @deliverUp n sys hlive hpos hn =>
    refine ⟨hopt, hout, hwaits.arrive hlive hn ?_, hready, hin, hest, haddr, hdown⟩
    rw [hout]
    split_ifs
    · rw [next?_take_frame hvalid, List.length_take, LengthCode.length_frame, hostLength_width,
        pb.length_serialize _ hvalid]
      omega
    · simp [LengthCode.next?, hostLength_width]
  | deliverDown hlive hpos hn =>
    rw [down, hwaits.output, List.drop_nil, List.length_nil] at hn
    omega
  | clientEvent hlive hflags =>
    obtain ⟨hkeeps, hready', hin', -⟩ := SLClient.keeps_of_event (o := oc) hready hflags
    refine ⟨fun hconn => hkeeps.mOptions.trans (hopt hconn), hkeeps.output.trans hout,
      ⟨hwaits.1, hwaits.2, hwaits.3, hwaits.4, fun hf => (hwaits.input hf).trans ?_,
        hwaits.arrivedUp_le.trans (le_of_eq ?_)⟩, hready', hin'.trans hin,
      hkeeps.establishments.trans hest, hkeeps.addresses.trans haddr, hdown⟩
    · rw [hkeeps.output]
    · rw [hkeeps.output]
  | serverEvent hconn hlive =>
    exact ⟨hopt, hout, ⟨hwaits.1, hwaits.2, hwaits.3, hwaits.4, fun hf => Bool.noConfusion hf,
      hwaits.arrivedUp_le⟩, hready, hin, hest, haddr, hdown⟩
  | tunRead hlive hutun => exact absurd hwaits.mUTUNInterface hutun

private theorem stalled_of_reachable (hvalid : (firstRequest options).Valid)
    (hlt : (firstRequest options).byteSize < announced oc os options)
    (hreach : (handshake pb oc os options).Reachable h) : h.Stalled pb oc options := by
  refine hreach.invariant (I := Stalled pb oc options) ?_ fun h a h' hh hstep =>
    hh.next hvalid hlt hstep
  rintro h rfl
  exact ⟨fun _ => rfl, rfl, ⟨rfl, rfl, rfl, rfl, fun _ => rfl, le_rfl⟩,
    ⟨rfl, rfl, rfl, rfl, rfl⟩, rfl, rfl, rfl, rfl⟩

/-- A length that is reached: the server takes a payload off the request. -/
private theorem exists_parsed (hvalid : (firstRequest options).Valid)
    (hle : announced oc os options ≤ (firstRequest options).byteSize) :
    ∃ h, (handshake pb oc os options).Reachable h ∧ h.server.parsed ≠ [] := by
  obtain ⟨mOptions, hclient⟩ := connect_eq oc (h := { client := .start options }) hvalid rfl
    rfl
  set frame := (hostLength oc).frame (pb.serializeToArray (firstRequest options)) with hframe
  have hlen : frame.length = 4 + (firstRequest options).byteSize := by
    rw [hframe, LengthCode.length_frame, hostLength_width, pb.length_serialize _ hvalid]
  set h₁ : Handshake := {
    client := (SLClient.start options).cbBuffereventEvent pb oc SLClient.bevEventConnected
    connected := true } with hh₁
  have hup : h₁.up = frame := by rw [up, hh₁, hclient, List.drop_zero]
  have hreach : (handshake pb oc os options).Reachable h₁ :=
    .next (l := .connect) (.init rfl) rfl
  have hstep : (handshake pb oc os options).step h₁ (.deliverUp frame.length .succeed) =
      some { h₁ with
        arrivedUp := frame.length
        server := SLConnection.receive pb os .succeed {} frame } := by
    refine (if_pos ⟨⟨rfl, rfl⟩, by omega, by rw [hup]⟩).trans ?_
    rw [hup, List.take_length, hh₁, Nat.zero_add]
  refine ⟨_, hreach.next hstep, ?_⟩
  rcases SLConnection.receive_frame pb os .succeed {} frame with
    ⟨hnone, -⟩ | ⟨payload, rest, -, -, hparsed⟩
  · rw [List.nil_append, ← List.take_length (l := frame), next?_take_frame hvalid, List.take_length]
      at hnone
    omega
  · rw [hparsed]
    exact List.append_ne_nil_of_right_ne_nil _ (List.cons_ne_nil _ _)

/-- **The byte orders of the hosts.** Neither side gets anywhere in any run, exactly if the length
of the request is a larger number in the byte order of the server. This is the case whenever the
byte orders differ and the request has less than 65536 bytes. -/
theorem stalled_iff (hvalid : (firstRequest options).Valid) :
    ((∀ h, (handshake pb oc os options).Reachable h → h.server.parsed = [] ∧ h.Untold) ↔
      (firstRequest options).byteSize < announced oc os options) ∧
    (oc ≠ os → (firstRequest options).byteSize < 2 ^ 16 →
      ∀ h, (handshake pb oc os options).Reachable h → h.server.parsed = [] ∧ h.Untold) := by
  have hstalled (hlt : (firstRequest options).byteSize < announced oc os options) (h : Handshake)
      (hreach : (handshake pb oc os options).Reachable h) : h.server.parsed = [] ∧ h.Untold :=
    ⟨(stalled_of_reachable hvalid hlt hreach).waits.parsed,
      (stalled_of_reachable hvalid hlt hreach).untold⟩
  refine ⟨⟨fun hall => ?_, hstalled⟩, fun hne hsize => hstalled ?_⟩
  · by_contra hle
    obtain ⟨h, hreach, hparsed⟩ := exists_parsed hvalid (Nat.le_of_not_lt hle)
    exact hparsed (hall h hreach).1
  · have hpos : 0 < (firstRequest options).byteSize := by
      have hcode : (firstRequest options).messageCode.number =
          (OpenEnum.known MessageCode.establish).number := rfl
      have htwo : enumFieldSize (OpenEnum.known MessageCode.establish).number = 2 := by decide
      rw [byteSize, hcode, htwo]
      omega
    exact ByteOrder.lt_ofBytes_toBytes hne hpos hsize

/-- A little-endian client and a big-endian server. -/
theorem stalled_iff_little_big :
    (firstRequest adminOptions).byteSize < announced .little .big adminOptions ∧
      ∀ h, (handshake wireFormat .little .big adminOptions).Reachable h →
        h.server.parsed = [] ∧ h.Untold :=
  ⟨by decide +kernel, (stalled_iff valid_adminOptions).2 (by decide) (by decide +kernel)⟩

end Handshake

end SplendidLinker
