import SplendidLinker.EndToEnd.Conversation

/-!
# Catching up

A chunk that completes several frames leaves packets behind in the input buffer of the server.
libevent runs the read callback for bytes that arrive, not for bytes that are there, so what has
been left behind needs other bytes to be taken off. `catches_up_iff` counts them: as long as the
connection stands, the packets that the client has sent can all be passed on without anything more
being sent, if and only if those that have not been passed on are at most as many as the bytes under
way.

The packets that have been passed on and the bytes under way are a budget that no step exceeds
(`later_of_leadsTo`). To keep within it, the bytes arrive one at a time
(`exists_byte_step`).
-/

namespace SplendidLinker

open Foundations TunnelMessage

namespace SLConnection

/-- A callback passes on one packet at most. -/
theorem length_tunWrites_receive_le (pb : Protobuf) (o : ByteOrder) (sys : SysCalls)
    (c : SLConnection) (chunk : Bytes) :
    (c.receive pb o sys chunk).tunWrites.length ≤ c.tunWrites.length + 1 := by
  rcases receive_spec pb o sys c chunk with ⟨-, heq⟩ | ⟨payload, rest, -, heq⟩
  · rw [heq]
    exact Nat.le_succ _
  · have hspec := dispatch_spec pb o sys (c.received payload rest)
      (pb.parseFromArray payload (sizeArg (UInt32.ofNat payload.length))).2
    have hwrites := c.tunWrites_received payload rest
    rw [heq, ← hwrites]
    generalize (c.received payload rest).dispatch pb o sys _ = c' at hspec
    cases hspec with
    | ignored => exact Nat.le_succ _
    | written => simp
    | terminated | notCreated | established | calledNull | dereferenced =>
      refine (congrArg List.length ?_).trans_le (Nat.le_succ _)
      simp [tunWrites, tunWriteCall, halt, act, writePacket, setMUTUNInterface]

end SLConnection

namespace Conversation

open Handshake

variable {pb : Protobuf} {o : ByteOrder} {options : List (String × Bytes)} {t t' u : Conversation}
  {a : ConversationAction}

/-! ### The budget -/

/-- The packets that have been passed on and the bytes under way. -/
def budget (t : Conversation) : ℕ := t.server.tunWrites.length + t.up.length

/-- The conversation `t'` comes after `t`: more has been sent, or the budget is kept. -/
structure Later (t t' : Conversation) : Prop where
  connected : t'.connected = true
  sent : t.sent <+: t'.sent
  budget : t'.sent = t.sent → t'.budget ≤ t.budget

theorem Later.trans (h : Later t t') (h' : Later t' u) : Later t u where
  connected := h'.connected
  sent := h.sent.trans h'.sent
  budget heq := by
    have hmid : t'.sent = t.sent :=
      (h.sent.eq_of_length_le (heq ▸ h'.sent.length_le)).symm
    exact (h'.budget (heq.trans hmid.symm)).trans (h.budget hmid)

/-- **One step** keeps within the budget. -/
theorem later_of_step (hconn : t.connected = true) (hstep : t.step pb o a = some t') :
    Later t t' := by
  obtain ⟨b, h', -, hh', rfl⟩ | ⟨packets, -, -, rfl⟩ := step_cases hstep
  · cases hh' with
    | connect hno => exact absurd hno (by simp [hconn])
    | @deliverUp n sys hlive hpos hn =>
      refine ⟨hconn, List.prefix_rfl, fun _ => ?_⟩
      have hwrites := SLConnection.length_tunWrites_receive_le pb o sys t.server
        (t.up.take n)
      simp only [budget, up, List.length_drop] at hn ⊢
      simp only [up] at hwrites
      omega
    | @deliverDown n =>
      refine ⟨hconn, List.prefix_rfl, fun _ => le_of_eq ?_⟩
      simp only [budget, up, (t.client.frame_receive pb o (t.down.take n)).1]
    | clientEvent hlive hflags =>
      refine ⟨hconn, List.prefix_rfl, fun _ => le_of_eq ?_⟩
      simp only [budget, up, (t.client.frame_event pb o hflags).1]
    | serverEvent => exact ⟨hconn, List.prefix_rfl, fun _ => le_rfl⟩
    | tunRead =>
      refine ⟨hconn, List.prefix_rfl, fun _ => le_of_eq ?_⟩
      simp only [budget, tunWrites_tunReadHandler]
      rfl
  · refine ⟨?_, List.prefix_append _ _, fun heq => le_of_eq ?_⟩
    · rw [SLClient.handlePacket_eq]
      exact hconn
    · have hempty : packets = [] := by simpa using heq
      rw [hempty]
      rfl

/-- **A run** keeps within the budget. -/
theorem later_of_leadsTo (hconn : t.connected = true)
    (h : (conversation pb o options).LeadsTo t t') : Later t t' := by
  induction h with
  | refl => exact ⟨hconn, List.prefix_rfl, fun _ => le_rfl⟩
  | tail _ hstep ih =>
    obtain ⟨a, ha⟩ := hstep
    exact ih.trans (later_of_step ih.connected ha)

/-! ### One byte at a time -/

/-- The server stands ready to pass on packets. -/
structure Serving (t : Conversation) : Prop where
  live : t.ServerLive
  mUTUNInterface : t.server.mUTUNInterface ≠ none

/-- What has not been passed on, while no frame is complete, takes up a byte for each packet. -/
private theorem missing_le_of_none {input now later : Bytes} {payloads : List Bytes}
    (hfits : ∀ p ∈ payloads, (hostLength o).Fits p)
    (hstream : input ++ now ++ later = (hostLength o).stream payloads)
    (hnone : (hostLength o).next? (input ++ now) = none) : payloads.length ≤ later.length := by
  cases payloads with
  | nil => exact Nat.zero_le _
  | cons p payloads =>
    rw [LengthCode.stream_cons] at hstream
    have hlen := congrArg List.length hstream
    have hrest := (hostLength o).length_le_length_stream (by simp) payloads
    -- the first frame is not complete
    have hshort : (input ++ now).length < ((hostLength o).frame p).length := by
      by_contra hge
      obtain ⟨b, hb⟩ := List.prefix_of_prefix_length_le (List.prefix_append _ _)
        ⟨later, hstream⟩ (Nat.le_of_not_lt hge)
      rw [← hb, LengthCode.next?_frame_append (hfits p (by simp))] at hnone
      cases hnone
    simp only [List.length_append] at hlen hshort
    rw [List.length_cons]
    omega

/-- **One byte more.** While packets are missing and the budget allows for them, the next byte can
arrive, and the budget still allows for them. -/
private theorem exists_byte_step (ht : Conversing pb o options t) (hserving : t.Serving)
    (hbudget : t.sent.length ≤ t.budget) (hmissing : t.server.tunWrites.length < t.sent.length) :
    ∃ t', t.step pb o (.handshake (.deliverUp 1 .succeed)) = some t' ∧ t'.Serving ∧
      t'.sent = t.sent ∧ t'.up.length + 1 = t.up.length ∧ t.sent.length ≤ t'.budget := by
  obtain ⟨⟨hfreed, hrunning⟩, hutun⟩ := hserving
  obtain ⟨-, waiting, hsent, hstream⟩ := ht.waiting hutun
  have hup : 0 < t.up.length := by
    rw [budget] at hbudget
    omega
  have hstep : t.step pb o (.handshake (.deliverUp 1 .succeed)) = some { t with
      arrivedUp := t.arrivedUp + 1
      server := t.server.receive pb o .succeed (t.up.take 1) } := by
    rw [step, Handshake.step, if_pos ⟨⟨hfreed, hrunning⟩, Nat.one_pos, hup⟩]
    rfl
  have hbytes : t.server.input ++ t.up.take 1 ++ t.up.drop 1 =
      (hostLength o).stream (waiting.map fun p => pb.serializeToArray (dataRequest p)) := by
    rw [List.append_assoc, List.take_append_drop]
    exact hstream hfreed
  have hfits : ∀ payload ∈ waiting.map (fun p => pb.serializeToArray (dataRequest p)),
      (hostLength o).Fits payload := by
    intro payload hpayload
    obtain ⟨p, hp, rfl⟩ := List.mem_map.mp hpayload
    exact fits_serialize (ht.valid p (hsent ▸ List.mem_append_right _ hp))
  have hleft : (t.client.output.drop (t.arrivedUp + 1)).length + 1 = t.up.length := by
    rw [up, List.length_drop, List.length_drop] at *
    omega
  have hlen := congrArg List.length hsent
  rw [List.length_append] at hlen
  refine ⟨_, hstep, ?_⟩
  rcases t.server.receive_spec pb o .succeed (t.up.take 1) with
    ⟨hnone, hr⟩ | ⟨payload, rest, hnext, hr⟩
  · -- the bytes still under way are enough for the frames that are not complete
    have hmany := missing_le_of_none hfits hbytes hnone
    rw [List.length_map, up, List.drop_drop] at hmany
    rw [hr]
    refine ⟨⟨⟨hfreed, hrunning⟩, hutun⟩, rfl, hleft, ?_⟩
    change _ ≤ t.server.tunWrites.length + (t.client.output.drop (t.arrivedUp + 1)).length
    omega
  · -- the first of the missing packets is passed on
    obtain ⟨p, hserved⟩ : ∃ p, t.server.receive pb o .succeed (t.up.take 1) =
        (t.server.received payload rest).act (.tunWrite p) := by
      rcases LengthCode.next?_of_stream hfits hbytes with hnone | ⟨q, qs, b', hqs, hsome, -⟩
      · rw [hnext] at hnone
        cases hnone
      · obtain ⟨rfl, rfl⟩ := Prod.mk.inj (Option.some.inj (hnext.symm.trans hsome))
        obtain ⟨p, later, rfl, rfl, -⟩ := List.map_eq_cons_iff.mp hqs
        have hp : (dataRequest p).Valid := ht.valid p (hsent ▸ by simp)
        have hparse : (pb.parseFromArray (pb.serializeToArray (dataRequest p))
            (sizeArg (UInt32.ofNat (pb.serializeToArray (dataRequest p)).length))).2 =
              dataRequest p :=
          congrArg Prod.snd (parse_serialize_sizeArg hp)
        refine ⟨p, ?_⟩
        rw [hr, hparse]
        exact SLConnection.dispatch_of_data_some ⟨rfl, rfl⟩ hutun
    rw [hserved]
    refine ⟨⟨⟨hfreed, hrunning⟩, hutun⟩, rfl, hleft, ?_⟩
    change _ ≤ ((t.server.received payload rest).act (.tunWrite p)).tunWrites.length +
      (t.client.output.drop (t.arrivedUp + 1)).length
    rw [SLConnection.tunWrites_act_tunWrite, SLConnection.tunWrites_received, List.length_append,
      List.length_singleton]
    rw [budget] at hbudget
    omega

/-- Nothing is missing if the numbers agree. -/
private theorem tunWrites_eq_of_le (ht : Conversing pb o options t) (hserving : t.Serving)
    (hle : t.sent.length ≤ t.server.tunWrites.length) : t.server.tunWrites = t.sent := by
  obtain ⟨-, waiting, hsent, -⟩ := ht.waiting hserving.mUTUNInterface
  exact List.IsPrefix.eq_of_length_le ⟨waiting, hsent.symm⟩ hle

/-- The bytes arrive one at a time until all packets have been passed on. The induction is on the
number of the bytes under way. -/
private theorem exists_all_passed_on (hvalid : (firstRequest options).Valid)
    (ht : Conversing pb o options t) (hserving : t.Serving) (hbudget : t.sent.length ≤ t.budget) :
    ∃ t', (conversation pb o options).LeadsTo t t' ∧ t'.sent = t.sent ∧
      t'.server.tunWrites = t.sent := by
  induction hn : t.up.length generalizing t with
  | zero =>
    refine ⟨t, .refl, rfl, tunWrites_eq_of_le ht hserving ?_⟩
    rwa [budget, hn] at hbudget
  | succ n ih =>
    rcases lt_or_ge t.server.tunWrites.length t.sent.length with hmissing | hle
    · obtain ⟨t₁, hstep, hserving₁, hsent₁, hup, hbudget₁⟩ :=
        exists_byte_step ht hserving hbudget hmissing
      obtain ⟨t', hlead, hsent', hwrites⟩ := ih (ht.next hvalid hstep) hserving₁
        (hsent₁ ▸ hbudget₁) (by omega)
      exact ⟨t', .head ⟨.handshake (.deliverUp 1 .succeed), hstep⟩ hlead, hsent'.trans hsent₁,
        hwrites.trans hsent₁⟩
    · exact ⟨t, .refl, rfl, tunWrites_eq_of_le ht hserving hle⟩

/-- **A byte for each packet.** As long as the server stands ready, the packets that have been sent
can all be passed on, without anything more being sent, if and only if those that are missing are
at most as many as the bytes under way. -/
theorem catches_up_iff (hvalid : (firstRequest options).Valid)
    (hreach : (conversation pb o options).Reachable t) (hserving : t.Serving) :
    (∃ t', (conversation pb o options).LeadsTo t t' ∧ t'.sent = t.sent ∧
      t'.server.tunWrites = t.sent) ↔
        t.sent.length ≤ t.server.tunWrites.length + t.up.length := by
  have ht := conversing_of_reachable hvalid hreach
  constructor
  · rintro ⟨t', hlead, hsent, hwrites⟩
    have hbudget := (later_of_leadsTo (ht.waiting hserving.mUTUNInterface).1 hlead).budget hsent
    rw [budget, hwrites] at hbudget
    exact (Nat.le_add_right _ _).trans hbudget
  · exact exists_all_passed_on hvalid ht hserving

/-- The second request has arrived but for four bytes: its packet can still be passed on. -/
theorem catches_up_iff_two_packets :
    ∃ t, (conversation wireFormat .little adminOptions).Reachable t ∧
      t.sent.length = 2 ∧ t.server.tunWrites.length = 1 ∧ t.up.length = 4 ∧
      ((∃ t', (conversation wireFormat .little adminOptions).LeadsTo t t' ∧ t'.sent = t.sent ∧
        t'.server.tunWrites = t.sent) ↔
          t.sent.length ≤ t.server.tunWrites.length + t.up.length) := by
  have hrun : ((conversation wireFormat .little adminOptions).replay
      { client := .start adminOptions } (twoPackets [.deliverUp 18 .succeed])).map
        (fun t => (t.sent.length, t.server.tunWrites.length, t.up.length, t.server.freed,
          t.server.running, t.server.mUTUNInterface.isSome)) =
            some (2, 1, 4, false, true, true) := by decide +kernel
  obtain ⟨t, hreach, hlast⟩ := TransitionSystem.exists_reachable_of_replay
    (T := conversation wireFormat .little adminOptions) rfl hrun
  simp only [Prod.mk.injEq] at hlast
  obtain ⟨hsent, hwrites, hup, hfreed, hrunning, hutun⟩ := hlast
  exact ⟨t, hreach, hsent, hwrites, hup, catches_up_iff valid_adminOptions hreach
    ⟨⟨hfreed, hrunning⟩, fun hnone => by simp [hnone] at hutun⟩⟩

end Conversation

end SplendidLinker
