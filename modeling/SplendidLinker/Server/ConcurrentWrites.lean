import SplendidLinker.Foundations.TransitionSystem
import SplendidLinker.Tunnel.Buffer

/-!
# Concurrent writers of a connection

`SLConnection::writePacket` is called by the event thread of a connection, for the `ESTABLISH`
response, and by its TUN threads, for the `DATA` responses. Each call is two appends to the
output buffer, the length and then the packet, with no lock around the two.

Every byte of the output carries the number of the call that appended it. The output is whole
(`Whole`) if it is the frames of the calls, each of them in one piece. `whole_iff` says when:
at a moment at which no call is in progress, the output is whole if and only if no call has
made its first append while another one, with a packet that is not empty, was between its
two. The server has nothing that keeps the threads to it (`not_whole`).

That this is necessary goes through a mark that never goes away: a call is torn as soon as
another call has appended behind its header while its packet is still to come (`Torn`).
-/

namespace SplendidLinker

open Foundations

/-- The threads that write to a connection. -/
inductive Sender
  | eventThread
  | tunThread (k : ℕ)
  deriving DecidableEq, Repr

/-- The arguments of a call of `SLConnection::writePacket`: `l` is the size of the packet. -/
structure WriteCall where
  packet : Bytes
  l : UInt32
  length_eq : l.toNat = packet.length

/-- The output buffer of a connection, and its writers. -/
structure SharedOutput where
  /-- The bytes of the buffer, each with the number of the call that appended it. -/
  bytes : List (ℕ × UInt8)
  /-- The calls that have made their first append, in that order, with their numbers. -/
  calls : List (ℕ × WriteCall)
  /-- The call of each thread that is between its two appends. -/
  pending : Sender → Option (ℕ × WriteCall)

/-- The next append of a thread. -/
inductive AppendAction
  /-- `bufferevent_write(mBufferEvent, &len, sizeof(len))`, the first append of a call. -/
  | header (t : Sender) (w : WriteCall)
  /-- `bufferevent_write(mBufferEvent, packet, len)`, the second one. -/
  | packet (t : Sender)

namespace SharedOutput

/-- `bs` as appended by the call number `n`. -/
def tag (n : ℕ) (bs : Bytes) : List (ℕ × UInt8) := bs.map fun b => (n, b)

/-- One append, where the thread is at that point of a call. -/
def step (o : ByteOrder) (s : SharedOutput) : AppendAction → Option SharedOutput
  | .header t w =>
    match s.pending t with
    | some _ => none
    | none =>
      some
        { bytes := s.bytes ++ tag s.calls.length (o.toBytes w.l)
          calls := s.calls ++ [(s.calls.length, w)]
          pending := Function.update s.pending t (some (s.calls.length, w)) }
  | .packet t =>
    match s.pending t with
    | none => none
    | some (n, w) =>
      some
        { s with
          bytes := s.bytes ++ tag n (w.packet.take w.l.toNat)
          pending := Function.update s.pending t none }

/-- No call is between its two appends. -/
def Quiescent (s : SharedOutput) : Prop := ∀ t, s.pending t = none

/-- The bytes of a call, if its frame is in one piece. -/
def frameOf (o : ByteOrder) (c : ℕ × WriteCall) : List (ℕ × UInt8) :=
  tag c.1 ((hostLength o).frame c.2.packet)

/-- The output is the frames of the calls, in some order, each in one piece. -/
def Whole (o : ByteOrder) (s : SharedOutput) : Prop :=
  ∃ order : List (ℕ × WriteCall), order.Perm s.calls ∧ s.bytes = order.flatMap (frameOf o)

/-- The next append is not the first one of a call while another call has a packet still to
append. -/
def Exclusive (s : SharedOutput) : AppendAction → Prop
  | .header _ _ => ∀ t n w, s.pending t = some (n, w) → w.packet = []
  | .packet _ => True

end SharedOutput

/-- A connection with an empty output buffer that any threads write to. -/
def sharedOutput (o : ByteOrder) : TransitionSystem SharedOutput AppendAction where
  init s := s = ⟨[], [], fun _ => none⟩
  step := SharedOutput.step o

namespace SharedOutput

variable {o : ByteOrder} {s s' : SharedOutput} {a : AppendAction}

/-- The first append of a call. -/
theorem step_header {t : Sender} {w : WriteCall} (hp : s.pending t = none) :
    s.step o (.header t w) =
      some { bytes := s.bytes ++ tag s.calls.length (o.toBytes w.l)
             calls := s.calls ++ [(s.calls.length, w)]
             pending := Function.update s.pending t (some (s.calls.length, w)) } := by
  simp only [step, hp]

/-- The second one. -/
theorem step_packet {t : Sender} {n : ℕ} {w : WriteCall} (hp : s.pending t = some (n, w)) :
    s.step o (.packet t) =
      some { s with bytes := s.bytes ++ tag n w.packet
                    pending := Function.update s.pending t none } := by
  simp only [step, hp, w.length_eq, List.take_length]

/-- An append is one of the two. -/
theorem step_cases (h : s.step o a = some s') :
    (∃ t w, a = .header t w ∧ s.pending t = none ∧
      s' = { bytes := s.bytes ++ tag s.calls.length (o.toBytes w.l)
             calls := s.calls ++ [(s.calls.length, w)]
             pending := Function.update s.pending t (some (s.calls.length, w)) }) ∨
    ∃ t n w, a = .packet t ∧ s.pending t = some (n, w) ∧
      s' = { s with bytes := s.bytes ++ tag n w.packet
                    pending := Function.update s.pending t none } := by
  cases a with
  | header t w =>
    cases hp : s.pending t with
    | some c => simp [step, hp] at h
    | none => exact .inl ⟨t, w, rfl, hp, Option.some.inj (h.symm.trans (step_header hp))⟩
  | packet t =>
    cases hp : s.pending t with
    | none => simp [step, hp] at h
    | some c => exact .inr ⟨t, c.1, c.2, rfl, hp, Option.some.inj (h.symm.trans (step_packet hp))⟩

/-- A whole output, byte by byte: the stream of the packets. -/
theorem Whole.stream (h : s.Whole o) : ∃ packets : List Bytes,
    packets.Perm (s.calls.map fun c => c.2.packet) ∧
      s.bytes.map Prod.snd = (hostLength o).stream packets := by
  obtain ⟨order, hperm, hbytes⟩ := h
  refine ⟨order.map fun c => c.2.packet, hperm.map _, ?_⟩
  rw [hbytes]
  clear hperm hbytes
  induction order with
  | nil => rfl
  | cons c order ih =>
    rw [List.flatMap_cons, List.map_append, ih, List.map_cons, LengthCode.stream_cons]
    simp [frameOf, tag, Function.comp_def]

@[simp]
theorem map_fst_tag (n : ℕ) (bs : Bytes) :
    (tag n bs).map Prod.fst = List.replicate bs.length n := by
  simp [tag, Function.comp_def]

/-- The frame of a call is what its two appends append. -/
theorem frameOf_eq (o : ByteOrder) (n : ℕ) (w : WriteCall) :
    frameOf o (n, w) = tag n (o.toBytes w.l) ++ tag n w.packet := by
  have hl : UInt32.ofNat w.packet.length = w.l := by
    rw [← w.length_eq]
    exact UInt32.ofNat_toNat
  rw [frameOf, hostLength_frame, hl, tag, List.map_append]
  rfl

/-- The calls are numbered from zero, and a call that is between its two appends is one of
them and has appended its header. -/
structure Numbered (s : SharedOutput) : Prop where
  map_fst : s.calls.map Prod.fst = List.range s.calls.length
  header : ∀ t n w, s.pending t = some (n, w) → n < s.calls.length ∧ n ∈ s.bytes.map Prod.fst

theorem numbered (h : (sharedOutput o).Reachable s) : s.Numbered := by
  refine h.invariant ?_ fun s a s' hs hstep => ?_
  · rintro s rfl
    exact ⟨rfl, by simp⟩
  · rcases step_cases hstep with ⟨t, w, -, -, rfl⟩ | ⟨t, n, w, -, hp, rfl⟩
    · refine ⟨by simp [hs.map_fst, List.range_succ], fun t' n' w' hp' => ?_⟩
      by_cases ht : t' = t
      · subst ht
        obtain ⟨rfl, rfl⟩ : s.calls.length = n' ∧ w = w' := by simpa using hp'
        simp
      · obtain ⟨hlt, hmem⟩ := hs.header t' n' w' (by simpa [ht] using hp')
        exact ⟨by simp; omega, by simp [hmem]⟩
    · refine ⟨hs.map_fst, fun t' n' w' hp' => ?_⟩
      by_cases ht : t' = t
      · simp [ht] at hp'
      · obtain ⟨hlt, hmem⟩ := hs.header t' n' w' (by simpa [ht] using hp')
        exact ⟨hlt, by simp [hmem]⟩

/-! ### Exclusive calls are whole -/

/-- The shape of the output while calls exclude each other: whole frames, and at most one call
whose packet is still to come. -/
inductive Tidy (o : ByteOrder) (s : SharedOutput) : Prop
  | whole (hpending : ∀ t n w, s.pending t = some (n, w) → w.packet = [])
      (hbytes : s.bytes = s.calls.flatMap (frameOf o))
  | unfinished (t : Sender) (n : ℕ) (w : WriteCall) (done : List (ℕ × WriteCall))
      (hpending : ∀ t' n' w', s.pending t' = some (n', w') → t' ≠ t → w'.packet = [])
      (ht : s.pending t = some (n, w)) (hw : w.packet ≠ []) (hcalls : s.calls = done ++ [(n, w)])
      (hbytes : s.bytes = done.flatMap (frameOf o) ++ tag n (o.toBytes w.l))

/-- A first append, while no packet is still to come. -/
private theorem Tidy.header {t : Sender} {w : WriteCall}
    (hpending : ∀ t n w, s.pending t = some (n, w) → w.packet = [])
    (hbytes : s.bytes = s.calls.flatMap (frameOf o)) :
    Tidy o { bytes := s.bytes ++ tag s.calls.length (o.toBytes w.l)
             calls := s.calls ++ [(s.calls.length, w)]
             pending := Function.update s.pending t (some (s.calls.length, w)) } := by
  have hothers : ∀ t' n' w', Function.update s.pending t (some (s.calls.length, w)) t' =
      some (n', w') → t' ≠ t → w'.packet = [] := fun t' n' w' hp' ht =>
    hpending t' n' w' (by simpa [ht] using hp')
  -- with an empty packet the header is the whole frame
  by_cases hw : w.packet = []
  · refine .whole (fun t' n' w' hp' => ?_) ?_
    · by_cases ht : t' = t
      · subst ht
        obtain ⟨-, rfl⟩ : s.calls.length = n' ∧ w = w' := by simpa using hp'
        exact hw
      · exact hothers t' n' w' hp' ht
    · simp [hbytes, frameOf_eq, hw, tag]
  · exact .unfinished t s.calls.length w s.calls hothers (by simp) hw rfl (by rw [hbytes])

/-- A second append. -/
private theorem Tidy.packet {t : Sender} {n : ℕ} {w : WriteCall} (hs : s.Tidy o)
    (hp : s.pending t = some (n, w)) :
    Tidy o { s with bytes := s.bytes ++ tag n w.packet
                    pending := Function.update s.pending t none } := by
  cases hs with
  | whole hpending hbytes =>
    have hw := hpending t n w hp
    refine .whole (fun t' n' w' hp' => ?_) ?_
    · by_cases ht : t' = t
      · simp [ht] at hp'
      · exact hpending t' n' w' (by simpa [ht] using hp')
    · simp [hbytes, hw, tag]
  | unfinished u m v done hpending hu hv hcalls hbytes =>
    have hothers : ∀ t' n' w', Function.update s.pending t none t' = some (n', w') → t' ≠ u →
        w'.packet = [] := by
      intro t' n' w' hp' htu
      by_cases ht : t' = t
      · simp [ht] at hp'
      · exact hpending t' n' w' (by simpa [ht] using hp') htu
    -- it completes the unfinished frame, or it appends an empty packet
    by_cases htu : t = u
    · subst htu
      obtain ⟨rfl, rfl⟩ := Prod.mk.inj (Option.some.inj (hp.symm.trans hu))
      refine .whole (fun t' n' w' hp' => ?_) ?_
      · by_cases ht : t' = t
        · simp [ht] at hp'
        · exact hothers t' n' w' hp' ht
      · simp [hbytes, hcalls, frameOf_eq]
    · have hw := hpending t n w hp htu
      refine .unfinished u m v done hothers ?_ hv hcalls ?_
      · simpa [Ne.symm htu] using hu
      · simp [hbytes, hw, tag]

/-- **Exclusive calls keep the output tidy.** -/
theorem tidy (h : (sharedOutput o).ReachableUnder Exclusive s) : s.Tidy o := by
  refine h.invariant ?_ fun s a s' hs hguard hstep => ?_
  · rintro s rfl
    exact .whole (by simp) rfl
  · rcases step_cases hstep with ⟨t, w, rfl, hp, rfl⟩ | ⟨t, n, w, rfl, hp, rfl⟩
    · cases hs with
      | unfinished u m v done hpending hu hv => exact absurd (hguard u m v hu) hv
      | whole hpending hbytes => exact Tidy.header hpending hbytes
    · exact hs.packet hp

/-- At rest, a tidy output is whole. -/
theorem Tidy.whole_of_quiescent (h : s.Tidy o) (hq : s.Quiescent) : s.Whole o := by
  cases h with
  | whole hpending hbytes => exact ⟨s.calls, List.Perm.refl _, hbytes⟩
  | unfinished u m v done hpending hu =>
    rw [hq u] at hu
    cases hu

/-! ### Torn calls stay torn -/

/-- The numbers of the calls, byte by byte. -/
def owners (s : SharedOutput) : List ℕ := s.bytes.map Prod.fst

/-- Another call has appended behind the header of the call number `i`, whose packet is still
to come or has come after that. -/
def Torn (s : SharedOutput) : Prop :=
  ∃ i j, i ≠ j ∧ ([i, j, i].Sublist s.owners ∨
    [i, j].Sublist s.owners ∧ ∃ t w, s.pending t = some (i, w) ∧ w.packet ≠ [])

/-- Calls that are in one piece do not surround each other. -/
private theorem not_sublist_of_pieces {order : List (ℕ × WriteCall)}
    (hnodup : (order.map Prod.fst).Nodup) {i j : ℕ} (hij : i ≠ j) :
    ¬ [i, j, i].Sublist ((order.flatMap (frameOf o)).map Prod.fst) := by
  induction order with
  | nil => simp
  | cons c order ih =>
    rw [List.map_cons, List.nodup_cons] at hnodup
    have hlater : ∀ n, n ∈ (order.flatMap (frameOf o)).map Prod.fst → n ∈ order.map Prod.fst := by
      intro n hn
      simp only [frameOf, tag, List.map_flatMap, List.map_map, List.mem_flatMap, List.mem_map,
        Function.comp_apply] at hn ⊢
      obtain ⟨c', hc', -, -, rfl⟩ := hn
      exact ⟨c', hc', rfl⟩
    rw [List.flatMap_cons, List.map_append, frameOf, map_fst_tag, List.sublist_append_iff]
    rintro ⟨l₁, l₂, heq, hl₁, hl₂⟩
    -- if the first of the three is in the piece of `c`, so are the others
    cases l₁ with
    | nil => exact ih hnodup.2 (by rw [heq]; exact hl₂)
    | cons x l₁ =>
      obtain ⟨rfl, htail⟩ : i = x ∧ [j, i] = l₁ ++ l₂ := by simpa using heq
      obtain rfl : i = c.1 := List.eq_of_mem_replicate (hl₁.subset (by simp))
      cases l₁ with
      | nil =>
        rw [List.nil_append] at htail
        exact hnodup.1 (hlater _ (hl₂.subset (by simp [← htail])))
      | cons y l₁ =>
        obtain ⟨rfl, -⟩ : j = y ∧ [c.1] = l₁ ++ l₂ := by simpa using htail
        exact hij (List.eq_of_mem_replicate (hl₁.subset (by simp))).symm

/-- At rest, a torn output is not whole. -/
theorem Torn.not_whole (h : s.Torn) (hnum : s.Numbered) (hq : s.Quiescent) : ¬ s.Whole o := by
  rintro ⟨order, hperm, hbytes⟩
  obtain ⟨i, j, hij, hsub | ⟨-, t, w, ht, -⟩⟩ := h
  · have hnodup : (order.map Prod.fst).Nodup := by
      rw [(hperm.map Prod.fst).nodup_iff, hnum.map_fst]
      exact List.nodup_range
    rw [owners, hbytes] at hsub
    exact not_sublist_of_pieces hnodup hij hsub
  · rw [hq t] at ht
    cases ht

/-- A torn output stays torn. -/
theorem Torn.next (h : s.Torn) (hstep : s.step o a = some s') : s'.Torn := by
  obtain ⟨i, j, hij, h⟩ := h
  refine ⟨i, j, hij, ?_⟩
  rcases step_cases hstep with ⟨t, w, -, hp, rfl⟩ | ⟨t, n, w, -, hp, rfl⟩
  all_goals
    simp only [owners, List.map_append, map_fst_tag] at h ⊢
    rcases h with hsub | ⟨hsub, u, v, hu, hv⟩
  · exact .inl (hsub.trans (List.sublist_append_left _ _))
  · have hut : u ≠ t := by
      rintro rfl
      rw [hp] at hu
      cases hu
    exact .inr ⟨hsub.trans (List.sublist_append_left _ _), u, v, by simpa [hut] using hu, hv⟩
  · exact .inl (hsub.trans (List.sublist_append_left _ _))
  · by_cases hut : u = t
    · -- the packet of the torn call comes, behind the append of the other one
      subst hut
      obtain ⟨rfl, rfl⟩ := Prod.mk.inj (Option.some.inj (hp.symm.trans hu))
      have hlast : [n].Sublist (List.replicate w.packet.length n) :=
        List.singleton_sublist.mpr (List.mem_replicate.mpr
          ⟨List.length_pos_of_ne_nil hv |>.ne', rfl⟩)
      exact .inl (hsub.append hlast)
    · exact .inr ⟨hsub.trans (List.sublist_append_left _ _), u, v, by simpa [hut] using hu, hv⟩

/-- A first append between the two of another call tears that call. -/
theorem torn_of_not_exclusive (hnum : s.Numbered) (hstep : s.step o a = some s')
    (h : ¬ s.Exclusive a) : s'.Torn := by
  rcases step_cases hstep with ⟨t, w, rfl, hp, rfl⟩ | ⟨t, n, w, rfl, -, rfl⟩
  · simp only [Exclusive, not_forall] at h
    obtain ⟨u, n, v, hu, hv⟩ := h
    obtain ⟨hlt, hmem⟩ := hnum.header u n v hu
    have hut : u ≠ t := by
      rintro rfl
      rw [hp] at hu
      cases hu
    refine ⟨n, s.calls.length, by omega, .inr ⟨?_, u, v, by simpa [hut] using hu, hv⟩⟩
    rw [owners, List.map_append, map_fst_tag]
    exact (List.singleton_sublist.mpr hmem).append
      (List.singleton_sublist.mpr (by simp))
  · exact absurd trivial h

/-- **The output is whole exactly when the calls excluded each other.** -/
theorem whole_iff (o : ByteOrder) {s : SharedOutput} (h : (sharedOutput o).Reachable s)
    (hq : s.Quiescent) :
    s.Whole o ↔ (sharedOutput o).ReachableUnder Exclusive s := by
  constructor
  · intro hwhole
    refine TransitionSystem.reachableUnder_of_not_mark (M := Torn) ?_ ?_ h fun htorn =>
      htorn.not_whole (numbered h) hq hwhole
    · exact fun s a s' hreach hstep hguard => torn_of_not_exclusive (numbered hreach) hstep hguard
    · exact fun s a s' hstep htorn => htorn.next hstep
  · exact fun hguard => (tidy hguard).whole_of_quiescent hq

/-- The `ESTABLISH` response and a `DATA` response, as far as their headers and packets go. -/
private def establishCall : WriteCall := ⟨[0x40, 1, 0x48, 1], 4, by decide⟩

private def dataCall : WriteCall := ⟨[0x40, 1, 0x48, 3], 4, by decide⟩

/-- One call after the other: the theorem applies at the end. -/
theorem whole_iff_in_turn : ∃ s, (sharedOutput .little).replay ⟨[], [], fun _ => none⟩
      [.header .eventThread establishCall, .packet .eventThread,
        .header (.tunThread 0) dataCall, .packet (.tunThread 0)] = some s ∧
    (s.Whole .little ↔ (sharedOutput .little).ReachableUnder Exclusive s) := by
  obtain ⟨s, hreplay, hq⟩ : ∃ s, (sharedOutput .little).replay ⟨[], [], fun _ => none⟩
      [.header .eventThread establishCall, .packet .eventThread,
        .header (.tunThread 0) dataCall, .packet (.tunThread 0)] = some s ∧ s.Quiescent := by
    refine ⟨_, rfl, fun t => ?_⟩
    simp only [Function.update_apply]
    split_ifs <;> rfl
  exact ⟨s, hreplay, whole_iff .little (TransitionSystem.reachable_of_replay rfl hreplay) hq⟩

/-- The TUN thread writes a `DATA` response while the event thread is between the two appends
of the `ESTABLISH` response. -/
theorem not_whole :
    ¬ ∀ s, (sharedOutput .little).Reachable s → s.Quiescent → s.Whole .little := by
  intro h
  obtain ⟨s, hreplay, howners, hq⟩ : ∃ s, (sharedOutput .little).replay ⟨[], [], fun _ => none⟩
      [.header .eventThread establishCall, .header (.tunThread 0) dataCall,
        .packet .eventThread, .packet (.tunThread 0)] = some s ∧
      [0, 1, 0].Sublist s.owners ∧ s.Quiescent := by
    refine ⟨_, rfl, by decide, fun t => ?_⟩
    simp only [Function.update_apply]
    split_ifs <;> rfl
  have hreach : (sharedOutput .little).Reachable s :=
    TransitionSystem.reachable_of_replay rfl hreplay
  have htorn : s.Torn := ⟨0, 1, by decide, .inl howners⟩
  exact htorn.not_whole (numbered hreach) hq (h s hreach hq)

end SharedOutput

end SplendidLinker
