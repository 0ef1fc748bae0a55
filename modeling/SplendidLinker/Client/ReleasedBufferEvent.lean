import SplendidLinker.Client.PacketTunnelProvider
import SplendidLinker.Client.StartCompletion

/-!
# The released bufferevent

The dispatch thread of the client frees the bufferevent at a message that is not a response, and
leaves `mServerBufferEvent` as it is. The packet flow calls `handlePacket` on another thread,
batch after batch, and each packet is written to `mServerBufferEvent`.

After the release nothing should be written, and the pointer should no longer refer to the
bufferevent (`ReleasedUnused`). Nothing resets the pointer, so the law is lost with the first
message that is not a response, and kept exactly by the runs without one
(`releasedUnused_iff`).
-/

namespace SplendidLinker

open Foundations

/-- What happens to the bufferevent of the client. -/
inductive BufferEventUse
  /-- `bufferevent_free`. -/
  | free
  /-- A `bufferevent_write` of `SLClient::writePacket`. -/
  | write (data : Bytes)
  deriving DecidableEq

/-- A client with its packet flow. -/
structure ClientSession where
  client : SLClient
  /-- `mServerBufferEvent` refers to the bufferevent, as `startTunnelWithServerAddress` has set
  it. -/
  mServerBufferEvent : Bool := true
  /-- The `readPackets` requests that the packet flow has not completed. -/
  outstanding : ℕ := 0
  /-- The `handlePacket` calls that run: the `bufferevent_write` calls each has still to make. -/
  pumps : List (List Bytes) := []
  /-- The uses of the bufferevent so far. -/
  uses : List BufferEventUse := []

/-- The choices of the scheduler, of the server and of the packet flow. -/
inductive ClientSessionAction
  /-- The dispatch thread delivers an event or a message. -/
  | deliver (d : Delivery)
  /-- The packet flow completes a request, and `handlePacket` starts. -/
  | handlePacket (packets : List FlowPacket)
  /-- The `handlePacket` call `k` makes its next `bufferevent_write` call. -/
  | append (k : ℕ)
  /-- The `handlePacket` call `k` asks for the next batch and returns. -/
  | readPackets (k : ℕ)

namespace ClientSession

/-- The requests that a callback makes: `tunnelDidEstablish` asks for the first batch. -/
def requests : ClientAction → ℕ
  | .establishCallback _ _ => 1
  | _ => 0

/-- The use of the bufferevent in an action of the dispatch thread. -/
def useOf : ClientAction → Option BufferEventUse
  | .bufferEventFree => some .free
  | _ => none

/-- A delivery. `mServerBufferEvent` is not changed by any callback. -/
def deliver (pb : Protobuf) (o : ByteOrder) (s : ClientSession) (d : Delivery) : ClientSession :=
  let client := s.client.deliver pb o d
  let new := client.trace.drop s.client.trace.length
  { s with
    client := client
    outstanding := s.outstanding + (new.map requests).sum
    uses := s.uses ++ new.filterMap useOf }

/-- One step of the client. -/
def step (pb : Protobuf) (o : ByteOrder) (s : ClientSession) :
    ClientSessionAction → Option ClientSession
  | .deliver d =>
    if s.client.freed = false ∧ s.client.running = true then some (s.deliver pb o d) else none
  | .handlePacket packets =>
    match s.outstanding with
    | n + 1 => some { s with
        outstanding := n
        pumps := s.pumps ++ [SLClient.handlePacketAppends pb o packets] }
    | 0 => none
  | .append k =>
    match s.pumps[k]? with
    | some (bytes :: appends) =>
      if s.mServerBufferEvent then
        some { s with
          client := { s.client with output := s.client.output ++ bytes }
          pumps := s.pumps.set k appends
          uses := s.uses ++ [.write bytes] }
      else none
    | _ => none
  | .readPackets k =>
    match s.pumps[k]? with
    | some [] => some { s with
        outstanding := s.outstanding + 1
        pumps := s.pumps.eraseIdx k }
    | _ => none

/-- The law of the bufferevent. -/
structure ReleasedUnused (s : ClientSession) : Prop where
  /-- No write comes after the release. -/
  unused : s.uses.Pairwise fun u w => u = .free → ∀ data, w ≠ .write data
  /-- After the release, the pointer does not refer to the bufferevent. -/
  pointer : .free ∈ s.uses → s.mServerBufferEvent = false

/-- The next step delivers no message that is not a response. -/
def OnlyResponses (_ : ClientSession) : ClientSessionAction → Prop
  | .deliver d => ¬ d.Releases
  | _ => True

end ClientSession

/-- A client whose `startTunnelWithServerAddress` has succeeded. -/
def clientSession (pb : Protobuf) (o : ByteOrder) (options : List (String × Bytes)) :
    TransitionSystem ClientSession ClientSessionAction where
  init s := s = { client := .start options }
  step := ClientSession.step pb o

namespace ClientSession

variable {pb : Protobuf} {o : ByteOrder} {options : List (String × Bytes)} {s s' : ClientSession}
  {a : ClientSessionAction}

/-- What a step does to the bufferevent. -/
inductive Stepped (s s' : ClientSession) (a : ClientSessionAction) : Prop
  | kept (ha : s.OnlyResponses a) (new : List BufferEventUse) (hnew : .free ∉ new)
      (huses : s'.uses = s.uses ++ new)
  | released (ha : ¬ s.OnlyResponses a) (huses : s'.uses = s.uses ++ [.free])

/-- What holds along every run. -/
structure Referring (s : ClientSession) : Prop where
  registered : s.client.Registered
  /-- Nothing resets the pointer. -/
  pointer : s.mServerBufferEvent = true

theorem Referring.next (h : s.Referring) (hstep : s.step pb o a = some s') :
    s'.Referring ∧ Stepped s s' a := by
  cases a with
  | deliver d =>
    simp only [step, Option.ite_none_right_eq_some, Option.some.injEq] at hstep
    obtain ⟨-, rfl⟩ := hstep
    obtain ⟨new, hcalls, htrace, hreg⟩ := SLClient.deliveredTo_deliver pb o h.registered d
    rw [deliver]
    generalize s.client.deliver pb o d = client at htrace hreg ⊢
    simp only [htrace, List.drop_left]
    refine ⟨⟨hreg, h.pointer⟩, ?_⟩
    cases hcalls with
    | nothing hd hr => exact .kept hr [] List.not_mem_nil rfl
    | error hd hr status ctx => exact .kept hr [] List.not_mem_nil rfl
    | establish msg ht hc => exact .kept (not_not.mpr ht) [] List.not_mem_nil rfl
    | readPacket msg ht hc => exact .kept (not_not.mpr ht) [] List.not_mem_nil rfl
    | release msg ht => exact .released (not_not.mpr ht) rfl
  | handlePacket packets =>
    simp only [step] at hstep
    split at hstep
    · rw [← Option.some.inj hstep]
      exact ⟨⟨h.registered, h.pointer⟩, .kept trivial [] List.not_mem_nil (by simp)⟩
    · cases hstep
  | append k =>
    simp only [step] at hstep
    split at hstep
    · rw [if_pos h.pointer] at hstep
      rw [← Option.some.inj hstep]
      obtain ⟨h1, h2, h3, h4⟩ := h.registered
      exact ⟨⟨⟨h1, h2, h3, h4⟩, h.pointer⟩, .kept trivial [.write _] (by simp) rfl⟩
    · cases hstep
  | readPackets k =>
    simp only [step] at hstep
    split at hstep
    · rw [← Option.some.inj hstep]
      exact ⟨⟨h.registered, h.pointer⟩, .kept trivial [] List.not_mem_nil (by simp)⟩
    · cases hstep

theorem referring_of_reachable (h : (clientSession pb o options).Reachable s) : s.Referring := by
  refine h.invariant (I := Referring) ?_ fun s a s' hs hstep => (hs.next hstep).1
  rintro s rfl
  exact ⟨SLClient.registered_start options, rfl⟩

/-- What was released stays released. -/
theorem Stepped.free_mem (h : Stepped s s' a) (hfree : .free ∈ s.uses) : .free ∈ s'.uses := by
  cases h with
  | kept ha new hnew huses => exact huses ▸ List.mem_append_left new hfree
  | released ha huses => exact huses ▸ List.mem_append_left _ hfree

/-- A step that delivers no message but responses does not release. -/
theorem Stepped.free_not_mem (h : Stepped s s' a) (ha : s.OnlyResponses a)
    (hfree : .free ∉ s.uses) : .free ∉ s'.uses := by
  cases h with
  | kept _ new hnew huses =>
    rw [huses, List.mem_append, not_or]
    exact ⟨hfree, hnew⟩
  | released hno huses => exact absurd ha hno

/-- A step that delivers a message that is not a response releases. -/
theorem Stepped.free_mem_of_not (h : Stepped s s' a) (ha : ¬ s.OnlyResponses a) :
    .free ∈ s'.uses := by
  cases h with
  | kept hyes new hnew huses => exact absurd hyes ha
  | released _ huses => exact huses ▸ List.mem_append_right _ (List.mem_singleton_self _)

/-- Since nothing resets the pointer, the law is kept as long as nothing is released. -/
theorem Referring.releasedUnused_iff_free (h : s.Referring) :
    s.ReleasedUnused ↔ .free ∉ s.uses := by
  constructor
  · intro hlaw hfree
    have hpointer := hlaw.pointer hfree
    simp [h.pointer] at hpointer
  · intro hfree
    refine ⟨List.Pairwise.imp_of_mem ?_ (List.pairwise_of_forall fun _ _ => trivial), fun hmem =>
      absurd hmem hfree⟩
    rintro u w hu - - rfl
    exact absurd hu hfree

/-- **The bufferevent is not used after its release exactly in the runs in which it is not
released:** all messages are responses. -/
theorem releasedUnused_iff (h : (clientSession pb o options).Reachable s) :
    s.ReleasedUnused ↔ (clientSession pb o options).ReachableUnder OnlyResponses s := by
  rw [(referring_of_reachable h).releasedUnused_iff_free]
  refine TransitionSystem.iff_reachableUnder (K := fun s => .free ∉ s.uses) ?_ ?_ ?_ h
  · rintro s rfl
    exact List.not_mem_nil
  · intro s a s' hs hstep hfree hmem
    obtain ⟨-, hstepped⟩ := (referring_of_reachable hs).next hstep
    exact hfree (hstepped.free_mem hmem)
  · intro s a s' hs hfree hstep
    obtain ⟨-, hstepped⟩ := (referring_of_reachable hs).next hstep
    refine ⟨fun hfree' => ?_, fun ha => hstepped.free_not_mem ha hfree⟩
    by_contra ha
    exact hfree' (hstepped.free_mem_of_not ha)

/-- A packet of four bytes from the packet flow. -/
private def fourBytes : FlowPacket := ⟨[0x45, 0, 0, 4], by decide⟩

/-- An `ESTABLISH` response. -/
private def establishResponse : TunnelMessage :=
  { type := .known .response, messageCode := .known .establish }

/-- A session with a response and the first write of a batch. -/
theorem releasedUnused_iff_response :
    ∃ s : ClientSession, s.uses ≠ [] ∧
      (clientSession wireFormat .little adminOptions).ReachableUnder OnlyResponses s := by
  have hrun : ((clientSession wireFormat .little adminOptions).replay
      { client := .start adminOptions }
      [.deliver (.event SLClient.bevEventConnected), .deliver (.message establishResponse),
        .handlePacket [fourBytes], .append 0]).map (·.uses) = some [.write [10, 0, 0, 0]] := by
    decide
  obtain ⟨s, hreach, huses⟩ := TransitionSystem.exists_reachable_of_replay
    (T := clientSession wireFormat .little adminOptions) rfl hrun
  exact ⟨s, by simp [huses], (releasedUnused_iff hreach).mp ⟨by simp [huses], by simp [huses]⟩⟩

/-- The server sends a message of type `REQUEST`, the bufferevent is freed, and the next batch is
written to it. -/
theorem not_releasedUnused :
    ∃ s data, (clientSession wireFormat .little adminOptions).Reachable s ∧
      s.uses = [.free, .write data] ∧ s.mServerBufferEvent = true ∧ ¬ s.ReleasedUnused := by
  have hrun : ((clientSession wireFormat .little adminOptions).replay
      { client := .start adminOptions }
      [.deliver (.message establishResponse), .deliver (.message { type := .known .request }),
        .handlePacket [fourBytes], .append 0]).map (fun s => (s.uses, s.mServerBufferEvent)) =
      some ([.free, .write [10, 0, 0, 0]], true) := by decide
  obtain ⟨s, hreach, heq⟩ := TransitionSystem.exists_reachable_of_replay
    (T := clientSession wireFormat .little adminOptions) rfl hrun
  simp only [Prod.mk.injEq] at heq
  refine ⟨s, _, hreach, heq.1, heq.2, fun hlaw => ?_⟩
  simpa [heq] using hlaw.unused

end ClientSession

end SplendidLinker
