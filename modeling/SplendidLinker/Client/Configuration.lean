import Mathlib.Data.List.Induction
import SplendidLinker.Client.Delivery

/-!
# The configuration of a client

A client keeps the ip, the gateway, the submask and the DNS servers that the server assigns to
it. They should be those of the last `ESTABLISH` response (`FollowsLast`), so that the same
response once more changes nothing (`Repeatable`).

The read callback replaces three of the members and appends to the fourth
(`configuration_dispatchAll`). So the DNS servers follow the last response exactly if the list
was empty before it, and a response can be repeated exactly if it names no DNS server
(`followsLast_iff_and_repeatable_iff`).
-/

namespace SplendidLinker

/-- What the server assigns to a client. -/
structure Configuration where
  ip : Bytes
  gateway : Bytes
  submask : Bytes
  dns : List Bytes
  deriving DecidableEq

/-- The configuration that a client has. -/
def SLClient.configuration (c : SLClient) : Configuration :=
  ⟨c.mIp, c.mGateway, c.mSubmask, c.mDns⟩

/-- The configuration that a message assigns. -/
def TunnelMessage.configuration (m : TunnelMessage) : Configuration :=
  ⟨m.ip, m.gateway, m.submask, m.dns⟩

/-- The messages with the code `ESTABLISH`. -/
def establishResponses (ms : List TunnelMessage) : List TunnelMessage :=
  ms.filter fun m => m.messageCode = .known .establish

namespace SLClient

/-- The read callback dispatches the messages, one after the other. -/
def dispatchAll (c : SLClient) (ms : List TunnelMessage) : SLClient := ms.foldl dispatch c

/-- The configuration is the one of the last `ESTABLISH` response, and the initial one if there
was none. -/
def FollowsLast (c : SLClient) (ms : List TunnelMessage) : Prop :=
  (c.dispatchAll ms).configuration =
    ((establishResponses ms).getLast?.map TunnelMessage.configuration).getD c.configuration

/-- The last `ESTABLISH` response once more changes nothing. -/
def Repeatable (c : SLClient) (ms : List TunnelMessage) : Prop :=
  ∀ m, (establishResponses ms).getLast? = some m →
    ((c.dispatchAll ms).dispatch m).configuration = (c.dispatchAll ms).configuration

variable {c : SLClient} {m : TunnelMessage} {ms : List TunnelMessage}

@[simp]
theorem configuration_call (c : SLClient) (registered : Bool) (a : ClientAction) :
    (c.call registered a).configuration = c.configuration := by
  rw [call]
  split <;> rfl

/-- An `ESTABLISH` response replaces three members and appends to the fourth. -/
theorem configuration_dispatch_establish (ht : m.type = .known .response)
    (hc : m.messageCode = .known .establish) :
    (c.dispatch m).configuration = { m.configuration with dns := c.mDns ++ m.dns } := by
  rw [dispatch, if_neg (not_not.mpr ht), hc]
  exact configuration_call ..

/-- No other response changes the configuration. -/
theorem configuration_dispatch_of_ne (ht : m.type = .known .response)
    (hc : m.messageCode ≠ .known .establish) :
    (c.dispatch m).configuration = c.configuration := by
  rw [dispatch, if_neg (not_not.mpr ht)]
  split
  case h_1 hest => exact absurd hest hc
  all_goals exact configuration_call ..

/-- **What a sequence of responses does.** The last `ESTABLISH` response has set three of the
members, and the fourth has grown by the DNS servers of them all. -/
theorem configuration_dispatchAll (ht : ∀ m ∈ ms, m.type = .known .response) :
    (c.dispatchAll ms).configuration =
      { ((establishResponses ms).getLast?.map TunnelMessage.configuration).getD c.configuration
          with dns := c.mDns ++ (establishResponses ms).flatMap TunnelMessage.dns } := by
  induction ms using List.reverseRecOn with
  | nil => simp [dispatchAll, establishResponses, configuration]
  | append_singleton ms m ih =>
    have hm : m.type = .known .response := ht m (by simp)
    have hstep : c.dispatchAll (ms ++ [m]) = (c.dispatchAll ms).dispatch m := by
      simp [dispatchAll]
    have ih := ih fun m hm => ht m (by simp [hm])
    have hdns : (c.dispatchAll ms).mDns = _ := congrArg Configuration.dns ih
    by_cases hc : m.messageCode = .known .establish
    · have hlast : establishResponses (ms ++ [m]) = establishResponses ms ++ [m] := by
        simp [establishResponses, hc]
      rw [hstep, configuration_dispatch_establish hm hc, hlast, hdns]
      simp
    · have hsame : establishResponses (ms ++ [m]) = establishResponses ms := by
        simp [establishResponses, hc]
      rw [hstep, configuration_dispatch_of_ne hm hc, hsame, ih]

/-- **The configuration follows the last `ESTABLISH` response exactly if the list of DNS servers
was empty before it; and the response can be repeated exactly if it names no DNS server.** -/
theorem followsLast_iff_and_repeatable_iff (c : SLClient)
    (ht : ∀ m ∈ ms, m.type = .known .response) :
    (c.FollowsLast ms ↔ establishResponses ms = [] ∨
      c.mDns = [] ∧ ∀ m ∈ (establishResponses ms).dropLast, m.dns = []) ∧
    (c.Repeatable ms ↔ ∀ m, (establishResponses ms).getLast? = some m → m.dns = []) := by
  constructor
  · rw [FollowsLast, configuration_dispatchAll ht]
    rcases List.eq_nil_or_concat (establishResponses ms) with hnil | ⟨es, m, hes⟩
    · rw [hnil]
      simp [configuration]
    · rw [hes]
      simp [TunnelMessage.configuration, ← List.append_assoc]
  · refine forall₂_congr fun m hlast => ?_
    obtain ⟨hm, hc⟩ := List.mem_filter.mp (List.mem_of_getLast? hlast)
    have hall := configuration_dispatchAll (c := c) ht
    have hdns : (c.dispatchAll ms).mDns = _ := congrArg Configuration.dns hall
    rw [configuration_dispatch_establish (ht m hm) (of_decide_eq_true hc), hall, hdns, hlast]
    simp

/-- An `ESTABLISH` response without a DNS server, a packet, and an `ESTABLISH` response with
one. -/
theorem followsLast_iff_first_without_dns :
    (SLClient.start []).FollowsLast
      [{ type := .known .response, messageCode := .known .establish, ip := [1] },
        { type := .known .response, messageCode := .known .data },
        { type := .known .response, messageCode := .known .establish, ip := [2], dns := [[8]] }] :=
  (followsLast_iff_and_repeatable_iff (SLClient.start []) (by decide)).1.mpr
    (.inr ⟨rfl, by decide⟩)

/-- Two `ESTABLISH` responses with a DNS server each, and one that comes twice. -/
theorem not_followsLast :
    (¬ ∀ (c : SLClient) (ms : List TunnelMessage), (∀ m ∈ ms, m.type = .known .response) →
      c.FollowsLast ms ∧ c.Repeatable ms) ∧
    ((SLClient.start []).dispatchAll
      [{ type := .known .response, messageCode := .known .establish, dns := [[1]] },
        { type := .known .response, messageCode := .known .establish, dns := [[2]] }]).mDns =
      [[1], [2]] := by
  refine ⟨fun h => ?_, by decide⟩
  have hlaw := h (SLClient.start [])
    [{ type := .known .response, messageCode := .known .establish, dns := [[1]] }] (by decide)
  exact absurd (hlaw.2 _ rfl) (by decide)

end SLClient

end SplendidLinker
