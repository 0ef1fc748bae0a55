import SplendidLinker.Foundations.TransitionSystem

/-!
# A first-in first-out channel

The channel that a faithful transport of packets implements: items are accepted at one end and
delivered at the other, in the same order and each once. What has been delivered is at every
moment a first part of what has been accepted (`delivered_prefix`), so a system that is
simulated by the channel alters, reorders, duplicates and loses nothing on the way.
-/

namespace Foundations

universe u

variable {α : Type u}

/-- A channel: what is under way, and what has gone in and come out so far. -/
structure Fifo (α : Type u) where
  queue : List α := []
  accepted : List α := []
  delivered : List α := []

/-- The two ends of a channel. -/
inductive FifoAction (α : Type u)
  | accept (a : α)
  | deliver

/-- The channel. -/
def fifo (α : Type u) : TransitionSystem (Fifo α) (FifoAction α) where
  init f := f = {}
  step f
    | .accept a => some { f with queue := f.queue ++ [a], accepted := f.accepted ++ [a] }
    | .deliver =>
      match f.queue with
      | [] => none
      | a :: queue => some { f with queue := queue, delivered := f.delivered ++ [a] }

namespace Fifo

/-- **Nothing is lost**: what has gone in has come out or is under way. -/
theorem accepted_eq {f : Fifo α} (h : (fifo α).Reachable f) :
    f.accepted = f.delivered ++ f.queue := by
  refine h.invariant (I := fun f => f.accepted = f.delivered ++ f.queue) ?_
    fun f l f' hf hstep => ?_
  · rintro f rfl
    rfl
  · cases l with
    | accept a =>
      obtain rfl := Option.some.inj hstep
      simp [hf]
    | deliver =>
      simp only [fifo] at hstep
      split at hstep
      case h_1 => cases hstep
      case h_2 a queue hq =>
        obtain rfl := Option.some.inj hstep
        simp [hf, hq]

/-- **What comes out is a first part of what went in.** -/
theorem delivered_prefix {f : Fifo α} (h : (fifo α).Reachable f) : f.delivered <+: f.accepted :=
  ⟨f.queue, (accepted_eq h).symm⟩

/-- Accepting a list of items, one after the other. -/
theorem leadsTo_accept (f : Fifo α) (as : List α) :
    (fifo α).LeadsTo f { f with queue := f.queue ++ as, accepted := f.accepted ++ as } := by
  induction as generalizing f with
  | nil =>
    simp only [List.append_nil]
    exact Relation.ReflTransGen.refl
  | cons a as ih =>
    have hrest := ih { f with queue := f.queue ++ [a], accepted := f.accepted ++ [a] }
    simp only [List.append_assoc, List.singleton_append] at hrest
    exact Relation.ReflTransGen.head ⟨.accept a, rfl⟩ hrest

/-- Delivering the item at the front. -/
theorem leadsTo_deliver {f : Fifo α} {a : α} {queue : List α} (h : f.queue = a :: queue) :
    (fifo α).LeadsTo f { f with queue := queue, delivered := f.delivered ++ [a] } :=
  Relation.ReflTransGen.single ⟨.deliver, by simp [fifo, h]⟩

end Fifo

end Foundations
