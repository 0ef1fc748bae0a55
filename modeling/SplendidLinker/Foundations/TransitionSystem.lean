import Mathlib.Logic.Relation
import Mathlib.Tactic.Common

/-!
# Executable transition systems and guarded reachability

A `TransitionSystem S L` has initial states in `S` and an executable step function: `step s l`
is the state after the action `l`, or `none` where `l` is not enabled in `s`. One definition
serves to replay a concrete run (`replay`) and to reason about all of them.

`ReachableUnder G s` says that `s` is reached by a run **every step of which meets the guard
`G`**, asked of the state before the step and of its action; `Reachable` is the unguarded
case. A law about all runs is an invariant (`Reachable.invariant`), and a law that holds in
the guarded runs only is an invariant of `ReachableUnder G`.

Guards are exact when a step that breaks the guard leaves a mark no later step removes:
`reachableUnder_of_not_mark` recovers the guard from the absence of the mark, whichever run
led to the state, and `iff_reachableUnder` is the case in which the mark is the breach of a law.
`Reachable.simulate` transports reachability along a simulation, one concrete step being matched
by any finite number of abstract ones.
-/

namespace Foundations

universe u v u' v'

/-- A transition system on states `S` with actions `L` and an executable step function. -/
structure TransitionSystem (S : Type u) (L : Type v) where
  /-- The initial states. -/
  init : S → Prop
  /-- The state after an action, where the action is enabled. -/
  step : S → L → Option S

namespace TransitionSystem

variable {S : Type u} {L : Type v} {T : TransitionSystem S L} {G : S → L → Prop}

/-- The states reached by a run every step of which meets the guard `G`. -/
inductive ReachableUnder (T : TransitionSystem S L) (G : S → L → Prop) : S → Prop
  | init {s : S} : T.init s → ReachableUnder T G s
  | step {s s' : S} {l : L} :
      ReachableUnder T G s → G s l → T.step s l = some s' → ReachableUnder T G s'

/-- The states reached by any run. -/
def Reachable (T : TransitionSystem S L) : S → Prop := T.ReachableUnder fun _ _ => True

/-- `t` is reached from `s` by finitely many steps. -/
def LeadsTo (T : TransitionSystem S L) : S → S → Prop :=
  Relation.ReflTransGen fun s t => ∃ l, T.step s l = some t

/-- Replay a list of actions; `none` where one of them is not enabled. -/
def replay (T : TransitionSystem S L) : S → List L → Option S
  | s, [] => some s
  | s, l :: ls =>
    match T.step s l with
    | none => none
    | some s' => replay T s' ls

/-- A guarded run is a run. -/
theorem ReachableUnder.reachable {s : S} (h : T.ReachableUnder G s) : T.Reachable s := by
  induction h with
  | init h => exact .init h
  | step _ _ hstep ih => exact .step ih trivial hstep

/-- A step extends a run. -/
theorem Reachable.next {s s' : S} {l : L} (h : T.Reachable s) (hstep : T.step s l = some s') :
    T.Reachable s' :=
  .step h trivial hstep

/-- **The invariant rule.** What holds initially and is kept by every step that meets the
guard holds in every state a guarded run reaches. -/
theorem ReachableUnder.invariant {I : S → Prop} (hinit : ∀ s, T.init s → I s)
    (hstep : ∀ s l s', I s → G s l → T.step s l = some s' → I s') {s : S}
    (h : T.ReachableUnder G s) : I s := by
  induction h with
  | init h => exact hinit _ h
  | step _ hG hs ih => exact hstep _ _ _ ih hG hs

/-- The invariant rule for unguarded runs. -/
theorem Reachable.invariant {I : S → Prop} (hinit : ∀ s, T.init s → I s)
    (hstep : ∀ s l s', I s → T.step s l = some s' → I s') {s : S} (h : T.Reachable s) : I s :=
  ReachableUnder.invariant hinit (fun s l s' hI _ hs => hstep s l s' hI hs) h

/-- **Exactness of a guard.** If a step that breaks the guard sets a mark `M`, and no step
clears it, then a reachable state without the mark was reached under the guard. -/
theorem reachableUnder_of_not_mark {M : S → Prop}
    (hset : ∀ s l s', T.Reachable s → T.step s l = some s' → ¬ G s l → M s')
    (hkeep : ∀ s l s', T.step s l = some s' → M s → M s') {s : S} (h : T.Reachable s)
    (hs : ¬ M s) : T.ReachableUnder G s := by
  induction h with
  | init h => exact .init h
  | @step s s' l hreach _ hstep ih =>
    have hG : G s l := by
      by_contra hG
      exact hs (hset s l s' hreach hstep hG)
    exact .step (ih fun hm => hs (hkeep s l s' hstep hm)) hG hstep

/-- **Exactness of a guard for a law.** If the law holds initially, stays broken once it is broken,
and is kept by exactly the steps that meet the guard, then it holds exactly in the states that
are reached under the guard. -/
theorem iff_reachableUnder {K : S → Prop} (hinit : ∀ s, T.init s → K s)
    (hback : ∀ s l s', T.Reachable s → T.step s l = some s' → K s' → K s)
    (hstep : ∀ s l s', T.Reachable s → K s → T.step s l = some s' → (K s' ↔ G s l)) {s : S}
    (h : T.Reachable s) : K s ↔ T.ReachableUnder G s := by
  constructor
  · intro hK
    induction h with
    | init h => exact .init h
    | @step s s' l hreach _ hs ih =>
      have hprev := hback s l s' hreach hs hK
      exact .step (ih hprev) ((hstep s l s' hreach hprev hs).mp hK) hs
  · intro hunder
    clear h
    induction hunder with
    | init h => exact hinit _ h
    | @step s s' l hreach hG hs ih => exact (hstep s l s' hreach.reachable ih hs).mpr hG

/-- Reachability goes on along further steps. -/
theorem Reachable.leadsTo {s t : S} (h : T.Reachable s) (hst : T.LeadsTo s t) :
    T.Reachable t := by
  induction hst with
  | refl => exact h
  | tail _ hstep ih =>
    obtain ⟨l, hl⟩ := hstep
    exact ih.next hl

/-- A successful replay is a run. -/
theorem leadsTo_of_replay {s t : S} {ls : List L} (h : T.replay s ls = some t) :
    T.LeadsTo s t := by
  induction ls generalizing s with
  | nil =>
    obtain rfl : s = t := Option.some.inj h
    exact Relation.ReflTransGen.refl
  | cons l ls ih =>
    rw [replay] at h
    cases hl : T.step s l with
    | none => simp [hl] at h
    | some s' =>
      rw [hl] at h
      exact Relation.ReflTransGen.head ⟨l, hl⟩ (ih h)

/-- A replay begins with its first action. -/
theorem replay_cons_eq_some_iff {s t : S} {l : L} {ls : List L} :
    T.replay s (l :: ls) = some t ↔ ∃ s', T.step s l = some s' ∧ T.replay s' ls = some t := by
  rw [replay]
  cases T.step s l with
  | none => simp
  | some s' => simp

/-- A replay goes on with one more action. -/
theorem replay_concat {s t t' : S} {ls : List L} {l : L} (h : T.replay s ls = some t)
    (hstep : T.step t l = some t') : T.replay s (ls ++ [l]) = some t' := by
  induction ls generalizing s with
  | nil =>
    obtain rfl : s = t := Option.some.inj h
    simp [replay, hstep]
  | cons l' ls ih =>
    obtain ⟨s', hl, hrest⟩ := replay_cons_eq_some_iff.mp h
    exact replay_cons_eq_some_iff.mpr ⟨s', hl, ih hrest⟩

/-- A replay from an initial state reaches its last state. -/
theorem reachable_of_replay {s t : S} {ls : List L} (hinit : T.init s)
    (h : T.replay s ls = some t) : T.Reachable t :=
  Reachable.leadsTo (.init hinit) (leadsTo_of_replay h)

/-- A replay whose last state is known through `f`. -/
theorem exists_reachable_of_replay {β : Type u'} {f : S → β} {b : β} {s : S} {ls : List L}
    (hinit : T.init s) (h : (T.replay s ls).map f = some b) : ∃ t, T.Reachable t ∧ f t = b := by
  obtain ⟨t, ht, hf⟩ := Option.map_eq_some_iff.mp h
  exact ⟨t, reachable_of_replay hinit ht, hf⟩

/-- The system in which only the steps that meet the guard are taken. -/
def under (T : TransitionSystem S L) (G : S → L → Prop) [∀ s l, Decidable (G s l)] :
    TransitionSystem S L where
  init := T.init
  step s l := if G s l then T.step s l else none

/-- Its runs are the guarded runs. -/
theorem reachable_under [∀ s l, Decidable (G s l)] {s : S} (h : (T.under G).Reachable s) :
    T.ReachableUnder G s := by
  induction h with
  | init h => exact .init h
  | @step s s' l _ _ hstep ih =>
    rw [under, Option.ite_none_right_eq_some] at hstep
    exact .step ih hstep.1 hstep.2

/-- **The simulation rule.** If initial states are matched and every concrete step is matched
by finitely many abstract ones, every reachable concrete state is matched by a reachable
abstract one. -/
theorem Reachable.simulate {S' : Type u'} {L' : Type v'} {T' : TransitionSystem S' L'}
    {R : S → S' → Prop} (hinit : ∀ s, T.init s → ∃ t, T'.init t ∧ R s t)
    (hstep : ∀ s l s' t, R s t → T.step s l = some s' → ∃ t', T'.LeadsTo t t' ∧ R s' t')
    {s : S} (h : T.Reachable s) : ∃ t, T'.Reachable t ∧ R s t := by
  induction h with
  | init h =>
    obtain ⟨t, ht, hR⟩ := hinit _ h
    exact ⟨t, .init ht, hR⟩
  | step _ _ hs ih =>
    obtain ⟨t, ht, hR⟩ := ih
    obtain ⟨t', htt', hR'⟩ := hstep _ _ _ _ hR hs
    exact ⟨t', ht.leadsTo htt', hR'⟩

end TransitionSystem

end Foundations
