import Mathlib.Data.Finset.Basic
import Mathlib.Data.Fintype.Basic
import Mathlib.Logic.Function.Basic
import SplendidLinker.Foundations.TransitionSystem

/-!
# Systems that share their fate

`sharingFate T Dead` runs the systems `T i` side by side, as long as none of them is dead. They have
nothing else in common. So if a dead system takes no step anyway, all that this costs is that no two
of them die: the states that are reached are the families of reachable states in which at most one
system is dead (`reachableUnder_sharingFate_iff`). A family is reached by running one system after
the other, the dead one last. In particular no system dies exactly if none of them dies on its own
(`forall_not_dead_iff`).
-/

namespace Foundations

universe u v w

namespace TransitionSystem

variable {S : Type u} {L : Type v} {ι : Type w} [Fintype ι] [DecidableEq ι]

/-- The systems `T i` side by side, until one of them is dead. -/
def sharingFate (T : ι → TransitionSystem S L) (Dead : S → Prop) [DecidablePred Dead] :
    TransitionSystem (ι → S) (ι × L) where
  init s := ∀ i, (T i).init (s i)
  step s p :=
    if ∀ i, ¬ Dead (s i) then ((T p.1).step (s p.1) p.2).map (Function.update s p.1) else none

variable {T : ι → TransitionSystem S L} {Dead : S → Prop} [DecidablePred Dead] {G : S → L → Prop}
  {s : ι → S}

/-- A step is a step of one system, while no system is dead. -/
theorem sharingFate_step {s' : ι → S} {p : ι × L} :
    (sharingFate T Dead).step s p = some s' ↔
      (∀ i, ¬ Dead (s i)) ∧ ∃ t, (T p.1).step (s p.1) p.2 = some t ∧
        s' = Function.update s p.1 t := by
  simp only [sharingFate, Option.ite_none_right_eq_some, Option.map_eq_some_iff]
  exact and_congr_right fun _ => exists_congr fun t => and_congr_right fun _ => eq_comm

/-- The guard of a step of one system. -/
def EachUnder (G : S → L → Prop) (s : ι → S) (p : ι × L) : Prop := G (s p.1) p.2

/-- One system runs, and none of the others is dead. The induction is on the run. -/
private theorem reachableUnder_update {a : ι} {t : S}
    (hstart : ∀ t₀, (T a).init t₀ →
      (sharingFate T Dead).ReachableUnder (EachUnder G) (Function.update s a t₀))
    (hstuck : ∀ i s l s', (T i).step s l = some s' → ¬ Dead s)
    (halive : ∀ i, i ≠ a → ¬ Dead (s i)) (h : (T a).ReachableUnder G t) :
    (sharingFate T Dead).ReachableUnder (EachUnder G) (Function.update s a t) := by
  induction h with
  | init h => exact hstart _ h
  | @step t t' l _ hG hstep ih =>
    have hself : Function.update s a t a = t := Function.update_self ..
    refine ih.step (l := (a, l)) (by rwa [EachUnder, hself]) (sharingFate_step.mpr
      ⟨fun i => ?_, t', by rwa [hself], (Function.update_idem ..).symm⟩)
    by_cases hi : i = a
    · rw [hi, hself]
      exact hstuck a t l t' hstep
    · rw [Function.update_of_ne hi]
      exact halive i hi

/-- The systems of `A` have run one after the other, and the others have not started. The induction
is on `A`. -/
private theorem reachableUnder_of_alive
    (hstuck : ∀ i s l s', (T i).step s l = some s' → ¬ Dead s)
    (hinit : ∀ i s, (T i).init s → ¬ Dead s) (A : Finset ι) :
    ∀ s : ι → S, (∀ i ∈ A, (T i).ReachableUnder G (s i) ∧ ¬ Dead (s i)) →
      (∀ i ∉ A, (T i).init (s i)) → (sharingFate T Dead).ReachableUnder (EachUnder G) s := by
  induction A using Finset.induction_on with
  | empty => exact fun s _ hstart => .init fun i => hstart i (Finset.notMem_empty i)
  | insert a A ha ih =>
    intro s hrun hstart
    have hself := Function.update_eq_self a s
    rw [← hself]
    refine reachableUnder_update (fun t₀ ht₀ => ih _ (fun i hi => ?_) fun i hi => ?_) hstuck
      (fun i hi => ?_) (hrun a (Finset.mem_insert_self a A)).1
    · rw [Function.update_of_ne (ne_of_mem_of_not_mem hi ha)]
      exact hrun i (Finset.mem_insert_of_mem hi)
    · by_cases hia : i = a
      · rw [hia, Function.update_self]
        exact ht₀
      · rw [Function.update_of_ne hia]
        exact hstart i fun hmem => (Finset.mem_insert.mp hmem).elim hia hi
    · by_cases hmem : i ∈ A
      · exact (hrun i (Finset.mem_insert_of_mem hmem)).2
      · exact hinit i _ (hstart i fun hins => (Finset.mem_insert.mp hins).elim hi hmem)

/-- **Only death is shared.** The states that are reached are the families of reachable states in
which at most one system is dead. -/
theorem reachableUnder_sharingFate_iff
    (hstuck : ∀ i s l s', (T i).step s l = some s' → ¬ Dead s)
    (hinit : ∀ i s, (T i).init s → ¬ Dead s) :
    (sharingFate T Dead).ReachableUnder (EachUnder G) s ↔
      (∀ i, (T i).ReachableUnder G (s i)) ∧ ∀ i j, Dead (s i) → Dead (s j) → i = j := by
  constructor
  · intro h
    induction h with
    | init h => exact ⟨fun i => .init (h i), fun i _ hi => absurd hi (hinit i _ (h i))⟩
    | @step s s' p _ hG hstep ih =>
      obtain ⟨halive, t, ht, rfl⟩ := sharingFate_step.mp hstep
      refine ⟨fun i => ?_, fun i j hi hj => ?_⟩
      · by_cases hi : i = p.1
        · rw [hi, Function.update_self]
          exact (ih.1 p.1).step hG ht
        · rw [Function.update_of_ne hi]
          exact ih.1 i
      · -- only the system that has taken the step can be dead
        have hdead : ∀ k, Dead (Function.update s p.1 t k) → k = p.1 := by
          intro k hk
          by_contra hne
          rw [Function.update_of_ne hne] at hk
          exact halive k hk
        rw [hdead i hi, hdead j hj]
  · rintro ⟨hrun, hone⟩
    by_cases hd : ∃ d, Dead (s d)
    · obtain ⟨d, hd⟩ := hd
      have hself := Function.update_eq_self d s
      have halive : ∀ i, i ≠ d → ¬ Dead (s i) := fun i hi hdead => hi (hone i d hdead hd)
      rw [← hself]
      refine reachableUnder_update (fun t₀ ht₀ => reachableUnder_of_alive hstuck hinit
        (Finset.univ.erase d) _ (fun i hi => ?_) fun i hi => ?_) hstuck halive (hrun d)
      · rw [Function.update_of_ne (Finset.ne_of_mem_erase hi)]
        exact ⟨hrun i, halive i (Finset.ne_of_mem_erase hi)⟩
      · obtain rfl : i = d := by
          by_contra hne
          exact hi (Finset.mem_erase.mpr ⟨hne, Finset.mem_univ i⟩)
        rw [Function.update_self]
        exact ht₀
    · exact reachableUnder_of_alive hstuck hinit Finset.univ s
        (fun i _ => ⟨hrun i, not_exists.mp hd i⟩) fun i hi => absurd (Finset.mem_univ i) hi

/-- No system dies exactly if none of them dies on its own. -/
theorem forall_not_dead_iff (hstuck : ∀ i s l s', (T i).step s l = some s' → ¬ Dead s)
    (hinit : ∀ i s, (T i).init s → ¬ Dead s) (hstart : ∀ i, ∃ s, (T i).init s) :
    (∀ s, (sharingFate T Dead).ReachableUnder (EachUnder G) s → ∀ i, ¬ Dead (s i)) ↔
      ∀ i s, (T i).ReachableUnder G s → ¬ Dead s := by
  constructor
  · intro h d t ht hdead
    choose s₀ hs₀ using hstart
    have hself := Function.update_self d t s₀
    refine h (Function.update s₀ d t) ((reachableUnder_sharingFate_iff hstuck hinit).mpr
      ⟨fun i => ?_, fun i j hi hj => ?_⟩) d (by rwa [hself])
    · by_cases hi : i = d
      · rwa [hi, hself]
      · rw [Function.update_of_ne hi]
        exact .init (hs₀ i)
    · -- the other systems have not started
      have hdies : ∀ k, Dead (Function.update s₀ d t k) → k = d := by
        intro k hk
        by_contra hne
        rw [Function.update_of_ne hne] at hk
        exact hinit k _ (hs₀ k) hk
      rw [hdies i hi, hdies j hj]
  · exact fun h s hs i => h i (s i) (((reachableUnder_sharingFate_iff hstuck hinit).mp hs).1 i)

end TransitionSystem

end Foundations
