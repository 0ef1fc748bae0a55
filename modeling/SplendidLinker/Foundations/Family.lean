import Mathlib.Logic.Function.Basic
import SplendidLinker.Foundations.TransitionSystem

/-!
# Families of independent systems

`family T ι` runs a copy of the system `T` for each `i : ι`; an action names the copy that
takes it. A run of the family is a run of each copy (`ReachableUnder.component`), so a law of
the copies is a law of the family, and a guard that is exact for one copy is exact for all of
them (`reachableUnder_family`).
-/

namespace Foundations

universe u v w

namespace TransitionSystem

variable {S : Type u} {L : Type v} {ι : Type w} [DecidableEq ι] {T : TransitionSystem S L}
  {G : S → L → Prop}

/-- Independent copies of the system `T`, one for each `i : ι`. -/
def family (T : TransitionSystem S L) (ι : Type w) [DecidableEq ι] :
    TransitionSystem (ι → S) (ι × L) where
  init s := ∀ i, T.init (s i)
  step s p := (T.step (s p.1) p.2).map (Function.update s p.1)

/-- A step of the family is a step of one copy. -/
theorem family_step {s s' : ι → S} {p : ι × L} :
    (T.family ι).step s p = some s' ↔
      ∃ t, T.step (s p.1) p.2 = some t ∧ s' = Function.update s p.1 t := by
  simp only [family, Option.map_eq_some_iff, eq_comm]

/-- **A run of the family is a run of each copy.** -/
theorem ReachableUnder.component {s : ι → S}
    (h : (T.family ι).ReachableUnder (fun s p => G (s p.1) p.2) s) (i : ι) :
    T.ReachableUnder G (s i) := by
  induction h with
  | init h => exact .init (h i)
  | @step s s' p _ hG hstep ih =>
    obtain ⟨t, ht, rfl⟩ := family_step.mp hstep
    by_cases hi : i = p.1
    · rw [hi] at ih ⊢
      rw [Function.update_self]
      exact .step ih hG ht
    · rwa [Function.update_of_ne hi]

theorem Reachable.component {s : ι → S} (h : (T.family ι).Reachable s) (i : ι) :
    T.Reachable (s i) :=
  ReachableUnder.component (G := fun _ _ => True) h i

/-- **Exactness of a guard, for each copy.** If a step of a copy that breaks the guard leaves a
mark on the copy, and no step clears it, then a run of the family that leaves no copy marked has
met the guard. -/
theorem reachableUnder_family {M : S → Prop}
    (hset : ∀ s l s', T.Reachable s → T.step s l = some s' → ¬ G s l → M s')
    (hkeep : ∀ s l s', T.step s l = some s' → M s → M s') {s : ι → S}
    (h : (T.family ι).Reachable s) (hs : ∀ i, ¬ M (s i)) :
    (T.family ι).ReachableUnder (fun s p => G (s p.1) p.2) s := by
  refine reachableUnder_of_not_mark (M := fun s => ∃ i, M (s i)) ?_ ?_ h (not_exists.mpr hs)
  · intro s p s' hreach hstep hG
    obtain ⟨t, ht, rfl⟩ := family_step.mp hstep
    have hmark := hset _ _ _ (Reachable.component hreach p.1) ht hG
    exact ⟨p.1, by rwa [Function.update_self]⟩
  · rintro s p s' hstep ⟨i, hi⟩
    obtain ⟨t, ht, rfl⟩ := family_step.mp hstep
    by_cases hip : i = p.1
    · rw [hip] at hi
      exact ⟨p.1, by rw [Function.update_self]; exact hkeep _ _ _ ht hi⟩
    · exact ⟨i, by rwa [Function.update_of_ne hip]⟩

end TransitionSystem

end Foundations
