import SplendidLinker.Foundations.EventLog
import SplendidLinker.Foundations.TransitionSystem

/-!
# Recording what a system does

`recording T emit` is the system `T` with a log: a step with the action `l` from the state `s`
adds the events `emit s l` to it. Recording changes nothing: a run of `T` and a run of the
recording are the same but for the log (`ReachableUnder.forget`, `ReachableUnder.record`).

A law about the order of events is a rule on the log (`Obeys`). Since a rule once broken stays
broken, a guard is exact as soon as it is met by the steps that keep the rule (`obeys_iff`). A law
about every single event is exact for a guard as soon as it is so for the events of one step
(`forall_mem_log_iff`).
-/

namespace Foundations

universe u v w

namespace TransitionSystem

variable {S : Type u} {L : Type v} {E : Type w} {T : TransitionSystem S L} {emit : S → L → List E}

/-- The system `T` with a log of events. -/
def recording (T : TransitionSystem S L) (emit : S → L → List E) :
    TransitionSystem (S × List E) L where
  init p := T.init p.1 ∧ p.2 = []
  step p l := (T.step p.1 l).map fun s' => (s', p.2 ++ emit p.1 l)

/-- A step of the recording is a step of the system whose events are added to the log. -/
theorem recording_step {p p' : S × List E} {l : L} :
    (T.recording emit).step p l = some p' ↔
      T.step p.1 l = some p'.1 ∧ p'.2 = p.2 ++ emit p.1 l := by
  obtain ⟨s', log'⟩ := p'
  simp only [recording, Option.map_eq_some_iff, Prod.mk.injEq]
  constructor
  · rintro ⟨t, ht, rfl, rfl⟩
    exact ⟨ht, rfl⟩
  · rintro ⟨ht, rfl⟩
    exact ⟨s', ht, rfl, rfl⟩

/-- The log only grows. -/
theorem recording_grows {p p' : S × List E} {l : L}
    (h : (T.recording emit).step p l = some p') : p.2 <+: p'.2 := by
  rw [(recording_step.mp h).2]
  exact List.prefix_append _ _

/-- **Forgetting the log.** -/
theorem ReachableUnder.forget {G : S → L → Prop} {p : S × List E}
    (h : (T.recording emit).ReachableUnder (fun p l => G p.1 l) p) : T.ReachableUnder G p.1 := by
  induction h with
  | init h => exact .init h.1
  | step _ hG hstep ih => exact .step ih hG (recording_step.mp hstep).1

/-- **Every run can be recorded.** -/
theorem ReachableUnder.record {G : S → L → Prop} {s : S} (h : T.ReachableUnder G s)
    (emit : S → L → List E) :
    ∃ log, (T.recording emit).ReachableUnder (fun p l => G p.1 l) (s, log) := by
  induction h with
  | init h => exact ⟨[], .init ⟨h, rfl⟩⟩
  | step _ hG hstep ih =>
    obtain ⟨log, hlog⟩ := ih
    exact ⟨_, .step hlog hG (recording_step.mpr ⟨hstep, rfl⟩)⟩

/-- The system `T` with the steps that it has taken. -/
def history (T : TransitionSystem S L) : TransitionSystem (S × List (S × L)) L :=
  T.recording fun s l => [(s, l)]

/-- **Exactness of a guard for a rule.** If the steps that keep the rule are those that meet the
guard, a run obeys the rule exactly if it meets the guard. -/
theorem obeys_iff {G : S × List E → L → Prop} {R : List E → E → Prop}
    (hstep : ∀ p l p', (T.recording emit).Reachable p → Obeys R p.2 →
      (T.recording emit).step p l = some p' → (Obeys R p'.2 ↔ G p l)) {p : S × List E}
    (h : (T.recording emit).Reachable p) :
    Obeys R p.2 ↔ (T.recording emit).ReachableUnder G p := by
  refine iff_reachableUnder (K := fun p => Obeys R p.2) ?_ ?_ hstep h
  · rintro p ⟨-, hlog⟩
    rw [hlog]
    exact obeys_nil
  · exact fun p l p' _ hs hobeys => hobeys.of_prefix (recording_grows hs)

/-- **A law on every event.** If the events of a step obey `P` exactly when the step meets the
guard, those of a run do exactly when all its steps meet the guard. -/
theorem forall_mem_log_iff {G : S → L → Prop} {P : E → Prop}
    (hstep : ∀ s l s', T.Reachable s → T.step s l = some s' →
      ((∀ e ∈ emit s l, P e) ↔ G s l)) {p : S × List E} (h : (T.recording emit).Reachable p) :
    (∀ e ∈ p.2, P e) ↔ (T.recording emit).ReachableUnder (fun p l => G p.1 l) p := by
  refine iff_reachableUnder (K := fun p => ∀ e ∈ p.2, P e) ?_ ?_ ?_ h
  · rintro p ⟨-, hlog⟩
    rw [hlog]
    exact fun e he => absurd he List.not_mem_nil
  · exact fun p l p' _ hs hall e he => hall e ((recording_grows hs).subset he)
  · intro p l p' hp hall hs
    obtain ⟨hs, hlog⟩ := recording_step.mp hs
    have hreach : T.Reachable p.1 := ReachableUnder.forget (G := fun _ _ => True) hp
    rw [hlog, List.forall_mem_append, ← hstep p.1 l p'.1 hreach hs]
    exact and_iff_right hall

end TransitionSystem

end Foundations
