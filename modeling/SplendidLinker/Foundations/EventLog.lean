import Mathlib.Data.List.Infix
import Mathlib.Tactic.Common

/-!
# Rules on an event log

A rule `R` says which event may follow which log: `R pre e`. A log obeys the rule if every
event of it may follow the log before it (`Obeys`). Logs grow at the end, so `obeys_concat`
is the step lemma of every proof that a system keeps a rule, and a rule once broken stays
broken (`Obeys.of_prefix`).
-/

namespace Foundations

universe u

variable {α : Type u} {R : List α → α → Prop} {log : List α}

/-- Every event of the log may follow the events before it. -/
def Obeys (R : List α → α → Prop) (log : List α) : Prop :=
  ∀ pre e, pre ++ [e] <+: log → R pre e

@[simp]
theorem obeys_nil : Obeys R [] := by
  intro pre e h
  simp at h

/-- **One more event.** -/
theorem obeys_concat {e : α} : Obeys R (log ++ [e]) ↔ Obeys R log ∧ R log e := by
  constructor
  · intro h
    exact ⟨fun pre e' hpre => h pre e' (hpre.trans (List.prefix_append log [e])),
      h log e List.prefix_rfl⟩
  · rintro ⟨hlog, he⟩ pre e' hpre
    -- the event is the new one, or one of the old log
    rcases List.prefix_concat_iff.mp hpre with heq | hpre
    · obtain ⟨rfl, hs⟩ := List.append_inj' heq rfl
      obtain rfl := List.head_eq_of_cons_eq hs
      exact he
    · exact hlog pre e' hpre

/-- A log that obeys a rule has always obeyed it. -/
theorem Obeys.of_prefix {log' : List α} (h : Obeys R log') (hpre : log <+: log') : Obeys R log :=
  fun pre e he => h pre e (he.trans hpre)

end Foundations
