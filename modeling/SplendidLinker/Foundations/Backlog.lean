import Mathlib.Order.Bounds.Basic

/-!
# The backlog of a server that serves one item a round

In every round some items arrive and at most one is served. What waits after a list of rounds
is decided by the arrivals alone: it is the worst burst (`IsBacklog`), the largest number by
which the items that arrived in a final part of the rounds exceed those rounds.

`IsBacklog.concat` is the recursion: with `a` arrivals in one round more, what waits is what
waited before, and the arrivals, less one.
-/

namespace Foundations

universe u

variable {α : Type u} {arrivals : List α → ℕ} {rounds : List α} {round : α} {w a : ℕ}

/-- `n` items more arrived in a final part of the rounds than it has rounds; `arrivals` counts
what has arrived in a first part. -/
def IsBurst (arrivals : List α → ℕ) (rounds : List α) (n : ℕ) : Prop :=
  ∃ early late, rounds = early ++ late ∧ arrivals early + late.length + n = arrivals rounds

/-- `w` is the worst burst. -/
def IsBacklog (arrivals : List α → ℕ) (rounds : List α) (w : ℕ) : Prop :=
  IsGreatest {n | IsBurst arrivals rounds n} w

/-- After no round nothing waits. -/
theorem isBacklog_nil : IsBacklog arrivals [] 0 := by
  refine ⟨⟨[], [], rfl, rfl⟩, ?_⟩
  rintro n ⟨early, late, hsplit, hburst⟩
  obtain ⟨rfl, rfl⟩ := List.append_eq_nil_iff.mp hsplit.symm
  simpa using hburst

/-- **One round more**: `a` items arrive, and one is served unless there is none. -/
theorem IsBacklog.concat (h : IsBacklog arrivals rounds w)
    (harrive : arrivals (rounds ++ [round]) = arrivals rounds + a) :
    IsBacklog arrivals (rounds ++ [round]) (w + a - 1) := by
  obtain ⟨⟨early, late, hsplit, hburst⟩, hmax⟩ := h
  refine ⟨?_, ?_⟩
  · -- the worst burst goes on, unless nothing waited and nothing came
    rcases Nat.eq_zero_or_pos (w + a) with hidle | hbusy
    · exact ⟨rounds ++ [round], [], by simp, by simp; omega⟩
    · refine ⟨early, late ++ [round], by simp [hsplit], ?_⟩
      rw [harrive, List.length_append, List.length_singleton]
      omega
  · rintro n ⟨early', late', hsplit', hburst'⟩
    rcases List.eq_nil_or_concat late' with rfl | ⟨late', last, rfl⟩
    · simp only [List.append_nil] at hsplit'
      simp only [hsplit', List.length_nil] at hburst'
      omega
    · rw [List.concat_eq_append] at hsplit' hburst'
      rw [← List.append_assoc] at hsplit'
      obtain ⟨hrounds, -⟩ := List.append_inj' hsplit' rfl
      rw [harrive, List.length_append, List.length_singleton] at hburst'
      -- the burst without its last round is one of the shorter run, or negative there
      rcases le_total (arrivals early' + late'.length) (arrivals rounds) with hle | hge
      · have hw := hmax ⟨early', late', hrounds, Nat.add_sub_cancel' hle⟩
        omega
      · omega

end Foundations
