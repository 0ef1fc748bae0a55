import Mathlib.Data.Finset.Basic
import SplendidLinker.Foundations.Recording

/-!
# Handles under interleaving

Any number of programs acquire and release handles from one table, as threads do with the
descriptors of a process. A handle that is free can be given out again at once, to any of them, so
a program that releases a handle a second time may take it from another one.

`Clean H ops` is the discipline of one program alone, which holds `H` and goes on with `ops`: it
releases only what it holds, and holds nothing when it is done. `lawful_of_clean` says that programs
that are clean, each by itself, keep the discipline under every interleaving; `clean_of_lawful` that
a program which has finished in a run that keeps it is clean. Both go through one invariant: the
table knows exactly what the program alone would know (`Tracks`).
-/

namespace Foundations

universe u v

/-- What a program does with handles. -/
inductive HandleOp (N : Type u)
  /-- It is given the handle. -/
  | acquire (n : N)
  /-- It gives back the handle, held or not. -/
  | release (n : N)
  /-- It hands the handle over to someone else, for good. -/
  | hand (n : N)
  /-- It is done. -/
  | done
  /-- It ends all programs. -/
  | abort
  deriving DecidableEq, Repr

section Clean

variable {N : Type u} [DecidableEq N]

/-- **The discipline of a program** that holds the handles `H` and goes on with `ops`. -/
def Clean (H : Finset N) : List (HandleOp N) → Prop
  | [] => True
  | .acquire n :: ops => Clean (insert n H) ops
  | .release n :: ops => n ∈ H ∧ Clean (H.erase n) ops
  | .hand n :: ops => Clean (H.erase n) ops
  | .done :: ops => H = ∅ ∧ Clean H ops
  | .abort :: ops => Clean H ops

end Clean

/-- Who holds a handle. -/
inductive Holder
  | program (k : ℕ)
  | other
  deriving DecidableEq, Repr

/-- A program that was started with an input. -/
structure Running (A : Type v) (N : Type u) where
  input : A
  todo : List (HandleOp N)
  deriving DecidableEq

/-- The table, and the programs by number. -/
structure Handles (A : Type v) (N : Type u) where
  holder : N → Option Holder
  running : ℕ → Option (Running A N)
  aborted : Bool := false

/-- The choices of the scheduler. -/
inductive HandleAction (A : Type v) (N : Type u)
  /-- The program number `k` is started. -/
  | start (k : ℕ) (a : A)
  /-- It goes on. -/
  | go (k : ℕ)
  /-- Someone else acquires a handle. -/
  | acquire (n : N)
  /-- Someone else releases a handle that it holds. -/
  | release (n : N)

namespace Handles

variable {A : Type v} {N : Type u} [DecidableEq N]

/-- The program `k` performs an operation, where it is possible. -/
def perform (valid : N → Bool) (s : Handles A N) (k : ℕ) : HandleOp N → Option (Handles A N)
  | .acquire n =>
    if valid n ∧ s.holder n = none then
      some { s with holder := Function.update s.holder n (some (.program k)) }
    else none
  | .release n => some { s with holder := Function.update s.holder n none }
  | .hand n =>
    if s.holder n = some (.program k) then
      some { s with holder := Function.update s.holder n (some .other) }
    else some s
  | .done => some s
  | .abort => some { s with aborted := true }

/-- One step, where it is possible. -/
def step (valid : N → Bool) (ops : A → List (HandleOp N)) (s : Handles A N) :
    HandleAction A N → Option (Handles A N)
  | .start k a =>
    match s.aborted, s.running k with
    | false, none => some { s with running := Function.update s.running k (some ⟨a, ops a⟩) }
    | _, _ => none
  | .go k =>
    match s.aborted, s.running k with
    | false, some ⟨a, op :: todo⟩ =>
      (s.perform valid k op).map fun s' =>
        { s' with running := Function.update s'.running k (some ⟨a, todo⟩) }
    | _, _ => none
  | .acquire n =>
    if s.aborted = false ∧ valid n ∧ s.holder n = none then
      some { s with holder := Function.update s.holder n (some .other) }
    else none
  | .release n =>
    if s.aborted = false ∧ s.holder n = some .other then
      some { s with holder := Function.update s.holder n none }
    else none

/-- The operation of the program `k` keeps the discipline: it releases a handle that it holds, and
holds none when it is done. -/
def LawfulOp (s : Handles A N) (k : ℕ) : HandleOp N → Prop
  | .release n => s.holder n = some (.program k)
  | .done => ∀ n, s.holder n ≠ some (.program k)
  | _ => True

/-- The step keeps the discipline. -/
def Lawful (s : Handles A N) : HandleAction A N → Prop
  | .go k => ∀ a op todo, s.running k = some ⟨a, op :: todo⟩ → s.LawfulOp k op
  | _ => True

end Handles

/-- The table with programs that do `ops a` for their input `a`; `valid` are the handles that can
be given out. -/
def handles {A : Type v} {N : Type u} [DecidableEq N] (valid : N → Bool)
    (ops : A → List (HandleOp N)) : TransitionSystem (Handles A N) (HandleAction A N) where
  init s := (∀ n k, s.holder n ≠ some (.program k)) ∧ (∀ k, s.running k = none) ∧
    s.aborted = false
  step := Handles.step valid ops

namespace Handles

variable {A : Type v} {N : Type u} [DecidableEq N] {valid : N → Bool} {ops : A → List (HandleOp N)}
  {s s' t : Handles A N} {l : HandleAction A N} {k : ℕ} {op : HandleOp N}

/-! ### What a step does -/

theorem step_cases (h : (handles valid ops).step s l = some s') :
    (∃ k a, l = .start k a ∧ s.running k = none ∧
      s' = { s with running := Function.update s.running k (some ⟨a, ops a⟩) }) ∨
    (∃ k a op todo t, l = .go k ∧ s.running k = some ⟨a, op :: todo⟩ ∧
      s.perform valid k op = some t ∧
      s' = { t with running := Function.update t.running k (some ⟨a, todo⟩) }) ∨
    (∃ n, l = .acquire n ∧ s.holder n = none ∧
      s' = { s with holder := Function.update s.holder n (some .other) }) ∨
    ∃ n, l = .release n ∧ s.holder n = some .other ∧
      s' = { s with holder := Function.update s.holder n none } := by
  cases l with
  | start k a =>
    simp only [handles, step] at h
    split at h
    case h_1 hrun => exact .inl ⟨k, a, rfl, hrun, (Option.some.inj h).symm⟩
    case h_2 => cases h
  | go k =>
    simp only [handles, step] at h
    split at h
    case h_1 a op todo _ hrun =>
      obtain ⟨t, ht, rfl⟩ := Option.map_eq_some_iff.mp h
      exact .inr (.inl ⟨k, a, op, todo, t, rfl, hrun, ht, rfl⟩)
    case h_2 => cases h
  | acquire n =>
    simp only [handles, step] at h
    split_ifs at h with hn
    exact .inr (.inr (.inl ⟨n, rfl, hn.2.2, (Option.some.inj h).symm⟩))
  | release n =>
    simp only [handles, step] at h
    split_ifs at h with hn
    exact .inr (.inr (.inr ⟨n, rfl, hn.2, (Option.some.inj h).symm⟩))

/-- `H` is what the program `k` holds. -/
def Holds (holder : N → Option Holder) (k : ℕ) (H : Finset N) : Prop :=
  ∀ n, n ∈ H ↔ holder n = some (.program k)

section Holds

variable {holder : N → Option Holder} {H : Finset N} {n : N} {w : Option Holder}

theorem Holds.insert (h : Holds holder k H) :
    Holds (Function.update holder n (some (.program k))) k (insert n H) := by
  intro m
  by_cases hm : m = n
  · simp [hm]
  · simp [hm, h m]

theorem Holds.erase (h : Holds holder k H) (hw : w ≠ some (.program k)) :
    Holds (Function.update holder n w) k (H.erase n) := by
  intro m
  by_cases hm : m = n
  · simp [hm, hw]
  · simp [hm, h m]

/-- A handle that passes between others. -/
theorem Holds.update (h : Holds holder k H) (hn : holder n ≠ some (.program k))
    (hw : w ≠ some (.program k)) : Holds (Function.update holder n w) k H := by
  have hmem : n ∉ H := fun hmem => hn ((h n).mp hmem)
  rw [← Finset.erase_eq_of_notMem hmem]
  exact h.erase hw

end Holds

/-- **A lawful operation** does to the handles of the program what the program alone would expect,
and nothing to those of the other programs. -/
theorem perform_spec (h : s.perform valid k op = some t) (hlaw : s.LawfulOp k op) {H : Finset N}
    (hH : Holds s.holder k H) :
    (∃ H', Holds t.holder k H' ∧ ∀ todo, Clean H (op :: todo) ↔ Clean H' todo) ∧
      ∀ j, j ≠ k → ∀ J, Holds s.holder j J → Holds t.holder j J := by
  have hne {j : ℕ} (hj : j ≠ k) : some (Holder.program k) ≠ some (.program j) := by
    simpa using hj.symm
  cases op with
  | acquire n =>
    simp only [perform] at h
    split_ifs at h with hn
    obtain rfl := Option.some.inj h
    refine ⟨⟨insert n H, hH.insert, fun todo => Iff.rfl⟩, fun j hj J hJ => ?_⟩
    exact hJ.update (by simp [hn.2]) (hne hj)
  | release n =>
    obtain rfl := Option.some.inj h
    have hmem : n ∈ H := (hH n).mpr hlaw
    refine ⟨⟨H.erase n, hH.erase (by simp), fun todo => and_iff_right hmem⟩, fun j hj J hJ => ?_⟩
    exact hJ.update (by rw [show s.holder n = _ from hlaw]; exact hne hj) (by simp)
  | hand n =>
    simp only [perform] at h
    split_ifs at h with hn
    · obtain rfl := Option.some.inj h
      refine ⟨⟨H.erase n, hH.erase (by simp), fun todo => Iff.rfl⟩, fun j hj J hJ => ?_⟩
      exact hJ.update (by rw [hn]; exact hne hj) (by simp)
    · obtain rfl := Option.some.inj h
      have hmem : n ∉ H := fun hmem => hn ((hH n).mp hmem)
      refine ⟨⟨H, hH, fun todo => ?_⟩, fun j _ J hJ => hJ⟩
      rw [Clean, Finset.erase_eq_of_notMem hmem]
  | done =>
    obtain rfl := Option.some.inj h
    have hempty : H = ∅ := Finset.eq_empty_of_forall_notMem fun n hn => hlaw n ((hH n).mp hn)
    exact ⟨⟨H, hH, fun todo => and_iff_right hempty⟩, fun j _ J hJ => hJ⟩
  | abort =>
    obtain rfl := Option.some.inj h
    exact ⟨⟨H, hH, fun todo => Iff.rfl⟩, fun j _ J hJ => hJ⟩

/-- A lawful operation leaves what others hold. -/
theorem holder_perform (h : s.perform valid k op = some t) (hlaw : s.LawfulOp k op) {n : N}
    {w : Holder} (hn : s.holder n = some w) (hw : w ≠ .program k) : t.holder n = some w := by
  have hne {m : N} (hm : s.holder m = none ∨ s.holder m = some (.program k)) : n ≠ m := by
    rintro rfl
    rcases hm with hm | hm
    · simp [hn] at hm
    · exact hw (Option.some.inj (hn.symm.trans hm))
  cases op with
  | acquire m =>
    simp only [perform] at h
    split_ifs at h with hm
    obtain rfl := Option.some.inj h
    simp only [Function.update_of_ne (hne (.inl hm.2)), hn]
  | release m =>
    obtain rfl := Option.some.inj h
    simp only [Function.update_of_ne (hne (.inr hlaw)), hn]
  | hand m =>
    simp only [perform] at h
    split_ifs at h with hm
    · obtain rfl := Option.some.inj h
      simp only [Function.update_of_ne (hne (.inr hm)), hn]
    · exact Option.some.inj h ▸ hn
  | done => exact Option.some.inj h ▸ hn
  | abort => exact Option.some.inj h ▸ hn

theorem running_perform (h : s.perform valid k op = some t) : t.running = s.running := by
  cases op <;> simp only [perform] at h
  case acquire n => split_ifs at h; exact (Option.some.inj h) ▸ rfl
  case hand n => split_ifs at h <;> exact (Option.some.inj h) ▸ rfl
  all_goals exact (Option.some.inj h) ▸ rfl

/-- A clean operation is lawful. -/
theorem lawfulOp_of_clean {H : Finset N} (hH : Holds s.holder k H) {todo : List (HandleOp N)}
    (h : Clean H (op :: todo)) : s.LawfulOp k op := by
  cases op with
  | release n => exact (hH n).mp h.1
  | done =>
    intro n hn
    have hmem := (hH n).mpr hn
    rw [h.1] at hmem
    exact absurd hmem (Finset.notMem_empty n)
  | _ => trivial

/-! ### The invariant -/

/-- **The invariant**: what the table knows of a program is what the program alone would know. -/
structure Tracks (ops : A → List (HandleOp N)) (s : Handles A N) : Prop where
  /-- Only programs that were started hold handles. -/
  started : ∀ n k, s.holder n = some (.program k) → s.running k ≠ none
  /-- A program is clean exactly if it goes on clean with the handles that it holds. -/
  tracked : ∀ k a todo, s.running k = some ⟨a, todo⟩ →
    ∃ H, Holds s.holder k H ∧ (Clean ∅ (ops a) ↔ Clean H todo)

/-- A program that was not started holds nothing. -/
theorem Tracks.holds_empty (h : s.Tracks ops) (hk : s.running k = none) :
    Holds s.holder k ∅ :=
  fun n => iff_of_false (Finset.notMem_empty n) fun hn => h.started n k hn hk

theorem Tracks.start (h : s.Tracks ops) {a : A} (hk : s.running k = none) :
    Tracks ops { s with running := Function.update s.running k (some ⟨a, ops a⟩) } := by
  refine ⟨fun n j hn => ?_, fun j b todo hj => ?_⟩
  · by_cases hjk : j = k
    · simp [hjk]
    · simp only [Function.update_of_ne hjk]
      exact h.started n j hn
  · by_cases hjk : j = k
    · simp only [hjk, Function.update_self, Option.some.injEq, Running.mk.injEq] at hj
      obtain ⟨rfl, rfl⟩ := hj
      exact ⟨∅, by rw [hjk]; exact h.holds_empty hk, Iff.rfl⟩
    · simp only [Function.update_of_ne hjk] at hj
      exact h.tracked j b todo hj

theorem Tracks.go (h : s.Tracks ops) {a : A} {todo : List (HandleOp N)}
    (hk : s.running k = some ⟨a, op :: todo⟩) (ht : s.perform valid k op = some t)
    (hlaw : s.LawfulOp k op) :
    Tracks ops { t with running := Function.update t.running k (some ⟨a, todo⟩) } := by
  obtain ⟨H, hH, hclean⟩ := h.tracked k a _ hk
  obtain ⟨⟨H', hH', hstep⟩, hothers⟩ := perform_spec ht hlaw hH
  have hrun := running_perform ht
  refine ⟨fun n j hn => ?_, fun j b rest hj => ?_⟩
  · by_cases hjk : j = k
    · simp [hjk]
    · simp only [Function.update_of_ne hjk, hrun]
      intro hnone
      have hempty := hothers j hjk ∅ (h.holds_empty hnone)
      exact Finset.notMem_empty n ((hempty n).mpr hn)
  · by_cases hjk : j = k
    · simp only [hjk, Function.update_self, Option.some.injEq, Running.mk.injEq] at hj
      obtain ⟨rfl, rfl⟩ := hj
      exact ⟨H', by rw [hjk]; exact hH', hclean.trans (hstep todo)⟩
    · simp only [Function.update_of_ne hjk, hrun] at hj
      obtain ⟨J, hJ, hcleanJ⟩ := h.tracked j b rest hj
      exact ⟨J, hothers j hjk J hJ, hcleanJ⟩

/-- A handle that passes between others than programs. -/
theorem Tracks.update (h : s.Tracks ops) {n : N} {w : Option Holder}
    (hn : ∀ k, s.holder n ≠ some (.program k)) (hw : ∀ k, w ≠ some (.program k)) :
    Tracks ops { s with holder := Function.update s.holder n w } := by
  refine ⟨fun m j hm => ?_, fun j b todo hj => ?_⟩
  · by_cases hmn : m = n
    · simp only [hmn, Function.update_self] at hm
      exact absurd hm (hw j)
    · simp only [Function.update_of_ne hmn] at hm
      exact h.started m j hm
  · obtain ⟨J, hJ, hcleanJ⟩ := h.tracked j b todo hj
    exact ⟨J, hJ.update (hn j) (hw j), hcleanJ⟩

/-- **A step that keeps the discipline keeps the invariant.** -/
theorem Tracks.step (h : s.Tracks ops) (hstep : (handles valid ops).step s l = some s')
    (hlaw : s.Lawful l) : s'.Tracks ops := by
  obtain ⟨k, a, -, hk, rfl⟩ | ⟨k, a, op, todo, t, rfl, hk, ht, rfl⟩ | ⟨n, -, hn, rfl⟩ |
    ⟨n, -, hn, rfl⟩ := step_cases hstep
  · exact h.start hk
  · exact h.go hk ht (hlaw a op todo hk)
  · exact h.update (by simp [hn]) (by simp)
  · exact h.update (by simp [hn]) (by simp)

/-- A program that was started stays so, with its input. -/
theorem input_step (hstep : (handles valid ops).step s l = some s') {r : Running A N}
    (hr : s.running k = some r) : ∃ r', s'.running k = some r' ∧ r'.input = r.input := by
  obtain ⟨j, a, -, hj, rfl⟩ | ⟨j, a, op, todo, t, rfl, hj, ht, rfl⟩ | ⟨n, -, -, rfl⟩ |
    ⟨n, -, -, rfl⟩ := step_cases hstep
  · have hne : k ≠ j := fun hkj => by simp [hkj, hj] at hr
    exact ⟨r, by simp [Function.update_of_ne hne, hr], rfl⟩
  · by_cases hkj : k = j
    · rw [hkj, hj] at hr
      obtain rfl := Option.some.inj hr
      exact ⟨⟨a, todo⟩, by simp [hkj], rfl⟩
    · exact ⟨r, by simp [Function.update_of_ne hkj, running_perform ht, hr], rfl⟩
  · exact ⟨r, hr, rfl⟩
  · exact ⟨r, hr, rfl⟩

/-! ### The discipline of a run -/

/-- Every step of the history keeps the discipline. -/
def LawfulRun (log : List (Handles A N × HandleAction A N)) : Prop := ∀ e ∈ log, e.1.Lawful e.2

/-- No step of a program in the history takes a handle from anyone else. -/
def UndisturbedRun (valid : N → Bool) (ops : A → List (HandleOp N))
    (log : List (Handles A N × HandleAction A N)) : Prop :=
  ∀ s k s', (s, .go k) ∈ log → (handles valid ops).step s (.go k) = some s' →
    ∀ n w, s.holder n = some w → w ≠ .program k → s'.holder n = some w

/-- A run that keeps the discipline takes nothing from anyone. -/
theorem LawfulRun.undisturbed {log : List (Handles A N × HandleAction A N)} (h : LawfulRun log) :
    UndisturbedRun valid ops log := by
  intro s k s' hmem hstep n w hn hw
  obtain ⟨j, a, hl, -⟩ | ⟨j, a, op, todo, t, hl, hj, ht, rfl⟩ | ⟨m, hl, -⟩ | ⟨m, hl, -⟩ :=
    step_cases hstep
  · cases hl
  · obtain rfl := HandleAction.go.inj hl
    exact holder_perform ht (h _ hmem a op todo hj) hn hw
  · cases hl
  · cases hl

theorem tracks_init (h : (handles valid ops).init s) : s.Tracks ops :=
  ⟨fun n k hn => absurd hn (h.1 n k), fun k a todo hk => by simp [h.2.1 k] at hk⟩

/-- A run that keeps the discipline keeps the invariant. -/
theorem tracks_of_lawful {p : Handles A N × List (Handles A N × HandleAction A N)}
    (h : (handles valid ops).history.Reachable p) (hlaw : LawfulRun p.2) : p.1.Tracks ops := by
  induction h with
  | init h => exact tracks_init h.1
  | @step p p' l _ _ hstep ih =>
    obtain ⟨hstep, hlog⟩ := TransitionSystem.recording_step.mp hstep
    rw [LawfulRun, hlog, List.forall_mem_append] at hlaw
    exact (ih hlaw.1).step hstep (hlaw.2 _ (List.mem_singleton_self _))

/-- **Clean programs keep the discipline under every interleaving.** -/
theorem lawful_of_clean {p : Handles A N × List (Handles A N × HandleAction A N)}
    (h : (handles valid ops).history.Reachable p)
    (hclean : ∀ k r, p.1.running k = some r → Clean ∅ (ops r.input)) : LawfulRun p.2 := by
  induction h with
  | init h =>
    rw [h.2]
    exact fun e he => absurd he List.not_mem_nil
  | @step p p' l hp _ hstep ih =>
    obtain ⟨hstep, hlog⟩ := TransitionSystem.recording_step.mp hstep
    have hclean' : ∀ k r, p.1.running k = some r → Clean ∅ (ops r.input) := by
      intro k r hr
      obtain ⟨r', hr', hinput⟩ := input_step hstep hr
      exact hinput ▸ hclean k r' hr'
    rw [LawfulRun, hlog, List.forall_mem_append]
    refine ⟨ih hclean', fun e he => ?_⟩
    obtain rfl := List.mem_singleton.mp he
    -- a program that is clean goes on clean with what it holds
    cases l with
    | go k =>
      intro a op todo hk
      obtain ⟨H, hH, hiff⟩ := (tracks_of_lawful hp (ih hclean')).tracked k a _ hk
      exact lawfulOp_of_clean hH (hiff.mp (hclean' k _ hk))
    | _ => trivial

/-- **A program that has finished in a run that keeps the discipline is clean.** -/
theorem clean_of_lawful {p : Handles A N × List (Handles A N × HandleAction A N)}
    (h : (handles valid ops).history.Reachable p) (hlaw : LawfulRun p.2) {a : A}
    (hk : p.1.running k = some ⟨a, []⟩) : Clean ∅ (ops a) := by
  obtain ⟨H, -, hiff⟩ := (tracks_of_lawful h hlaw).tracked k a [] hk
  exact hiff.mpr trivial

end Handles

end Foundations
