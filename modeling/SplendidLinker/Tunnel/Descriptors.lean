import SplendidLinker.Foundations.Handles
import SplendidLinker.Tunnel.UTUNInterface

/-!
# The descriptors of the constructor

`SLUTUNInterface::SLUTUNInterface` runs on the threads of up to a thousand connections, which
open and close descriptors of one process. Each call should close only descriptors that it has
opened and not closed yet, and leave each of its descriptors closed or stored in `mUTUNSocket`.

`SLUTUNInterface.descriptorOps` is what a call does with descriptors, for each result of its system
calls; these are the closes of `construct` (`descriptorOps_of_construct`). By the discipline of
`Foundations/Handles.lean`, it is enough to look at a call alone (`clean_descriptorOps_iff`): the
socket is lost if `CTLIOCGINFO` fails, and closed a second time, or closed without having been
opened, if the address cannot be set. Whether another thread has been given the number in between
decides what the second close hits.
-/

namespace SplendidLinker

open Foundations

/-- What the address branch of the constructor does with descriptors. -/
def addressOps (sys : SysCalls) : List (HandleOp ℤ) :=
  (if 0 ≤ sys.socketDescriptor then [.acquire sys.socketDescriptor] else []) ++
    ((if sys.ioctlAddr < 0 then [.release sys.socketDescriptor] else []) ++
      [.release sys.socketDescriptor])

/-- What a call of the constructor does with descriptors. It hands the utun socket over to the
object when it stores it in `mUTUNSocket`. -/
def SLUTUNInterface.descriptorOps (sys : SysCalls) : List (HandleOp ℤ) :=
  if sys.utunSocket < 0 then [.abort]
  else if sys.ioctlInfo < 0 then [.acquire sys.utunSocket, .done]
  else
    .acquire sys.utunSocket :: ((if sys.inetPton = 1 then addressOps sys else []) ++
      [.hand sys.utunSocket, .done])

/-- Any number of constructor calls, by number, in a process whose other threads open and close
descriptors too. -/
def constructorCalls : TransitionSystem (Handles SysCalls ℤ) (HandleAction SysCalls ℤ) :=
  handles (fun d => decide (0 ≤ d)) SLUTUNInterface.descriptorOps

/-- The utun socket cannot be created, which ends the process; or the id of the interface can be
had, and the address is not set or can be set. -/
def SysCalls.Tidy (sys : SysCalls) : Prop :=
  sys.utunSocket < 0 ∨
    0 ≤ sys.ioctlInfo ∧ (sys.inetPton = 1 → 0 ≤ sys.socketDescriptor ∧ 0 ≤ sys.ioctlAddr)

instance (sys : SysCalls) : Decidable sys.Tidy := inferInstanceAs (Decidable (_ ∨ _))

/-- The descriptor that an operation closes. -/
def releasedBy : HandleOp ℤ → Option ℤ
  | .release d => some d
  | _ => none

/-- The descriptor that an operation stores in `mUTUNSocket`. -/
def storedBy : HandleOp ℤ → Option ℤ
  | .hand d => some d
  | _ => none

section Constructor

variable {sys : SysCalls}

/-- **The operations are those of the constructor**: the descriptors closed, in their order, and
the one stored. -/
theorem descriptorOps_of_construct {r : Constructed} (h : SLUTUNInterface.construct sys = some r) :
    (SLUTUNInterface.descriptorOps sys).filterMap releasedBy = r.closed ∧
      (SLUTUNInterface.descriptorOps sys).filterMap storedBy = r.utun.mUTUNSocket.toList := by
  have haddress : (addressOps sys).filterMap releasedBy = (setInterfaceAddress sys).2 ∧
      (addressOps sys).filterMap storedBy = [] := by
    rw [addressOps, setInterfaceAddress]
    split_ifs <;> exact ⟨rfl, rfl⟩
  rw [SLUTUNInterface.construct] at h
  rw [SLUTUNInterface.descriptorOps]
  split_ifs at h ⊢ with hutun hinfo hpton
  · obtain rfl := Option.some.inj h
    exact ⟨rfl, rfl⟩
  · obtain rfl := Option.some.inj h
    simp only [List.filterMap_cons, List.filterMap_append, List.filterMap_nil, releasedBy, storedBy,
      haddress, List.append_nil, List.nil_append]
    exact ⟨trivial, rfl⟩
  · obtain rfl := Option.some.inj h
    exact ⟨rfl, rfl⟩

/-- The address branch, for a call that holds the utun socket. -/
theorem clean_addressOps_iff {u : ℤ} (hu : 0 ≤ u) :
    Clean {u} (addressOps sys ++ [.hand u, .done]) ↔
      0 ≤ sys.socketDescriptor ∧ 0 ≤ sys.ioctlAddr := by
  rw [addressOps]
  split_ifs with hd haddr haddr
  · -- the second close
    simp [Clean, hd, haddr]
  · have hempty : (({u} : Finset ℤ).erase sys.socketDescriptor).erase u = ∅ := by
      ext d
      simp only [Finset.mem_erase, Finset.mem_singleton, Finset.notMem_empty, iff_false]
      exact fun h => h.1 h.2.2
    simp [Clean, hd, not_lt.mp haddr, hempty]
  · -- the close of a descriptor that was not opened
    have hne : sys.socketDescriptor ≠ u := by omega
    simp [Clean, hd, hne]
  · have hne : sys.socketDescriptor ≠ u := by omega
    simp [Clean, hd, hne]

/-- **A call alone keeps the discipline exactly if it is tidy.** -/
theorem clean_descriptorOps_iff (sys : SysCalls) :
    Clean ∅ (SLUTUNInterface.descriptorOps sys) ↔ sys.Tidy := by
  rw [SLUTUNInterface.descriptorOps, SysCalls.Tidy]
  split_ifs with hutun hinfo hpton
  · simp [Clean, hutun]
  · -- the early return
    simp [Clean, hutun, hinfo]
  · have hclean := @clean_addressOps_iff sys _ (not_lt.mp hutun)
    simpa [Clean, hutun, hpton, not_lt.mp hinfo] using hclean
  · simp [Clean, hpton, not_lt.mp hinfo]

/-- **Descriptor discipline.** In a run whose constructor calls are all tidy, each close of a call
closes a descriptor that the call has opened and not closed yet, so that no step of a call closes
another one's descriptor, and a call that returns leaves none open that it has not stored. In any
run that is so, every call that has returned is tidy. -/
theorem descriptorDiscipline_iff
    {p : Handles SysCalls ℤ × List (Handles SysCalls ℤ × HandleAction SysCalls ℤ)}
    (h : constructorCalls.history.Reachable p) :
    ((∀ k r, p.1.running k = some r → r.input.Tidy) → Handles.LawfulRun p.2 ∧
      Handles.UndisturbedRun (fun d => decide (0 ≤ d)) SLUTUNInterface.descriptorOps p.2) ∧
    (Handles.LawfulRun p.2 → ∀ k sys, p.1.running k = some ⟨sys, []⟩ → sys.Tidy) := by
  constructor
  · intro htidy
    have hlaw := Handles.lawful_of_clean h fun k r hr =>
      (clean_descriptorOps_iff r.input).mpr (htidy k r hr)
    exact ⟨hlaw, hlaw.undisturbed⟩
  · exact fun hlaw k sys hk => (clean_descriptorOps_iff sys).mp (Handles.clean_of_lawful h hlaw hk)

end Constructor

/-- A process without descriptors. -/
private def noDescriptors : Handles SysCalls ℤ :=
  { holder := fun _ => none, running := fun _ => none }

/-- The results of a construction in which the address cannot be set. -/
private def addressFails : SysCalls := { SysCalls.succeed with ioctlAddr := -1 }

/-- A call in which nothing fails. -/
theorem descriptorDiscipline_iff_succeed :
    ∃ p, constructorCalls.history.Reachable p ∧ p.1.running 0 = some ⟨.succeed, []⟩ ∧
      Handles.LawfulRun p.2 := by
  have h₀ : constructorCalls.history.Reachable (noDescriptors, []) :=
    .init ⟨⟨fun n k => by simp [noDescriptors], fun k => rfl, rfl⟩, rfl⟩
  have h₁ := h₀.next (l := HandleAction.start 0 .succeed) rfl
  have h₂ := h₁.next (l := HandleAction.go 0) rfl
  have h₃ := h₂.next (l := HandleAction.go 0) rfl
  have h₄ := h₃.next (l := HandleAction.go 0) rfl
  have h₅ := h₄.next (l := HandleAction.go 0) rfl
  have h₆ := h₅.next (l := HandleAction.go 0) rfl
  refine ⟨_, h₆, rfl, ((descriptorDiscipline_iff h₆).1 fun k r hr => ?_).1⟩
  by_cases hk : k = 0
  · rw [hk] at hr
    obtain rfl := Option.some.inj hr
    decide
  · simp [noDescriptors, hk] at hr

/-- The address cannot be set, and another thread is given the number of the closed descriptor
before the constructor closes it again. -/
theorem not_descriptorDiscipline :
    (¬ ∀ p, constructorCalls.history.Reachable p → Handles.LawfulRun p.2) ∧
      ∃ s s', constructorCalls.Reachable s ∧ s.holder 6 = some .other ∧
        constructorCalls.step s (.go 0) = some s' ∧ s'.holder 6 = none := by
  have hinit : constructorCalls.init noDescriptors :=
    ⟨fun n k => by simp [noDescriptors], fun k => rfl, rfl⟩
  have hstart : constructorCalls.history.init (noDescriptors, []) := ⟨hinit, rfl⟩
  have hfinish : (constructorCalls.history.replay (noDescriptors, [])
      (.start 0 addressFails :: .replicate 6 (.go 0))).map (fun p => p.1.running 0) =
        some (some ⟨addressFails, []⟩) := by decide
  have hsteal : (constructorCalls.replay noDescriptors
      [.start 0 addressFails, .go 0, .go 0, .go 0, .acquire 6]).map
        (fun s => (s.holder 6, (constructorCalls.step s (.go 0)).map (·.holder 6))) =
          some (some .other, some none) := by decide
  obtain ⟨p, hp, hrun⟩ := TransitionSystem.exists_reachable_of_replay hstart hfinish
  obtain ⟨s, hs, hs6⟩ := TransitionSystem.exists_reachable_of_replay hinit hsteal
  obtain ⟨hother, hstep⟩ := Prod.mk.inj hs6
  obtain ⟨s', hstep, hclosed⟩ := Option.map_eq_some_iff.mp hstep
  refine ⟨fun h => ?_, s, s', hs, hother, hstep, hclosed⟩
  have hclean := Handles.clean_of_lawful hp (h p hp) hrun
  exact absurd ((clean_descriptorOps_iff addressFails).mp hclean) (by decide)

end SplendidLinker
