import SplendidLinker.Server.ConnectionThreads

/-!
# The teardown of a connection

The threads of a connection are never joined. `joined_teardown` says what this costs: no fault
occurs in a run in which every `ESTABLISH` callback returns only after the TUN thread it has
started has ended (`Joined`), and from the first callback that returns earlier, the threads can
be scheduled such that a fault occurs (`Doomed`).

A joined run has at most one TUN thread that is not at rest, that of the callback that is
running, and it works on an interface and an event base of its own (`Orderly`). The teardown
begins with no callback running, so nobody is left to use what it releases.
-/

namespace SplendidLinker

open Foundations

namespace ConnectionThreads

variable {s s' : ConnectionThreads} {a : ThreadAction} {k : ℕ}

/-- The next step is not the return of an `ESTABLISH` callback whose TUN thread has not ended. -/
def Joined (s : ConnectionThreads) : ThreadAction → Prop
  | .eventThread => ∀ k, s.event = .establish k .responded → s.tun k = .done
  | _ => True

/-! ### Joined runs have no fault -/

/-- Where the TUN thread of the callback `k` can be while that callback has not returned: it
works on the interface and the event base of its own. -/
def AtOwn (k : ℕ) (base : Option ℕ) : TunPc → Prop
  | .unborn => False
  | .started | .getInterface => True
  | .setBase n => n = k
  | .dispatch n => n = k ∧ base = some k
  | .waiting n b => n = k ∧ b = k ∧ base = some k
  | .handler b h => b = k ∧ h = k ∧ base = some k
  | .header b | .packet b | .loop b => b = k ∧ base = some k
  | .done => base = some k

/-- A TUN thread that has no step to make. -/
def AtRest (pc : TunPc) : Prop := pc = .unborn ∨ pc = .done

/-- Nothing is gone yet. -/
structure Intact (s : ConnectionThreads) : Prop where
  connectionReleased : s.connectionReleased = false
  interfaceReleased : ∀ n, s.interfaceReleased n = false
  baseFreed : ∀ b, s.baseFreed b = false
  broken : ∀ b, s.broken b = false

/-- What keeps a joined run free of faults, by the place of the event thread. -/
inductive Phase (s : ConnectionThreads) : Prop
  /-- No `ESTABLISH` callback is running: all TUN threads are at rest. -/
  | between (hev : ∀ k stage, s.event ≠ .establish k stage) (hrest : ∀ j, AtRest (s.tun j))
      (hbase : ∀ n, s.mUTUNInterface = some n → s.mBase n ≠ none)
      (hloop : ∀ n, s.event = .loopbreak n ∨ s.event = .freeBase n → s.mUTUNInterface = some n)
      (hidle : s.event = .idle → s.Intact)
  /-- The callback `k` has not started its TUN thread. -/
  | opening (k : ℕ) (stage : EstablishStage) (hev : s.event = .establish k stage)
      (hstage : stage = .created ∨ stage = .installed ∧ s.mUTUNInterface = some k)
      (hrest : ∀ j, AtRest (s.tun j)) (hk : s.tun k = .unborn ∧ s.returned k = false)
      (hlive : s.Intact ∧ s.bufferEventFreed = false)
  /-- The callback `k` has started its TUN thread. -/
  | serving (k : ℕ) (stage : EstablishStage) (hev : s.event = .establish k stage)
      (hstage : stage = .spawned ∨ stage = .header ∨ stage = .responded)
      (hutun : s.mUTUNInterface = some k) (hrest : ∀ j, j ≠ k → AtRest (s.tun j))
      (hk : AtOwn k (s.mBase k) (s.tun k)) (hret : s.returned k = false)
      (hlive : s.Intact ∧ s.bufferEventFreed = false)

/-- **The invariant of joined runs.** -/
structure Orderly (s : ConnectionThreads) : Prop where
  faults : s.faults = []
  fresh : ∀ j, s.callbacks ≤ j → s.tun j = .unborn ∧ s.returned j = false
  current : ∀ k stage, s.event = .establish k stage → k < s.callbacks
  phase : s.Phase

/-- An append to a connection that is intact is no fault. -/
theorem append_eq (hc : s.connectionReleased = false) (hb : s.bufferEventFreed = false)
    (t : Sender) (part : AppendPart) :
    s.append t part = { s with output := s.output ++ [(t, part)] } := by
  simp [append, hc, hb]

private theorem Orderly.establish (h : s.Orderly) (hev : s.event = .idle)
    (hb : s.bufferEventFreed = false) :
    Orderly { s with event := .establish s.callbacks .created, callbacks := s.callbacks + 1 } := by
  obtain ⟨hfaults, hfresh, -, hphase⟩ := h
  refine ⟨hfaults, fun j hj => hfresh j (by simp only at hj; omega), ?_, ?_⟩
  · rintro k stage heq
    obtain ⟨rfl, -⟩ := EventPc.establish.inj heq
    simp
  · cases hphase with
    | between hno hrest hbase hloop hidle =>
      obtain ⟨h1, h2, h3, h4⟩ := hidle hev
      exact .opening s.callbacks .created rfl (.inl rfl) hrest (hfresh _ le_rfl)
        ⟨⟨h1, h2, h3, h4⟩, hb⟩
    | opening k stage hk => simp [hev] at hk
    | serving k stage hk => simp [hev] at hk

private theorem Orderly.bufferEvent (h : s.Orderly) (hev : s.event = .idle) :
    Orderly { s with bufferEventFreed := true } := by
  obtain ⟨hfaults, hfresh, hcurrent, hphase⟩ := h
  refine ⟨hfaults, hfresh, hcurrent, ?_⟩
  cases hphase with
  | between hno hrest hbase hloop hidle =>
    obtain ⟨h1, h2, h3, h4⟩ := hidle hev
    exact .between hno hrest hbase hloop fun _ => ⟨h1, h2, h3, h4⟩
  | opening k stage hk => simp [hev] at hk
  | serving k stage hk => simp [hev] at hk

/-- A TUN thread that is not at rest belongs to the callback that is running. -/
private theorem Orderly.serving (h : s.Orderly) (hk : ¬ AtRest (s.tun k)) :
    ∃ stage, s.event = .establish k stage ∧
      (stage = .spawned ∨ stage = .header ∨ stage = .responded) ∧ s.mUTUNInterface = some k ∧
      (∀ j, j ≠ k → AtRest (s.tun j)) ∧ AtOwn k (s.mBase k) (s.tun k) ∧ s.returned k = false ∧
      s.Intact ∧ s.bufferEventFreed = false := by
  cases h.phase with
  | between hno hrest => exact absurd (hrest k) hk
  | opening i stage hev hstage hrest => exact absurd (hrest k) hk
  | serving i stage hev hstage hutun hrest hown hret hlive =>
    obtain rfl : k = i := by
      by_contra hne
      exact hk (hrest k hne)
    exact ⟨stage, hev, hstage, hutun, hrest, hown, hret, hlive⟩

/-- The TUN thread of the running callback moves on, on its own interface and base. -/
private theorem Orderly.move (h : s.Orderly) (hk : ¬ AtRest (s.tun k)) {pc : TunPc}
    {base : Option ℕ} (hpc : AtOwn k base pc) (output : List (Sender × AppendPart)) :
    Orderly { s with
      tun := Function.update s.tun k pc
      mBase := Function.update s.mBase k base
      output := output } := by
  obtain ⟨stage, hev, hstage, hutun, hrest, -, hret, ⟨h1, h2, h3, h4⟩, hb⟩ := h.serving hk
  have hlt := h.current k stage hev
  refine ⟨h.faults, fun j hj => ?_, h.current, ?_⟩
  · obtain ⟨hunborn, hnot⟩ := h.fresh j hj
    have hne : j ≠ k := by simp only at hj; omega
    exact ⟨by simpa [hne] using hunborn, hnot⟩
  · refine .serving k stage hev hstage hutun (fun j hj => ?_) ?_ hret ⟨⟨h1, h2, h3, h4⟩, hb⟩
    · simpa [hj] using hrest j hj
    · simpa using hpc

private theorem Orderly.goto (h : s.Orderly) (hk : ¬ AtRest (s.tun k)) {pc : TunPc}
    (hpc : AtOwn k (s.mBase k) pc) : Orderly (s.goto k pc) := by
  have hmove := h.move hk hpc s.output
  rw [Function.update_eq_self] at hmove
  exact hmove

private theorem Orderly.tunThread (h : s.Orderly) (hstep : s.tunStep k = some s') :
    s'.Orderly := by
  have hk : ¬ AtRest (s.tun k) := by
    rintro (hpc | hpc) <;> simp [tunStep, hpc] at hstep
  obtain ⟨stage, -, -, hutun, -, hown, hret, hintact, hb⟩ := h.serving hk
  have hc := hintact.connectionReleased
  rw [tunStep] at hstep
  cases hpc : s.tun k with
  | unborn => simp [hpc] at hstep
  | done => simp [hpc] at hstep
  | started =>
    simp only [hpc, hret, access_false, Option.some.injEq] at hstep
    rw [← hstep]
    exact h.goto hk trivial
  | getInterface =>
    simp only [hpc, hc, access_false, hutun, Option.some.injEq] at hstep
    rw [← hstep]
    exact h.goto hk rfl
  | setBase n =>
    rw [hpc] at hown
    obtain rfl : n = k := hown
    simp only [hpc, hintact.interfaceReleased, access_false, Option.some.injEq] at hstep
    have hown' : AtOwn n (some n) (.dispatch n) := ⟨rfl, rfl⟩
    rw [← hstep]
    exact h.move hk hown' s.output
  | dispatch n =>
    rw [hpc] at hown
    obtain ⟨rfl, hbase⟩ := hown
    simp only [hpc, hintact.interfaceReleased, access_false, hbase, hintact.baseFreed,
      Option.some.injEq] at hstep
    rw [← hstep]
    exact h.goto hk ⟨rfl, rfl, hbase⟩
  | waiting n b => simp [hpc, hintact.broken] at hstep
  | handler b i =>
    rw [hpc] at hown
    obtain ⟨rfl, rfl, hbase⟩ := hown
    simp only [hpc, hret, access_false, Option.some.injEq] at hstep
    rw [← hstep]
    exact h.goto hk ⟨rfl, hbase⟩
  | header b =>
    rw [hpc] at hown
    obtain ⟨rfl, hbase⟩ := hown
    simp only [hpc, append_eq hc hb, Option.some.injEq] at hstep
    rw [← hstep]
    have hown' : AtOwn b (s.mBase b) (.packet b) := ⟨rfl, hbase⟩
    have hmove := h.move hk hown' (s.output ++ [(.tunThread b, .header)])
    rw [Function.update_eq_self] at hmove
    exact hmove
  | packet b =>
    rw [hpc] at hown
    obtain ⟨rfl, hbase⟩ := hown
    simp only [hpc, append_eq hc hb, Option.some.injEq] at hstep
    rw [← hstep]
    have hown' : AtOwn b (s.mBase b) (.loop b) := ⟨rfl, hbase⟩
    have hmove := h.move hk hown' (s.output ++ [(.tunThread b, .packet)])
    rw [Function.update_eq_self] at hmove
    exact hmove
  | loop b =>
    rw [hpc] at hown
    obtain ⟨rfl, hbase⟩ := hown
    simp only [hpc, hintact.baseFreed, access_false, Option.some.injEq] at hstep
    rw [← hstep]
    exact h.goto hk hbase

private theorem Orderly.packet (h : s.Orderly) (hstep : s.packetStep k = some s') :
    s'.Orderly := by
  have hk : ¬ AtRest (s.tun k) := by
    rintro (hpc | hpc) <;> simp [packetStep, hpc] at hstep
  obtain ⟨stage, -, -, -, -, hown, -, hintact, -⟩ := h.serving hk
  rw [packetStep] at hstep
  split at hstep
  case h_1 n b hpc =>
    rw [hpc] at hown
    obtain ⟨rfl, rfl, hbase⟩ := hown
    simp only [hbase, hintact.baseFreed, hintact.interfaceReleased, access_false,
      Option.map_some, Option.some.injEq] at hstep
    rw [← hstep]
    exact h.goto hk ⟨rfl, rfl, hbase⟩
  case h_2 => cases hstep

/-- Once all TUN threads are at rest, the teardown may mark anything as gone. -/
private theorem Orderly.tearDown (h : s.Orderly) (hrest : ∀ j, AtRest (s.tun j))
    (hbase : ∀ n, s.mUTUNInterface = some n → s.mBase n ≠ none) {event : EventPc}
    (hno : ∀ k stage, event ≠ .establish k stage) (hidle : event ≠ .idle)
    (hloop : ∀ n, event = .loopbreak n ∨ event = .freeBase n → s.mUTUNInterface = some n)
    (broken baseFreed interfaceReleased : ℕ → Bool) (connectionReleased : Bool) :
    Orderly { s with
      event := event
      broken := broken
      baseFreed := baseFreed
      interfaceReleased := interfaceReleased
      connectionReleased := connectionReleased } :=
  ⟨h.faults, h.fresh, fun k stage hev => absurd hev (hno k stage),
    .between hno hrest hbase hloop fun hev => absurd hev hidle⟩

/-- The event thread outside the callbacks that start a TUN thread. -/
private theorem Orderly.eventThread_between (h : s.Orderly)
    (hno : ∀ k stage, s.event ≠ .establish k stage) (hrest : ∀ j, AtRest (s.tun j))
    (hbase : ∀ n, s.mUTUNInterface = some n → s.mBase n ≠ none)
    (hloop : ∀ n, s.event = .loopbreak n ∨ s.event = .freeBase n → s.mUTUNInterface = some n)
    (hstep : s.eventStep = some s') : s'.Orderly := by
  rw [eventStep] at hstep
  cases hev : s.event with
  | establish k stage => exact absurd hev (hno k stage)
  | ended => simp [hev] at hstep
  | idle =>
    simp only [hev, Option.ite_none_right_eq_some, Option.some.injEq] at hstep
    rw [← hstep.2]
    exact h.tearDown hrest hbase (by simp) (by simp) (by simp) _ _ _ _
  | resumed =>
    simp only [hev] at hstep
    split at hstep
    · rw [← Option.some.inj hstep]
      exact h.tearDown hrest hbase (by simp) (by simp) (by simp) _ _ _ _
    · rw [← Option.some.inj hstep]
      exact h.tearDown hrest hbase (by simp) (by simp) (by simp [*]) _ _ _ _
  | loopbreak n =>
    have hutun := hloop n (.inl hev)
    obtain ⟨b, hb⟩ := Option.ne_none_iff_exists'.1 (hbase n hutun)
    simp only [hev, hb, Option.some.injEq] at hstep
    rw [← hstep]
    exact h.tearDown hrest hbase (by simp) (by simp) (by simp [hutun]) _ _ _ _
  | freeBase n =>
    obtain ⟨b, hb⟩ := Option.ne_none_iff_exists'.1 (hbase n (hloop n (.inr hev)))
    simp only [hev, hb, Option.some.injEq] at hstep
    rw [← hstep]
    exact h.tearDown hrest hbase (by simp) (by simp) (by simp) _ _ _ _
  | releaseInterface n =>
    simp only [hev, Option.some.injEq] at hstep
    rw [← hstep]
    exact h.tearDown hrest hbase (by simp) (by simp) (by simp) _ _ _ _
  | releaseConnection =>
    simp only [hev, Option.some.injEq] at hstep
    rw [← hstep]
    exact h.tearDown hrest hbase (by simp) (by simp) (by simp) _ _ _ _

private theorem Orderly.eventThread (h : s.Orderly) (hguard : s.Joined .eventThread)
    (hstep : s.eventStep = some s') : s'.Orderly := by
  have hcurrent' : ∀ {i stage stage'}, s.event = .establish i stage →
      ∀ j st, EventPc.establish i stage' = .establish j st → j < s.callbacks := by
    rintro i stage stage' hev j st heq
    obtain ⟨rfl, -⟩ := EventPc.establish.inj heq
    exact h.current _ stage hev
  cases h.phase with
  | between hno hrest hbase hloop hidle =>
    exact h.eventThread_between hno hrest hbase hloop hstep
  | opening k stage hev hstage hrest hk hlive =>
    obtain ⟨⟨h1, h2, h3, h4⟩, hb⟩ := hlive
    obtain rfl | ⟨rfl, hutun⟩ := hstage
    · simp only [eventStep, hev, Option.some.injEq] at hstep
      rw [← hstep]
      exact ⟨h.faults, h.fresh, hcurrent' hev,
        .opening k .installed rfl (.inr ⟨rfl, rfl⟩) hrest hk ⟨⟨h1, h2, h3, h4⟩, hb⟩⟩
    · simp only [eventStep, hev, Option.some.injEq] at hstep
      rw [← hstep]
      have hlt := h.current k .installed hev
      refine ⟨h.faults, fun j (hj : s.callbacks ≤ j) => ?_, hcurrent' hev, ?_⟩
      · have hne : j ≠ k := by omega
        simpa [hne] using h.fresh j hj
      · refine .serving k .spawned rfl (.inl rfl) hutun (fun j hj => ?_) ?_ hk.2
          ⟨⟨h1, h2, h3, h4⟩, hb⟩
        · simpa [hj] using hrest j
        · simp [AtOwn]
  | serving k stage hev hstage hutun hrest hown hret hlive =>
    obtain ⟨⟨h1, h2, h3, h4⟩, hb⟩ := hlive
    obtain rfl | rfl | rfl := hstage
    · simp only [eventStep, hev, append_eq h1 hb, Option.some.injEq] at hstep
      rw [← hstep]
      exact ⟨h.faults, h.fresh, hcurrent' hev,
        .serving k .header rfl (.inr (.inl rfl)) hutun hrest hown hret ⟨⟨h1, h2, h3, h4⟩, hb⟩⟩
    · simp only [eventStep, hev, append_eq h1 hb, Option.some.injEq] at hstep
      rw [← hstep]
      exact ⟨h.faults, h.fresh, hcurrent' hev,
        .serving k .responded rfl (.inr (.inr rfl)) hutun hrest hown hret ⟨⟨h1, h2, h3, h4⟩, hb⟩⟩
    · -- the guard: the TUN thread has ended, and has set the event base
      have hdone := hguard k hev
      simp only [eventStep, hev, Option.some.injEq] at hstep
      rw [← hstep]
      have hlt := h.current k .responded hev
      rw [hdone] at hown
      refine ⟨h.faults, fun j (hj : s.callbacks ≤ j) => ?_, by simp,
        .between (by simp) (fun j => ?_) ?_ (by simp) fun _ => ⟨h1, h2, h3, h4⟩⟩
      · have hne : j ≠ k := by omega
        simpa [hne] using h.fresh j hj
      · obtain rfl | hne := eq_or_ne j k
        · exact .inr hdone
        · exact hrest j hne
      · rintro n hn
        obtain rfl : k = n := Option.some.inj (hutun.symm.trans hn)
        rw [hown]
        simp

/-- One step of a joined run keeps the invariant. -/
theorem Orderly.next (h : s.Orderly) (hguard : s.Joined a) (hstep : s.step a = some s') :
    s'.Orderly := by
  cases a with
  | establish =>
    simp only [step, Option.ite_none_right_eq_some, Option.some.injEq] at hstep
    obtain ⟨⟨hev, hb⟩, rfl⟩ := hstep
    exact h.establish hev hb
  | callback =>
    simp only [step, Option.ite_none_right_eq_some, Option.some.injEq] at hstep
    obtain ⟨-, rfl⟩ := hstep
    exact h
  | bufferEvent =>
    simp only [step, Option.ite_none_right_eq_some, Option.some.injEq] at hstep
    obtain ⟨⟨hev, -⟩, rfl⟩ := hstep
    exact h.bufferEvent hev
  | eventThread => exact h.eventThread hguard hstep
  | tunThread k => exact h.tunThread hstep
  | packet k => exact h.packet hstep

/-- A joined run is orderly. -/
theorem orderly (h : connectionThreads.ReachableUnder Joined s) : s.Orderly := by
  refine h.invariant ?_ fun s a s' hs hguard hstep => hs.next hguard hstep
  rintro s rfl
  exact ⟨rfl, fun _ _ => ⟨rfl, rfl⟩, by simp,
    .between (by simp) (fun _ => .inl rfl) (by simp) (by simp)
      fun _ => ⟨rfl, fun _ => rfl, fun _ => rfl, fun _ => rfl⟩⟩

/-- **Joined runs are free of faults.** -/
theorem faults_eq_nil (h : connectionThreads.ReachableUnder Joined s) : s.faults = [] :=
  (orderly h).faults

/-- One packet is carried before the callback returns, and the connection is torn down. -/
example :
    (connectionThreads.replay {}
      (.establish :: .replicate 4 .eventThread ++ .replicate 4 (.tunThread 0) ++
        .packet 0 :: .replicate 4 (.tunThread 0) ++ .eventThread :: .bufferEvent ::
          .replicate 6 .eventThread)).map
        (fun s => (s.event, s.faults, s.output)) =
      some (.ended, [], [(.eventThread, .header), (.eventThread, .packet),
        (.tunThread 0, .header), (.tunThread 0, .packet)]) := by
  decide

/-! ### A run that is not joined can go wrong -/

/-- The threads can be scheduled from here on such that a fault occurs. -/
def Doomed (s : ConnectionThreads) : Prop :=
  ∃ t, connectionThreads.LeadsTo s t ∧ t.faults ≠ []

theorem Doomed.head (hstep : s.step a = some s') (h : s'.Doomed) : s.Doomed := by
  obtain ⟨t, hlead, ht⟩ := h
  exact ⟨t, .head ⟨a, hstep⟩ hlead, ht⟩

private theorem doomed_of_step (hstep : s.step a = some s') (h : s'.faults ≠ []) : s.Doomed :=
  .head hstep ⟨s', .refl, h⟩

private theorem doomed_of_handler {b h : ℕ} (hpc : s.tun k = .handler b h)
    (hret : s.returned h = true) : s.Doomed := by
  refine doomed_of_step (a := .tunThread k) (by simp only [step, tunStep, hpc]; rfl) ?_
  simp [hret, faults_access]

/-- A TUN thread whose callback has returned awaits a packet: the handler reads the variable. -/
private theorem doomed_of_waiting {n b h : ℕ} (hpc : s.tun k = .waiting n b)
    (hbase : s.mBase n = some h) (hret : s.returned h = true) : s.Doomed := by
  refine .head (a := .packet k) (by simp only [step, packetStep, hpc, hbase]; rfl) ?_
  refine doomed_of_handler (k := k) (b := b) (h := h) ?_ ?_
  · simp
  · simpa using hret

private theorem doomed_of_dispatch {n h : ℕ} (hpc : s.tun k = .dispatch n)
    (hbase : s.mBase n = some h) (hret : s.returned h = true) : s.Doomed := by
  refine .head (a := .tunThread k)
    (by simp only [step, tunStep, hpc, access_mBase, hbase]; rfl) ?_
  refine doomed_of_waiting (k := k) (n := n) (b := h) (h := h) ?_ ?_ ?_
  · simp
  · simpa using hbase
  · simpa using hret

private theorem doomed_of_setBase {n : ℕ} (hpc : s.tun k = .setBase n)
    (hret : s.returned k = true) : s.Doomed := by
  refine .head (a := .tunThread k) (by simp only [step, tunStep, hpc]; rfl) ?_
  refine doomed_of_dispatch (k := k) (n := n) (h := k) ?_ ?_ ?_
  · simp
  · simp
  · simpa using hret

private theorem doomed_of_getInterface (hpc : s.tun k = .getInterface)
    (hret : s.returned k = true) : s.Doomed := by
  cases hutun : s.mUTUNInterface with
  | none =>
    refine doomed_of_step (a := .tunThread k)
      (by simp only [step, tunStep, hpc, access_mUTUNInterface, hutun]; rfl) ?_
    simp [faults_access]
  | some n =>
    refine .head (a := .tunThread k)
      (by simp only [step, tunStep, hpc, access_mUTUNInterface, hutun]; rfl) ?_
    refine doomed_of_setBase (k := k) (n := n) ?_ ?_
    · simp
    · simpa using hret

private theorem doomed_of_started (hpc : s.tun k = .started) (hret : s.returned k = true) :
    s.Doomed := by
  refine doomed_of_step (a := .tunThread k) (by simp only [step, tunStep, hpc]; rfl) ?_
  simp [hret, faults_access]

/-- A TUN thread is writing: the bufferevent is freed under it. -/
private theorem doomed_of_writing {b : ℕ} (hpc : s.tun k = .header b ∨ s.tun k = .packet b)
    (hev : s.event = .idle) (hb : s.bufferEventFreed = false) : s.Doomed := by
  refine .head (a := .bufferEvent) (by simp only [step, hev, hb, and_self, if_true]; rfl) ?_
  obtain hpc | hpc := hpc
  · refine doomed_of_step (a := .tunThread k) (by simp only [step, tunStep, hpc]; rfl) ?_
    simp [append, faults_access]
  · refine doomed_of_step (a := .tunThread k) (by simp only [step, tunStep, hpc]; rfl) ?_
    simp [append, faults_access]

/-- A TUN thread has handled its packet: the whole connection is released under it. -/
private theorem doomed_of_loop (hpc : s.tun k = .loop k) (hev : s.event = .idle)
    (hb : s.bufferEventFreed = false) (hutun : s.mUTUNInterface = some k)
    (hbase : s.mBase k = some k) : s.Doomed := by
  refine .head (a := .bufferEvent) (by simp only [step, hev, hb, and_self, if_true]; rfl) ?_
  refine .head (a := .eventThread) (by simp only [step, eventStep, if_true]; rfl) ?_
  refine .head (a := .eventThread) (by simp only [step, eventStep, hutun]; rfl) ?_
  refine .head (a := .eventThread) (by simp only [step, eventStep, hbase]; rfl) ?_
  refine .head (a := .eventThread) (by simp only [step, eventStep, hbase]; rfl) ?_
  refine doomed_of_step (a := .tunThread k) (by simp only [step, tunStep, hpc]; rfl) ?_
  simp [faults_access]

/-- **The return of a callback before its TUN thread has ended dooms the connection.** -/
theorem doomed_of_not_joined (h : s.Orderly) (hstep : s.step a = some s') (hguard : ¬ s.Joined a) :
    s'.Doomed := by
  obtain rfl : a = .eventThread := by
    cases a <;> first | rfl | exact absurd trivial hguard
  simp only [Joined, not_forall] at hguard
  obtain ⟨k, hev, hdone⟩ := hguard
  simp only [step, eventStep, hev, Option.some.injEq] at hstep
  cases h.phase with
  | between hno => exact absurd hev (hno k .responded)
  | opening i stage hev' hstage =>
    obtain ⟨-, rfl⟩ := EventPc.establish.inj (hev.symm.trans hev')
    simp at hstage
  | serving i stage hev' hstage hutun hrest hown hret hlive =>
    obtain ⟨rfl, -⟩ := EventPc.establish.inj (hev.symm.trans hev')
    rw [← hstep]
    have hret' : Function.update s.returned k true k = true := by simp
    -- up to the handler the thread has still to read `connection`; from then on it has still
    -- to use the bufferevent or the event base
    cases hpc : s.tun k with
    | unborn =>
      rw [hpc] at hown
      exact hown.elim
    | done => exact absurd hpc hdone
    | started => exact doomed_of_started hpc hret'
    | getInterface => exact doomed_of_getInterface hpc hret'
    | setBase n => exact doomed_of_setBase hpc hret'
    | dispatch n =>
      rw [hpc] at hown
      obtain ⟨rfl, hbase⟩ := hown
      exact doomed_of_dispatch hpc hbase hret'
    | waiting n b =>
      rw [hpc] at hown
      obtain ⟨rfl, rfl, hbase⟩ := hown
      exact doomed_of_waiting hpc hbase hret'
    | handler b i =>
      rw [hpc] at hown
      obtain ⟨rfl, rfl, hbase⟩ := hown
      exact doomed_of_handler hpc hret'
    | header b => exact doomed_of_writing (.inl hpc) rfl hlive.2
    | packet b => exact doomed_of_writing (.inr hpc) rfl hlive.2
    | loop b =>
      rw [hpc] at hown
      obtain ⟨rfl, hbase⟩ := hown
      exact doomed_of_loop hpc rfl hlive.2 hutun hbase

/-- **The teardown is ordered as long as it is joined.** No access goes to an object that is
gone in a run in which every `ESTABLISH` callback returns only after its TUN thread has ended,
and from the first callback that returns earlier, a fault can be reached. -/
theorem joined_teardown (h : connectionThreads.ReachableUnder Joined s) :
    s.faults = [] ∧ ∀ a s', s.step a = some s' → ¬ s.Joined a → s'.Doomed :=
  ⟨faults_eq_nil h, fun _ _ hstep hguard => doomed_of_not_joined (orderly h) hstep hguard⟩

theorem joined_teardown_one_establish :
    ∃ s s', connectionThreads.ReachableUnder Joined s ∧ s.event = .establish 0 .responded ∧
      s.faults = [] ∧ s.step .eventThread = some s' ∧ s'.Doomed := by
  have h0 : connectionThreads.ReachableUnder Joined {} := .init rfl
  have h1 := h0.step (l := ThreadAction.establish) trivial rfl
  have h2 := h1.step (l := ThreadAction.eventThread) (by rintro k ⟨⟩) rfl
  have h3 := h2.step (l := ThreadAction.eventThread) (by rintro k ⟨⟩) rfl
  have h4 := h3.step (l := ThreadAction.eventThread) (by rintro k ⟨⟩) rfl
  have h5 := h4.step (l := ThreadAction.eventThread) (by rintro k ⟨⟩) rfl
  obtain ⟨hfaults, hdoomed⟩ := joined_teardown h5
  refine ⟨_, _, h5, rfl, hfaults, rfl, hdoomed .eventThread _ rfl fun hjoined => ?_⟩
  cases hjoined 0 rfl

/-- The response is written and the callback returns before the TUN thread has read
`connection`. -/
theorem not_ordered_teardown : ¬ ∀ s, connectionThreads.Reachable s → s.faults = [] := by
  intro hall
  have hrun : (connectionThreads.replay {}
      [.establish, .eventThread, .eventThread, .eventThread, .eventThread, .eventThread,
        .tunThread 0]).map (·.faults) = some [.localVariable] := by decide
  obtain ⟨s, hreach, hfaults⟩ := TransitionSystem.exists_reachable_of_replay
    (T := connectionThreads) rfl hrun
  simp [hall s hreach] at hfaults

end ConnectionThreads

end SplendidLinker
