import Mathlib.Algebra.BigOperators.Intervals
import SplendidLinker.Tunnel.UTUNInterface

/-!
# The write loop of the utun interface

`SLUTUNInterface::writePacket` calls `::write` until the whole buffer is written, and adds what
`::write` returns to one accumulator, which is the offset of the next call, the guard of the
loop and the return value at once.

The calls should stay inside the buffer and offer no byte twice, and the loop should end when
writing fails for good (`WritesSafely`). With short counts it does, by one invariant: the
accumulator is the number of bytes accepted (`Progress`). A failure is a negative count, which
moves the accumulator back, before the buffer or onto a byte that was accepted. So the law is
kept exactly if no call fails before everything is written (`writesSafely_iff`).

Where every call accepts at least one byte, the loop is a faithful copy: it returns the length,
and what the calls accepted, one run after the other, is the buffer (`writePacket_reassembles`).
The invariant is that the runs accepted so far are the first `writeLen` bytes
(`acceptedRuns_writeLoop`).
-/

namespace SplendidLinker

/-- A value stored in an `int`. -/
def intOf (n : ℤ) : ℤ := n.bmod (2 ^ 32)

/-- An `int` passed as a `size_t`. -/
def sizeOfInt (n : ℤ) : ℕ := (n % 2 ^ 64).toNat

/-- A call `::write(mUTUNSocket, ucharPtr + offset, count)` and its result. -/
structure SysWrite where
  offset : ℤ
  count : ℕ
  result : ℤ
  deriving DecidableEq, Repr

/-- The byte `i` of the buffer is in the window of the call. -/
def SysWrite.Offers (w : SysWrite) (i : ℤ) : Prop := w.offset ≤ i ∧ i < w.offset + w.count

/-- The byte `i` of the buffer was accepted by the call. -/
def SysWrite.Accepts (w : SysWrite) (i : ℤ) : Prop := w.offset ≤ i ∧ i < w.offset + w.result

/-- The loop of `writePacket`: its accumulator and the calls made so far. -/
structure WriteLoop where
  writeLen : ℤ := 0
  calls : List SysWrite := []
  deriving DecidableEq, Repr

namespace WriteLoop

/-- The call that the loop makes next, if it returns `r`. -/
def nextCall (totalLen : ℤ) (s : WriteLoop) (r : ℤ) : SysWrite where
  offset := s.writeLen
  count := sizeOfInt (intOf (totalLen - s.writeLen))
  result := r

/-- The test of the loop, and one round of its body. -/
def round (totalLen : ℤ) (s : WriteLoop) (r : ℤ) : WriteLoop :=
  if s.writeLen < totalLen then
    { writeLen := intOf (s.writeLen + r), calls := s.calls ++ [s.nextCall totalLen r] }
  else s

end WriteLoop

/-- `SLUTUNInterface::writePacket(data, len)` after `k` rounds, where `rs` are the results of the
calls. It has returned `writeLen` as soon as `writeLen` is not less than `len`. -/
def writeLoop (len : ℤ) (rs : ℕ → ℤ) : ℕ → WriteLoop
  | 0 => {}
  | k + 1 => (writeLoop len rs k).round len (rs k)

/-- The results are such as `::write` gives: `-1`, or a count of at least one byte and at most
those requested. -/
def Legal (len : ℤ) (rs : ℕ → ℤ) : Prop :=
  ∀ k, (writeLoop len rs k).writeLen < len → rs k = -1 ∨
    1 ≤ rs k ∧ rs k ≤ ((writeLoop len rs k).nextCall len (rs k)).count

/-- Every call that is made accepts at least one byte, and at most those requested. -/
def ShortCounts (len : ℤ) (rs : ℕ → ℤ) : Prop :=
  ∀ k, (writeLoop len rs k).writeLen < len →
    1 ≤ rs k ∧ rs k ≤ ((writeLoop len rs k).nextCall len (rs k)).count

/-- The law of the write loop, for the results `rs`. -/
structure WritesSafely (len : ℤ) (rs : ℕ → ℤ) : Prop where
  /-- Every call requests a window of the buffer. -/
  window : ∀ k, ∀ w ∈ (writeLoop len rs k).calls, 0 ≤ w.offset ∧ w.offset + w.count ≤ len
  /-- No byte is offered again once it was accepted. -/
  once : ∀ k, (writeLoop len rs k).calls.Pairwise fun w w' => ∀ i, w.Accepts i → ¬ w'.Offers i
  /-- If writing fails for good, the function returns, and not with the length of the buffer if
  one of its calls has failed. -/
  ends : ∀ k, (∀ j, k ≤ j → rs j = -1) → ∃ n, ¬ (writeLoop len rs n).writeLen < len ∧
    ((∃ w ∈ (writeLoop len rs n).calls, w.result = -1) → (writeLoop len rs n).writeLen ≠ len)

/-- The bytes accepted by the first `k` calls, if none of them fails. -/
def acceptedBytes (rs : ℕ → ℤ) (k : ℕ) : ℤ := ∑ j ∈ Finset.range k, rs j

/-- No call fails as long as fewer than `len` bytes have been accepted. -/
def NoEarlyFailure (len : ℤ) (rs : ℕ → ℤ) : Prop :=
  ∀ k, (∀ i ≤ k, acceptedBytes rs i < len) → rs k ≠ -1

variable {len : ℤ} {rs : ℕ → ℤ} {k : ℕ}

/-! ### Rounds without a failure -/

theorem intOf_of_lt {n : ℤ} (h : -1 ≤ n) (h' : n < 2 ^ 31) : intOf n = n :=
  Int.bmod_eq_of_le (by omega) (by omega)

/-- Inside the buffer, a call requests all that is left. -/
theorem count_nextCall {s : WriteLoop} (hlen : len < 2 ^ 31) (h : 0 ≤ s.writeLen)
    (h' : s.writeLen ≤ len) (r : ℤ) : ((s.nextCall len r).count : ℤ) = len - s.writeLen := by
  have hint : intOf (len - s.writeLen) = len - s.writeLen := intOf_of_lt (by omega) (by omega)
  have hcount : (s.nextCall len r).count = (len - s.writeLen).toNat := by
    rw [WriteLoop.nextCall, hint, sizeOfInt, Int.emod_eq_of_lt (by omega) (by omega)]
  rw [hcount, Int.toNat_of_nonneg (by omega)]

theorem writeLoop_succ (h : (writeLoop len rs k).writeLen < len) :
    writeLoop len rs (k + 1) =
      { writeLen := intOf ((writeLoop len rs k).writeLen + rs k)
        calls := (writeLoop len rs k).calls ++ [(writeLoop len rs k).nextCall len (rs k)] } := by
  rw [writeLoop, WriteLoop.round, if_pos h]

theorem writeLoop_succ_of_returned (h : ¬ (writeLoop len rs k).writeLen < len) :
    writeLoop len rs (k + 1) = writeLoop len rs k := by
  rw [writeLoop, WriteLoop.round, if_neg h]

@[simp]
theorem acceptedBytes_zero : acceptedBytes rs 0 = 0 := Finset.sum_range_zero rs

theorem acceptedBytes_succ : acceptedBytes rs (k + 1) = acceptedBytes rs k + rs k :=
  Finset.sum_range_succ rs k

/-- **The invariant of the loop**, as long as no call has failed: the accumulator is the number
of bytes accepted, they are those before it, and each call has requested the bytes behind it. -/
structure Progress (len : ℤ) (s : WriteLoop) : Prop where
  nonneg : 0 ≤ s.writeLen
  le : s.writeLen ≤ len
  covered : ∀ i, 0 ≤ i → i < s.writeLen → ∃ w ∈ s.calls, w.Accepts i
  window : ∀ w ∈ s.calls, 0 ≤ w.offset ∧ w.offset + w.count ≤ len
  accepted : ∀ w ∈ s.calls, 1 ≤ w.result ∧ w.offset + w.result ≤ s.writeLen
  once : s.calls.Pairwise fun w w' => ∀ i, w.Accepts i → ¬ w'.Offers i

/-- A call that does not fail keeps the invariant. -/
theorem Progress.round {s : WriteLoop} {r : ℤ} (h : Progress len s) (hlen : len < 2 ^ 31)
    (hlt : s.writeLen < len) (hr : 1 ≤ r) (hr' : r ≤ (s.nextCall len r).count) :
    Progress len (s.round len r) ∧ (s.round len r).writeLen = s.writeLen + r := by
  have hcount := count_nextCall hlen h.nonneg h.le r
  have hsum : intOf (s.writeLen + r) = s.writeLen + r :=
    intOf_of_lt (by have := h.nonneg; omega) (by omega)
  have hoff : (s.nextCall len r).offset = s.writeLen := rfl
  have hres : (s.nextCall len r).result = r := rfl
  have hnonneg := h.nonneg
  rw [WriteLoop.round, if_pos hlt, hsum]
  refine ⟨⟨by simp only; omega, by simp only; omega, fun i hi hi' => ?_, fun w hw => ?_,
    fun w hw => ?_, ?_⟩, rfl⟩
  · by_cases hold : i < s.writeLen
    · obtain ⟨w, hw, hacc⟩ := h.covered i hi hold
      exact ⟨w, List.mem_append_left _ hw, hacc⟩
    · exact ⟨s.nextCall len r, by simp, by rw [SysWrite.Accepts]; simp only at hi'; omega⟩
  · rcases List.mem_append.mp hw with hw | hw
    · exact h.window w hw
    · rw [List.mem_singleton.mp hw]
      omega
  · rcases List.mem_append.mp hw with hw | hw
    · have := h.accepted w hw
      simp only
      omega
    · rw [List.mem_singleton.mp hw]
      simp only
      omega
  · -- what was accepted lies before the new window
    refine List.pairwise_append.mpr ⟨h.once, List.pairwise_singleton _ _, ?_⟩
    intro w hw w' hw' i hi
    rw [List.mem_singleton.mp hw']
    have := h.accepted w hw
    rw [SysWrite.Accepts] at hi
    rw [SysWrite.Offers]
    omega

/-- **The loop without a failure.** Before the first failure the invariant holds. The loop goes
on as long as fewer than `len` bytes are accepted, and the accumulator is their number. -/
theorem progress_writeLoop (hnonneg : 0 ≤ len) (hlen : len < 2 ^ 31) (hlegal : Legal len rs)
    (hfail : ∀ j < k, (∀ i ≤ j, acceptedBytes rs i < len) → rs j ≠ -1) :
    Progress len (writeLoop len rs k) ∧
      ((writeLoop len rs k).writeLen < len ↔ ∀ i ≤ k, acceptedBytes rs i < len) ∧
      ((writeLoop len rs k).writeLen < len →
        (writeLoop len rs k).writeLen = acceptedBytes rs k) := by
  induction k with
  | zero =>
    refine ⟨⟨le_rfl, hnonneg, fun i hi hi' => absurd hi' (not_lt.mpr hi), by simp [writeLoop],
      by simp [writeLoop], by simp [writeLoop]⟩, ?_, fun _ => by simp [writeLoop]⟩
    simp [writeLoop]
  | succ k ih =>
    obtain ⟨hprog, hgo, hacc⟩ := ih fun j hj => hfail j (by omega)
    have hall_succ : (∀ i ≤ k + 1, acceptedBytes rs i < len) ↔
        (∀ i ≤ k, acceptedBytes rs i < len) ∧ acceptedBytes rs (k + 1) < len := by
      refine ⟨fun h => ⟨fun i hi => h i (by omega), h _ le_rfl⟩, fun h i hi => ?_⟩
      rcases Nat.le_succ_iff.mp hi with hi | rfl
      · exact h.1 i hi
      · exact h.2
    by_cases hlt : (writeLoop len rs k).writeLen < len
    · have hr := (hlegal k hlt).resolve_left (hfail k (by omega) (hgo.mp hlt))
      obtain ⟨hprog', hlen'⟩ := hprog.round hlen hlt hr.1 hr.2
      have hacc' : (writeLoop len rs (k + 1)).writeLen = acceptedBytes rs (k + 1) := by
        rw [acceptedBytes_succ, ← hacc hlt]
        exact hlen'
      refine ⟨hprog', ?_, fun _ => hacc'⟩
      rw [hall_succ, ← hacc']
      exact ⟨fun h => ⟨hgo.mp hlt, h⟩, fun h => h.2⟩
    · rw [writeLoop_succ_of_returned hlt, hall_succ, ← hgo]
      exact ⟨hprog, iff_of_false hlt fun h => hlt h.1, fun h => absurd h hlt⟩

/-! ### The first failure -/

/-- The round after a failure offers what it must not: the byte before the buffer, or the byte
accepted last. -/
theorem not_writesSafely_of_failure (hnonneg : 0 ≤ len) (hlen : len < 2 ^ 31)
    (hlegal : Legal len rs) (hfirst : ∀ j < k, (∀ i ≤ j, acceptedBytes rs i < len) → rs j ≠ -1)
    (hall : ∀ i ≤ k, acceptedBytes rs i < len) (hk : rs k = -1) : ¬ WritesSafely len rs := by
  intro h
  obtain ⟨hprog, hgo, -⟩ := progress_writeLoop hnonneg hlen hlegal hfirst
  have hlt := hgo.mpr hall
  have hpos := hprog.nonneg
  have hback : (writeLoop len rs (k + 1)).writeLen = (writeLoop len rs k).writeLen - 1 := by
    rw [writeLoop_succ hlt, hk]
    exact intOf_of_lt (by omega) (by omega)
  have hcalls : (writeLoop len rs (k + 2)).calls = (writeLoop len rs k).calls ++
      [(writeLoop len rs k).nextCall len (rs k),
        (writeLoop len rs (k + 1)).nextCall len (rs (k + 1))] := by
    rw [writeLoop_succ (by omega), writeLoop_succ hlt]
    simp
  set w' := (writeLoop len rs (k + 1)).nextCall len (rs (k + 1)) with hw'
  have hoff : w'.offset = (writeLoop len rs k).writeLen - 1 := hback
  by_cases hzero : (writeLoop len rs k).writeLen = 0
  · have hwindow := (h.window (k + 2) w' (by rw [hcalls]; simp)).1
    omega
  · obtain ⟨w, hw, hacc⟩ := hprog.covered ((writeLoop len rs k).writeLen - 1) (by omega) (by omega)
    have hcount := count_nextCall (s := writeLoop len rs (k + 1)) hlen (by omega) (by omega)
      (rs (k + 1))
    rw [← hw'] at hcount
    have honce := h.once (k + 2)
    rw [hcalls] at honce
    have := (List.pairwise_append.mp honce).2.2 w hw w' (by simp) _ hacc
    rw [SysWrite.Offers] at this
    omega

theorem ShortCounts.legal (h : ShortCounts len rs) : Legal len rs := fun k hk => .inr (h k hk)

/-- Three bytes can be written as two and one. -/
private theorem shortCounts_two_one : ShortCounts 3 fun k => if k = 0 then 2 else 1 := by
  intro k hk
  match k with
  | 0 => decide
  | 1 => decide
  | k + 2 =>
    -- two rounds have written everything
    exfalso
    induction k with
    | zero => exact absurd hk (by decide)
    | succ k ih => exact ih (by rwa [writeLoop_succ_of_returned fun h => ih h] at hk)

/-! ### The law -/

/-- **The write loop keeps its law exactly if no call fails before the whole buffer is
written.** -/
theorem writesSafely_iff (hnonneg : 0 ≤ len) (hlen : len < 2 ^ 31) (hlegal : Legal len rs) :
    WritesSafely len rs ↔ NoEarlyFailure len rs := by
  constructor
  · intro h k hall hk
    -- the first failure
    classical
    have hex : ∃ k, (∀ i ≤ k, acceptedBytes rs i < len) ∧ rs k = -1 := ⟨k, hall, hk⟩
    refine not_writesSafely_of_failure hnonneg hlen hlegal (fun j hj hj' hfail => ?_)
      (Nat.find_spec hex).1 (Nat.find_spec hex).2 h
    exact Nat.find_min hex hj ⟨hj', hfail⟩
  · intro h
    have hprog (k : ℕ) := progress_writeLoop (k := k) hnonneg hlen hlegal fun j _ => h j
    refine ⟨fun k => (hprog k).1.window, fun k => (hprog k).1.once, fun k hk => ⟨k, ?_, ?_⟩⟩
    · intro hlt
      exact h k ((hprog k).2.1.mp hlt) (hk k le_rfl)
    · rintro ⟨w, hw, hres⟩
      have := ((hprog k).1.accepted w hw).1
      omega

/-- Three bytes, written as two and one. -/
theorem writesSafely_iff_short_write :
    WritesSafely 3 (fun k => if k = 0 then 2 else 1) := by
  refine (writesSafely_iff (by decide) (by decide) shortCounts_two_one.legal).mpr fun k _ => ?_
  show (if k = 0 then (2 : ℤ) else 1) ≠ -1
  split_ifs <;> decide

/-- A write that fails, and one that fails behind the first byte. -/
theorem not_writesSafely :
    ¬ (∀ len rs, 0 ≤ len → len < 2 ^ 31 → Legal len rs → WritesSafely len rs) ∧
      ¬ WritesSafely 2 (fun k => if k = 0 then 1 else -1) := by
  constructor
  · intro h
    have hlegal : Legal 1 fun _ => -1 := fun _ _ => .inl rfl
    have hwindow := (h 1 (fun _ => -1) (by decide) (by decide) hlegal).window 2
    exact absurd hwindow (by decide)
  · intro h
    have hcalls : (writeLoop 2 (fun k => if k = 0 then 1 else -1) 3).calls =
        [⟨0, 2, 1⟩, ⟨1, 1, -1⟩, ⟨0, 2, -1⟩] := by decide
    have honce := h.once 3
    rw [hcalls] at honce
    -- the byte 0, accepted by the first call, is offered by the third
    have hrepeat := (List.pairwise_cons.mp honce).1 ⟨0, 2, -1⟩ (by simp) 0
    simp [SysWrite.Accepts, SysWrite.Offers] at hrepeat

/-! ### Short counts -/

/-- The bytes of `data` that the calls have accepted, one run after the other. -/
def acceptedRuns (data : Bytes) (calls : List SysWrite) : Bytes :=
  calls.flatMap fun w => (data.drop w.offset.toNat).take w.result.toNat

theorem acceptedRuns_concat (data : Bytes) (calls : List SysWrite) (w : SysWrite) :
    acceptedRuns data (calls ++ [w]) =
      acceptedRuns data calls ++ (data.drop w.offset.toNat).take w.result.toNat := by
  simp [acceptedRuns]

/-- No call fails while bytes are left. -/
theorem ShortCounts.progress (h : ShortCounts len rs) (hnonneg : 0 ≤ len)
    (hlen : len < 2 ^ 31) (k : ℕ) : Progress len (writeLoop len rs k) := by
  induction k with
  | zero =>
    exact (progress_writeLoop (k := 0) hnonneg hlen h.legal fun j hj => absurd hj j.not_lt_zero).1
  | succ k ih =>
    by_cases hlt : (writeLoop len rs k).writeLen < len
    · obtain ⟨hr, hr'⟩ := h k hlt
      exact (ih.round hlen hlt hr hr').1
    · rw [writeLoop_succ_of_returned hlt]
      exact ih

/-- **The runs accepted so far are the first `writeLen` bytes.** -/
theorem acceptedRuns_writeLoop {data : Bytes} (h : ShortCounts data.length rs)
    (hlen : (data.length : ℤ) < 2 ^ 31) (k : ℕ) :
    acceptedRuns data (writeLoop data.length rs k).calls =
      data.take (writeLoop data.length rs k).writeLen.toNat := by
  induction k with
  | zero => rfl
  | succ k ih =>
    by_cases hlt : (writeLoop data.length rs k).writeLen < data.length
    · obtain ⟨hr, hr'⟩ := h k hlt
      have hprog := h.progress (by omega) hlen k
      have hsucc := (hprog.round hlen hlt hr hr').2
      have hnonneg := hprog.nonneg
      have hcalls : (writeLoop data.length rs (k + 1)).calls = _ :=
        congrArg WriteLoop.calls (writeLoop_succ hlt)
      rw [writeLoop, hsucc, ← writeLoop, hcalls, acceptedRuns_concat, ih]
      -- the new run begins where the others end
      have hoff : ((writeLoop data.length rs k).nextCall data.length (rs k)).offset.toNat =
          (writeLoop data.length rs k).writeLen.toNat := rfl
      have hres : ((writeLoop data.length rs k).nextCall data.length (rs k)).result.toNat =
          (rs k).toNat := rfl
      rw [hoff, hres, ← List.take_add, Int.toNat_add hnonneg (by omega)]
    · rw [writeLoop_succ_of_returned hlt]
      exact ih

/-- As long as the loop runs, every round accepts a byte. -/
theorem le_writeLen (h : ShortCounts len rs) (hnonneg : 0 ≤ len) (hlen : len < 2 ^ 31)
    (hlt : (writeLoop len rs k).writeLen < len) : (k : ℤ) ≤ (writeLoop len rs k).writeLen := by
  induction k with
  | zero => exact le_rfl
  | succ k ih =>
    by_cases hk : (writeLoop len rs k).writeLen < len
    · obtain ⟨hr, hr'⟩ := h k hk
      have hsucc := ((h.progress hnonneg hlen k).round hlen hk hr hr').2
      have hle := ih hk
      rw [writeLoop, hsucc]
      push_cast
      omega
    · rw [writeLoop_succ_of_returned hk] at hlt
      exact absurd hlt hk

/-- **Short writes are reassembled.** If every call accepts at least one byte and at most those
requested, `writePacket` returns after at most as many calls as there are bytes. When it has
returned, the value is the length of the buffer, and what the calls accepted from inside it, one
run after the other, is the buffer. -/
theorem writePacket_reassembles {data : Bytes} {rs : ℕ → ℤ}
    (hlen : (data.length : ℤ) < 2 ^ 31) (h : ShortCounts data.length rs) :
    (∃ n ≤ data.length, ¬ (writeLoop data.length rs n).writeLen < data.length) ∧
      ∀ n, ¬ (writeLoop data.length rs n).writeLen < data.length →
        (writeLoop data.length rs n).writeLen = data.length ∧
          (∀ w ∈ (writeLoop data.length rs n).calls, 0 ≤ w.offset ∧
            w.offset + w.count ≤ data.length ∧ w.offset + w.result ≤ data.length) ∧
          acceptedRuns data (writeLoop data.length rs n).calls = data := by
  have hprog := h.progress (by omega) hlen
  refine ⟨⟨data.length, le_rfl, fun hlt => ?_⟩, fun n hn => ?_⟩
  · have := le_writeLen h (by omega) hlen hlt
    omega
  · have hfull : (writeLoop data.length rs n).writeLen = data.length :=
      le_antisymm (hprog n).le (not_lt.mp hn)
    refine ⟨hfull, fun w hw => ?_, ?_⟩
    · obtain ⟨hoff, hcount⟩ := (hprog n).window w hw
      have hres := ((hprog n).accepted w hw).2
      exact ⟨hoff, hcount, hfull ▸ hres⟩
    · rw [acceptedRuns_writeLoop h hlen, hfull, Int.toNat_natCast, List.take_length]

/-- Three bytes, written as two and one. -/
theorem writePacket_reassembles_short_write :
    ShortCounts (([1, 2, 3] : Bytes).length : ℤ) (fun k => if k = 0 then 2 else 1) ∧
      acceptedRuns [1, 2, 3]
        (writeLoop ([1, 2, 3] : Bytes).length (fun k => if k = 0 then 2 else 1) 2).calls =
          [1, 2, 3] :=
  ⟨shortCounts_two_one,
    ((@writePacket_reassembles [1, 2, 3] _ (by decide) shortCounts_two_one).2 2 (by decide)).2.2⟩

end SplendidLinker
