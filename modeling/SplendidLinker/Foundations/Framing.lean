import Mathlib.Data.List.Flatten
import Mathlib.Data.List.Basic
import Mathlib.Tactic.Common

/-!
# Length-prefixed framing of a stream

A `LengthCode α` writes a length as a fixed number of symbols of `α`. It turns payloads into
frames (`frame`: the code of the length, then the payload) and a list of payloads into a
stream (`stream`). The receiving side is `next?`: it takes the first frame off a buffer when
that frame is there in full, and otherwise leaves the buffer as it is; `split` repeats this
until no complete frame is left.

Two facts carry every result about receivers:

* **Resynchronisation** (`next?_of_stream`): if a buffer followed by what is still to come is
  a stream, taking a frame off gives the first payload of that stream, and leaves a buffer
  that, followed by what is still to come, is the stream of the other payloads.
* **Locality** (`split_append`): how a stream splits does not depend on where it was cut.
-/

namespace Foundations

universe u

/-- A fixed-width code of the lengths below `bound`. -/
structure LengthCode (α : Type u) where
  /-- The number of symbols of every code word. -/
  width : ℕ
  /-- The lengths below `bound` have a code word of their own. -/
  bound : ℕ
  /-- The code word of a length. -/
  encode : ℕ → List α
  /-- The length a code word stands for. -/
  decode : List α → ℕ
  width_pos : 0 < width
  length_encode : ∀ n, (encode n).length = width
  decode_encode : ∀ n, n < bound → decode (encode n) = n

namespace LengthCode

variable {α : Type u} (H : LengthCode α)

/-- A payload whose length has a code word. -/
def Fits (p : List α) : Prop := p.length < H.bound

/-- The frame of a payload. -/
def frame (p : List α) : List α := H.encode p.length ++ p

/-- The frames of a list of payloads, one after the other. -/
def stream (ps : List (List α)) : List α := ps.flatMap H.frame

/-- Take the first frame off a buffer that holds it in full: its payload and the rest. -/
def next? (b : List α) : Option (List α × List α) :=
  if b.length < H.width then none
  else if b.length < H.width + H.decode (b.take H.width) then none
  else some ((b.drop H.width).take (H.decode (b.take H.width)),
    (b.drop H.width).drop (H.decode (b.take H.width)))

@[simp]
theorem stream_nil : H.stream [] = [] := rfl

@[simp]
theorem stream_cons (p : List α) (ps : List (List α)) :
    H.stream (p :: ps) = H.frame p ++ H.stream ps := rfl

@[simp]
theorem stream_append (ps qs : List (List α)) :
    H.stream (ps ++ qs) = H.stream ps ++ H.stream qs :=
  List.flatMap_append

@[simp]
theorem length_frame (p : List α) : (H.frame p).length = H.width + p.length := by
  rw [frame, List.length_append, H.length_encode]

/-- A stream has a symbol for each frame at least. -/
theorem length_le_length_stream (hwidth : 0 < H.width) (ps : List (List α)) :
    ps.length ≤ (H.stream ps).length := by
  induction ps with
  | nil => exact Nat.zero_le _
  | cons p ps ih =>
    rw [stream_cons, List.length_append, length_frame, List.length_cons]
    omega

/-- A frame determines its payload. -/
theorem frame_injective : Function.Injective H.frame := fun p q h =>
  (List.append_inj h (by rw [H.length_encode, H.length_encode])).2

/-- The header of a buffer that starts with a frame. -/
theorem take_frame_append (p b : List α) :
    (H.frame p ++ b).take H.width = H.encode p.length := by
  rw [frame, List.append_assoc, ← H.length_encode p.length, List.take_left]

/-- What follows the header of a buffer that starts with a frame. -/
theorem drop_frame_append (p b : List α) : (H.frame p ++ b).drop H.width = p ++ b := by
  rw [frame, List.append_assoc, ← H.length_encode p.length, List.drop_left]

/-! ### Taking one frame -/

variable {H}

/-- **A complete frame is taken off**, whatever follows it. -/
theorem next?_frame_append {p : List α} (hp : H.Fits p) (b : List α) :
    H.next? (H.frame p ++ b) = some (p, b) := by
  have hlen : (H.frame p ++ b).length = H.width + p.length + b.length := by simp
  rw [next?, H.take_frame_append, H.drop_frame_append, H.decode_encode _ hp,
    if_neg (by omega), if_neg (by omega), List.take_left, List.drop_left]

/-- A buffer that ends inside its first frame gives nothing. -/
theorem next?_eq_none {p b c : List α} (hp : H.Fits p) (h : b ++ c = H.frame p)
    (hc : c ≠ []) : H.next? b = none := by
  have hlen : b.length + c.length = H.width + p.length := by
    rw [← List.length_append, h, length_frame]
  have hpos : 0 < c.length := List.length_pos_of_ne_nil hc
  rw [next?]
  split_ifs with hw hd
  · rfl
  · rfl
  · have htake : b.take H.width = H.encode p.length := by
      have h' := H.take_frame_append p []
      rw [List.append_nil, ← h, List.take_append_of_le_length (by omega)] at h'
      exact h'
    rw [htake, H.decode_encode _ hp] at hd
    omega

/-- **The completeness test.** Of a buffer that starts with the code word of `n`, or with a first
part of it, a frame is taken off exactly if it holds the code word and `n` symbols. -/
theorem next?_of_header {b : List α} {n : ℕ} (hn : n < H.bound)
    (hb : b.take H.width <+: H.encode n) :
    H.next? b = if H.width + n ≤ b.length then
      some ((b.drop H.width).take n, (b.drop H.width).drop n) else none := by
  rw [next?]
  by_cases hw : b.length < H.width
  · rw [if_pos hw, if_neg (by omega)]
  · have htake : b.take H.width = H.encode n :=
      hb.eq_of_length (by rw [List.length_take, H.length_encode]; omega)
    rw [if_neg hw, htake, H.decode_encode n hn, ← ite_not]
    exact if_congr Nat.not_lt rfl rfl

/-- What `next?` gives was at the front of the buffer. -/
theorem next?_eq_some {b p b' : List α} (h : H.next? b = some (p, b')) :
    ∃ w, w.length = H.width ∧ H.decode w = p.length ∧ b = w ++ p ++ b' := by
  rw [next?] at h
  split_ifs at h with hw hd
  obtain ⟨rfl, rfl⟩ := Prod.mk.inj (Option.some.inj h)
  refine ⟨b.take H.width, ?_, ?_, ?_⟩
  · rw [List.length_take]
    omega
  · rw [List.length_take, List.length_drop]
    omega
  · rw [List.append_assoc, List.take_append_drop, List.take_append_drop]

/-- Taking a frame off shortens the buffer. -/
theorem length_lt_of_next? {b p b' : List α} (h : H.next? b = some (p, b')) :
    b'.length < b.length := by
  obtain ⟨w, hw, -, rfl⟩ := next?_eq_some h
  have := H.width_pos
  simp only [List.length_append]
  omega

/-- A frame that is there is taken off in the same way when more has arrived behind it. -/
theorem next?_append {b p b' : List α} (h : H.next? b = some (p, b')) (c : List α) :
    H.next? (b ++ c) = some (p, b' ++ c) := by
  obtain ⟨w, hw, hd, rfl⟩ := next?_eq_some h
  have htake : (w ++ p ++ b' ++ c).take H.width = w := by
    rw [← hw, List.append_assoc, List.append_assoc, List.take_left]
  have hdrop : (w ++ p ++ b' ++ c).drop H.width = p ++ (b' ++ c) := by
    rw [← hw, List.append_assoc, List.append_assoc, List.drop_left]
  have hlen : (w ++ p ++ b' ++ c).length = H.width + p.length + (b' ++ c).length := by
    simp only [List.length_append, hw]
    omega
  rw [next?, htake, hdrop, hd, if_neg (by omega), if_neg (by omega), List.take_left,
    List.drop_left]

/-- **Resynchronisation.** Of a buffer that, with what is still to come, makes a stream:
either no frame is there in full, or the frame taken off is the first one and the rest of the
buffer, with what is still to come, makes the stream of the others. -/
theorem next?_of_stream {ps : List (List α)} (hfits : ∀ p ∈ ps, H.Fits p) {b later : List α}
    (h : b ++ later = H.stream ps) :
    H.next? b = none ∨
      ∃ p ps' b', ps = p :: ps' ∧ H.next? b = some (p, b') ∧ b' ++ later = H.stream ps' := by
  cases ps with
  | nil =>
    left
    have hb : b = [] := (List.append_eq_nil_iff.mp h).1
    rw [next?, hb, if_pos (by simpa using H.width_pos)]
  | cons p ps =>
    have hp : H.Fits p := hfits p (by simp)
    rw [stream_cons] at h
    rcases List.append_eq_append_iff.mp h with ⟨c, hc, -⟩ | ⟨b', rfl, hb'⟩
    · -- the buffer ends inside the first frame, or right behind it
      by_cases hnil : c = []
      · subst hnil
        rw [List.append_nil] at hc
        rw [← hc] at h
        refine .inr ⟨p, ps, [], rfl, ?_, by simpa using h⟩
        simpa [hc] using next?_frame_append hp []
      · exact .inl (next?_eq_none hp hc.symm hnil)
    · exact .inr ⟨p, ps, b', rfl, next?_frame_append hp b', hb'.symm⟩

/-! ### Taking all frames -/

/-- Take up to `k` frames off a buffer. -/
def splitUpTo (H : LengthCode α) : ℕ → List α → List (List α) × List α
  | 0, b => ([], b)
  | k + 1, b =>
    match H.next? b with
    | none => ([], b)
    | some (p, b') => (p :: (splitUpTo H k b').1, (splitUpTo H k b').2)

/-- The payloads of the complete frames of a buffer, and what is left behind them. -/
def split (H : LengthCode α) (b : List α) : List (List α) × List α := splitUpTo H b.length b

/-- More fuel than symbols changes nothing. -/
private theorem splitUpTo_eq_split :
    ∀ (k : ℕ) (b : List α), b.length ≤ k → splitUpTo H k b = split H b := by
  intro k
  induction k using Nat.strongRecOn with
  | _ k ih =>
    intro b hb
    rw [split]
    cases hn : H.next? b with
    | none =>
      cases k <;> cases hl : b.length <;> simp [splitUpTo, hn]
    | some r =>
      obtain ⟨p, b'⟩ := r
      -- both sides take the frame off and go on with the same shorter buffer
      have hlt := length_lt_of_next? hn
      obtain ⟨k, rfl⟩ : ∃ m, k = m + 1 := ⟨k - 1, by omega⟩
      obtain ⟨l, hl⟩ : ∃ m, b.length = m + 1 := ⟨b.length - 1, by omega⟩
      have h1 : splitUpTo H k b' = split H b' := ih k (by omega) b' (by omega)
      have h2 : splitUpTo H l b' = split H b' := ih l (by omega) b' (by omega)
      rw [hl]
      simp only [splitUpTo, hn, h1, h2]

theorem split_of_next?_none {b : List α} (h : H.next? b = none) : H.split b = ([], b) := by
  rw [split]
  cases b.length <;> simp [splitUpTo, h]

theorem split_of_next?_some {b p b' : List α} (h : H.next? b = some (p, b')) :
    H.split b = (p :: (H.split b').1, (H.split b').2) := by
  have hlt := length_lt_of_next? h
  obtain ⟨l, hl⟩ : ∃ m, b.length = m + 1 := ⟨b.length - 1, by omega⟩
  rw [split, hl]
  simp only [splitUpTo, h, splitUpTo_eq_split l b' (by omega)]

/-- A stream splits into its payloads, and nothing is left. -/
theorem split_stream {ps : List (List α)} (h : ∀ p ∈ ps, H.Fits p) :
    H.split (H.stream ps) = (ps, []) := by
  induction ps with
  | nil => rfl
  | cons p ps ih =>
    have hp : H.Fits p := h p (by simp)
    rw [stream_cons, split_of_next?_some (next?_frame_append hp _),
      ih fun q hq => h q (by simp [hq])]

/-- **Locality.** The frames of a longer buffer are those of a part of it, then those of what
was left of that part with the remainder behind it. -/
theorem split_append (b c : List α) :
    H.split (b ++ c) =
      ((H.split b).1 ++ (H.split ((H.split b).2 ++ c)).1, (H.split ((H.split b).2 ++ c)).2) := by
  induction hn : b.length using Nat.strongRecOn generalizing b with
  | _ n ih =>
    cases hb : H.next? b with
    | none => simp [split_of_next?_none hb]
    | some r =>
      obtain ⟨p, b'⟩ := r
      have hlt := length_lt_of_next? hb
      rw [split_of_next?_some hb, split_of_next?_some (next?_append hb c),
        ih b'.length (by omega) b' rfl]
      rfl

end LengthCode

end Foundations
