import HftSystem.Lib.Fallible
import HftSystem.Lib.FixedCodec

set_option relaxedAutoImplicit false
set_option autoImplicit false

/-!
# Frames of a byte stream

A byte stream carries messages of a fixed size, back to back. Who reads it gets the bytes in
pieces that need not end where a message ends: after each piece the complete frames are consumed
and the rest is kept for the next one. What is consumed does not depend on the pieces.

## Main definitions

* `Framing.frames`, `Framing.rest` — the complete frames at the front of some bytes, and what is
  left behind them.
* `Framing.countedStream` — the stream of messages that carry their place in it.
* `Framing.feed` — consume the frames that a piece completes.

## Main results

* `Framing.frames_append`, `Framing.rest_append` — the frames of two pieces in a row.
* `Framing.frames_eq_map` — the frames of any part of a stream of messages from its start on.
* `Framing.exists_of_frames_countedStream` — what a frame of counted messages is.
* `Framing.safe_feed`, `Framing.safe_feed_countedStream` — the invariant rules for pieces.
-/

namespace Framing

open Wire Fallible

variable {β : Type}

/-- The first `n` pieces of `size` bytes. -/
def takeFrames (size : ℕ) : ℕ → List β → List (List β)
  | 0, _ => []
  | n + 1, bs => bs.take size :: takeFrames size n (bs.drop size)

/-- The complete frames at the front of the bytes. -/
def frames (size : ℕ) (bs : List β) : List (List β) := takeFrames size (bs.length / size) bs

/-- The bytes behind the complete frames. -/
def rest (size : ℕ) (bs : List β) : List β := bs.drop (size * (bs.length / size))

section Frames

variable {size : ℕ}

/-- As many frames are taken as are asked for. -/
@[simp] lemma length_takeFrames (n : ℕ) (bs : List β) : (takeFrames size n bs).length = n := by
  induction n generalizing bs with
  | zero => rfl
  | succ n ih => simp [takeFrames, ih]

/-- The buffer is cut into as many frames as fit. -/
@[simp] lemma length_frames (bs : List β) : (frames size bs).length = bs.length / size :=
  length_takeFrames _ bs

/-- The rest is shorter than a frame. -/
lemma length_rest_lt (hsize : 0 < size) (bs : List β) : (rest size bs).length < size := by
  have := Nat.mod_lt bs.length hsize
  rw [rest, List.length_drop]
  have := Nat.div_add_mod bs.length size
  omega

/-- Nothing is lost. -/
lemma length_rest (bs : List β) : (rest size bs).length = bs.length % size := by
  rw [rest, List.length_drop]
  have := Nat.div_add_mod bs.length size
  omega

/-- Frames that are taken in two goes. -/
lemma takeFrames_append (m n : ℕ) (bs : List β) :
    takeFrames size (m + n) bs = takeFrames size m bs ++ takeFrames size n (bs.drop (size * m)) := by
  induction m generalizing bs with
  | zero => simp [takeFrames]
  | succ m ih =>
    rw [show m + 1 + n = m + n + 1 by omega, takeFrames, ih, takeFrames, List.drop_drop,
      List.cons_append, show size + size * m = size * (m + 1) by ring]

/-- Bytes behind the frames do not matter. -/
lemma takeFrames_append_right (n : ℕ) {as : List β} (bs : List β) (h : size * n ≤ as.length) :
    takeFrames size n (as ++ bs) = takeFrames size n as := by
  induction n generalizing as with
  | zero => rfl
  | succ n ih =>
    have hle : size ≤ as.length := by
      rw [Nat.mul_succ] at h
      omega
    rw [takeFrames, takeFrames, List.take_append_of_le_length hle,
      List.drop_append_of_le_length hle, ih]
    rw [List.length_drop]
    rw [Nat.mul_succ] at h
    omega

/-- A piece and the rest in front of it complete this many frames. -/
lemma length_append_div (hsize : 0 < size) (as bs : List β) :
    (as ++ bs).length / size = as.length / size + (rest size as ++ bs).length / size := by
  have hsplit := Nat.div_add_mod as.length size
  rw [List.length_append, List.length_append, length_rest, ← Nat.mul_add_div hsize]
  congr 1
  omega

/-- **The frames of two pieces in a row.** -/
lemma frames_append (hsize : 0 < size) (as bs : List β) :
    frames size (as ++ bs) = frames size as ++ frames size (rest size as ++ bs) := by
  have hle : size * (as.length / size) ≤ as.length := Nat.mul_div_le _ _
  rw [frames, length_append_div hsize, takeFrames_append, takeFrames_append_right _ bs hle,
    List.drop_append_of_le_length hle]
  rfl

/-- The rest of two pieces in a row. -/
lemma rest_append (hsize : 0 < size) (as bs : List β) :
    rest size (as ++ bs) = rest size (rest size as ++ bs) := by
  have hle : size * (as.length / size) ≤ as.length := Nat.mul_div_le _ _
  rw [rest, length_append_div hsize, Nat.mul_add, ← List.drop_drop,
    List.drop_append_of_le_length hle]
  rfl

/-- Without a complete frame everything is left. -/
lemma rest_of_lt {bs : List β} (h : bs.length < size) : rest size bs = bs := by
  rw [rest, Nat.div_eq_of_lt h, Nat.mul_zero, List.drop_zero]

/-- Without a complete frame there is none. -/
lemma frames_of_lt {bs : List β} (h : bs.length < size) : frames size bs = [] := by
  rw [frames, Nat.div_eq_of_lt h]
  rfl

end Frames

/-! ## Streams of messages -/

section Stream

variable {α : Type} (c : FixedCodec α)

/-- The first frames of a stream are its first messages. -/
lemma takeFrames_flatMap {n : ℕ} {as : List α} (h : n ≤ as.length) :
    takeFrames c.size n (as.flatMap c.encode) = (as.take n).map c.encode := by
  induction n generalizing as with
  | zero => rfl
  | succ n ih =>
    cases as with
    | nil => simp at h
    | cons a as =>
      rw [List.flatMap_cons, takeFrames, List.take_left' (c.length_encode a),
        List.drop_left' (c.length_encode a), ih (Nat.le_of_succ_le_succ h)]
      rfl

/-- **The frames of any part of a stream from its start on.** -/
lemma frames_eq_map {as : List α} {bs : List UInt8}
    (h : bs <+: as.flatMap c.encode) :
    frames c.size bs = (as.take (bs.length / c.size)).map c.encode := by
  obtain ⟨post, hpost⟩ := h
  have hlength := congrArg List.length hpost
  rw [List.length_append, c.length_flatMap_encode] at hlength
  have hle : bs.length / c.size ≤ as.length :=
    Nat.div_le_of_le_mul (by omega)
  rw [← takeFrames_flatMap c hle, ← hpost, takeFrames_append_right _ post (Nat.mul_div_le _ _)]
  rfl

/-- A frame of a stream is the message at its place. -/
lemma exists_of_frames_eq {as : List α} {bs : List UInt8} (h : bs <+: as.flatMap c.encode)
    {pre post : List (List UInt8)} {f : List UInt8} (hsplit : frames c.size bs = pre ++ f :: post) :
    ∃ a, as[pre.length]? = some a ∧ f = c.encode a := by
  have hget := congrArg (fun l => l[pre.length]?) ((frames_eq_map c h).symm.trans hsplit)
  simp only [List.getElem?_map, List.getElem?_append_right (Nat.le_refl _), Nat.sub_self,
    List.getElem?_cons_zero, Option.map_eq_some_iff] at hget
  obtain ⟨a, ha, rfl⟩ := hget
  rw [List.getElem?_take] at ha
  split_ifs at ha
  · exact ⟨a, ha, rfl⟩

/-- A whole stream leaves nothing. -/
lemma rest_flatMap (as : List α) (hsize : 0 < c.size) :
    rest c.size (as.flatMap c.encode) = [] := by
  rw [rest, c.length_flatMap_encode, Nat.mul_div_cancel_left _ hsize]
  exact List.drop_eq_nil_of_le (c.length_flatMap_encode as).le

/-! ### Counted messages

Each message carries its place in the stream, counted from 1 modulo `m`. -/

variable {γ : Type} (m : ℕ) (mk : ℕ → γ → α)

/-- The stream of counted messages, where `mk` joins a message and its number. -/
def countedStream (as : List γ) : List UInt8 :=
  (as.mapIdx fun i a => mk ((i + 1) % m) a).flatMap c.encode

/-- One more message on the stream. -/
lemma countedStream_concat (as : List γ) (a : γ) :
    countedStream c m mk (as ++ [a]) =
      countedStream c m mk as ++ c.encode (mk ((as.length + 1) % m) a) := by
  unfold countedStream
  rw [List.mapIdx_concat, List.flatMap_append, List.flatMap_singleton]

variable {c m mk}

/-- The number of messages on the stream. -/
lemma length_countedStream_div (hsize : 0 < c.size) (as : List γ) :
    (countedStream c m mk as).length / c.size = as.length := by
  rw [countedStream, c.length_flatMap_encode, List.length_mapIdx, Nat.mul_div_cancel_left _ hsize]

/-- Part of the stream holds no more messages than the stream. -/
lemma length_div_le_of_part (hsize : 0 < c.size) {as : List γ} {bs : List UInt8}
    (h : bs <+: countedStream c m mk as) : bs.length / c.size ≤ as.length := by
  rw [← length_countedStream_div hsize as]
  exact Nat.div_le_div_right h.length_le

/-- The whole stream leaves nothing. -/
lemma rest_countedStream (hsize : 0 < c.size) (as : List γ) :
    rest c.size (countedStream c m mk as) = [] := rest_flatMap c _ hsize

/-- **A frame of the stream is the message at its place, with its number.** -/
lemma exists_of_frames_countedStream {as : List γ} {bs : List UInt8}
    (h : bs <+: countedStream c m mk as) {pre post : List (List UInt8)} {f : List UInt8}
    (hsplit : frames c.size bs = pre ++ f :: post) :
    ∃ a, as[pre.length]? = some a ∧ f = c.encode (mk ((pre.length + 1) % m) a) := by
  obtain ⟨b, hb, hf⟩ := exists_of_frames_eq c h hsplit
  rw [List.getElem?_mapIdx, Option.map_eq_some_iff] at hb
  obtain ⟨a, ha, rfl⟩ := hb
  exact ⟨a, ha, hf⟩

end Stream

/-! ## Consuming the stream piece by piece -/

section Feed

variable {ε σ : Type} (size : ℕ) (body : σ → List β → Except ε σ)

/-- Consume the frames that a piece completes, and keep the rest. -/
def feed (buffer : List β) (s : σ) (piece : List β) : Except ε (List β × σ) := do
  let s ← (frames size (buffer ++ piece)).foldlM body s
  return (rest size (buffer ++ piece), s)

variable {size body} {allow : ε → Prop} {J : List (List β) → σ → Prop}

/-- **The invariant rule for pieces.** `J` speaks about the frames consumed so far. If consuming
a frame that the stream continues with keeps `J`, so does the piece, and the rest of the stream
so far stays in the buffer. -/
lemma safe_feed (hsize : 0 < size) {received piece : List β} {s : σ}
    (hs : J (frames size received) s)
    (hbody : ∀ pre f post s, frames size (received ++ piece) = pre ++ f :: post →
      frames size received <+: pre → J pre s → Safe allow (J (pre ++ [f])) (body s f)) :
    Safe allow (fun x => x.1 = rest size (received ++ piece) ∧ J (frames size (received ++ piece)) x.2)
      (feed size body (rest size received) s piece) := by
  have hfold : Safe allow (J (frames size (received ++ piece)))
      ((frames size (rest size received ++ piece)).foldlM body s) := by
    rw [frames_append hsize received piece] at hbody ⊢
    refine safe_foldlM_append hs fun pre f post s hsplit hJ => ?_
    exact hbody _ f post s (by rw [hsplit, List.append_assoc]) (List.prefix_append _ _) hJ
  exact hfold.bind fun s' hs' => ⟨(rest_append hsize received piece).symm, hs'⟩

/-- **The invariant rule for counted messages.** `J` speaks about the messages taken so far. If
taking the next message of the stream keeps `J`, so does a piece of the stream. -/
theorem safe_feed_countedStream {α γ : Type} {c : FixedCodec α} {m : ℕ} {mk : ℕ → γ → α}
    {f : σ → α → Except ε σ} {J : List γ → σ → Prop} {as : List γ} {received piece : List UInt8}
    {s : σ} (hsize : 0 < c.size) (hpart : received ++ piece <+: countedStream c m mk as)
    (hfits : ∀ k, ∀ a ∈ as, c.Fits (mk (k % m) a)) (hs : J (as.take (received.length / c.size)) s)
    (hstep : ∀ done a post s, as = done ++ a :: post →
      done.length < (received ++ piece).length / c.size → J done s →
        Safe allow (J (done ++ [a])) (f s (mk ((done.length + 1) % m) a))) :
    Safe allow (fun x => x.1 = rest c.size (received ++ piece) ∧
        J (as.take ((received ++ piece).length / c.size)) x.2)
      (feed c.size (fun s frame => f s (c.decode frame)) (rest c.size received) s piece) := by
  refine (safe_feed (J := fun frames s => J (as.take frames.length) s) hsize ?_ ?_).mono
    (fun _ => id) fun x hx => ?_
  · rw [length_frames]
    exact hs
  · intro pre frame post s hsplit _ hJ
    obtain ⟨a, ha, rfl⟩ := exists_of_frames_countedStream hpart hsplit
    obtain ⟨hlt, hget⟩ := List.getElem?_eq_some_iff.mp ha
    have hdone : (as.take pre.length).length = pre.length := by
      rw [List.length_take, Nat.min_eq_left hlt.le]
    have hsplit' : as = as.take pre.length ++ a :: as.drop (pre.length + 1) := by
      rw [← hget, List.getElem_cons_drop, List.take_append_drop]
    have hframes : pre.length < (received ++ piece).length / c.size := by
      rw [← length_frames, hsplit]
      simp
    have hnext := hstep _ a _ s hsplit' (by rwa [hdone]) hJ
    rw [hdone] at hnext
    rw [c.decode_encode _ (hfits _ a (List.mem_of_getElem? ha)), List.length_append,
      List.length_singleton, List.take_add_one, ha]
    exact hnext
  · rw [length_frames] at hx
    exact hx

end Feed

end Framing
