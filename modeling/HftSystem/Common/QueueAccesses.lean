import HftSystem.Common.LFQueue

set_option relaxedAutoImplicit false
set_option autoImplicit false

/-!
# The accesses of the queue

The calls of the producer and of the consumer, cut into the accesses of the atomic variables, which
interleave in any way. `updateWriteIndex` advances `next_write_index_` before it increments
`num_elements_`. In between, the consumer can find the element by `getNextToRead`, give its slot back
and fail the assertion of `updateReadIndex`.

## Main definitions

* `Common.QueueThreads` — a queue with a producer and a consumer, each at an access.
* `Common.QueueThreads.Uncounted` — the consumer is at an element that is published and not counted.
* `Common.QueueThreads.ChecksCounted` — the consumer does not check then.

## Main results

* `Common.QueueThreads.produce_eq`, `Common.QueueThreads.giveBack_eq` — the accesses of a call, one
  behind the other, are the call.
* `Common.QueueThreads.returns_iff` — the interleavings in which the assertion does not fire.
-/

namespace Common

open Fallible

variable {T : Type}

/-- The text of the assertion of `updateReadIndex`, without the number of the thread. -/
def LFQueue.invalidReadMsg : String := "Read an invalid element in: "

/-- The check of `updateReadIndex`. -/
def LFQueue.checkNumElements (q : LFQueue T) : Except Fault Unit :=
  ASSERT (q.numElements ≠ 0) LFQueue.invalidReadMsg

/-- `num_elements_--`. -/
def LFQueue.subNumElements (q : LFQueue T) : LFQueue T := { q with numElements := q.numElements - 1 }

/-- What the producer has done for its element: nothing, or it has stored it, or it has also advanced
`next_write_index_`. -/
inductive ProducerAt
  | idle
  | stored
  | advanced
  deriving DecidableEq

/-- The next access of the consumer: it compares the indices, advances `next_read_index_`, checks
`num_elements_`, or decrements it. -/
inductive ConsumerAt
  | testing
  | advancing
  | checking
  | decrementing
  deriving DecidableEq

/-- A queue with its two threads. `published` elements are behind `next_write_index_`, and of these
`consumed` are given back. -/
structure QueueThreads (T : Type) where
  queue : LFQueue T
  toWrite : List T
  producer : ProducerAt := .idle
  consumer : ConsumerAt := .testing
  published : ℕ := 0
  consumed : ℕ := 0
  deriving DecidableEq

namespace QueueThreads

/-- The start. -/
def start [Inhabited T] (numElems : ℕ) (input : List T) : QueueThreads T :=
  { queue := .new numElems, toWrite := input }

/-- The next access of the producer, which has nothing to do when everything is written. -/
def produce (s : QueueThreads T) : Except Fault (QueueThreads T) :=
  match s.producer with
  | .idle =>
    match s.toWrite with
    | [] => .ok s
    | x :: toWrite => do
      let queue ← s.queue.write s.queue.getNextToWriteTo x
      return { s with queue, toWrite, producer := .stored }
  | .stored =>
    .ok { s with
      queue := s.queue.advanceWriteIndex, producer := .advanced, published := s.published + 1 }
  | .advanced => .ok { s with queue := s.queue.incrementNumElements, producer := .idle }

/-- The next access of the consumer, which reads whenever `getNextToRead` is not null. -/
def consume (s : QueueThreads T) : Except Fault (QueueThreads T) :=
  match s.consumer with
  | .testing =>
    match s.queue.getNextToRead with
    | none => .ok s
    | some _ => .ok { s with consumer := .advancing }
  | .advancing => .ok { s with queue := s.queue.advanceReadIndex, consumer := .checking }
  | .checking => do
    s.queue.checkNumElements
    return { s with consumer := .decrementing }
  | .decrementing =>
    .ok { s with queue := s.queue.subNumElements, consumer := .testing, consumed := s.consumed + 1 }

/-- An access of one of the two. -/
def step (s : QueueThreads T) : Turn → Except Fault (QueueThreads T)
  | .producer => s.produce
  | .consumer => s.consume

/-! ## Accesses and calls -/

/-- The three accesses of the producer, one behind the other: the element is stored, and
`updateWriteIndex`. -/
lemma produce_eq {s : QueueThreads T} {x : T} {toWrite : List T} (hproducer : s.producer = .idle)
    (htoWrite : s.toWrite = x :: toWrite) :
    [Turn.producer, .producer, .producer].foldlM step s = (do
      let queue ← s.queue.write s.queue.getNextToWriteTo x
      return { s with queue := queue.updateWriteIndex, toWrite, published := s.published + 1 }) := by
  simp only [List.foldlM_cons, List.foldlM_nil, step, produce, hproducer, htoWrite]
  cases s.queue.write s.queue.getNextToWriteTo x with
  | error e => rfl
  | ok queue =>
    obtain ⟨_, _, producer, _, _, _⟩ := s
    cases hproducer
    rfl

/-- The three accesses of the consumer behind the test, one behind the other: `updateReadIndex`. -/
lemma giveBack_eq {s : QueueThreads T} (hconsumer : s.consumer = .advancing) :
    [Turn.consumer, .consumer, .consumer].foldlM step s = (do
      let queue ← s.queue.updateReadIndex
      return { s with queue, consumer := .testing, consumed := s.consumed + 1 }) := by
  have hadvance : s.step .consumer =
      .ok { s with queue := s.queue.advanceReadIndex, consumer := .checking } := by
    simp only [step, consume, hconsumer]
  rw [List.foldlM_cons, hadvance, ok_bind]
  show ((s.queue.advanceReadIndex.checkNumElements >>= _) >>= _) =
    ((ASSERT (s.queue.advanceReadIndex.numElements ≠ 0) _ >>= _) >>= _)
  unfold LFQueue.checkNumElements
  by_cases hne : s.queue.advanceReadIndex.numElements ≠ 0
  · rw [ASSERT_of_true hne, ASSERT_of_true hne]
    rfl
  · simp only [ASSERT, if_neg hne]
    rfl

/-! ## The counters between the accesses -/

/-- The number of elements that are published and not counted. -/
def pending (s : QueueThreads T) : ℕ := if s.producer = .advanced then 1 else 0

/-- The number of elements that `next_read_index_` has passed. -/
def passed (s : QueueThreads T) : ℕ :=
  if s.consumer = .checking ∨ s.consumer = .decrementing then s.consumed + 1 else s.consumed

/-- **The element that the consumer is at is not counted**: the producer has advanced
`next_write_index_` behind it, and everything before it is given back. -/
def Uncounted (s : QueueThreads T) : Prop := s.producer = .advanced ∧ s.published = s.consumed + 1

/-- Whether a write is not counted yet can be evaluated. -/
instance decidableUncounted (s : QueueThreads T) : Decidable s.Uncounted :=
  inferInstanceAs (Decidable (_ ∧ _))

/-- The consumer does not check `num_elements_` while its element is not counted. -/
def ChecksCounted (s : QueueThreads T) (turn : Turn) : Prop :=
  turn = .consumer → s.consumer = .checking → ¬ s.Uncounted

/-- What holds between the accesses. -/
structure Invariant (numElems : ℕ) (s : QueueThreads T) : Prop where
  capacity : s.queue.store.length = numElems
  nextWriteIndex : s.queue.nextWriteIndex = s.published % numElems
  nextReadIndex : s.queue.nextReadIndex = s.passed % numElems
  numElements : s.published = s.consumed + s.queue.numElements + s.pending
  unread : s.consumer ≠ .testing → s.consumed < s.published
  counted : s.consumer = .decrementing → s.queue.numElements ≠ 0

variable {numElems : ℕ} {input : List T} {s : QueueThreads T}

/-- The invariant holds at the start. -/
lemma invariant_start [Inhabited T] (numElems : ℕ) (input : List T) :
    (start numElems input).Invariant numElems where
  capacity := List.length_replicate
  nextWriteIndex := (Nat.zero_mod _).symm
  nextReadIndex := (Nat.zero_mod _).symm
  numElements := rfl
  unread h := absurd rfl h
  counted h := by cases h

/-- What the consumer checks. -/
lemma Invariant.numElements_ne_zero_iff (h : s.Invariant numElems) (hconsumer : s.consumer ≠ .testing) :
    s.queue.numElements ≠ 0 ↔ ¬ s.Uncounted := by
  have hnum := h.numElements
  have hunread := h.unread hconsumer
  unfold pending at hnum
  unfold Uncounted
  by_cases hproducer : s.producer = .advanced
  · rw [if_pos hproducer] at hnum
    simp only [hproducer, true_and]
    omega
  · rw [if_neg hproducer] at hnum
    simp only [hproducer, false_and, not_false_iff, iff_true]
    omega

/-- An access of the producer. -/
lemma Invariant.produce (h : s.Invariant numElems) (hnumElems : 0 < numElems) :
    Safe (fun _ => False) (Invariant numElems) s.produce := by
  have hnum := h.numElements
  unfold pending at hnum
  unfold QueueThreads.produce
  cases hproducer : s.producer with
  | idle =>
    simp only [hproducer, reduceCtorEq, if_false] at hnum
    cases htoWrite : s.toWrite with
    | nil => exact h
    | cons x toWrite =>
      have hslot : s.queue.getNextToWriteTo < s.queue.store.length := by
        show s.queue.nextWriteIndex < _
        rw [h.nextWriteIndex, h.capacity]
        exact Nat.mod_lt _ hnumElems
      simp only [LFQueue.write, if_pos hslot]
      exact ⟨List.length_set.trans h.capacity, h.nextWriteIndex, h.nextReadIndex, hnum, h.unread, h.counted⟩
  | stored =>
    simp only [hproducer, reduceCtorEq, if_false] at hnum
    refine ⟨h.capacity, ?_, h.nextReadIndex, ?_, fun hc => (h.unread hc).trans (Nat.lt_succ_self _),
      h.counted⟩
    · show (s.queue.nextWriteIndex + 1) % s.queue.store.length = (s.published + 1) % numElems
      rw [h.nextWriteIndex, h.capacity, Nat.mod_add_mod]
    · exact congrArg (· + 1) hnum
  | advanced =>
    simp only [hproducer, if_true] at hnum
    exact ⟨h.capacity, h.nextWriteIndex, h.nextReadIndex, hnum, h.unread, fun _ => Nat.succ_ne_zero _⟩

/-- An access of the consumer: it fails only where it checks too early.

**Proof sketch.** By the next access of the consumer. The test of the two indices succeeds only if
something is published that is not consumed, and nobody else consumes it. The count can lag behind the
published elements by those that the producer has not counted yet, so that the check of the count fails
exactly if all unread elements are of that kind. -/
lemma Invariant.consume (h : s.Invariant numElems) :
    Safe (fun e => e = .assert LFQueue.invalidReadMsg ∧ ¬ s.ChecksCounted .consumer)
      (fun s' => s'.Invariant numElems ∧ s.ChecksCounted .consumer) s.consume := by
  have hnext := h.nextReadIndex
  unfold passed at hnext
  unfold QueueThreads.consume
  cases hconsumer : s.consumer with
  | testing =>
    have hchecks : s.ChecksCounted .consumer := fun _ hc => by
      rw [hconsumer] at hc
      cases hc
    simp only [hconsumer, reduceCtorEq, or_self, if_false] at hnext
    cases hslot : s.queue.getNextToRead with
    | none => exact ⟨h, hchecks⟩
    | some slot =>
      have hne : s.published ≠ s.consumed := fun heq => by
        simp only [LFQueue.getNextToRead, hnext, h.nextWriteIndex, heq, if_true] at hslot
        cases hslot
      refine ⟨⟨h.capacity, h.nextWriteIndex, hnext, h.numElements, fun _ => ?_, fun hc => by cases hc⟩,
        hchecks⟩
      have hnum := h.numElements
      show s.consumed < s.published
      omega
  | advancing =>
    have hchecks : s.ChecksCounted .consumer := fun _ hc => by
      rw [hconsumer] at hc
      cases hc
    simp only [hconsumer, reduceCtorEq, or_self, if_false] at hnext
    refine ⟨⟨h.capacity, h.nextWriteIndex, ?_, h.numElements, fun _ => ?_, fun hc => by cases hc⟩, hchecks⟩
    · show (s.queue.nextReadIndex + 1) % s.queue.store.length = (s.consumed + 1) % numElems
      rw [hnext, h.capacity, Nat.mod_add_mod]
    · exact h.unread (by simp [hconsumer])
  | checking =>
    have hcounted := h.numElements_ne_zero_iff (by simp [hconsumer])
    simp only [hconsumer, true_or, if_true] at hnext
    by_cases hne : s.queue.numElements ≠ 0
    · simp only [LFQueue.checkNumElements, ASSERT_of_true hne]
      refine ⟨⟨h.capacity, h.nextWriteIndex, hnext, h.numElements, fun _ => ?_, fun _ => hne⟩,
        fun _ _ => hcounted.mp hne⟩
      exact h.unread (by simp [hconsumer])
    · simp only [LFQueue.checkNumElements, ASSERT, if_neg hne]
      exact ⟨rfl, fun hchecks => hne (hcounted.mpr (hchecks rfl hconsumer))⟩
  | decrementing =>
    have hne := h.counted hconsumer
    have hnum := h.numElements
    simp only [hconsumer, or_true, if_true] at hnext
    refine ⟨⟨h.capacity, h.nextWriteIndex, hnext, ?_, fun hc => absurd rfl hc, fun hc => by cases hc⟩,
      fun _ hc => by rw [hconsumer] at hc; cases hc⟩
    show s.published = s.consumed + 1 + (s.queue.numElements - 1) + s.pending
    omega

/-- **The interleavings in which the assertion does not fire** are those in which the consumer never
checks `num_elements_` between the two accesses by which the producer publishes and counts its element.
In all others it is the assertion that fires. -/
theorem returns_iff [Inhabited T] (hnumElems : 0 < numElems) (input : List T) (turns : List Turn) :
    ((∃ s, turns.foldlM step (start numElems input) = .ok s) ↔
        Meets step ChecksCounted (start numElems input) turns) ∧
      (turns.foldlM step (start numElems input) = .error (.assert LFQueue.invalidReadMsg) ↔
        ¬ Meets step ChecksCounted (start numElems input) turns) := by
  have hstep : ∀ (s : QueueThreads T) turn, s.Invariant numElems → True →
      Safe (fun e => e = .assert LFQueue.invalidReadMsg ∧ ¬ s.ChecksCounted turn)
        (fun s' => s'.Invariant numElems ∧ s.ChecksCounted turn) (s.step turn) := by
    intro s turn hs _
    cases turn with
    | producer =>
      exact (hs.produce hnumElems).mono (fun _ he => he.elim) fun _ hs' => ⟨hs', fun ht => by cases ht⟩
    | consumer => exact hs.consume
  have hrun : Safe _ _ (turns.foldlM step (start numElems input)) :=
    safe_foldlM_iff_meets hstep (invariant_start numElems input) meets_true
  exact hrun.exact fun _ hs => hs.2

/-- The two threads by turns, with one element. -/
theorem returns_iff_of_two :
    ((∃ s, [Turn.producer, .producer, .producer, .consumer, .consumer, .consumer, .consumer].foldlM step
        (start 2 [7]) = .ok s) ↔ Meets step ChecksCounted (start 2 [7])
          [.producer, .producer, .producer, .consumer, .consumer, .consumer, .consumer]) ∧
      ([Turn.producer, .producer, .producer, .consumer, .consumer, .consumer, .consumer].foldlM step
        (start 2 [7]) = .error (.assert LFQueue.invalidReadMsg) ↔ ¬ Meets step ChecksCounted (start 2 [7])
          [.producer, .producer, .producer, .consumer, .consumer, .consumer, .consumer]) :=
  returns_iff (by decide) _ _

/-- **The assertion fires for a valid element**: the producer is about to count it, and no more than one
of the two slots is ever in use. -/
theorem assertion_fires :
    Always step (fun s => s.published - s.consumed ≤ 1) (start 2 [7])
        [.producer, .producer, .consumer, .consumer, .consumer] ∧
      [Turn.producer, .producer, .consumer, .consumer, .consumer].foldlM step (start 2 [7]) =
        .error (.assert LFQueue.invalidReadMsg) := by decide

end QueueThreads

end Common
