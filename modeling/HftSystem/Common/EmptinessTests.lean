import HftSystem.Common.LFQueue

set_option relaxedAutoImplicit false
set_option autoImplicit false

/-!
# The two tests for an empty queue

`size()` counts the unread elements and `getNextToRead()` compares two slots. The drain loops of the
publisher and of the order server use both, and `TradeEngine::stop` waits for the one while
`TradeEngine::run` reads by the other. A queue that holds as many elements as it has slots is full for
`size()` and empty for `getNextToRead()`.

## Main definitions

* `Common.QueueTally` — a queue under complete calls.
* `Common.QueueTally.TestsAgree` — the two tests agree.
* `Common.QueueTally.LeavesRoom` — a call that leaves a slot free.

## Main results

* `Common.QueueTally.testsAgree_iff` — when the two tests agree, in every state reached.
* `Common.QueueTally.testsAgree_iff_leavesRoom` — the runs in which they always do.
-/

namespace Common

open Fallible

/-- A complete call: `*getNextToWriteTo() = x` with `updateWriteIndex()`, or `getNextToRead()` with
`updateReadIndex()` unless it is null. -/
inductive QueueCall (T : Type)
  | write (x : T)
  | read
  deriving DecidableEq

/-- A queue, with the numbers of the elements that were written to it and read from it. -/
structure QueueTally (T : Type) where
  queue : LFQueue T
  written : ℕ := 0
  read : ℕ := 0
  deriving DecidableEq

namespace QueueTally

variable {T : Type}

/-- A new queue. -/
def start [Inhabited T] (numElems : ℕ) : QueueTally T := { queue := .new numElems }

/-- The next call. -/
def step (s : QueueTally T) : QueueCall T → Except Fault (QueueTally T)
  | .write x => do
    let queue ← s.queue.write s.queue.getNextToWriteTo x
    return { s with queue := queue.updateWriteIndex, written := s.written + 1 }
  | .read =>
    match s.queue.getNextToRead with
    | none => .ok s
    | some _ => do
      let queue ← s.queue.updateReadIndex
      return { s with queue, read := s.read + 1 }

/-- The number of unread elements. -/
def unread (s : QueueTally T) : ℕ := s.written - s.read

/-- **The two tests agree.** -/
def TestsAgree (s : QueueTally T) : Prop := s.queue.size = 0 ↔ s.queue.getNextToRead = none

/-- Whether the tests agree can be evaluated. -/
instance decidableTestsAgree (s : QueueTally T) : Decidable s.TestsAgree :=
  inferInstanceAs (Decidable (_ ↔ _))

/-- **A call leaves a slot free**: a write finds at least two. -/
def LeavesRoom (numElems : ℕ) (s : QueueTally T) : QueueCall T → Prop
  | .write _ => s.unread + 1 < numElems
  | .read => True

/-- What holds between the calls. -/
structure Invariant (numElems : ℕ) (s : QueueTally T) : Prop where
  capacity : s.queue.store.length = numElems
  counted : s.queue.Counted s.written s.read

variable {numElems : ℕ} {s : QueueTally T}

/-- The invariant holds at the start. -/
lemma invariant_start [Inhabited T] (numElems : ℕ) : (start numElems : QueueTally T).Invariant numElems :=
  ⟨List.length_replicate, LFQueue.counted_new numElems⟩

/-- A write adds an unread element, whether or not a slot is free. -/
lemma Invariant.write (h : s.Invariant numElems) (hnumElems : 1 ≤ numElems) (x : T) :
    Safe (fun _ => False) (fun s' => s'.Invariant numElems ∧ s'.unread = s.unread + 1)
      (s.step (.write x)) := by
  have hslot : s.queue.getNextToWriteTo < s.queue.store.length := by
    show s.queue.nextWriteIndex < _
    rw [h.counted.nextWriteIndex]
    exact Nat.mod_lt _ (h.capacity ▸ hnumElems)
  have hwrite : s.queue.write s.queue.getNextToWriteTo x =
      .ok { s.queue with store := s.queue.store.set s.queue.getNextToWriteTo x } := if_pos hslot
  show Safe _ _ (s.queue.write _ x >>= _)
  rw [hwrite]
  exact ⟨⟨List.length_set.trans h.capacity, (h.counted.set _ x).updateWriteIndex⟩,
    Nat.sub_add_comm h.counted.le⟩

/-- A read takes an unread element at most. -/
lemma Invariant.read (h : s.Invariant numElems) :
    Safe (fun _ => False) (fun s' => s'.Invariant numElems ∧ s'.unread ≤ s.unread) (s.step .read) := by
  show Safe _ _ (match s.queue.getNextToRead with | none => _ | some _ => _)
  cases hslot : s.queue.getNextToRead with
  | none => exact ⟨h, le_rfl⟩
  | some slot =>
    obtain ⟨-, hunread⟩ := h.counted.of_getNextToRead_eq_some hslot
    refine (h.counted.updateReadIndex hunread).bind fun queue hqueue => ?_
    exact ⟨⟨hqueue.2 ▸ h.capacity, hqueue.1⟩, Nat.sub_le_sub_left (Nat.le_succ _) _⟩

/-- A call completes and keeps the invariant. -/
lemma Invariant.step (h : s.Invariant numElems) (hnumElems : 1 ≤ numElems) (call : QueueCall T) :
    Safe (fun _ => False) (Invariant numElems) (s.step call) := by
  cases call with
  | write x => exact (h.write hnumElems x).mono (fun _ => id) fun _ hs => hs.1
  | read => exact h.read.mono (fun _ => id) fun _ hs => hs.1

/-- **When the two tests agree**: unless the unread elements fill the queue a whole number of times. -/
theorem testsAgree_iff (h : s.Invariant numElems) :
    s.TestsAgree ↔ ¬ (0 < s.unread ∧ numElems ∣ s.unread) := by
  have hsize : s.queue.size = s.unread := h.counted.numElements
  have hnull : s.queue.getNextToRead = none ↔ numElems ∣ s.unread := by
    rw [h.counted.getNextToRead_eq_none_iff_mod, h.capacity]
    exact Nat.modEq_iff_dvd' h.counted.le
  rw [TestsAgree, hsize, hnull, Nat.pos_iff_ne_zero]
  constructor
  · rintro hagree ⟨hne, hdvd⟩
    exact hne (hagree.mpr hdvd)
  · intro hnot
    refine ⟨fun hzero => hzero ▸ dvd_zero _, fun hdvd => ?_⟩
    by_contra hne
    exact hnot ⟨hne, hdvd⟩

/-- They agree while a slot is free. -/
lemma Invariant.testsAgree (h : s.Invariant numElems) (hroom : s.unread < numElems) : s.TestsAgree :=
  (testsAgree_iff h).mpr fun hfull => absurd (Nat.le_of_dvd hfull.1 hfull.2) (Nat.not_le.mpr hroom)

/-- **The two tests for an empty queue.** Every run of complete calls completes. In every state reached
the tests agree unless the unread elements fill the queue a whole number of times, and they agree in all
states of a run exactly if every write leaves a slot free. -/
theorem testsAgree_iff_leavesRoom [Inhabited T] (hnumElems : 1 ≤ numElems) (calls : List (QueueCall T)) :
    (∃ s, calls.foldlM step (start numElems) = .ok s) ∧
      Always step (fun s => s.TestsAgree ↔ ¬ (0 < s.unread ∧ numElems ∣ s.unread)) (start numElems) calls ∧
      (Always step TestsAgree (start numElems) calls ↔
        Meets step (LeavesRoom numElems) (start numElems) calls) := by
  have hstart := invariant_start (T := T) numElems
  obtain ⟨s, hs, -⟩ := (safe_foldlM (fun s call hs _ => hs.step hnumElems call) hstart meets_true).exists_ok
  refine ⟨⟨s, hs⟩, ?_, ?_⟩
  · exact always_of_step (fun s call s' hs _ hs' => (hs.step hnumElems call).of_eq_ok hs')
      (fun s hs => testsAgree_iff hs) hstart meets_true
  have hstep : ∀ (s : QueueTally T) call s', s.Invariant numElems ∧ s.unread < numElems →
      LeavesRoom numElems s call → s.step call = .ok s' → s'.Invariant numElems ∧ s'.unread < numElems := by
    rintro s call s' ⟨hs, hroom⟩ hleaves hs'
    cases call with
    | write x =>
      obtain ⟨hinv, hunread⟩ := (hs.write hnumElems x).of_eq_ok hs'
      exact ⟨hinv, hunread.trans_lt hleaves⟩
    | read =>
      obtain ⟨hinv, hunread⟩ := hs.read.of_eq_ok hs'
      exact ⟨hinv, hunread.trans_lt hroom⟩
  refine always_iff_meets_of_completes hstep (fun s hs => hs.1.testsAgree hs.2) ?_ ⟨hstart, hnumElems⟩
  rintro s call ⟨hs, hroom⟩ hfull
  cases call with
  | read => exact absurd trivial hfull
  | write x =>
    -- the element goes to the last free slot
    obtain ⟨s', hs', hinv, hunread⟩ := (hs.write hnumElems x).exists_ok
    have hlast : s'.unread = numElems := hunread.trans (le_antisymm hroom (Nat.not_lt.mp hfull))
    refine ⟨s', hs', fun hagree => (testsAgree_iff hinv).mp hagree ⟨?_, ?_⟩⟩
    · exact hlast ▸ hnumElems
    · exact hlast ▸ dvd_rfl

/-- A queue of two slots with one write. -/
theorem testsAgree_iff_leavesRoom_of_two :
    (∃ s, [QueueCall.write 7].foldlM step (start 2 : QueueTally ℕ) = .ok s) ∧
      Always step (fun s => s.TestsAgree ↔ ¬ (0 < s.unread ∧ 2 ∣ s.unread)) (start 2 : QueueTally ℕ) [.write 7] ∧
      (Always step TestsAgree (start 2 : QueueTally ℕ) [.write 7] ↔
        Meets step (LeavesRoom 2) (start 2 : QueueTally ℕ) [.write 7]) :=
  testsAgree_iff_leavesRoom (by decide) _

/-- **A full queue**: of its two slots both are written to, and `getNextToRead()` is null. -/
theorem full_not_testsAgree :
    ¬ Always step TestsAgree (start 2 : QueueTally ℕ) [.write 7, .write 8] := by decide

end QueueTally

end Common
