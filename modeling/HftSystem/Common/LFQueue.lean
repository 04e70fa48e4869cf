import HftSystem.Common.Types
import HftSystem.Lib.CircularBuffer

set_option relaxedAutoImplicit false
set_option autoImplicit false

/-!
# The lock-free queue

`utils/lock_free_queue.h`, for one producer and one consumer whose calls interleave in any way. A pointer
into the vector is the number of its slot. The queue does not refuse to write when it is full, so what it
does depends on how far the producer runs ahead.

## Main definitions

* `Common.LFQueue` — the queue and its calls.
* `Common.LFQueue.Counted` — the three counters agree with the numbers of elements written and read.
* `Common.Outbox` — a queue with its producer.
* `Common.Outbox.Carries` — the unread elements are in their slots.
* `Common.Session` — a queue with its producer and its consumer.
* `Common.Session.IsFifo` — the queue is a bounded list that is written at the end and read at the front.

## Main results

* `Common.Outbox.Carries.produced` — a call of the producer, while a slot is free.
* `Common.Session.bounded_fifo` — every interleaving that leaves a slot free.
-/

namespace Common

open CircularBuffer Fallible

/-- `LFQueue`. -/
structure LFQueue (T : Type) where
  store : List T
  nextWriteIndex : ℕ := 0
  nextReadIndex : ℕ := 0
  numElements : ℕ := 0
  deriving DecidableEq

namespace LFQueue

variable {T : Type}

/-- The constructor. -/
def new [Inhabited T] (numElems : ℕ) : LFQueue T := { store := List.replicate numElems default }

/-- Storing through a pointer into the vector. -/
def write (q : LFQueue T) (slot : ℕ) (x : T) : Except Fault (LFQueue T) :=
  if slot < q.store.length then .ok { q with store := q.store.set slot x } else .error .overrun

/-- Loading through a pointer into the vector. -/
def read (q : LFQueue T) (slot : ℕ) : Except Fault T :=
  match q.store[slot]? with
  | some x => .ok x
  | none => .error .overrun

/-- A slot of the store can be read. -/
lemma read_eq_ok {q : LFQueue T} {slot : ℕ} {x : T} (h : q.store[slot]? = some x) : q.read slot = .ok x := by
  rw [read, h]

/-- `getNextToWriteTo`. -/
def getNextToWriteTo (q : LFQueue T) : ℕ := q.nextWriteIndex

/-- The first line of `updateWriteIndex`. -/
def advanceWriteIndex (q : LFQueue T) : LFQueue T :=
  { q with nextWriteIndex := (q.nextWriteIndex + 1) % q.store.length }

/-- The second line of `updateWriteIndex`. -/
def incrementNumElements (q : LFQueue T) : LFQueue T := { q with numElements := q.numElements + 1 }

/-- `updateWriteIndex`. -/
def updateWriteIndex (q : LFQueue T) : LFQueue T := q.advanceWriteIndex.incrementNumElements

/-- `getNextToRead`. -/
def getNextToRead (q : LFQueue T) : Option ℕ :=
  if q.nextReadIndex = q.nextWriteIndex then none else some q.nextReadIndex

/-- The first line of `updateReadIndex`. -/
def advanceReadIndex (q : LFQueue T) : LFQueue T :=
  { q with nextReadIndex := (q.nextReadIndex + 1) % q.store.length }

/-- The other two lines of `updateReadIndex`. The number of the thread is left out of the text. -/
def decrementNumElements (q : LFQueue T) : Except Fault (LFQueue T) := do
  ASSERT (q.numElements ≠ 0) "Read an invalid element in: "
  return { q with numElements := q.numElements - 1 }

/-- `updateReadIndex`. -/
def updateReadIndex (q : LFQueue T) : Except Fault (LFQueue T) := q.advanceReadIndex.decrementNumElements

/-- `size`. -/
def size (q : LFQueue T) : ℕ := q.numElements

/-! ## The counters -/

/-- **The counters** of a queue to which `written` elements have been written, of which `read` are read. -/
structure Counted (q : LFQueue T) (written read : ℕ) : Prop where
  le : read ≤ written
  nextWriteIndex : q.nextWriteIndex = written % q.store.length
  nextReadIndex : q.nextReadIndex = read % q.store.length
  numElements : q.numElements = written - read

variable {q : LFQueue T} {written read : ℕ}

/-- A new queue has counted nothing. -/
lemma counted_new [Inhabited T] (numElems : ℕ) : (new numElems : LFQueue T).Counted 0 0 :=
  ⟨le_rfl, (Nat.zero_mod _).symm, (Nat.zero_mod _).symm, rfl⟩

/-- The counters do not depend on what the slots hold. -/
lemma Counted.set (h : q.Counted written read) (slot : ℕ) (x : T) :
    Counted { q with store := q.store.set slot x } written read := by
  refine ⟨h.le, ?_, ?_, h.numElements⟩
  · rw [List.length_set]
    exact h.nextWriteIndex
  · rw [List.length_set]
    exact h.nextReadIndex

/-- `updateWriteIndex` counts an element as written. -/
lemma Counted.updateWriteIndex (h : q.Counted written read) :
    q.updateWriteIndex.Counted (written + 1) read := by
  refine ⟨h.le.trans (Nat.le_succ _), ?_, h.nextReadIndex, ?_⟩
  · show (q.nextWriteIndex + 1) % q.store.length = (written + 1) % q.store.length
    rw [h.nextWriteIndex, Nat.mod_add_mod]
  · show q.numElements + 1 = written + 1 - read
    rw [h.numElements, Nat.sub_add_comm h.le]

/-- `updateReadIndex` counts an element as read, if there is an unread one. -/
lemma Counted.updateReadIndex (h : q.Counted written read) (hunread : read < written) :
    Safe (fun _ => False) (fun q' => q'.Counted written (read + 1) ∧ q'.store = q.store)
      q.updateReadIndex := by
  have hne : q.numElements ≠ 0 := by
    rw [h.numElements]
    exact Nat.sub_ne_zero_of_lt hunread
  show Safe _ _ (ASSERT (q.numElements ≠ 0) _ >>= _)
  rw [ASSERT_of_true hne]
  refine ⟨⟨hunread, h.nextWriteIndex, ?_, ?_⟩, rfl⟩
  · show (q.nextReadIndex + 1) % q.store.length = (read + 1) % q.store.length
    rw [h.nextReadIndex, Nat.mod_add_mod]
  · show q.numElements - 1 = written - (read + 1)
    rw [h.numElements, Nat.sub_sub]

/-- `getNextToRead` is null if the unread elements fill the queue a whole number of times. -/
lemma Counted.getNextToRead_eq_none_iff_mod (h : q.Counted written read) :
    q.getNextToRead = none ↔ read % q.store.length = written % q.store.length := by
  unfold getNextToRead
  rw [h.nextReadIndex, h.nextWriteIndex]
  by_cases heq : read % q.store.length = written % q.store.length
  · rw [if_pos heq]
    exact iff_of_true rfl heq
  · rw [if_neg heq]
    exact iff_of_false (Option.some_ne_none _) heq

/-- **`getNextToRead` is null exactly if everything is read**, while a slot is free. -/
lemma Counted.getNextToRead_eq_none_iff (h : q.Counted written read)
    (hroom : written - read < q.store.length) : q.getNextToRead = none ↔ read = written := by
  have hslot : (read + 0) % q.store.length = (read + (written - read)) % q.store.length ↔ 0 = written - read :=
    slot_eq_iff (Nat.zero_lt_of_lt hroom) hroom
  rw [Nat.add_zero, Nat.add_sub_cancel' h.le] at hslot
  rw [h.getNextToRead_eq_none_iff_mod, hslot]
  have := h.le
  omega

/-- The slot that `getNextToRead` points to. -/
lemma Counted.of_getNextToRead_eq_some (h : q.Counted written read) {slot : ℕ}
    (hslot : q.getNextToRead = some slot) : slot = read % q.store.length ∧ read < written := by
  unfold getNextToRead at hslot
  split_ifs at hslot with hne
  refine ⟨(Option.some.inj hslot).symm.trans h.nextReadIndex, h.le.lt_of_ne fun heq => hne ?_⟩
  rw [h.nextReadIndex, h.nextWriteIndex, heq]

end LFQueue

/-! ## The producer -/

/-- A queue with its producer, which stores an element and publishes it, one after the other. `stored` is
the element that it has stored and not published; `written` are those that it has published. -/
structure Outbox (T : Type) where
  queue : LFQueue T
  toWrite : List T
  stored : Option T := none
  written : List T := []
  deriving DecidableEq

namespace Outbox

variable {T : Type}

/-- A new queue for a producer of the elements `input`. -/
def new [Inhabited T] (numElems : ℕ) (input : List T) : Outbox T := { queue := .new numElems, toWrite := input }

/-- The next call of the producer: `*getNextToWriteTo() = x`, or `updateWriteIndex()` behind it. -/
def produce (o : Outbox T) : Except Fault (Outbox T) :=
  match o.stored with
  | some x => .ok { o with queue := o.queue.updateWriteIndex, stored := none, written := o.written ++ [x] }
  | none =>
    match o.toWrite with
    | [] => .ok o
    | x :: toWrite => do
      let queue ← o.queue.write o.queue.getNextToWriteTo x
      return { o with queue, toWrite, stored := some x }

/-- All elements of the producer. -/
def source (o : Outbox T) : List T := o.written ++ o.stored.toList ++ o.toWrite

/-- **The queue carries the unread elements**, and the one that the producer has stored. -/
structure Carries (o : Outbox T) (numElems read : ℕ) : Prop where
  capacity : o.queue.store.length = numElems
  counted : o.queue.Counted o.written.length read
  holds : Holds o.queue.store read (o.written.drop read)
  stored : ∀ x, o.stored = some x → o.queue.store[o.queue.nextWriteIndex]? = some x

variable {o : Outbox T} {numElems read : ℕ}

/-- A new queue carries nothing. -/
lemma carries_new [Inhabited T] (numElems : ℕ) (input : List T) : (new numElems input).Carries numElems 0 :=
  ⟨List.length_replicate, LFQueue.counted_new numElems, holds_nil, fun _ h => by cases h⟩

/-- The slot behind the unread elements. -/
lemma Carries.nextWriteIndex_eq (h : o.Carries numElems read) :
    o.queue.nextWriteIndex = (read + (o.written.drop read).length) % o.queue.store.length := by
  rw [List.length_drop, Nat.add_sub_cancel' h.counted.le]
  exact h.counted.nextWriteIndex

/-- Publishing the stored element. -/
lemma Carries.updateWriteIndex (h : o.Carries numElems read) {x : T} (hx : o.stored = some x) :
    Carries { o with queue := o.queue.updateWriteIndex, stored := none, written := o.written ++ [x] }
      numElems read := by
  refine ⟨h.capacity, ?_, ?_, fun _ h => by cases h⟩
  · rw [List.length_append]
    exact h.counted.updateWriteIndex
  · show Holds o.queue.store read ((o.written ++ [x]).drop read)
    rw [List.drop_append_of_le_length h.counted.le]
    refine h.holds.concat ?_
    rw [← h.nextWriteIndex_eq]
    exact h.stored x hx

/-- The producer has a slot to write to. -/
lemma Carries.nextWriteIndex_lt (h : o.Carries numElems read) (hroom : o.written.length - read < numElems) :
    o.queue.nextWriteIndex < o.queue.store.length := by
  rw [h.counted.nextWriteIndex, h.capacity]
  exact Nat.mod_lt _ (Nat.zero_lt_of_lt hroom)

/-- Storing an element, while a slot is free. -/
lemma Carries.write (h : o.Carries numElems read) (hroom : o.written.length - read < numElems) (x : T)
    (toWrite : List T) :
    Carries { o with
      queue := { o.queue with store := o.queue.store.set o.queue.nextWriteIndex x }
      toWrite, stored := some x } numElems read := by
  have hlength : (o.written.drop read).length < o.queue.store.length := by
    rw [List.length_drop, h.capacity]
    exact hroom
  refine ⟨?_, h.counted.set .., ?_, fun y hy => ?_⟩
  · rw [List.length_set]
    exact h.capacity
  · show Holds (o.queue.store.set o.queue.nextWriteIndex x) read _
    rw [h.nextWriteIndex_eq]
    exact h.holds.set_next hlength x
  · rw [← Option.some.inj hy]
    exact List.getElem?_set_self (h.nextWriteIndex_lt hroom)

/-- **What a call of the producer does**: it publishes the element that is stored, it has nothing to write,
or it stores its next element. -/
inductive Produced (o : Outbox T) : Outbox T → Prop
  | publish (x : T) (hstored : o.stored = some x) :
      Produced o { o with queue := o.queue.updateWriteIndex, stored := none, written := o.written ++ [x] }
  | idle (hstored : o.stored = none) (htoWrite : o.toWrite = []) : Produced o o
  | store (x : T) (toWrite : List T) (hstored : o.stored = none) (htoWrite : o.toWrite = x :: toWrite) :
      Produced o { o with
        queue := { o.queue with store := o.queue.store.set o.queue.nextWriteIndex x }
        toWrite, stored := some x }

/-- A call of the producer does one of these. -/
lemma safe_produce (hslot : o.queue.nextWriteIndex < o.queue.store.length) :
    Safe (fun _ => False) o.Produced o.produce := by
  unfold produce
  cases hstored : o.stored with
  | some x => exact .publish x hstored
  | none =>
    cases htoWrite : o.toWrite with
    | nil => exact .idle hstored htoWrite
    | cons x toWrite =>
      have hwrite : o.queue.write o.queue.getNextToWriteTo x =
          .ok { o.queue with store := o.queue.store.set o.queue.nextWriteIndex x } := if_pos hslot
      show Safe _ _ (o.queue.write o.queue.getNextToWriteTo x >>= _)
      rw [hwrite]
      exact Produced.store x toWrite hstored htoWrite

/-- **A call of the producer** keeps what the queue carries, while a slot is free.

**Proof sketch.** The element is stored behind the unread ones, in a slot that none of them has; it is in
place when it is published. -/
theorem Carries.produced (h : o.Carries numElems read) (hroom : o.written.length - read < numElems)
    {o' : Outbox T} (hproduced : o.Produced o') :
    o'.Carries numElems read ∧ o.written <+: o'.written ∧ o'.source = o.source := by
  cases hproduced with
  | publish x hstored =>
    refine ⟨h.updateWriteIndex hstored, List.prefix_append .., ?_⟩
    simp [source, hstored]
  | idle => exact ⟨h, List.prefix_refl _, rfl⟩
  | store x toWrite hstored htoWrite =>
    refine ⟨h.write hroom x toWrite, List.prefix_refl _, ?_⟩
    simp [source, hstored, htoWrite]

/-- The slot of the oldest unread element. -/
lemma Carries.getElem?_slot (h : o.Carries numElems read) (hunread : read < o.written.length) :
    o.queue.store[read % numElems]? = some o.written[read] := by
  have hhead := h.holds
  rw [List.drop_eq_getElem_cons hunread] at hhead
  rw [← h.capacity]
  exact hhead.head

/-- Giving the slot of the oldest unread element back. -/
lemma Carries.updateReadIndex (h : o.Carries numElems read) (hunread : read < o.written.length) :
    Safe (fun _ => False)
      (fun queue => queue.store = o.queue.store ∧ Carries { o with queue } numElems (read + 1))
      o.queue.updateReadIndex := by
  refine (h.counted.updateReadIndex hunread).mono (fun _ => id) fun queue hqueue => ?_
  obtain ⟨hcounted, hstore⟩ := hqueue
  refine ⟨hstore, ?_, hcounted, ?_, fun x hx => ?_⟩
  · rw [hstore]
    exact h.capacity
  · have hholds := h.holds
    rw [List.drop_eq_getElem_cons hunread] at hholds
    rw [hstore]
    exact hholds.tail
  · show queue.store[queue.nextWriteIndex]? = some x
    rw [hstore, hcounted.nextWriteIndex, hstore, ← h.counted.nextWriteIndex]
    exact h.stored x hx

end Outbox

/-! ## The producer and a consumer -/

/-- Where the consumer is: it has nothing, or a pointer, or it has used the element. -/
inductive Reader (T : Type)
  | idle
  | holding (slot : ℕ)
  | used (x : T)
  deriving DecidableEq

/-- A queue with its producer and its consumer. `read` are the elements that the consumer is done with. -/
structure Session (T : Type) where
  outbox : Outbox T
  reader : Reader T := .idle
  read : List T := []
  deriving DecidableEq

/-- Which of the two makes its next call. -/
inductive Turn
  | producer
  | consumer
  deriving DecidableEq

namespace Session

variable {T : Type}

/-- The start. -/
def start [Inhabited T] (numElems : ℕ) (input : List T) : Session T := { outbox := .new numElems input }

/-- The next call of the consumer: `getNextToRead()`, a use of the element if there is one, or
`updateReadIndex()`. -/
def consume (s : Session T) : Except Fault (Session T) :=
  match s.reader with
  | .idle =>
    match s.outbox.queue.getNextToRead with
    | none => .ok s
    | some slot => .ok { s with reader := .holding slot }
  | .holding slot => do
    let x ← s.outbox.queue.read slot
    return { s with reader := .used x }
  | .used x => do
    let queue ← s.outbox.queue.updateReadIndex
    return { outbox := { s.outbox with queue }, reader := .idle, read := s.read ++ [x] }

/-- A call of one of the two. -/
def step (s : Session T) : Turn → Except Fault (Session T)
  | .producer => do
    let outbox ← s.outbox.produce
    return { s with outbox }
  | .consumer => s.consume

/-- The number of unread elements. -/
def unread (s : Session T) : ℕ := s.outbox.written.length - s.read.length

/-- **A bounded list that is written at the end and read at the front**, for a producer of `input`. -/
structure IsFifo (input : List T) (s : Session T) : Prop where
  /-- The producer writes its elements in order. -/
  source : s.outbox.written ++ s.outbox.stored.toList ++ s.outbox.toWrite = input
  /-- The elements read are a prefix of those written. -/
  inOrder : s.read <+: s.outbox.written
  /-- The unread elements are in their slots. -/
  intact : Holds s.outbox.queue.store s.read.length (s.outbox.written.drop s.read.length)
  /-- A pointer of the consumer is to the oldest unread element. -/
  holding : ∀ slot, s.reader = .holding slot →
    ∃ x, s.outbox.queue.read slot = .ok x ∧ s.read ++ [x] <+: s.outbox.written
  /-- What the consumer has used is the oldest unread element. -/
  used : ∀ x, s.reader = .used x → s.read ++ [x] <+: s.outbox.written
  /-- `getNextToRead` is null exactly if everything written is read. -/
  getNextToRead : s.outbox.queue.getNextToRead = none ↔ s.read = s.outbox.written
  /-- `size` is the number of elements written and not read. -/
  size : s.outbox.queue.size = s.outbox.written.length - s.read.length

/-- What holds between the calls: the queue carries the unread elements, and the consumer is at the oldest
one. -/
structure Invariant (numElems : ℕ) (input : List T) (s : Session T) : Prop where
  carries : s.outbox.Carries numElems s.read.length
  source : s.outbox.source = input
  inOrder : s.read <+: s.outbox.written
  holding : ∀ slot, s.reader = .holding slot →
    slot = s.read.length % numElems ∧ s.read.length < s.outbox.written.length
  used : ∀ x, s.reader = .used x → s.read ++ [x] <+: s.outbox.written

variable {numElems : ℕ} {input : List T} {s : Session T}

/-- The invariant holds at the start. -/
lemma invariant_start [Inhabited T] (numElems : ℕ) (input : List T) :
    (start numElems input).Invariant numElems input :=
  ⟨Outbox.carries_new numElems input, rfl, List.nil_prefix, (fun _ h => by cases h), (fun _ h => by cases h)⟩

/-- A call of the producer keeps the invariant, while a slot is free. -/
lemma Invariant.produce (h : s.Invariant numElems input) (hroom : s.unread < numElems) :
    Safe (fun _ => False) (Invariant numElems input) (s.step .producer) := by
  refine (Outbox.safe_produce (h.carries.nextWriteIndex_lt hroom)).bind fun outbox houtbox => ?_
  obtain ⟨hcarries, hwritten, hsource⟩ := h.carries.produced hroom houtbox
  refine ⟨hcarries, hsource.trans h.source, h.inOrder.trans hwritten, fun slot hslot => ?_,
    fun x hx => (h.used x hx).trans hwritten⟩
  obtain ⟨hslot, hlt⟩ := h.holding slot hslot
  exact ⟨hslot, hlt.trans_le hwritten.length_le⟩

/-- A call of the consumer keeps the invariant. -/
lemma Invariant.consume (h : s.Invariant numElems input) :
    Safe (fun _ => False) (Invariant numElems input) (s.step .consumer) := by
  show Safe _ _ s.consume
  unfold Session.consume
  cases hreader : s.reader with
  | idle =>
    cases hslot : s.outbox.queue.getNextToRead with
    | none => exact h
    | some slot =>
      refine ⟨h.carries, h.source, h.inOrder, fun slot' hslot' => ?_, fun _ hx => by cases hx⟩
      cases hslot'
      rw [← h.carries.capacity]
      exact h.carries.counted.of_getNextToRead_eq_some hslot
  | holding slot =>
    obtain ⟨rfl, hlt⟩ := h.holding slot hreader
    simp only [LFQueue.read_eq_ok (h.carries.getElem?_slot hlt)]
    refine ⟨h.carries, h.source, h.inOrder, (fun _ hslot => by cases hslot), fun x hx => ?_⟩
    cases hx
    exact List.concat_get_prefix h.inOrder hlt
  | used x =>
    have hx := h.used x hreader
    have hlt : s.read.length < s.outbox.written.length := by
      have := hx.length_le
      rwa [List.length_append] at this
    refine (h.carries.updateReadIndex hlt).bind fun queue hqueue => ?_
    refine ⟨?_, h.source, hx, (fun _ hslot => by cases hslot), (fun _ hx => by cases hx)⟩
    rw [List.length_append]
    exact hqueue.2

/-- The invariant says what the queue is for, while a slot is free. -/
lemma Invariant.isFifo (h : s.Invariant numElems input) (hroom : s.unread < numElems) : s.IsFifo input := by
  refine ⟨h.source, h.inOrder, h.carries.holds, fun slot hslot => ?_, h.used, ?_, h.carries.counted.numElements⟩
  · obtain ⟨rfl, hlt⟩ := h.holding slot hslot
    exact ⟨_, LFQueue.read_eq_ok (h.carries.getElem?_slot hlt), List.concat_get_prefix h.inOrder hlt⟩
  · rw [← h.carries.capacity] at hroom
    rw [h.carries.counted.getNextToRead_eq_none_iff hroom]
    exact ⟨h.inOrder.eq_of_length, congrArg List.length⟩

/-- **The queue is a bounded FIFO queue.** In every interleaving of the calls that never has more than
`numElems - 1` unread elements, no call fails, and the queue is a list that is written at the end and read
at the front. -/
theorem bounded_fifo [Inhabited T] (hnumElems : 2 ≤ numElems) (input : List T) (turns : List Turn)
    (hroom : Always step (fun s => s.unread ≤ numElems - 1) (start numElems input) turns) :
    (∃ s, turns.foldlM step (start numElems input) = .ok s) ∧
      Always step (IsFifo input) (start numElems input) turns := by
  have hlt : ∀ s : Session T, s.unread ≤ numElems - 1 → s.unread < numElems := fun s hs => by omega
  have hstep : ∀ (s : Session T) turn, s.Invariant numElems input → s.unread ≤ numElems - 1 →
      Safe (fun _ => False) (Invariant numElems input) (s.step turn) := by
    intro s turn hs hunread
    cases turn with
    | producer => exact hs.produce (hlt s hunread)
    | consumer => exact hs.consume
  have hstart := invariant_start numElems input
  obtain ⟨s, hs, -⟩ := (safe_foldlM hstep hstart hroom.meets).exists_ok
  refine ⟨⟨s, hs⟩, ?_⟩
  have hinvariant : Always step (Invariant numElems input) (start numElems input) turns :=
    always_of_step (fun s turn s' hs hunread hs' => (hstep s turn hs hunread).of_eq_ok hs')
      (fun _ => id) hstart hroom.meets
  exact (hinvariant.and hroom).mono fun s hs => hs.1.isFifo (hlt s hs.2)

/-- Three elements go around a queue of two slots; the second one is stored while the first one is in
use. -/
theorem bounded_fifo_around :
    Always step (IsFifo [7, 8, 9]) (start 2 [7, 8, 9])
      [.producer, .producer, .consumer, .consumer, .producer, .consumer, .producer, .consumer,
        .consumer, .consumer, .producer, .producer, .consumer, .consumer, .consumer] :=
  (bounded_fifo le_rfl [7, 8, 9] _ (by decide)).2

end Session

end Common
