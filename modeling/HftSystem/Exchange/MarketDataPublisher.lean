import HftSystem.Common.LFQueue
import HftSystem.Exchange.SnapshotSynthesizer

set_option relaxedAutoImplicit false
set_option autoImplicit false

/-!
# The market data publisher

`exchange/market_data/market_data_publisher.cpp`, `MarketDataPublisher::run`, beside the matching engine that
fills its queue. The publisher keeps a pointer into the queue, and uses it once more after it has given the
slot back.

## Main definitions

* `Exchange.MarketDataPublisher` with `run`, one call at a time.
* `Exchange.UpdatePath` — the queue of market updates between the matching engine and the publisher.
* `Exchange.UpdatePath.SameFeed` — both channels carry the same update under each number.
* `Exchange.UpdatePath.Untouched` — the slot that is still to be copied is not overwritten.

## Main results

* `Exchange.UpdatePath.InStep.publisher`, `Exchange.UpdatePath.InStep.matchingEngine` — the step lemmas.
* `Exchange.UpdatePath.sameFeed_iff` — the interleavings in which the channels agree.
-/

namespace Exchange

open Common CircularBuffer Fallible

/-- Where `run` is in its inner loop. All but the first one have the pointer `market_update`. -/
inductive Stage
  | reading
  | testing (marketUpdate : Option ℕ)
  | sending (marketUpdate : ℕ)
  | releasing (marketUpdate : ℕ)
  | copying (marketUpdate : ℕ)
  deriving DecidableEq

namespace Stage

/-- `market_update`. -/
def marketUpdate : Stage → Option ℕ
  | reading => none
  | testing marketUpdate => marketUpdate
  | sending marketUpdate | releasing marketUpdate | copying marketUpdate => some marketUpdate

/-- Whether the update that is worked on has been sent. -/
def sent : Stage → ℕ
  | releasing _ | copying _ => 1
  | reading | testing _ | sending _ => 0

/-- Whether its slot has been given back. -/
def released : Stage → ℕ
  | copying _ => 1
  | reading | testing _ | sending _ | releasing _ => 0

end Stage

/-- `MarketDataPublisher`. `incremental` are the messages that were given to `incremental_socket_`, and
`snapshotMdUpdates` those that were written to the queue of the snapshot synthesizer. -/
structure MarketDataPublisher where
  nextIncSeqNum : ℕ := 1
  stage : Stage := .reading
  incremental : List MDPMarketUpdate := []
  snapshotMdUpdates : List MDPMarketUpdate := []
  deriving DecidableEq

namespace MarketDataPublisher

/-- The number of slots that were given back. -/
def released (p : MarketDataPublisher) : ℕ := p.snapshotMdUpdates.length + p.stage.released

/-- The next call of `run`. Where the inner loop ends, the outer one leads back to its start; the
`sendAndRecv` in between is left out. -/
def run (p : MarketDataPublisher) (outgoingMdUpdates : LFQueue MEMarketUpdate) :
    Except Fault (LFQueue MEMarketUpdate × MarketDataPublisher) :=
  match p.stage with
  | .reading =>
    .ok (outgoingMdUpdates, { p with stage := .testing outgoingMdUpdates.getNextToRead })
  | .testing marketUpdate =>
    match marketUpdate with
    | some slot =>
      .ok (outgoingMdUpdates,
        { p with stage := if outgoingMdUpdates.size ≠ 0 then .sending slot else .reading })
    | none => .ok (outgoingMdUpdates, { p with stage := .reading })
  | .sending slot => do
    let meMarketUpdate ← outgoingMdUpdates.read slot
    return (outgoingMdUpdates, { p with
      stage := .releasing slot
      incremental := p.incremental ++ [{ seqNum := p.nextIncSeqNum, meMarketUpdate }] })
  | .releasing slot => do
    let outgoingMdUpdates ← outgoingMdUpdates.updateReadIndex
    return (outgoingMdUpdates, { p with stage := .copying slot })
  | .copying slot => do
    let meMarketUpdate ← outgoingMdUpdates.read slot
    return (outgoingMdUpdates, { p with
      stage := .reading
      snapshotMdUpdates := p.snapshotMdUpdates ++ [{ seqNum := p.nextIncSeqNum, meMarketUpdate }]
      nextIncSeqNum := p.nextIncSeqNum + 1 })

end MarketDataPublisher

/-- The matching engine, its queue of market updates, and the publisher. -/
structure UpdatePath where
  outbox : Outbox MEMarketUpdate
  publisher : MarketDataPublisher := {}
  deriving DecidableEq

/-- Which of the two makes its next call. -/
inductive UpdateThread
  | matchingEngine
  | publisher
  deriving DecidableEq

namespace UpdatePath

/-- The start, for a matching engine that passes `updates` to `sendMarketUpdate`. -/
def start (numElems : ℕ) (updates : List MEMarketUpdate) : UpdatePath := { outbox := .new numElems updates }

/-- A call of one of the two. That of the matching engine is one of the two in `sendMarketUpdate`. -/
def step (s : UpdatePath) : UpdateThread → Except Fault UpdatePath
  | .matchingEngine => do
    let outbox ← s.outbox.produce
    return { s with outbox }
  | .publisher => do
    let (queue, publisher) ← s.publisher.run s.outbox.queue
    return { outbox := { s.outbox with queue }, publisher }

/-- The number of unread elements. -/
def unread (s : UpdatePath) : ℕ := s.outbox.written.length - s.publisher.released

/-- **The two channels carry the same update** under each number. -/
def SameFeed (s : UpdatePath) : Prop :=
  ∀ m ∈ s.publisher.incremental, ∀ m' ∈ s.publisher.snapshotMdUpdates,
    m.seqNum = m'.seqNum → m.meMarketUpdate = m'.meMarketUpdate

/-- **The slot that is still to be copied is not overwritten** with another update. -/
def Untouched (s : UpdatePath) : UpdateThread → Prop
  | .publisher => True
  | .matchingEngine => s.outbox.stored = none → ∀ x ∈ s.outbox.toWrite.head?,
      s.publisher.stage = .copying s.outbox.queue.nextWriteIndex →
        s.outbox.queue.store[s.outbox.queue.nextWriteIndex]? = some x

/-- Whether the two feeds are the same can be evaluated. -/
instance decidableSameFeed : DecidablePred SameFeed := fun s =>
  inferInstanceAs (Decidable (∀ m ∈ s.publisher.incremental, ∀ m' ∈ s.publisher.snapshotMdUpdates,
    m.seqNum = m'.seqNum → m.meMarketUpdate = m'.meMarketUpdate))

/-- Whether a turn leaves the slot that is being copied alone can be evaluated. -/
instance decidableUntouched (s : UpdatePath) : ∀ turn, Decidable (s.Untouched turn)
  | .publisher => inferInstanceAs (Decidable True)
  | .matchingEngine => inferInstanceAs (Decidable (s.outbox.stored = none → ∀ x ∈ s.outbox.toWrite.head?,
      s.publisher.stage = .copying s.outbox.queue.nextWriteIndex →
        s.outbox.queue.store[s.outbox.queue.nextWriteIndex]? = some x))

/-! ## The invariant -/

/-- What holds between the calls: the queue carries the unread updates, the messages of the channels have the
numbers of the updates, and the publisher is at the oldest one that is not copied. -/
structure InStep (numElems : ℕ) (s : UpdatePath) : Prop where
  carries : s.outbox.Carries numElems s.publisher.released
  nextIncSeqNum : s.publisher.nextIncSeqNum = 1 + s.publisher.snapshotMdUpdates.length
  incremental : s.publisher.incremental = numberedFrom 1
    (s.outbox.written.take (s.publisher.snapshotMdUpdates.length + s.publisher.stage.sent))
  snapshotMdUpdates : s.publisher.snapshotMdUpdates = numberedFrom 1
    (s.outbox.written.take s.publisher.snapshotMdUpdates.length)
  marketUpdate : ∀ slot, s.publisher.stage.marketUpdate = some slot →
    slot = s.publisher.snapshotMdUpdates.length % numElems ∧
      s.publisher.snapshotMdUpdates.length < s.outbox.written.length
  copying : ∀ slot, s.publisher.stage = .copying slot →
    s.outbox.queue.store[slot]? = s.outbox.written[s.publisher.snapshotMdUpdates.length]?

/-- The slot that is still to be copied holds another update than the one that was sent, and the matching
engine cannot publish anything before it is copied. -/
def Overwritten (numElems : ℕ) (s : UpdatePath) : Prop :=
  ∃ slot x y, s.publisher.stage = .copying slot ∧ s.outbox.queue.store[slot]? = some y ∧ x ≠ y ∧
    { seqNum := s.publisher.nextIncSeqNum, meMarketUpdate := x } ∈ s.publisher.incremental ∧
    s.outbox.stored = some y ∧ s.outbox.written.length = s.publisher.released + (numElems - 1)

variable {numElems : ℕ} {updates : List MEMarketUpdate} {s : UpdatePath}

/-- The channels are in step at the start. -/
lemma inStep_start (numElems : ℕ) (updates : List MEMarketUpdate) : (start numElems updates).InStep numElems :=
  ⟨Outbox.carries_new numElems updates, rfl, rfl, rfl, (fun _ h => by cases h), (fun _ h => by cases h)⟩

/-- The messages of numbered updates. -/
lemma getElem?_of_mem_numberedFrom {n k : ℕ} {us : List MEMarketUpdate} {m : MDPMarketUpdate}
    (hm : m ∈ numberedFrom n (us.take k)) : us[m.seqNum - n]? = some m.meMarketUpdate := by
  obtain ⟨i, hi, rfl⟩ := List.mem_mapIdx.mp hm
  simp only [Nat.add_sub_cancel_left]
  rw [List.getElem_take]
  exact List.getElem?_eq_getElem _

/-- The channels agree when each carries numbered updates. -/
lemma InStep.sameFeed (h : s.InStep numElems) : s.SameFeed := by
  intro m hm m' hm' hseq
  rw [h.incremental] at hm
  rw [h.snapshotMdUpdates] at hm'
  have hu := getElem?_of_mem_numberedFrom hm
  have hu' := getElem?_of_mem_numberedFrom hm'
  rw [← hseq, hu] at hu'
  exact Option.some.inj hu'

/-- Everything that was sent was written. -/
lemma InStep.sent_le (h : s.InStep numElems) :
    s.publisher.snapshotMdUpdates.length + s.publisher.stage.sent ≤ s.outbox.written.length := by
  have hle := h.carries.counted.le
  have hlt := h.marketUpdate
  unfold MarketDataPublisher.released at hle
  cases hstage : s.publisher.stage with
  | reading | testing marketUpdate | sending slot =>
    rw [hstage] at hle
    exact hle
  | releasing slot | copying slot =>
    rw [hstage] at hlt
    exact (hlt slot rfl).2

/-- Numbering one more update. -/
lemma numberedFrom_take_succ {k : ℕ} {us : List MEMarketUpdate} (hk : k < us.length) :
    numberedFrom 1 (us.take (k + 1)) =
      numberedFrom 1 (us.take k) ++ [{ seqNum := 1 + k, meMarketUpdate := us[k] }] := by
  rw [List.take_succ_eq_append_getElem hk, numberedFrom_append, List.length_take, min_eq_left hk.le]
  rfl

/-! ## The publisher -/

/-- A step that only changes where `run` is. -/
lemma InStep.setStage (h : s.InStep numElems) {stage : Stage} (hsent : s.publisher.stage.sent = stage.sent)
    (hreleased : s.publisher.stage.released = stage.released)
    (hmarketUpdate : ∀ slot, stage.marketUpdate = some slot →
      slot = s.publisher.snapshotMdUpdates.length % numElems ∧
        s.publisher.snapshotMdUpdates.length < s.outbox.written.length)
    (hcopying : ∀ slot, stage ≠ .copying slot) :
    InStep numElems { s with publisher := { s.publisher with stage } } := by
  refine ⟨?_, h.nextIncSeqNum, ?_, h.snapshotMdUpdates, hmarketUpdate,
    fun slot hslot => absurd hslot (hcopying slot)⟩
  · have hcarries := h.carries
    rw [MarketDataPublisher.released, hreleased] at hcarries
    exact hcarries
  · rw [← hsent]
    exact h.incremental

/-- What the queue carries, at a known place of `run`. -/
lemma InStep.carries_at (h : s.InStep numElems) {stage : Stage} (hstage : s.publisher.stage = stage) :
    s.outbox.Carries numElems (s.publisher.snapshotMdUpdates.length + stage.released) := by
  rw [← hstage]
  exact h.carries

/-- What was sent, at a known place of `run`. -/
lemma InStep.incremental_at (h : s.InStep numElems) {stage : Stage} (hstage : s.publisher.stage = stage) :
    s.publisher.incremental =
      numberedFrom 1 (s.outbox.written.take (s.publisher.snapshotMdUpdates.length + stage.sent)) := by
  rw [← hstage]
  exact h.incremental

/-- Where the pointer leads, at a known place of `run`. -/
lemma InStep.marketUpdate_at (h : s.InStep numElems) {stage : Stage} (hstage : s.publisher.stage = stage)
    {slot : ℕ} (hslot : stage.marketUpdate = some slot) :
    slot = s.publisher.snapshotMdUpdates.length % numElems ∧
      s.publisher.snapshotMdUpdates.length < s.outbox.written.length := by
  rw [← hstage] at hslot
  exact h.marketUpdate slot hslot

/-- **A call of the publisher** keeps the invariant.

**Proof sketch.** The two uses of the pointer find the oldest update that is not copied: the queue carries it
until `updateReadIndex`, and after that the invariant says so. -/
theorem InStep.publisher (h : s.InStep numElems) :
    Safe (fun _ => False) (InStep numElems) (s.step .publisher) := by
  show Safe _ _ (s.publisher.run s.outbox.queue >>= _)
  unfold MarketDataPublisher.run
  cases hstage : s.publisher.stage with
  | reading =>
    refine h.setStage (by rw [hstage]; rfl) (by rw [hstage]; rfl) (fun slot hslot => ?_)
      (fun _ => Stage.noConfusion)
    rw [← h.carries.capacity]
    exact (h.carries_at hstage).counted.of_getNextToRead_eq_some hslot
  | testing marketUpdate =>
    cases marketUpdate with
    | none =>
      exact h.setStage (by rw [hstage]; rfl) (by rw [hstage]; rfl) (fun slot hslot => by cases hslot)
        (fun _ => Stage.noConfusion)
    | some slot =>
      simp only
      split_ifs
      · exact h.setStage (by rw [hstage]; rfl) (by rw [hstage]; rfl) (fun slot => h.marketUpdate_at hstage)
          (fun _ => Stage.noConfusion)
      · exact h.setStage (by rw [hstage]; rfl) (by rw [hstage]; rfl) (fun slot hslot => by cases hslot)
          (fun _ => Stage.noConfusion)
  | sending slot =>
    have hcarries : s.outbox.Carries numElems s.publisher.snapshotMdUpdates.length := h.carries_at hstage
    obtain ⟨rfl, hlt⟩ := h.marketUpdate_at hstage rfl
    simp only [LFQueue.read_eq_ok (hcarries.getElem?_slot hlt)]
    refine ⟨hcarries, h.nextIncSeqNum, ?_, h.snapshotMdUpdates, fun slot => h.marketUpdate_at hstage,
      fun _ hslot => by cases hslot⟩
    show s.publisher.incremental ++ [_] = numberedFrom 1 (s.outbox.written.take (_ + 1))
    rw [numberedFrom_take_succ hlt, h.incremental_at hstage, h.nextIncSeqNum]
    rfl
  | releasing slot =>
    have hcarries : s.outbox.Carries numElems s.publisher.snapshotMdUpdates.length := h.carries_at hstage
    obtain ⟨rfl, hlt⟩ := h.marketUpdate_at hstage rfl
    have hincremental := h.incremental_at hstage
    simp only
    refine (Safe.bind (hcarries.updateReadIndex hlt) fun queue hqueue => ?_).bind fun _ => id
    refine ⟨hqueue.2, h.nextIncSeqNum, hincremental, h.snapshotMdUpdates,
      fun slot => h.marketUpdate_at hstage, fun slot hslot => ?_⟩
    cases hslot
    show queue.store[_]? = s.outbox.written[s.publisher.snapshotMdUpdates.length]?
    rw [hqueue.1, hcarries.getElem?_slot hlt, List.getElem?_eq_getElem hlt]
  | copying slot =>
    have hlt := (h.marketUpdate_at hstage rfl).2
    have hslot := h.copying slot hstage
    rw [List.getElem?_eq_getElem hlt] at hslot
    simp only [LFQueue.read_eq_ok hslot]
    refine ⟨?_, ?_, ?_, ?_, (fun _ hslot => by cases hslot), (fun _ hslot => by cases hslot)⟩
    · show s.outbox.Carries numElems ((s.publisher.snapshotMdUpdates ++ [_]).length + 0)
      rw [List.length_append]
      exact h.carries_at hstage
    · show s.publisher.nextIncSeqNum + 1 = 1 + (s.publisher.snapshotMdUpdates ++ [_]).length
      rw [List.length_append, h.nextIncSeqNum]
      rfl
    · show s.publisher.incremental = numberedFrom 1
        (s.outbox.written.take ((s.publisher.snapshotMdUpdates ++ [_]).length + 0))
      rw [List.length_append]
      exact h.incremental_at hstage
    · show s.publisher.snapshotMdUpdates ++ [_] = numberedFrom 1
        (s.outbox.written.take (s.publisher.snapshotMdUpdates ++ [_]).length)
      rw [List.length_append, List.length_singleton, numberedFrom_take_succ hlt, ← h.snapshotMdUpdates,
        h.nextIncSeqNum]

/-! ## The matching engine -/

/-- A call of the matching engine that leaves the slot alone which is still to be copied. -/
lemma InStep.produced (h : s.InStep numElems) (hroom : s.unread < numElems) {outbox : Outbox MEMarketUpdate}
    (hproduced : s.outbox.Produced outbox)
    (hslot : ∀ slot, s.publisher.stage = .copying slot →
      outbox.queue.store[slot]? = s.outbox.queue.store[slot]?) :
    InStep numElems { s with outbox } := by
  obtain ⟨hcarries, ⟨rest, hwritten⟩, -⟩ := h.carries.produced hroom hproduced
  have htake : ∀ k ≤ s.outbox.written.length, outbox.written.take k = s.outbox.written.take k := by
    intro k hk
    rw [← hwritten, List.take_append_of_le_length hk]
  refine ⟨hcarries, h.nextIncSeqNum, ?_, ?_, fun slot hmarketUpdate => ?_, fun slot hstage => ?_⟩
  · show _ = numberedFrom 1 (outbox.written.take _)
    rw [htake _ h.sent_le]
    exact h.incremental
  · show _ = numberedFrom 1 (outbox.written.take _)
    rw [htake _ ((Nat.le_add_right ..).trans h.sent_le)]
    exact h.snapshotMdUpdates
  · obtain ⟨heq, hlt⟩ := h.marketUpdate slot hmarketUpdate
    refine ⟨heq, ?_⟩
    rw [← hwritten, List.length_append]
    exact hlt.trans_le (Nat.le_add_right ..)
  · have hlt := (h.marketUpdate_at hstage rfl).2
    show outbox.queue.store[slot]? = outbox.written[s.publisher.snapshotMdUpdates.length]?
    rw [hslot slot hstage, h.copying slot hstage, ← hwritten, List.getElem?_append_left hlt]

/-- **A call of the matching engine** keeps the invariant, if it does not overwrite the slot that is still to
be copied. -/
theorem InStep.matchingEngine (h : s.InStep numElems) (hroom : s.unread < numElems)
    (huntouched : s.Untouched .matchingEngine) :
    Safe (fun _ => False) (InStep numElems) (s.step .matchingEngine) := by
  have hnext := h.carries.nextWriteIndex_lt hroom
  refine (Outbox.safe_produce hnext).bind fun outbox hproduced => h.produced hroom hproduced ?_
  intro slot hstage
  cases hproduced with
  | publish | idle => rfl
  | store x toWrite hstored htoWrite =>
    by_cases hslot : s.outbox.queue.nextWriteIndex = slot
    · subst hslot
      rw [List.getElem?_set_self hnext, huntouched hstored x (by rw [htoWrite]; rfl) hstage]
    · rw [List.getElem?_set_ne hslot]

/-- **A call that overwrites the slot.** The queue is full then: the slot is the one behind the unread
updates, and also the one before them.

**Proof sketch.** A step of the matching engine that changes the slot stores its next update there. The
slot that it stores to is the number of updates written, modulo the capacity, and the slot of the
publisher is the number of those it has copied. These are equal only if a whole round lies between them
(`slot_eq_iff`), so the queue was full. -/
theorem InStep.overwritten (h : s.InStep numElems) (hnumElems : 0 < numElems)
    (hroom : s.unread ≤ numElems - 1) (htouched : ¬ s.Untouched .matchingEngine) :
    Safe (fun _ => False) (Overwritten numElems) (s.step .matchingEngine) := by
  unfold Untouched at htouched
  push Not at htouched
  obtain ⟨hstored, x, hx, hstage, hne⟩ := htouched
  have hnext := h.carries.nextWriteIndex_lt (by unfold unread at hroom; omega)
  obtain ⟨hslot, hlt⟩ := h.marketUpdate_at hstage rfl
  have hcopying := h.copying _ hstage
  rw [List.getElem?_eq_getElem hlt] at hcopying
  rw [hcopying] at hne
  refine (Outbox.safe_produce hnext).bind fun outbox hproduced => ?_
  cases hproduced with
  | publish y hy => cases hstored.symm.trans hy
  | idle _ hnil =>
    rw [hnil] at hx
    cases hx
  | store y toWrite _ hcons =>
    rw [hcons] at hx
    obtain rfl := Option.some.inj hx
    refine ⟨_, s.outbox.written[s.publisher.snapshotMdUpdates.length], y, hstage,
      List.getElem?_set_self hnext, fun heq => hne (congrArg some heq), ?_, rfl, ?_⟩
    · show _ ∈ s.publisher.incremental
      rw [h.incremental_at hstage, h.nextIncSeqNum, Stage.sent, numberedFrom_take_succ hlt]
      exact List.mem_append_right _ (List.mem_singleton_self _)
    · -- the two slots are a whole round apart
      obtain ⟨k, hk⟩ := Nat.exists_eq_add_of_lt hlt
      have hreleased : s.publisher.released = s.publisher.snapshotMdUpdates.length + 1 := by
        rw [MarketDataPublisher.released, hstage]
        rfl
      rw [unread, hreleased, hk] at hroom
      have hround : ¬ k + 1 < numElems := by
        intro hlt'
        have heq := h.carries.counted.nextWriteIndex
        rw [h.carries.capacity, hslot, hk, Nat.add_assoc] at heq
        cases (slot_eq_iff hnumElems hlt').mp heq
      show s.outbox.written.length = s.publisher.released + (numElems - 1)
      rw [hreleased, hk]
      omega

/-- The publisher then queues another update than the one it has sent. -/
lemma Overwritten.publisher (h : s.Overwritten numElems) :
    ∃ s', s.step .publisher = .ok s' ∧ ¬ s'.SameFeed := by
  obtain ⟨slot, x, y, hstage, hy, hne, hmem, -, -⟩ := h
  refine ⟨{ outbox := s.outbox, publisher := { s.publisher with
    stage := .reading
    snapshotMdUpdates := s.publisher.snapshotMdUpdates ++
      [{ seqNum := s.publisher.nextIncSeqNum, meMarketUpdate := y }]
    nextIncSeqNum := s.publisher.nextIncSeqNum + 1 } }, ?_, fun hsame => ?_⟩
  · show s.publisher.run s.outbox.queue >>= _ = _
    simp only [MarketDataPublisher.run, hstage, LFQueue.read_eq_ok hy]
    rfl
  · exact hne (hsame _ hmem _ (List.mem_append_right _ (List.mem_singleton_self _)) rfl)

/-- The matching engine can only go on if another element is unread. -/
lemma Overwritten.matchingEngine (h : s.Overwritten numElems) :
    ∃ s', s.step .matchingEngine = .ok s' ∧ ¬ s'.unread ≤ numElems - 1 := by
  obtain ⟨slot, x, y, -, -, -, -, hstored, hlength⟩ := h
  refine ⟨{ s with outbox := { s.outbox with
    queue := s.outbox.queue.updateWriteIndex, stored := none, written := s.outbox.written ++ [y] } }, ?_, ?_⟩
  · show s.outbox.produce >>= _ = _
    simp only [Outbox.produce, hstored]
    rfl
  · show ¬ (s.outbox.written ++ [y]).length - s.publisher.released ≤ numElems - 1
    rw [List.length_append, List.length_singleton, hlength]
    omega

/-- **A slot that was overwritten** is copied. -/
lemma Overwritten.not_always (h : s.Overwritten numElems) {turns : List UpdateThread}
    (hroom : Always step (fun s => s.unread ≤ numElems - 1) s turns) :
    ¬ Always step SameFeed s (turns ++ [.publisher]) := by
  intro hsame
  obtain ⟨s', hs', hnot⟩ := h.publisher
  cases turns with
  | nil => exact hnot (hsame.2 s' hs')
  | cons turn turns =>
    cases turn with
    | publisher => exact hnot (hsame.2 s' hs').start
    | matchingEngine =>
      obtain ⟨t, ht, hfull⟩ := h.matchingEngine
      exact hfull (hroom.2 t ht).start

/-! ## Runs -/

/-- A call in a state that keeps the invariant. -/
lemma InStep.step (h : s.InStep numElems) (hnumElems : 0 < numElems) (hroom : s.unread ≤ numElems - 1)
    {turn : UpdateThread} (huntouched : s.Untouched turn) :
    Safe (fun _ => False) (InStep numElems) (s.step turn) := by
  cases turn with
  | publisher => exact h.publisher
  | matchingEngine => exact h.matchingEngine (by omega) huntouched

/-- The theorem below, for a run that goes on from a state with the invariant. -/
lemma InStep.always_sameFeed_iff (h : s.InStep numElems) (hnumElems : 0 < numElems) {turns : List UpdateThread}
    (hroom : Always UpdatePath.step (fun s => s.unread ≤ numElems - 1) s turns) :
    Always UpdatePath.step SameFeed s (turns ++ [.publisher]) ↔ Meets UpdatePath.step Untouched s turns := by
  induction turns generalizing s with
  | nil =>
    refine iff_of_true ⟨h.sameFeed, fun s' hs' => ?_⟩ trivial
    exact (h.publisher.of_eq_ok hs').sameFeed
  | cons turn turns ih =>
    have hnext := fun huntouched : s.Untouched turn => h.step hnumElems hroom.1 huntouched
    constructor
    · intro hsame
      have huntouched : s.Untouched turn := by
        by_contra htouched
        cases turn with
        | publisher => exact htouched trivial
        | matchingEngine =>
          obtain ⟨s', hs', hover⟩ := (h.overwritten hnumElems hroom.1 htouched).exists_ok
          exact hover.not_always (hroom.2 s' hs') (hsame.2 s' hs')
      refine ⟨huntouched, fun s' hs' => ?_⟩
      exact (ih ((hnext huntouched).of_eq_ok hs') (hroom.2 s' hs')).mp (hsame.2 s' hs')
    · rintro ⟨huntouched, hrest⟩
      refine ⟨h.sameFeed, fun s' hs' => ?_⟩
      exact (ih ((hnext huntouched).of_eq_ok hs') (hroom.2 s' hs')).mpr (hrest s' hs')

/-- **The interleavings in which the two channels agree.** Take runs that never have more than
`numElems - 1` unread elements. If the slot that is still to be copied is never overwritten with another
update, both channels carry the same update under each number throughout the run; otherwise they differ, at
the latest after one more call of the publisher. -/
theorem sameFeed_iff (hnumElems : 0 < numElems) (updates : List MEMarketUpdate) (turns : List UpdateThread)
    (hroom : Always step (fun s => s.unread ≤ numElems - 1) (start numElems updates) turns) :
    (Meets step Untouched (start numElems updates) turns →
        Always step SameFeed (start numElems updates) turns) ∧
      (Always step SameFeed (start numElems updates) (turns ++ [.publisher]) ↔
        Meets step Untouched (start numElems updates) turns) := by
  have hiff := (inStep_start numElems updates).always_sameFeed_iff hnumElems hroom
  exact ⟨fun huntouched => (hiff.mpr huntouched).of_append, hiff⟩

/-- A BUY order for the price `price`. -/
def sampleUpdate (price : ℤ) : MEMarketUpdate :=
  { type := .add, orderId := 1, tickerId := 0, side := .buy, price, qty := 1, priority := 1 }

/-- The matching engine waits until the first update is copied. -/
theorem sameFeed_sample : Always step SameFeed (start 2 [sampleUpdate 1, sampleUpdate 2, sampleUpdate 3])
    ([.matchingEngine, .matchingEngine, .publisher, .publisher, .publisher, .publisher, .matchingEngine,
      .matchingEngine, .publisher, .matchingEngine] ++ [.publisher]) :=
  (sameFeed_iff Nat.two_pos _ _ (by decide)).2.mpr (by decide)

/-- **The matching engine overwrites the slot** of the first update before it is copied. -/
theorem not_sameFeed_overwritten :
    let turns : List UpdateThread := [.matchingEngine, .matchingEngine, .publisher, .publisher, .publisher,
      .publisher, .matchingEngine, .matchingEngine, .matchingEngine, .publisher]
    let path := start 2 [sampleUpdate 1, sampleUpdate 2, sampleUpdate 3]
    Always step (fun s => s.unread ≤ 2 - 1) path turns ∧ ¬ Always step SameFeed path turns := by
  decide

end UpdatePath

end Exchange
