import HftSystem.Exchange.BookInvariant
import HftSystem.Exchange.Reporting
import HftSystem.Exchange.SnapshotSynthesizer

set_option relaxedAutoImplicit false
set_option autoImplicit false

/-!
# The life cycle of published orders

The updates of a book should announce the orders that rest in it. `add` publishes the ADD of a
remainder twice, with a `removeOrder` in between, so the first order that would rest breaks the
stream: its id is added a second time. The order that the undeclared name `exchange_order`
stands for is taken to be the one that was just placed.

## Main definitions

* `Exchange.LifeCycle` — the stream is well formed, announces the resting orders, and can be
  followed by the snapshot synthesizer.

## Main results

* `Exchange.add_first` — what `add` does on a book that never held an order.
* `Exchange.lifeCycle_iff` — the runs in which the life cycle is intact.
-/

namespace Exchange

open Common LimitOrderBook PriceTime Fallible MEOrderBook

/-- **The published life cycle.**

* The updates are well formed, and the live orders are the resting ones.
* The snapshot synthesizer can follow the updates, numbered as they are published, up to the
  room in its tables. -/
structure LifeCycle (b : MEOrderBook) : Prop where
  announced : ∃ f, Feed.announceAll {} b.published = some f ∧ ∀ i side price qty,
    (∃ o, (i, o) ∈ f.live.entries ∧ o.side = side ∧ o.price = price ∧ o.qty = qty) ↔
      ∃ p, b.orderPool.InUse p ∧ (b.node p).order.marketOrderId = i ∧
        (b.node p).order.side = side ∧ (b.node p).order.price = price ∧ (b.node p).order.qty = qty
  snapshot : Safe (fun f => NoFreshBlock f ∨ f = .outOfRange) (fun _ => True)
    ((numberedFrom 1 b.published).foldlM SnapshotSynthesizer.addToSnapshot .new)

/-! ## The first order of a book -/

/-- The book that holds one order, in the first blocks of its pools. -/
def lone (k : ℕ × ℕ) (record : MEOrder) : LimitOrderBook MEOrder (ℕ × ℕ) where
  ordersAtPricePool :=
    { size := meMaxPriceLevels
      store := Function.update (MemPool.new meMaxPriceLevels).store 0
        { object := { side := record.side, price := record.price, firstOrder := some 0,
                      prevEntry := some 0, nextEntry := some 0 }
          isFree := false }
      nextFreeIndex := 1 }
  bidsByPrice := if record.side = .buy then some 0 else none
  asksByPrice := if record.side = .buy then none else some 0
  priceOrdersAtPrice := Function.update (fun _ => none) (priceToIndex record.price) (some 0)
  orderPool :=
    { size := meMaxOrderIds
      store := Function.update (MemPool.new meMaxOrderIds).store 0
        { object := { order := record, prevOrder := some 0, nextOrder := some 0 }, isFree := false }
      nextFreeIndex := 1 }
  orderIndex := Function.update (fun _ => none) k (some 0)

/-- The order pool of a new book after its first allocation. -/
def firstOrderPool (record : MEOrder) : MemPool (OrderNode MEOrder) where
  size := meMaxOrderIds
  store := Function.update (MemPool.new meMaxOrderIds).store 0
    { object := { order := record }, isFree := false }
  nextFreeIndex := 1

/-- The first `addOrder` of a book. -/
lemma addOrder_first (record : MEOrder) :
    LimitOrderBook.addOrder
        { MEOrderBook.new.toLimitOrderBook with orderPool := firstOrderPool record } 0 =
      match clientOrderSlot record.clientId record.clientOrderId with
      | some k => .ok (lone k record)
      | none => .error .outOfRange := by
  have hlevel : ∀ l : OrdersAtPrice, (MemPool.new meMaxPriceLevels).allocate l = _ :=
    fun l => MemPool.allocate_new (by decide) l
  simp only [addOrder, enqueueOrder, getOrdersAtPrice, MEOrderBook.new, openLevel, firstOrderPool,
    node, MemPool.get, setPrevOrder, setNextOrder, modifyNode, MemPool.modify, BookOrder.price,
    BookOrder.side, BookOrder.slot, hlevel, LimitOrderBook.addOrdersAtPrice, bestOrdersByPrice,
    level, setOrdersAtPrice, setBest, setNextEntry, setPrevEntry, modifyLevel, ok_bind, ite_self,
    Function.update_self, Function.update_idem]
  cases clientOrderSlot record.clientId record.clientOrderId with
  | none => rfl
  | some k => simp [setIndex, lone]

/-- The only order of a book can be removed. -/
lemma removeOrder_lone {k : ℕ × ℕ} {record : MEOrder}
    (hk : clientOrderSlot record.clientId record.clientOrderId = some k) :
    ∃ book, (lone k record).removeOrder 0 = .ok book := by
  have hsize : 0 < meMaxPriceLevels ∧ 0 < meMaxOrderIds := by decide
  simp [lone, removeOrder, dequeueOrder, removeOrdersAtPrice, detachEntry, MemPool.deallocate,
    ASSERT, node, level, MemPool.get, BookOrder.slot, BookOrder.price, getOrdersAtPrice, hk, setIndex,
    hsize]

section First

variable {b : MEOrderBook} (hb : b.toLimitOrderBook = MEOrderBook.new.toLimitOrderBook)

include hb

/-- The matching loop finds nothing in a book without orders. -/
lemma checkForMatch_first (clientId clientOrderId tickerId : ℕ) (side : Side) (price : ℤ)
    (qty newMarketOrderId : ℕ) :
    b.checkForMatch clientId clientOrderId tickerId side price qty newMarketOrderId =
      .ok (b, qty) := by
  have hbest : b.bestOrdersByPrice side.opposite = none := by
    rw [hb]
    simp [bestOrdersByPrice, MEOrderBook.new]
  unfold checkForMatch matchLoop
  split
  · simp only [hbest, ite_self]
  · rfl

/-- The first order to rest in a book. -/
lemma addRemainder_first (clientId clientOrderId tickerId newMarketOrderId : ℕ) (side : Side)
    (price : ℤ) (leavesQty : ℕ) :
    b.addRemainder clientId clientOrderId tickerId newMarketOrderId side price leavesQty =
      match clientOrderSlot clientId clientOrderId with
      | some k => .ok (
        { b with
          toLimitOrderBook := lone k
            { tickerId, clientId, clientOrderId, marketOrderId := newMarketOrderId, side, price,
              qty := leavesQty, priority := 1 } }, 1, 0)
      | none => .error .outOfRange := by
  obtain ⟨book, engine, response, update, next⟩ := b
  obtain rfl : book = MEOrderBook.new.toLimitOrderBook := hb
  have hpriority : getNextPriority
      ⟨MEOrderBook.new.toLimitOrderBook, engine, response, update, next⟩ price = .ok 1 := rfl
  have hpool : ∀ record : MEOrder, MEOrderBook.new.orderPool.allocate { order := record } =
      .ok (0, firstOrderPool record) := fun record => MemPool.allocate_new (by decide) _
  simp only [addRemainder, hpriority, ok_bind, hpool, onBook, addOrder_first]
  cases clientOrderSlot clientId clientOrderId with
  | none => rfl
  | some k => rfl

/-- **`add` on a book that never held an order.** A quantity that is not zero is announced
twice, unless the table of orders has no entry for it. -/
lemma add_first (clientId clientOrderId tickerId : ℕ) (side : Side) (price : ℤ) (qty : ℕ) :
    Safe (fun _ => clientOrderSlot clientId clientOrderId = none ∧ qty ≠ 0)
      (fun b' => if qty = 0 then
          b'.toLimitOrderBook = b.toLimitOrderBook ∧ b'.published = b.published ∧
            b'.nextMarketOrderId = b.nextMarketOrderId + 1
        else clientOrderSlot clientId clientOrderId ≠ none ∧
          ∃ u : MEMarketUpdate, u.type = .add ∧ u.orderId = b.nextMarketOrderId ∧
            b'.published = b.published ++ [u, u])
      (b.add id clientId clientOrderId tickerId side price qty) := by
  unfold MEOrderBook.add
  have hb₁ : (b.accept clientId clientOrderId tickerId side price qty).1.toLimitOrderBook =
      MEOrderBook.new.toLimitOrderBook := hb
  have hmatch := checkForMatch_first hb₁ clientId clientOrderId tickerId side price qty
  have hrest := addRemainder_first hb₁ clientId clientOrderId tickerId
    (b.accept clientId clientOrderId tickerId side price qty).2 side price qty
  simp only [hmatch, ok_bind, hrest]
  by_cases hqty : qty = 0
  · rw [if_pos hqty]
    exact (if_pos hqty).mpr ⟨rfl, rfl, rfl⟩
  rw [if_neg hqty]
  cases hslot : clientOrderSlot clientId clientOrderId with
  | none => exact ⟨rfl, hqty⟩
  | some k =>
    simp only [ok_bind, id]
    set record : MEOrder :=
      { tickerId, clientId, clientOrderId, marketOrderId := b.nextMarketOrderId, side, price, qty,
        priority := 1 }
    obtain ⟨book, hbook⟩ : ∃ book, (lone k record).removeOrder 0 = .ok book := removeOrder_lone hslot
    rw [onBook_eq hbook]
    simp only [ok_bind, hqty, if_false]
    refine ⟨by simp, { type := .add, orderId := b.nextMarketOrderId, tickerId, side, price, qty,
                       priority := 1 }, rfl, rfl, ?_⟩
    simp [published, respond, sendMarketUpdate, publish, accept]

end First

/-! ## Runs -/

/-- A book that never held an order and published nothing. -/
structure Idle (b : MEOrderBook) : Prop where
  book : b.toLimitOrderBook = MEOrderBook.new.toLimitOrderBook
  published : b.published = []

/-- The life cycle of a book that published nothing is intact. -/
lemma Idle.lifeCycle {b : MEOrderBook} (h : Idle b) : LifeCycle b where
  announced := by
    refine ⟨{}, by rw [h.published]; rfl, fun i side price qty => ?_⟩
    constructor
    · rintro ⟨o, ho, -⟩
      cases ho
    · rintro ⟨p, hp, -⟩
      rw [h.book] at hp
      exact absurd hp (MemPool.not_inUse_new _ _)
  snapshot := by
    rw [h.published]
    trivial

/-- An id that is added twice breaks the life cycle. -/
lemma not_lifeCycle_of_added_twice {b : MEOrderBook} {u : MEMarketUpdate} (hu : u.type = .add)
    (h : b.published = [u, u]) : ¬ LifeCycle b := by
  rintro ⟨⟨f, hf, -⟩, -⟩
  rw [h] at hf
  simp [Feed.announceAll, Feed.announce, hu] at hf

/-- A cancel request of a book that never held an order is rejected. -/
lemma Idle.cancel {b b' : MEOrderBook} (h : Idle b) {clientId orderId tickerId : ℕ}
    (hb' : b.cancel clientId orderId tickerId = .ok b') : Idle b' := by
  obtain ⟨p, hp, hb'⟩ := bind_eq_ok.mp hb'
  have hnone : p = none := by
    have hindex : b.orderIndex (clientId, orderId) = none := by
      rw [h.book]
      rfl
    unfold findOrder at hp
    split_ifs at hp
    · exact (Except.ok.inj hp).symm.trans hindex
    · exact (Except.ok.inj hp).symm
  subst hnone
  cases hb'
  exact ⟨h.book, h.published⟩

/-- The NEW requests after which nothing rests: for no quantity, or for ids out of range. -/
def NothingRests (r : MEClientRequest) : Prop := r.type = .new → r.qty = 0 ∨ ¬ InRange r

/-- A request after which nothing rests leaves the book idle. -/
lemma Idle.step {b b' : MEOrderBook} (h : Idle b) {r : MEClientRequest} (hr : NothingRests r)
    (hb' : processClientRequest (MEOrderBook.add id) b r = .ok b') : Idle b' := by
  unfold processClientRequest at hb'
  cases htype : r.type with
  | invalid => simp [htype] at hb'
  | cancel =>
    simp only [htype] at hb'
    exact h.cancel hb'
  | new =>
    simp only [htype] at hb'
    have hadd := add_first h.book r.clientId r.orderId r.tickerId r.side r.price r.qty
    by_cases hqty : r.qty = 0
    · obtain ⟨hbook, hpublished, -⟩ := (if_pos hqty).mp (hadd.of_eq_ok hb')
      exact ⟨hbook.trans h.book, hpublished.trans h.published⟩
    · -- a request out of range does not complete
      have hrange := (hr htype).resolve_left hqty
      exact absurd (clientOrderSlot_eq_none.mpr hrange) ((if_neg hqty).mp (hadd.of_eq_ok hb')).1

/-- A request after which an order would rest breaks the life cycle. -/
lemma Idle.breaks {b : MEOrderBook} (h : Idle b) {r : MEClientRequest} (hr : ¬ NothingRests r) :
    ∃ b', processClientRequest (MEOrderBook.add id) b r = .ok b' ∧ ¬ LifeCycle b' := by
  obtain ⟨htype, hr⟩ := Classical.not_imp.mp hr
  obtain ⟨hqty, hrange⟩ := not_or.mp hr
  have hadd := add_first h.book r.clientId r.orderId r.tickerId r.side r.price r.qty
  obtain ⟨b', hb', hpublished⟩ := hadd.exists_ok_of_forall
    fun _ hf => hrange fun hin => clientOrderSlot_eq_none.mp hf.1 hin
  rw [if_neg hqty] at hpublished
  obtain ⟨-, u, hu, -, hpublished⟩ := hpublished
  refine ⟨b', by simp only [processClientRequest, htype]; exact hb', ?_⟩
  exact not_lifeCycle_of_added_twice hu (by rw [hpublished, h.published]; rfl)

/-- A new book is idle. -/
lemma idle_new : Idle MEOrderBook.new := ⟨rfl, rfl⟩

/-- **The life cycle is intact exactly in the runs in which nothing ever rests.** -/
theorem lifeCycle_iff (requests : List MEClientRequest) :
    Always (processClientRequest (MEOrderBook.add id)) LifeCycle MEOrderBook.new requests ↔
      Meets (processClientRequest (MEOrderBook.add id)) (fun _ r => NothingRests r)
        MEOrderBook.new requests :=
  always_iff_meets_of_completes (fun _ _ _ h hr hb' => Idle.step h hr hb') (fun _ h => h.lifeCycle)
    (fun _ _ h hr => h.breaks hr) idle_new

/-- The first order that rests is announced twice. -/
theorem first_order_breaks_lifeCycle :
    ∃ b, processClientRequest (MEOrderBook.add id) MEOrderBook.new
        { type := .new, clientId := 1, tickerId := 0, orderId := 1, side := .buy, price := 10,
          qty := 5 } = .ok b ∧ ¬ LifeCycle b :=
  idle_new.breaks fun h => absurd (h rfl) (by unfold InRange; decide)

end Exchange
