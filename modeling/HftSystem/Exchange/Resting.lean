import HftSystem.Exchange.Matching

set_option relaxedAutoImplicit false
set_option autoImplicit false

/-!
# Resting and canceling

What `add` does with a remainder and what `cancel` does, as edits of the view.

## Main definitions

* `Exchange.NextPriority` — the priority that a new order of a price gets.
* `Exchange.CancelStep` — the two outcomes of a cancel request.
* `Exchange.ExchangeStep` — the steps that a book takes.

## Main results

* `Exchange.safe_addRemainder_queued` — what becomes of the remainder, for any request.
* `Exchange.safe_addRemainder` — the remainder becomes the last order of its level.
* `Exchange.safe_cancel` — a cancel request is rejected or takes the order out.
-/

namespace Exchange

open Common LimitOrderBook PriceTime Fallible MEOrderBook

/-- A well-formed book stays so when only messages and counters change. -/
lemma WellFormed.of_book {b b' : MEOrderBook} {v : View MEOrder} (h : WellFormed b v)
    (hb : b'.toLimitOrderBook = b.toLimitOrderBook) : WellFormed b' v :=
  ⟨hb ▸ h.repr, h.valid, h.positive⟩

/-- A new book is well formed. -/
lemma wellFormed_new : WellFormed MEOrderBook.new {} := by
  refine ⟨⟨⟨fun s hs => ?_, ⟨?_, ?_, ?_, ?_, ?_⟩⟩, ⟨?_, ?_, ?_⟩⟩, View.valid_empty, ?_⟩
  · rcases hs with rfl | rfl <;> exact ⟨rfl, trivial⟩
  all_goals simp [View.levels, ptrs, MEOrderBook.new]

/-! ## The remainder of an order -/

/-- The priority of a new order at a price: one more than that of the last order in the level of
its bucket. -/
def NextPriority (v : View MEOrder) (price : ℤ) (priority : ℕ) : Prop :=
  (∀ l ∈ v.levels, priceToIndex l.price ≠ priceToIndex price) ∧ priority = 1 ∨
    ∃ l ∈ v.levels, priceToIndex l.price = priceToIndex price ∧
      ∃ x, l.queue.getLast? = some x ∧ priority = x.2.priority + 1

/-- **`getNextPriority`** reads the last order of the level. -/
lemma getNextPriority_spec {b : MEOrderBook} {v : View MEOrder} (h : WellFormed b v) (price : ℤ) :
    ∃ priority, b.getNextPriority price = .ok priority ∧ NextPriority v price priority := by
  unfold getNextPriority
  cases hbucket : b.getOrdersAtPrice price with
  | none =>
    refine ⟨1, rfl, .inl ⟨fun l hl he => ?_, rfl⟩⟩
    rw [h.repr.shape.heap.bucket_of_mem hl _ he] at hbucket
    cases hbucket
  | some a =>
    obtain ⟨l, hl, rfl, hprice⟩ := (h.repr.shape.heap.bucket _ _).mp hbucket
    have hat := h.repr.shape.heap.levelAt l hl
    obtain ⟨x, q, hq⟩ := List.exists_cons_of_ne_nil (h.valid.nonempty l hl)
    obtain ⟨z, hz⟩ : ∃ z, l.queue.getLast? = some z :=
      ⟨_, List.getLast?_eq_some_getLast (h.valid.nonempty l hl)⟩
    have hptrs : l.ptrs = x.1 :: q.map Prod.fst := by simp [Level.ptrs, hq]
    have hlast : l.ptrs.getLast? = some z.1 := by simp [Level.ptrs, hz]
    have hring := hat.ring
    rw [hptrs] at hring hlast
    have hprev := (hring.prev_head hlast).2
    have hfirst : (b.level l.addr).firstOrder = some x.1 := by rw [hat.first, hptrs]; rfl
    have hrecord := hat.record z (List.mem_of_getLast? hz)
    refine ⟨z.2.priority + 1, ?_, .inr ⟨l, hl, hprice, z, hz, rfl⟩⟩
    simp only [hfirst, deref_some, ok_bind, hprev, hrecord]
    rfl

/-- **The remainder is queued**, whatever its side and whatever level the bucket of its price holds.
It fails as the pools do, or for ids without an entry.

**Proof sketch.** The priority is the next one of its level (`getNextPriority_spec`). The order is then
constructed in a fresh block (`safe_holdOrder`) and added to the book (`safe_addOrder_queued`), which
fails if its ids have no entry. -/
theorem safe_addRemainder_queued {allow : Fault → Prop} {b : MEOrderBook} {v : View MEOrder}
    (h : WellFormed b v) (clientId clientOrderId tickerId newMarketOrderId : ℕ) (side : Side)
    (price : ℤ) (leavesQty : ℕ)
    (horders : ∀ n, Safe allow (fun r => MemPool.Allocated b.orderPool r.2 n r.1)
      (b.orderPool.allocate n))
    (hlevels : b.getOrdersAtPrice price = none → ∀ l,
      Safe allow (fun r => MemPool.Allocated b.ordersAtPricePool r.2 l r.1)
        (b.ordersAtPricePool.allocate l)) :
    Safe (fun f => allow f ∨ f = .outOfRange ∧ clientOrderSlot clientId clientOrderId = none)
      (fun r => clientOrderSlot clientId clientOrderId ≠ none ∧
        ∃ v', Represents r.1.toLimitOrderBook v' ∧ NextPriority v price r.2.1 ∧
        Queued v r.2.2 { tickerId, clientId, clientOrderId, marketOrderId := newMarketOrderId, side,
                         price, qty := leavesQty, priority := r.2.1 } v' ∧
        r.1.matchingEngine = b.matchingEngine ∧ r.1.nextMarketOrderId = b.nextMarketOrderId ∧
        r.1.clientResponse = b.clientResponse)
      (b.addRemainder clientId clientOrderId tickerId newMarketOrderId side price leavesQty) := by
  obtain ⟨priority, hpriority, hnext⟩ := getNextPriority_spec h price
  unfold addRemainder
  simp only [hpriority, ok_bind]
  set record : MEOrder :=
    { tickerId, clientId, clientOrderId, marketOrderId := newMarketOrderId, side, price,
      qty := leavesQty, priority } with hrecord
  refine Safe.bind ((safe_holdOrder h.repr record (horders _)).mono (fun _ hf => .inl hf)
    fun _ hr => hr) ?_
  rintro ⟨p, pool⟩ hold
  have hadd := safe_addOrder_queued hold h.valid.nonempty hlevels
  cases hbook : LimitOrderBook.addOrder { b.toLimitOrderBook with orderPool := pool } p with
  | error f =>
    rw [hbook] at hadd
    simp only [onBook, hbook]
    exact hadd
  | ok book =>
    rw [hbook] at hadd
    obtain ⟨k, v', hk, -, hqueued, hrep⟩ := hadd
    simp only [onBook, hbook]
    refine ⟨?_, v', hrep, hnext, hqueued, rfl, rfl, rfl⟩
    rw [show clientOrderSlot clientId clientOrderId = some k from hk]
    exact Option.some_ne_none k

/-- **The remainder is placed**, whatever level the bucket of its price holds. -/
theorem safe_addRemainder_placed {b : MEOrderBook} {v : View MEOrder} (h : WellFormed b v)
    (clientId clientOrderId tickerId newMarketOrderId : ℕ) {side : Side} (hs : side.IsBookSide)
    (price : ℤ) (leavesQty : ℕ) :
    Safe (fun f => NoFreshBlock f ∨ f = .outOfRange ∧ clientOrderSlot clientId clientOrderId = none)
      (fun r => ∃ v', Represents r.1.toLimitOrderBook v' ∧ NextPriority v price r.2.1 ∧
        Placed v r.2.2 { tickerId, clientId, clientOrderId, marketOrderId := newMarketOrderId, side,
                         price, qty := leavesQty, priority := r.2.1 } v' ∧
        r.1.matchingEngine = b.matchingEngine ∧ r.1.nextMarketOrderId = b.nextMarketOrderId ∧
        r.1.clientResponse = b.clientResponse)
      (b.addRemainder clientId clientOrderId tickerId newMarketOrderId side price leavesQty) := by
  refine (safe_addRemainder_queued h clientId clientOrderId tickerId newMarketOrderId side price
    leavesQty (fun n => MemPool.safe_allocate _ n) fun _ l => MemPool.safe_allocate _ l).mono
    (fun _ hf => hf) ?_
  rintro r ⟨-, v', hrep, hnext, hqueued, hrest⟩
  exact ⟨v', hrep, hnext, hqueued.placed hs, hrest⟩

/-- **The remainder rests**: it is inserted by price and time with the next priority of its
price. -/
theorem safe_addRemainder {b : MEOrderBook} {v : View MEOrder} (h : WellFormed b v)
    (clientId clientOrderId tickerId newMarketOrderId : ℕ) {side : Side} (hs : side.IsBookSide)
    (price : ℤ) {leavesQty : ℕ} (hpos : 0 < leavesQty)
    (hfits : ∀ l ∈ v.levels, priceToIndex l.price = priceToIndex price →
      l.price = price ∧ l.side = side) :
    Safe (fun f => NoFreshBlock f ∨ f = .outOfRange ∧ clientOrderSlot clientId clientOrderId = none)
      (fun r => ∃ v', WellFormed r.1 v' ∧ NextPriority v price r.2.1 ∧
        Placed v r.2.2 { tickerId, clientId, clientOrderId, marketOrderId := newMarketOrderId, side,
                         price, qty := leavesQty, priority := r.2.1 } v' ∧
        r.1.matchingEngine = b.matchingEngine ∧ r.1.nextMarketOrderId = b.nextMarketOrderId ∧
        r.1.clientResponse = b.clientResponse)
      (b.addRemainder clientId clientOrderId tickerId newMarketOrderId side price leavesQty) := by
  refine (safe_addRemainder_placed h clientId clientOrderId tickerId newMarketOrderId hs price
    leavesQty).mono (fun _ hf => hf) ?_
  rintro r ⟨v', hrep, hnext, hplaced, hrest⟩
  refine ⟨v', ⟨hrep, (hplaced.contents h.valid hs hfits).1, fun x hx => ?_⟩, hnext, hplaced, hrest⟩
  rcases List.mem_cons.mp (hplaced.orders_perm.mem_iff.mp hx) with rfl | hx
  · exact hpos
  · exact h.positive x hx

/-! ## Canceling -/

/-- The outcomes of a cancel request: it is rejected, or the order of the client is taken out
and announced. -/
inductive CancelStep (b : MEOrderBook) (v : View MEOrder) (clientId orderId tickerId : ℕ) :
    MEOrderBook → View MEOrder → Prop
  | rejected : CancelStep b v clientId orderId tickerId
      (b.respond { type := .cancelRejected, clientId, tickerId, clientOrderId := orderId }) v
  | canceled {b' : MEOrderBook} {s : Side} {l : Level MEOrder} {l₁ l₂ : List (Level MEOrder)}
      {q₁ q₂ : List (Ptr × MEOrder)} {x : Ptr × MEOrder} (hs : s.IsBookSide)
      (hv : v.side s = l₁ ++ l :: l₂) (hq : l.queue = q₁ ++ x :: q₂)
      (hslot : clientOrderSlot x.2.clientId x.2.clientOrderId = some (clientId, orderId))
      (hengine : b'.matchingEngine = b.matchingEngine.push
        [{ type := .canceled, clientId, tickerId, clientOrderId := orderId,
           marketOrderId := x.2.marketOrderId, side := x.2.side, price := x.2.price,
           execQty := Qty.invalid, leavesQty := x.2.qty }]
        [{ type := .cancel, orderId := x.2.marketOrderId, tickerId, side := x.2.side,
           price := x.2.price, qty := 0, priority := x.2.priority }])
      (hnext : b'.nextMarketOrderId = b.nextMarketOrderId) :
      CancelStep b v clientId orderId tickerId b'
        (v.set s (l₁ ++ (l.withQueue (q₁ ++ q₂) ++ l₂)))

/-- Taking an order out leaves orders that were there before. -/
lemma mem_orders_of_remove {v : View MEOrder} {s : Side} {l : Level MEOrder}
    {l₁ l₂ : List (Level MEOrder)} {q₁ q₂ : List (Ptr × MEOrder)} {x y : Ptr × MEOrder}
    (hv : v.side s = l₁ ++ l :: l₂) (hq : l.queue = q₁ ++ x :: q₂)
    (hy : y ∈ orders (v.set s (l₁ ++ (l.withQueue (q₁ ++ q₂) ++ l₂))).levels) :
    y ∈ orders v.levels :=
  (orders_remove hv hq).mem_iff.mpr (List.mem_cons_of_mem _ hy)

/-- A CANCEL that finds no order is rejected. -/
lemma cancel_of_none {b : MEOrderBook} {clientId orderId : ℕ}
    (hfind : b.findOrder clientId orderId = .ok none) (tickerId : ℕ) :
    b.cancel clientId orderId tickerId =
      .ok (b.respond { type := .cancelRejected, clientId, tickerId, clientOrderId := orderId }) := by
  unfold cancel
  rw [hfind]
  rfl

/-- **A CANCEL that finds an order** takes it out and announces it. -/
theorem cancel_of_some {b : MEOrderBook} {v : View MEOrder} (hrepr : Represents b.toLimitOrderBook v)
    (hvalid : v.Valid) {s : Side} {l : Level MEOrder} {l₁ l₂ : List (Level MEOrder)}
    {q₁ q₂ : List (Ptr × MEOrder)} {x : Ptr × MEOrder} (hs : s.IsBookSide)
    (hv : v.side s = l₁ ++ l :: l₂) (hq : l.queue = q₁ ++ x :: q₂) {clientId orderId : ℕ}
    (hslot : clientOrderSlot x.2.clientId x.2.clientOrderId = some (clientId, orderId))
    (hfind : b.findOrder clientId orderId = .ok (some x.1)) (tickerId : ℕ) :
    ∃ b', b.cancel clientId orderId tickerId = .ok b' ∧
      Represents b'.toLimitOrderBook (v.set s (l₁ ++ (l.withQueue (q₁ ++ q₂) ++ l₂))) ∧
      b'.orderIndex = Function.update b.orderIndex (clientId, orderId) none ∧
      b'.matchingEngine = b.matchingEngine.push
        [{ type := .canceled, clientId, tickerId, clientOrderId := orderId,
           marketOrderId := x.2.marketOrderId, side := x.2.side, price := x.2.price,
           execQty := Qty.invalid, leavesQty := x.2.qty }]
        [{ type := .cancel, orderId := x.2.marketOrderId, tickerId, side := x.2.side,
           price := x.2.price, qty := 0, priority := x.2.priority }] ∧
      b'.nextMarketOrderId = b.nextMarketOrderId := by
  have hl : l ∈ v.side s := by simp [hv]
  have hxl : x ∈ l.queue := by simp [hq]
  have hrecord : (b.node x.1).order = x.2 := (hrepr.shape.levelAt hl).record x hxl
  obtain ⟨hside, hprice⟩ := (hvalid.homed s hs l hl).2 x hxl
  obtain ⟨book, k, hbook, hk, hindex, hrep⟩ := removeOrder_spec hrepr hs hv hq
    (fun _ => iff_of_eq (congrArg (· = Side.buy) hside)) (congrArg priceToIndex hprice.symm)
  obtain rfl : k = (clientId, orderId) := Option.some_inj.mp (hk.symm.trans hslot)
  unfold cancel
  simp only [hfind, ok_bind, hrecord]
  rw [onBook_eq hbook]
  refine ⟨_, rfl, hrep, hindex, ?_, rfl⟩
  simp [respond, sendMarketUpdate, MatchingEngine.push]

/-- **`cancel`** rejects the request or takes the order out.

**Proof sketch.** The table of client orders fails for an id that is out of range, leads nowhere, or
leads to an order that rests. The last case is `cancel_of_some`, and taking an order out keeps the view
valid (`View.Valid.remove`). -/
theorem safe_cancel {b : MEOrderBook} {v : View MEOrder} (h : WellFormed b v)
    (clientId orderId tickerId : ℕ) :
    Safe (fun f => f = .outOfRange ∧ ¬ orderId < meMaxOrderIds)
      (fun b' => ∃ v', WellFormed b' v' ∧ CancelStep b v clientId orderId tickerId b' v')
      (b.cancel clientId orderId tickerId) := by
  cases hfind : b.findOrder clientId orderId with
  | error f =>
    unfold cancel
    rw [hfind]
    unfold findOrder at hfind
    split_ifs at hfind with hclient horder
    cases hfind
    exact ⟨rfl, horder⟩
  | ok found =>
    cases found with
    | none =>
      rw [cancel_of_none hfind]
      exact ⟨v, h.of_book rfl, .rejected⟩
    | some p =>
      have hindex : b.orderIndex (clientId, orderId) = some p := by
        unfold findOrder at hfind
        split_ifs at hfind
        · exact Except.ok.inj hfind
        · cases hfind
      obtain ⟨x, hx, rfl, hslot⟩ := h.repr.ledger.index _ _ hindex
      obtain ⟨l, hl, hxl⟩ := mem_orders.mp hx
      obtain ⟨s, hs, hl⟩ := View.mem_levels.mp hl
      obtain ⟨l₁, l₂, hv⟩ := List.append_of_mem hl
      obtain ⟨q₁, q₂, hq⟩ := List.append_of_mem hxl
      obtain ⟨b', hb', hrep, -, hengine, hnext⟩ :=
        cancel_of_some h.repr h.valid hs hv hq hslot hfind tickerId
      have hvalid := h.valid.remove (q := q₁ ++ q₂) hs hv fun y hy => by
        rw [hq]
        simp only [List.mem_append, List.mem_cons] at hy ⊢
        tauto
      rw [hb']
      exact ⟨_, ⟨hrep, hvalid, fun y hy => h.positive y (mem_orders_of_remove hv hq hy)⟩,
        .canceled hs hv hq hslot hengine hnext⟩

/-! ## The steps of the book -/

/-- The steps of the exchange's book: a run of the matching loop, a cancel request, and lines 95
to 105 of `add`. A NEW request is a run of the matching loop and a step that lets its remainder
rest. -/
inductive ExchangeStep
  | checkForMatch (clientId clientOrderId tickerId : ℕ) (side : Side) (price : ℤ)
      (qty newMarketOrderId : ℕ)
  | cancel (clientId orderId tickerId : ℕ)
  | rest (clientId clientOrderId tickerId newMarketOrderId : ℕ) (side : Side) (price : ℤ)
      (leavesQty : ℕ)

namespace ExchangeStep

/-- Take a step. -/
def run (b : MEOrderBook) : ExchangeStep → Except Fault MEOrderBook
  | .checkForMatch clientId clientOrderId tickerId side price qty newMarketOrderId => do
    let (b, _) ←
      b.checkForMatch clientId clientOrderId tickerId side price qty newMarketOrderId
    return b
  | .cancel clientId orderId tickerId => b.cancel clientId orderId tickerId
  | .rest clientId clientOrderId tickerId newMarketOrderId side price leavesQty =>
    b.rest clientId clientOrderId tickerId newMarketOrderId side price leavesQty

/-- The step names ids that the table of orders has no entry for. -/
def OutOfTable : ExchangeStep → Prop
  | .checkForMatch .. => False
  | .cancel _ orderId _ => ¬ orderId < meMaxOrderIds
  | .rest clientId clientOrderId _ _ _ _ _ => clientOrderSlot clientId clientOrderId = none

end ExchangeStep

end Exchange
