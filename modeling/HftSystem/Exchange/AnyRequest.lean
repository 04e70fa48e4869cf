import HftSystem.Exchange.BookInvariant

set_option relaxedAutoImplicit false
set_option autoImplicit false

/-!
# What the book does with any request

The fields of a request come from the network. The book uses the client id and the order id as
indices, the price to find a bucket, and the side to compare prices; nothing looks at them before.
On a well-formed book the outcome depends on a few conditions only, which are exact.

`add` is taken in two readings: through line 102, where the remainder rests, and the whole body, in
which the undeclared `exchange_order` stands for the order that was just placed.

## Main definitions

* `Exchange.Processed` — the request is answered and the lists stay sorted.
* `Exchange.RoomFor` — what the remainder of a request needs.
* `Exchange.KeepsSorted` — the side byte of a request does no harm to the asks.

## Main results

* `Exchange.processed_iff_of_rests`, `Exchange.processed_iff` — the requests that the book
  processes, for the two readings.
-/

namespace Exchange

open Common LimitOrderBook PriceTime Fallible MEOrderBook

/-- **The request is answered**: the first new response goes to its client and names its order. -/
def Answered (b b' : MEOrderBook) (r : MEClientRequest) : Prop :=
  ∃ response rest, response.clientId = r.clientId ∧ response.clientOrderId = r.orderId ∧
    b'.sent = b.sent ++ response :: rest

/-- No resting order has the ids of the request. -/
def NoSuchOrder (b : MEOrderBook) (r : MEClientRequest) : Prop :=
  ∀ p, b.orderPool.InUse p →
    ¬ ((b.node p).order.clientId = r.clientId ∧ (b.node p).order.clientOrderId = r.orderId)

/-- **The request is processed.**

* It is answered, and the lists of price levels are sorted afterwards.
* A CANCEL of an order that does not exist is answered by one CANCEL_REJECTED, and by nothing
  else. -/
structure Processed (b b' : MEOrderBook) (r : MEClientRequest) : Prop where
  answered : Answered b b' r
  sorted : SortedLists b'.toLimitOrderBook
  rejected : r.type = .cancel → NoSuchOrder b r → b'.sent = b.sent ++
    [{ type := .cancelRejected, clientId := r.clientId, tickerId := r.tickerId,
       clientOrderId := r.orderId }]

/-- **There is room for the remainder of a request**: its ids have an entry in the table of orders,
and the pools supply a block for the order, and for a level if one has to be opened. -/
structure RoomFor (b : MEOrderBook) (r : MEClientRequest) : Prop where
  inRange : InRange r
  order : b.orderPool.HasFresh
  level : b.getOrdersAtPrice r.price = none → b.ordersAtPricePool.HasFresh

/-- **The remainder of a request keeps the lists sorted**: its side is one of the two, or it queues
in a level that is there, or it is worse than every ask. -/
def KeepsSorted (b : MEOrderBook) (r : MEClientRequest) : Prop :=
  r.side.IsBookSide ∨ b.getOrdersAtPrice r.price ≠ none ∨
    ∀ a, b.ordersAtPricePool.InUse a → (b.level a).side = .sell → (b.level a).price < r.price

/-- What a book asks of a request. A CANCEL with a client id in range must have an order id in
range; `C` is asked of a NEW request if matching leaves a remainder of it, in the book behind the
matching. -/
def Admits (C : MEOrderBook → MEClientRequest → Prop) (b : MEOrderBook) (r : MEClientRequest) : Prop :=
  match r.type with
  | .invalid => False
  | .new => Safe (fun _ => True) (fun x => x.2 = 0 ∨ C x.1 r) (b.matchRequest r)
  | .cancel => r.clientId < meMaxNumClients → r.orderId < meMaxOrderIds

section Requests

variable {b : MEOrderBook} {v : View MEOrder}

/-- Further responses leave the answer in its place. -/
lemma Answered.append {b' b'' : MEOrderBook} {r : MEClientRequest} (h : Answered b b' r)
    {more : List MEClientResponse} (hsent : b''.sent = b'.sent ++ more) : Answered b b'' r := by
  obtain ⟨response, rest, hclient, horder, hb'⟩ := h
  exact ⟨response, rest ++ more, hclient, horder, by rw [hsent, hb']; simp⟩

/-- A well-formed book is sorted. -/
lemma WellFormed.sortedLists (h : WellFormed b v) : SortedLists b.toLimitOrderBook :=
  (sortedLists_iff h.repr.shape).mpr h.valid.sorted

/-! ## Matching -/

/-- **Accepting and matching any request** succeeds, and answers it. -/
lemma matchRequest_spec (h : WellFormed b v) (r : MEClientRequest) :
    ∃ b₁ v₁ leavesQty, b.matchRequest r = .ok (b₁, leavesQty) ∧ WellFormed b₁ v₁ ∧
      Answered b b₁ r := by
  set accepted := (b.accept r.clientId r.orderId r.tickerId r.side r.price r.qty).1 with haccepted
  have hwf : WellFormed accepted v := h.of_book rfl
  have hanswered : Answered b accepted r :=
    ⟨{ type := .accepted, clientId := r.clientId, tickerId := r.tickerId, clientOrderId := r.orderId,
       marketOrderId := b.nextMarketOrderId, side := r.side, price := r.price, execQty := 0,
       leavesQty := r.qty }, [], rfl, rfl, rfl⟩
  by_cases hs : r.side.IsBookSide
  · obtain ⟨b₁, v₁, leavesQty, hloop, hwf₁, hanswered₁, -⟩ :=
      checkForMatch_rule r.clientId r.orderId r.tickerId r.side r.price b.nextMarketOrderId
        (fun b₁ _ _ => Answered b b₁ r)
        (by
          intro b₁ b₂ v₁ l ls p o q leaves _ hI _ _ _ _ _ hengine _
          exact hI.append (congrArg MatchingEngine.outgoingOgwResponses hengine))
        hwf hs r.qty hanswered
    exact ⟨b₁, v₁, leavesQty, hloop, hwf₁, hanswered₁⟩
  · exact ⟨accepted, v, r.qty, if_neg hs, hwf, hanswered⟩

/-! ## Resting -/

/-- The condition on the side, on the view. -/
lemma keepsSorted_iff (h : WellFormed b v) (r : MEClientRequest) : KeepsSorted b r ↔
    r.side.IsBookSide ∨ (∃ l ∈ v.levels, priceToIndex l.price = priceToIndex r.price) ∨
      ∀ l ∈ v.side .sell, l.price < r.price := by
  have hheap := h.repr.shape.heap
  refine or_congr_right (or_congr ?_ ?_)
  · constructor
    · intro hbucket
      obtain ⟨a, ha⟩ := Option.ne_none_iff_exists'.mp hbucket
      obtain ⟨l, hl, -, hprice⟩ := (hheap.bucket _ _).mp ha
      exact ⟨l, hl, hprice⟩
    · rintro ⟨l, hl, hprice⟩
      rw [hheap.bucket_of_mem hl _ hprice]
      exact Option.some_ne_none _
  · constructor
    · intro hlt l hl
      have hat := h.repr.shape.levelAt hl
      have hmem : l ∈ v.levels := View.mem_levels_of_side hl
      have := hlt l.addr ((hheap.inUse _).mpr (List.mem_map_of_mem hmem))
        (hat.side.trans (h.valid.homed .sell (.inr rfl) l hl).1)
      rwa [hat.price] at this
    · intro hlt a ha hside
      obtain ⟨l, hl, rfl⟩ := mem_addrs.mp ((hheap.inUse a).mp ha)
      have hat := hheap.levelAt l hl
      obtain ⟨s, hs, hls⟩ := View.mem_levels.mp hl
      obtain rfl : s = .sell := ((h.valid.homed s hs l hls).1.symm.trans hat.side.symm).trans hside
      rw [hat.price]
      exact hlt l hls

/-- A remainder that rests found room. -/
lemma roomFor_of_addRemainder {r : MEClientRequest} {newMarketOrderId leavesQty : ℕ}
    {placed : MEOrderBook × ℕ × Ptr}
    (h : b.addRemainder r.clientId r.orderId r.tickerId newMarketOrderId r.side r.price leavesQty =
      .ok placed)
    (hslot : clientOrderSlot r.clientId r.orderId ≠ none) : RoomFor b r := by
  have hrange : InRange r := by
    by_contra hnot
    exact hslot (clientOrderSlot_eq_none.mpr hnot)
  obtain ⟨priority, -, h⟩ := bind_eq_ok.mp h
  obtain ⟨held, halloc, h⟩ := bind_eq_ok.mp h
  obtain ⟨b', hb', -⟩ := bind_eq_ok.mp h
  obtain ⟨book, hbook, -⟩ := bind_eq_ok.mp hb'
  refine ⟨hrange, (MemPool.allocate_isOk_iff _ _).mp ⟨held, halloc⟩, fun hbucket => ?_⟩
  obtain ⟨queued, hqueued, -⟩ := bind_eq_ok.mp hbook
  -- the price of the new order is that of the request
  have hget := (MemPool.safe_allocate _ _).of_eq_ok halloc
  have hprice : BookOrder.price
      (LimitOrderBook.node { b.toLimitOrderBook with orderPool := held.2 } held.1).order =
        r.price := by
    simp only [node, hget.get, Function.update_self]
    rfl
  unfold enqueueOrder at hqueued
  rw [hprice] at hqueued
  rw [show LimitOrderBook.getOrdersAtPrice { b.toLimitOrderBook with orderPool := held.2 } r.price =
    none from hbucket] at hqueued
  obtain ⟨level, hlevel, -⟩ := bind_eq_ok.mp hqueued
  exact (MemPool.allocate_isOk_iff _ _).mp ⟨level, hlevel⟩

/-- **A remainder rests exactly when there is room for it.** -/
lemma addRemainder_isOk_iff (h : WellFormed b v) (r : MEClientRequest) (newMarketOrderId leavesQty : ℕ) :
    (∃ placed, b.addRemainder r.clientId r.orderId r.tickerId newMarketOrderId r.side r.price
      leavesQty = .ok placed) ↔ RoomFor b r := by
  constructor
  · rintro ⟨placed, hplaced⟩
    have hqueued := safe_addRemainder_queued h r.clientId r.orderId r.tickerId newMarketOrderId r.side
      r.price leavesQty (fun n => MemPool.safe_allocate _ n) fun _ l => MemPool.safe_allocate _ l
    exact roomFor_of_addRemainder hplaced (hqueued.of_eq_ok hplaced).1
  · intro hroom
    have hqueued := safe_addRemainder_queued h r.clientId r.orderId r.tickerId newMarketOrderId r.side
      r.price leavesQty (fun n => MemPool.safe_allocate_of_hasFresh hroom.order n)
      fun hbucket l => MemPool.safe_allocate_of_hasFresh (hroom.level hbucket) l
    have hslot : clientOrderSlot r.clientId r.orderId ≠ none := fun hnone =>
      clientOrderSlot_eq_none.mp hnone hroom.inRange
    obtain ⟨placed, hplaced, -⟩ := hqueued.exists_ok_of_forall fun f hf => by
      rcases hf with hf | ⟨-, hf⟩
      · exact hf
      · exact hslot hf
    exact ⟨placed, hplaced⟩

/-- What a remainder that rests does to the book. -/
lemma addRemainder_spec (h : WellFormed b v) {r : MEClientRequest} {newMarketOrderId leavesQty : ℕ}
    {placed : MEOrderBook × ℕ × Ptr}
    (hplaced : b.addRemainder r.clientId r.orderId r.tickerId newMarketOrderId r.side r.price
      leavesQty = .ok placed) :
    placed.1.sent = b.sent ∧ (SortedLists placed.1.toLimitOrderBook ↔ KeepsSorted b r) ∧
      ∃ book, placed.1.removeOrder placed.2.2 = .ok book ∧ SortedLists book := by
  have hqueued := safe_addRemainder_queued h r.clientId r.orderId r.tickerId newMarketOrderId r.side
    r.price leavesQty (fun n => MemPool.safe_allocate _ n) fun _ l => MemPool.safe_allocate _ l
  obtain ⟨-, v', hrep, -, hqueued, hengine, -⟩ := hqueued.of_eq_ok hplaced
  refine ⟨by rw [sent, hengine]; rfl, ?_, ?_⟩
  · rw [sortedLists_iff hrep.shape, hqueued.sorted_iff h.valid, keepsSorted_iff h]
    rfl
  · obtain ⟨book, hbook, hrep'⟩ := removeOrder_queued hrep hqueued h.valid.nonempty
    exact ⟨book, hbook, (sortedLists_iff hrep'.shape).mpr h.valid.sorted⟩

/-! ## Requests -/

/-- **A NEW request whose remainder rests.** -/
lemma matchAndRest_answered_iff (h : WellFormed b v) (r : MEClientRequest) :
    (∃ b', b.matchAndRest r.clientId r.orderId r.tickerId r.side r.price r.qty = .ok b' ∧
      Answered b b' r ∧ SortedLists b'.toLimitOrderBook) ↔
      Safe (fun _ => True) (fun x => x.2 = 0 ∨ RoomFor x.1 r ∧ KeepsSorted x.1 r)
        (b.matchRequest r) := by
  obtain ⟨b₁, v₁, leavesQty, hmatch, hwf, hanswered⟩ := matchRequest_spec h r
  rw [matchAndRest_eq, hmatch]
  simp only [ok_bind, safe_ok]
  by_cases hzero : leavesQty = 0
  · rw [if_pos hzero]
    exact iff_of_true ⟨b₁, rfl, hanswered, hwf.sortedLists⟩ (.inl hzero)
  rw [if_neg hzero, or_iff_right hzero]
  have hisOk := addRemainder_isOk_iff hwf r b.nextMarketOrderId leavesQty
  constructor
  · rintro ⟨b', hb', -, hsorted⟩
    obtain ⟨placed, hplaced, hb'⟩ := bind_eq_ok.mp hb'
    obtain rfl := Except.ok.inj hb'
    exact ⟨hisOk.mp ⟨placed, hplaced⟩, (addRemainder_spec hwf hplaced).2.1.mp hsorted⟩
  · rintro ⟨hroom, hkeeps⟩
    obtain ⟨placed, hplaced⟩ := hisOk.mpr hroom
    obtain ⟨hsent, hsorted, -⟩ := addRemainder_spec hwf hplaced
    refine ⟨placed.1, bind_eq_ok.mpr ⟨placed, hplaced, rfl⟩, ?_, hsorted.mpr hkeeps⟩
    exact hanswered.append (hsent.trans (List.append_nil _).symm)

/-- **A NEW request**, the whole body. -/
lemma add_answered_iff (h : WellFormed b v) (r : MEClientRequest) :
    (∃ b', b.add id r.clientId r.orderId r.tickerId r.side r.price r.qty = .ok b' ∧
      Answered b b' r ∧ SortedLists b'.toLimitOrderBook) ↔
      Safe (fun _ => True) (fun x => x.2 = 0 ∨ RoomFor x.1 r) (b.matchRequest r) := by
  obtain ⟨b₁, v₁, leavesQty, hmatch, hwf, hanswered⟩ := matchRequest_spec h r
  rw [add_eq, hmatch]
  simp only [ok_bind, safe_ok, id]
  by_cases hzero : leavesQty = 0
  · rw [if_pos hzero]
    exact iff_of_true ⟨_, rfl, hanswered.append rfl, hwf.sortedLists⟩ (.inl hzero)
  rw [if_neg hzero, or_iff_right hzero]
  have hisOk := addRemainder_isOk_iff hwf r b.nextMarketOrderId leavesQty
  constructor
  · rintro ⟨b', hb', -⟩
    obtain ⟨placed, hplaced, -⟩ := bind_eq_ok.mp hb'
    exact hisOk.mp ⟨placed, hplaced⟩
  · intro hroom
    obtain ⟨placed, hplaced⟩ := hisOk.mpr hroom
    obtain ⟨hsent, -, book, hbook, hsorted⟩ := addRemainder_spec hwf hplaced
    have hplacedAnswered : Answered b placed.1 r :=
      hanswered.append (hsent.trans (List.append_nil _).symm)
    refine ⟨_, bind_eq_ok.mpr ⟨placed, hplaced, bind_eq_ok.mpr ⟨_, onBook_eq hbook, rfl⟩⟩, ?_, ?_⟩
    · exact hplacedAnswered.append rfl
    · exact hsorted

/-- An order that a cancel takes out exists. -/
lemma not_noSuchOrder {r : MEClientRequest} {x : Ptr × MEOrder}
    (h : WellFormed b v) (hx : x ∈ orders v.levels)
    (hslot : clientOrderSlot x.2.clientId x.2.clientOrderId = some (r.clientId, r.orderId)) :
    ¬ NoSuchOrder b r := by
  intro hnone
  obtain ⟨-, -, hids⟩ := clientOrderSlot_eq_some.mp hslot
  obtain ⟨hclient, horder⟩ := Prod.mk.inj hids
  obtain ⟨l, hl, hxl⟩ := mem_orders.mp hx
  have hrecord := (h.repr.shape.heap.levelAt l hl).record x hxl
  refine hnone x.1 ((h.repr.ledger.inUse x.1).mpr (mem_ptrs.mpr ⟨x, hx, rfl⟩)) ?_
  rw [hrecord]
  exact ⟨hclient.symm, horder.symm⟩

/-- **A CANCEL request.** -/
lemma cancel_processed_iff (h : WellFormed b v) (r : MEClientRequest) :
    (∃ b', b.cancel r.clientId r.orderId r.tickerId = .ok b' ∧ Processed b b' r) ↔
      (r.clientId < meMaxNumClients → r.orderId < meMaxOrderIds) := by
  have hcancel := safe_cancel h r.clientId r.orderId r.tickerId
  constructor
  · rintro ⟨b', hb', -⟩ hclient
    obtain ⟨p, hp, -⟩ := bind_eq_ok.mp hb'
    unfold findOrder at hp
    rw [if_pos hclient] at hp
    by_contra horder
    rw [if_neg horder] at hp
    cases hp
  · intro horder
    by_cases hclient : r.clientId < meMaxNumClients
    · obtain ⟨b', hb', v', hwf, hstep⟩ := hcancel.exists_ok_of_forall fun f hf => hf.2 (horder hclient)
      refine ⟨b', hb', ?_, hwf.sortedLists, fun _ hnone => ?_⟩
      · cases hstep with
        | rejected => exact ⟨_, [], rfl, rfl, rfl⟩
        | canceled _ _ _ _ hengine _ =>
          exact ⟨_, [], rfl, rfl, congrArg MatchingEngine.outgoingOgwResponses hengine⟩
      · cases hstep with
        | rejected => rfl
        | @canceled _ s l _ _ _ _ x hs hv hq hslot _ _ =>
          have hx : x ∈ orders v.levels := by
            refine mem_orders.mpr ⟨l, View.mem_levels_of_side (s := s) ?_, ?_⟩
            · rw [hv]
              simp
            · rw [hq]
              simp
          exact absurd hnone (not_noSuchOrder h hx hslot)
    · have hfind : b.findOrder r.clientId r.orderId = .ok none := if_neg hclient
      refine ⟨_, bind_eq_ok.mpr ⟨none, hfind, rfl⟩, ⟨_, [], rfl, rfl, rfl⟩, h.sortedLists,
        fun _ _ => rfl⟩

/-- The requests that the book processes, over the body of `add` in question. -/
lemma processed_iff_of_answered
    {add : MEOrderBook → ℕ → ℕ → ℕ → Side → ℤ → ℕ → Except Fault MEOrderBook}
    {C : MEOrderBook → MEClientRequest → Prop} (h : WellFormed b v) (r : MEClientRequest)
    (hadd : (∃ b', add b r.clientId r.orderId r.tickerId r.side r.price r.qty = .ok b' ∧
      Answered b b' r ∧ SortedLists b'.toLimitOrderBook) ↔
      Safe (fun _ => True) (fun x => x.2 = 0 ∨ C x.1 r) (b.matchRequest r)) :
    (∃ b', processClientRequest add b r = .ok b' ∧ Processed b b' r) ↔ Admits C b r := by
  unfold processClientRequest Admits
  cases htype : r.type with
  | invalid => simp
  | cancel => exact cancel_processed_iff h r
  | new =>
    rw [← hadd]
    refine exists_congr fun b' => and_congr_right fun _ => ?_
    constructor
    · intro hb'
      exact ⟨hb'.answered, hb'.sorted⟩
    · rintro ⟨hanswered, hsorted⟩
      refine ⟨hanswered, hsorted, fun hc => ?_⟩
      rw [htype] at hc
      cases hc

/-- **The requests that the book processes**, when the remainder of an order rests. -/
theorem processed_iff_of_rests (h : WellFormed b v) (r : MEClientRequest) :
    (∃ b', processClientRequest matchAndRest b r = .ok b' ∧ Processed b b' r) ↔
      Admits (fun b r => RoomFor b r ∧ KeepsSorted b r) b r :=
  processed_iff_of_answered h r (matchAndRest_answered_iff h r)

/-- **The requests that the book processes**, with the whole body of `add`. -/
theorem processed_iff (h : WellFormed b v) (r : MEClientRequest) :
    (∃ b', processClientRequest (MEOrderBook.add id) b r = .ok b' ∧ Processed b b' r) ↔
      Admits RoomFor b r :=
  processed_iff_of_answered h r (add_answered_iff h r)

end Requests

end Exchange
