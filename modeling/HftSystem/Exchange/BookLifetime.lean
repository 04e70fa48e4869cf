import HftSystem.Common.BookBlocks
import HftSystem.Exchange.AnyRequest
import HftSystem.Exchange.BookRule
import HftSystem.Exchange.CancelIndex

set_option relaxedAutoImplicit false
set_option autoImplicit false

/-!
# How long a book lasts

An order that comes to rest uses up a block of the book, and so does a level that is opened for it;
a CANCEL and an execution give nothing back. So the book of a ticker serves
`ME_MAX_ORDER_IDS - 1` resting orders and `ME_MAX_PRICE_LEVELS - 1` levels over the whole life of the
exchange, and the next one reads behind the store of its pool. The assertion that a pool is out of
space never comes to it.

## Main definitions

* `Exchange.Quiet` — what a book does while nothing comes to rest.
* `Exchange.HasBlocks` — the book has the blocks that a request needs.
* `Exchange.Lasting` — the blocks from the next ones on were never handed out.

## Main results

* `Exchange.safe_lasting_process` — one request, with the exact condition.
* `Exchange.completes_iff` — the runs of the engine that get through.
* `Exchange.completes_of_few` — runs with few NEW requests get through.
* `Exchange.churn_completes_iff` — an order that is placed and canceled again and again.
-/

namespace Exchange

open Common LimitOrderBook PriceTime Fallible MEOrderBook

/-! ## Where nothing comes to rest -/

/-- **Nothing comes to rest**: no block is used up, and no ADD is published. -/
structure Quiet (b b' : MEOrderBook) : Prop where
  blocks : KeepsBlocks b.toLimitOrderBook b'.toLimitOrderBook
  published : ∃ us, b'.published = b.published ++ us ∧ ∀ u ∈ us, u.type ≠ .add

namespace Quiet

variable {b b' b'' : MEOrderBook}

/-- Nothing happens. -/
lemma refl (b : MEOrderBook) : Quiet b b := ⟨.refl _, [], (List.append_nil _).symm, by simp⟩

/-- Two quiet steps in a row are quiet. -/
lemma trans (h : Quiet b b') (h' : Quiet b' b'') : Quiet b b'' := by
  obtain ⟨us, hus, hnone⟩ := h.published
  obtain ⟨us', hus', hnone'⟩ := h'.published
  refine ⟨h.blocks.trans h'.blocks, us ++ us', by rw [hus', hus, List.append_assoc], fun u hu => ?_⟩
  exact (List.mem_append.mp hu).elim (hnone u) (hnone' u)

/-- A response is quiet. -/
lemma respond (h : Quiet b b') (r : MEClientResponse) : Quiet b (b'.respond r) :=
  ⟨h.blocks, h.published⟩

/-- So is an update that is no ADD. -/
lemma publish (h : Quiet b b') {u : MEMarketUpdate} (hu : u.type ≠ .add) : Quiet b (b'.publish u) := by
  refine h.trans ⟨.refl _, [u], rfl, fun w hw => ?_⟩
  rwa [List.mem_singleton.mp hw]

end Quiet

section Operations

variable (b : MEOrderBook)

/-- Removing an order publishes nothing by itself. -/
lemma safe_quiet_onBook_removeOrder (p : Ptr) :
    Safe (fun _ => True) (fun b' => Quiet b b' ∧ b'.marketUpdate = b.marketUpdate)
      (b.onBook fun book => book.removeOrder p) :=
  (safe_keeps_removeOrder b.toLimitOrderBook p).bind fun _ hbook =>
    ⟨⟨hbook, [], (List.append_nil _).symm, by simp⟩, rfl⟩

/-- One execution. -/
lemma safe_quiet_matchOrder (tickerId clientId : ℕ) (side : Side)
    (clientOrderId newMarketOrderId : ℕ) (itr : Ptr) (leavesQty : ℕ) :
    Safe (fun _ => True) (fun r => Quiet b r.1)
      (b.matchOrder tickerId clientId side clientOrderId newMarketOrderId itr leavesQty) := by
  unfold matchOrder
  simp only
  set f : MEOrder → MEOrder := fun o => { o with qty := o.qty - min leavesQty (b.node itr).order.qty }
    with hf
  have hfilled : Quiet b { b with toLimitOrderBook := b.modifyOrder itr f } :=
    ⟨(KeepsBlocks.refl _).modifyNode itr _, [], (List.append_nil _).symm, by simp⟩
  split
  · refine (safe_quiet_onBook_removeOrder _ itr).bind fun b' hb' => ?_
    refine Quiet.trans (Quiet.publish (Quiet.publish ((hfilled.respond _).respond _) ?_) ?_) hb'.1
    · simp
    · simp
  · refine Quiet.publish (Quiet.publish ((hfilled.respond _).respond _) ?_) ?_
    · simp
    · simp

/-- Matching is quiet. -/
lemma safe_quiet_checkForMatch (clientId clientOrderId tickerId : ℕ) (side : Side) (price : ℤ)
    (qty newMarketOrderId : ℕ) :
    Safe (fun _ => True) (fun r => Quiet b r.1)
      (b.checkForMatch clientId clientOrderId tickerId side price qty newMarketOrderId) := by
  refine safe_checkForMatch clientId clientOrderId tickerId side price newMarketOrderId
    (Quiet b) ?_ (.refl b) qty
  intro b' newMarketOrderId _ itr leavesQty hb' _
  exact (safe_quiet_matchOrder b' tickerId clientId side clientOrderId newMarketOrderId itr
    leavesQty).mono (fun _ hf => hf) fun _ => hb'.trans

/-- Accepting and matching a NEW request. -/
lemma safe_quiet_matchRequest (r : MEClientRequest) :
    Safe (fun _ => True) (fun x => Quiet b x.1) (b.matchRequest r) :=
  (safe_quiet_checkForMatch (b.accept r.clientId r.orderId r.tickerId r.side r.price r.qty).1 r.clientId
    r.orderId r.tickerId r.side r.price r.qty b.nextMarketOrderId).mono (fun _ hf => hf)
    fun _ hx => ⟨hx.blocks, hx.published⟩

/-- A CANCEL is quiet. -/
lemma safe_quiet_cancel (clientId orderId tickerId : ℕ) :
    Safe (fun _ => True) (Quiet b) (b.cancel clientId orderId tickerId) := by
  unfold MEOrderBook.cancel
  refine (safe_true _).bind fun p _ => ?_
  cases p with
  | none => exact ⟨.refl _, [], (List.append_nil _).symm, by simp⟩
  | some p =>
    refine (safe_quiet_onBook_removeOrder _ p).bind ?_
    rintro b' ⟨hquiet, hupdate⟩
    obtain ⟨us, hus, hnone⟩ := hquiet.published
    refine ⟨hquiet.blocks, us ++ [b'.marketUpdate], ?_, fun u hu => ?_⟩
    · show b'.published ++ [b'.marketUpdate] = _
      rw [hus, List.append_assoc]
      rfl
    · rcases List.mem_append.mp hu with hu | hu
      · exact hnone u hu
      · rw [List.mem_singleton.mp hu, hupdate]
        simp

end Operations

section Served

variable {b : MEOrderBook} {v : View MEOrder} {orders levels : ℕ}

/-- **A remainder that rests** uses up the block of an order, and that of a level if it opens one. -/
lemma safe_served_addRemainder (h : BlocksServed b.toLimitOrderBook orders levels)
    (clientId clientOrderId tickerId newMarketOrderId : ℕ) (side : Side) (price : ℤ)
    (leavesQty : ℕ) :
    Safe (fun _ => True)
      (fun r => BlocksServed r.1.toLimitOrderBook (orders + 1) (levels + b.levelsNeeded price))
      (b.addRemainder clientId clientOrderId tickerId newMarketOrderId side price leavesQty) := by
  unfold addRemainder
  refine (safe_true _).bind fun priority _ => ?_
  refine Safe.bind ((h.order.safe_allocate _).mono (fun _ _ => trivial) fun _ hr => hr) ?_
  rintro ⟨p, pool⟩ ⟨hal, hpool⟩
  have hheld : BlocksServed { b.toLimitOrderBook with orderPool := pool } (orders + 1) levels :=
    ⟨hpool, h.level⟩
  have hprice : BookOrder.price
      (LimitOrderBook.node { b.toLimitOrderBook with orderPool := pool } p).order = price := by
    simp only [node, hal.get, Function.update_self]
    rfl
  have hadded := hheld.safe_addOrder p
  rw [hprice] at hadded
  have honBook : Safe (fun _ => True)
      (fun b' : MEOrderBook =>
        BlocksServed b'.toLimitOrderBook (orders + 1) (levels + b.levelsNeeded price))
      (onBook { b with orderPool := pool } fun book => book.addOrder p) := by
    refine hadded.bind ?_
    intro book hbook
    exact hbook
  exact honBook.bind fun b' hb' => hb'

/-- **The remainder of a request in range** rests if there are blocks for it, and reads behind the
store of a pool otherwise. -/
lemma safe_addRemainder_of_served (hwf : WellFormed b v)
    (h : BlocksServed b.toLimitOrderBook orders levels) {r : MEClientRequest} (hin : InRange r)
    (newMarketOrderId leavesQty : ℕ) :
    Safe (fun f => f = .overrun ∧
        ¬ (orders + 1 < meMaxOrderIds ∧ levels + b.levelsNeeded r.price < meMaxPriceLevels))
      (fun placed => BlocksServed placed.1.toLimitOrderBook (orders + 1)
        (levels + b.levelsNeeded r.price))
      (b.addRemainder r.clientId r.orderId r.tickerId newMarketOrderId r.side r.price leavesQty) := by
  set allow : Fault → Prop := fun f => f = .overrun ∧
    ¬ (orders + 1 < meMaxOrderIds ∧ levels + b.levelsNeeded r.price < meMaxPriceLevels) with hallow
  have horders : ∀ n, Safe allow (fun x => MemPool.Allocated b.orderPool x.2 n x.1)
      (b.orderPool.allocate n) := fun n =>
    (h.order.safe_allocate n).mono (fun _ hf => ⟨hf.1, fun hroom => hf.2 hroom.1⟩) fun _ hx => hx.1
  have hlevels : b.getOrdersAtPrice r.price = none → ∀ l,
      Safe allow (fun x => MemPool.Allocated b.ordersAtPricePool x.2 l x.1)
        (b.ordersAtPricePool.allocate l) := by
    intro hbucket l
    refine (h.level.safe_allocate l).mono (fun _ hf => ⟨hf.1, fun hroom => hf.2 ?_⟩) fun _ hx => hx.1
    simpa only [levelsNeeded, hbucket, if_true] using hroom.2
  have hqueued := safe_addRemainder_queued hwf r.clientId r.orderId r.tickerId newMarketOrderId r.side
    r.price leavesQty horders hlevels
  have hserved := safe_served_addRemainder h r.clientId r.orderId r.tickerId newMarketOrderId r.side
    r.price leavesQty
  refine (hqueued.and hserved).mono (fun f hf => ?_) fun _ hplaced => hplaced.2
  refine hf.1.resolve_right ?_
  rintro ⟨-, hslot⟩
  exact clientOrderSlot_eq_none.mp hslot hin

end Served

/-! ## Requests -/

/-- **The book has the blocks that a request needs**: if matching leaves a remainder of a NEW
request, there is a block behind the one for the order, and behind the one for its level if that is
to be opened. -/
def HasBlocks (b : MEOrderBook) (r : MEClientRequest) : Prop :=
  r.type = .new → Safe (fun _ => True)
    (fun x => x.2 = 0 ∨ b.orderPool.nextFreeIndex + 1 < meMaxOrderIds ∧
      b.ordersAtPricePool.nextFreeIndex + x.1.levelsNeeded r.price < meMaxPriceLevels)
    (b.matchRequest r)

/-- **The blocks from the next ones on were never handed out.** -/
def Lasting (b : MEOrderBook) : Prop :=
  BlocksServed b.toLimitOrderBook b.orderPool.nextFreeIndex b.ordersAtPricePool.nextFreeIndex

/-- A new book. -/
lemma lasting_new : Lasting .new :=
  ⟨MemPool.served_new (by decide), MemPool.served_new (by decide)⟩

/-- The number of NEW requests that a request is. -/
def newCount (r : MEClientRequest) : ℕ := if r.type = .new then 1 else 0

/-- **What a request uses up**: a NEW request a block of each pool at most, a CANCEL none. -/
structure UsesUp (b b' : MEOrderBook) (r : MEClientRequest) : Prop where
  lasting : Lasting b'
  orders : b'.orderPool.nextFreeIndex ≤ b.orderPool.nextFreeIndex + newCount r
  levels : b'.ordersAtPricePool.nextFreeIndex ≤ b.ordersAtPricePool.nextFreeIndex + newCount r

section Process

variable {b b' : MEOrderBook} {v : View MEOrder} {r : MEClientRequest}

/-- The blocks that were served, after a request. -/
lemma usesUp_of_served {orders levels : ℕ} (h : BlocksServed b'.toLimitOrderBook orders levels)
    (horders : orders ≤ b.orderPool.nextFreeIndex + newCount r)
    (hlevels : levels ≤ b.ordersAtPricePool.nextFreeIndex + newCount r) : UsesUp b b' r := by
  have horder : b'.orderPool.nextFreeIndex = orders := h.order.next
  have hlevel : b'.ordersAtPricePool.nextFreeIndex = levels := h.level.next
  refine ⟨?_, horder.trans_le horders, hlevel.trans_le hlevels⟩
  unfold Lasting
  rw [horder, hlevel]
  exact h

/-- `add`, behind the matching. -/
lemma addAnnounced_eq (b : MEOrderBook) (r : MEClientRequest) :
    b.addAnnounced r.clientId r.orderId r.tickerId r.side r.price r.qty =
      b.matchRequest r >>= fun x =>
        x.1.rest r.clientId r.orderId r.tickerId b.nextMarketOrderId r.side r.price x.2 := rfl

/-- **A NEW request in range** gets through if the book has the blocks for it, and reads behind the
store of a pool otherwise. -/
lemma safe_lasting_addAnnounced (hwf : WellFormed b v) (h : Lasting b) (htype : r.type = .new)
    (hin : InRange r) :
    Safe (fun f => f = .overrun ∧ ¬ HasBlocks b r) (fun b' => HasBlocks b r ∧ UsesUp b b' r)
      (b.addAnnounced r.clientId r.orderId r.tickerId r.side r.price r.qty) := by
  have hone : newCount r = 1 := if_pos htype
  obtain ⟨b₁, v₁, leavesQty, hmatch, hwf₁, -⟩ := matchRequest_spec hwf r
  have hserved : BlocksServed b₁.toLimitOrderBook b.orderPool.nextFreeIndex
      b.ordersAtPricePool.nextFreeIndex := h.keeps ((safe_quiet_matchRequest b r).of_eq_ok hmatch).blocks
  have hneeded : b₁.levelsNeeded r.price ≤ 1 := by
    unfold levelsNeeded
    split_ifs <;> omega
  have hblocks : HasBlocks b r ↔ leavesQty = 0 ∨ b.orderPool.nextFreeIndex + 1 < meMaxOrderIds ∧
      b.ordersAtPricePool.nextFreeIndex + b₁.levelsNeeded r.price < meMaxPriceLevels := by
    unfold HasBlocks
    rw [hmatch]
    exact ⟨fun hr => hr htype, fun hr _ => hr⟩
  rw [addAnnounced_eq, hmatch, ok_bind, hblocks]
  unfold MEOrderBook.rest
  by_cases hzero : leavesQty = 0
  · rw [if_pos hzero]
    exact ⟨.inl hzero, usesUp_of_served hserved (by omega) (by omega)⟩
  · rw [if_neg hzero, or_iff_right hzero]
    refine (safe_addRemainder_of_served hwf₁ hserved hin b.nextMarketOrderId leavesQty).bind ?_
    rintro ⟨b₂, priority, p⟩ hplaced
    -- that the blocks were served says that they were there
    refine ⟨⟨hplaced.order.lt, hplaced.level.lt⟩, ?_⟩
    exact usesUp_of_served hplaced (by omega) (by omega)

/-- **One request**, with the exact condition. -/
theorem safe_lasting_process (hb : BookInvariant b v) (h : Lasting b) (hr : Admissible b r)
    (hin : InRange r) :
    Safe (fun f => f = .overrun ∧ ¬ HasBlocks b r)
      (fun b' => HasBlocks b r ∧ UsesUp b b' r ∧ ∃ v', BookInvariant b' v')
      (processClientRequest MEOrderBook.addAnnounced b r) := by
  have hinv := (maintains_true r).process hb trivial hr
  have hblocks : Safe (fun f => f = .overrun ∧ ¬ HasBlocks b r ∨ f = .outOfRange ∧ ¬ InRange r)
      (fun b' => HasBlocks b r ∧ UsesUp b b' r)
      (processClientRequest MEOrderBook.addAnnounced b r) := by
    unfold processClientRequest
    cases htype : r.type with
    | invalid => exact absurd htype hr.1
    | new =>
      exact (safe_lasting_addAnnounced hb.wellFormed h htype hin).mono (fun _ hf => .inl hf)
        fun _ hb' => hb'
    | cancel =>
      have hnot : ¬ r.type = .new := by
        rw [htype]
        decide
      have hcancel := safe_cancel hb.wellFormed r.clientId r.orderId r.tickerId
      refine (hcancel.and (safe_quiet_cancel b r.clientId r.orderId r.tickerId)).mono
        (fun f hf => .inr ⟨hf.1.1, fun hin => hf.1.2 hin.2⟩) fun b' hb' => ?_
      refine ⟨fun hnew => absurd hnew hnot, ?_⟩
      exact usesUp_of_served (h.keeps hb'.2.blocks) (Nat.le_add_right _ _) (Nat.le_add_right _ _)
  refine (hblocks.and hinv).mono (fun f hf => hf.1.resolve_right fun hf => hf.2 hin) ?_
  rintro b' ⟨⟨hhas, huses⟩, v', hb', -⟩
  exact ⟨hhas, huses, v', hb'⟩

end Process

/-! ## Runs -/

/-- **Every book keeps its invariant, and the blocks ahead of it.** -/
def EngineLasting (x : EngineState) : Prop :=
  ∀ t, (∃ v, BookInvariant (x.alone t) v) ∧ Lasting (x.alone t)

/-- A new engine has all its blocks ahead. -/
lemma engineLasting_new : EngineLasting {} := fun _ => ⟨⟨{}, bookInvariant_new⟩, lasting_new⟩

/-- **One request to the engine**, with the exact condition. -/
lemma EngineLasting.safe_process {x : EngineState} (h : EngineLasting x) {r : MEClientRequest}
    (hr : EngineAdmissible x r) (hin : InRange r) :
    Safe (fun f => f = .overrun ∧ ¬ HasBlocks (x.alone r.tickerId) r)
      (fun x' => (EngineLasting x' ∧ ∀ t,
        (x'.alone t).orderPool.nextFreeIndex ≤
            (x.alone t).orderPool.nextFreeIndex + (if r.tickerId = t then newCount r else 0) ∧
          (x'.alone t).ordersAtPricePool.nextFreeIndex ≤
            (x.alone t).ordersAtPricePool.nextFreeIndex + if r.tickerId = t then newCount r else 0) ∧
        HasBlocks (x.alone r.tickerId) r)
      (x.process MEOrderBook.addAnnounced r) := by
  obtain ⟨⟨v, hb⟩, hlasting⟩ := h r.tickerId
  refine (EngineState.safe_process local_addAnnounced x hr.1
    (safe_lasting_process hb hlasting hr.2 hin)).mono (fun _ hf => hf) ?_
  rintro x' ⟨b', ⟨hhas, huses, hinv⟩, halone⟩
  refine ⟨⟨fun t => ?_, fun t => ?_⟩, hhas⟩
  all_goals rw [halone]
  all_goals by_cases ht : r.tickerId = t
  · subst ht
    rw [Function.update_self]
    exact ⟨hinv, huses.lasting⟩
  · rw [Function.update_of_ne (Ne.symm ht)]
    exact h t
  · subst ht
    rw [Function.update_self, if_pos rfl]
    exact ⟨huses.orders, huses.levels⟩
  · rw [Function.update_of_ne (Ne.symm ht), if_neg ht]
    exact ⟨le_rfl, le_rfl⟩

/-- **The runs of the engine that get through.** Let the requests be admissible and in range. The
run gets through exactly if each request finds the blocks that it needs: over the whole run fewer
than `ME_MAX_ORDER_IDS` orders of a ticker come to rest and fewer than `ME_MAX_PRICE_LEVELS` levels are
opened for them, however many of them are gone in between. Any other run reads behind the store of
a pool. -/
theorem completes_iff {requests : List MEClientRequest}
    (h : Meets (EngineState.process MEOrderBook.addAnnounced) EngineAdmissible {} requests)
    (hin : ∀ r ∈ requests, InRange r) :
    ((∃ x, requests.foldlM (EngineState.process MEOrderBook.addAnnounced) {} = .ok x) ↔
        Meets (EngineState.process MEOrderBook.addAnnounced)
          (fun x r => HasBlocks (x.alone r.tickerId) r) {} requests) ∧
      (requests.foldlM (EngineState.process MEOrderBook.addAnnounced) {} = .error .overrun ↔
        ¬ Meets (EngineState.process MEOrderBook.addAnnounced)
          (fun x r => HasBlocks (x.alone r.tickerId) r) {} requests) := by
  have hrun : Safe (fun f => f = .overrun ∧ ¬ Meets (EngineState.process MEOrderBook.addAnnounced)
        (fun x r => HasBlocks (x.alone r.tickerId) r) {} requests)
      (fun x => EngineLasting x ∧ Meets (EngineState.process MEOrderBook.addAnnounced)
        (fun x r => HasBlocks (x.alone r.tickerId) r) {} requests)
      (requests.foldlM (EngineState.process MEOrderBook.addAnnounced) {}) :=
    safe_foldlM_iff_meets (D := fun x r => EngineAdmissible x r ∧ InRange r)
      (fun x r hx hr => (hx.safe_process hr.1 hr.2).mono (fun _ hf => hf)
        fun _ hx' => ⟨hx'.1.1, hx'.2⟩) engineLasting_new (h.and_forall hin)
  exact hrun.exact fun _ hx => hx.2

/-- The requests of the sample run are in range. -/
lemma inRange_sampleOrders : ∀ r ∈ sampleOrders, InRange r := by
  unfold InRange
  decide

/-- The requests of the sample find their blocks, since the run gets through. -/
theorem completes_iff_sample :
    Meets (EngineState.process MEOrderBook.addAnnounced)
      (fun x r => HasBlocks (x.alone r.tickerId) r) {} sampleOrders := by
  obtain ⟨x, hx, -⟩ := (safe_true (sampleOrders.foldlM
    (EngineState.process MEOrderBook.addAnnounced) {})).exists_of_isOk (by decide)
  exact (completes_iff meets_sampleOrders inRange_sampleOrders).1.mp ⟨x, hx⟩

/-- The number of NEW requests to a ticker. -/
def newRequests (t : ℕ) (requests : List MEClientRequest) : ℕ :=
  (requests.filter fun r => r.tickerId = t ∧ r.type = .new).length

/-- The NEW requests to a ticker, with one more in front. -/
lemma newRequests_cons (t : ℕ) (r : MEClientRequest) (requests : List MEClientRequest) :
    newRequests t (r :: requests) =
      (if r.tickerId = t then newCount r else 0) + newRequests t requests := by
  unfold newRequests newCount
  rw [List.filter_cons]
  by_cases ht : r.tickerId = t
  · by_cases htype : r.type = .new
    · simp [ht, htype, Nat.add_comm]
    · simp [ht, htype]
  · simp [ht]

/-- The requests that are left find their blocks. -/
lemma EngineLasting.exists_run {requests : List MEClientRequest} {x : EngineState}
    (hx : EngineLasting x)
    (h : Meets (EngineState.process MEOrderBook.addAnnounced)
      (fun x r => EngineAdmissible x r ∧ InRange r) x requests)
    (hfew : ∀ t, (x.alone t).orderPool.nextFreeIndex + newRequests t requests < meMaxPriceLevels ∧
      (x.alone t).ordersAtPricePool.nextFreeIndex + newRequests t requests < meMaxPriceLevels) :
    ∃ x', requests.foldlM (EngineState.process MEOrderBook.addAnnounced) x = .ok x' := by
  have hsizes : meMaxPriceLevels ≤ meMaxOrderIds := by decide
  induction requests generalizing x with
  | nil => exact ⟨x, rfl⟩
  | cons r requests ih =>
    obtain ⟨⟨hadmissible, hin⟩, hrest⟩ := h
    have hhas : HasBlocks (x.alone r.tickerId) r := by
      intro htype
      refine (safe_true _).mono (fun _ hf => hf) fun x₁ _ => .inr ?_
      have hfew := hfew r.tickerId
      rw [newRequests_cons, if_pos rfl, newCount, if_pos htype] at hfew
      have hneeded : x₁.1.levelsNeeded r.price ≤ 1 := by
        unfold levelsNeeded
        split_ifs <;> omega
      omega
    obtain ⟨x', hx', ⟨hlasting, hused⟩, -⟩ :=
      (hx.safe_process hadmissible hin).exists_ok_of_forall fun _ hf => hf.2 hhas
    obtain ⟨y, hy⟩ := ih hlasting (hrest x' hx') fun t => by
      have hfew := hfew t
      have hused := hused t
      rw [newRequests_cons] at hfew
      omega
    exact ⟨y, by rw [List.foldlM_cons, hx', ok_bind, hy]⟩

/-- **Runs with few NEW requests get through.** Fewer than `ME_MAX_PRICE_LEVELS` NEW requests to each
ticker, and any number of CANCEL requests, admissible and in range, never bring the engine down. -/
theorem completes_of_few {requests : List MEClientRequest}
    (h : Meets (EngineState.process MEOrderBook.addAnnounced) EngineAdmissible {} requests)
    (hin : ∀ r ∈ requests, InRange r) (hfew : ∀ t, newRequests t requests < meMaxPriceLevels) :
    ∃ x, requests.foldlM (EngineState.process MEOrderBook.addAnnounced) {} = .ok x :=
  engineLasting_new.exists_run (h.and_forall hin) fun t => by
    rw [show (EngineState.alone {} t).orderPool.nextFreeIndex = 0 from rfl,
      show (EngineState.alone {} t).ordersAtPricePool.nextFreeIndex = 0 from rfl, Nat.zero_add]
    exact ⟨hfew t, hfew t⟩

/-- The sample has few NEW requests. -/
theorem completes_of_few_sample :
    ∃ x, sampleOrders.foldlM (EngineState.process MEOrderBook.addAnnounced) {} = .ok x :=
  completes_of_few meets_sampleOrders inRange_sampleOrders fun _ =>
    (List.length_filter_le _ _).trans_lt (by decide)

/-! ## Placing and canceling -/

/-- **An empty book** that has served some orders, and opened a level for each of them. -/
structure Churned (k : ℕ) (b : MEOrderBook) : Prop where
  wellFormed : WellFormed b {}
  indexed : Indexed b.toLimitOrderBook
  served : BlocksServed b.toLimitOrderBook k k

/-- A new book has served no order. -/
lemma churned_new : Churned 0 .new := ⟨wellFormed_new, indexed_new, lasting_new⟩

/-- A CANCEL that finds its order publishes something. -/
lemma published_cancel {b b' : MEOrderBook} {clientId orderId tickerId : ℕ} {p : Ptr}
    (hfind : b.findOrder clientId orderId = .ok (some p)) (hb' : b.cancel clientId orderId tickerId = .ok b') :
    b'.published ≠ b.published := by
  unfold MEOrderBook.cancel at hb'
  rw [hfind, ok_bind] at hb'
  obtain ⟨b₁, hb₁, hb'⟩ := bind_eq_ok.mp hb'
  obtain ⟨book, -, hb₁⟩ := bind_eq_ok.mp hb₁
  cases hb₁
  cases hb'
  simp [published, respond, sendMarketUpdate]

/-- A view without orders is empty. -/
lemma view_eq_of_orders_eq_nil {v : View MEOrder} (hv : v.Valid) (h : orders v.levels = []) : v = {} := by
  have hlevels : v.levels = [] := by
    refine List.eq_nil_iff_forall_not_mem.mpr fun l hl => ?_
    obtain ⟨x, hx⟩ := List.exists_mem_of_ne_nil _ (hv.nonempty l hl)
    have hmem : x ∈ orders v.levels := mem_orders.mpr ⟨l, hl, hx⟩
    rw [h] at hmem
    cases hmem
  obtain ⟨bids, asks⟩ := v
  obtain ⟨rfl, rfl⟩ := List.append_eq_nil_iff.mp hlevels
  rfl

section Churn

variable {b : MEOrderBook} {r : MEClientRequest} {k : ℕ}

/-- Nothing executes in an empty book. -/
lemma Churned.matchRequest (h : Churned k b) (r : MEClientRequest) :
    b.matchRequest r = .ok ((b.accept r.clientId r.orderId r.tickerId r.side r.price r.qty).1, r.qty) := by
  have hbest : b.bestOrdersByPrice r.side.opposite = none :=
    (h.wellFormed.repr.shape.spine _ (isBookSide_opposite r.side)).best.trans (by simp [View.side, addrs])
  have haccepted : (b.accept r.clientId r.orderId r.tickerId r.side r.price r.qty).1.bestOrdersByPrice
      r.side.opposite = none := hbest
  unfold MEOrderBook.matchRequest checkForMatch matchLoop
  split
  · simp only [haccepted, ite_self]
  · rfl

/-- An empty book has no level. -/
lemma Churned.levelsNeeded (h : Churned k b) (price : ℤ) : b.levelsNeeded price = 1 := by
  refine if_pos ?_
  cases hbucket : b.getOrdersAtPrice price with
  | none => rfl
  | some a =>
    obtain ⟨l, hl, -⟩ := (h.wellFormed.repr.shape.heap.bucket _ _).mp hbucket
    cases hl

/-- **The order is placed**, if there is a block for its level.

**Proof sketch.** The book is empty, so nothing is matched and the whole quantity rests. Its level
needs one block (`Churned.levelsNeeded`), which is there as long as fewer than all were served, and its
order another, of which there are at least as many. The entry of its ids was empty, so the table leads
to the new order (`Indexed.place`). -/
lemma Churned.place (h : Churned k b) (htype : r.type = .new) (hin : InRange r)
    (hs : r.side.IsBookSide) (hqty : 0 < r.qty) :
    Safe (fun f => f = .overrun ∧ ¬ k + 1 < meMaxPriceLevels)
      (fun b' => BlocksServed b'.toLimitOrderBook (k + 1) (k + 1) ∧ Indexed b'.toLimitOrderBook ∧
        (∃ p, b'.findOrder r.clientId r.orderId = .ok (some p)) ∧
        ∃ v' x, WellFormed b' v' ∧ (orders v'.levels).Perm [x])
      (processClientRequest MEOrderBook.addAnnounced b r) := by
  have hsizes : meMaxPriceLevels ≤ meMaxOrderIds := by decide
  set accepted := (b.accept r.clientId r.orderId r.tickerId r.side r.price r.qty).1 with haccepted
  have hwf : WellFormed accepted {} := h.wellFormed.of_book rfl
  have hserved : BlocksServed accepted.toLimitOrderBook k k := h.served
  have hneeded : accepted.levelsNeeded r.price = 1 := h.levelsNeeded r.price
  have hrests := safe_addRemainder_of_served hwf hserved hin b.nextMarketOrderId r.qty
  rw [hneeded] at hrests
  have hplaced := safe_addRemainder hwf r.clientId r.orderId r.tickerId b.nextMarketOrderId hs r.price
    hqty fun l hl => by cases hl
  have hentered := safe_addRemainder_entered accepted r.clientId r.orderId r.tickerId
    b.nextMarketOrderId r.side r.price r.qty
  unfold processClientRequest
  simp only [htype]
  rw [addAnnounced_eq, h.matchRequest r, ok_bind]
  unfold MEOrderBook.rest
  rw [if_neg (Nat.pos_iff_ne_zero.mp hqty)]
  refine Safe.bind (((hrests.and hplaced).and hentered).mono (fun f hf => ?_) fun _ hr => hr) ?_
  · obtain ⟨⟨⟨hf, hfull⟩, -⟩, -⟩ := hf
    exact ⟨hf, fun hlt => hfull ⟨by omega, hlt⟩⟩
  rintro ⟨b₂, priority, p⟩ ⟨⟨hserved₂, v', hwf₂, -, hplaced, -⟩, record, hentered⟩
  have hfree : accepted.orderIndex (r.clientId, r.orderId) = none := by
    cases hindex : b.orderIndex (r.clientId, r.orderId) with
    | none => exact hindex
    | some q =>
      obtain ⟨x, hx, -⟩ := h.wellFormed.repr.ledger.index _ _ hindex
      cases hx
  have hindexed : Indexed b₂.toLimitOrderBook := Indexed.place h.indexed hentered hfree
  refine ⟨hserved₂, hindexed, ⟨p, ?_⟩, v', _, hwf₂.of_book rfl, hplaced.orders_perm⟩
  have hfound : b₂.orderIndex (r.clientId, r.orderId) = some p := by
    rw [hentered.orderIndex, Function.update_self]
  show MEOrderBook.findOrder b₂ r.clientId r.orderId = _
  unfold findOrder
  rw [if_pos hin.1, if_pos hin.2, hfound]

/-- **The order is canceled**, and the book is empty again. -/
lemma safe_cancel_only {b : MEOrderBook} {v : View MEOrder} {x : Ptr × MEOrder} (hwf : WellFormed b v)
    (hindexed : Indexed b.toLimitOrderBook) (hserved : BlocksServed b.toLimitOrderBook k k)
    (hin : InRange r) {p : Ptr} (hfind : b.findOrder r.clientId r.orderId = .ok (some p))
    (honly : (orders v.levels).Perm [x]) :
    ∃ b', b.cancel r.clientId r.orderId r.tickerId = .ok b' ∧ Churned k b' := by
  obtain ⟨b', hb', v', hwf', hstep⟩ :=
    (safe_cancel hwf r.clientId r.orderId r.tickerId).exists_ok_of_forall fun _ hf => hf.2 hin.2
  have hindexed' := (safe_indexed_cancel hindexed r.clientId r.orderId r.tickerId).of_eq_ok hb'
  have hserved' := hserved.keeps
    ((safe_quiet_cancel b r.clientId r.orderId r.tickerId).of_eq_ok hb').blocks
  refine ⟨b', hb', ?_, hindexed', hserved'⟩
  cases hstep with
  | rejected => exact (published_cancel hfind hb' rfl).elim
  | canceled _ hv hq _ _ _ =>
    have hleft := ((orders_remove hv hq).symm.trans honly).length_eq
    rw [List.length_cons, List.length_singleton] at hleft
    have hnil := List.eq_nil_of_length_eq_zero (Nat.succ_injective hleft)
    rwa [view_eq_of_orders_eq_nil hwf'.valid hnil] at hwf'

/-- **One round**: the order is placed and canceled if there is a block left for its level. -/
lemma Churned.round (h : Churned k b) (htype : r.type = .new) (hin : InRange r)
    (hs : r.side.IsBookSide) (hqty : 0 < r.qty) :
    Safe (fun f => f = .overrun ∧ ¬ k + 1 < meMaxPriceLevels) (Churned (k + 1))
      ([r, { r with type := .cancel }].foldlM (processClientRequest MEOrderBook.addAnnounced) b) := by
  rw [List.foldlM_cons]
  refine (h.place htype hin hs hqty).bind ?_
  rintro b₁ ⟨hserved, hindexed, ⟨p, hfind⟩, v, x, hwf, honly⟩
  obtain ⟨b', hb', hchurned⟩ := safe_cancel_only (r := r) hwf hindexed hserved hin hfind honly
  have hprocess : processClientRequest MEOrderBook.addAnnounced b₁ { r with type := .cancel } = .ok b' := hb'
  rw [List.foldlM_cons, hprocess]
  exact hchurned

/-- **An order that is placed and canceled again and again**, on a book that nobody else uses, gets
through `n` rounds exactly if `n < ME_MAX_PRICE_LEVELS`. At most one order rests at any time, and still
the next round reads behind the store of the pool of levels. -/
theorem churn_completes_iff (htype : r.type = .new) (hin : InRange r) (hs : r.side.IsBookSide)
    (hqty : 0 < r.qty) (n : ℕ) :
    ((∃ b, (List.replicate n [r, { r with type := .cancel }]).flatten.foldlM
        (processClientRequest MEOrderBook.addAnnounced) .new = .ok b) ↔ n < meMaxPriceLevels) ∧
      ((List.replicate n [r, { r with type := .cancel }]).flatten.foldlM
        (processClientRequest MEOrderBook.addAnnounced) .new = .error .overrun ↔
          ¬ n < meMaxPriceLevels) := by
  have hrounds : ∀ k b, Churned k b →
      Safe (fun f => f = .overrun ∧ ¬ k + n < meMaxPriceLevels) (Churned (k + n))
        ((List.replicate n [r, { r with type := .cancel }]).flatten.foldlM
          (processClientRequest MEOrderBook.addAnnounced) b) := by
    induction n with
    | zero => exact fun k b hb => hb
    | succ n ih =>
      intro k b hb
      rw [List.replicate_succ, List.flatten_cons, List.foldlM_append]
      refine Safe.bind ((hb.round htype hin hs hqty).mono (fun f hf => ⟨hf.1, by omega⟩)
        fun _ hb' => hb') fun b' hb' => ?_
      have hrest := ih (k + 1) b' hb'
      rwa [Nat.add_right_comm, Nat.add_assoc] at hrest
  have hrun := hrounds 0 .new churned_new
  rw [Nat.zero_add] at hrun
  exact hrun.exact fun _ hb => hb.served.level.lt

end Churn

/-- One client stops the exchange with 256 orders, none of which rests beside another. -/
theorem churn_overruns :
    (List.replicate 256
        [({ type := .new, clientId := 1, tickerId := 0, orderId := 1, side := .buy, price := 10,
            qty := 5 } : MEClientRequest),
         { type := .cancel, clientId := 1, tickerId := 0, orderId := 1, side := .buy, price := 10,
           qty := 5 }]).flatten.foldlM
      (processClientRequest MEOrderBook.addAnnounced) .new = .error .overrun :=
  (churn_completes_iff rfl (by unfold InRange; decide) (.inl rfl) (by decide) 256).2.mpr (by decide)

end Exchange
