import HftSystem.Common.StaleTable
import HftSystem.Trading.LevelOwnership

set_option relaxedAutoImplicit false
set_option autoImplicit false

/-!
# What CLEAR leaves behind

CLEAR frees every order and every level of a client's book and empties its lists and the table of
orders. The table of price levels keeps its entries, which now point to levels that are free. The
later updates treat the book as an empty one as long as no order is added whose bucket has such an
entry.

## Main definitions

* `Trading.MarketOrderBook.overlay` — the book with other entries for some buckets.
* `Trading.MarketOrderBook.hidden` — the book without the entries of some buckets.

## Main results

* `Trading.clear_spec` — CLEAR frees every block.
* `Trading.onMarketUpdate_overlay` — an update does not see the entries of other buckets.
* `Trading.safe_onMarketUpdate_hidden` — a book with stale entries follows an expected update.
* `Trading.bbo_onMarketUpdate` — the best bid and offer after an update.
* `Trading.onMarketUpdate_clear` — a CLEAR empties the book and keeps the table of price levels.
-/

namespace Common.MemPool

variable {T : Type}

/-- **Deallocating different blocks in use** succeeds and frees them. -/
lemma foldlM_deallocate {pool : MemPool T} {as : List Ptr} (hnd : as.Nodup)
    (h : ∀ a ∈ as, pool.InUse a) :
    ∃ pool', as.foldlM MemPool.deallocate pool = .ok pool' ∧
      (∀ a, pool'.InUse a ↔ pool.InUse a ∧ a ∉ as) ∧ pool'.size = pool.size ∧
      pool'.nextFreeIndex = pool.nextFreeIndex := by
  induction as generalizing pool with
  | nil => exact ⟨pool, rfl, by simp, rfl, rfl⟩
  | cons a as ih =>
    obtain ⟨ha, hnd⟩ := List.nodup_cons.mp hnd
    have htail : ∀ c ∈ as, (pool.release a).InUse c := fun c hc =>
      (inUse_release pool a c).mpr ⟨fun he => ha (he ▸ hc), h c (List.mem_cons_of_mem _ hc)⟩
    obtain ⟨pool', hpool', hinUse, hsize, hnext⟩ := ih hnd htail
    refine ⟨pool', ?_, fun c => ?_, hsize, hnext⟩
    · rw [List.foldlM_cons, deallocate_eq (h a (List.mem_cons_self ..))]
      exact hpool'
    · rw [hinUse, inUse_release, List.mem_cons, not_or]
      tauto

end Common.MemPool

namespace Trading

open Common Exchange LimitOrderBook PriceTime Fallible MarketOrderBook CircularList

/-! ## CLEAR -/

/-- Deallocating the orders of a table is deallocating the blocks it names. -/
lemma foldlM_table {T : Type} (index : ℕ → Option Ptr) (ids : List ℕ) (pool : MemPool T) :
    ids.foldlM (fun pool orderId =>
        match index orderId with
        | some order => pool.deallocate order
        | none => .ok pool) pool = (ids.filterMap index).foldlM MemPool.deallocate pool := by
  induction ids generalizing pool with
  | nil => rfl
  | cons i ids ih =>
    rw [List.foldlM_cons, List.filterMap_cons]
    cases index i with
    | none => exact ih pool
    | some order =>
      rw [List.foldlM_cons]
      exact bind_congr fun pool => ih pool

/-- **The loop over the table of orders** frees all orders. -/
lemma deallocateOrders_spec {b : MarketOrderBook} {v : View MarketOrder} (h : WellFormed b v) :
    ∃ pool, b.deallocateOrders = .ok pool ∧ (∀ p, ¬ pool.InUse p) ∧
      pool.size = b.orderPool.size ∧ pool.nextFreeIndex = b.orderPool.nextFreeIndex := by
  have hused : ∀ p, b.orderPool.InUse p ↔ ∃ k < meMaxOrderIds, b.orderIndex k = some p := by
    intro p
    rw [h.repr.ledger.inUse, mem_ptrs]
    constructor
    · rintro ⟨x, hx, rfl⟩
      obtain ⟨k, hk, hxk⟩ := h.index x hx
      obtain ⟨hlt, rfl⟩ := orderSlot_eq_some.mp hk
      exact ⟨_, hlt, hxk⟩
    · rintro ⟨k, -, hk⟩
      obtain ⟨x, hx, hxp, -⟩ := h.repr.ledger.index k p hk
      exact ⟨x, hx, hxp⟩
  have hinj : ∀ k k' p, p ∈ b.orderIndex k → p ∈ b.orderIndex k' → k = k' := by
    intro k k' p hk hk'
    obtain ⟨x, hx, rfl, hxk⟩ := h.repr.ledger.index k p hk
    obtain ⟨y, hy, hyx, hyk⟩ := h.repr.ledger.index k' _ hk'
    rw [h.repr.shape.heap.eq_of_ptr hy hx hyx] at hyk
    exact Option.some_inj.mp (hxk.symm.trans hyk)
  have hnd : ((List.range meMaxOrderIds).filterMap b.orderIndex).Nodup :=
    List.nodup_range.filterMap hinj
  have hnamed : ∀ p ∈ (List.range meMaxOrderIds).filterMap b.orderIndex, b.orderPool.InUse p := by
    intro p hp
    obtain ⟨k, hk, hkp⟩ := List.mem_filterMap.mp hp
    exact (hused p).mpr ⟨k, List.mem_range.mp hk, hkp⟩
  obtain ⟨pool, hpool, hinUse, hsame⟩ := MemPool.foldlM_deallocate hnd hnamed
  refine ⟨pool, (foldlM_table _ _ _).trans hpool, fun p hp => ?_, hsame⟩
  obtain ⟨hp, hnot⟩ := (hinUse p).mp hp
  obtain ⟨k, hk, hkp⟩ := (hused p).mp hp
  exact hnot (List.mem_filterMap.mpr ⟨k, List.mem_range.mpr hk, hkp⟩)

/-- **The loops over the levels of a side** free them. -/
lemma deallocateLevels_spec {b : MarketOrderBook} {v : View MarketOrder}
    (h : Shape b.toLimitOrderBook v) {s : Side} (hs : s.IsBookSide) {pool : MemPool OrdersAtPrice}
    (hpool : ∀ a ∈ addrs (v.side s), pool.InUse a) :
    ∃ pool', b.deallocateLevels (b.bestOrdersByPrice s) pool = .ok pool' ∧
      ∀ a, pool'.InUse a ↔ pool.InUse a ∧ a ∉ addrs (v.side s) := by
  cases hv : v.side s with
  | nil =>
    rw [(h.spine s hs).best, hv]
    exact ⟨pool, rfl, by simp⟩
  | cons l ls =>
    have hnd : (addrs (v.side s)).Nodup := h.heap.addr_nodup.sublist ((v.side_sublist s).map _)
    rw [hv, addrs_cons] at hpool hnd
    obtain ⟨hl, hnd⟩ := List.nodup_cons.mp hnd
    obtain ⟨hbest, a, hnext, hwalk⟩ := h.walk_side hs hv
    obtain ⟨pool₁, hpool₁, hinUse₁, -⟩ := MemPool.foldlM_deallocate hnd fun c hc =>
      hpool c (List.mem_cons_of_mem _ hc)
    have hbestUse : pool₁.InUse l.addr := (hinUse₁ _).mpr ⟨hpool _ (List.mem_cons_self ..), hl⟩
    refine ⟨pool₁.release l.addr, ?_, fun c => ?_⟩
    · simp only [deallocateLevels, hbest, hnext, deref_some, ok_bind, hwalk, hpool₁,
        MemPool.deallocate_eq hbestUse]
    · rw [MemPool.inUse_release, hinUse₁, addrs_cons, List.mem_cons, not_or]
      tauto

/-- What CLEAR leaves of `b`: no block of the two pools is in use, and the lists and the table of
orders are empty. -/
structure Cleared (b b' : MarketOrderBook) : Prop where
  levels : ∀ a, ¬ b'.ordersAtPricePool.InUse a
  orders : ∀ p, ¬ b'.orderPool.InUse p
  bids : b'.bidsByPrice = none
  asks : b'.asksByPrice = none
  index : ∀ k, b'.orderIndex k = none
  size : b'.orderPool.size = b.orderPool.size
  next : b'.orderPool.nextFreeIndex = b.orderPool.nextFreeIndex

/-- **CLEAR** of a well-formed book. -/
theorem clear_spec {b : MarketOrderBook} {v : View MarketOrder} (h : WellFormed b v) :
    ∃ b', b.clear = .ok b' ∧ Cleared b b' := by
  obtain ⟨orderPool, horders, hfree, hsize, hnext⟩ := deallocateOrders_spec h
  set b₁ : MarketOrderBook := { b with orderPool, orderIndex := fun _ => none } with hb₁
  have hshape := h.repr.shape
  have hinUse : ∀ s, s.IsBookSide → ∀ a ∈ addrs (v.side s), b.ordersAtPricePool.InUse a := by
    intro s hs a ha
    obtain ⟨l, hl, rfl⟩ := mem_addrs.mp ha
    exact (hshape.heap.inUse _).mpr (mem_addrs.mpr ⟨l, View.mem_levels_of_side hl, rfl⟩)
  obtain ⟨pool₁, hpool₁, hinUse₁⟩ := deallocateLevels_spec hshape (.inl rfl) (hinUse .buy (.inl rfl))
  -- the levels of the two sides are different blocks
  have hasks : ∀ a ∈ addrs (v.side .sell), pool₁.InUse a := by
    refine fun a ha => (hinUse₁ a).mpr ⟨hinUse .sell (.inr rfl) a ha, fun hbid => ?_⟩
    have hnd : (addrs v.bids ++ addrs v.asks).Nodup := by
      rw [← addrs_append]
      exact hshape.heap.addr_nodup
    exact (List.nodup_append.mp hnd).2.2 a hbid a ha rfl
  obtain ⟨pool₂, hpool₂, hinUse₂⟩ := deallocateLevels_spec hshape (.inr rfl) hasks
  refine ⟨{ b₁ with ordersAtPricePool := pool₂, bidsByPrice := none, asksByPrice := none }, ?_, ?_⟩
  · have hbids : b₁.deallocateLevels b₁.bidsByPrice b₁.ordersAtPricePool = .ok pool₁ := hpool₁
    have hasks : b₁.deallocateLevels b₁.asksByPrice pool₁ = .ok pool₂ := hpool₂
    simp only [clear, horders, ok_bind]
    rw [← hb₁, hbids, ok_bind, hasks]
    rfl
  · refine ⟨fun a ha => ?_, hfree, rfl, rfl, fun _ => rfl, hsize, hnext⟩
    obtain ⟨ha, hask⟩ := (hinUse₂ a).mp ha
    obtain ⟨ha, hbid⟩ := (hinUse₁ a).mp ha
    have ha := (hshape.heap.inUse a).mp ha
    rw [View.levels, addrs_append, List.mem_append] at ha
    exact ha.elim hbid hask

/-! ## Updates and the entries of other buckets -/

namespace MarketOrderBook

variable {S : ℕ → Bool} {t : ℕ → Option Ptr}

/-- The book with the entries of `t` in the table for the buckets in `S`. -/
def overlay (S : ℕ → Bool) (t : ℕ → Option Ptr) (b : MarketOrderBook) : MarketOrderBook :=
  { b with toLimitOrderBook := b.toLimitOrderBook.overlay S t }

/-- CLEAR does not look at the table of levels. -/
lemma clear_overlay (b : MarketOrderBook) : (b.overlay S t).clear = overlay S t <$> b.clear := by
  have horders : (b.overlay S t).deallocateOrders = b.deallocateOrders := rfl
  simp only [clear, horders, map_bind]
  rfl

/-- Neither does the reading of the best level. -/
lemma topOfBook_overlay (b : MarketOrderBook) (best : Option Ptr) :
    (b.overlay S t).topOfBook best = b.topOfBook best := rfl

/-- Neither does `updateBBO`. -/
lemma updateBBO_overlay (b : MarketOrderBook) (updateBid updateAsk : Bool) :
    (b.overlay S t).updateBBO updateBid updateAsk =
      overlay S t <$> b.updateBBO updateBid updateAsk := by
  have hbid (b : MarketOrderBook) : (b.overlay S t).updateBid updateBid =
      overlay S t <$> b.updateBid updateBid := by
    cases updateBid
    · rfl
    · simp only [MarketOrderBook.updateBid, if_true, topOfBook_overlay, map_bind]
      rfl
  have hask (b : MarketOrderBook) : (b.overlay S t).updateAsk updateAsk =
      overlay S t <$> b.updateAsk updateAsk := by
    cases updateAsk
    · rfl
    · simp only [MarketOrderBook.updateAsk, if_true, topOfBook_overlay, map_bind]
      rfl
  simp only [updateBBO, hbid, bind_map_left, hask, map_bind]

/-- An operation of the lists beside stale entries. -/
lemma onBook_overlay (b : MarketOrderBook)
    {f : LimitOrderBook MarketOrder ℕ → Except Fault (LimitOrderBook MarketOrder ℕ)}
    (h : f (b.toLimitOrderBook.overlay S t) = LimitOrderBook.overlay S t <$> f b.toLimitOrderBook) :
    (b.overlay S t).onBook f = overlay S t <$> b.onBook f := by
  simp only [onBook, overlay, h, bind_map_left, map_bind]
  rfl

end MarketOrderBook

/-- The steps of an ADD. -/
lemma applyUpdate_add (b : MarketOrderBook) {u : MEMarketUpdate} (h : u.type = .add) :
    b.applyUpdate u = b.orderPool.allocate { order := record u } >>= fun r =>
      { b with orderPool := r.2 }.onBook fun book => book.addOrder r.1 := by
  simp only [applyUpdate, h]

/-- The steps of a CANCEL. -/
lemma applyUpdate_cancel (b : MarketOrderBook) {u : MEMarketUpdate} (h : u.type = .cancel) :
    b.applyUpdate u = b.orderAt u.orderId >>= fun order =>
      b.onBook fun book => book.removeOrder order := by
  simp only [applyUpdate, h]

/-- The update is about no bucket in `S`: neither an ADD nor a CANCEL has its price there. -/
def Avoids (b : MarketOrderBook) (S : ℕ → Bool) (u : MEMarketUpdate) : Prop :=
  (u.type = .add → S (priceToIndex u.price) = false) ∧
    (u.type = .cancel → ∀ p, b.orderAt u.orderId = .ok p →
      S (priceToIndex (b.node p).order.price) = false)

/-- **An update does not see the entries of other buckets.**

**Proof sketch.** By the type of the update. An ADD looks at the bucket of its price and a CANCEL at
the bucket of its order, which are none of `S`, so they run on both books alike (`addOrder_overlay`,
`removeOrder_overlay`). A CLEAR and a MODIFY look at no bucket, and neither do the best prices
(`updateBBO_overlay`). -/
theorem onMarketUpdate_overlay {b : MarketOrderBook} {S : ℕ → Bool} {t : ℕ → Option Ptr}
    {u : MEMarketUpdate} (h : Avoids b S u) :
    (b.overlay S t).onMarketUpdate u = MarketOrderBook.overlay S t <$> b.onMarketUpdate u := by
  have happly : (b.overlay S t).applyUpdate u = MarketOrderBook.overlay S t <$> b.applyUpdate u := by
    cases htype : u.type with
    | add =>
      rw [applyUpdate_add _ htype, applyUpdate_add _ htype, map_bind]
      cases hal : b.orderPool.allocate { order := record u } with
      | error f =>
        have hal' : (b.overlay S t).orderPool.allocate { order := record u } = .error f := hal
        rw [hal']
        rfl
      | ok r =>
        have hal' : (b.overlay S t).orderPool.allocate { order := record u } = .ok r := hal
        have hget := ((MemPool.safe_allocate _ _).of_eq_ok hal).get
        rw [hal']
        refine onBook_overlay { b with orderPool := r.2 } (f := fun book => book.addOrder r.1)
          (addOrder_overlay _ ?_)
        simp only [node, hget, Function.update_self]
        exact h.1 htype
    | cancel =>
      rw [applyUpdate_cancel _ htype, applyUpdate_cancel _ htype, map_bind]
      cases hat : b.orderAt u.orderId with
      | error f =>
        have hat' : (b.overlay S t).orderAt u.orderId = .error f := hat
        rw [hat']
        rfl
      | ok p =>
        have hat' : (b.overlay S t).orderAt u.orderId = .ok p := hat
        rw [hat']
        exact onBook_overlay b (f := fun book => book.removeOrder p)
          (removeOrder_overlay _ (h.2 htype p hat))
    | modify =>
      simp only [applyUpdate, htype, map_bind]
      rfl
    | clear =>
      simp only [applyUpdate, htype]
      exact clear_overlay b
    | trade | invalid | snapshotStart | snapshotEnd =>
      simp only [applyUpdate, htype]
      rfl
  unfold onMarketUpdate
  split
  · rfl
  · simp only [happly, bind_map_left, updateBBO_overlay, map_bind]
    rfl

/-- The entries for the buckets that an update is not about stay. -/
lemma table_onMarketUpdate {b b' : MarketOrderBook} {S : ℕ → Bool} {u : MEMarketUpdate}
    (h : Avoids b S u) (hb' : b.onMarketUpdate u = .ok b') {i : ℕ} (hi : S i = true) :
    b'.priceOrdersAtPrice i = b.priceOrdersAtPrice i := by
  have hself : b.overlay S b.priceOrdersAtPrice = b := by
    simp only [MarketOrderBook.overlay, LimitOrderBook.overlay, ite_self]
  have hrun := onMarketUpdate_overlay (t := b.priceOrdersAtPrice) h
  rw [hself, hb'] at hrun
  have hbook : b' = b'.overlay S b.priceOrdersAtPrice := Except.ok.inj hrun
  have hi' : (b'.overlay S b.priceOrdersAtPrice).priceOrdersAtPrice i = b.priceOrdersAtPrice i :=
    if_pos hi
  rwa [← hbook] at hi'

/-! ## Books with stale entries -/

/-- The book without the entries of the table for the buckets in `S`. -/
def MarketOrderBook.hidden (S : ℕ → Bool) (b : MarketOrderBook) : MarketOrderBook :=
  b.overlay S fun _ => none

section Hidden

variable {b b' : MarketOrderBook} {v : View MarketOrder} {S : ℕ → Bool} {u : MEMarketUpdate}

/-- The level in the bucket of an order that a CANCEL names is live. -/
lemma WellFormed.avoids_cancel (h : WellFormed (b.hidden S) v) (hu : Expected v u)
    (htype : u.type = .cancel) {p : Ptr} (hp : b.orderAt u.orderId = .ok p) :
    S (priceToIndex (b.node p).order.price) = false := by
  simp only [Expected, htype] at hu
  obtain ⟨s, l, l₁, l₂, q₁, q₂, x, hs, hv, hq, -, -, hprice, hat⟩ := orderAt_eq h hu
  obtain rfl : x.1 = p := Except.ok.inj (hat.symm.trans hp)
  have hl : l ∈ v.levels := View.mem_levels_of_side (s := s) (by simp [hv])
  have hrecord := (h.repr.shape.heap.levelAt l hl).record x (by simp [hq])
  have hbucket := h.repr.shape.heap.bucket_of_mem hl x.2.price (by rw [hprice])
  have hnode : (b.node x.1).order = x.2 := hrecord
  rw [hnode]
  by_contra hS
  have hnone : (b.hidden S).getOrdersAtPrice x.2.price = none := if_pos (by simpa using hS)
  rw [hnone] at hbucket
  cases hbucket

/-- An expected update avoids the hidden buckets if an ADD does. -/
lemma WellFormed.avoids (h : WellFormed (b.hidden S) v) (hu : Expected v u)
    (hadd : u.type = .add → S (priceToIndex u.price) = false) : Avoids b S u :=
  ⟨hadd, fun htype _ hp => h.avoids_cancel hu htype hp⟩

/-- **A book with stale entries follows an expected update** that is not about their buckets. -/
theorem safe_onMarketUpdate_hidden (h : WellFormed (b.hidden S) v) (hu : Expected v u)
    (hadd : u.type = .add → S (priceToIndex u.price) = false) :
    Safe (UpdateFault u) (fun b' => ∃ v', WellFormed (b'.hidden S) v' ∧
      ∀ s, s.IsBookSide → v'.contents s = effect u s (v.contents s)) (b.onMarketUpdate u) := by
  have hsafe := safe_onMarketUpdate h hu
  rw [MarketOrderBook.hidden, onMarketUpdate_overlay (h.avoids hu hadd)] at hsafe
  cases hb : b.onMarketUpdate u with
  | error f =>
    rw [hb] at hsafe
    exact hsafe
  | ok b' =>
    rw [hb] at hsafe
    exact hsafe

/-- **CLEAR** of a book with stale entries. -/
theorem clear_hidden (h : WellFormed (b.hidden S) v) : ∃ b', b.clear = .ok b' ∧ Cleared b b' := by
  obtain ⟨b₁, hb₁, hc⟩ := clear_spec h
  rw [MarketOrderBook.hidden, clear_overlay] at hb₁
  cases hb : b.clear with
  | error f =>
    rw [hb] at hb₁
    cases hb₁
  | ok b' =>
    rw [hb] at hb₁
    obtain rfl : b'.overlay S (fun _ => none) = b₁ := Except.ok.inj hb₁
    exact ⟨b', rfl, hc.levels, hc.orders, hc.bids, hc.asks, hc.index, hc.size, hc.next⟩

/-- A cleared book is empty once the entries of its table are hidden. -/
lemma Cleared.wellFormed {b₀ : MarketOrderBook} (h : Cleared b₀ b)
    (hS : ∀ i, S i = false → b.priceOrdersAtPrice i = none) : WellFormed (b.hidden S) {} := by
  have hbest : ∀ s : Side, s.IsBookSide → b.bestOrdersByPrice s = none := by
    rintro s (rfl | rfl)
    · exact h.bids
    · exact h.asks
  have htable : ∀ i, (b.hidden S).priceOrdersAtPrice i = none := fun i => by
    simp only [MarketOrderBook.hidden, MarketOrderBook.overlay, LimitOrderBook.overlay]
    split_ifs with hi
    · rfl
    · exact hS i (by simpa using hi)
  refine ⟨⟨⟨fun s hs => ⟨?_, ?_⟩, ?_⟩, ?_⟩, View.valid_empty, ?_⟩
  · refine (hbest s hs).trans ?_
    rcases hs with rfl | rfl <;> rfl
  · rcases hs with rfl | rfl <;> trivial
  · refine ⟨List.nodup_nil, List.nodup_nil, by simp [View.levels], fun i a => ?_, fun a => ?_⟩
    · rw [htable i]
      simp [View.levels]
    · exact iff_of_false (h.levels a) (by simp [View.levels])
  · refine ⟨fun p => ?_, by simp [View.levels], fun k p hk => ?_⟩
    · exact iff_of_false (h.orders p) (by simp [View.levels, ptrs])
    · exact absurd ((h.index k).symm.trans hk) (by simp)
  · simp [View.levels]

/-- The best bid and offer of a book with stale entries. -/
lemma updateBBO_hidden (h : WellFormed (b.hidden S) v) (updateBid updateAsk : Bool) :
    b.updateBBO updateBid updateAsk = .ok { b with bbo := b.bbo.refresh v updateBid updateAsk } := by
  have hrun := updateBBO_eq h updateBid updateAsk
  rw [MarketOrderBook.hidden, updateBBO_overlay] at hrun
  cases hb : b.updateBBO updateBid updateAsk with
  | error f =>
    rw [hb] at hrun
    cases hrun
  | ok b' =>
    rw [hb] at hrun
    have hbbo : b'.bbo = b.bbo.refresh v updateBid updateAsk :=
      congrArg MarketOrderBook.bbo (Except.ok.inj hrun)
    have hbook := toLimitOrderBook_of_updateBBO hb
    obtain ⟨book, bbo⟩ := b'
    obtain rfl : book = b.toLimitOrderBook := hbook
    obtain rfl : bbo = b.bbo.refresh v updateBid updateAsk := hbbo
    rfl

end Hidden

/-- The operations on the lists do not touch the best bid and offer. -/
lemma bbo_applyUpdate {b b' : MarketOrderBook} {u : MEMarketUpdate} (h : b.applyUpdate u = .ok b') :
    b'.bbo = b.bbo := by
  have honBook : ∀ {c c' : MarketOrderBook} {f}, c.onBook f = .ok c' → c'.bbo = c.bbo := by
    intro c c' f hc
    obtain ⟨book, -, hc⟩ := bind_eq_ok.mp hc
    cases hc
    rfl
  cases htype : u.type with
  | add =>
    rw [applyUpdate_add b htype] at h
    obtain ⟨r, -, h⟩ := bind_eq_ok.mp h
    exact honBook (c := { b with orderPool := r.2 }) h
  | cancel =>
    rw [applyUpdate_cancel b htype] at h
    obtain ⟨p, -, h⟩ := bind_eq_ok.mp h
    exact honBook h
  | modify =>
    simp only [applyUpdate, htype] at h
    obtain ⟨p, -, h⟩ := bind_eq_ok.mp h
    cases h
    rfl
  | clear =>
    simp only [applyUpdate, htype, clear] at h
    obtain ⟨orderPool, -, h⟩ := bind_eq_ok.mp h
    obtain ⟨pool, -, h⟩ := bind_eq_ok.mp h
    obtain ⟨pool', -, h⟩ := bind_eq_ok.mp h
    cases h
    rfl
  | trade | invalid | snapshotStart | snapshotEnd =>
    simp only [applyUpdate, htype] at h
    cases h
    rfl

/-- **The best bid and offer after an update** are those of the lists after it where they were
refreshed, and those of before elsewhere. -/
theorem bbo_onMarketUpdate {b b' : MarketOrderBook} {v' : View MarketOrder} {S : ℕ → Bool}
    {u : MEMarketUpdate} (htype : u.type ≠ .trade) (hb' : b.onMarketUpdate u = .ok b')
    (h' : WellFormed (b'.hidden S) v') :
    b'.bbo = b.bbo.refresh v' (b.bidUpdated u) (b.askUpdated u) := by
  unfold onMarketUpdate at hb'
  rw [if_neg htype] at hb'
  obtain ⟨b₁, hb₁, hb'⟩ := bind_eq_ok.mp hb'
  have hbook : (b₁.hidden S).toLimitOrderBook = (b'.hidden S).toLimitOrderBook :=
    congrArg (LimitOrderBook.overlay S fun _ => none) (toLimitOrderBook_of_updateBBO hb').symm
  rw [updateBBO_hidden (h'.of_book hbook)] at hb'
  rw [← bbo_applyUpdate hb₁]
  exact congrArg MarketOrderBook.bbo (Except.ok.inj hb').symm

/-- **A CLEAR** of a book with stale entries leaves an empty book with the same table. -/
theorem onMarketUpdate_clear {b : MarketOrderBook} {v : View MarketOrder} {S : ℕ → Bool}
    {u : MEMarketUpdate} (htype : u.type = .clear) (h : WellFormed (b.hidden S) v) :
    ∃ b', b.onMarketUpdate u = .ok b' ∧ Cleared b b' ∧
      b'.priceOrdersAtPrice = b.priceOrdersAtPrice := by
  obtain ⟨b₁, hb₁, hc⟩ := clear_hidden h
  have hempty : WellFormed (b₁.hidden fun _ => true) {} := hc.wellFormed fun i hi => by cases hi
  have hrun : b.onMarketUpdate u =
      .ok { b₁ with bbo := b₁.bbo.refresh {} (b.bidUpdated u) (b.askUpdated u) } := by
    unfold onMarketUpdate
    simp only [htype, applyUpdate, hb₁, ok_bind]
    exact updateBBO_hidden hempty _ _
  refine ⟨_, hrun, ⟨hc.levels, hc.orders, hc.bids, hc.asks, hc.index, hc.size, hc.next⟩, ?_⟩
  have havoids : Avoids b (fun _ => true) u := ⟨by simp [htype], by simp [htype]⟩
  exact funext fun i => table_onMarketUpdate havoids hrun rfl

end Trading
