import HftSystem.Trading.BookClear

set_option relaxedAutoImplicit false
set_option autoImplicit false

/-!
# Reading a client's book

The lists of a book as a reader follows them: from the best level of a side along `next_entry_`,
and in every level from the first order along `next_order_`, as `MarketOrderBook::toString` does.
On a well-formed book this is the contents of the view.

## Main definitions

* `Trading.MarketOrderBook.readSide` — the prices and the queues of a side.
* `Trading.quote` — the price and the quantity that the best bid and offer should show.
* `Trading.WellFormedUpdate` — an update that is well formed for the orders of the book.

## Main results

* `Trading.readSide_eq` — reading a well-formed book.
* `Trading.expected_of_wellFormedUpdate` — a well-formed update is what the book expects.
-/

namespace Trading

open Common Exchange LimitOrderBook PriceTime Fallible MarketOrderBook

/-! ## Reading the lists -/

/-- The orders of a level, first in first out. -/
def MarketOrderBook.readQueue (b : MarketOrderBook) (a : Ptr) : Except Fault (List MarketOrder) := do
  let first ← deref (b.level a).firstOrder
  let second ← deref (b.node first).nextOrder
  let others ← walk (fun p => (b.node p).nextOrder) first (b.orderPool.size + 1) second
  return (first :: others).map fun p => (b.node p).order

/-- The price and the orders of a level. -/
def MarketOrderBook.readLevel (b : MarketOrderBook) (a : Ptr) :
    Except Fault (ℤ × List MarketOrder) := do
  let queue ← b.readQueue a
  return ((b.level a).price, queue)

/-- The levels of a side, best first. -/
def MarketOrderBook.readSide (b : MarketOrderBook) (s : Side) :
    Except Fault (List (ℤ × List MarketOrder)) :=
  match b.bestOrdersByPrice s with
  | none => .ok []
  | some best => do
    let next ← deref (b.level best).nextEntry
    let others ← walk (fun a => (b.level a).nextEntry) best (b.ordersAtPricePool.size + 1) next
    (best :: others).mapM b.readLevel

section Reading

variable {b : MarketOrderBook} {v : View MarketOrder} {s : Side}

/-- Reading a level of a well-formed book. -/
lemma readLevel_eq (h : WellFormed b v) {l : Level MarketOrder} (hl : l ∈ v.levels) :
    b.readLevel l.addr = .ok l.contents := by
  obtain ⟨x, q, hq⟩ := List.exists_cons_of_ne_nil (h.valid.nonempty l hl)
  obtain ⟨hfirst, p, hnext, hwalk⟩ := h.repr.walk_queue hl hq
  have hat := h.repr.shape.heap.levelAt l hl
  have hrecords : (x.1 :: q.map Prod.fst).map (fun p => (b.node p).order) = l.queue.map Prod.snd := by
    rw [hq, ← List.map_cons, List.map_map]
    refine List.map_congr_left fun y hy => ?_
    exact hat.record y (hq ▸ hy)
  simp only [readLevel, readQueue, hfirst, hnext, deref_some, ok_bind, hwalk, hat.price,
    Level.contents]
  rw [← hrecords]
  rfl

/-- **Reading a side of a well-formed book** yields the contents of the view. -/
theorem readSide_eq (h : WellFormed b v) (hs : s.IsBookSide) : b.readSide s = .ok (v.contents s) := by
  have hlevels : ∀ ls : List (Level MarketOrder), (∀ l ∈ ls, l ∈ v.levels) →
      (addrs ls).mapM b.readLevel = .ok (ls.map Level.contents) := by
    intro ls hls
    induction ls with
    | nil => rfl
    | cons l ls ih =>
      rw [addrs_cons, List.mapM_cons, readLevel_eq h (hls l (List.mem_cons_self ..)), ok_bind,
        ih fun m hm => hls m (List.mem_cons_of_mem _ hm)]
      rfl
  cases hv : v.side s with
  | nil =>
    have hbest : b.bestOrdersByPrice s = none := by
      rw [(h.repr.shape.spine s hs).best, hv]
      rfl
    simp only [readSide, hbest, View.contents, hv]
    rfl
  | cons l ls =>
    obtain ⟨hbest, a, hnext, hwalk⟩ := h.repr.shape.walk_side hs hv
    simp only [readSide, hbest, hnext, deref_some, ok_bind, hwalk, View.contents]
    rw [hv, ← addrs_cons]
    exact hlevels _ fun m hm => View.mem_levels_of_side (hv ▸ hm)

/-- Stale entries of the table are not read. -/
lemma readSide_hidden {S : ℕ → Bool} (h : WellFormed (b.hidden S) v) (hs : s.IsBookSide) :
    b.readSide s = .ok (v.contents s) :=
  (show b.readSide s = (b.hidden S).readSide s from rfl).trans (readSide_eq h hs)

end Reading

/-- The price of the best level and the `uint32_t` sum of the quantities of its orders, or the
invalid price and quantity for an empty side. -/
def quote : List (ℤ × List MarketOrder) → ℤ × ℕ
  | [] => (Price.invalid, Qty.invalid)
  | (price, queue) :: _ => (price, (queue.map MarketOrder.qty).sum % 2 ^ 32)

/-- The loop of `updateBBO` adds modulo `2 ^ 32`, starting from a quantity that fits. -/
lemma foldl_addQty (qs : List ℕ) {q : ℕ} (hq : q < 2 ^ 32) :
    qs.foldl addQty q = (q + qs.sum) % 2 ^ 32 := by
  induction qs generalizing q with
  | nil => exact (Nat.mod_eq_of_lt hq).symm
  | cons r qs ih =>
    have hlt : addQty q r < 2 ^ 32 := Nat.mod_lt _ (by decide)
    rw [List.foldl_cons, ih hlt, List.sum_cons, addQty, Nat.mod_add_mod, Nat.add_assoc]

/-- The best level of a side, if the quantities are `uint32_t`. -/
lemma top_eq_quote {v : View MarketOrder} {s : Side} (hv : v.Valid)
    (hqty : ∀ o ∈ listed (v.contents s), o.qty < 2 ^ 32) : top (v.side s) = quote (v.contents s) := by
  cases hside : v.side s with
  | nil => simp [View.contents, hside, top, quote]
  | cons l ls =>
    have hl : l ∈ v.levels := View.mem_levels_of_side (s := s) (by simp [hside])
    obtain ⟨x, q, hq⟩ := List.exists_cons_of_ne_nil (hv.nonempty l hl)
    have hx : x.2.qty < 2 ^ 32 := hqty x.2 (by simp [View.contents, hside, Level.contents, hq])
    simp only [top, View.contents, hside, List.map_cons, Level.contents, quote, hq, queueQty,
      foldl_addQty _ hx, List.map_map]
    rfl

/-! ## Well-formed updates -/

/-- **A well-formed update**: an ADD names a side and has an id that no order of the book has, its
price keeps the bids below the asks and is equal or not congruent to the prices of the book, and its
quantity is a `uint32_t`; a MODIFY or a CANCEL names an order of the book with its side and price. -/
structure WellFormedUpdate (b : MarketOrderBook) (u : MEMarketUpdate) : Prop where
  sound : u.type = .add ∨ u.type = .modify ∨ u.type = .cancel → Sound b u
  price : u.type = .add → ∀ p, b.orderPool.InUse p →
    (b.node p).order.price ≡ u.price [ZMOD meMaxPriceLevels] → (b.node p).order.price = u.price
  uncrossed : u.type = .add → ∀ p, b.orderPool.InUse p →
    ((b.node p).order.side = .buy → u.side = .sell → (b.node p).order.price < u.price) ∧
      ((b.node p).order.side = .sell → u.side = .buy → u.price < (b.node p).order.price)
  qty : u.qty < 2 ^ 32

/-- **The bucket of a well-formed ADD holds no foreign level.** -/
lemma findsOwnLevel_of_wellFormedUpdate {b : MarketOrderBook} {v : View MarketOrder}
    (h : WellFormed b v) {u : MEMarketUpdate} (hu : WellFormedUpdate b u) :
    UpdateFindsOwnLevel b u := by
  intro htype
  refine (findsOwnLevel_iff h.repr.shape.heap).mpr fun l hl hbucket => ?_
  obtain ⟨s, hs, hls⟩ := View.mem_levels.mp hl
  obtain ⟨x, q, hq⟩ := List.exists_cons_of_ne_nil (h.valid.nonempty l hl)
  have hx : x ∈ l.queue := by simp [hq]
  obtain ⟨hside, hhome⟩ := h.valid.homed s hs l hls
  obtain ⟨hxs, hxp⟩ := hhome x hx
  have hrecord := (h.repr.shape.heap.levelAt l hl).record x hx
  have hinUse : b.orderPool.InUse x.1 :=
    h.inUse_iff.mpr ⟨x, mem_orders.mpr ⟨l, hl, hx⟩, rfl, hrecord⟩
  have hprice := hu.price htype x.1 hinUse
  obtain ⟨hbuy, hsell⟩ := hu.uncrossed htype x.1 hinUse
  have hxs : x.2.side = s := hxs
  have hxp : x.2.price = l.price := hxp
  rw [hrecord, hxp] at hprice hbuy hsell
  rw [hxs] at hbuy hsell
  have hprice := hprice (priceToIndex_eq_iff.mp hbucket)
  obtain ⟨-, hus, -⟩ : u.type = .add ∧ u.side.IsBookSide ∧ _ :=
    (hu.sound (.inl htype)).resolve_right fun hx => by
      rcases hx.1 with hx | hx <;> simp [htype] at hx
  refine ⟨hprice, hside.trans ?_⟩
  -- bids below asks: a level at the same price is on the same side
  rcases hs with rfl | rfl <;> rcases hus with hus | hus <;> rw [hus]
  · exact absurd hprice (hbuy rfl hus).ne
  · exact absurd hprice.symm (hsell rfl hus).ne

/-- **A well-formed update is what the book expects**, stale entries aside. -/
lemma expected_of_wellFormedUpdate {b : MarketOrderBook} {v : View MarketOrder} {S : ℕ → Bool}
    (h : WellFormed (b.hidden S) v) {u : MEMarketUpdate} (hu : WellFormedUpdate b u)
    (htype : u.type ≠ .clear) : Expected v u := by
  have hu' : WellFormedUpdate (b.hidden S) u := ⟨hu.sound, hu.price, hu.uncrossed, hu.qty⟩
  have hfinds := findsOwnLevel_of_wellFormedUpdate h hu'
  cases ht : u.type with
  | add => exact expected_of_sound h (hu'.sound (.inl ht)) hfinds
  | modify => exact expected_of_sound h (hu'.sound (.inr (.inl ht))) hfinds
  | cancel => exact expected_of_sound h (hu'.sound (.inr (.inr ht))) hfinds
  | clear => exact absurd ht htype
  | trade | invalid | snapshotStart | snapshotEnd => simp only [Expected, ht]

/-- A first bid. -/
def firstBid : MEMarketUpdate :=
  { type := .add, orderId := 1, tickerId := 0, side := .buy, price := 10, qty := 5, priority := 1 }

/-- It is a well-formed update of a new book. -/
lemma wellFormedUpdate_firstBid :
    Meets MarketOrderBook.onMarketUpdate WellFormedUpdate MarketOrderBook.new [firstBid] := by
  have hempty : ∀ p, ¬ MarketOrderBook.new.orderPool.InUse p := MemPool.not_inUse_new _
  refine ⟨⟨fun _ => .inl ⟨rfl, .inl rfl, ?_⟩, ?_, ?_, by decide⟩, fun _ _ => trivial⟩
  · exact fun p hp => absurd hp (hempty p)
  · exact fun _ p hp => absurd hp (hempty p)
  · exact fun _ p hp => absurd hp (hempty p)

end Trading
