import HftSystem.Common.OrderIndex
import HftSystem.Trading.BookReading
import HftSystem.Trading.PositionKeeper

set_option relaxedAutoImplicit false
set_option autoImplicit false

/-!
# The divisors of the feature engine

`trading/strategy/feature_engine.h`. The engine divides by quantities of the best bid and offer, after it
has checked both prices. Such a quantity is a `uint32_t` sum over the orders of a level, and
`bid_qty_ + ask_qty_` is added as a `uint32_t` before it becomes a `double`. So a divisor can be zero
although all quantities are positive.

Here the levels that the best bid and offer was last refreshed from are kept along with the book, with
their orders, and the quantities are added up exactly.

## Main definitions

* `Trading.FeatureEngine` — the features, with `onOrderBookUpdate` and `onTradeUpdate`.
* `Trading.DivisorsNonzero` — the divisors are not zero where they are used.
* `Trading.QuotedBook` — a book with the levels that it quotes.
* `Trading.QuotedBook.TotalsFit` — no exact total of a quoted level is a multiple of `2 ^ 32`.

## Main results

* `Trading.features_mul` — the features are the quotients where the divisors are not zero.
* `Trading.topOfBook_eq_quote` — the best bid and offer quotes the level that it is refreshed from.
* `Trading.divisorsNonzero_iff` — the runs in which the divisors are never zero.
-/

namespace Trading

open Common Exchange LimitOrderBook PriceTime Fallible MarketOrderBook

/-! ## The features -/

/-- `FeatureEngine`. `Feature_INVALID`, which is not a number, is `none`. -/
structure FeatureEngine (F : Type) where
  mktPrice : Option F := none
  aggTradeQtyRatio : Option F := none

/-- Both prices are valid. -/
def BBO.Valid (bbo : BBO) : Prop := bbo.bidPrice ≠ Price.invalid ∧ bbo.askPrice ≠ Price.invalid

/-- Whether both prices are valid can be evaluated. -/
instance decidableValid (bbo : BBO) : Decidable bbo.Valid := inferInstanceAs (Decidable (_ ∧ _))

/-- The divisor of `onOrderBookUpdate`: `bid_qty_ + ask_qty_`, in `uint32_t`. -/
def BBO.qtySum (bbo : BBO) : ℕ := addQty bbo.bidQty bbo.askQty

/-- The divisor of `onTradeUpdate`: the quantity that a trade on the side aggresses. -/
def BBO.oppositeQty (bbo : BBO) (side : Side) : ℕ := if side = .buy then bbo.askQty else bbo.bidQty

namespace FeatureEngine

variable {F : Type} [Double F]

/-- `onOrderBookUpdate`. The ticker, the price and the side are only printed. -/
def onOrderBookUpdate (engine : FeatureEngine F) (book : MarketOrderBook) : FeatureEngine F :=
  if book.bbo.Valid then
    { engine with
      mktPrice := some ((((book.bbo.bidPrice * book.bbo.askQty + book.bbo.askPrice * book.bbo.bidQty : ℤ) : F)) /
        ((book.bbo.qtySum : ℤ) : F)) }
  else engine

/-- `onTradeUpdate`. -/
def onTradeUpdate (engine : FeatureEngine F) (u : MEMarketUpdate) (book : MarketOrderBook) :
    FeatureEngine F :=
  if book.bbo.Valid then
    { engine with aggTradeQtyRatio := some (((u.qty : ℤ) : F) / ((book.bbo.oppositeQty u.side : ℤ) : F)) }
  else engine

end FeatureEngine

/-- **The divisors are not zero** where they are used. -/
def DivisorsNonzero (b : MarketOrderBook) : Prop :=
  b.bbo.Valid → b.bbo.qtySum ≠ 0 ∧ ∀ side, b.bbo.oppositeQty side ≠ 0

/-- **The features are the quotients** where the divisors are not zero, for a `double` that does not
round. -/
lemma features_mul {b : MarketOrderBook} (h : DivisorsNonzero b) (hvalid : b.bbo.Valid)
    (engine : FeatureEngine Rat) (u : MEMarketUpdate) :
    (∃ price : Rat, (engine.onOrderBookUpdate b).mktPrice = some price ∧ price * b.bbo.qtySum =
        ((b.bbo.bidPrice * b.bbo.askQty + b.bbo.askPrice * b.bbo.bidQty : ℤ) : Rat)) ∧
      ∃ ratio : Rat, (engine.onTradeUpdate u b).aggTradeQtyRatio = some ratio ∧
        ratio * b.bbo.oppositeQty u.side = u.qty := by
  obtain ⟨hsum, hside⟩ := h hvalid
  have hcancel : ∀ (x : ℤ) (n : ℕ), n ≠ 0 → ((x : Rat) / ((n : ℤ) : Rat)) * (n : Rat) = x := fun x n hn =>
    Rat.div_mul_cancel (by exact_mod_cast hn)
  simp only [FeatureEngine.onOrderBookUpdate, FeatureEngine.onTradeUpdate, if_pos hvalid]
  exact ⟨⟨_, rfl, hcancel _ _ hsum⟩, _, rfl, hcancel _ _ (hside u.side)⟩

/-! ## The quantities of the orders -/

/-- The quantities of all records, those of free blocks included, are `uint32_t`. -/
def QtysFit (b : LimitOrderBook MarketOrder ℕ) : Prop := ∀ p, (b.node p).order.qty < 2 ^ 32

/-- A new book has no order, so its quantities fit. -/
lemma qtysFit_new : QtysFit MarketOrderBook.new.toLimitOrderBook := fun _ => by
  show Qty.invalid < 2 ^ 32
  decide

/-- The records are those of another book. -/
lemma QtysFit.congr {b b' : LimitOrderBook MarketOrder ℕ} (h : QtysFit b)
    (horder : ∀ p, (b'.node p).order = (b.node p).order) : QtysFit b' := fun p => horder p ▸ h p

/-- Removing an order leaves the records as they are. -/
lemma QtysFit.removeOrder {b : LimitOrderBook MarketOrder ℕ} (h : QtysFit b) (p : Ptr) :
    Safe (fun _ => True) QtysFit (b.removeOrder p) := by
  unfold LimitOrderBook.removeOrder
  refine (safe_links_dequeueOrder b p).bind fun b₁ h₁ => ?_
  have hindex : Safe (fun _ => True) (fun b₂ => b₂.orderPool = b₁.orderPool)
      (b₁.setIndex (BookOrder.slot (b.node p).order) none) := by
    cases BookOrder.slot (b.node p).order with
    | none => trivial
    | some k => exact rfl
  refine hindex.bind fun b₂ h₂ => (MemPool.safe_deallocate _ p).bind ?_
  rintro pool ⟨-, rfl⟩
  refine h.congr fun q => ?_
  simp only [node, MemPool.get_release, h₂]
  exact h₁.order q

/-- Deallocating the orders leaves the records as they are. -/
lemma get_of_deallocateOrders {b : MarketOrderBook} {pool : MemPool (OrderNode MarketOrder)}
    (h : b.deallocateOrders = .ok pool) : pool.get = b.orderPool.get := by
  unfold MarketOrderBook.deallocateOrders at h
  generalize List.range meMaxOrderIds = orderIds at h
  generalize b.orderPool = pool₀ at h ⊢
  induction orderIds generalizing pool₀ with
  | nil =>
    cases h
    rfl
  | cons orderId orderIds ih =>
    obtain ⟨pool₁, hpool₁, h⟩ := bind_eq_ok.mp (List.foldlM_cons.symm.trans h)
    rw [ih pool₁ h]
    cases hindex : b.orderIndex orderId with
    | none =>
      rw [hindex] at hpool₁
      cases hpool₁
      rfl
    | some order =>
      rw [hindex] at hpool₁
      obtain ⟨-, rfl⟩ := (MemPool.safe_deallocate pool₀ order).of_eq_ok hpool₁
      exact MemPool.get_release pool₀ order

/-- **An update** writes its own quantity at most.

**Proof sketch.** By the type of the update. An ADD and a MODIFY write the quantity of the update to
one order and leave the others as they were; the other types write no quantity. -/
lemma QtysFit.applyUpdate {b b' : MarketOrderBook} (h : QtysFit b.toLimitOrderBook) {u : MEMarketUpdate}
    (hu : u.qty < 2 ^ 32) (hb' : b.applyUpdate u = .ok b') : QtysFit b'.toLimitOrderBook := by
  cases htype : u.type with
  | add =>
    rw [applyUpdate_add b htype] at hb'
    obtain ⟨⟨p, pool⟩, hal, hb'⟩ := bind_eq_ok.mp hb'
    obtain ⟨book, hbook, hb'⟩ := bind_eq_ok.mp hb'
    cases hb'
    have hal := (MemPool.safe_allocate b.orderPool _).of_eq_ok hal
    obtain ⟨k, hentered⟩ := (safe_entered_addOrder b.toLimitOrderBook hal).of_eq_ok hbook
    intro q
    show (book.node q).order.qty < 2 ^ 32
    rw [hentered.order]
    split_ifs
    · exact hu
    · exact h q
  | modify =>
    simp only [MarketOrderBook.applyUpdate, htype] at hb'
    obtain ⟨p, -, hb'⟩ := bind_eq_ok.mp hb'
    cases hb'
    intro q
    simp only [node_modifyOrder]
    split_ifs
    · exact hu
    · exact h q
  | cancel =>
    rw [applyUpdate_cancel b htype] at hb'
    obtain ⟨p, -, hb'⟩ := bind_eq_ok.mp hb'
    obtain ⟨book, hbook, hb'⟩ := bind_eq_ok.mp hb'
    cases hb'
    exact (h.removeOrder p).of_eq_ok hbook
  | clear =>
    simp only [MarketOrderBook.applyUpdate, htype, MarketOrderBook.clear] at hb'
    obtain ⟨orderPool, hpool, hb'⟩ := bind_eq_ok.mp hb'
    obtain ⟨_, -, hb'⟩ := bind_eq_ok.mp hb'
    obtain ⟨_, -, hb'⟩ := bind_eq_ok.mp hb'
    cases hb'
    exact h.congr fun q => congrArg OrderNode.order (congrFun (get_of_deallocateOrders hpool) q)
  | trade | invalid | snapshotStart | snapshotEnd =>
    simp only [MarketOrderBook.applyUpdate, htype] at hb'
    cases hb'
    exact h

/-! ## The quoted levels -/

/-- The best level of a side, read with its orders. -/
def MarketOrderBook.readBest (b : MarketOrderBook) (best : Option Ptr) :
    Except Fault (List (ℤ × List MarketOrder)) :=
  match best with
  | none => .ok []
  | some best => do
    let level ← b.readLevel best
    return [level]

/-- **The best bid and offer quotes the level that it is refreshed from.** -/
lemma topOfBook_eq_quote {b : MarketOrderBook} (h : QtysFit b.toLimitOrderBook) (best : Option Ptr) :
    b.topOfBook best = quote <$> b.readBest best := by
  cases best with
  | none => rfl
  | some best =>
    simp only [MarketOrderBook.topOfBook, MarketOrderBook.levelQty, MarketOrderBook.readBest,
      MarketOrderBook.readLevel, MarketOrderBook.readQueue]
    cases deref (b.level best).firstOrder with
    | error f => rfl
    | ok first =>
      simp only [ok_bind]
      cases deref (b.node first).nextOrder with
      | error f => rfl
      | ok second =>
        simp only [ok_bind]
        cases walk (fun p => (b.node p).nextOrder) first (b.orderPool.size + 1) second with
        | error f => rfl
        | ok others =>
          show Except.ok _ = Except.ok _
          simp only [quote, List.map_cons, List.map_map, List.sum_cons, foldl_addQty _ (h first)]
          rfl

/-- A refreshed side, if the refresh completes. -/
lemma exists_readBest {b : MarketOrderBook} (h : QtysFit b.toLimitOrderBook) {best : Option Ptr} {top : ℤ × ℕ}
    (htop : b.topOfBook best = .ok top) : ∃ ls, b.readBest best = .ok ls ∧ quote ls = top := by
  rw [topOfBook_eq_quote h] at htop
  cases hread : b.readBest best with
  | error f =>
    rw [hread] at htop
    cases htop
  | ok ls =>
    rw [hread] at htop
    exact ⟨ls, rfl, Except.ok.inj htop⟩

/-- A book with the levels that its best bid and offer was last refreshed from, as they were then. -/
structure QuotedBook where
  book : MarketOrderBook := .new
  bid : List (ℤ × List MarketOrder) := []
  ask : List (ℤ × List MarketOrder) := []

/-- The exact total of the quantities of a level. -/
def total : List (ℤ × List MarketOrder) → ℕ
  | [] => 0
  | (_, queue) :: _ => (queue.map MarketOrder.qty).sum

namespace QuotedBook

/-- The level that a side quotes, read where the side is refreshed. -/
def requote (b : MarketOrderBook) (updated : Bool) (best : Option Ptr) (ls : List (ℤ × List MarketOrder)) :
    Except Fault (List (ℤ × List MarketOrder)) := if updated then b.readBest best else .ok ls

/-- `onMarketUpdate`, with the levels that it refreshes the best bid and offer from. -/
def step (s : QuotedBook) (u : MEMarketUpdate) : Except Fault QuotedBook := do
  let book ← s.book.onMarketUpdate u
  let bid ← requote book (u.type ≠ .trade && s.book.bidUpdated u) book.bidsByPrice s.bid
  let ask ← requote book (u.type ≠ .trade && s.book.askUpdated u) book.asksByPrice s.ask
  return { book, bid, ask }

/-- **No exact total is a multiple of `2 ^ 32`**: not that of the quoted bids, not that of the quoted asks
and not both together, if both levels have a valid price. -/
def TotalsFit (s : QuotedBook) : Prop :=
  (quote s.bid).1 ≠ Price.invalid → (quote s.ask).1 ≠ Price.invalid →
    ¬ 2 ^ 32 ∣ total s.bid ∧ ¬ 2 ^ 32 ∣ total s.ask ∧ ¬ 2 ^ 32 ∣ total s.bid + total s.ask

/-- Whether the totals fit can be evaluated. -/
instance decidableTotalsFit (s : QuotedBook) : Decidable s.TotalsFit := inferInstanceAs (Decidable (_ → _))

/-- The best bid and offer of a book quotes the levels. -/
structure Quotes (b : MarketOrderBook) (s : QuotedBook) : Prop where
  book : s.book = b
  qtys : QtysFit b.toLimitOrderBook
  bid : quote s.bid = (b.bbo.bidPrice, b.bbo.bidQty)
  ask : quote s.ask = (b.bbo.askPrice, b.bbo.askQty)

variable {s : QuotedBook} {b b' : MarketOrderBook}

/-- A new book quotes no level. -/
lemma quotes_new : Quotes MarketOrderBook.new {} := ⟨rfl, qtysFit_new, rfl, rfl⟩

/-- `updateBBO` for the bids writes the price and the quantity of the level that is quoted then. -/
lemma exists_of_updateBid (h : QtysFit b.toLimitOrderBook) {bid : List (ℤ × List MarketOrder)}
    (hbid : quote bid = (b.bbo.bidPrice, b.bbo.bidQty)) {updated : Bool}
    (hb' : b.updateBid updated = .ok b') :
    ∃ ls, requote b updated b.bidsByPrice bid = .ok ls ∧
      b' = { b with bbo := { b.bbo with bidPrice := (quote ls).1, bidQty := (quote ls).2 } } := by
  cases updated with
  | false =>
    cases hb'
    exact ⟨bid, rfl, by rw [hbid]⟩
  | true =>
    obtain ⟨top, htop, hb'⟩ := bind_eq_ok.mp hb'
    cases hb'
    obtain ⟨ls, hread, rfl⟩ := exists_readBest h htop
    exact ⟨ls, hread, rfl⟩

/-- `updateBBO` for the asks. -/
lemma exists_of_updateAsk (h : QtysFit b.toLimitOrderBook) {ask : List (ℤ × List MarketOrder)}
    (hask : quote ask = (b.bbo.askPrice, b.bbo.askQty)) {updated : Bool}
    (hb' : b.updateAsk updated = .ok b') :
    ∃ ls, requote b updated b.asksByPrice ask = .ok ls ∧
      b' = { b with bbo := { b.bbo with askPrice := (quote ls).1, askQty := (quote ls).2 } } := by
  cases updated with
  | false =>
    cases hb'
    exact ⟨ask, rfl, by rw [hask]⟩
  | true =>
    obtain ⟨top, htop, hb'⟩ := bind_eq_ok.mp hb'
    cases hb'
    obtain ⟨ls, hread, rfl⟩ := exists_readBest h htop
    exact ⟨ls, hread, rfl⟩

/-- **An update of the book** is one of the book with its quoted levels. -/
lemma Quotes.onMarketUpdate (h : Quotes b s) {u : MEMarketUpdate} (hu : u.qty < 2 ^ 32)
    (hb' : b.onMarketUpdate u = .ok b') : ∃ s', s.step u = .ok s' ∧ Quotes b' s' := by
  obtain rfl := h.book
  unfold QuotedBook.step
  rw [hb', ok_bind]
  by_cases htrade : u.type = .trade
  · have hsame : s.book.onMarketUpdate u = .ok s.book := if_pos htrade
    obtain rfl : s.book = b' := Except.ok.inj (hsame.symm.trans hb')
    simp only [htrade, ne_eq, not_true_eq_false, decide_false, Bool.false_and]
    exact ⟨s, rfl, h⟩
  · unfold MarketOrderBook.onMarketUpdate at hb'
    rw [if_neg htrade] at hb'
    obtain ⟨b₁, hb₁, hb'⟩ := bind_eq_ok.mp hb'
    obtain ⟨b₂, hb₂, hb'⟩ := bind_eq_ok.mp hb'
    have hqtys : QtysFit b₁.toLimitOrderBook := h.qtys.applyUpdate hu hb₁
    have hbbo : b₁.bbo = s.book.bbo := bbo_applyUpdate hb₁
    obtain ⟨bid, hbid, hbook⟩ := exists_of_updateBid hqtys (hbbo ▸ h.bid) hb₂
    have hqtys₂ : QtysFit b₂.toLimitOrderBook := by
      rw [hbook]
      exact hqtys
    have hask₂ : quote s.ask = (b₂.bbo.askPrice, b₂.bbo.askQty) := by
      rw [hbook]
      exact hbbo ▸ h.ask
    obtain ⟨ask, hask, rfl⟩ := exists_of_updateAsk hqtys₂ hask₂ hb'
    subst hbook
    simp only [htrade, ne_eq, not_false_eq_true, decide_true, Bool.true_and]
    -- the lists are those that `updateBBO` went over
    refine ⟨{ book := _, bid, ask }, ?_, rfl, hqtys, rfl, rfl⟩
    show (requote b₁ _ b₁.bidsByPrice s.bid >>= _) = _
    rw [hbid, ok_bind]
    exact congrArg (· >>= fun ask => Except.ok (QuotedBook.mk _ bid ask)) hask

/-- The quantity of a quoted level. -/
lemma quote_snd {ls : List (ℤ × List MarketOrder)} (h : (quote ls).1 ≠ Price.invalid) :
    (quote ls).2 = total ls % 2 ^ 32 := by
  cases ls with
  | nil => exact absurd rfl h
  | cons level ls => rfl

/-- **When the divisors are not zero.** -/
lemma Quotes.divisorsNonzero_iff_totalsFit (h : Quotes b s) : DivisorsNonzero b ↔ s.TotalsFit := by
  have hbid : b.bbo.bidPrice = (quote s.bid).1 ∧ b.bbo.bidQty = (quote s.bid).2 := by
    rw [h.bid]
    exact ⟨rfl, rfl⟩
  have hask : b.bbo.askPrice = (quote s.ask).1 ∧ b.bbo.askQty = (quote s.ask).2 := by
    rw [h.ask]
    exact ⟨rfl, rfl⟩
  unfold DivisorsNonzero BBO.Valid TotalsFit
  rw [and_imp, hbid.1, hask.1]
  refine forall₂_congr fun hbidPrice haskPrice => ?_
  rw [BBO.qtySum, addQty, hbid.2, hask.2, quote_snd hbidPrice, quote_snd haskPrice, ← Nat.add_mod,
    Nat.dvd_iff_mod_eq_zero, Nat.dvd_iff_mod_eq_zero, Nat.dvd_iff_mod_eq_zero]
  constructor
  · rintro ⟨hsum, hside⟩
    have hbuy := hside .buy
    have hsell := hside .sell
    rw [BBO.oppositeQty, if_pos rfl, hask.2, quote_snd haskPrice] at hbuy
    rw [BBO.oppositeQty, if_neg (by decide), hbid.2, quote_snd hbidPrice] at hsell
    exact ⟨hsell, hbuy, hsum⟩
  · rintro ⟨hsell, hbuy, hsum⟩
    refine ⟨hsum, fun side => ?_⟩
    unfold BBO.oppositeQty
    split_ifs
    · rw [hask.2, quote_snd haskPrice]
      exact hbuy
    · rw [hbid.2, quote_snd hbidPrice]
      exact hsell

end QuotedBook

/-- **The runs in which no divisor is zero.** Whatever the updates, the divisors of the feature engine are
not zero in any state reached exactly if in none of them an exact total of the quoted levels is a multiple
of `2 ^ 32`. -/
theorem divisorsNonzero_iff {us : List MEMarketUpdate} (hqty : ∀ u ∈ us, u.qty < 2 ^ 32) :
    Always MarketOrderBook.onMarketUpdate DivisorsNonzero MarketOrderBook.new us ↔
      Always QuotedBook.step QuotedBook.TotalsFit {} us := by
  have hforth : ∀ (b : MarketOrderBook) (s : QuotedBook) (u : MEMarketUpdate) b', QuotedBook.Quotes b s →
      u.qty < 2 ^ 32 → b.onMarketUpdate u = .ok b' → ∃ s', s.step u = .ok s' ∧ QuotedBook.Quotes b' s' :=
    fun _ _ _ _ h hu hb' => h.onMarketUpdate hu hb'
  refine always_iff_of_related hforth ?_ (fun _ _ h => h.divisorsNonzero_iff_totalsFit)
    QuotedBook.quotes_new hqty
  intro b s u s' h hu hs'
  obtain ⟨b', hb', -⟩ := bind_eq_ok.mp hs'
  rw [h.book] at hb'
  obtain ⟨t, ht, hquotes⟩ := hforth b s u b' h hu hb'
  obtain rfl : t = s' := Except.ok.inj (ht.symm.trans hs')
  exact ⟨b', hb', hquotes⟩

/-- Both sides are improved, a bid joins the best level and the best ask is canceled. -/
def bothSides : List MEMarketUpdate :=
  [{ firstBid with orderId := 1, price := 10, qty := 5 },
    { firstBid with orderId := 2, price := 11, qty := 7 },
    { firstBid with orderId := 3, side := .sell, price := 20, qty := 2 },
    { firstBid with orderId := 4, side := .sell, price := 19, qty := 9 },
    { firstBid with orderId := 5, price := 11, qty := 4, priority := 2 },
    { firstBid with type := .cancel, orderId := 4, side := .sell, price := 19, qty := 0 }]

/-- The totals of a run fit, so that no divisor is zero, also where both sides are quoted. -/
theorem divisorsNonzero_iff_of_bothSides :
    Always MarketOrderBook.onMarketUpdate DivisorsNonzero MarketOrderBook.new bothSides ∧
      ∃ b, bothSides.foldlM MarketOrderBook.onMarketUpdate MarketOrderBook.new = .ok b ∧
        b.bbo = { bidPrice := 11, bidQty := 11, askPrice := 20, askQty := 2 } :=
  ⟨(divisorsNonzero_iff (by decide)).mpr (by decide +kernel),
    (show Safe (fun _ => False)
      (fun b : MarketOrderBook => b.bbo = { bidPrice := 11, bidQty := 11, askPrice := 20, askQty := 2 })
      (bothSides.foldlM MarketOrderBook.onMarketUpdate MarketOrderBook.new) by decide +kernel).exists_ok⟩

/-! ## A zero divisor -/

/-- An ADD of a `uint32_t` quantity to a side of the book. -/
def IsAdd (u : MEMarketUpdate) : Prop := u.type = .add ∧ u.side.IsBookSide ∧ u.qty < 2 ^ 32

/-- Two ADDs of different orders, which share a bucket only at the same price and do not cross. -/
def NoConflict (w u : MEMarketUpdate) : Prop :=
  w.orderId ≠ u.orderId ∧ (w.price ≡ u.price [ZMOD meMaxPriceLevels] → w.price = u.price) ∧
    (w.side = .buy → u.side = .sell → w.price < u.price) ∧ (w.side = .sell → u.side = .buy → u.price < w.price)

/-- Whether an update is an ADD can be evaluated. -/
instance decidableIsAdd (u : MEMarketUpdate) : Decidable (IsAdd u) := inferInstanceAs (Decidable (_ ∧ _))

/-- Whether two ADDs are without conflict can be evaluated. -/
instance decidableNoConflict : DecidableRel NoConflict := fun _ _ => inferInstanceAs (Decidable (_ ∧ _))

/-- The orders in use are among those that were added. -/
def OrdersFrom (added : List MEMarketUpdate) (b : MarketOrderBook) : Prop :=
  ∀ p, b.orderPool.InUse p → ∃ w ∈ added, (b.node p).order = record w

/-- The orders in use after one more ADD. -/
lemma ordersFrom_add {added : List MEMarketUpdate} {b b' : MarketOrderBook} {u : MEMarketUpdate}
    (h : OrdersFrom added b) (htype : u.type = .add) (hb' : b.onMarketUpdate u = .ok b') :
    OrdersFrom (added ++ [u]) b' := by
  unfold MarketOrderBook.onMarketUpdate at hb'
  rw [if_neg (by simp [htype]), applyUpdate_add b htype] at hb'
  obtain ⟨b₁, hb₁, hb'⟩ := bind_eq_ok.mp hb'
  obtain ⟨⟨q, pool⟩, hal, hb₁⟩ := bind_eq_ok.mp hb₁
  obtain ⟨book, hbook, hb₁⟩ := bind_eq_ok.mp hb₁
  cases hb₁
  have hal := (MemPool.safe_allocate b.orderPool _).of_eq_ok hal
  obtain ⟨k, hentered⟩ := (safe_entered_addOrder b.toLimitOrderBook hal).of_eq_ok hbook
  have hlists : b'.toLimitOrderBook = book := toLimitOrderBook_of_updateBBO hb'
  intro p hp
  rw [hlists] at hp ⊢
  rw [hentered.order]
  split_ifs with hpq
  · exact ⟨u, List.mem_append_right _ (List.mem_singleton_self u), rfl⟩
  · obtain ⟨w, hw, hrecord⟩ := h p (((hentered.inUse p).mp hp).resolve_left hpq)
    exact ⟨w, List.mem_append_left _ hw, hrecord⟩

/-- **A sequence of ADDs without conflict is well formed.** -/
lemma meets_wellFormedUpdate {added us : List MEMarketUpdate} {b : MarketOrderBook} (h : OrdersFrom added b)
    (hadd : ∀ u ∈ us, IsAdd u) (hadded : ∀ w ∈ added, ∀ u ∈ us, NoConflict w u)
    (hus : us.Pairwise NoConflict) : Meets MarketOrderBook.onMarketUpdate WellFormedUpdate b us := by
  induction us generalizing added b with
  | nil => trivial
  | cons u us ih =>
    obtain ⟨htype, hside, hqty⟩ := hadd u (List.mem_cons_self ..)
    obtain ⟨hu, hus⟩ := List.pairwise_cons.mp hus
    have hnew : ∀ p, b.orderPool.InUse p → ∃ w, NoConflict w u ∧ (b.node p).order = record w := by
      intro p hp
      obtain ⟨w, hw, hrecord⟩ := h p hp
      exact ⟨w, hadded w hw u (List.mem_cons_self ..), hrecord⟩
    refine ⟨⟨fun _ => .inl ⟨htype, hside, fun p hp => ?_⟩, fun _ p hp => ?_, fun _ p hp => ?_, hqty⟩,
      fun b' hb' => ih (ordersFrom_add h htype hb') (fun w hw => hadd w (List.mem_cons_of_mem _ hw)) ?_ hus⟩
    · obtain ⟨w, hw, hrecord⟩ := hnew p hp
      rw [hrecord]
      exact hw.1
    · obtain ⟨w, hw, hrecord⟩ := hnew p hp
      rw [hrecord]
      exact hw.2.1
    · obtain ⟨w, hw, hrecord⟩ := hnew p hp
      rw [hrecord]
      exact hw.2.2
    · intro w hw x hx
      rcases List.mem_append.mp hw with hw | hw
      · exact hadded w hw x (List.mem_cons_of_mem _ hx)
      · rw [List.mem_singleton.mp hw]
        exact hu x hx

/-- Two bids and two asks, of which the better ones have the quantity `2 ^ 31`. -/
def halves : List MEMarketUpdate :=
  [{ firstBid with orderId := 1, price := 10, qty := 1 },
    { firstBid with orderId := 2, price := 11, qty := 2 ^ 31 },
    { firstBid with orderId := 3, side := .sell, price := 20, qty := 1 },
    { firstBid with orderId := 4, side := .sell, price := 19, qty := 2 ^ 31 }]

/-- **A divisor is zero** although every quantity is positive: `2 ^ 31 + 2 ^ 31` is zero in `uint32_t`. -/
theorem halves_divisor_zero :
    Meets MarketOrderBook.onMarketUpdate WellFormedUpdate MarketOrderBook.new halves ∧
      (∀ u ∈ halves, 1 ≤ u.qty ∧ u.qty ≤ 2 ^ 32 - 2) ∧
      ¬ Always MarketOrderBook.onMarketUpdate DivisorsNonzero MarketOrderBook.new halves := by
  refine ⟨?_, by decide, fun h => ?_⟩
  · have hnew : OrdersFrom [] MarketOrderBook.new := fun p hp => absurd hp (MemPool.not_inUse_new _ p)
    exact meets_wellFormedUpdate hnew (by decide) (fun w hw => by cases hw) (by decide)
  · obtain ⟨b, hb, hvalid, hzero⟩ := (show Safe (fun _ => False)
      (fun b : MarketOrderBook => b.bbo.Valid ∧ b.bbo.qtySum = 0)
      (halves.foldlM MarketOrderBook.onMarketUpdate MarketOrderBook.new) by decide +kernel).exists_ok
    exact (h.last hb hvalid).1 hzero

end Trading
