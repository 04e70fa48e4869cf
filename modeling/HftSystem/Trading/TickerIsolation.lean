import HftSystem.Trading.TradeEngine

set_option relaxedAutoImplicit false
set_option autoImplicit false

/-!
# The tickers of a trade engine do not interfere

All tickers of a trade engine share the features, which have one value for all of them, and the
counter of order ids. The features are set anew before the algorithm reads them, and an order id
says nothing but which order is meant. So what an engine does about a ticker is what it would do if
the other tickers did not exist.

## Main definitions

* `Trading.OrderManager.SameFor` — two order managers do the same about a ticker, up to order ids.
* `Trading.TradeEngineState.SameFor` — so do two engines.

## Main results

* `Trading.TradeEngineState.SameFor.process` — one event about the ticker.
* `Trading.TradeEngineState.SameFor.other` — one event about another ticker.
* `Trading.tickers_isolated` — every run.
-/

namespace Trading

open Common Exchange Fallible

/-- A request without its order id. -/
def anonymous (r : MEClientRequest) : MEClientRequest := { r with orderId := OrderId.invalid }

/-- An order without its order id. -/
def OMOrder.anonymous (o : OMOrder) : OMOrder := { o with orderId := OrderId.invalid }

namespace OrderManager

/-- The requests about a ticker, without their order ids. -/
def sentAbout (om : OrderManager) (t : ℕ) : List MEClientRequest :=
  (om.requests.filter fun r => r.tickerId = t).map anonymous

/-- **Two order managers do the same about a ticker**, up to order ids. -/
structure SameFor (t : ℕ) (om om' : OrderManager) : Prop where
  client : om.tradeEngine.clientId = om'.tradeEngine.clientId
  orders : ∀ i, (om.tickerSideOrder (t, i)).anonymous = (om'.tickerSideOrder (t, i)).anonymous
  sent : om.sentAbout t = om'.sentAbout t

/-- Every order is about the ticker that it stands under, or has never been set. -/
def Homed (om : OrderManager) : Prop :=
  ∀ t i, (om.tickerSideOrder (t, i)).tickerId = t ∨
    (om.tickerSideOrder (t, i)).tickerId = TickerId.invalid

/-- Send a request. -/
def send (om : OrderManager) (r : MEClientRequest) : OrderManager :=
  { om with tradeEngine := om.tradeEngine.sendClientRequest r }

/-- Count on. -/
def countTo (om : OrderManager) (n : ℕ) : OrderManager := { om with nextOrderId := n }

/-- A new order: a request, an entry and the next id. -/
lemma newOrder_eq (om : OrderManager) (order : ℕ × ℕ) (tickerId : ℕ) (price : ℤ) (side : Side)
    (qty : ℕ) : om.newOrder order tickerId price side qty =
      ((om.send { type := .new, clientId := om.tradeEngine.clientId, tickerId,
                  orderId := om.nextOrderId, side, price, qty }).setOrder order
        { tickerId, orderId := om.nextOrderId, side, price, qty,
          orderState := .pendingNew }).countTo (om.nextOrderId + 1) := rfl

/-- A cancel: a request and an entry. -/
lemma cancelOrder_eq (om : OrderManager) (order : ℕ × ℕ) : om.cancelOrder order =
    (om.send { type := .cancel, clientId := om.tradeEngine.clientId,
               tickerId := (om.tickerSideOrder order).tickerId,
               orderId := (om.tickerSideOrder order).orderId,
               side := (om.tickerSideOrder order).side, price := (om.tickerSideOrder order).price,
               qty := (om.tickerSideOrder order).qty }).setOrder order
      { om.tickerSideOrder order with orderState := .pendingCancel } := rfl

section SameFor

variable {t t' : ℕ} {om om' : OrderManager} {r r' : MEClientRequest} {o o' : OMOrder} {i : ℕ}

/-- The requests about a ticker, with one more. -/
lemma sentAbout_send : (om.send r).sentAbout t =
    om.sentAbout t ++ if r.tickerId = t then [anonymous r] else [] := by
  unfold sentAbout
  show ((om.requests ++ [r]).filter _).map _ = _
  rw [List.filter_append, List.map_append]
  by_cases h : r.tickerId = t <;> simp [h]

/-- The same request is sent. -/
lemma SameFor.send (h : SameFor t om om') (hr : anonymous r = anonymous r') :
    SameFor t (om.send r) (om'.send r') where
  client := h.client
  orders := h.orders
  sent := by
    have hticker : (anonymous r).tickerId = (anonymous r').tickerId := by rw [hr]
    have hticker : r.tickerId = r'.tickerId := hticker
    rw [sentAbout_send, sentAbout_send, h.sent, hr, hticker]

/-- A request about another ticker is sent. -/
lemma SameFor.send_other (h : SameFor t om om') (hr : r.tickerId ≠ t) :
    SameFor t (om.send r) om' where
  client := h.client
  orders := h.orders
  sent := by rw [sentAbout_send, if_neg hr, List.append_nil, h.sent]

/-- The same order is set. -/
lemma SameFor.setOrder (h : SameFor t om om') (ho : o.anonymous = o'.anonymous) :
    SameFor t (om.setOrder (t', i) o) (om'.setOrder (t', i) o') where
  client := h.client
  orders j := by
    show (Function.update om.tickerSideOrder (t', i) o (t, j)).anonymous =
      (Function.update om'.tickerSideOrder (t', i) o' (t, j)).anonymous
    by_cases hkey : (t, j) = (t', i)
    · rw [hkey, Function.update_self, Function.update_self]
      exact ho
    · rw [Function.update_of_ne hkey, Function.update_of_ne hkey]
      exact h.orders j
  sent := h.sent

/-- An order of another ticker is set. -/
lemma SameFor.setOrder_other (h : SameFor t om om') (hne : t' ≠ t) :
    SameFor t (om.setOrder (t', i) o) om' where
  client := h.client
  orders j := by
    show (Function.update om.tickerSideOrder (t', i) o (t, j)).anonymous = _
    rw [Function.update_of_ne fun hkey => hne (congrArg Prod.fst hkey).symm]
    exact h.orders j
  sent := h.sent

/-- The counter of order ids does not matter. -/
lemma SameFor.countTo (h : SameFor t om om') (n n' : ℕ) :
    SameFor t (om.countTo n) (om'.countTo n') := ⟨h.client, h.orders, h.sent⟩

/-- **An order of the ticker is moved.** -/
lemma SameFor.moveOrder (h : SameFor t om om') (ifBody : IfBody)
    {risk risk' : ℕ → Side → ℕ → RiskCheckResult} (hrisk : risk t = risk' t) (i : ℕ) (price : ℤ)
    (side : Side) (qty : ℕ) :
    SameFor t (om.moveOrder ifBody risk (t, i) t price side qty)
      (om'.moveOrder ifBody risk' (t, i) t price side qty) := by
  have horder := h.orders i
  simp only [OMOrder.anonymous, OMOrder.mk.injEq, true_and] at horder
  obtain ⟨hticker, hside, hprice, hqty, hstate⟩ := horder
  have hnew : SameFor t (om.newOrder (t, i) t price side qty) (om'.newOrder (t, i) t price side qty) := by
    rw [newOrder_eq, newOrder_eq]
    refine SameFor.countTo (SameFor.setOrder (h.send ?_) ?_) _ _
    · simp [anonymous, h.client]
    · rfl
  have hcancel : SameFor t (om.cancelOrder (t, i)) (om'.cancelOrder (t, i)) := by
    rw [cancelOrder_eq, cancelOrder_eq]
    refine (h.send ?_).setOrder ?_
    · simp [anonymous, h.client, hticker, hside, hprice, hqty]
    · simp [OMOrder.anonymous, hticker, hside, hprice, hqty]
  unfold OrderManager.moveOrder
  rw [hstate, hprice, hrisk]
  split
  · split_ifs
    · exact hcancel
    · exact h
  · split_ifs
    · exact hnew
    · exact h
    · exact h
  · split_ifs
    · exact hnew
    · exact h
    · exact h
  · exact h
  · exact h

/-- **An order of another ticker is moved.** -/
lemma SameFor.moveOrder_other (h : SameFor t om om') (hom : om.Homed) (ht : t < meMaxTickers)
    (hne : t' ≠ t) (ifBody : IfBody) (risk : ℕ → Side → ℕ → RiskCheckResult) (i : ℕ) (price : ℤ)
    (side : Side) (qty : ℕ) :
    SameFor t (om.moveOrder ifBody risk (t', i) t' price side qty) om' := by
  have hcases := om.moveOrder_cases ifBody risk (t', i) t' price side qty
  generalize om.moveOrder _ _ _ _ _ _ _ = moved at hcases ⊢
  cases hcases with
  | stay => exact h
  | cancel =>
    rw [cancelOrder_eq]
    refine SameFor.setOrder_other (h.send_other ?_) hne
    rcases hom t' i with hticker | hticker
    · rw [hticker]
      exact hne
    · rw [hticker]
      have : TickerId.invalid ≠ t := by
        unfold meMaxTickers at ht
        unfold TickerId.invalid
        omega
      exact this
  | new =>
    rw [newOrder_eq]
    exact (SameFor.setOrder_other (h.send_other hne) hne).countTo _ om'.nextOrderId

/-- The orders of the ticker are moved. -/
lemma SameFor.moveOrders (h : SameFor t om om') (ifBody : IfBody)
    {risk risk' : ℕ → Side → ℕ → RiskCheckResult} (hrisk : risk t = risk' t) (bidPrice askPrice : ℤ)
    (clip : ℕ) {moved : OrderManager}
    (hmoved : om.moveOrders ifBody risk t bidPrice askPrice clip = .ok moved) :
    ∃ moved', om'.moveOrders ifBody risk' t bidPrice askPrice clip = .ok moved' ∧
      SameFor t moved moved' := by
  by_cases hticker : t < meMaxTickers
  · unfold OrderManager.moveOrders at hmoved ⊢
    rw [orderAt_of_lt hticker (.inl rfl), orderAt_of_lt hticker (.inr rfl)] at hmoved ⊢
    cases hmoved
    exact ⟨_, rfl, (h.moveOrder ifBody hrisk _ bidPrice .buy clip).moveOrder ifBody hrisk _ askPrice
      .sell clip⟩
  · rw [moveOrders_of_le (by omega)] at hmoved
    cases hmoved

/-- Every order stays about its ticker. -/
lemma Homed.setOrder (h : om.Homed) (ho : o.tickerId = t ∨ o.tickerId = TickerId.invalid) :
    (om.setOrder (t, i) o).Homed := by
  intro t' j
  show (Function.update om.tickerSideOrder (t, i) o (t', j)).tickerId = _ ∨
    (Function.update om.tickerSideOrder (t, i) o (t', j)).tickerId = _
  by_cases hkey : (t', j) = (t, i)
  · rw [hkey, Function.update_self]
    obtain rfl : t' = t := congrArg Prod.fst hkey
    exact ho
  · rw [Function.update_of_ne hkey]
    exact h t' j

/-- A request does not touch the table. -/
lemma Homed.send (h : om.Homed) : (om.send r).Homed := h

/-- Neither does the next id. -/
lemma Homed.countTo (h : om.Homed) (n : ℕ) : (om.countTo n).Homed := h

/-- `moveOrder` puts an order under its own ticker. -/
lemma Homed.moveOrder (h : om.Homed) (ifBody : IfBody) (risk : ℕ → Side → ℕ → RiskCheckResult)
    (t i : ℕ) (price : ℤ) (side : Side) (qty : ℕ) :
    (om.moveOrder ifBody risk (t, i) t price side qty).Homed := by
  have hcases := om.moveOrder_cases ifBody risk (t, i) t price side qty
  generalize om.moveOrder _ _ _ _ _ _ _ = moved at hcases ⊢
  cases hcases with
  | stay => exact h
  | cancel =>
    rw [cancelOrder_eq]
    exact h.send.setOrder (h t i)
  | new =>
    rw [newOrder_eq]
    refine Homed.countTo (Homed.setOrder h.send ?_) _
    exact .inl rfl

/-- The orders of another ticker are moved. -/
lemma SameFor.moveOrders_other (h : SameFor t om om') (hom : om.Homed) (ht : t < meMaxTickers)
    (hne : t' ≠ t) (ifBody : IfBody) (risk : ℕ → Side → ℕ → RiskCheckResult)
    (bidPrice askPrice : ℤ) (clip : ℕ) :
    Safe (fun _ => True) (fun moved => SameFor t moved om')
      (om.moveOrders ifBody risk t' bidPrice askPrice clip) := by
  by_cases hticker : t' < meMaxTickers
  · unfold OrderManager.moveOrders
    rw [orderAt_of_lt hticker (.inl rfl), orderAt_of_lt hticker (.inr rfl)]
    have hbid := h.moveOrder_other hom ht hne ifBody risk (sideToIndex .buy) bidPrice .buy clip
    have hhomed := hom.moveOrder ifBody risk t' (sideToIndex .buy) bidPrice .buy clip
    exact hbid.moveOrder_other hhomed ht hne ifBody risk _ askPrice .sell clip
  · rw [moveOrders_of_le (by omega)]
    trivial

/-- So does `moveOrders`. -/
lemma Homed.moveOrders (h : om.Homed) (ifBody : IfBody) (risk : ℕ → Side → ℕ → RiskCheckResult)
    (t : ℕ) (bidPrice askPrice : ℤ) (clip : ℕ) :
    Safe (fun _ => True) Homed (om.moveOrders ifBody risk t bidPrice askPrice clip) := by
  by_cases hticker : t < meMaxTickers
  · unfold OrderManager.moveOrders
    rw [orderAt_of_lt hticker (.inl rfl), orderAt_of_lt hticker (.inr rfl)]
    exact (h.moveOrder ifBody risk t (sideToIndex .buy) bidPrice .buy clip).moveOrder ifBody risk t
      (sideToIndex .sell) askPrice .sell clip
  · rw [moveOrders_of_le (by omega)]
    trivial

/-- **A response about the ticker.** -/
lemma SameFor.onOrderUpdate (h : SameFor t om om') {r : MEClientResponse} (hr : r.tickerId = t)
    {updated : OrderManager} (hupdated : om.onOrderUpdate r = .ok updated) :
    ∃ updated', om'.onOrderUpdate r = .ok updated' ∧ SameFor t updated updated' := by
  obtain ⟨order, horder, -⟩ := bind_eq_ok.mp hupdated
  obtain ⟨i, rfl⟩ : ∃ i, order = (t, i) := by
    unfold orderAt at horder
    split_ifs at horder
    cases horder
    exact ⟨_, by rw [hr]⟩
  have hentry := h.orders i
  simp only [OMOrder.anonymous, OMOrder.mk.injEq, true_and] at hentry
  obtain ⟨hticker, hside, hprice, hqty, hstate⟩ := hentry
  unfold OrderManager.onOrderUpdate at hupdated ⊢
  rw [horder] at hupdated ⊢
  simp only [ok_bind] at hupdated ⊢
  cases htype : r.type with
  | accepted | canceled =>
    simp only [htype] at hupdated ⊢
    cases hupdated
    refine ⟨_, rfl, h.setOrder ?_⟩
    simp [OMOrder.anonymous, hticker, hside, hprice, hqty]
  | filled =>
    simp only [htype, setOrderState, tickerSideOrder_setOrder, setOrder_setOrder] at hupdated ⊢
    cases hupdated
    refine ⟨_, rfl, ?_⟩
    split_ifs
    · refine h.setOrder ?_
      simp [OMOrder.anonymous, hticker, hside, hprice]
    · refine h.setOrder ?_
      simp [OMOrder.anonymous, hticker, hside, hprice, hstate]
  | cancelRejected | invalid =>
    simp only [htype] at hupdated ⊢
    cases hupdated
    exact ⟨_, rfl, h⟩

/-- A response sets the order of its ticker. -/
lemma Homed.onOrderUpdate (h : om.Homed) (r : MEClientResponse) :
    Safe (fun _ => True)
      (fun updated => updated.Homed ∧ ∃ i o, updated = om.setOrder (r.tickerId, i) o)
      (om.onOrderUpdate r) := by
  cases horder : orderAt r.tickerId r.side with
  | error f =>
    unfold OrderManager.onOrderUpdate
    rw [horder]
    trivial
  | ok order =>
    obtain ⟨o, ho, -, hticker, -⟩ := om.exists_onOrderUpdate horder
    obtain ⟨i, rfl⟩ : ∃ i, order = (r.tickerId, i) := by
      unfold orderAt at horder
      split_ifs at horder
      cases horder
      exact ⟨_, rfl⟩
    rw [ho]
    refine ⟨h.setOrder ?_, i, o, rfl⟩
    rw [hticker]
    exact h r.tickerId i

end SameFor

end OrderManager

/-! ## The positions -/

namespace PositionKeeper

variable {F : Type} [Double F] {k k' k₁ : PositionKeeper F} {t : ℕ}

/-- A fill in the ticker. -/
lemma addFill_same (h : k.tickerPosition t = k'.tickerPosition t) {r : MEClientResponse}
    (hr : r.tickerId = t) (h₁ : k.addFill r = .ok k₁) :
    ∃ k₁', k'.addFill r = .ok k₁' ∧ k₁.tickerPosition t = k₁'.tickerPosition t := by
  subst hr
  unfold addFill at h₁ ⊢
  split_ifs at h₁ ⊢ with hticker
  rw [← h]
  obtain ⟨p, hp, h₁⟩ := bind_eq_ok.mp h₁
  cases h₁
  rw [hp]
  exact ⟨_, rfl, by simp only [Function.update_self]⟩

/-- A fill in another ticker. -/
lemma addFill_other {r : MEClientResponse} (hr : r.tickerId ≠ t) (h₁ : k.addFill r = .ok k₁) :
    k₁.tickerPosition t = k.tickerPosition t := by
  unfold addFill at h₁
  split_ifs at h₁
  obtain ⟨p, -, h₁⟩ := bind_eq_ok.mp h₁
  cases h₁
  exact Function.update_of_ne hr.symm _ _

/-- New best prices of the ticker. -/
lemma updateBBO_same (h : k.tickerPosition t = k'.tickerPosition t) {bbo : BBO}
    (h₁ : k.updateBBO t bbo = .ok k₁) :
    ∃ k₁', k'.updateBBO t bbo = .ok k₁' ∧ k₁.tickerPosition t = k₁'.tickerPosition t := by
  unfold updateBBO at h₁ ⊢
  split_ifs at h₁ ⊢
  cases h₁
  exact ⟨_, rfl, by simp only [Function.update_self, h]⟩

/-- New best prices of another ticker. -/
lemma updateBBO_other {t' : ℕ} (hne : t' ≠ t) {bbo : BBO} (h₁ : k.updateBBO t' bbo = .ok k₁) :
    k₁.tickerPosition t = k.tickerPosition t := by
  unfold updateBBO at h₁
  split_ifs at h₁
  cases h₁
  exact Function.update_of_ne hne.symm _ _

end PositionKeeper

/-! ## The engine -/

namespace TradeEngineState

variable {F : Type}

/-- **Two engines do the same about a ticker**, up to order ids. -/
structure SameFor (t : ℕ) (e e' : TradeEngineState F) : Prop where
  book : e.tickerOrderBook t = e'.tickerOrderBook t
  position : e.positionKeeper.tickerPosition t = e'.positionKeeper.tickerPosition t
  orders : OrderManager.SameFor t e.orderManager e'.orderManager

section Steps

variable [Double F] [LE F] [DecidableLE F] {setup : TradeEngineSetup F} {t : ℕ}
  {e e' e₁ : TradeEngineState F}

omit [LE F] [DecidableLE F] in
/-- **The algorithm wants the same** about the ticker. -/
lemma SameFor.moveTo (h : SameFor t e e') (prices : Option (ℤ × ℤ))
    (h₁ : moveTo setup e t prices = .ok e₁) :
    ∃ e₁', TradeEngineState.moveTo setup e' t prices = .ok e₁' ∧ SameFor t e₁ e₁' := by
  cases prices with
  | none =>
    cases h₁
    exact ⟨e', rfl, h⟩
  | some prices =>
    obtain ⟨om, hom, h₁⟩ := bind_eq_ok.mp h₁
    cases h₁
    have hrisk : checkPreTradeRisk setup.overload setup.riskCfg e.positionKeeper t =
        checkPreTradeRisk setup.overload setup.riskCfg e'.positionKeeper t := by
      unfold checkPreTradeRisk
      rw [h.position]
    obtain ⟨om', hom', hsame⟩ := h.orders.moveOrders setup.ifBody hrisk prices.1 prices.2
      (setup.tickerCfg t).clip hom
    refine ⟨{ e' with orderManager := om' }, ?_, h.book, h.position, hsame⟩
    show (_ >>= _) = _
    rw [hom']
    rfl

omit [LE F] [DecidableLE F] in
/-- The algorithm wants something about another ticker. -/
lemma SameFor.moveTo_other (h : SameFor t e e') (hom : e.orderManager.Homed) (ht : t < meMaxTickers)
    {t' : ℕ} (hne : t' ≠ t) (prices : Option (ℤ × ℤ))
    (h₁ : TradeEngineState.moveTo setup e t' prices = .ok e₁) : SameFor t e₁ e' := by
  cases prices with
  | none =>
    cases h₁
    exact h
  | some prices =>
    obtain ⟨om, hmoved, h₁⟩ := bind_eq_ok.mp h₁
    cases h₁
    exact ⟨h.book, h.position, (h.orders.moveOrders_other hom ht hne _ _ _ _ _).of_eq_ok hmoved⟩

omit [LE F] [DecidableLE F] in
/-- So does what an algorithm makes of the prices. -/
lemma homed_moveTo (hom : e.orderManager.Homed) {prices : Option (ℤ × ℤ)}
    (h₁ : moveTo setup e t prices = .ok e₁) : e₁.orderManager.Homed := by
  cases prices with
  | none =>
    cases h₁
    exact hom
  | some prices =>
    obtain ⟨om, hmoved, h₁⟩ := bind_eq_ok.mp h₁
    cases h₁
    exact (hom.moveOrders _ _ _ _ _ _).of_eq_ok hmoved

/-- Every order stays about its ticker. -/
lemma homed_process (hom : e.orderManager.Homed) {event : TradeEngineEvent}
    (h₁ : e.process setup event = .ok e₁) : e₁.orderManager.Homed := by
  cases event with
  | response r =>
    obtain ⟨k, -, h₁⟩ := bind_eq_ok.mp h₁
    rcases algoOnOrderUpdate_cases h₁ with ⟨-, om, hupdated, rfl⟩ | ⟨-, rfl⟩
    · exact ((hom.onOrderUpdate r).of_eq_ok hupdated).1
    · exact hom
  | update u =>
    have h₁ : e.onMarketUpdate setup u = .ok e₁ := h₁
    rw [onMarketUpdate_eq e (tickerId_lt_of_onMarketUpdate h₁)] at h₁
    obtain ⟨book, -, h₁⟩ := bind_eq_ok.mp h₁
    obtain ⟨k, -, h₁⟩ := bind_eq_ok.mp h₁
    refine homed_moveTo ?_ h₁
    exact hom

/-- **An event about the ticker** does the same to both engines.

**Proof sketch.** An event about the ticker reads the book, the position and the entries of that ticker
only, which are the same in both engines, and writes only them. So each part of the event returns in
the second engine what it returns in the first: the fill, the new quotes and the moves of the orders. -/
theorem SameFor.process (h : SameFor t e e') {event : TradeEngineEvent} (ht : event.tickerId = t)
    (h₁ : e.process setup event = .ok e₁) :
    ∃ e₁', e'.process setup event = .ok e₁' ∧ SameFor t e₁ e₁' := by
  subst ht
  cases event with
  | response r =>
    obtain ⟨k, hk, h₁⟩ := bind_eq_ok.mp h₁
    obtain ⟨k', hk', hposition⟩ : ∃ k',
        (if r.type = .filled then e'.positionKeeper.addFill r else .ok e'.positionKeeper) = .ok k' ∧
          k.tickerPosition r.tickerId = k'.tickerPosition r.tickerId := by
      by_cases hfilled : r.type = .filled
      · rw [if_pos hfilled] at hk ⊢
        exact PositionKeeper.addFill_same h.position rfl hk
      · rw [if_neg hfilled] at hk ⊢
        cases hk
        exact ⟨_, rfl, h.position⟩
    show ∃ e₁', e'.onOrderUpdate setup r = .ok e₁' ∧ _
    unfold TradeEngineState.onOrderUpdate
    rw [hk', ok_bind]
    rcases algoOnOrderUpdate_cases h₁ with ⟨halgo, om, hom, rfl⟩ | ⟨halgo, rfl⟩
    · obtain ⟨om', hom', hsame⟩ := h.orders.onOrderUpdate rfl hom
      refine ⟨{ e' with positionKeeper := k', orderManager := om' }, ?_, h.book, hposition, hsame⟩
      exact algoOnOrderUpdate_of_plays halgo hom'
    · refine ⟨{ e' with positionKeeper := k' }, ?_, h.book, hposition, h.orders⟩
      exact algoOnOrderUpdate_of_not_plays halgo _ r
  | update u =>
    have h₁ : e.onMarketUpdate setup u = .ok e₁ := h₁
    have hticker := tickerId_lt_of_onMarketUpdate h₁
    show ∃ e₁', e'.onMarketUpdate setup u = .ok e₁' ∧ _
    rw [onMarketUpdate_eq e hticker] at h₁
    rw [onMarketUpdate_eq e' hticker,
      ← show e.tickerOrderBook u.tickerId = e'.tickerOrderBook u.tickerId from h.book]
    obtain ⟨book, hbook, h₁⟩ := bind_eq_ok.mp h₁
    obtain ⟨k, hk, h₁⟩ := bind_eq_ok.mp h₁
    obtain ⟨k', hk', hposition⟩ : ∃ k', positionsAfter e'.positionKeeper u book = .ok k' ∧
        k.tickerPosition u.tickerId = k'.tickerPosition u.tickerId := by
      unfold positionsAfter at hk ⊢
      by_cases htrade : u.type = .trade
      · rw [if_pos htrade] at hk ⊢
        cases hk
        exact ⟨_, rfl, h.position⟩
      · rw [if_neg htrade] at hk ⊢
        exact PositionKeeper.updateBBO_same h.position hk
    rw [hbook, ok_bind, hk', ok_bind, wanted_congr _ e.featureEngine]
    refine SameFor.moveTo ?_ _ h₁
    exact ⟨by simp, hposition, h.orders⟩

/-- **An event about another ticker** does not matter. -/
theorem SameFor.other (h : SameFor t e e') (hom : e.orderManager.Homed) (ht : t < meMaxTickers)
    {event : TradeEngineEvent} (hne : event.tickerId ≠ t) (h₁ : e.process setup event = .ok e₁) :
    SameFor t e₁ e' := by
  cases event with
  | response r =>
    have hne : r.tickerId ≠ t := hne
    obtain ⟨k, hk, h₁⟩ := bind_eq_ok.mp h₁
    have hposition : k.tickerPosition t = e.positionKeeper.tickerPosition t := by
      split_ifs at hk
      · exact PositionKeeper.addFill_other hne hk
      · cases hk
        rfl
    rcases algoOnOrderUpdate_cases h₁ with ⟨-, om, hupdated, rfl⟩ | ⟨-, rfl⟩
    · obtain ⟨-, i, o, rfl⟩ := (hom.onOrderUpdate r).of_eq_ok hupdated
      exact ⟨h.book, hposition.trans h.position, h.orders.setOrder_other hne⟩
    · exact ⟨h.book, hposition.trans h.position, h.orders⟩
  | update u =>
    have hne : u.tickerId ≠ t := hne
    have h₁ : e.onMarketUpdate setup u = .ok e₁ := h₁
    rw [onMarketUpdate_eq e (tickerId_lt_of_onMarketUpdate h₁)] at h₁
    obtain ⟨book, -, h₁⟩ := bind_eq_ok.mp h₁
    obtain ⟨k, hk, h₁⟩ := bind_eq_ok.mp h₁
    have hposition : k.tickerPosition t = e.positionKeeper.tickerPosition t := by
      unfold positionsAfter at hk
      split_ifs at hk
      · cases hk
        rfl
      · exact PositionKeeper.updateBBO_other hne hk
    refine SameFor.moveTo_other ?_ ?_ ht hne _ h₁
    · refine ⟨?_, hposition.trans h.position, h.orders⟩
      exact (Function.update_of_ne hne.symm _ _).trans h.book
    · exact hom

/-- The two engines after a run and after the events about the ticker. -/
lemma SameFor.run (h : SameFor t e e') (hom : e.orderManager.Homed) (ht : t < meMaxTickers)
    (events : List TradeEngineEvent) (h₁ : events.foldlM (TradeEngineState.process setup) e = .ok e₁) :
    ∃ e₁', (events.filter fun event => event.tickerId = t).foldlM
        (TradeEngineState.process setup) e' = .ok e₁' ∧ SameFor t e₁ e₁' := by
  induction events generalizing e e' with
  | nil =>
    cases h₁
    exact ⟨e', rfl, h⟩
  | cons event events ih =>
    rw [List.foldlM_cons] at h₁
    obtain ⟨e₂, h₂, h₁⟩ := bind_eq_ok.mp h₁
    by_cases hticker : event.tickerId = t
    · obtain ⟨e₂', h₂', hsame⟩ := h.process hticker h₂
      rw [List.filter_cons_of_pos (by simpa using hticker), List.foldlM_cons, h₂']
      exact ih hsame (homed_process hom h₂) h₁
    · rw [List.filter_cons_of_neg (by simpa using hticker)]
      exact ih (h.other hom ht hticker h₂) (homed_process hom h₂) h₁

end Steps

end TradeEngineState

/-- **The tickers of a trade engine do not interfere.** Whatever events an engine processes, it has
the book and the position of a ticker, and has sent the requests about it, that an engine would have
and would have sent which processes only the events about that ticker; up to the numbers of the
orders. -/
theorem tickers_isolated {F : Type} [Double F] [LE F] [DecidableLE F] (setup : TradeEngineSetup F)
    (clientId : ℕ) (openVwap : ℕ → ℕ → F) {events : List TradeEngineEvent} {e : TradeEngineState F}
    (h : events.foldlM (TradeEngineState.process setup) (.start clientId openVwap) = .ok e) {t : ℕ}
    (ht : t < meMaxTickers) :
    ∃ e', (events.filter fun event => event.tickerId = t).foldlM (TradeEngineState.process setup)
        (.start clientId openVwap) = .ok e' ∧ TradeEngineState.SameFor t e e' :=
  TradeEngineState.SameFor.run ⟨rfl, rfl, rfl, fun _ => rfl, rfl⟩ (fun _ _ => .inr rfl) ht events h

/-- The events about the first ticker of the sample, alone and among the others. -/
theorem tickers_isolated_sample :
    ∃ e e', sampleEvents.foldlM (TradeEngineState.process sampleSetup) (.start 1 fun _ _ => 0) =
        .ok e ∧
      (sampleEvents.filter fun event => event.tickerId = 0).foldlM
        (TradeEngineState.process sampleSetup) (.start 1 fun _ _ => 0) = .ok e' ∧
      TradeEngineState.SameFor 0 e e' := by
  have hrun : (sampleEvents.foldlM (TradeEngineState.process sampleSetup)
      (.start 1 fun _ _ => 0)).isOk = true := by decide +kernel
  obtain ⟨e, he, -⟩ := Safe.exists_of_isOk (safe_true _) hrun
  obtain ⟨e', he', hsame⟩ := tickers_isolated sampleSetup 1 (fun _ _ => 0) he (t := 0) (by decide)
  exact ⟨e, e', he, he', hsame⟩

end Trading
