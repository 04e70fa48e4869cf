import HftSystem.Exchange.Messages

set_option relaxedAutoImplicit false
set_option autoImplicit false

/-!
# The order manager

`trading/strategy/order_manager.{h,cpp}` and `om_order.h`. An `OMOrder *` is the address of an
entry of `ticker_side_order_`: a ticker and the index of a side. The size of
`OMOrderSideHashMap` names an enumerator that `Side` does not declare, `MAX`; the table has room
for the indices of those that it does declare.

Two `if`s of `moveOrder` have no braces: a `START_MEASURE` follows, then the call, then an
`END_MEASURE`, all of them indented. An `else` follows the second one, so the call belongs to it.
Nothing follows the first one, and what it governs is a parameter, `IfBody`.

## Main definitions

* `Trading.OMOrder`, `Trading.OrderManager` — the order and the manager.
* `Trading.OrderManager.moveOrder`, `Trading.OrderManager.moveOrders` — what strategies call.
* `Trading.OrderManager.onOrderUpdate` — a response of the exchange.

## Main results

* `Trading.OrderManager.moveOrder_cases` — all that `moveOrder` can do.
-/

namespace Trading

open Common Exchange

/-- `OMOrderState`. -/
inductive OMOrderState
  | invalid
  | pendingNew
  | live
  | pendingCancel
  | dead
  deriving DecidableEq, Repr

/-- `OMOrder`. -/
structure OMOrder where
  tickerId : ℕ := TickerId.invalid
  orderId : ℕ := OrderId.invalid
  side : Side := .invalid
  price : ℤ := Price.invalid
  qty : ℕ := Qty.invalid
  orderState : OMOrderState := .invalid
  deriving DecidableEq, Repr

/-- The order manager may send a new order: the last one is not there or is over. -/
def OMOrder.IsFree (o : OMOrder) : Prop := o.orderState = .invalid ∨ o.orderState = .dead

/-- Whether a new order may take the place can be evaluated. -/
instance (o : OMOrder) : Decidable o.IsFree := inferInstanceAs (Decidable (_ ∨ _))

/-- `RiskCheckResult`. -/
inductive RiskCheckResult
  | invalid
  | orderTooLarge
  | positionTooLarge
  | lossTooLarge
  | allowed
  deriving DecidableEq, Repr

/-- What an `if` without braces governs: the next statement, or the lines indented under it. -/
inductive IfBody
  | nextStatement
  | indentedLines
  deriving DecidableEq, Repr

/-- The part of `TradeEngine` that the order manager uses: the client, and the requests written to
the queue of the order gateway. -/
structure TradeEngine where
  clientId : ℕ
  outgoingOgwRequests : List MEClientRequest := []
  deriving DecidableEq, Repr

/-- `sendClientRequest`. -/
def TradeEngine.sendClientRequest (e : TradeEngine) (clientRequest : MEClientRequest) :
    TradeEngine := { e with outgoingOgwRequests := e.outgoingOgwRequests ++ [clientRequest] }

/-- The size of `OMOrderSideHashMap`. -/
def omOrderSides : ℕ := 3

/-- `OrderManager`. -/
structure OrderManager where
  tradeEngine : TradeEngine
  tickerSideOrder : ℕ × ℕ → OMOrder := fun _ => {}
  nextOrderId : ℕ := 1

namespace OrderManager

/-- `&(ticker_side_order_.at(ticker_id).at(sideToIndex(side)))`. -/
def orderAt (tickerId : ℕ) (side : Side) : Except Fault (ℕ × ℕ) :=
  if tickerId < meMaxTickers ∧ sideToIndex side < omOrderSides then
    .ok (tickerId, sideToIndex side)
  else .error .outOfRange

/-- `*order = o`. -/
def setOrder (om : OrderManager) (order : ℕ × ℕ) (o : OMOrder) : OrderManager :=
  { om with tickerSideOrder := Function.update om.tickerSideOrder order o }

/-- `order->order_state_ = orderState`. -/
def setOrderState (om : OrderManager) (order : ℕ × ℕ) (orderState : OMOrderState) :
    OrderManager := om.setOrder order { om.tickerSideOrder order with orderState }

/-- `newOrder`. -/
def newOrder (om : OrderManager) (order : ℕ × ℕ) (tickerId : ℕ) (price : ℤ) (side : Side)
    (qty : ℕ) : OrderManager :=
  let newRequest : MEClientRequest :=
    { type := .new, clientId := om.tradeEngine.clientId, tickerId, orderId := om.nextOrderId, side,
      price, qty }
  let om := { om with tradeEngine := om.tradeEngine.sendClientRequest newRequest }
  let om := om.setOrder order
    { tickerId, orderId := om.nextOrderId, side, price, qty, orderState := .pendingNew }
  { om with nextOrderId := om.nextOrderId + 1 }

/-- `cancelOrder`. -/
def cancelOrder (om : OrderManager) (order : ℕ × ℕ) : OrderManager :=
  let o := om.tickerSideOrder order
  let cancelRequest : MEClientRequest :=
    { type := .cancel, clientId := om.tradeEngine.clientId, tickerId := o.tickerId,
      orderId := o.orderId, side := o.side, price := o.price, qty := o.qty }
  let om := { om with tradeEngine := om.tradeEngine.sendClientRequest cancelRequest }
  om.setOrderState order .pendingCancel

/-- `moveOrder`, with the risk manager as it is when the order is moved. -/
def moveOrder (ifBody : IfBody) (checkPreTradeRisk : ℕ → Side → ℕ → RiskCheckResult)
    (om : OrderManager) (order : ℕ × ℕ) (tickerId : ℕ) (price : ℤ) (side : Side) (qty : ℕ) :
    OrderManager :=
  match (om.tickerSideOrder order).orderState with
  | .live =>
    if ifBody = .nextStatement ∨ (om.tickerSideOrder order).price ≠ price then om.cancelOrder order
    else om
  | .invalid | .dead =>
    if price ≠ Price.invalid then
      if checkPreTradeRisk tickerId side qty = .allowed then om.newOrder order tickerId price side qty
      else om
    else om
  | .pendingNew | .pendingCancel => om

/-- `moveOrders`. -/
def moveOrders (ifBody : IfBody) (checkPreTradeRisk : ℕ → Side → ℕ → RiskCheckResult)
    (om : OrderManager) (tickerId : ℕ) (bidPrice askPrice : ℤ) (clip : ℕ) :
    Except Fault OrderManager := do
  let bidOrder ← orderAt tickerId .buy
  let om := om.moveOrder ifBody checkPreTradeRisk bidOrder tickerId bidPrice .buy clip
  let askOrder ← orderAt tickerId .sell
  return om.moveOrder ifBody checkPreTradeRisk askOrder tickerId askPrice .sell clip

/-- `onOrderUpdate`, which looks at the ticker and the side of the response but not at its order
id. -/
def onOrderUpdate (om : OrderManager) (clientResponse : MEClientResponse) :
    Except Fault OrderManager := do
  let order ← orderAt clientResponse.tickerId clientResponse.side
  match clientResponse.type with
  | .accepted => return om.setOrderState order .live
  | .canceled => return om.setOrderState order .dead
  | .filled =>
    let om := om.setOrder order
      { om.tickerSideOrder order with qty := clientResponse.leavesQty }
    return if (om.tickerSideOrder order).qty = 0 then om.setOrderState order .dead else om
  | .cancelRejected | .invalid => return om

/-! ## What the operations do -/

/-- The requests sent and not taken off the queue yet. -/
def requests (om : OrderManager) : List MEClientRequest := om.tradeEngine.outgoingOgwRequests

/-- The two sides of a ticker have an entry. -/
lemma orderAt_of_lt {tickerId : ℕ} (h : tickerId < meMaxTickers) {side : Side}
    (hside : side.IsBookSide) : orderAt tickerId side = .ok (tickerId, sideToIndex side) :=
  if_pos ⟨h, by rcases hside with rfl | rfl <;> decide⟩

/-- Orders of a ticker without an entry cannot be moved. -/
lemma moveOrders_of_le {tickerId : ℕ} (h : meMaxTickers ≤ tickerId) (om : OrderManager)
    (ifBody : IfBody) (checkPreTradeRisk : ℕ → Side → ℕ → RiskCheckResult) (bidPrice askPrice : ℤ)
    (clip : ℕ) : om.moveOrders ifBody checkPreTradeRisk tickerId bidPrice askPrice clip =
      .error .outOfRange := by
  have hat : orderAt tickerId .buy = .error .outOfRange := if_neg fun hr => by omega
  unfold moveOrders
  rw [hat]
  rfl

/-- The order that was set. -/
@[simp] lemma tickerSideOrder_setOrder (om : OrderManager) (order : ℕ × ℕ) (o : OMOrder) :
    (om.setOrder order o).tickerSideOrder order = o := Function.update_self ..

/-- The entry that was set last counts. -/
@[simp] lemma setOrder_setOrder (om : OrderManager) (order : ℕ × ℕ) (o o' : OMOrder) :
    (om.setOrder order o).setOrder order o' = om.setOrder order o' := by
  unfold setOrder
  rw [Function.update_idem]

/-- The response ends its order. -/
def EndsOrder (response : MEClientResponse) : Prop :=
  response.type = .canceled ∨ response.type = .filled ∧ response.leavesQty = 0

/-- **What a response does**: the entry of its ticker and side is about the same order, and becomes
free through the end of the order only. -/
lemma exists_onOrderUpdate (om : OrderManager) {r : MEClientResponse} {order : ℕ × ℕ}
    (horder : orderAt r.tickerId r.side = .ok order) :
    ∃ o, om.onOrderUpdate r = .ok (om.setOrder order o) ∧
      o.orderId = (om.tickerSideOrder order).orderId ∧
      o.tickerId = (om.tickerSideOrder order).tickerId ∧
      (o.IsFree → (om.tickerSideOrder order).IsFree ∨ EndsOrder r) := by
  have hself : om.setOrder order (om.tickerSideOrder order) = om := by
    unfold setOrder
    rw [Function.update_eq_self]
  unfold onOrderUpdate
  rw [horder]
  cases htype : r.type with
  | accepted => exact ⟨_, rfl, rfl, rfl, fun hfree => by simp [OMOrder.IsFree] at hfree⟩
  | canceled => exact ⟨_, rfl, rfl, rfl, fun _ => .inr (.inl htype)⟩
  | filled =>
    simp only [Fallible.ok_bind, setOrderState, tickerSideOrder_setOrder, setOrder_setOrder]
    split_ifs with hleaves
    · exact ⟨_, rfl, rfl, rfl, fun _ => .inr (.inr ⟨htype, hleaves⟩)⟩
    · exact ⟨_, rfl, rfl, rfl, .inl⟩
  | cancelRejected => exact ⟨_, congrArg _ hself.symm, rfl, rfl, .inl⟩
  | invalid => exact ⟨_, congrArg _ hself.symm, rfl, rfl, .inl⟩

/-- A response does not send a request. -/
lemma requests_of_onOrderUpdate {om om' : OrderManager} {r : MEClientResponse}
    (h : om.onOrderUpdate r = .ok om') : om'.requests = om.requests := by
  obtain ⟨order, horder, -⟩ := Fallible.bind_eq_ok.mp h
  obtain ⟨o, ho, -⟩ := om.exists_onOrderUpdate horder
  rw [ho] at h
  cases h
  rfl

/-- **All that `moveOrder` can do**: nothing, cancel a live order, or send a new one when the last
one is not there or over. -/
inductive Moved (om : OrderManager) (checkPreTradeRisk : ℕ → Side → ℕ → RiskCheckResult)
    (order : ℕ × ℕ) (tickerId : ℕ) (price : ℤ) (side : Side) (qty : ℕ) : OrderManager → Prop
  | stay : Moved om checkPreTradeRisk order tickerId price side qty om
  | cancel (hlive : (om.tickerSideOrder order).orderState = .live) :
    Moved om checkPreTradeRisk order tickerId price side qty (om.cancelOrder order)
  | new (hfree : (om.tickerSideOrder order).IsFree) (hprice : price ≠ Price.invalid)
      (hrisk : checkPreTradeRisk tickerId side qty = .allowed) :
    Moved om checkPreTradeRisk order tickerId price side qty
      (om.newOrder order tickerId price side qty)

/-- **What `moveOrder` does** is one of the cases of `Moved`. -/
theorem moveOrder_cases (ifBody : IfBody) (checkPreTradeRisk : ℕ → Side → ℕ → RiskCheckResult)
    (om : OrderManager) (order : ℕ × ℕ) (tickerId : ℕ) (price : ℤ) (side : Side) (qty : ℕ) :
    Moved om checkPreTradeRisk order tickerId price side qty
      (om.moveOrder ifBody checkPreTradeRisk order tickerId price side qty) := by
  have hnew (hfree : (om.tickerSideOrder order).IsFree) :
      Moved om checkPreTradeRisk order tickerId price side qty
        (if price ≠ Price.invalid then
          if checkPreTradeRisk tickerId side qty = .allowed then
            om.newOrder order tickerId price side qty
          else om
        else om) := by
    split_ifs with hprice hrisk
    · exact .new hfree hprice hrisk
    · exact .stay
    · exact .stay
  unfold moveOrder
  cases hstate : (om.tickerSideOrder order).orderState with
  | invalid => exact hnew (.inl hstate)
  | dead => exact hnew (.inr hstate)
  | live =>
    show Moved om checkPreTradeRisk order tickerId price side qty (if _ then _ else _)
    split_ifs
    · exact .cancel hstate
    · exact .stay
  | pendingNew => exact .stay
  | pendingCancel => exact .stay

end OrderManager

end Trading
