import HftSystem.Exchange.MEOrderBook
import HftSystem.Trading.OrderManager

set_option relaxedAutoImplicit false
set_option autoImplicit false

/-!
# An order manager and an exchange

The order manager of one client, an exchange, and the two lossless channels between them. The
exchange answers the requests in the order in which they were sent: a NEW with ACCEPTED, a CANCEL
with CANCELED if the order has open quantity and with CANCEL_REJECTED otherwise. It fills open
orders when it likes. Like the books of the matching engine, it knows the orders of a ticker by
the client's order id.

## Main definitions

* `Trading.System`, `Trading.Action`, `Trading.System.step` — the system and its steps.
* `Trading.System.newsInFlight`, `Trading.System.liveOrders` — the orders of a ticker and a side
  that are on their way to the exchange and open there.
-/

namespace Trading

open Common Exchange

/-- The client's order manager, the responses on their way to it, and its open orders at the
exchange. The requests on their way are those of the order manager. -/
structure System where
  orderManager : OrderManager
  responses : List MEClientResponse := []
  openOrders : List MEOrder := []

/-- What can happen: a strategy moves its orders, the exchange takes a request, the exchange fills
an open order, or a response is delivered. -/
inductive Action
  | moveOrders (checkPreTradeRisk : ℕ → Side → ℕ → RiskCheckResult) (tickerId : ℕ)
      (bidPrice askPrice : ℤ) (clip : ℕ)
  | takeRequest (marketOrderId : ℕ)
  | fill (i execQty : ℕ) (price : ℤ)
  | deliver

/-- The ticker is one of the tickers that the tables have an entry for. -/
def Action.InRange : Action → Prop
  | .moveOrders _ tickerId _ _ _ => tickerId < meMaxTickers
  | _ => True

namespace System

/-- Nothing has been sent. -/
def start (clientId : ℕ) : System := { orderManager := { tradeEngine := { clientId } } }

/-- The requests that are left on their way. -/
def leave (s : System) (requests : List MEClientRequest) : System :=
  { s with orderManager.tradeEngine.outgoingOgwRequests := requests }

/-- The exchange sends a response. -/
def respond (s : System) (response : MEClientResponse) : System :=
  { s with responses := s.responses ++ [response] }

/-- The exchange answers a NEW. An order without quantity does not become open. -/
def accept (s : System) (request : MEClientRequest) (marketOrderId : ℕ) : System :=
  let order : MEOrder :=
    { tickerId := request.tickerId, clientId := request.clientId,
      clientOrderId := request.orderId, marketOrderId, side := request.side,
      price := request.price, qty := request.qty }
  { s with openOrders := if request.qty = 0 then s.openOrders else s.openOrders ++ [order] }.respond
    { type := .accepted, clientId := request.clientId, tickerId := request.tickerId,
      clientOrderId := request.orderId, marketOrderId, side := request.side,
      price := request.price, execQty := 0, leavesQty := request.qty }

/-- The request names the order. -/
def Names (request : MEClientRequest) (o : MEOrder) : Prop :=
  o.tickerId = request.tickerId ∧ o.clientOrderId = request.orderId

/-- Whether a request names an order can be evaluated. -/
instance (request : MEClientRequest) (o : MEOrder) : Decidable (Names request o) :=
  inferInstanceAs (Decidable (_ ∧ _))

/-- The exchange answers a CANCEL. -/
def cancel (s : System) (request : MEClientRequest) : System :=
  match s.openOrders.find? (fun o => Names request o) with
  | some o =>
    { s with openOrders := s.openOrders.eraseP fun o => Names request o }.respond
      { type := .canceled, clientId := request.clientId, tickerId := o.tickerId,
        clientOrderId := o.clientOrderId, marketOrderId := o.marketOrderId, side := o.side,
        price := o.price, execQty := Qty.invalid, leavesQty := o.qty }
  | none =>
    s.respond
      { type := .cancelRejected, clientId := request.clientId, tickerId := request.tickerId,
        clientOrderId := request.orderId, side := .invalid }

/-- The exchange takes the request that was sent first. -/
def takeRequest (s : System) (marketOrderId : ℕ) : System :=
  match s.orderManager.requests with
  | [] => s
  | request :: requests =>
    match request.type with
    | .new => (s.leave requests).accept request marketOrderId
    | .cancel => (s.leave requests).cancel request
    | .invalid => s.leave requests

/-- The exchange executes a part of an open order, or all of it. -/
def fill (s : System) (i execQty : ℕ) (price : ℤ) : System :=
  match s.openOrders[i]? with
  | some o =>
    if 0 < execQty ∧ execQty ≤ o.qty then
      let leavesQty := o.qty - execQty
      { s with openOrders :=
          if leavesQty = 0 then s.openOrders.eraseIdx i
          else s.openOrders.set i { o with qty := leavesQty } }.respond
        { type := .filled, clientId := o.clientId, tickerId := o.tickerId,
          clientOrderId := o.clientOrderId, marketOrderId := o.marketOrderId, side := o.side, price,
          execQty, leavesQty }
    else s
  | none => s

/-- The response that was sent first is delivered. -/
def deliver (s : System) : Except Fault System :=
  match s.responses with
  | [] => return s
  | response :: responses => do
    let orderManager ← s.orderManager.onOrderUpdate response
    return { s with orderManager, responses }

/-- A step. -/
def step (ifBody : IfBody) (s : System) : Action → Except Fault System
  | .moveOrders checkPreTradeRisk tickerId bidPrice askPrice clip => do
    let orderManager ←
      s.orderManager.moveOrders ifBody checkPreTradeRisk tickerId bidPrice askPrice clip
    return { s with orderManager }
  | .takeRequest marketOrderId => return s.takeRequest marketOrderId
  | .fill i execQty price => return s.fill i execQty price
  | .deliver => s.deliver

/-- **All that a fill can do**: nothing, or take a quantity from an open order, which is over when
nothing is left. -/
lemma fill_cases (s : System) (i execQty : ℕ) (price : ℤ) : s.fill i execQty price = s ∨
    ∃ pre o post, s.openOrders = pre ++ o :: post ∧ 0 < execQty ∧ execQty ≤ o.qty ∧
      s.fill i execQty price =
        { s with openOrders := pre ++ ((if o.qty - execQty = 0 then []
            else [{ o with qty := o.qty - execQty }]) ++ post) }.respond
          { type := .filled, clientId := o.clientId, tickerId := o.tickerId,
            clientOrderId := o.clientOrderId, marketOrderId := o.marketOrderId, side := o.side, price,
            execQty, leavesQty := o.qty - execQty } := by
  unfold fill
  split
  · rename_i o ho
    split_ifs with hexec
    · obtain ⟨hi, ho⟩ := List.getElem?_eq_some_iff.mp ho
      refine .inr ⟨s.openOrders.take i, o, s.openOrders.drop (i + 1), ?_, hexec.1, hexec.2, ?_⟩
      · rw [← ho, List.getElem_cons_drop, List.take_append_drop]
      · have hleft : (if o.qty - execQty = 0 then s.openOrders.eraseIdx i
            else s.openOrders.set i { o with qty := o.qty - execQty }) =
              s.openOrders.take i ++ ((if o.qty - execQty = 0 then []
                else [{ o with qty := o.qty - execQty }]) ++ s.openOrders.drop (i + 1)) := by
          split_ifs
          · exact List.eraseIdx_eq_take_drop_succ _ _
          · rw [List.set_eq_take_append_cons_drop, if_pos hi]
            rfl
        rw [← hleft]
    · exact .inl rfl
  · exact .inl rfl

/-- A CANCEL is rejected. -/
def reject (s : System) (request : MEClientRequest) : System :=
  s.respond
    { type := .cancelRejected, clientId := request.clientId, tickerId := request.tickerId,
      clientOrderId := request.orderId, side := .invalid }

/-- **All that a CANCEL can do**: it is rejected, or takes an open order away. -/
lemma cancel_cases (s : System) (request : MEClientRequest) : s.cancel request = s.reject request ∨
    ∃ pre o post, s.openOrders = pre ++ o :: post ∧
      s.cancel request = { s with openOrders := pre ++ ([] ++ post) }.respond
        { type := .canceled, clientId := request.clientId, tickerId := o.tickerId,
          clientOrderId := o.clientOrderId, marketOrderId := o.marketOrderId, side := o.side,
          price := o.price, execQty := Qty.invalid, leavesQty := o.qty } := by
  unfold cancel
  split
  · rename_i o hfind
    obtain ⟨ho, pre, post, hopen, hpre⟩ := List.find?_eq_some_iff_append.mp hfind
    refine .inr ⟨pre, o, post, hopen, ?_⟩
    congr 2
    rw [hopen, List.eraseP_append_right _ (fun o' ho' => by simpa using hpre o' ho')]
    exact congrArg (pre ++ ·) (List.eraseP_cons_of_pos ho)
  · exact .inl rfl

/-! ## One side of a ticker -/

/-- What the order manager remembers about its order. -/
def omOrder (s : System) (tickerId : ℕ) (side : Side) : OMOrder :=
  s.orderManager.tickerSideOrder (tickerId, sideToIndex side)

/-- The NEW requests on their way to the exchange. -/
def newsInFlight (s : System) (tickerId : ℕ) (side : Side) : List MEClientRequest :=
  s.orderManager.requests.filter fun r => r.type = .new ∧ r.tickerId = tickerId ∧ r.side = side

/-- The orders that are live at the exchange. -/
def liveOrders (s : System) (tickerId : ℕ) (side : Side) : List MEOrder :=
  s.openOrders.filter fun o => o.tickerId = tickerId ∧ o.side = side

/-- The responses on their way to the order manager. -/
def responsesTo (s : System) (tickerId : ℕ) (side : Side) : List MEClientResponse :=
  s.responses.filter fun r => r.tickerId = tickerId ∧ r.side = side

end System

end Trading
