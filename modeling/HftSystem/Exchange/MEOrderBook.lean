import HftSystem.Common.LimitOrderBook
import HftSystem.Exchange.Messages

set_option relaxedAutoImplicit false
set_option autoImplicit false

/-!
# The order book of the matching engine

`exchange/matcher/me_order_book.{h,cpp}`. The lists, tables and pools are the shared
`LimitOrderBook`, whose identifiers are pairs of a client and a client order id. The two queues
that the matching engine writes to are the lists of what was sent.

`cancel` is defined twice in the source; this is the second definition, the one that compiles.
`add` passes a name that it does not declare, `exchange_order`, to `removeOrder`; the order that
this name stands for is a parameter here.

## Main definitions

* `Exchange.MEOrder`, `Exchange.MEOrderBook` — the order and the book.
* `Exchange.MEOrderBook.matchOrder`, `Exchange.MEOrderBook.checkForMatch` — one execution, and
  the matching loop.
* `Exchange.MEOrderBook.add`, `Exchange.MEOrderBook.cancel` — the two requests, with
  `Exchange.MEOrderBook.matchAndRest`, the body of `add` through line 102, and
  `Exchange.MEOrderBook.rest`, its lines 95 to 105.
-/

namespace Exchange

open Common

/-- `MEOrder`, without the links. -/
structure MEOrder where
  tickerId : ℕ := TickerId.invalid
  clientId : ℕ := ClientId.invalid
  clientOrderId : ℕ := OrderId.invalid
  marketOrderId : ℕ := OrderId.invalid
  side : Side := .invalid
  price : ℤ := Price.invalid
  qty : ℕ := Qty.invalid
  priority : ℕ := Priority.invalid
  deriving DecidableEq, Repr

/-- The default order of a pool. -/
instance : Inhabited MEOrder := ⟨{}⟩

/-- The entry of `cid_oid_to_order_` for a client and an order id. -/
def clientOrderSlot (clientId clientOrderId : ℕ) : Option (ℕ × ℕ) :=
  if clientId < meMaxNumClients ∧ clientOrderId < meMaxOrderIds then some (clientId, clientOrderId)
  else none

/-- The ids that the table of orders has no entry for. -/
lemma clientOrderSlot_eq_none {clientId clientOrderId : ℕ} :
    clientOrderSlot clientId clientOrderId = none ↔
      ¬ (clientId < meMaxNumClients ∧ clientOrderId < meMaxOrderIds) := by
  simp [clientOrderSlot]

/-- The ids that it has an entry for, and which one. -/
lemma clientOrderSlot_eq_some {clientId clientOrderId : ℕ} {k : ℕ × ℕ} :
    clientOrderSlot clientId clientOrderId = some k ↔
      clientId < meMaxNumClients ∧ clientOrderId < meMaxOrderIds ∧ k = (clientId, clientOrderId) := by
  unfold clientOrderSlot
  split_ifs with h
  · simp [h.1, h.2, eq_comm]
  · constructor
    · intro hk
      cases hk
    · rintro ⟨hclient, horder, -⟩
      exact absurd ⟨hclient, horder⟩ h

/-- The fields of an `MEOrder` that the lists read, and its entry in the table. -/
instance : BookOrder MEOrder (ℕ × ℕ) where
  side := MEOrder.side
  price := MEOrder.price
  slot o := clientOrderSlot o.clientId o.clientOrderId

/-- The part of `MatchingEngine` that a book uses: what was written to the two queues. -/
structure MatchingEngine where
  outgoingOgwResponses : List MEClientResponse := []
  outgoingMdUpdates : List MEMarketUpdate := []
  deriving DecidableEq, Repr

/-- `MEOrderBook`. -/
structure MEOrderBook extends LimitOrderBook MEOrder (ℕ × ℕ) where
  matchingEngine : MatchingEngine := {}
  clientResponse : MEClientResponse := {}
  marketUpdate : MEMarketUpdate := {}
  nextMarketOrderId : ℕ := 1

namespace MEOrderBook

/-- The constructor. -/
def new : MEOrderBook :=
  { ordersAtPricePool := .new meMaxPriceLevels, orderPool := .new meMaxOrderIds }

/-- The responses sent so far. -/
def sent (b : MEOrderBook) : List MEClientResponse := b.matchingEngine.outgoingOgwResponses

/-- The updates published so far. -/
def published (b : MEOrderBook) : List MEMarketUpdate := b.matchingEngine.outgoingMdUpdates

/-- Run an operation of the shared book. -/
def onBook (b : MEOrderBook)
    (f : LimitOrderBook MEOrder (ℕ × ℕ) → Except Fault (LimitOrderBook MEOrder (ℕ × ℕ))) :
    Except Fault MEOrderBook := do
  let book ← f b.toLimitOrderBook
  return { b with toLimitOrderBook := book }

/-- `client_response_ = response; matching_engine_->sendClientResponse(&client_response_)`. -/
def respond (b : MEOrderBook) (response : MEClientResponse) : MEOrderBook :=
  { b with
    clientResponse := response
    matchingEngine := { b.matchingEngine with
      outgoingOgwResponses := b.matchingEngine.outgoingOgwResponses ++ [response] } }

/-- `matching_engine_->sendMarketUpdate(&market_update_)`. -/
def sendMarketUpdate (b : MEOrderBook) : MEOrderBook :=
  { b with
    matchingEngine := { b.matchingEngine with
      outgoingMdUpdates := b.matchingEngine.outgoingMdUpdates ++ [b.marketUpdate] } }

/-- `market_update_ = update; matching_engine_->sendMarketUpdate(&market_update_)`. -/
def publish (b : MEOrderBook) (update : MEMarketUpdate) : MEOrderBook :=
  { b with marketUpdate := update }.sendMarketUpdate

/-- `match`: execute against the resting order at `itr`. Returns the book and `*leaves_qty`. -/
def matchOrder (b : MEOrderBook) (tickerId clientId : ℕ) (side : Side)
    (clientOrderId newMarketOrderId : ℕ) (itr : Ptr) (leavesQty : ℕ) :
    Except Fault (MEOrderBook × ℕ) := do
  let orderQty := (b.node itr).order.qty
  let fillQty := min leavesQty orderQty
  let leavesQty := leavesQty - fillQty
  let b := { b with
    toLimitOrderBook := b.modifyOrder itr fun o => { o with qty := o.qty - fillQty } }
  let order := (b.node itr).order
  let b := b.respond
    { type := .filled, clientId, tickerId, clientOrderId, marketOrderId := newMarketOrderId, side,
      price := order.price, execQty := fillQty, leavesQty }
  let b := b.respond
    { type := .filled, clientId := order.clientId, tickerId, clientOrderId := order.clientOrderId,
      marketOrderId := order.marketOrderId, side := order.side, price := order.price,
      execQty := fillQty, leavesQty := order.qty }
  let b := b.publish
    { type := .trade, orderId := OrderId.invalid, tickerId, side, price := order.price,
      qty := fillQty, priority := Priority.invalid }
  if order.qty = 0 then
    let b := b.publish
      { type := .cancel, orderId := order.marketOrderId, tickerId, side := order.side,
        price := order.price, qty := orderQty, priority := Priority.invalid }
    let b ← b.onBook fun book => book.removeOrder itr
    return (b, leavesQty)
  else
    let b := b.publish
      { type := .modify, orderId := order.marketOrderId, tickerId, side := order.side,
        price := order.price, qty := order.qty, priority := order.priority }
    return (b, leavesQty)

/-- An incoming order does not break off the loop at a resting price: `price < ask` is false for
a buyer, `price > bid` for a seller. -/
def crosses (side : Side) (price resting : ℤ) : Bool :=
  if side = .buy then !(price < resting) else !(price > resting)

/-- The `while` loops of `checkForMatch`, bounded by `fuel`. -/
def matchLoop (clientId clientOrderId tickerId : ℕ) (side : Side) (price : ℤ)
    (newMarketOrderId : ℕ) : ℕ → MEOrderBook → ℕ → Except Fault (MEOrderBook × ℕ)
  | 0, _, _ => .error .diverges
  | fuel + 1, b, leavesQty =>
    if leavesQty = 0 then .ok (b, leavesQty)
    else match b.bestOrdersByPrice side.opposite with
      | none => .ok (b, leavesQty)
      | some best => do
        let itr ← deref (b.level best).firstOrder
        if crosses side price (b.node itr).order.price then
          let (b, leavesQty) ←
            b.matchOrder tickerId clientId side clientOrderId newMarketOrderId itr leavesQty
          matchLoop clientId clientOrderId tickerId side price newMarketOrderId fuel b leavesQty
        else .ok (b, leavesQty)

/-- `checkForMatch`. Its last parameter has type `Qty`, so the market order id is truncated to
32 bits on the way in. Every iteration but the last removes an order, so the number of blocks
bounds them. -/
def checkForMatch (b : MEOrderBook) (clientId clientOrderId tickerId : ℕ) (side : Side) (price : ℤ)
    (qty newMarketOrderId : ℕ) : Except Fault (MEOrderBook × ℕ) :=
  if side.IsBookSide then
    matchLoop clientId clientOrderId tickerId side price (newMarketOrderId % 2 ^ 32)
      (b.orderPool.size + 1) b qty
  else .ok (b, qty)

/-- `getNextPriority`: one more than the last order of the level. -/
def getNextPriority (b : MEOrderBook) (price : ℤ) : Except Fault ℕ :=
  match b.getOrdersAtPrice price with
  | none => .ok 1
  | some ordersAtPrice => do
    let first ← deref (b.level ordersAtPrice).firstOrder
    let last ← deref (b.node first).prevOrder
    return (b.node last).order.priority + 1

/-- `generateNewMarketOrderId`, and the ACCEPTED response. -/
def accept (b : MEOrderBook) (clientId clientOrderId tickerId : ℕ) (side : Side) (price : ℤ)
    (qty : ℕ) : MEOrderBook × ℕ :=
  let newMarketOrderId := b.nextMarketOrderId
  let b := { b with nextMarketOrderId := b.nextMarketOrderId + 1 }
  (b.respond
    { type := .accepted, clientId, tickerId, clientOrderId, marketOrderId := newMarketOrderId, side,
      price, execQty := 0, leavesQty := qty }, newMarketOrderId)

/-- Lines 87 to 92 of `add`, for a NEW request: accept and match. Returns the book and
`leaves_qty`. -/
def matchRequest (b : MEOrderBook) (r : MEClientRequest) : Except Fault (MEOrderBook × ℕ) :=
  (b.accept r.clientId r.orderId r.tickerId r.side r.price r.qty).1.checkForMatch r.clientId
    r.orderId r.tickerId r.side r.price r.qty b.nextMarketOrderId

/-- Lines 96 to 102 of `add`: the remainder becomes a resting order. Returns the book, the
priority and the order. -/
def addRemainder (b : MEOrderBook) (clientId clientOrderId tickerId newMarketOrderId : ℕ)
    (side : Side) (price : ℤ) (leavesQty : ℕ) : Except Fault (MEOrderBook × ℕ × Ptr) := do
  let priority ← b.getNextPriority price
  let record : MEOrder :=
    { tickerId, clientId, clientOrderId, marketOrderId := newMarketOrderId, side, price,
      qty := leavesQty, priority }
  let (order, pool) ← b.orderPool.allocate { order := record }
  let b := { b with orderPool := pool }
  let b ← b.onBook fun book => book.addOrder order
  return (b, priority, order)

/-- Lines 95 to 105 of `add`: the remainder, if any, rests and is announced once. -/
def rest (b : MEOrderBook) (clientId clientOrderId tickerId newMarketOrderId : ℕ) (side : Side)
    (price : ℤ) (leavesQty : ℕ) : Except Fault MEOrderBook :=
  if leavesQty = 0 then .ok b
  else do
    let (b, priority, _) ←
      b.addRemainder clientId clientOrderId tickerId newMarketOrderId side price leavesQty
    return b.publish
      { type := .add, orderId := newMarketOrderId, tickerId, side, price, qty := leavesQty, priority }

/-- `add` through line 102: accept, match, and let the remainder rest. -/
def matchAndRest (b : MEOrderBook) (clientId clientOrderId tickerId : ℕ) (side : Side) (price : ℤ)
    (qty : ℕ) : Except Fault MEOrderBook := do
  let (b, newMarketOrderId) := b.accept clientId clientOrderId tickerId side price qty
  let (b, leavesQty) ←
    b.checkForMatch clientId clientOrderId tickerId side price qty newMarketOrderId
  if leavesQty = 0 then return b
  else
    let (b, _, _) ←
      b.addRemainder clientId clientOrderId tickerId newMarketOrderId side price leavesQty
    return b

/-- `add`, the whole body. `exchangeOrder` gives the value of the undeclared name
`exchange_order` once the remainder rests at a block. -/
def add (exchangeOrder : Ptr → Ptr) (b : MEOrderBook) (clientId clientOrderId tickerId : ℕ)
    (side : Side) (price : ℤ) (qty : ℕ) : Except Fault MEOrderBook := do
  let (b, newMarketOrderId) := b.accept clientId clientOrderId tickerId side price qty
  let (b, leavesQty) ←
    b.checkForMatch clientId clientOrderId tickerId side price qty newMarketOrderId
  if leavesQty = 0 then return b.respond b.clientResponse
  else
    let (b, priority, order) ←
      b.addRemainder clientId clientOrderId tickerId newMarketOrderId side price leavesQty
    let b := b.publish
      { type := .add, orderId := newMarketOrderId, tickerId, side, price, qty := leavesQty, priority }
    let b ← b.onBook fun book => book.removeOrder (exchangeOrder order)
    let b := b.sendMarketUpdate
    return b.respond b.clientResponse

/-- The lookup of `cancel`: the order of a client, where `at` throws for an order id out of
range. -/
def findOrder (b : MEOrderBook) (clientId orderId : ℕ) : Except Fault (Option Ptr) :=
  if clientId < meMaxNumClients then
    if orderId < meMaxOrderIds then .ok (b.orderIndex (clientId, orderId)) else .error .outOfRange
  else .ok none

/-- `cancel`. -/
def cancel (b : MEOrderBook) (clientId orderId tickerId : ℕ) : Except Fault MEOrderBook := do
  let exchangeOrder ← b.findOrder clientId orderId
  match exchangeOrder with
  | none =>
    return b.respond
      { type := .cancelRejected, clientId, tickerId, clientOrderId := orderId,
        marketOrderId := OrderId.invalid, side := .invalid, price := Price.invalid,
        execQty := Qty.invalid, leavesQty := Qty.invalid }
  | some exchangeOrder =>
    let order := (b.node exchangeOrder).order
    let response : MEClientResponse :=
      { type := .canceled, clientId, tickerId, clientOrderId := orderId,
        marketOrderId := order.marketOrderId, side := order.side, price := order.price,
        execQty := Qty.invalid, leavesQty := order.qty }
    let update : MEMarketUpdate :=
      { type := .cancel, orderId := order.marketOrderId, tickerId, side := order.side,
        price := order.price, qty := 0, priority := order.priority }
    let b := { b with clientResponse := response, marketUpdate := update }
    let b ← b.onBook fun book => book.removeOrder exchangeOrder
    let b := b.sendMarketUpdate
    return b.respond b.clientResponse

/-- `MatchingEngine::processClientRequest` for the book of the request's ticker, over the body
of `add` in question. -/
def processClientRequest
    (add : MEOrderBook → ℕ → ℕ → ℕ → Side → ℤ → ℕ → Except Fault MEOrderBook) (b : MEOrderBook)
    (request : MEClientRequest) : Except Fault MEOrderBook :=
  match request.type with
  | .new =>
    add b request.clientId request.orderId request.tickerId request.side request.price request.qty
  | .cancel => b.cancel request.clientId request.orderId request.tickerId
  | .invalid => .error (.assert
    ("Received invalid client-request-type: " ++ clientRequestTypeToString request.type))

/-! ## A NEW request in two parts -/

section Parts

variable (b : MEOrderBook) (r : MEClientRequest)

/-- `add` through line 102, behind the matching. -/
lemma matchAndRest_eq :
    b.matchAndRest r.clientId r.orderId r.tickerId r.side r.price r.qty =
      b.matchRequest r >>= fun x =>
        if x.2 = 0 then .ok x.1
        else do
          let placed ← x.1.addRemainder r.clientId r.orderId r.tickerId b.nextMarketOrderId r.side
            r.price x.2
          return placed.1 := rfl

/-- `add`, behind the matching. -/
lemma add_eq (exchangeOrder : Ptr → Ptr) :
    b.add exchangeOrder r.clientId r.orderId r.tickerId r.side r.price r.qty =
      b.matchRequest r >>= fun x =>
        if x.2 = 0 then .ok (x.1.respond x.1.clientResponse)
        else do
          let placed ← x.1.addRemainder r.clientId r.orderId r.tickerId b.nextMarketOrderId r.side
            r.price x.2
          let b' ← (placed.1.publish
            { type := .add, orderId := b.nextMarketOrderId, tickerId := r.tickerId, side := r.side,
              price := r.price, qty := x.2, priority := placed.2.1 }).onBook fun book =>
            book.removeOrder (exchangeOrder placed.2.2)
          return b'.sendMarketUpdate.respond b'.sendMarketUpdate.clientResponse := rfl

end Parts

end MEOrderBook

end Exchange
