import HftSystem.Common.LimitOrderBook
import HftSystem.Exchange.Messages

set_option relaxedAutoImplicit false
set_option autoImplicit false

/-!
# The order book of a client

`trading/strategy/market_order_book.{h,cpp}` with the records of `market_order.h`. The lists,
tables and pools are the shared `LimitOrderBook`, whose identifiers are market order ids. The
notifications to the trade engine are left out.

## Main definitions

* `Trading.MarketOrder`, `Trading.BBO`, `Trading.MarketOrderBook` — the records and the book.
* `Trading.MarketOrderBook.onMarketUpdate` — how the book processes a market update.
* `Trading.onMarketUpdates` — the loop of `TradeEngine::run` over the books of all tickers.
-/

namespace Trading

open Common Exchange LimitOrderBook

/-- `MarketOrder`, without the links. -/
structure MarketOrder where
  orderId : ℕ := OrderId.invalid
  side : Side := .invalid
  price : ℤ := Price.invalid
  qty : ℕ := Qty.invalid
  priority : ℕ := Priority.invalid
  deriving DecidableEq, Repr

/-- The default order of a pool. -/
instance : Inhabited MarketOrder := ⟨{}⟩

/-- The entry of `oid_to_order_` for an order id. -/
def orderSlot (orderId : ℕ) : Option ℕ := if orderId < meMaxOrderIds then some orderId else none

/-- The fields of a `MarketOrder` that the lists read, and its entry in the table. -/
instance : BookOrder MarketOrder ℕ where
  side := MarketOrder.side
  price := MarketOrder.price
  slot o := orderSlot o.orderId

/-- `BBO`. -/
structure BBO where
  bidPrice : ℤ := Price.invalid
  askPrice : ℤ := Price.invalid
  bidQty : ℕ := Qty.invalid
  askQty : ℕ := Qty.invalid
  deriving DecidableEq, Repr

/-- `MarketOrderBook`. -/
structure MarketOrderBook extends LimitOrderBook MarketOrder ℕ where
  bbo : BBO := {}

namespace MarketOrderBook

/-- The constructor. -/
def new : MarketOrderBook :=
  { ordersAtPricePool := .new meMaxPriceLevels, orderPool := .new meMaxOrderIds }

/-! ## The best bid and offer -/

/-- `bbo_.bid_qty_ += order->qty_`, in `uint32_t`. -/
def addQty (qty orderQty : ℕ) : ℕ := (qty + orderQty) % 2 ^ 32

/-- The total quantity of a level: its first order, and the loop over the others. -/
def levelQty (b : MarketOrderBook) (ordersAtPrice : Ptr) : Except Fault ℕ := do
  let first ← deref (b.level ordersAtPrice).firstOrder
  let second ← deref (b.node first).nextOrder
  let others ← walk (fun p => (b.node p).nextOrder) first (b.orderPool.size + 1) second
  return (others.map fun p => (b.node p).order.qty).foldl addQty (b.node first).order.qty

/-- The price and the quantity of the best level of a side. -/
def topOfBook (b : MarketOrderBook) (best : Option Ptr) : Except Fault (ℤ × ℕ) :=
  match best with
  | none => .ok (Price.invalid, Qty.invalid)
  | some best => do
    let qty ← b.levelQty best
    return ((b.level best).price, qty)

/-- `updateBBO` for the bids. -/
def updateBid (b : MarketOrderBook) (updateBid : Bool) : Except Fault MarketOrderBook :=
  if updateBid then do
    let (bidPrice, bidQty) ← b.topOfBook b.bidsByPrice
    return { b with bbo := { b.bbo with bidPrice, bidQty } }
  else .ok b

/-- `updateBBO` for the asks. -/
def updateAsk (b : MarketOrderBook) (updateAsk : Bool) : Except Fault MarketOrderBook :=
  if updateAsk then do
    let (askPrice, askQty) ← b.topOfBook b.asksByPrice
    return { b with bbo := { b.bbo with askPrice, askQty } }
  else .ok b

/-- `updateBBO`. -/
def updateBBO (b : MarketOrderBook) (updateBid updateAsk : Bool) : Except Fault MarketOrderBook := do
  let b ← b.updateBid updateBid
  b.updateAsk updateAsk

/-- The value of `bid_updated`, computed before the update is applied. -/
def bidUpdated (b : MarketOrderBook) (u : MEMarketUpdate) : Bool :=
  match b.bidsByPrice with
  | some best => u.side = .buy && u.price ≥ (b.level best).price
  | none => false

/-- The value of `ask_updated`, computed before the update is applied. -/
def askUpdated (b : MarketOrderBook) (u : MEMarketUpdate) : Bool :=
  match b.asksByPrice with
  | some best => u.side = .sell && u.price ≤ (b.level best).price
  | none => false

/-! ## Market updates -/

/-- Run an operation of the shared book. -/
def onBook (b : MarketOrderBook)
    (f : LimitOrderBook MarketOrder ℕ → Except Fault (LimitOrderBook MarketOrder ℕ)) :
    Except Fault MarketOrderBook := do
  let book ← f b.toLimitOrderBook
  return { b with toLimitOrderBook := book }

/-- The record of an ADD. -/
def record (u : MEMarketUpdate) : MarketOrder :=
  { orderId := u.orderId, side := u.side, price := u.price, qty := u.qty, priority := u.priority }

/-- `oid_to_order_.at(order_id)`, which the caller then follows. -/
def orderAt (b : MarketOrderBook) (orderId : ℕ) : Except Fault Ptr :=
  match orderSlot orderId with
  | some k => deref (b.orderIndex k)
  | none => .error .outOfRange

/-- Deallocate the orders that `oid_to_order_` still has. -/
def deallocateOrders (b : MarketOrderBook) : Except Fault (MemPool (OrderNode MarketOrder)) :=
  (List.range meMaxOrderIds).foldlM (fun pool orderId =>
    match b.orderIndex orderId with
    | some order => pool.deallocate order
    | none => .ok pool) b.orderPool

/-- Deallocate the levels of a side: the ones behind the best level, and then that one. A
deallocated level keeps its links. -/
def deallocateLevels (b : MarketOrderBook) (best : Option Ptr) (pool : MemPool OrdersAtPrice) :
    Except Fault (MemPool OrdersAtPrice) :=
  match best with
  | none => .ok pool
  | some best => do
    let next ← deref (b.level best).nextEntry
    let others ← walk (fun a => (b.level a).nextEntry) best (b.ordersAtPricePool.size + 1) next
    let pool ← others.foldlM MemPool.deallocate pool
    pool.deallocate best

/-- The CLEAR branch of `onMarketUpdate`. The table of price levels keeps its entries. -/
def clear (b : MarketOrderBook) : Except Fault MarketOrderBook := do
  let orderPool ← b.deallocateOrders
  let b := { b with orderPool, orderIndex := fun _ => none }
  let pool ← b.deallocateLevels b.bidsByPrice b.ordersAtPricePool
  let pool ← b.deallocateLevels b.asksByPrice pool
  return { b with ordersAtPricePool := pool, bidsByPrice := none, asksByPrice := none }

/-- The `switch` of `onMarketUpdate`, without the TRADE branch. -/
def applyUpdate (b : MarketOrderBook) (u : MEMarketUpdate) : Except Fault MarketOrderBook :=
  match u.type with
  | .add => do
    let (order, pool) ← b.orderPool.allocate { order := record u }
    { b with orderPool := pool }.onBook fun book => book.addOrder order
  | .modify => do
    let order ← b.orderAt u.orderId
    return { b with toLimitOrderBook := b.modifyOrder order fun o => { o with qty := u.qty } }
  | .cancel => do
    let order ← b.orderAt u.orderId
    b.onBook fun book => book.removeOrder order
  | .clear => b.clear
  | .trade | .invalid | .snapshotStart | .snapshotEnd => .ok b

/-- `onMarketUpdate`. A TRADE only notifies the trade engine. -/
def onMarketUpdate (b : MarketOrderBook) (u : MEMarketUpdate) : Except Fault MarketOrderBook :=
  if u.type = .trade then .ok b
  else do
    let b' ← b.applyUpdate u
    b'.updateBBO (b.bidUpdated u) (b.askUpdated u)

end MarketOrderBook

/-- The text of the assertion of `TradeEngine::run`. -/
def unknownTickerMsg (u : MEMarketUpdate) : String := "Unknown ticker-id on update:" ++ u.toString

/-- `TradeEngine::run` passes an update to the book of its ticker. -/
def dispatch (books : ℕ → MarketOrderBook) (u : MEMarketUpdate) :
    Except Fault (ℕ → MarketOrderBook) := do
  ASSERT (u.tickerId < meMaxTickers) (unknownTickerMsg u)
  let book ← (books u.tickerId).onMarketUpdate u
  return Function.update books u.tickerId book

/-- The books after the updates of a queue were processed in order. -/
def onMarketUpdates (books : ℕ → MarketOrderBook) (us : List MEMarketUpdate) :
    Except Fault (ℕ → MarketOrderBook) := us.foldlM dispatch books

end Trading
