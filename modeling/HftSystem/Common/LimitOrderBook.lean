import Mathlib.Tactic.Simps.Basic
import HftSystem.Common.MemPool

set_option relaxedAutoImplicit false
set_option autoImplicit false

/-!
# The limit order book

`exchange/matcher/me_order_book.h` and `trading/strategy/market_order_book.h` contain the same
book: two circular lists of price levels, a circular FIFO of orders in every level, one table
from the bucket of a price to its level, one table from an order's identifier to the order, and
two memory pools. It is written here once, over the type `ω` of the order records and the type
`κ` of the identifiers; the two classes instantiate it and keep their own names.

## Main definitions

* `Common.BookOrder` — what the book reads from an order record.
* `Common.OrderNode`, `Common.OrdersAtPrice` — an order and a price level in their pools.
* `Common.LimitOrderBook` — the state of the book, with `addOrdersAtPrice`,
  `removeOrdersAtPrice`, `addOrder` and `removeOrder`.
-/

namespace Common

/-- What the book reads from an order record. `slot` is the entry of the identifier table that
the record names, or `none` where `std::array::at` throws. -/
class BookOrder (ω : Type) (κ : outParam Type) where
  side : ω → Side
  price : ω → ℤ
  slot : ω → Option κ

/-- An order in the pool: its record and its `prev_order_` and `next_order_`. -/
structure OrderNode (ω : Type) where
  order : ω
  prevOrder : Option Ptr := none
  nextOrder : Option Ptr := none
  deriving Inhabited

/-- A price level in the pool: `MEOrdersAtPrice` and `MarketOrdersAtPrice`. -/
structure OrdersAtPrice where
  side : Side := .invalid
  price : ℤ := Price.invalid
  firstOrder : Option Ptr := none
  prevEntry : Option Ptr := none
  nextEntry : Option Ptr := none

/-- The default level of a pool. -/
instance : Inhabited OrdersAtPrice := ⟨{}⟩

/-- The state that the two book classes share. -/
structure LimitOrderBook (ω κ : Type) where
  ordersAtPricePool : MemPool OrdersAtPrice
  bidsByPrice : Option Ptr := none
  asksByPrice : Option Ptr := none
  priceOrdersAtPrice : ℕ → Option Ptr := fun _ => none
  orderPool : MemPool (OrderNode ω)
  orderIndex : κ → Option Ptr := fun _ => none

namespace LimitOrderBook

variable {ω κ : Type}

/-! ## Reading and writing the pools -/

/-- The price level at an address. -/
def level (b : LimitOrderBook ω κ) (a : Ptr) : OrdersAtPrice := b.ordersAtPricePool.get a

/-- The order at an address. -/
def node (b : LimitOrderBook ω κ) (p : Ptr) : OrderNode ω := b.orderPool.get p

/-- `side == Side::BUY ? bids_by_price_ : asks_by_price_`. -/
def bestOrdersByPrice (b : LimitOrderBook ω κ) (side : Side) : Option Ptr :=
  if side = .buy then b.bidsByPrice else b.asksByPrice

/-- Assign to `side == Side::BUY ? bids_by_price_ : asks_by_price_`. -/
@[simps] def setBest (b : LimitOrderBook ω κ) (side : Side) (best : Option Ptr) :
    LimitOrderBook ω κ :=
  { b with
    bidsByPrice := if side = .buy then best else b.bidsByPrice
    asksByPrice := if side = .buy then b.asksByPrice else best }

/-- Write to a price level through its pointer. -/
@[simps] def modifyLevel (b : LimitOrderBook ω κ) (a : Ptr) (f : OrdersAtPrice → OrdersAtPrice) :
    LimitOrderBook ω κ :=
  { b with ordersAtPricePool := b.ordersAtPricePool.modify a f }

/-- Write to an order through its pointer. -/
@[simps] def modifyNode (b : LimitOrderBook ω κ) (p : Ptr) (f : OrderNode ω → OrderNode ω) :
    LimitOrderBook ω κ :=
  { b with orderPool := b.orderPool.modify p f }

/-- `price_orders_at_price_.at(priceToIndex(price)) = a`. -/
@[simps] def setOrdersAtPrice (b : LimitOrderBook ω κ) (price : ℤ) (a : Option Ptr) :
    LimitOrderBook ω κ :=
  { b with priceOrdersAtPrice := Function.update b.priceOrdersAtPrice (priceToIndex price) a }

/-- `a->next_entry_ = x`. -/
def setNextEntry (b : LimitOrderBook ω κ) (a : Ptr) (x : Option Ptr) : LimitOrderBook ω κ :=
  b.modifyLevel a fun l => { l with nextEntry := x }

/-- `a->prev_entry_ = x`. -/
def setPrevEntry (b : LimitOrderBook ω κ) (a : Ptr) (x : Option Ptr) : LimitOrderBook ω κ :=
  b.modifyLevel a fun l => { l with prevEntry := x }

/-- `a->first_order_ = x`. -/
def setFirstOrder (b : LimitOrderBook ω κ) (a : Ptr) (x : Option Ptr) : LimitOrderBook ω κ :=
  b.modifyLevel a fun l => { l with firstOrder := x }

/-- `p->next_order_ = x`. -/
def setNextOrder (b : LimitOrderBook ω κ) (p : Ptr) (x : Option Ptr) : LimitOrderBook ω κ :=
  b.modifyNode p fun n => { n with nextOrder := x }

/-- `p->prev_order_ = x`. -/
def setPrevOrder (b : LimitOrderBook ω κ) (p : Ptr) (x : Option Ptr) : LimitOrderBook ω κ :=
  b.modifyNode p fun n => { n with prevOrder := x }

/-- Write to the record of an order through its pointer. -/
def modifyOrder (b : LimitOrderBook ω κ) (p : Ptr) (f : ω → ω) : LimitOrderBook ω κ :=
  b.modifyNode p fun n => { n with order := f n.order }

/-- Write an entry of the identifier table, where `at` throws for an identifier out of range. -/
def setIndex [DecidableEq κ] (b : LimitOrderBook ω κ) (slot : Option κ) (p : Option Ptr) :
    Except Fault (LimitOrderBook ω κ) :=
  match slot with
  | some k => .ok { b with orderIndex := Function.update b.orderIndex k p }
  | none => .error .outOfRange

/-! Each write is seen through the record of the block it goes to. -/

/-- The level after its link to the next one was written. -/
@[simp] lemma level_setNextEntry (b : LimitOrderBook ω κ) (a c : Ptr) (x : Option Ptr) :
    (b.setNextEntry a x).level c =
      { b.level c with nextEntry := if c = a then x else (b.level c).nextEntry } := by
  by_cases h : c = a <;> simp [level, setNextEntry, h]

/-- The level after its link to the previous one was written. -/
@[simp] lemma level_setPrevEntry (b : LimitOrderBook ω κ) (a c : Ptr) (x : Option Ptr) :
    (b.setPrevEntry a x).level c =
      { b.level c with prevEntry := if c = a then x else (b.level c).prevEntry } := by
  by_cases h : c = a <;> simp [level, setPrevEntry, h]

/-- The level after its first order was written. -/
@[simp] lemma level_setFirstOrder (b : LimitOrderBook ω κ) (a c : Ptr) (x : Option Ptr) :
    (b.setFirstOrder a x).level c =
      { b.level c with firstOrder := if c = a then x else (b.level c).firstOrder } := by
  by_cases h : c = a <;> simp [level, setFirstOrder, h]

/-- The order after its link to the next one was written. -/
@[simp] lemma node_setNextOrder (b : LimitOrderBook ω κ) (p q : Ptr) (x : Option Ptr) :
    (b.setNextOrder p x).node q =
      { b.node q with nextOrder := if q = p then x else (b.node q).nextOrder } := by
  by_cases h : q = p <;> simp [node, setNextOrder, h]

/-- The order after its link to the previous one was written. -/
@[simp] lemma node_setPrevOrder (b : LimitOrderBook ω κ) (p q : Ptr) (x : Option Ptr) :
    (b.setPrevOrder p x).node q =
      { b.node q with prevOrder := if q = p then x else (b.node q).prevOrder } := by
  by_cases h : q = p <;> simp [node, setPrevOrder, h]

/-- The order after its record was written. -/
@[simp] lemma node_modifyOrder (b : LimitOrderBook ω κ) (p q : Ptr) (f : ω → ω) :
    (b.modifyOrder p f).node q =
      { b.node q with order := if q = p then f (b.node q).order else (b.node q).order } := by
  by_cases h : q = p <;> simp [node, modifyOrder, h]

/-! ## The operations -/

/-- `getOrdersAtPrice`. -/
def getOrdersAtPrice (b : LimitOrderBook ω κ) (price : ℤ) : Option Ptr :=
  b.priceOrdersAtPrice (priceToIndex price)

/-- The value of `add_after`: the new level belongs behind a level at price `target`. -/
def addAfter (side : Side) (price target : ℤ) : Bool :=
  (side = .sell && price > target) || (side = .buy && price < target)

/-- The test for a new best level. -/
def isBetter (side : Side) (price best : ℤ) : Bool :=
  (side = .buy && price > best) || (side = .sell && price < best)

/-- `while (add_after && target != best_orders_by_price)`, bounded by `fuel`. -/
def advanceTarget (b : LimitOrderBook ω κ) (side : Side) (price : ℤ) (best : Ptr) :
    ℕ → Bool → Ptr → Except Fault (Bool × Ptr)
  | 0, _, _ => .error .diverges
  | fuel + 1, after, target =>
    if after && target != best then
      if addAfter side price (b.level target).price then do
        let target ← deref (b.level target).nextEntry
        b.advanceTarget side price best fuel true target
      else b.advanceTarget side price best fuel false target
    else .ok (after, target)

/-- The search of `addOrdersAtPrice`: `add_after` and `target` when the loop is over. The loop
visits every other level at most once, so the number of blocks bounds its iterations. -/
def findTarget (b : LimitOrderBook ω κ) (side : Side) (price : ℤ) (best : Ptr) :
    Except Fault (Bool × Ptr) :=
  let fuel := b.ordersAtPricePool.size + 1
  if addAfter side price (b.level best).price then do
    let target ← deref (b.level best).nextEntry
    b.advanceTarget side price best fuel (addAfter side price (b.level target).price) target
  else b.advanceTarget side price best fuel false best

/-- "add new_orders_at_price after target". -/
def insertAfter (b : LimitOrderBook ω κ) (new target best : Ptr) :
    Except Fault (LimitOrderBook ω κ) := do
  let target ← if target = best then deref (b.level best).prevEntry else .ok target
  let b := b.setPrevEntry new (some target)
  let next ← deref (b.level target).nextEntry
  let b := b.setPrevEntry next (some new)
  let b := b.setNextEntry new (b.level target).nextEntry
  return b.setNextEntry target (some new)

/-- "add new_orders_at_price before target", which may make it the best level. -/
def insertBefore (b : LimitOrderBook ω κ) (side : Side) (price : ℤ) (new target best : Ptr) :
    Except Fault (LimitOrderBook ω κ) := do
  let b := b.setPrevEntry new (b.level target).prevEntry
  let b := b.setNextEntry new (some target)
  let prev ← deref (b.level target).prevEntry
  let b := b.setNextEntry prev (some new)
  let b := b.setPrevEntry target (some new)
  if isBetter side price (b.level best).price then
    let next := (b.level target).nextEntry
    let b := b.setNextEntry target (if next = some best then some new else next)
    return b.setBest side (some new)
  else
    return b

/-- `addOrdersAtPrice`: put a new level into the table and into the list of its side. -/
def addOrdersAtPrice (b : LimitOrderBook ω κ) (new : Ptr) : Except Fault (LimitOrderBook ω κ) :=
  let side := (b.level new).side
  let price := (b.level new).price
  let b := b.setOrdersAtPrice price (some new)
  match b.bestOrdersByPrice side with
  | none => .ok (((b.setBest side (some new)).setNextEntry new (some new)).setPrevEntry new (some new))
  | some best => do
    let (after, target) ← b.findTarget side price best
    if after then b.insertAfter new target best else b.insertBefore side price new target best

/-- The branch of `removeOrdersAtPrice` for a level that is not the only one of its side. -/
def unlinkEntry (b : LimitOrderBook ω κ) (side : Side) (ordersAtPrice : Ptr) :
    Except Fault (LimitOrderBook ω κ) := do
  let best := b.bestOrdersByPrice side
  let prev ← deref (b.level ordersAtPrice).prevEntry
  let b := b.setNextEntry prev (b.level ordersAtPrice).nextEntry
  let next ← deref (b.level ordersAtPrice).nextEntry
  let b := b.setPrevEntry next (b.level ordersAtPrice).prevEntry
  let b := if some ordersAtPrice = best then b.setBest side (b.level ordersAtPrice).nextEntry else b
  return (b.setNextEntry ordersAtPrice none).setPrevEntry ordersAtPrice none

/-- Take a level out of the list of its side. A level that is its own successor is the only
one: "empty side of the book". -/
def detachEntry (b : LimitOrderBook ω κ) (side : Side) (ordersAtPrice : Ptr) :
    Except Fault (LimitOrderBook ω κ) :=
  if (b.level ordersAtPrice).nextEntry = some ordersAtPrice then .ok (b.setBest side none)
  else b.unlinkEntry side ordersAtPrice

/-- `removeOrdersAtPrice`. -/
def removeOrdersAtPrice (b : LimitOrderBook ω κ) (side : Side) (price : ℤ) :
    Except Fault (LimitOrderBook ω κ) := do
  let ordersAtPrice ← deref (b.getOrdersAtPrice price)
  let b ← b.detachEntry side ordersAtPrice
  let b := b.setOrdersAtPrice price none
  let pool ← b.ordersAtPricePool.deallocate ordersAtPrice
  return { b with ordersAtPricePool := pool }

/-- Append an order to the FIFO of a level that exists. -/
def appendOrder (b : LimitOrderBook ω κ) (ordersAtPrice order : Ptr) :
    Except Fault (LimitOrderBook ω κ) := do
  let first ← deref (b.level ordersAtPrice).firstOrder
  let last ← deref (b.node first).prevOrder
  let b := b.setNextOrder last (some order)
  let b := b.setPrevOrder order (b.node first).prevOrder
  let b := b.setNextOrder order (some first)
  return b.setPrevOrder first (some order)

/-- Open a level for an order whose bucket is empty. -/
def openLevel [BookOrder ω κ] (b : LimitOrderBook ω κ) (order : Ptr) :
    Except Fault (LimitOrderBook ω κ) := do
  let b := (b.setPrevOrder order (some order)).setNextOrder order (some order)
  let record := (b.node order).order
  let (new, pool) ← b.ordersAtPricePool.allocate
    { side := BookOrder.side record, price := BookOrder.price record, firstOrder := some order }
  LimitOrderBook.addOrdersAtPrice { b with ordersAtPricePool := pool } new

/-- Queue an order in the level found in the bucket of its price, whatever that level's own
price and side are. -/
def enqueueOrder [BookOrder ω κ] (b : LimitOrderBook ω κ) (order : Ptr) :
    Except Fault (LimitOrderBook ω κ) :=
  match b.getOrdersAtPrice (BookOrder.price (b.node order).order) with
  | none => b.openLevel order
  | some ordersAtPrice => b.appendOrder ordersAtPrice order

/-- `addOrder`. -/
def addOrder [BookOrder ω κ] [DecidableEq κ] (b : LimitOrderBook ω κ) (order : Ptr) :
    Except Fault (LimitOrderBook ω κ) := do
  let slot := BookOrder.slot (b.node order).order
  let b ← b.enqueueOrder order
  b.setIndex slot (some order)

/-- The branch of `removeOrder` for an order that is not alone in its level. -/
def unlinkOrder (b : LimitOrderBook ω κ) (ordersAtPrice : Option Ptr) (order : Ptr) :
    Except Fault (LimitOrderBook ω κ) := do
  let orderBefore ← deref (b.node order).prevOrder
  let orderAfter ← deref (b.node order).nextOrder
  let b := b.setNextOrder orderBefore (some orderAfter)
  let b := b.setPrevOrder orderAfter (some orderBefore)
  let ordersAtPrice ← deref ordersAtPrice
  let b := if (b.level ordersAtPrice).firstOrder = some order then
    b.setFirstOrder ordersAtPrice (some orderAfter) else b
  return (b.setNextOrder order none).setPrevOrder order none

/-- Take an order out of its queue. An order that is its own predecessor is the only one of its
level, which goes with it. -/
def dequeueOrder [BookOrder ω κ] (b : LimitOrderBook ω κ) (order : Ptr) :
    Except Fault (LimitOrderBook ω κ) :=
  let record := (b.node order).order
  if (b.node order).prevOrder = some order then
    b.removeOrdersAtPrice (BookOrder.side record) (BookOrder.price record)
  else b.unlinkOrder (b.getOrdersAtPrice (BookOrder.price record)) order

/-- `removeOrder`. -/
def removeOrder [BookOrder ω κ] [DecidableEq κ] (b : LimitOrderBook ω κ) (order : Ptr) :
    Except Fault (LimitOrderBook ω κ) := do
  let slot := BookOrder.slot (b.node order).order
  let b ← b.dequeueOrder order
  let b ← b.setIndex slot none
  let pool ← b.orderPool.deallocate order
  return { b with orderPool := pool }

/-- The pointer chase over a circular list that starts behind `first`: the addresses visited by
`for (p = first->next; p != first; p = p->next)`, bounded by `fuel`. -/
def walk (next : Ptr → Option Ptr) (first : Ptr) : ℕ → Ptr → Except Fault (List Ptr)
  | 0, _ => .error .diverges
  | fuel + 1, p =>
    if p = first then .ok []
    else do
      let q ← deref (next p)
      let rest ← walk next first fuel q
      return p :: rest

/-- The prices of a side, as `toString` follows them: from the best level along `next_entry_`, until
it leads back there. -/
def levelPrices (b : LimitOrderBook ω κ) (side : Side) : Except Fault (List ℤ) :=
  match b.bestOrdersByPrice side with
  | none => .ok []
  | some best => do
    let next ← deref (b.level best).nextEntry
    let others ← walk (fun a => (b.level a).nextEntry) best (b.ordersAtPricePool.size + 1) next
    return (best :: others).map fun a => (b.level a).price

end LimitOrderBook

end Common
