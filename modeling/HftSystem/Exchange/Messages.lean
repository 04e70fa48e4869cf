import HftSystem.Common.Types

set_option relaxedAutoImplicit false
set_option autoImplicit false

/-!
# Messages of the exchange

The records of `order_server/client_request.h`, `order_server/client_response.h` and
`market_data/market_update.h`, with their defaults, and the texts that assertions print.

## Main definitions

* `Exchange.MEClientRequest`, `Exchange.MEClientResponse` — what clients and the exchange send
  each other.
* `Exchange.MEMarketUpdate`, `Exchange.MDPMarketUpdate` — market data, and market data numbered
  for publication.
* `Exchange.numberedFrom` — the numbering.
-/

namespace Exchange

open Common

/-- `ClientRequestType`. -/
inductive ClientRequestType
  | invalid
  | new
  | cancel
  deriving DecidableEq, Repr

/-- `clientRequestTypeToString`. -/
def clientRequestTypeToString : ClientRequestType → String
  | .new => "NEW"
  | .cancel => "CANCEL"
  | .invalid => "INVALID"

/-- `MEClientRequest`. -/
structure MEClientRequest where
  type : ClientRequestType := .invalid
  clientId : ℕ := ClientId.invalid
  tickerId : ℕ := TickerId.invalid
  orderId : ℕ := OrderId.invalid
  side : Side := .invalid
  price : ℤ := Price.invalid
  qty : ℕ := Qty.invalid
  deriving DecidableEq, Repr

/-- `ClientResponseType`. -/
inductive ClientResponseType
  | invalid
  | accepted
  | canceled
  | filled
  | cancelRejected
  deriving DecidableEq, Repr

/-- `MEClientResponse`. -/
structure MEClientResponse where
  type : ClientResponseType := .invalid
  clientId : ℕ := ClientId.invalid
  tickerId : ℕ := TickerId.invalid
  clientOrderId : ℕ := OrderId.invalid
  marketOrderId : ℕ := OrderId.invalid
  side : Side := .invalid
  price : ℤ := Price.invalid
  execQty : ℕ := Qty.invalid
  leavesQty : ℕ := Qty.invalid
  deriving DecidableEq, Repr

/-- `MarketUpdateType`. -/
inductive MarketUpdateType
  | invalid
  | clear
  | add
  | modify
  | cancel
  | trade
  | snapshotStart
  | snapshotEnd
  deriving DecidableEq, Repr

/-- `marketUpdateTypeToString`, which has no case for three of the types. -/
def marketUpdateTypeToString : MarketUpdateType → String
  | .add => "ADD"
  | .modify => "MODIFY"
  | .cancel => "CANCEL"
  | .trade => "TRADE"
  | .invalid => "INVALID"
  | .clear | .snapshotStart | .snapshotEnd => "UNKNOWN"

/-- `MEMarketUpdate`. -/
structure MEMarketUpdate where
  type : MarketUpdateType := .invalid
  orderId : ℕ := OrderId.invalid
  tickerId : ℕ := TickerId.invalid
  side : Side := .invalid
  price : ℤ := Price.invalid
  qty : ℕ := Qty.invalid
  priority : ℕ := Priority.invalid
  deriving DecidableEq, Repr

/-- `MEMarketUpdate::toString`. -/
def MEMarketUpdate.toString (u : MEMarketUpdate) : String :=
  "MEMarketUpdate" ++ " [" ++ " type:" ++ marketUpdateTypeToString u.type ++
    " ticker:" ++ tickerIdToString u.tickerId ++ " oid:" ++ orderIdToString u.orderId ++
    " side:" ++ sideToString u.side ++ " qty:" ++ qtyToString u.qty ++
    " price:" ++ priceToString u.price ++ " priority:" ++ priorityToString u.priority ++ "]"

/-- `MDPMarketUpdate`: a market update with its sequence number. -/
structure MDPMarketUpdate where
  seqNum : ℕ := 0
  meMarketUpdate : MEMarketUpdate := {}
  deriving DecidableEq, Repr

/-- Number market updates consecutively: incremental updates from 1, and the messages of a
snapshot from 0. -/
def numberedFrom (start : ℕ) (us : List MEMarketUpdate) : List MDPMarketUpdate :=
  us.mapIdx fun i u => { seqNum := start + i, meMarketUpdate := u }

/-- No updates need no numbers. -/
@[simp] lemma numberedFrom_nil (start : ℕ) : numberedFrom start [] = [] := rfl

/-- The first update has the first number. -/
@[simp] lemma numberedFrom_cons (start : ℕ) (u : MEMarketUpdate) (us : List MEMarketUpdate) :
    numberedFrom start (u :: us) =
      { seqNum := start, meMarketUpdate := u } :: numberedFrom (start + 1) us := by
  simp [numberedFrom, List.mapIdx_cons, Nat.add_assoc, Nat.add_comm 1]

/-- The second of two streams is numbered from where the first one ends. -/
lemma numberedFrom_append (start : ℕ) (us us' : List MEMarketUpdate) :
    numberedFrom start (us ++ us') = numberedFrom start us ++ numberedFrom (start + us.length) us' := by
  induction us generalizing start with
  | nil => rfl
  | cons u us ih => simp [ih, Nat.add_assoc, Nat.add_comm 1]

end Exchange
