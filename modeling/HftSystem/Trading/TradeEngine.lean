import HftSystem.Trading.FeatureEngine

set_option relaxedAutoImplicit false
set_option autoImplicit false

/-!
# The trade engine

`trading/strategy/trade_engine.{h,cpp}` with the two algorithms, `market_maker.h` and
`liquidity_taker.h`. The engine takes responses and market updates off its two queues, keeps the
books, the features, the positions and the orders, and calls back the algorithm, which moves the
orders of the ticker.

`TradeEngineCfg` is not part of the repository, and has the fields that are used.
`fair_price != Feature_INVALID` and `agg_qty_ratio != Feature_INVALID` compare with a number that is
not a number, and always hold.

## Main definitions

* `Trading.TradeEngineSetup` — what an engine is constructed with.
* `Trading.TradeEngineState` — the engine.
* `Trading.TradeEngineState.quote`, `Trading.TradeEngineState.take` — the two algorithms.
* `Trading.TradeEngineState.onOrderBookUpdate`, `Trading.TradeEngineState.onTradeUpdate`,
  `Trading.TradeEngineState.onOrderUpdate` — the callbacks.
* `Trading.TradeEngineState.process` — one pass of a loop of `run`.

## Main results

* `Trading.TradeEngineState.onMarketUpdate_eq` — what an update does, in terms of what the algorithm
  wants.
* `Trading.TradeEngineState.wanted_congr` — the algorithm does not see features of other tickers.
-/

namespace Trading

open Common Exchange Fallible

/-- `AlgoType`. -/
inductive AlgoType
  | invalid
  | random
  | maker
  | taker
  | max
  deriving DecidableEq, Repr

/-- `TradeEngineCfg`. -/
structure TradeEngineCfg (F : Type) where
  clip : ℕ
  threshold : F
  riskCfg : RiskCfg F

/-- What a trade engine is constructed with, and how the compiler reads an `if` without braces and
an ambiguous call of `std::abs`. -/
structure TradeEngineSetup (F : Type) where
  algoType : AlgoType
  tickerCfg : ℕ → TradeEngineCfg F
  ifBody : IfBody := .nextStatement
  overload : AbsOverload := .sameWidth

/-- `ticker_cfg_.at(ticker_id)`. -/
def TradeEngineSetup.cfgAt {F : Type} (setup : TradeEngineSetup F) (tickerId : ℕ) :
    Except Fault (TradeEngineCfg F) :=
  if tickerId < meMaxTickers then .ok (setup.tickerCfg tickerId) else .error .outOfRange

/-- The limits of the tickers. -/
def TradeEngineSetup.riskCfg {F : Type} (setup : TradeEngineSetup F) (tickerId : ℕ) : RiskCfg F :=
  (setup.tickerCfg tickerId).riskCfg

/-- The algorithm moves orders, and listens to responses. -/
def TradeEngineSetup.Plays {F : Type} (setup : TradeEngineSetup F) : Prop :=
  setup.algoType = .maker ∨ setup.algoType = .taker

/-- Whether a client has one of the algorithms can be evaluated. -/
instance {F : Type} (setup : TradeEngineSetup F) : Decidable setup.Plays :=
  inferInstanceAs (Decidable (_ ∨ _))

/-- The feature is at least the threshold. What is not a number is not. -/
def AtLeast {F : Type} [LE F] (threshold : F) : Option F → Prop
  | some feature => threshold ≤ feature
  | none => False

/-- Whether a feature reaches a threshold can be evaluated. -/
instance decidableAtLeast {F : Type} [LE F] [DecidableLE F] (threshold : F) :
    (feature : Option F) → Decidable (AtLeast threshold feature)
  | some feature => inferInstanceAs (Decidable (threshold ≤ feature))
  | none => inferInstanceAs (Decidable False)

/-- `TradeEngine`: the books, the features, the positions and the orders. -/
structure TradeEngineState (F : Type) where
  tickerOrderBook : ℕ → MarketOrderBook := fun _ => .new
  featureEngine : FeatureEngine F := {}
  positionKeeper : PositionKeeper F
  orderManager : OrderManager

/-- What the loops of `run` take off the queues. -/
inductive TradeEngineEvent
  | response (clientResponse : MEClientResponse)
  | update (marketUpdate : MEMarketUpdate)
  deriving DecidableEq, Repr

/-- The ticker that an event is about. -/
def TradeEngineEvent.tickerId : TradeEngineEvent → ℕ
  | .response clientResponse => clientResponse.tickerId
  | .update marketUpdate => marketUpdate.tickerId

namespace TradeEngineState

variable {F : Type}

/-- The requests written to the queue of the order gateway. -/
def requests (e : TradeEngineState F) : List MEClientRequest := e.orderManager.requests

section Definitions

variable [Double F] [LE F] [DecidableLE F] (setup : TradeEngineSetup F)

/-- A new engine, with `open_vwap_` as the memory holds it. -/
def start (clientId : ℕ) (openVwap : ℕ → ℕ → F) : TradeEngineState F where
  positionKeeper := { tickerPosition := fun tickerId => .new (openVwap tickerId) }
  orderManager := { tradeEngine := { clientId } }

/-- `sendClientRequest`, which `main` calls itself when the algorithm is `RANDOM`. -/
def sendClientRequest (e : TradeEngineState F) (clientRequest : MEClientRequest) :
    TradeEngineState F :=
  { e with orderManager.tradeEngine := e.orderManager.tradeEngine.sendClientRequest clientRequest }

/-- `OrderManager::moveOrders`, with the risk manager as it is. -/
def moveOrders (e : TradeEngineState F) (tickerId : ℕ) (bidPrice askPrice : ℤ) (clip : ℕ) :
    Except Fault (TradeEngineState F) := do
  let orderManager ← e.orderManager.moveOrders setup.ifBody
    (checkPreTradeRisk setup.overload setup.riskCfg e.positionKeeper) tickerId bidPrice askPrice clip
  return { e with orderManager }

/-- The prices of `MarketMaker::onOrderBookUpdate`. -/
def quotePrices (threshold : F) (fairPrice : Option F) (bbo : BBO) : ℤ × ℤ :=
  (bbo.bidPrice - (if AtLeast threshold (fairPrice.map (· - (bbo.bidPrice : F))) then 0 else 1),
   bbo.askPrice + (if AtLeast threshold (fairPrice.map ((bbo.askPrice : F) - ·)) then 0 else 1))

/-- `MarketMaker::onOrderBookUpdate`. -/
def quote (e : TradeEngineState F) (tickerId : ℕ) (book : MarketOrderBook) :
    Except Fault (TradeEngineState F) :=
  if book.bbo.Valid then do
    let cfg ← setup.cfgAt tickerId
    let (bidPrice, askPrice) := quotePrices cfg.threshold e.featureEngine.mktPrice book.bbo
    e.moveOrders setup tickerId bidPrice askPrice cfg.clip
  else .ok e

/-- `LiquidityTaker::onTradeUpdate`. -/
def take (e : TradeEngineState F) (u : MEMarketUpdate) (book : MarketOrderBook) :
    Except Fault (TradeEngineState F) :=
  if book.bbo.Valid then do
    let cfg ← setup.cfgAt u.tickerId
    if AtLeast cfg.threshold e.featureEngine.aggTradeQtyRatio then
      if u.side = .buy then e.moveOrders setup u.tickerId book.bbo.askPrice Price.invalid cfg.clip
      else e.moveOrders setup u.tickerId Price.invalid book.bbo.bidPrice cfg.clip
    else return e
  else .ok e

/-- `algoOnOrderBookUpdate_`. -/
def algoOnOrderBookUpdate (e : TradeEngineState F) (tickerId : ℕ) (book : MarketOrderBook) :
    Except Fault (TradeEngineState F) :=
  match setup.algoType with
  | .maker => e.quote setup tickerId book
  | .taker | .invalid | .random | .max => .ok e

/-- `algoOnTradeUpdate_`. -/
def algoOnTradeUpdate (e : TradeEngineState F) (u : MEMarketUpdate) (book : MarketOrderBook) :
    Except Fault (TradeEngineState F) :=
  match setup.algoType with
  | .taker => e.take setup u book
  | .maker | .invalid | .random | .max => .ok e

/-- `algoOnOrderUpdate_`. -/
def algoOnOrderUpdate (e : TradeEngineState F) (clientResponse : MEClientResponse) :
    Except Fault (TradeEngineState F) :=
  match setup.algoType with
  | .maker | .taker => do
    let orderManager ← e.orderManager.onOrderUpdate clientResponse
    return { e with orderManager }
  | .invalid | .random | .max => .ok e

/-- `onOrderBookUpdate`. -/
def onOrderBookUpdate (e : TradeEngineState F) (tickerId : ℕ) (book : MarketOrderBook) :
    Except Fault (TradeEngineState F) := do
  let positionKeeper ← e.positionKeeper.updateBBO tickerId book.bbo
  let e := { e with positionKeeper, featureEngine := e.featureEngine.onOrderBookUpdate book }
  e.algoOnOrderBookUpdate setup tickerId book

/-- `onTradeUpdate`. -/
def onTradeUpdate (e : TradeEngineState F) (u : MEMarketUpdate) (book : MarketOrderBook) :
    Except Fault (TradeEngineState F) :=
  let e := { e with featureEngine := e.featureEngine.onTradeUpdate u book }
  e.algoOnTradeUpdate setup u book

/-- `onOrderUpdate`. -/
def onOrderUpdate (e : TradeEngineState F) (clientResponse : MEClientResponse) :
    Except Fault (TradeEngineState F) := do
  let positionKeeper ←
    (if clientResponse.type = .filled then e.positionKeeper.addFill clientResponse
    else .ok e.positionKeeper)
  let e := { e with positionKeeper }
  e.algoOnOrderUpdate setup clientResponse

/-- One pass of the loop of `run` over the market updates. The book of the ticker calls back. -/
def onMarketUpdate (e : TradeEngineState F) (u : MEMarketUpdate) :
    Except Fault (TradeEngineState F) := do
  ASSERT (u.tickerId < meMaxTickers) (unknownTickerMsg u)
  let book ← (e.tickerOrderBook u.tickerId).onMarketUpdate u
  let e := { e with tickerOrderBook := Function.update e.tickerOrderBook u.tickerId book }
  if u.type = .trade then e.onTradeUpdate setup u book
  else e.onOrderBookUpdate setup u.tickerId book

/-- One pass of a loop of `run`. -/
def process (e : TradeEngineState F) : TradeEngineEvent → Except Fault (TradeEngineState F)
  | .response clientResponse => e.onOrderUpdate setup clientResponse
  | .update marketUpdate => e.onMarketUpdate setup marketUpdate

end Definitions

/-! ## What a response does -/

section Responses

variable {setup : TradeEngineSetup F} {e e' : TradeEngineState F} {r : MEClientResponse}

/-- The algorithm listens. -/
lemma algoOnOrderUpdate_of_plays (h : setup.Plays) {om : OrderManager}
    (hom : e.orderManager.onOrderUpdate r = .ok om) :
    e.algoOnOrderUpdate setup r = .ok { e with orderManager := om } := by
  unfold algoOnOrderUpdate
  rcases h with h | h <;> simp only [h, hom, ok_bind] <;> rfl

/-- The algorithm does not listen. -/
lemma algoOnOrderUpdate_of_not_plays (h : ¬ setup.Plays) (e : TradeEngineState F)
    (r : MEClientResponse) : e.algoOnOrderUpdate setup r = .ok e := by
  unfold algoOnOrderUpdate
  unfold TradeEngineSetup.Plays at h
  cases htype : setup.algoType <;> simp_all

/-- **The algorithm hears of a response**, or does not listen. -/
lemma algoOnOrderUpdate_cases (h : e.algoOnOrderUpdate setup r = .ok e') :
    (setup.Plays ∧
        ∃ om, e.orderManager.onOrderUpdate r = .ok om ∧ e' = { e with orderManager := om }) ∨
      ¬ setup.Plays ∧ e' = e := by
  by_cases hplays : setup.Plays
  · refine .inl ⟨hplays, ?_⟩
    cases hom : e.orderManager.onOrderUpdate r with
    | error f =>
      unfold algoOnOrderUpdate at h
      rcases hplays with hplays | hplays <;> rw [hplays, hom] at h <;> cases h
    | ok om =>
      rw [algoOnOrderUpdate_of_plays hplays hom] at h
      exact ⟨om, rfl, (Except.ok.inj h).symm⟩
  · rw [algoOnOrderUpdate_of_not_plays hplays] at h
    exact .inr ⟨hplays, (Except.ok.inj h).symm⟩

end Responses

/-! ## What an update does -/

section Updates

variable [Double F] [LE F] [DecidableLE F] {setup : TradeEngineSetup F}

/-- The features after an update. -/
def featuresAfter (features : FeatureEngine F) (u : MEMarketUpdate) (book : MarketOrderBook) :
    FeatureEngine F :=
  if u.type = .trade then features.onTradeUpdate u book else features.onOrderBookUpdate book

/-- The positions after an update. -/
def positionsAfter (k : PositionKeeper F) (u : MEMarketUpdate) (book : MarketOrderBook) :
    Except Fault (PositionKeeper F) :=
  if u.type = .trade then .ok k else k.updateBBO u.tickerId book.bbo

/-- **What the algorithm wants** after an update: the prices of the bid and of the ask. -/
def wanted (setup : TradeEngineSetup F) (features : FeatureEngine F) (u : MEMarketUpdate)
    (book : MarketOrderBook) : Option (ℤ × ℤ) :=
  let cfg := setup.tickerCfg u.tickerId
  match setup.algoType with
  | .maker =>
    if u.type ≠ .trade ∧ book.bbo.Valid then
      some (quotePrices cfg.threshold features.mktPrice book.bbo)
    else none
  | .taker =>
    if u.type = .trade ∧ book.bbo.Valid ∧ AtLeast cfg.threshold features.aggTradeQtyRatio then
      some (if u.side = .buy then (book.bbo.askPrice, Price.invalid)
        else (Price.invalid, book.bbo.bidPrice))
    else none
  | .invalid | .random | .max => none

/-- The algorithm gets what it wants. -/
def moveTo (setup : TradeEngineSetup F) (e : TradeEngineState F) (tickerId : ℕ) :
    Option (ℤ × ℤ) → Except Fault (TradeEngineState F)
  | some prices =>
    e.moveOrders setup tickerId prices.1 prices.2 (setup.tickerCfg tickerId).clip
  | none => .ok e

omit [Double F] [LE F] [DecidableLE F] in
/-- The configuration of a ticker that exists. -/
lemma cfgAt_of_lt (setup : TradeEngineSetup F) {tickerId : ℕ} (h : tickerId < meMaxTickers) :
    setup.cfgAt tickerId = .ok (setup.tickerCfg tickerId) := if_pos h

/-- **What an update does**: the book of its ticker, the positions and the features are brought up to
date, and the algorithm gets what it wants.

**Proof sketch.** The calls of the update handlers are unfolded, with a trade and without one, and then
the algorithm. Only a maker acts on a book, only a taker on a trade, and both ask first if the best
prices are valid. -/
theorem onMarketUpdate_eq (e : TradeEngineState F) {u : MEMarketUpdate}
    (hticker : u.tickerId < meMaxTickers) :
    e.onMarketUpdate setup u = (do
      let book ← (e.tickerOrderBook u.tickerId).onMarketUpdate u
      let positionKeeper ← positionsAfter e.positionKeeper u book
      moveTo setup
        { e with
          tickerOrderBook := Function.update e.tickerOrderBook u.tickerId book
          positionKeeper
          featureEngine := featuresAfter e.featureEngine u book }
        u.tickerId (wanted setup (featuresAfter e.featureEngine u book) u book)) := by
  have hcfg := cfgAt_of_lt setup hticker
  unfold onMarketUpdate
  simp only [ASSERT_of_true hticker, ok_bind]
  congr 1
  funext book
  unfold positionsAfter featuresAfter wanted
  by_cases htrade : u.type = .trade
  · simp only [htrade, if_true, ok_bind, ne_eq, not_true_eq_false, false_and, if_false, true_and]
    unfold onTradeUpdate algoOnTradeUpdate take
    cases setup.algoType with
    | taker =>
      by_cases hvalid : book.bbo.Valid
      · simp only [hvalid, if_true, hcfg, ok_bind, true_and]
        split_ifs <;> rfl
      · simp only [hvalid, if_false, false_and]
        rfl
    | maker | invalid | random | max => rfl
  · simp only [htrade, if_false, ne_eq, not_false_eq_true, true_and, false_and]
    unfold onOrderBookUpdate algoOnOrderBookUpdate quote
    cases setup.algoType with
    | maker =>
      by_cases hvalid : book.bbo.Valid
      · simp only [hvalid, if_true, hcfg, ok_bind]
        rfl
      · simp only [hvalid, if_false]
        rfl
    | taker | invalid | random | max => rfl

/-- An engine only processes updates of the tickers that the tables have an entry for. -/
lemma tickerId_lt_of_onMarketUpdate {e e' : TradeEngineState F} {u : MEMarketUpdate}
    (h : e.onMarketUpdate setup u = .ok e') : u.tickerId < meMaxTickers := by
  obtain ⟨_, hassert, _⟩ := bind_eq_ok.mp h
  have hsafe : Safe (fun _ => True) (fun _ => u.tickerId < meMaxTickers)
      (ASSERT (u.tickerId < meMaxTickers) (unknownTickerMsg u)) := safe_ASSERT fun _ => trivial
  exact hsafe.of_eq_ok hassert

/-- **The algorithm does not see features of other tickers**: what it reads was set by the update. -/
lemma wanted_congr (features features' : FeatureEngine F) (u : MEMarketUpdate)
    (book : MarketOrderBook) :
    wanted setup (featuresAfter features u book) u book =
      wanted setup (featuresAfter features' u book) u book := by
  unfold wanted featuresAfter FeatureEngine.onTradeUpdate FeatureEngine.onOrderBookUpdate
  by_cases hvalid : book.bbo.Valid
  · by_cases htrade : u.type = .trade
    · cases setup.algoType <;> simp [htrade, hvalid]
    · cases setup.algoType <;> simp [htrade, hvalid]
  · cases setup.algoType <;> simp [hvalid]

end Updates

end TradeEngineState

/-- A market maker. -/
def sampleSetup : TradeEngineSetup Rat where
  algoType := .maker
  tickerCfg _ :=
    { clip := 4, threshold := 1, riskCfg := { maxOrderSize := 10, maxPosition := 20, maxLoss := -100 } }

/-- Updates about two tickers, which make a market maker send two orders, and a response. -/
def sampleEvents : List TradeEngineEvent :=
  [.update { type := .add, orderId := 1, tickerId := 0, side := .buy, price := 10, qty := 5,
             priority := 1 },
   .update { type := .add, orderId := 2, tickerId := 0, side := .sell, price := 12, qty := 5,
             priority := 1 },
   .update { type := .add, orderId := 1, tickerId := 3, side := .sell, price := 7, qty := 2,
             priority := 1 },
   .update { type := .add, orderId := 3, tickerId := 0, side := .buy, price := 10, qty := 3,
             priority := 2 },
   .update { type := .add, orderId := 4, tickerId := 0, side := .sell, price := 12, qty := 1,
             priority := 2 },
   .response { type := .accepted, clientId := 1, tickerId := 0, clientOrderId := 1,
               marketOrderId := 5, side := .buy, price := 10, execQty := 0, leavesQty := 4 }]

example : ((sampleEvents.foldlM (TradeEngineState.process sampleSetup) (.start 1 fun _ _ => 0)).map
    fun e => e.requests.map fun r => (r.orderId, r.side, r.price, r.qty)) =
      .ok [(1, .buy, 10, 4), (2, .sell, 13, 4)] := by decide +kernel

end Trading
