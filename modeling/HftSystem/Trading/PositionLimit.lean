import Mathlib.Algebra.BigOperators.Group.List.Basic
import HftSystem.Lib.Reserve
import HftSystem.Trading.OpenOrders
import HftSystem.Trading.PositionKeeper

set_option relaxedAutoImplicit false
set_option autoImplicit false

/-!
# The position limit

The order manager and the exchange of `OrderExchange`, with the positions that the trade engine keeps
and the check before each new order. The check sees a position that does not count the executions on
their way, nor the order on the other side.

A side of a ticker is exposed by the quantity of its order and by its executions on their way. On a
side without an order there are none of either, so the check reserves the whole order; from then on
the order is executed, gives quantity up, or is delivered, but never grows.

## Main definitions

* `Trading.System.exposure` — the quantity by which a side can still move the position.
* `Trading.TradeSystem`, `Trading.TradeAction`, `Trading.TradeSystem.step` — the system.
* `Trading.TradeSystem.WithinLimit` — the limit.

## Main results

* `Trading.TradeSystem.Guarded.step` — the invariant is kept by every step.
* `Trading.TradeSystem.withinLimit_of_run` — the limit in every run.
-/

namespace Trading

open Common Exchange Fallible Sessions OrderManager Reserve

/-! ## The exposure of a side -/

namespace System

/-- The quantity executed on a side in fills that are not delivered yet. -/
def executed (s : System) (tickerId : ℕ) (side : Side) : ℕ :=
  (s.responses.map fun r =>
    if r.tickerId = tickerId ∧ r.side = side ∧ r.type = .filled then r.execQty else 0).sum

/-- The quantity of a side that is on its way to the exchange. -/
def sentQty (s : System) (tickerId : ℕ) (side : Side) : ℕ :=
  (s.orderManager.requests.map fun r =>
    if r.type = .new ∧ r.tickerId = tickerId ∧ r.side = side then r.qty else 0).sum

/-- The quantity of a side that is open at the exchange. -/
def openQty (s : System) (tickerId : ℕ) (side : Side) : ℕ :=
  (s.openOrders.map fun o => if o.tickerId = tickerId ∧ o.side = side then o.qty else 0).sum

/-- The quantity by which a side can still move the position of the client. -/
def exposure (s : System) (tickerId : ℕ) (side : Side) : ℕ :=
  s.executed tickerId side + s.sentQty tickerId side + s.openQty tickerId side

section Exposure

variable {s : System} {tickerId : ℕ} {side : Side}

/-- A response that is sent. -/
lemma executed_respond (s : System) (r : MEClientResponse) (tickerId : ℕ) (side : Side) :
    (s.respond r).executed tickerId side = s.executed tickerId side +
      if r.tickerId = tickerId ∧ r.side = side ∧ r.type = .filled then r.execQty else 0 := by
  unfold executed respond
  rw [List.map_append, List.sum_append, List.map_singleton, List.sum_singleton]

/-- A response that is no fill. -/
lemma executed_respond_of_ne (s : System) {r : MEClientResponse} (h : r.type ≠ .filled)
    (tickerId : ℕ) (side : Side) : (s.respond r).executed tickerId side = s.executed tickerId side := by
  rw [executed_respond, if_neg fun hr => h hr.2.2, add_zero]

/-- A response that is taken off the channel. -/
lemma executed_of_cons {r : MEClientResponse} {responses : List MEClientResponse}
    (h : s.responses = r :: responses) (s' : System) (h' : s'.responses = responses) (tickerId : ℕ)
    (side : Side) : s.executed tickerId side =
      (if r.tickerId = tickerId ∧ r.side = side ∧ r.type = .filled then r.execQty else 0) +
        s'.executed tickerId side := by
  unfold executed
  rw [h, h', List.map_cons, List.sum_cons]

/-- A request that is sent. -/
lemma exposure_send (s s' : System) {r : MEClientRequest}
    (hrequests : s'.orderManager.requests = s.orderManager.requests ++ [r])
    (hresponses : s'.responses = s.responses) (hopen : s'.openOrders = s.openOrders) (tickerId : ℕ)
    (side : Side) : s'.exposure tickerId side = s.exposure tickerId side +
      if r.type = .new ∧ r.tickerId = tickerId ∧ r.side = side then r.qty else 0 := by
  unfold exposure executed sentQty openQty
  rw [hrequests, hresponses, hopen, List.map_append, List.sum_append, List.map_singleton,
    List.sum_singleton]
  omega

/-- A request that is taken off the queue. -/
lemma exposure_leave {r : MEClientRequest} {requests : List MEClientRequest}
    (h : s.orderManager.requests = r :: requests) (tickerId : ℕ) (side : Side) :
    (s.leave requests).exposure tickerId side +
        (if r.type = .new ∧ r.tickerId = tickerId ∧ r.side = side then r.qty else 0) =
      s.exposure tickerId side := by
  unfold exposure sentQty
  rw [h, List.map_cons, List.sum_cons]
  show s.executed tickerId side + (requests.map _).sum + s.openQty tickerId side + _ = _
  omega

/-- A sum of which no element counts. -/
lemma sum_ite_eq_zero {α : Type*} {l : List α} {p : α → Prop} [DecidablePred p] {qty : α → ℕ}
    (h : ∀ a ∈ l, ¬ p a) : (l.map fun a => if p a then qty a else 0).sum = 0 := by
  refine List.sum_eq_zero fun n hn => ?_
  obtain ⟨a, ha, rfl⟩ := List.mem_map.mp hn
  exact if_neg (h a ha)

/-- **A side that is free is not exposed.** -/
lemma Orderly.exposure_eq_zero (h : s.Orderly) (hside : side.IsBookSide)
    (hfree : (s.omOrder tickerId side).IsFree) : s.exposure tickerId side = 0 := by
  obtain ⟨horders, hresponses⟩ := (h.line tickerId side hside).free hfree
  obtain ⟨hnews, hlive⟩ := List.append_eq_nil_iff.mp horders
  have hnews := List.filter_eq_nil_iff.mp (List.map_eq_nil_iff.mp hnews)
  have hlive := List.filter_eq_nil_iff.mp (List.map_eq_nil_iff.mp hlive)
  have hresponses := List.filter_eq_nil_iff.mp hresponses
  have hexecuted : s.executed tickerId side = 0 :=
    sum_ite_eq_zero fun r hr hkey => hresponses r hr (by simp [hkey])
  have hsent : s.sentQty tickerId side = 0 :=
    sum_ite_eq_zero fun r hr hkey => hnews r hr (by simp [hkey])
  have hopen : s.openQty tickerId side = 0 :=
    sum_ite_eq_zero fun o ho hkey => hlive o ho (by simp [hkey])
  unfold exposure
  omega

/-! ### The exchange -/

/-- **The exchange answers about an open order**, which stays open with another quantity, or is
over. -/
lemma exposure_replace (r : MEClientResponse) (os : List MEOrder) {pre post : List MEOrder}
    {o : MEOrder} (hopen : s.openOrders = pre ++ o :: post) (tickerId : ℕ) (side : Side) :
    ({ s with openOrders := pre ++ (os ++ post) }.respond r).exposure tickerId side +
        (if o.tickerId = tickerId ∧ o.side = side then o.qty else 0) =
      s.exposure tickerId side +
        (if r.tickerId = tickerId ∧ r.side = side ∧ r.type = .filled then r.execQty else 0) +
        (os.map fun o => if o.tickerId = tickerId ∧ o.side = side then o.qty else 0).sum := by
  unfold exposure
  rw [executed_respond]
  have hexecuted : { s with openOrders := pre ++ (os ++ post) }.executed tickerId side =
      s.executed tickerId side := rfl
  have hsent : ({ s with openOrders := pre ++ (os ++ post) }.respond r).sentQty tickerId side =
      s.sentQty tickerId side := rfl
  rw [hexecuted, hsent]
  unfold openQty respond
  rw [hopen]
  simp only [List.map_append, List.map_cons, List.sum_append, List.sum_cons]
  omega

/-- **A fill turns open quantity** into an execution on its way. -/
lemma exposure_fill (s : System) (i execQty : ℕ) (price : ℤ) (tickerId : ℕ) (side : Side) :
    (s.fill i execQty price).exposure tickerId side = s.exposure tickerId side := by
  rcases s.fill_cases i execQty price with hfill | ⟨pre, o, post, hopen, -, hle, hfill⟩
  · rw [hfill]
  · rw [hfill]
    -- what is left of the order, if anything is
    have hleft : ((if o.qty - execQty = 0 then [] else [{ o with qty := o.qty - execQty }]).map
        fun o => if o.tickerId = tickerId ∧ o.side = side then o.qty else 0).sum =
          if o.tickerId = tickerId ∧ o.side = side then o.qty - execQty else 0 := by
      split_ifs <;> simp_all
    generalize (if o.qty - execQty = 0 then [] else [{ o with qty := o.qty - execQty }]) = os
      at hleft ⊢
    have hreplace := exposure_replace
      { type := .filled, clientId := o.clientId, tickerId := o.tickerId,
        clientOrderId := o.clientOrderId, marketOrderId := o.marketOrderId, side := o.side, price,
        execQty, leavesQty := o.qty - execQty } os hopen tickerId side
    rw [hleft] at hreplace
    by_cases hkey : o.tickerId = tickerId ∧ o.side = side
    · simp only [hkey, and_self, if_true] at hreplace ⊢
      omega
    · simp only [and_true, if_neg hkey] at hreplace
      omega

/-- An order that is accepted. -/
lemma exposure_accept (s : System) (request : MEClientRequest) (marketOrderId tickerId : ℕ)
    (side : Side) : (s.accept request marketOrderId).exposure tickerId side =
      s.exposure tickerId side +
        if request.tickerId = tickerId ∧ request.side = side then request.qty else 0 := by
  unfold exposure accept
  rw [executed_respond_of_ne _ (by simp)]
  have hopen (os : List MEOrder) (r : MEClientResponse) :
      ({ s with openOrders := os }.respond r).openQty tickerId side =
        (os.map fun o => if o.tickerId = tickerId ∧ o.side = side then o.qty else 0).sum := rfl
  have hsent (os : List MEOrder) (r : MEClientResponse) :
      ({ s with openOrders := os }.respond r).sentQty tickerId side = s.sentQty tickerId side := rfl
  have hexecuted (os : List MEOrder) :
      { s with openOrders := os }.executed tickerId side = s.executed tickerId side := rfl
  rw [hopen, hsent, hexecuted]
  by_cases hqty : request.qty = 0
  · rw [if_pos hqty, hqty, ite_self]
    rfl
  · rw [if_neg hqty, List.map_append, List.sum_append, List.map_singleton, List.sum_singleton,
      ← Nat.add_assoc]
    rfl

/-- A rejection does not expose a side. -/
lemma exposure_reject (s : System) (request : MEClientRequest) (tickerId : ℕ) (side : Side) :
    (s.reject request).exposure tickerId side = s.exposure tickerId side := by
  unfold exposure reject
  rw [executed_respond_of_ne s (by simp)]
  rfl

/-- A CANCEL gives up what is open. -/
lemma exposure_cancel_le (s : System) (request : MEClientRequest) (tickerId : ℕ) (side : Side) :
    (s.cancel request).exposure tickerId side ≤ s.exposure tickerId side := by
  rcases s.cancel_cases request with hcancel | ⟨pre, o, post, hopen, hcancel⟩
  · rw [hcancel, exposure_reject]
  · rw [hcancel]
    have hreplace := exposure_replace
      { type := .canceled, clientId := request.clientId, tickerId := o.tickerId,
        clientOrderId := o.clientOrderId, marketOrderId := o.marketOrderId, side := o.side,
        price := o.price, execQty := Qty.invalid, leavesQty := o.qty } [] hopen tickerId side
    simp only [reduceCtorEq, and_false, if_false, List.map_nil, List.sum_nil] at hreplace
    omega

/-- **A request that the exchange takes** does not expose a side more than before. -/
lemma exposure_takeRequest_le (s : System) (marketOrderId tickerId : ℕ) (side : Side) :
    (s.takeRequest marketOrderId).exposure tickerId side ≤ s.exposure tickerId side := by
  unfold takeRequest
  split
  · exact le_rfl
  · rename_i request requests hrequests
    have hleave := exposure_leave hrequests tickerId side
    cases htype : request.type with
    | new =>
      have haccept := exposure_accept (s.leave requests) request marketOrderId tickerId side
      simp only [htype, true_and] at hleave
      show ((s.leave requests).accept request marketOrderId).exposure tickerId side ≤ _
      omega
    | cancel => exact (exposure_cancel_le _ request tickerId side).trans (by omega)
    | invalid =>
      show (s.leave requests).exposure tickerId side ≤ _
      omega

/-! ### The order manager -/

/-- A new order exposes its side. -/
lemma exposure_newOrder (s : System) (order : ℕ × ℕ) (tickerId : ℕ) (price : ℤ) (side : Side)
    (qty tickerId' : ℕ) (side' : Side) :
    { s with orderManager := s.orderManager.newOrder order tickerId price side qty }.exposure
        tickerId' side' =
      s.exposure tickerId' side' + if tickerId = tickerId' ∧ side = side' then qty else 0 := by
  set s' : System := { s with orderManager := s.orderManager.newOrder order tickerId price side qty }
  simpa using exposure_send s s' rfl rfl rfl tickerId' side'

/-- A cancel does not change what a side is exposed by. -/
lemma exposure_cancelOrder (s : System) (order : ℕ × ℕ) (tickerId : ℕ) (side : Side) :
    { s with orderManager := s.orderManager.cancelOrder order }.exposure tickerId side =
      s.exposure tickerId side := by
  set s' : System := { s with orderManager := s.orderManager.cancelOrder order }
  simpa using exposure_send s s' rfl rfl rfl tickerId side

end Exposure

end System

/-! ## The system -/

/-- The order manager and the exchange, with the positions. -/
structure TradeSystem (F : Type) extends System where
  positionKeeper : PositionKeeper F

/-- What can happen: a strategy moves its orders, the exchange takes a request, or rejects the CANCEL
that is next, or fills an open order, the best prices of a ticker change, or a response is
delivered. -/
inductive TradeAction
  | moveOrders (tickerId : ℕ) (bidPrice askPrice : ℤ) (clip : ℕ)
  | takeRequest (marketOrderId : ℕ)
  | rejectCancel
  | fill (i execQty : ℕ) (price : ℤ)
  | updateBBO (tickerId : ℕ) (bbo : BBO)
  | deliver

/-- The ticker is one of the tickers that the tables have an entry for. -/
def TradeAction.InRange : TradeAction → Prop
  | .moveOrders tickerId _ _ _ => tickerId < meMaxTickers
  | .updateBBO tickerId _ => tickerId < meMaxTickers
  | _ => True

namespace TradeSystem

section Definitions

variable {F : Type} [Double F]

/-- Nothing has been sent, and every position is flat. -/
def start (clientId : ℕ) (openVwap : ℕ → ℕ → F) : TradeSystem F where
  toSystem := System.start clientId
  positionKeeper := { tickerPosition := fun tickerId => .new (openVwap tickerId) }

/-- `TradeEngine::onOrderUpdate`, through the algorithm, which calls the order manager. -/
def onOrderUpdate (s : TradeSystem F) (clientResponse : MEClientResponse) :
    Except Fault (TradeSystem F) := do
  let positionKeeper ←
    (if clientResponse.type = .filled then s.positionKeeper.addFill clientResponse
    else .ok s.positionKeeper)
  let orderManager ← s.orderManager.onOrderUpdate clientResponse
  return { s with positionKeeper, orderManager }

/-- The response that was sent first is delivered. -/
def deliver (s : TradeSystem F) : Except Fault (TradeSystem F) :=
  match s.responses with
  | [] => return s
  | response :: responses => do
    let s ← s.onOrderUpdate response
    return { s with responses }

/-- The exchange rejects the request that was sent first, if it is a CANCEL. -/
def rejectCancel (s : System) : System :=
  match s.orderManager.requests with
  | [] => s
  | request :: requests =>
    if request.type = .cancel then (s.leave requests).reject request else s

/-- A step. -/
def step (ifBody : IfBody) (overload : AbsOverload) (riskCfg : ℕ → RiskCfg F) (s : TradeSystem F) :
    TradeAction → Except Fault (TradeSystem F)
  | .moveOrders tickerId bidPrice askPrice clip => do
    let orderManager ← s.orderManager.moveOrders ifBody
      (checkPreTradeRisk overload riskCfg s.positionKeeper) tickerId bidPrice askPrice clip
    return { s with orderManager }
  | .takeRequest marketOrderId => return { s with toSystem := s.takeRequest marketOrderId }
  | .rejectCancel => return { s with toSystem := rejectCancel s.toSystem }
  | .fill i execQty price => return { s with toSystem := s.fill i execQty price }
  | .updateBBO tickerId bbo => do
    let positionKeeper ← s.positionKeeper.updateBBO tickerId bbo
    return { s with positionKeeper }
  | .deliver => s.deliver

end Definitions

/-! ## The invariant -/

section Invariant

variable {F : Type} {riskCfg : ℕ → RiskCfg F} {s : TradeSystem F}

/-- **The invariant**: the orders are in order, and in every ticker the position stays within the
limit by whatever part of its exposure one side moves it. -/
structure Guarded (riskCfg : ℕ → RiskCfg F) (s : TradeSystem F) : Prop where
  orderly : s.toSystem.Orderly
  covered : ∀ tickerId, Covered ((riskCfg tickerId).maxPosition : ℤ)
    (s.positionKeeper.position tickerId) (s.exposure tickerId .buy) (s.exposure tickerId .sell)

/-- A side is not more exposed than before. -/
lemma Guarded.of_exposure_le (h : Guarded riskCfg s) {system : System} (horderly : system.Orderly)
    (hle : ∀ tickerId side, system.exposure tickerId side ≤ s.exposure tickerId side) :
    Guarded riskCfg { s with toSystem := system } where
  orderly := horderly
  covered tickerId := (h.covered tickerId).release (Int.ofNat_le.mpr (hle tickerId .buy))
    (Int.natCast_nonneg _) (Int.ofNat_le.mpr (hle tickerId .sell)) (Int.natCast_nonneg _)

/-- A CANCEL is rejected. -/
lemma Guarded.rejectCancel (h : Guarded riskCfg s) :
    Guarded riskCfg { s with toSystem := rejectCancel s.toSystem } := by
  unfold TradeSystem.rejectCancel
  split
  · exact h
  · rename_i request requests hrequests
    split_ifs with htype
    · have hticker := (h.orderly.request request (by rw [hrequests]; exact List.mem_cons_self ..)).1
      have hleft := h.orderly.leave hrequests (by simp [htype])
      refine h.of_exposure_le (hleft.reject hticker) fun tickerId side => ?_
      rw [System.exposure_reject, ← System.exposure_leave hrequests]
      exact Nat.le_add_right _ _
    · exact h

/-- **A fill that is delivered** moves the position by a part of the exposure. -/
lemma Guarded.covered_of_delivered (h : Guarded riskCfg s) {r : MEClientResponse}
    (hfilled : r.type = .filled) (hside : r.side.IsBookSide) {system : System}
    (hexposure : ∀ tickerId side, s.exposure tickerId side =
      (if r.tickerId = tickerId ∧ r.side = side ∧ r.type = .filled then r.execQty else 0) +
        system.exposure tickerId side) :
    Covered ((riskCfg r.tickerId).maxPosition : ℤ)
      (s.positionKeeper.position r.tickerId + positionChange r.side r.execQty)
      (system.exposure r.tickerId .buy) (system.exposure r.tickerId .sell) := by
  have hcovered := h.covered r.tickerId
  rw [hexposure, hexposure] at hcovered
  rcases hside with hside | hside
  · simp only [hside, hfilled, and_self, if_true, reduceCtorEq, and_false, false_and, if_false,
      Nat.zero_add, Nat.cast_add] at hcovered
    rw [hside]
    exact hcovered.moveUp (Int.natCast_nonneg _) (Int.natCast_nonneg _)
  · simp only [hside, hfilled, and_self, if_true, reduceCtorEq, and_false, false_and, if_false,
      Nat.zero_add, Nat.cast_add] at hcovered
    rw [hside]
    exact hcovered.moveDown (Int.natCast_nonneg _) (Int.natCast_nonneg _)

/-- **The position limit**: in every ticker, the position and the position that counts the executions
on their way stay within the limit. -/
structure WithinLimit (riskCfg : ℕ → RiskCfg F) (s : TradeSystem F) : Prop where
  position : ∀ tickerId, |s.positionKeeper.position tickerId| ≤ (riskCfg tickerId).maxPosition
  counted : ∀ tickerId, |s.positionKeeper.position tickerId + s.executed tickerId .buy -
    s.executed tickerId .sell| ≤ (riskCfg tickerId).maxPosition

/-- The invariant says so. -/
lemma Guarded.withinLimit (h : Guarded riskCfg s) : WithinLimit riskCfg s where
  position tickerId := (h.covered tickerId).abs_le
  counted tickerId := by
    have hle (side : Side) : s.executed tickerId side ≤ s.exposure tickerId side := by
      unfold System.exposure
      omega
    exact (h.covered tickerId).abs_add_sub_le (Int.ofNat_le.mpr (hle .buy)) (Int.natCast_nonneg _)
      (Int.ofNat_le.mpr (hle .sell)) (Int.natCast_nonneg _)

end Invariant

section Steps

variable {F : Type} [Double F] {riskCfg : ℕ → RiskCfg F} {overload : AbsOverload}
  {s : TradeSystem F} {tickerId : ℕ} {side : Side}

/-- Nothing has been sent. -/
lemma guarded_start (clientId : ℕ) (openVwap : ℕ → ℕ → F) : Guarded riskCfg (start clientId openVwap)
    where
  orderly := System.orderly_start clientId
  covered _ := covered_zero (Int.natCast_nonneg _)

/-- **A new order is sent** on a side that is free, after the check. -/
lemma Guarded.newOrder (h : Guarded riskCfg s)
    (hcfg : (riskCfg tickerId).maxOrderSize < 2 ^ 31 ∧ (riskCfg tickerId).maxPosition < 2 ^ 31)
    (hticker : tickerId < meMaxTickers) (hside : side.IsBookSide)
    (hfree : (s.omOrder tickerId side).IsFree) (price : ℤ) {qty : ℕ}
    (hrisk : checkPreTradeRisk overload riskCfg s.positionKeeper tickerId side qty = .allowed) :
    Guarded riskCfg { s with orderManager :=
      s.orderManager.newOrder (tickerId, sideToIndex side) tickerId price side qty } where
  orderly := h.orderly.newOrder hticker hside hfree price qty
  covered tickerId' := by
    have hcovered := h.covered tickerId'
    have hcheck := abs_le_of_allowed hside hcfg.1 hcfg.2 hrisk
    have hzero := h.orderly.exposure_eq_zero hside hfree
    rw [System.exposure_newOrder, System.exposure_newOrder]
    by_cases hkey : tickerId = tickerId'
    · subst hkey
      rcases hside with rfl | rfl
      · simp only [hzero, true_and, if_true, reduceCtorEq, and_false, if_false, Nat.zero_add,
          Nat.add_zero] at hcovered ⊢
        exact hcovered.reserveUp (Int.natCast_nonneg _) hcheck
      · simp only [hzero, true_and, if_true, reduceCtorEq, and_false, if_false, Nat.zero_add,
          Nat.add_zero] at hcovered ⊢
        exact hcovered.reserveDown (Int.natCast_nonneg _) hcheck
    · rw [if_neg fun hr => hkey hr.1, if_neg fun hr => hkey hr.1, Nat.add_zero, Nat.add_zero]
      exact hcovered

/-- An order is moved. -/
lemma Guarded.moveOrder (h : Guarded riskCfg s)
    (hcfg : (riskCfg tickerId).maxOrderSize < 2 ^ 31 ∧ (riskCfg tickerId).maxPosition < 2 ^ 31)
    (hticker : tickerId < meMaxTickers) (hside : side.IsBookSide) (ifBody : IfBody) (price : ℤ)
    (qty : ℕ) :
    Guarded riskCfg { s with
      orderManager := s.orderManager.moveOrder ifBody
        (checkPreTradeRisk overload riskCfg s.positionKeeper) (tickerId, sideToIndex side) tickerId
        price side qty } := by
  have hcases := s.orderManager.moveOrder_cases ifBody
    (checkPreTradeRisk overload riskCfg s.positionKeeper) (tickerId, sideToIndex side) tickerId price
    side qty
  generalize s.orderManager.moveOrder _ _ _ _ _ _ _ = om at hcases ⊢
  cases hcases with
  | stay => exact h
  | cancel hlive =>
    refine h.of_exposure_le (h.orderly.cancelOrder hside hlive) fun tickerId' side' => ?_
    rw [System.exposure_cancelOrder]
  | new hfree _ hrisk => exact h.newOrder hcfg hticker hside hfree price hrisk

/-- **The orders of a ticker are moved.** -/
lemma Guarded.moveOrders (h : Guarded riskCfg s)
    (hcfg : (riskCfg tickerId).maxOrderSize < 2 ^ 31 ∧ (riskCfg tickerId).maxPosition < 2 ^ 31)
    (hticker : tickerId < meMaxTickers) (ifBody : IfBody) (bidPrice askPrice : ℤ) (clip : ℕ) :
    Safe (fun _ => False) (fun om => Guarded riskCfg { s with orderManager := om })
      (s.orderManager.moveOrders ifBody (checkPreTradeRisk overload riskCfg s.positionKeeper) tickerId
        bidPrice askPrice clip) := by
  unfold OrderManager.moveOrders
  rw [OrderManager.orderAt_of_lt hticker (.inl rfl), OrderManager.orderAt_of_lt hticker (.inr rfl)]
  have hbid : Guarded riskCfg { s with
      orderManager := s.orderManager.moveOrder ifBody
        (checkPreTradeRisk overload riskCfg s.positionKeeper) (tickerId, sideToIndex .buy) tickerId
        bidPrice .buy clip } :=
    h.moveOrder hcfg hticker (.inl rfl) ifBody bidPrice clip
  exact hbid.moveOrder hcfg hticker (.inr rfl) ifBody askPrice clip

/-- **A response is delivered.**

**Proof sketch.** The queue of responses counts towards the exposure of its sides, so that a delivered
execution leaves the exposure by what the position gains. The other sides and tickers are exposed as
before, and a response that is no execution moves nothing. The sum of the two is what `Covered` bounds. -/
lemma Guarded.deliver (h : Guarded riskCfg s)
    (hcfg : ∀ tickerId, (riskCfg tickerId).maxPosition < 2 ^ 31) :
    Safe (fun _ => False) (Guarded riskCfg) s.deliver := by
  have hsystem := h.orderly.deliver
  unfold System.deliver at hsystem
  unfold TradeSystem.deliver
  split
  · exact h
  rename_i r responses hresponses
  rw [hresponses] at hsystem
  obtain ⟨system, hsystem, horderly⟩ := hsystem.exists_ok
  obtain ⟨om, hom, hsystem⟩ := bind_eq_ok.mp hsystem
  cases hsystem
  set system : System := { s.toSystem with orderManager := om, responses }
  obtain ⟨hticker, hside⟩ := h.orderly.response r (by rw [hresponses]; exact List.mem_cons_self ..)
  have hexposure : ∀ tickerId side, s.exposure tickerId side =
      (if r.tickerId = tickerId ∧ r.side = side ∧ r.type = .filled then r.execQty else 0) +
        system.exposure tickerId side := by
    intro tickerId side
    have hexecuted := System.executed_of_cons hresponses system rfl tickerId side
    have hopen : system.openQty tickerId side = s.openQty tickerId side := rfl
    have hsent : system.sentQty tickerId side = s.sentQty tickerId side := by
      unfold System.sentQty
      rw [requests_of_onOrderUpdate hom]
    unfold System.exposure
    omega
  -- a side that the response is not about, or that it does not fill, is exposed as before
  have hsame : ∀ tickerId, ¬ (r.tickerId = tickerId ∧ r.type = .filled) →
      Covered ((riskCfg tickerId).maxPosition : ℤ) (s.positionKeeper.position tickerId)
        (system.exposure tickerId .buy) (system.exposure tickerId .sell) := by
    intro tickerId hne
    have hcovered := h.covered tickerId
    rwa [hexposure, hexposure, if_neg fun hr => hne ⟨hr.1, hr.2.2⟩,
      if_neg fun hr => hne ⟨hr.1, hr.2.2⟩, Nat.zero_add, Nat.zero_add] at hcovered
  have hkeeper : Safe (fun _ => False)
      (fun k => ∀ tickerId, Covered ((riskCfg tickerId).maxPosition : ℤ) (k.position tickerId)
        (system.exposure tickerId .buy) (system.exposure tickerId .sell))
      (if r.type = .filled then s.positionKeeper.addFill r else .ok s.positionKeeper) := by
    split_ifs with hfilled
    · have hside : r.side.IsBookSide := hside.resolve_right fun hr => by simp [hfilled] at hr
      have hmoved := h.covered_of_delivered hfilled hside hexposure
      have hlimit := abs_le.mp hmoved.abs_le
      have hmax := hcfg r.tickerId
      refine (s.positionKeeper.safe_addFill hticker hside rfl (by omega) (by omega)).mono
        (fun _ => id) fun k hk tickerId => ?_
      rw [hk tickerId]
      split_ifs with hkey
      · rw [hkey]
        exact hmoved
      · exact hsame tickerId fun hr => hkey hr.1.symm
    · exact fun tickerId => hsame tickerId fun hr => hfilled hr.2
  have hupdated : Safe (fun _ => False) (fun s' => Guarded riskCfg { s' with responses })
      (s.onOrderUpdate r) := by
    unfold TradeSystem.onOrderUpdate
    refine hkeeper.bind fun k hk => ?_
    rw [hom]
    exact ⟨horderly, hk⟩
  exact hupdated.bind fun _ hguarded => hguarded

/-- **A step keeps the invariant**, and fails only if it names a ticker that the tables have no entry
for. -/
theorem Guarded.step (h : Guarded riskCfg s)
    (hcfg : ∀ tickerId,
      (riskCfg tickerId).maxOrderSize < 2 ^ 31 ∧ (riskCfg tickerId).maxPosition < 2 ^ 31)
    (ifBody : IfBody) (a : TradeAction) :
    Safe (fun _ => ¬ a.InRange) (Guarded riskCfg) (s.step ifBody overload riskCfg a) := by
  cases a with
  | moveOrders tickerId bidPrice askPrice clip =>
    show Safe _ _ (s.orderManager.moveOrders ifBody _ tickerId bidPrice askPrice clip >>= _)
    by_cases hticker : tickerId < meMaxTickers
    · have hmoved : Safe (fun _ => False) (fun om => Guarded riskCfg { s with orderManager := om })
          (s.orderManager.moveOrders ifBody (checkPreTradeRisk overload riskCfg s.positionKeeper)
            tickerId bidPrice askPrice clip) :=
        h.moveOrders (hcfg tickerId) hticker ifBody bidPrice askPrice clip
      exact (hmoved.mono (fun _ => False.elim) fun _ => id).bind fun _ hguarded => hguarded
    · rw [moveOrders_of_le (by omega)]
      exact hticker
  | takeRequest marketOrderId =>
    exact h.of_exposure_le (h.orderly.takeRequest marketOrderId)
      (System.exposure_takeRequest_le _ marketOrderId)
  | rejectCancel => exact h.rejectCancel
  | fill i execQty price =>
    exact h.of_exposure_le (h.orderly.fill i execQty price) fun tickerId side =>
      (System.exposure_fill _ i execQty price tickerId side).le
  | updateBBO tickerId bbo =>
    refine (s.positionKeeper.safe_updateBBO tickerId bbo).bind fun k hk => ⟨h.orderly, ?_⟩
    intro tickerId'
    rw [hk tickerId']
    exact h.covered tickerId'
  | deliver =>
    exact (h.deliver fun tickerId => (hcfg tickerId).2).mono (fun _ => False.elim) fun _ => id

/-! ## Runs -/

/-- **The position limit is never exceeded**, in whatever order orders are moved, requests are taken,
orders are executed and responses are delivered, at any prices and sizes. A run fails only if it
names a ticker that the tables have no entry for. -/
theorem withinLimit_of_run (ifBody : IfBody) (overload : AbsOverload) (riskCfg : ℕ → RiskCfg F)
    (hcfg : ∀ tickerId,
      (riskCfg tickerId).maxOrderSize < 2 ^ 31 ∧ (riskCfg tickerId).maxPosition < 2 ^ 31)
    (clientId : ℕ) (openVwap : ℕ → ℕ → F) (actions : List TradeAction) :
    Safe (fun _ => ∃ a ∈ actions, ¬ a.InRange) (WithinLimit riskCfg)
      (actions.foldlM (step ifBody overload riskCfg) (start clientId openVwap)) := by
  have hrun : Safe (fun _ => ∃ a ∈ actions, ¬ a.InRange) (Guarded riskCfg)
      (actions.foldlM (step ifBody overload riskCfg) (start clientId openVwap)) :=
    safe_foldlM (fun s a hs ha => (hs.step hcfg ifBody a).mono (fun _ hrange => ⟨a, ha, hrange⟩)
      fun _ => id) (guarded_start clientId openVwap) (Meets.of_forall fun a ha => ha)
  exact hrun.mono (fun _ => id) fun _ => Guarded.withinLimit

end Steps

/-- The limits of every ticker. -/
def sampleCfg : RiskCfg Rat where
  maxOrderSize := 10
  maxPosition := 15
  maxLoss := -100

/-- A bid of 10 is executed in two parts, of which the first one is delivered, and an ask of 10 is
sent meanwhile. -/
def sampleActions : List TradeAction :=
  [.moveOrders 0 20 Price.invalid 10, .takeRequest 1, .fill 0 4 20, .deliver, .deliver, .fill 0 6 20,
    .moveOrders 0 20 22 10]

/-- The position is 4, and 10 with the execution on its way; both are within the limit. -/
theorem withinLimit_sampleActions :
    ∃ s, sampleActions.foldlM (step .indentedLines .sameWidth fun _ => sampleCfg)
        (start 1 fun _ _ => 0) = .ok s ∧
      s.positionKeeper.position 0 = 4 ∧ s.executed 0 .buy = 6 ∧ s.sentQty 0 .sell = 10 ∧
        WithinLimit (fun _ => sampleCfg) s := by
  have hrun : Safe (fun _ => False)
      (fun s : TradeSystem Rat => s.positionKeeper.position 0 = 4 ∧ s.executed 0 .buy = 6 ∧
        s.sentQty 0 .sell = 10)
      (sampleActions.foldlM (step .indentedLines .sameWidth fun _ => sampleCfg)
        (start 1 fun _ _ => 0)) := by
    decide +kernel
  obtain ⟨s, hs, hposition, hexecuted, hsent⟩ := hrun.exists_ok
  have hlimit := withinLimit_of_run .indentedLines .sameWidth (fun _ => sampleCfg)
    (fun _ => ⟨by decide, by decide⟩) 1 (fun _ _ => 0) sampleActions
  exact ⟨s, hs, hposition, hexecuted, hsent, hlimit.of_eq_ok hs⟩

end TradeSystem

end Trading
