import HftSystem.Lib.Sessions
import HftSystem.Trading.OrderExchange

set_option relaxedAutoImplicit false
set_option autoImplicit false

/-!
# One open order for each side of a ticker

`onOrderUpdate` does not compare order ids, and a cancel races the fills of its order. On each
side of a ticker the orders are nevertheless sessions of which there is one at a time: NEW asks for
one, and CANCELED or the FILLED that leaves nothing ends it. A CANCEL_REJECTED, which may arrive
when the next order is on its way, names no side.

## Main definitions

* `Trading.System.Orderly` — the invariant: one session for each side of each ticker.
* `Trading.System.OneOpenOrder` — what it says about orders.

## Main results

* `Trading.System.Orderly.step` — the invariant is kept by every step.
* `Trading.System.oneOpenOrder_of_run` — one open order at most in every run.
-/

namespace Trading

open Common Exchange Fallible Sessions OrderManager

namespace System

/-- The orders on a side of a ticker are sessions, of which there is one at a time. -/
def Line (s : System) (tickerId : ℕ) (side : Side) : Prop :=
  Exclusive MEClientResponse.clientOrderId EndsOrder (s.omOrder tickerId side).IsFree
    (s.omOrder tickerId side).orderId ((s.newsInFlight tickerId side).map (·.orderId))
    ((s.liveOrders tickerId side).map (·.clientOrderId)) (s.responsesTo tickerId side)

/-- **The invariant**: one order at a time on each side of each ticker, and every message and every
order names a ticker and a side of the tables; only a rejection names no side. -/
structure Orderly (s : System) : Prop where
  line : ∀ tickerId side, side.IsBookSide → s.Line tickerId side
  order : ∀ tickerId side, side.IsBookSide → (s.omOrder tickerId side).orderState ≠ .invalid →
    (s.omOrder tickerId side).tickerId < meMaxTickers
  request : ∀ r ∈ s.orderManager.requests, r.tickerId < meMaxTickers ∧
    (r.type = .new → r.side.IsBookSide)
  openOrder : ∀ o ∈ s.openOrders, o.tickerId < meMaxTickers ∧ o.side.IsBookSide
  response : ∀ r ∈ s.responses, r.tickerId < meMaxTickers ∧
    (r.side.IsBookSide ∨ r.side = .invalid ∧ r.type = .cancelRejected)

/-- Nothing has been sent. -/
lemma orderly_start (clientId : ℕ) : (start clientId).Orderly where
  line _ _ _ := exclusive_nil _
  order _ _ _ h := absurd rfl h
  request _ hr := absurd hr List.not_mem_nil
  openOrder _ ho := absurd ho List.not_mem_nil
  response _ hr := absurd hr List.not_mem_nil

/-- Only the slot, the orders and the messages of a side matter to it. -/
lemma Line.congr {s s' : System} {tickerId : ℕ} {side : Side} (h : s.Line tickerId side)
    (horder : s'.omOrder tickerId side = s.omOrder tickerId side)
    (hnews : s'.newsInFlight tickerId side = s.newsInFlight tickerId side)
    (hlive : s'.liveOrders tickerId side = s.liveOrders tickerId side)
    (hresponses : s'.responsesTo tickerId side = s.responsesTo tickerId side) :
    s'.Line tickerId side := by
  unfold Line
  rw [horder, hnews, hlive, hresponses]
  exact h

/-! ## The order manager -/

section OrderManager

variable {s : System} {tickerId tickerId' : ℕ} {side side' : Side}

/-- An entry of the table after it or another one is set. -/
lemma omOrder_setOrder (hside : side.IsBookSide) (hside' : side'.IsBookSide) (o : OMOrder) :
    { s with orderManager := s.orderManager.setOrder (tickerId, sideToIndex side) o }.omOrder
        tickerId' side' =
      if tickerId' = tickerId ∧ side' = side then o else s.omOrder tickerId' side' := by
  show Function.update _ _ _ _ = _
  simp only [Function.update_apply, Prod.mk.injEq, sideToIndex_inj hside' hside]
  rfl

/-- One more request. -/
lemma newsInFlight_of_requests {s s' : System} {r : MEClientRequest}
    (h : s'.orderManager.requests = s.orderManager.requests ++ [r]) :
    s'.newsInFlight tickerId side = s.newsInFlight tickerId side ++
      if r.type = .new ∧ r.tickerId = tickerId ∧ r.side = side then [r] else [] := by
  unfold newsInFlight
  rw [h, Sessions.filter_concat]

/-- A slot that is set, to one that is no more often free and stores the same order. -/
lemma Orderly.setOrder (h : s.Orderly) {o : OMOrder} (hside : side.IsBookSide)
    (hfree : o.IsFree → (s.omOrder tickerId side).IsFree)
    (horderId : o.orderId = (s.omOrder tickerId side).orderId)
    (hticker : o.tickerId < meMaxTickers) :
    Orderly { s with orderManager := s.orderManager.setOrder (tickerId, sideToIndex side) o } where
  line tickerId' side' hside' := by
    unfold Line
    rw [omOrder_setOrder hside hside']
    split_ifs with hkey
    · obtain ⟨rfl, rfl⟩ := hkey
      rw [horderId]
      exact (h.line tickerId' side' hside').mono hfree
    · exact h.line tickerId' side' hside'
  order tickerId' side' hside' := by
    rw [omOrder_setOrder hside hside']
    split_ifs
    · exact fun _ => hticker
    · exact h.order tickerId' side' hside'
  request := h.request
  openOrder := h.openOrder
  response := h.response

/-- A CANCEL that is sent. -/
lemma Orderly.sendCancel (h : s.Orderly) {r : MEClientRequest} (htype : r.type = .cancel)
    (hticker : r.tickerId < meMaxTickers) :
    Orderly { s with orderManager.tradeEngine :=
      s.orderManager.tradeEngine.sendClientRequest r } where
  line tickerId side hside := by
    refine (h.line tickerId side hside).congr rfl ?_ rfl rfl
    rw [newsInFlight_of_requests rfl, if_neg (by simp [htype]), List.append_nil]
  order := h.order
  request r' hr' := by
    rcases List.mem_append.mp hr' with hr' | hr'
    · exact h.request r' hr'
    · obtain rfl := List.mem_singleton.mp hr'
      exact ⟨hticker, fun hnew => by simp [htype] at hnew⟩
  openOrder := h.openOrder
  response := h.response

/-- **A live order is canceled.** -/
lemma Orderly.cancelOrder (h : s.Orderly) (hside : side.IsBookSide)
    (hlive : (s.omOrder tickerId side).orderState = .live) :
    Orderly { s with
      orderManager := s.orderManager.cancelOrder (tickerId, sideToIndex side) } := by
  have hticker := h.order tickerId side hside (by simp [hlive])
  have hsent := h.sendCancel (r :=
    { type := .cancel, clientId := s.orderManager.tradeEngine.clientId,
      tickerId := (s.omOrder tickerId side).tickerId,
      orderId := (s.omOrder tickerId side).orderId, side := (s.omOrder tickerId side).side,
      price := (s.omOrder tickerId side).price, qty := (s.omOrder tickerId side).qty }) rfl hticker
  exact hsent.setOrder hside (fun hfree => by simp [OMOrder.IsFree] at hfree) rfl hticker

/-- **A new order is sent** on a side that is free.

**Proof sketch.** The side was free, so its line is empty and the new request is the only one on it
(`Line.ask`). The other sides have their orders and their lines as before. -/
lemma Orderly.newOrder (h : s.Orderly) (hticker : tickerId < meMaxTickers)
    (hside : side.IsBookSide) (hfree : (s.omOrder tickerId side).IsFree) (price : ℤ) (qty : ℕ) :
    Orderly { s with orderManager :=
      s.orderManager.newOrder (tickerId, sideToIndex side) tickerId price side qty } := by
  set r : MEClientRequest :=
    { type := .new, clientId := s.orderManager.tradeEngine.clientId, tickerId,
      orderId := s.orderManager.nextOrderId, side, price, qty }
  set o : OMOrder :=
    { tickerId, orderId := s.orderManager.nextOrderId, side, price, qty, orderState := .pendingNew }
  set om := s.orderManager.newOrder (tickerId, sideToIndex side) tickerId price side qty
  set s' : System := { s with orderManager := om }
  have horder : ∀ tickerId' side', side'.IsBookSide → s'.omOrder tickerId' side' =
      if tickerId' = tickerId ∧ side' = side then o else s.omOrder tickerId' side' :=
    fun tickerId' side' hside' => omOrder_setOrder hside hside' o
  have hnews : ∀ tickerId' side', s'.newsInFlight tickerId' side' =
      s.newsInFlight tickerId' side' ++
        if r.type = .new ∧ r.tickerId = tickerId' ∧ r.side = side' then [r] else [] :=
    fun _ _ => newsInFlight_of_requests rfl
  refine ⟨fun tickerId' side' hside' => ?_, fun tickerId' side' hside' => ?_, fun r' hr' => ?_,
    h.openOrder, h.response⟩
  · by_cases hkey : tickerId' = tickerId ∧ side' = side
    · obtain ⟨rfl, rfl⟩ := hkey
      unfold Line
      rw [horder _ _ hside', if_pos ⟨rfl, rfl⟩, hnews, if_pos ⟨rfl, rfl, rfl⟩, List.map_append]
      exact (h.line tickerId' side' hside').ask hfree (by simp [OMOrder.IsFree, o]) _
    · refine (h.line tickerId' side' hside').congr ?_ ?_ rfl rfl
      · rw [horder _ _ hside', if_neg hkey]
      · rw [hnews, if_neg fun hr => hkey ⟨hr.2.1.symm, hr.2.2.symm⟩, List.append_nil]
  · rw [horder _ _ hside']
    split_ifs
    · exact fun _ => hticker
    · exact h.order tickerId' side' hside'
  · rcases List.mem_append.mp hr' with hr' | hr'
    · exact h.request r' hr'
    · rw [List.mem_singleton.mp hr']
      exact ⟨hticker, fun _ => hside⟩

/-- An order is moved. -/
lemma Orderly.moveOrder (h : s.Orderly) (hticker : tickerId < meMaxTickers)
    (hside : side.IsBookSide) (ifBody : IfBody)
    (checkPreTradeRisk : ℕ → Side → ℕ → RiskCheckResult) (price : ℤ) (qty : ℕ) :
    Orderly { s with
      orderManager := s.orderManager.moveOrder ifBody checkPreTradeRisk
        (tickerId, sideToIndex side) tickerId price side qty } := by
  have hcases := s.orderManager.moveOrder_cases ifBody checkPreTradeRisk
    (tickerId, sideToIndex side) tickerId price side qty
  generalize s.orderManager.moveOrder _ _ _ _ _ _ _ = om at hcases ⊢
  cases hcases with
  | stay => exact h
  | cancel hlive => exact h.cancelOrder hside hlive
  | new hfree _ _ => exact h.newOrder hticker hside hfree price qty

/-- **The orders of a ticker are moved.** -/
lemma Orderly.moveOrders (h : s.Orderly) (hticker : tickerId < meMaxTickers) (ifBody : IfBody)
    (checkPreTradeRisk : ℕ → Side → ℕ → RiskCheckResult) (bidPrice askPrice : ℤ) (clip : ℕ) :
    Safe (fun _ => False) (fun om => Orderly { s with orderManager := om })
      (s.orderManager.moveOrders ifBody checkPreTradeRisk tickerId bidPrice askPrice clip) := by
  unfold OrderManager.moveOrders
  rw [OrderManager.orderAt_of_lt hticker (.inl rfl), OrderManager.orderAt_of_lt hticker (.inr rfl)]
  have hbid := h.moveOrder hticker (.inl rfl) ifBody checkPreTradeRisk bidPrice clip
  exact hbid.moveOrder hticker (.inr rfl) ifBody checkPreTradeRisk askPrice clip

end OrderManager

/-! ## The exchange -/

section Exchange

variable {s s' : System} {r : MEClientResponse}

/-- The orders of a side, on their way and live. -/
def orderIds (s : System) (tickerId : ℕ) (side : Side) : List ℕ :=
  (s.newsInFlight tickerId side).map (·.orderId) ++
    (s.liveOrders tickerId side).map (·.clientOrderId)

/-- The exchange answers about an order of a side.

**Proof sketch.** The line of the ticker and the side of the response grows by it (`Line.answer`), and
the other lines stay as they were. The requests are among the old ones, and the new response is about a
ticker and a side. -/
lemma Orderly.answer (h : s.Orderly) (hside : r.side.IsBookSide)
    (horders : s'.orderManager.tickerSideOrder = s.orderManager.tickerSideOrder)
    (hresponses : s'.responses = s.responses ++ [r])
    (hother : ∀ tickerId side, ¬ (r.tickerId = tickerId ∧ r.side = side) →
      s'.newsInFlight tickerId side = s.newsInFlight tickerId side ∧
        s'.liveOrders tickerId side = s.liveOrders tickerId side)
    (hident : r.clientOrderId ∈ s.orderIds r.tickerId r.side)
    (hsub : s'.orderIds r.tickerId r.side ⊆ s.orderIds r.tickerId r.side)
    (hlength : (s'.orderIds r.tickerId r.side).length ≤ (s.orderIds r.tickerId r.side).length)
    (hfinal : EndsOrder r → s'.orderIds r.tickerId r.side = [])
    (hrequest : ∀ q ∈ s'.orderManager.requests, q ∈ s.orderManager.requests)
    (hopen : ∀ o ∈ s'.openOrders, o.tickerId < meMaxTickers ∧ o.side.IsBookSide)
    (hticker : r.tickerId < meMaxTickers) : s'.Orderly where
  line tickerId side hside' := by
    have horder : s'.omOrder tickerId side = s.omOrder tickerId side := by
      unfold omOrder
      rw [horders]
    have hto : s'.responsesTo tickerId side = s.responsesTo tickerId side ++
        if r.tickerId = tickerId ∧ r.side = side then [r] else [] := by
      unfold responsesTo
      rw [hresponses, Sessions.filter_concat]
    by_cases hkey : r.tickerId = tickerId ∧ r.side = side
    · obtain ⟨rfl, rfl⟩ := hkey
      unfold Line
      rw [horder, hto, if_pos ⟨rfl, rfl⟩]
      exact (h.line _ _ hside').answer hident hsub hlength hfinal
    · obtain ⟨hnews, hlive⟩ := hother tickerId side hkey
      exact (h.line _ _ hside').congr horder hnews hlive
        (by rw [hto, if_neg hkey, List.append_nil])
  order tickerId side hside' := by
    unfold omOrder
    rw [horders]
    exact h.order tickerId side hside'
  request q hq := h.request q (hrequest q hq)
  openOrder := hopen
  response q hq := by
    rw [hresponses] at hq
    rcases List.mem_append.mp hq with hq | hq
    · exact h.response q hq
    · rw [List.mem_singleton.mp hq]
      exact ⟨hticker, .inl hside⟩

/-- **An open order is replaced** by others of its side. It was the only one there, and no order was on
its way; the other sides see no difference. -/
lemma Orderly.liveOrders_replace (h : s.Orderly) {pre post os : List MEOrder} {o : MEOrder}
    (hopen : s.openOrders = pre ++ o :: post)
    (hos : ∀ o' ∈ os, o'.tickerId = o.tickerId ∧ o'.side = o.side)
    (hs' : s'.openOrders = pre ++ (os ++ post)) :
    s.liveOrders o.tickerId o.side = [o] ∧ s.newsInFlight o.tickerId o.side = [] ∧
      ∀ tickerId side, s'.liveOrders tickerId side =
        if o.tickerId = tickerId ∧ o.side = side then os else s.liveOrders tickerId side := by
  have ho := h.openOrder o (by rw [hopen]; simp)
  have hone := (h.line o.tickerId o.side ho.2).atMostOne
  unfold liveOrders at hone ⊢
  rw [hs', hopen]
  rw [hopen, List.filter_append, List.filter_cons_of_pos (by simp)] at hone
  simp only [List.length_append, List.length_map, List.length_cons] at hone
  have hbefore : pre.filter (fun o' => o'.tickerId = o.tickerId ∧ o'.side = o.side) = [] :=
    List.length_eq_zero_iff.mp (by omega)
  have hafter : post.filter (fun o' => o'.tickerId = o.tickerId ∧ o'.side = o.side) = [] :=
    List.length_eq_zero_iff.mp (by omega)
  refine ⟨?_, List.length_eq_zero_iff.mp (by omega), fun tickerId side => ?_⟩
  · rw [List.filter_append, List.filter_cons_of_pos (by simp), hbefore, hafter]
    rfl
  · split_ifs with hkey
    · obtain ⟨rfl, rfl⟩ := hkey
      have hfilter : os.filter (fun o' => o'.tickerId = o.tickerId ∧ o'.side = o.side) = os :=
        List.filter_eq_self.mpr fun o' ho' => by simp [hos o' ho']
      rw [List.filter_append, List.filter_append, hfilter, hbefore, hafter, List.nil_append,
        List.append_nil]
    · have hfilter : os.filter (fun o' => o'.tickerId = tickerId ∧ o'.side = side) = [] :=
        List.filter_eq_nil_iff.mpr fun o' ho' => by
          rw [(hos o' ho').1, (hos o' ho').2]
          simpa using hkey
      rw [List.filter_append, List.filter_append, List.filter_append, hfilter,
        List.filter_cons_of_neg (by simpa using hkey)]
      rfl

/-- **The exchange answers about an open order**, which stays open, with another quantity, or is
over.

**Proof sketch.** The order was the only one of its ticker and side, and no NEW is on its way there
(`liveOrders_replace`). So the ids on its line are its own before, and its own or none afterwards, and
the answer ends the line exactly if nothing is left (`Orderly.answer`). The other lines stay. -/
lemma Orderly.replace (h : s.Orderly) (r : MEClientResponse) (os : List MEOrder)
    {pre post : List MEOrder} {o : MEOrder} (hopen : s.openOrders = pre ++ o :: post)
    (hticker : r.tickerId = o.tickerId) (hside : r.side = o.side)
    (hident : r.clientOrderId = o.clientOrderId)
    (hos : os = [] ∨ ∃ qty, os = [{ o with qty }] ∧ ¬ EndsOrder r) :
    Orderly ({ s with openOrders := pre ++ (os ++ post) }.respond r) := by
  set s' := { s with openOrders := pre ++ (os ++ post) }.respond r
  have ho := h.openOrder o (by rw [hopen]; simp)
  have hkey : ∀ o' ∈ os, o'.tickerId = o.tickerId ∧ o'.side = o.side ∧
      o'.clientOrderId = o.clientOrderId := by
    intro o' ho'
    rcases hos with rfl | ⟨qty, rfl, -⟩
    · cases ho'
    · rw [List.mem_singleton.mp ho']
      exact ⟨rfl, rfl, rfl⟩
  have hlength : os.length ≤ 1 := by
    rcases hos with rfl | ⟨qty, rfl, -⟩ <;> simp
  obtain ⟨hold, hnews, hnew⟩ := h.liveOrders_replace hopen
    (fun o' ho' => ⟨(hkey o' ho').1, (hkey o' ho').2.1⟩) (rfl : s'.openOrders = _)
  have hids : s.orderIds r.tickerId r.side = [r.clientOrderId] := by
    rw [hticker, hside, hident, orderIds, hold, hnews]
    rfl
  have hids' : s'.orderIds r.tickerId r.side = os.map (·.clientOrderId) := by
    rw [hticker, hside, orderIds, hnew, if_pos ⟨rfl, rfl⟩,
      show s'.newsInFlight o.tickerId o.side = [] from hnews]
    rfl
  refine h.answer (hside ▸ ho.2) rfl rfl (fun tickerId side hne => ⟨rfl, ?_⟩) ?_ ?_ ?_ ?_
    (fun q hq => hq) (fun o' ho' => ?_) (hticker ▸ ho.1)
  · rw [hnew, if_neg (by rwa [← hticker, ← hside])]
  · rw [hids]
    exact List.mem_singleton_self _
  · rw [hids, hids']
    intro i hi
    obtain ⟨o', ho', rfl⟩ := List.mem_map.mp hi
    rw [hident]
    exact List.mem_singleton.mpr (hkey o' ho').2.2
  · rw [hids, hids', List.length_map]
    exact hlength
  · rw [hids']
    rcases hos with rfl | ⟨qty, rfl, hends⟩
    · exact fun _ => rfl
    · exact fun hr => absurd hr hends
  · have hmem : o' ∈ pre ++ (os ++ post) := ho'
    simp only [List.mem_append] at hmem
    rcases hmem with hmem | hmem | hmem
    · exact h.openOrder o' (by rw [hopen]; simp [hmem])
    · rw [(hkey o' hmem).1, (hkey o' hmem).2.1]
      exact ho
    · exact h.openOrder o' (by rw [hopen]; simp [hmem])

/-- A fill. -/
lemma Orderly.fill (h : s.Orderly) (i execQty : ℕ) (price : ℤ) :
    (s.fill i execQty price).Orderly := by
  rcases s.fill_cases i execQty price with hfill | ⟨pre, o, post, hopen, -, -, hfill⟩
  · rw [hfill]
    exact h
  · rw [hfill]
    refine h.replace _ _ hopen rfl rfl rfl ?_
    split_ifs with hleaves
    · exact .inl rfl
    · exact .inr ⟨_, rfl, by simp [EndsOrder, hleaves]⟩

/-- A CANCEL is rejected. -/
lemma Orderly.reject (h : s.Orderly) {request : MEClientRequest}
    (hticker : request.tickerId < meMaxTickers) : (s.reject request).Orderly := by
  refine ⟨fun tickerId side hside => ?_, h.order, h.request, h.openOrder, fun r hr => ?_⟩
  · -- a rejection names no side
    refine (h.line tickerId side hside).congr rfl rfl rfl ?_
    have hne : Side.invalid ≠ side := by
      rcases hside with rfl | rfl <;> decide
    show (s.responses ++ [_]).filter _ = s.responses.filter _
    rw [List.filter_append, List.filter_cons_of_neg (by simpa using fun _ => hne), List.filter_nil,
      List.append_nil]
  · rcases List.mem_append.mp hr with hr | hr
    · exact h.response r hr
    · rw [List.mem_singleton.mp hr]
      exact ⟨hticker, .inr ⟨rfl, rfl⟩⟩

/-- A CANCEL is answered. -/
lemma Orderly.cancel (h : s.Orderly) {request : MEClientRequest}
    (hticker : request.tickerId < meMaxTickers) : (s.cancel request).Orderly := by
  rcases s.cancel_cases request with hcancel | ⟨pre, o, post, hopen, hcancel⟩
  · rw [hcancel]
    exact h.reject hticker
  · rw [hcancel]
    exact h.replace _ [] hopen rfl rfl rfl (.inl rfl)

/-- One request less. -/
lemma newsInFlight_of_cons {request : MEClientRequest} {requests : List MEClientRequest}
    (h : s.orderManager.requests = request :: requests) (s' : System)
    (h' : s'.orderManager.requests = requests) (tickerId : ℕ) (side : Side) : s.newsInFlight tickerId side =
      (if request.type = .new ∧ request.tickerId = tickerId ∧ request.side = side then [request]
        else []) ++ s'.newsInFlight tickerId side := by
  unfold newsInFlight
  rw [h, h', Sessions.filter_head]

/-- A request that asks for no order is taken off the queue. -/
lemma Orderly.leave (h : s.Orderly) {request : MEClientRequest} {requests : List MEClientRequest}
    (hrequests : s.orderManager.requests = request :: requests) (htype : request.type ≠ .new) :
    (s.leave requests).Orderly where
  line tickerId side hside := by
    refine (h.line tickerId side hside).congr rfl ?_ rfl rfl
    rw [newsInFlight_of_cons hrequests (s.leave requests) rfl, if_neg fun hr => htype hr.1]
    rfl
  order := h.order
  request r hr := h.request r (by rw [hrequests]; exact List.mem_cons_of_mem _ hr)
  openOrder := h.openOrder
  response := h.response

/-- The orders of a side after a NEW is accepted: one more, if it is of the side and has a quantity. -/
lemma liveOrders_accept (s : System) (request : MEClientRequest) (marketOrderId tickerId : ℕ)
    (side : Side) :
    (s.accept request marketOrderId).liveOrders tickerId side = s.liveOrders tickerId side ++
      if request.qty ≠ 0 ∧ request.tickerId = tickerId ∧ request.side = side then
        [{ tickerId := request.tickerId, clientId := request.clientId,
           clientOrderId := request.orderId, marketOrderId, side := request.side,
           price := request.price, qty := request.qty }]
      else [] := by
  unfold liveOrders
  by_cases hqty : request.qty = 0
  · rw [if_neg fun hr => hr.1 hqty, List.append_nil]
    show List.filter _ (if _ then _ else _) = _
    rw [if_pos hqty]
  · show List.filter _ (if _ then _ else _) = _
    rw [if_neg hqty, Sessions.filter_concat]
    simp only [ne_eq, hqty, not_false_eq_true, true_and]

/-- **A NEW that is next is the only order on its side.** -/
lemma Orderly.alone_of_new (h : s.Orderly) {request : MEClientRequest} {requests : List MEClientRequest}
    (hrequests : s.orderManager.requests = request :: requests) (htype : request.type = .new)
    (s' : System) (hs' : s'.orderManager.requests = requests) :
    s'.newsInFlight request.tickerId request.side = [] ∧
      s.liveOrders request.tickerId request.side = [] := by
  obtain ⟨-, hside⟩ := h.request request (by rw [hrequests]; exact List.mem_cons_self ..)
  have hone := (h.line request.tickerId request.side (hside htype)).atMostOne
  rw [newsInFlight_of_cons hrequests s' hs', if_pos ⟨htype, rfl, rfl⟩] at hone
  simp only [List.length_append, List.length_map, List.length_cons, List.length_nil] at hone
  exact ⟨List.length_eq_zero_iff.mp (by omega), List.length_eq_zero_iff.mp (by omega)⟩

/-- **A NEW is accepted.**

**Proof sketch.** The request was the only order of its ticker and side that was under way
(`alone_of_new`), so the ids on the line are its own before and its own or none afterwards, as its
quantity is zero or not. The acceptance is an answer that ends no order (`Orderly.answer`), and the
other lines stay. -/
lemma Orderly.accept (h : s.Orderly) {request : MEClientRequest}
    {requests : List MEClientRequest}
    (hrequests : s.orderManager.requests = request :: requests) (htype : request.type = .new)
    (marketOrderId : ℕ) : ((s.leave requests).accept request marketOrderId).Orderly := by
  obtain ⟨hticker, hside⟩ := h.request request (by rw [hrequests]; exact List.mem_cons_self ..)
  have hside := hside htype
  set s' := (s.leave requests).accept request marketOrderId
  set order : MEOrder :=
    { tickerId := request.tickerId, clientId := request.clientId,
      clientOrderId := request.orderId, marketOrderId, side := request.side,
      price := request.price, qty := request.qty }
  have hnews := newsInFlight_of_cons hrequests s' rfl
  have hopen : s'.openOrders = s.openOrders ++ if request.qty = 0 then [] else [order] := by
    show (if _ then _ else _) = _
    split_ifs
    · exact (List.append_nil _).symm
    · rfl
  have hlive : ∀ tickerId side, s'.liveOrders tickerId side = s.liveOrders tickerId side ++
      if request.qty ≠ 0 ∧ request.tickerId = tickerId ∧ request.side = side then [order] else [] :=
    liveOrders_accept (s.leave requests) request marketOrderId
  obtain ⟨hrest, hold⟩ := h.alone_of_new hrequests htype s' rfl
  have hids : s.orderIds request.tickerId request.side = [request.orderId] := by
    rw [orderIds, hnews, if_pos ⟨htype, rfl, rfl⟩, hrest, hold]
    rfl
  have hids' : s'.orderIds request.tickerId request.side = [] ∨
      s'.orderIds request.tickerId request.side = [request.orderId] := by
    rw [orderIds, hrest, hlive, hold]
    split_ifs
    · exact .inr rfl
    · exact .inl rfl
  refine h.answer hside rfl rfl (fun tickerId side hne => ⟨?_, ?_⟩) ?_ ?_ ?_ ?_
    (fun q hq => ?_) (fun o ho => ?_) hticker
  · rw [hnews tickerId side, if_neg fun hr => hne hr.2]
    rfl
  · rw [hlive, if_neg fun hr => hne hr.2, List.append_nil]
  · show request.orderId ∈ s.orderIds request.tickerId request.side
    rw [hids]
    exact List.mem_singleton_self _
  · show s'.orderIds request.tickerId request.side ⊆ s.orderIds request.tickerId request.side
    rw [hids]
    rcases hids' with h' | h' <;> simp [h']
  · show (s'.orderIds request.tickerId request.side).length ≤
      (s.orderIds request.tickerId request.side).length
    rw [hids]
    rcases hids' with h' | h' <;> simp [h']
  · exact fun hends => by simp [EndsOrder] at hends
  · rw [hrequests]
    exact List.mem_cons_of_mem _ hq
  · rw [hopen] at ho
    rcases List.mem_append.mp ho with ho | ho
    · exact h.openOrder o ho
    · split_ifs at ho with hqty
      · cases ho
      · rw [List.mem_singleton.mp ho]
        exact ⟨hticker, hside⟩

/-- **The exchange takes a request.** -/
lemma Orderly.takeRequest (h : s.Orderly) (marketOrderId : ℕ) :
    (s.takeRequest marketOrderId).Orderly := by
  unfold System.takeRequest
  split
  · exact h
  · rename_i request requests hrequests
    have hticker := (h.request request (by rw [hrequests]; exact List.mem_cons_self ..)).1
    cases htype : request.type with
    | new => exact h.accept hrequests htype marketOrderId
    | cancel => exact (h.leave hrequests (by simp [htype])).cancel hticker
    | invalid => exact h.leave hrequests (by simp [htype])

end Exchange

/-! ## Runs -/

section Run

variable {s : System}

/-- **A response is delivered.**

**Proof sketch.** The response is the first one of its ticker and side and of no other (`hto`), so the
other lines stay as they were. On its own line it is delivered (`Line.deliver`). A rejection of a
CANCEL of nothing names no side, and finds no entry to change. -/
lemma Orderly.deliver (h : s.Orderly) : Safe (fun _ => False) Orderly s.deliver := by
  unfold System.deliver
  split
  · exact h
  rename_i r responses hresponses
  obtain ⟨hticker, hside⟩ := h.response r (by rw [hresponses]; exact List.mem_cons_self ..)
  have hresponse : ∀ r' ∈ responses, r'.tickerId < meMaxTickers ∧
      (r'.side.IsBookSide ∨ r'.side = .invalid ∧ r'.type = .cancelRejected) := fun r' hr' =>
    h.response r' (by rw [hresponses]; exact List.mem_cons_of_mem _ hr')
  have hto : ∀ tickerId side, s.responsesTo tickerId side =
      (if r.tickerId = tickerId ∧ r.side = side then [r] else []) ++
        responses.filter fun r => r.tickerId = tickerId ∧ r.side = side := by
    intro tickerId side
    unfold responsesTo
    rw [hresponses, Sessions.filter_head]
  rcases hside with hside | ⟨hside, htype⟩
  · obtain ⟨o, hupdate, horderId, hticker', hfree⟩ :=
      s.orderManager.exists_onOrderUpdate (orderAt_of_lt hticker hside)
    rw [hupdate]
    set om := s.orderManager.setOrder (r.tickerId, sideToIndex r.side) o
    set s' : System := { s with orderManager := om, responses }
    have horder : ∀ tickerId side, side.IsBookSide → s'.omOrder tickerId side =
        if tickerId = r.tickerId ∧ side = r.side then o else s.omOrder tickerId side :=
      fun tickerId side hside' => omOrder_setOrder hside hside' o
    show Orderly s'
    refine ⟨fun tickerId side hside' => ?_, fun tickerId side hside' => ?_, h.request, h.openOrder,
      hresponse⟩
    · have hline := h.line tickerId side hside'
      by_cases hkey : tickerId = r.tickerId ∧ side = r.side
      · obtain ⟨rfl, rfl⟩ := hkey
        unfold Line at hline ⊢
        rw [hto, if_pos ⟨rfl, rfl⟩] at hline
        rw [horder _ _ hside', if_pos ⟨rfl, rfl⟩, horderId]
        exact hline.deliver hfree
      · refine hline.congr ?_ rfl rfl ?_
        · rw [horder _ _ hside', if_neg hkey]
        · rw [hto, if_neg fun hr => hkey ⟨hr.1.symm, hr.2.symm⟩]
          rfl
    · rw [horder _ _ hside']
      split_ifs with hkey
      · -- the response was about an order that was sent
        obtain ⟨rfl, rfl⟩ := hkey
        rw [hticker']
        refine fun _ => h.order r.tickerId r.side hside fun hinvalid => ?_
        have hnone := ((h.line r.tickerId r.side hside).free (.inl hinvalid)).2
        rw [hto, if_pos ⟨rfl, rfl⟩] at hnone
        cases hnone
      · exact h.order tickerId side hside'
  · -- a rejection changes nothing
    have hupdate : s.orderManager.onOrderUpdate r = .ok s.orderManager := by
      unfold onOrderUpdate orderAt
      rw [hside, htype, if_pos ⟨hticker, by decide⟩]
      rfl
    rw [hupdate]
    refine ⟨fun tickerId side hside' => (h.line tickerId side hside').congr rfl rfl rfl ?_, h.order,
      h.request, h.openOrder, hresponse⟩
    have hne : ¬ (r.tickerId = tickerId ∧ r.side = side) := fun hr => by
      rw [← hr.2, hside] at hside'
      exact absurd hside' (by decide)
    rw [hto, if_neg hne]
    rfl

/-- **A step keeps the invariant**, and fails only if it moves the orders of a ticker that the
table has no entry for. -/
theorem Orderly.step (h : s.Orderly) (ifBody : IfBody) (a : Action) :
    Safe (fun _ => ¬ a.InRange) Orderly (s.step ifBody a) := by
  cases a with
  | moveOrders checkPreTradeRisk tickerId bidPrice askPrice clip =>
    show Safe _ _ (s.orderManager.moveOrders ifBody checkPreTradeRisk tickerId bidPrice askPrice clip
      >>= _)
    by_cases hticker : tickerId < meMaxTickers
    · have hmoved := h.moveOrders hticker ifBody checkPreTradeRisk bidPrice askPrice clip
      exact (hmoved.mono (fun _ => False.elim) fun _ => id).bind fun _ horderly => horderly
    · rw [moveOrders_of_le (by omega)]
      exact hticker
  | takeRequest marketOrderId => exact h.takeRequest marketOrderId
  | fill i execQty price => exact h.fill i execQty price
  | deliver => exact h.deliver.mono (fun _ => False.elim) fun _ horderly => horderly

/-- **What the invariant says about orders**: on each side of each ticker, at most one order is in
flight as NEW or live at the exchange, the responses on their way, the one that is delivered next
among them, are about the order that is stored, and a slot is free only if no order of its side is
in flight or live. -/
structure OneOpenOrder (s : System) : Prop where
  atMostOne : ∀ tickerId side, side.IsBookSide →
    (s.newsInFlight tickerId side).length + (s.liveOrders tickerId side).length ≤ 1
  stored : ∀ r ∈ s.responses, r.type = .accepted ∨ r.type = .filled ∨ r.type = .canceled →
    r.side.IsBookSide ∧ r.clientOrderId = (s.omOrder r.tickerId r.side).orderId
  free : ∀ tickerId side, side.IsBookSide →
    (s.omOrder tickerId side).orderState = .invalid ∨
        (s.omOrder tickerId side).orderState = .dead →
      s.newsInFlight tickerId side = [] ∧ s.liveOrders tickerId side = []

/-- The invariant says so. -/
lemma Orderly.oneOpenOrder (h : s.Orderly) : s.OneOpenOrder where
  atMostOne tickerId side hside := by
    have hone := (h.line tickerId side hside).atMostOne
    rwa [List.length_append, List.length_map, List.length_map] at hone
  stored r hr htype := by
    obtain ⟨-, hside | ⟨-, hrejected⟩⟩ := h.response r hr
    · exact ⟨hside, (h.line r.tickerId r.side hside).reply r
        (List.mem_filter.mpr ⟨hr, by simp⟩)⟩
    · simp [hrejected] at htype
  free tickerId side hside hfree := by
    have hnone := ((h.line tickerId side hside).free hfree).1
    rw [List.append_eq_nil_iff] at hnone
    exact ⟨List.map_eq_nil_iff.mp hnone.1, List.map_eq_nil_iff.mp hnone.2⟩

/-- **One open order at most for each ticker and side**, in every state that the system reaches by
moving orders at any prices and sizes, by steps of the exchange and by deliveries, in any order.
A run fails only if it moves the orders of a ticker that the table has no entry for. -/
theorem oneOpenOrder_of_run (ifBody : IfBody) (clientId : ℕ) (actions : List Action) :
    Safe (fun _ => ∃ a ∈ actions, ¬ a.InRange) OneOpenOrder
      (actions.foldlM (step ifBody) (start clientId)) := by
  have hrun : Safe (fun _ => ∃ a ∈ actions, ¬ a.InRange) Orderly
      (actions.foldlM (System.step ifBody) (start clientId)) :=
    safe_foldlM (fun s a hs ha => (hs.step ifBody a).mono (fun _ hrange => ⟨a, ha, hrange⟩)
      fun _ => id) (orderly_start clientId) (Meets.of_forall fun a ha => ha)
  exact hrun.mono (fun _ => id) fun _ => Orderly.oneOpenOrder

/-- A cancel that the fill of its order overtakes: the rejection arrives after the next order is
sent, and leaves it alone. -/
example :
    let move price := Action.moveOrders (fun _ _ _ => .allowed) 0 price Price.invalid 5
    ([move 10, .takeRequest 1, .deliver, .fill 0 5 10, move 11, .deliver, move 11, .takeRequest 0,
      .deliver].foldlM (step .indentedLines) (start 1)).map (fun s =>
        (s.responses, s.newsInFlight 0 .buy, s.omOrder 0 .buy)) =
      .ok ([], [{ type := .new, clientId := 1, tickerId := 0, orderId := 2, side := .buy,
                  price := 11, qty := 5 }],
        { tickerId := 0, orderId := 2, side := .buy, price := 11, qty := 5,
          orderState := .pendingNew }) := by
  rfl

end Run

end System

end Trading
