import HftSystem.Trading.Market

set_option relaxedAutoImplicit false
set_option autoImplicit false

/-!
# What the table of orders says

An order manager learns of its orders by responses alone, and `onOrderUpdate` looks at the ticker and
the side of a response only. What an entry of the table will be, once the responses on their way are
heard, is nevertheless always what the exchange has: an order that rests has an entry with its id, its
price and what is left of it, and if none rests the entry is over, or its quantity is. So when nothing
about a side of a ticker is on its way, its entry says what rests in the book.

## Main definitions

* `Trading.OMOrder.afterUpdate` — what a response makes of an entry.
* `Trading.OMOrder.Knows` — an entry says what is open.
* `Trading.System.Known` — the invariant, of a side of a ticker.

## Main results

* `Trading.TradeSystem.allKnown_step` — every step of a client's system keeps the invariant.
* `Trading.Market.knows_of_run` — the entries and the books in every run of the market.
-/

namespace Trading

open Common Exchange LimitOrderBook PriceTime Fallible OrderManager

/-! ## An entry of the table -/

namespace OMOrder

/-- What a response makes of the entry of its ticker and side. -/
def afterUpdate (o : OMOrder) (r : MEClientResponse) : OMOrder :=
  match r.type with
  | .accepted => { o with orderState := .live }
  | .canceled => { o with orderState := .dead }
  | .filled =>
    { o with qty := r.leavesQty, orderState := if r.leavesQty = 0 then .dead else o.orderState }
  | .cancelRejected | .invalid => o

/-- The entry is about the order. -/
structure Stands (o : OMOrder) (x : MEOrder) : Prop where
  state : o.orderState = .live ∨ o.orderState = .pendingCancel
  orderId : x.clientOrderId = o.orderId
  price : x.price = o.price
  qty : x.qty = o.qty

/-- **The entry says what is open**: the order that is, or that nothing is. -/
structure Knows (o : OMOrder) (orders : List MEOrder) : Prop where
  nothing : orders = [] → o.IsFree ∨ o.qty = 0
  stands : ∀ x ∈ orders, o.Stands x

section Knows

variable {o : OMOrder} {x : MEOrder} {r : MEClientResponse}

/-- A new order is accepted. Without a quantity it is not open. -/
lemma knows_accepted (hstands : Stands { o with orderState := .live } x) (htype : r.type = .accepted) :
    (o.afterUpdate r).Knows (if x.qty ≠ 0 then [x] else []) := by
  have hafter : o.afterUpdate r = { o with orderState := .live } := by
    unfold afterUpdate
    rw [htype]
  rw [hafter]
  split_ifs with hqty
  · refine ⟨fun hnil => absurd hnil (List.cons_ne_nil _ _), fun y hy => ?_⟩
    rw [List.mem_singleton.mp hy]
    exact hstands
  · refine ⟨fun _ => .inr ?_, fun y hy => absurd hy List.not_mem_nil⟩
    rw [← hstands.qty]
    exact not_not.mp hqty

/-- An order is executed, or a part of it. -/
lemma Stands.filled (h : o.Stands x) (htype : r.type = .filled) :
    (o.afterUpdate r).Knows (if r.leavesQty = 0 then [] else [{ x with qty := r.leavesQty }]) := by
  have hafter : o.afterUpdate r =
      { o with qty := r.leavesQty, orderState := if r.leavesQty = 0 then .dead else o.orderState } := by
    unfold afterUpdate
    rw [htype]
  rw [hafter]
  split_ifs with hleaves
  · exact ⟨fun _ => .inl (.inr rfl), fun y hy => absurd hy List.not_mem_nil⟩
  · refine ⟨fun hnil => absurd hnil (List.cons_ne_nil _ _), fun y hy => ?_⟩
    rw [List.mem_singleton.mp hy]
    exact ⟨h.state, h.orderId, h.price, rfl⟩

/-- An order is canceled. -/
lemma knows_canceled (o : OMOrder) (htype : r.type = .canceled) : (o.afterUpdate r).Knows [] := by
  refine ⟨fun _ => .inl (.inr ?_), fun y hy => absurd hy List.not_mem_nil⟩
  unfold afterUpdate
  rw [htype]

/-- A live order is asked to be canceled before a response is heard. -/
lemma afterUpdate_pendingCancel (r : MEClientResponse) (hlive : o.orderState = .live) :
    afterUpdate { o with orderState := .pendingCancel } r = o.afterUpdate r ∨
      (o.afterUpdate r).orderState = .live ∧ afterUpdate { o with orderState := .pendingCancel } r =
        { o.afterUpdate r with orderState := .pendingCancel } := by
  unfold afterUpdate
  cases r.type with
  | accepted | canceled => exact .inl rfl
  | cancelRejected | invalid => exact .inr ⟨hlive, rfl⟩
  | filled =>
    dsimp only
    split_ifs
    · exact .inl rfl
    · exact .inr ⟨hlive, rfl⟩

/-- **A live order is asked to be canceled** while responses are on their way: they make the same of it
as before, or it is still to be canceled. -/
lemma foldl_afterUpdate_pendingCancel (responses : List MEClientResponse)
    (hlive : o.orderState = .live) :
    responses.foldl afterUpdate { o with orderState := .pendingCancel } =
        responses.foldl afterUpdate o ∨
      (responses.foldl afterUpdate o).orderState = .live ∧
        responses.foldl afterUpdate { o with orderState := .pendingCancel } =
          { responses.foldl afterUpdate o with orderState := .pendingCancel } := by
  induction responses generalizing o with
  | nil => exact .inr ⟨hlive, rfl⟩
  | cons r responses ih =>
    rw [List.foldl_cons, List.foldl_cons]
    rcases afterUpdate_pendingCancel r hlive with hsame | ⟨hafter, hsame⟩
    · exact .inl (by rw [hsame])
    · rw [hsame]
      exact ih hafter

/-- An entry says the same of what is open when its order is asked to be canceled. -/
lemma Knows.pendingCancel {responses : List MEClientResponse} {orders : List MEOrder}
    (h : (responses.foldl afterUpdate o).Knows orders) (hlive : o.orderState = .live) :
    (responses.foldl afterUpdate { o with orderState := .pendingCancel }).Knows orders := by
  rcases foldl_afterUpdate_pendingCancel responses hlive with hsame | ⟨hafter, hsame⟩
  · rw [hsame]
    exact h
  · rw [hsame]
    refine ⟨fun hnil => ?_, fun x hx => ⟨.inr rfl, (h.stands x hx).orderId, (h.stands x hx).price,
      (h.stands x hx).qty⟩⟩
    rcases h.nothing hnil with hfree | hqty
    · simp [IsFree, hafter] at hfree
    · exact .inr hqty

end Knows

end OMOrder

/-- `onOrderUpdate`, by the entry that it changes. -/
lemma OrderManager.onOrderUpdate_of_orderAt (om : OrderManager) {r : MEClientResponse} {order : ℕ × ℕ}
    (horder : orderAt r.tickerId r.side = .ok order) :
    om.onOrderUpdate r = .ok (om.setOrder order ((om.tickerSideOrder order).afterUpdate r)) := by
  have hself : om.setOrder order (om.tickerSideOrder order) = om := by
    unfold setOrder
    rw [Function.update_eq_self]
  unfold onOrderUpdate OMOrder.afterUpdate
  rw [horder]
  cases r.type with
  | accepted | canceled => rfl
  | cancelRejected | invalid => exact congrArg Except.ok hself.symm
  | filled =>
    simp only [Fallible.ok_bind, setOrderState, tickerSideOrder_setOrder, setOrder_setOrder]
    split_ifs with hleaves
    · rfl
    · rfl

/-! ## A side of a ticker -/

namespace System

variable {s s' : System} {tickerId : ℕ} {side : Side}

/-- **The invariant of a side**: of an order on its way to the exchange, no response has been sent, and
otherwise the entry, after the responses on their way, says what is open. -/
structure Known (s : System) (tickerId : ℕ) (side : Side) : Prop where
  asked : ∀ r ∈ s.newsInFlight tickerId side, (s.omOrder tickerId side).orderState = .pendingNew ∧
    r.orderId = (s.omOrder tickerId side).orderId ∧ r.price = (s.omOrder tickerId side).price ∧
      r.qty = (s.omOrder tickerId side).qty ∧ s.responsesTo tickerId side = []
  knows : s.newsInFlight tickerId side = [] →
    ((s.responsesTo tickerId side).foldl OMOrder.afterUpdate (s.omOrder tickerId side)).Knows
      (s.liveOrders tickerId side)

/-- Every side of every ticker. -/
def AllKnown (s : System) : Prop := ∀ tickerId side, side.IsBookSide → s.Known tickerId side

/-- Nothing has been sent. -/
lemma allKnown_start (clientId : ℕ) : (start clientId).AllKnown := fun _ _ _ =>
  { asked := fun _ hr => absurd hr List.not_mem_nil
    knows := fun _ => ⟨fun _ => .inl (.inl rfl), fun _ hx => absurd hx List.not_mem_nil⟩ }

/-- Only the entry, the orders and the messages of a side matter to it. -/
lemma Known.congr (h : s.Known tickerId side)
    (horder : s'.omOrder tickerId side = s.omOrder tickerId side)
    (hnews : s'.newsInFlight tickerId side = s.newsInFlight tickerId side)
    (hlive : s'.liveOrders tickerId side = s.liveOrders tickerId side)
    (hresponses : s'.responsesTo tickerId side = s.responsesTo tickerId side) :
    s'.Known tickerId side := by
  refine ⟨?_, ?_⟩
  · rw [horder, hnews, hresponses]
    exact h.asked
  · rw [horder, hnews, hlive, hresponses]
    exact h.knows

/-! ### The exchange -/

section Exchange

variable {r : MEClientResponse} {request : MEClientRequest} {requests : List MEClientRequest}

/-- A response that is sent. -/
lemma responsesTo_respond (s : System) (r : MEClientResponse) (tickerId : ℕ) (side : Side) :
    (s.respond r).responsesTo tickerId side = s.responsesTo tickerId side ++
      if r.tickerId = tickerId ∧ r.side = side then [r] else [] :=
  Sessions.filter_concat (fun r : MEClientResponse => r.tickerId = tickerId ∧ r.side = side) _ _

/-- The exchange answers about the order of a side. -/
lemma known_answer (horder : s'.omOrder tickerId side = s.omOrder tickerId side)
    (hnews : s'.newsInFlight tickerId side = [])
    (hresponses : s'.responsesTo tickerId side = s.responsesTo tickerId side ++ [r])
    (hknows : OMOrder.Knows (((s.responsesTo tickerId side).foldl OMOrder.afterUpdate
      (s.omOrder tickerId side)).afterUpdate r) (s'.liveOrders tickerId side)) :
    s'.Known tickerId side where
  asked _ hr := by
    rw [hnews] at hr
    exact absurd hr List.not_mem_nil
  knows _ := by
    rw [horder, hresponses, List.foldl_concat]
    exact hknows

/-- **The exchange answers about an open order**, which stays open, with another quantity, or is
over. -/
lemma AllKnown.replace (h : s.AllKnown) (horderly : s.Orderly) (r : MEClientResponse)
    {pre post os : List MEOrder} {o : MEOrder} (hopen : s.openOrders = pre ++ o :: post)
    (hticker : r.tickerId = o.tickerId) (hside : r.side = o.side)
    (hos : ∀ o' ∈ os, o'.tickerId = o.tickerId ∧ o'.side = o.side)
    (hknows : ∀ e : OMOrder, e.Stands o → (e.afterUpdate r).Knows os) :
    AllKnown ({ s with openOrders := pre ++ (os ++ post) }.respond r) := by
  set s' := { s with openOrders := pre ++ (os ++ post) }.respond r
  obtain ⟨hold, hnews, hnew⟩ := horderly.liveOrders_replace hopen hos (rfl : s'.openOrders = _)
  intro tickerId side hbook
  have hto : s'.responsesTo tickerId side = s.responsesTo tickerId side ++
      if r.tickerId = tickerId ∧ r.side = side then [r] else [] := responsesTo_respond ..
  rw [hticker, hside] at hto
  by_cases hkey : o.tickerId = tickerId ∧ o.side = side
  · obtain ⟨rfl, rfl⟩ := hkey
    rw [if_pos ⟨rfl, rfl⟩] at hto
    refine known_answer (s := s) rfl hnews hto ?_
    rw [hnew, if_pos ⟨rfl, rfl⟩]
    refine hknows _ (((h _ _ hbook).knows hnews).stands o ?_)
    rw [hold]
    exact List.mem_singleton_self o
  · refine (h tickerId side hbook).congr rfl rfl ?_ ?_
    · rw [hnew, if_neg hkey]
    · rw [hto, if_neg hkey, List.append_nil]

/-- A fill. -/
lemma AllKnown.fill (h : s.AllKnown) (horderly : s.Orderly) (i execQty : ℕ) (price : ℤ) :
    (s.fill i execQty price).AllKnown := by
  rcases s.fill_cases i execQty price with hfill | ⟨pre, o, post, hopen, -, -, hfill⟩
  · rw [hfill]
    exact h
  · rw [hfill]
    refine h.replace horderly _ hopen rfl rfl (fun o' ho' => ?_) fun e he => he.filled rfl
    split_ifs at ho'
    · cases ho'
    · rw [List.mem_singleton.mp ho']
      exact ⟨rfl, rfl⟩

/-- A CANCEL is rejected. -/
lemma AllKnown.reject (h : s.AllKnown) (request : MEClientRequest) : (s.reject request).AllKnown := by
  intro tickerId side hside
  have hne : Side.invalid ≠ side := by
    rcases hside with rfl | rfl <;> decide
  refine (h tickerId side hside).congr rfl rfl rfl ?_
  unfold System.reject
  rw [responsesTo_respond, if_neg fun hr => hne hr.2, List.append_nil]

/-- A CANCEL is answered. -/
lemma AllKnown.cancel (h : s.AllKnown) (horderly : s.Orderly) (request : MEClientRequest) :
    (s.cancel request).AllKnown := by
  rcases s.cancel_cases request with hcancel | ⟨pre, o, post, hopen, hcancel⟩
  · rw [hcancel]
    exact h.reject request
  · rw [hcancel]
    exact h.replace horderly _ hopen rfl rfl (fun _ ho' => absurd ho' List.not_mem_nil)
      fun e _ => e.knows_canceled rfl

/-- A request that asks for no order is taken off the queue. -/
lemma AllKnown.leave (h : s.AllKnown) (hrequests : s.orderManager.requests = request :: requests)
    (htype : request.type ≠ .new) : (s.leave requests).AllKnown := by
  intro tickerId side hside
  refine (h tickerId side hside).congr rfl ?_ rfl rfl
  rw [newsInFlight_of_cons hrequests (s.leave requests) rfl, if_neg fun hr => htype hr.1]
  rfl

/-- **A NEW is accepted.** -/
lemma AllKnown.accept (h : s.AllKnown) (horderly : s.Orderly)
    (hrequests : s.orderManager.requests = request :: requests) (htype : request.type = .new)
    (marketOrderId : ℕ) : ((s.leave requests).accept request marketOrderId).AllKnown := by
  set s' := (s.leave requests).accept request marketOrderId
  intro tickerId side hside
  have hnews := newsInFlight_of_cons hrequests s' rfl tickerId side
  have hlive := liveOrders_accept (s.leave requests) request marketOrderId tickerId side
  have hto := responsesTo_respond (s.leave requests)
    { type := .accepted, clientId := request.clientId, tickerId := request.tickerId,
      clientOrderId := request.orderId, marketOrderId, side := request.side,
      price := request.price, execQty := 0, leavesQty := request.qty } tickerId side
  by_cases hkey : request.tickerId = tickerId ∧ request.side = side
  · obtain ⟨rfl, rfl⟩ := hkey
    obtain ⟨hrest, hold⟩ := horderly.alone_of_new hrequests htype s' rfl
    have hmem : request ∈ s.newsInFlight request.tickerId request.side := by
      rw [hnews, if_pos ⟨htype, rfl, rfl⟩]
      exact List.mem_cons_self
    obtain ⟨-, hid, hprice, hqty, hnone⟩ := (h _ _ hside).asked request hmem
    rw [if_pos ⟨rfl, rfl⟩] at hto
    refine known_answer (s := s) rfl hrest hto ?_
    have hopen : s'.liveOrders request.tickerId request.side = _ := hlive
    rw [hopen, hnone, List.foldl_nil, show (s.leave requests).liveOrders _ _ = [] from hold]
    simp only [and_true, List.nil_append]
    exact OMOrder.knows_accepted (x :=
      { tickerId := request.tickerId, clientId := request.clientId, clientOrderId := request.orderId,
        marketOrderId, side := request.side, price := request.price, qty := request.qty })
      ⟨.inl rfl, hid, hprice, hqty⟩ rfl
  · refine (h tickerId side hside).congr rfl ?_ ?_ ?_
    · rw [hnews, if_neg fun hr => hkey hr.2]
      rfl
    · exact hlive.trans (by rw [if_neg fun hr => hkey hr.2, List.append_nil]; rfl)
    · exact hto.trans (by rw [if_neg hkey, List.append_nil]; rfl)

/-- **The exchange takes a request.** -/
lemma AllKnown.takeRequest (h : s.AllKnown) (horderly : s.Orderly) (marketOrderId : ℕ) :
    (s.takeRequest marketOrderId).AllKnown := by
  unfold System.takeRequest
  split
  · exact h
  · rename_i request requests hrequests
    cases htype : request.type with
    | new => exact h.accept horderly hrequests htype marketOrderId
    | cancel =>
      have hne : request.type ≠ .new := by simp [htype]
      exact (h.leave hrequests hne).cancel (horderly.leave hrequests hne) request
    | invalid => exact h.leave hrequests (by simp [htype])

end Exchange

/-! ### The order manager -/

section OrderManager

/-- A live order is canceled. -/
lemma AllKnown.cancelOrder (h : s.AllKnown) (hside : side.IsBookSide)
    (hlive : (s.omOrder tickerId side).orderState = .live) :
    AllKnown { s with orderManager := s.orderManager.cancelOrder (tickerId, sideToIndex side) } := by
  set s' : System := { s with orderManager := s.orderManager.cancelOrder (tickerId, sideToIndex side) }
  intro tickerId' side' hside'
  have horder : s'.omOrder tickerId' side' =
      if tickerId' = tickerId ∧ side' = side then
        { s.omOrder tickerId side with orderState := .pendingCancel }
      else s.omOrder tickerId' side' :=
    omOrder_setOrder hside hside' _
  have hnews : s'.newsInFlight tickerId' side' = s.newsInFlight tickerId' side' := by
    rw [newsInFlight_of_requests (s := s) rfl, if_neg (by simp), List.append_nil]
  by_cases hkey : tickerId' = tickerId ∧ side' = side
  · obtain ⟨rfl, rfl⟩ := hkey
    rw [if_pos ⟨rfl, rfl⟩] at horder
    refine ⟨fun r hr => ?_, fun hnone => ?_⟩
    · rw [hnews] at hr
      have hpending := ((h _ _ hside').asked r hr).1
      rw [hlive] at hpending
      cases hpending
    · rw [horder]
      exact ((h _ _ hside').knows (hnews ▸ hnone)).pendingCancel hlive
  · exact (h tickerId' side' hside').congr (by rw [horder, if_neg hkey]) hnews rfl rfl

/-- **A new order is sent** on a side that is free. -/
lemma AllKnown.newOrder (h : s.AllKnown) (horderly : s.Orderly) (hside : side.IsBookSide)
    (hfree : (s.omOrder tickerId side).IsFree) (price : ℤ) (qty : ℕ) :
    AllKnown { s with orderManager :=
      s.orderManager.newOrder (tickerId, sideToIndex side) tickerId price side qty } := by
  set r : MEClientRequest :=
    { type := .new, clientId := s.orderManager.tradeEngine.clientId, tickerId,
      orderId := s.orderManager.nextOrderId, side, price, qty }
  set om := s.orderManager.newOrder (tickerId, sideToIndex side) tickerId price side qty
  set s' : System := { s with orderManager := om }
  intro tickerId' side' hside'
  have horder : s'.omOrder tickerId' side' =
      if tickerId' = tickerId ∧ side' = side then
        { tickerId, orderId := s.orderManager.nextOrderId, side, price, qty, orderState := .pendingNew }
      else s.omOrder tickerId' side' :=
    omOrder_setOrder hside hside' _
  have hnews : s'.newsInFlight tickerId' side' = s.newsInFlight tickerId' side' ++
      if r.type = .new ∧ r.tickerId = tickerId' ∧ r.side = side' then [r] else [] :=
    newsInFlight_of_requests rfl
  by_cases hkey : tickerId' = tickerId ∧ side' = side
  · obtain ⟨rfl, rfl⟩ := hkey
    obtain ⟨hids, hto⟩ := (horderly.line tickerId' side' hside').free hfree
    have hnone := List.map_eq_nil_iff.mp (List.append_eq_nil_iff.mp hids).1
    rw [if_pos ⟨rfl, rfl⟩] at horder
    rw [hnone, if_pos ⟨rfl, rfl, rfl⟩] at hnews
    refine ⟨fun r hr => ?_, fun hnil => ?_⟩
    · rw [hnews] at hr
      rw [List.mem_singleton.mp hr, horder]
      exact ⟨rfl, rfl, rfl, rfl, hto⟩
    · rw [hnews] at hnil
      cases hnil
  · refine (h tickerId' side' hside').congr (by rw [horder, if_neg hkey]) ?_ rfl rfl
    rw [hnews, if_neg fun hr => hkey ⟨hr.2.1.symm, hr.2.2.symm⟩, List.append_nil]

/-- An order is moved. -/
lemma AllKnown.moveOrder (h : s.AllKnown) (horderly : s.Orderly) (hside : side.IsBookSide)
    (ifBody : IfBody) (checkPreTradeRisk : ℕ → Side → ℕ → RiskCheckResult) (price : ℤ) (qty : ℕ) :
    AllKnown { s with
      orderManager := s.orderManager.moveOrder ifBody checkPreTradeRisk
        (tickerId, sideToIndex side) tickerId price side qty } := by
  have hcases := s.orderManager.moveOrder_cases ifBody checkPreTradeRisk
    (tickerId, sideToIndex side) tickerId price side qty
  generalize s.orderManager.moveOrder _ _ _ _ _ _ _ = om at hcases ⊢
  cases hcases with
  | stay => exact h
  | cancel hlive => exact h.cancelOrder hside hlive
  | new hfree _ _ => exact h.newOrder horderly hside hfree price qty

/-- **The orders of a ticker are moved.** -/
lemma AllKnown.moveOrders (h : s.AllKnown) (horderly : s.Orderly) {ifBody : IfBody}
    {checkPreTradeRisk : ℕ → Side → ℕ → RiskCheckResult} {bidPrice askPrice : ℤ} {clip : ℕ}
    {om : OrderManager} (hom : s.orderManager.moveOrders ifBody checkPreTradeRisk tickerId bidPrice
      askPrice clip = .ok om) : AllKnown { s with orderManager := om } := by
  by_cases hticker : tickerId < meMaxTickers
  · unfold OrderManager.moveOrders at hom
    rw [orderAt_of_lt hticker (.inl rfl), orderAt_of_lt hticker (.inr rfl)] at hom
    cases hom
    have hbid : AllKnown { s with
        orderManager := s.orderManager.moveOrder ifBody checkPreTradeRisk
          (tickerId, sideToIndex .buy) tickerId bidPrice .buy clip } :=
      h.moveOrder horderly (.inl rfl) ifBody checkPreTradeRisk bidPrice clip
    have hordered := horderly.moveOrder hticker (.inl rfl) ifBody checkPreTradeRisk bidPrice clip
    exact hbid.moveOrder hordered (.inr rfl) ifBody checkPreTradeRisk askPrice clip
  · rw [moveOrders_of_le (by omega)] at hom
    cases hom

/-- **A response is delivered.**

**Proof sketch.** The response is the first one of its ticker and side and of no other (`hto`). There,
what the entry says once the responses are heard is the same before the delivery and after it, since
hearing this one is the first of its steps; and no NEW is on its way, since a NEW is sent behind the
last response. A rejection of a CANCEL of nothing names no side. -/
lemma AllKnown.delivered (h : s.AllKnown) (horderly : s.Orderly) {r : MEClientResponse}
    {responses : List MEClientResponse} (hresponses : s.responses = r :: responses) {om : OrderManager}
    (hom : s.orderManager.onOrderUpdate r = .ok om) :
    AllKnown { s with orderManager := om, responses } := by
  have hto : ∀ tickerId side, s.responsesTo tickerId side =
      (if r.tickerId = tickerId ∧ r.side = side then [r] else []) ++
        { s with orderManager := om, responses }.responsesTo tickerId side := by
    intro tickerId side
    unfold responsesTo
    rw [hresponses, Sessions.filter_head]
  have hmem : r ∈ s.responses := by
    rw [hresponses]
    exact List.mem_cons_self
  obtain ⟨hticker, hside | ⟨hside, htype⟩⟩ := horderly.response r hmem
  · rw [s.orderManager.onOrderUpdate_of_orderAt (orderAt_of_lt hticker hside)] at hom
    cases hom
    intro tickerId side hside'
    set s' : System := { s with
      orderManager := s.orderManager.setOrder (r.tickerId, sideToIndex r.side)
        ((s.orderManager.tickerSideOrder (r.tickerId, sideToIndex r.side)).afterUpdate r)
      responses }
    have horder : s'.omOrder tickerId side = if tickerId = r.tickerId ∧ side = r.side
        then (s.omOrder r.tickerId r.side).afterUpdate r else s.omOrder tickerId side :=
      omOrder_setOrder hside hside' _
    have hto := hto tickerId side
    by_cases hkey : tickerId = r.tickerId ∧ side = r.side
    · obtain ⟨rfl, rfl⟩ := hkey
      rw [if_pos ⟨rfl, rfl⟩] at horder hto
      refine ⟨fun q hq => ?_, fun hnone => ?_⟩
      · have hnil := ((h _ _ hside').asked q hq).2.2.2.2
        rw [hto] at hnil
        cases hnil
      · have hknows := (h _ _ hside').knows hnone
        rw [hto] at hknows
        rw [horder]
        exact hknows
    · rw [if_neg fun hr => hkey ⟨hr.1.symm, hr.2.symm⟩] at hto
      exact (h tickerId side hside').congr (by rw [horder, if_neg hkey]) rfl rfl hto.symm
  · -- a rejection names no side, and changes nothing
    obtain ⟨order, -, hupdate⟩ := bind_eq_ok.mp hom
    rw [htype] at hupdate
    cases hupdate
    intro tickerId side hside'
    have hne : ¬ (r.tickerId = tickerId ∧ r.side = side) := fun hr => by
      rw [← hr.2, hside] at hside'
      exact absurd hside' (by decide)
    refine (h tickerId side hside').congr rfl rfl rfl ?_
    rw [hto, if_neg hne]
    rfl

end OrderManager

end System

/-! ## Runs of a client's system -/

namespace TradeSystem

variable {F : Type} [Double F] {riskCfg : ℕ → RiskCfg F} {s s' : TradeSystem F} {ifBody : IfBody}
  {overload : AbsOverload}

/-- **Every step keeps what is known.**

**Proof sketch.** By the cases of a step. The order manager moves orders, the exchange takes a request,
rejects a CANCEL or executes an order, and the client hears a response: each is a lemma of its own. New
best prices change neither the orders nor the responses. -/
theorem allKnown_step (h : s.AllKnown) (horderly : s.Orderly) {a : TradeAction}
    (hstep : s.step ifBody overload riskCfg a = .ok s') : s'.AllKnown := by
  cases a with
  | moveOrders tickerId bidPrice askPrice clip =>
    obtain ⟨om, hom, hstep⟩ := bind_eq_ok.mp hstep
    cases hstep
    exact h.moveOrders horderly hom
  | takeRequest marketOrderId =>
    cases hstep
    exact h.takeRequest horderly marketOrderId
  | rejectCancel =>
    cases hstep
    show (TradeSystem.rejectCancel s.toSystem).AllKnown
    unfold TradeSystem.rejectCancel
    split
    · exact h
    · rename_i request requests hrequests
      split_ifs with htype
      · exact (h.leave hrequests (by simp [htype])).reject request
      · exact h
  | fill i execQty price =>
    cases hstep
    exact h.fill horderly i execQty price
  | updateBBO tickerId bbo =>
    obtain ⟨_, -, hstep⟩ := bind_eq_ok.mp hstep
    cases hstep
    exact h
  | deliver =>
    have hstep : s.deliver = .ok s' := hstep
    unfold TradeSystem.deliver at hstep
    split at hstep
    · cases hstep
      exact h
    · rename_i r responses hresponses
      obtain ⟨s₁, hupdate, hstep⟩ := bind_eq_ok.mp hstep
      obtain ⟨_, -, hupdate⟩ := bind_eq_ok.mp hupdate
      obtain ⟨om, hom, hupdate⟩ := bind_eq_ok.mp hupdate
      cases hupdate
      cases hstep
      exact h.delivered horderly hresponses hom

/-- What is known in every state that a client's system reaches. -/
lemma allKnown_of_reaches {setup : TradeEngineSetup F}
    (hcfg : ∀ t, (setup.riskCfg t).maxOrderSize < 2 ^ 31 ∧ (setup.riskCfg t).maxPosition < 2 ^ 31)
    {k : ℕ} {openVwap : ℕ → ℕ → F} (h : Reaches setup (start k openVwap) s) : s.AllKnown := by
  obtain ⟨actions, hactions⟩ := h
  have hstep : ∀ (s : TradeSystem F) (a : TradeAction) (s' : TradeSystem F),
      Sound setup.riskCfg k s ∧ s.AllKnown → True →
        s.step setup.ifBody setup.overload setup.riskCfg a = .ok s' →
          Sound setup.riskCfg k s' ∧ s'.AllKnown := fun s a s' hs _ hstep =>
    ⟨(hs.1.step hcfg setup.ifBody a).of_eq_ok hstep, allKnown_step hs.2 hs.1.orderly hstep⟩
  have hstart : Sound setup.riskCfg k (start k openVwap) ∧ (start k openVwap).AllKnown :=
    ⟨sound_start k openVwap, System.allKnown_start k⟩
  exact (inv_of_foldlM hstep hstart meets_true hactions).2

end TradeSystem

/-! ## Runs of the market -/

namespace Market

variable {F : Type} {m : Market F} {v : ℕ → View MEOrder} {k : ℕ} {s : TradeSystem F}

/-- **What the entry of a side will be** when its client has heard the responses on their way. -/
def entry (m : Market F) (k t : ℕ) (side : Side) : OMOrder :=
  ((m.responses k).filter fun r => r.tickerId = t ∧ r.side = side).foldl OMOrder.afterUpdate
    ((m.engines k).orderManager.tickerSideOrder (t, sideToIndex side))

/-- No NEW of a side is on its way. -/
def NoNew (m : Market F) (k t : ℕ) (side : Side) : Prop :=
  ∀ r ∈ (m.engines k).requests, ¬ (r.type = .new ∧ r.tickerId = t ∧ r.side = side)

/-- The entry is that of the client's system. -/
lemma IsPart.entry (h : IsPart m v k s) (t : ℕ) (side : Side) :
    (s.responsesTo t side).foldl OMOrder.afterUpdate (s.omOrder t side) = m.entry k t side := by
  unfold System.responsesTo System.omOrder Market.entry
  rw [h.orderManager, h.responses, List.filter_map, List.foldl_map]
  rfl

/-- What a side's entry says of the orders that rest. -/
lemma IsPart.knows (h : IsPart m v k s) (hknown : s.AllKnown) {t : ℕ} {side : Side}
    (hside : side.IsBookSide) (hnews : m.NoNew k t side) :
    (m.entry k t side).Knows ((restingOf k (v t)).filter fun o => o.side = side) := by
  have hnone : s.newsInFlight t side = [] := by
    unfold System.newsInFlight
    rw [h.orderManager]
    exact List.filter_eq_nil_iff.mpr fun r hr => by simpa using hnews r hr
  have hknows := (hknown t side hside).knows hnone
  rw [h.entry] at hknows
  have hperm := h.liveOrders_perm t side
  exact ⟨fun hnil => hknows.nothing (hnil ▸ hperm).eq_nil,
    fun x hx => hknows.stands x (hperm.mem_iff.mpr hx)⟩

/-- **What a client believes is so.** In every run of admissible steps, with `add` through line 105 and
limits below `2 ^ 31`, if no NEW of a side of a ticker is on its way to the matching engine, the client's
entry of the side, once the responses on their way are heard, says what the client has in the book: an
order that rests there with the id, the price and the quantity of the entry, or nothing, and then the
entry is over or its quantity is. -/
theorem knows_of_run [Double F] [LE F] [DecidableLE F] {setups : ℕ → TradeEngineSetup F}
    {openVwap : ℕ → ℕ → ℕ → F}
    (hcfg : ∀ k, (setups k).Plays → ∀ t, ((setups k).riskCfg t).maxOrderSize < 2 ^ 31 ∧
      ((setups k).riskCfg t).maxPosition < 2 ^ 31) {actions : List MarketAction}
    (h : Meets (Market.step setups) (Admits setups) (start openVwap) actions) :
    Safe (fun _ => True)
      (fun m => ∃ v : ℕ → View MEOrder, (∀ t, BookInvariant (m.exchange.alone t) (v t)) ∧
        ∀ k, (setups k).Plays → ∀ t side, side.IsBookSide → m.NoNew k t side →
          (m.entry k t side).Knows ((restingOf k (v t)).filter fun o => o.side = side))
      (actions.foldlM (Market.step setups) (start openVwap)) := by
  refine (refines_of_run hcfg h).mono (fun _ => id) ?_
  rintro m ⟨v, hm⟩
  refine ⟨v, hm.book, fun k hk t side hside hnews => ?_⟩
  obtain ⟨s, hreach, hpart⟩ := hm.part k hk
  exact hpart.knows (TradeSystem.allKnown_of_reaches (hcfg k hk) hreach) hside hnews

/-- The clients of the sample know what they have in the book. -/
theorem knows_of_run_sample :
    ∃ m, sampleRun.foldlM (Market.step sampleSetups) (start fun _ _ _ => 0) = .ok m ∧
      ∃ v : ℕ → View MEOrder, (∀ t, BookInvariant (m.exchange.alone t) (v t)) ∧
        ∀ k, (sampleSetups k).Plays → ∀ t side, side.IsBookSide → m.NoNew k t side →
          (m.entry k t side).Knows ((restingOf k (v t)).filter fun o => o.side = side) :=
  (knows_of_run sampleSetups_limits meets_sampleRun).exists_of_isOk (by decide +kernel)

end Market

end Trading
