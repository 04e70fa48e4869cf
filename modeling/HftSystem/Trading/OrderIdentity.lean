import HftSystem.Trading.PositionLimit

set_option relaxedAutoImplicit false
set_option autoImplicit false

/-!
# The identity of an order

The exchange and the order manager know an order by the ticker and the client's order id, and the
id alone has to tell the two sides of a ticker apart. The order manager numbers its orders, so it
does, as long as no response names an entry of its table that was never used.

## Main definitions

* `Trading.OrderManager.Identifies` — the order manager of a client, with requests of its own and a
  number of its own for every order.

## Main results

* `Trading.TradeSystem.Sound.step` — every step of a client's system keeps the invariant.
* `Trading.System.Orderly.unique` — a request names one open order at most.
-/

namespace Trading

open Common Exchange Fallible OrderManager

namespace OrderManager

/-- The entry of a side of a ticker is in use. -/
def Used (om : OrderManager) (tickerId : ℕ) (side : Side) : Prop :=
  side.IsBookSide ∧ (om.tickerSideOrder (tickerId, sideToIndex side)).orderState ≠ .invalid

/-- The order id of a side of a ticker. -/
def idAt (om : OrderManager) (tickerId : ℕ) (side : Side) : ℕ :=
  (om.tickerSideOrder (tickerId, sideToIndex side)).orderId

/-- **The order manager of a client**: its requests are the client's, and the entries in use have ids
that were given to them alone. -/
structure Identifies (clientId : ℕ) (om : OrderManager) : Prop where
  client : om.tradeEngine.clientId = clientId
  request : ∀ r ∈ om.requests, r.clientId = clientId ∧ r.type ≠ .invalid
  bound : ∀ tickerId side, om.Used tickerId side → om.idAt tickerId side < om.nextOrderId
  distinct : ∀ tickerId side tickerId' side', om.Used tickerId side → om.Used tickerId' side' →
    om.idAt tickerId side = om.idAt tickerId' side' → tickerId = tickerId' ∧ side = side'

section Identifies

variable {clientId tickerId : ℕ} {side : Side} {om om' : OrderManager}

/-- Nothing has been sent. -/
lemma identifies_start (clientId : ℕ) : Identifies clientId { tradeEngine := { clientId } } where
  client := rfl
  request _ hr := absurd hr List.not_mem_nil
  bound _ _ h := absurd rfl h.2
  distinct _ _ _ _ h := absurd rfl h.2

/-- Other requests in the queue. -/
lemma Identifies.of_requests (h : Identifies clientId om) {requests : List MEClientRequest}
    (hrequests : ∀ r ∈ requests, r ∈ om.requests ∨ r.clientId = clientId ∧ r.type ≠ .invalid) :
    Identifies clientId { om with tradeEngine.outgoingOgwRequests := requests } where
  client := h.client
  request r hr := (hrequests r hr).elim (h.request r) id
  bound := h.bound
  distinct := h.distinct

/-- A request that is sent. -/
lemma Identifies.sendRequest (h : Identifies clientId om) {r : MEClientRequest}
    (hclient : r.clientId = clientId) (htype : r.type ≠ .invalid) :
    Identifies clientId { om with tradeEngine := om.tradeEngine.sendClientRequest r } := by
  refine h.of_requests fun r' hr' => ?_
  rcases List.mem_append.mp hr' with hr' | hr'
  · exact .inl hr'
  · rw [List.mem_singleton.mp hr']
    exact .inr ⟨hclient, htype⟩

/-- **An entry is set**, to one about the same order, and is not used for the first time. -/
lemma Identifies.setOrder (h : Identifies clientId om) (hside : side.IsBookSide) {o : OMOrder}
    (hid : o.orderId = om.idAt tickerId side)
    (hused : o.orderState ≠ .invalid → om.Used tickerId side) :
    Identifies clientId (om.setOrder (tickerId, sideToIndex side) o) := by
  -- no entry has another id or is used for the first time
  have hentry : ∀ tickerId' side', (om.setOrder (tickerId, sideToIndex side) o).Used tickerId' side' →
      om.Used tickerId' side' ∧
        (om.setOrder (tickerId, sideToIndex side) o).idAt tickerId' side' = om.idAt tickerId' side' := by
    rintro tickerId' side' ⟨hside', hstate⟩
    unfold idAt
    simp only [OrderManager.setOrder] at hstate ⊢
    by_cases hkey : (tickerId', sideToIndex side') = (tickerId, sideToIndex side)
    · obtain ⟨rfl, hindex⟩ := Prod.mk.inj hkey
      obtain rfl := (sideToIndex_inj hside' hside).mp hindex
      rw [Function.update_self] at hstate ⊢
      exact ⟨hused hstate, hid⟩
    · rw [Function.update_of_ne hkey] at hstate ⊢
      exact ⟨⟨hside', hstate⟩, rfl⟩
  refine ⟨h.client, h.request, fun tickerId' side' hu => ?_, fun t₁ s₁ t₂ s₂ h₁ h₂ heq => ?_⟩
  · obtain ⟨hold, hsame⟩ := hentry tickerId' side' hu
    rw [hsame]
    exact h.bound tickerId' side' hold
  · obtain ⟨hold₁, hsame₁⟩ := hentry t₁ s₁ h₁
    obtain ⟨hold₂, hsame₂⟩ := hentry t₂ s₂ h₂
    rw [hsame₁, hsame₂] at heq
    exact h.distinct t₁ s₁ t₂ s₂ hold₁ hold₂ heq

/-- **A new order** gets an id that no other order has.

**Proof sketch.** The new order has the id that is next, and that id grows. An order of another ticker
or side has a smaller id (`Identifies.bound`), so it has another one. -/
lemma Identifies.newOrder (h : Identifies clientId om) (hside : side.IsBookSide) (price : ℤ)
    (qty : ℕ) :
    Identifies clientId (om.newOrder (tickerId, sideToIndex side) tickerId price side qty) := by
  set om' := om.newOrder (tickerId, sideToIndex side) tickerId price side qty with hom'
  have hentry : ∀ tickerId' side', om'.Used tickerId' side' →
      om'.idAt tickerId' side' = om.nextOrderId ∧ tickerId' = tickerId ∧ side' = side ∨
        om.Used tickerId' side' ∧ om'.idAt tickerId' side' = om.idAt tickerId' side' := by
    rintro tickerId' side' ⟨hside', hstate⟩
    unfold idAt
    simp only [hom', OrderManager.newOrder, OrderManager.setOrder] at hstate ⊢
    by_cases hkey : (tickerId', sideToIndex side') = (tickerId, sideToIndex side)
    · obtain ⟨rfl, hindex⟩ := Prod.mk.inj hkey
      obtain rfl := (sideToIndex_inj hside' hside).mp hindex
      rw [Function.update_self]
      exact .inl ⟨rfl, rfl, rfl⟩
    · rw [Function.update_of_ne hkey] at hstate ⊢
      exact .inr ⟨⟨hside', hstate⟩, rfl⟩
  have hnext : om'.nextOrderId = om.nextOrderId + 1 := rfl
  have hsent := h.sendRequest (r :=
    { type := .new, clientId := om.tradeEngine.clientId, tickerId, orderId := om.nextOrderId, side,
      price, qty }) h.client (by simp)
  refine ⟨h.client, hsent.request, fun tickerId' side' hu => ?_, fun t₁ s₁ t₂ s₂ h₁ h₂ heq => ?_⟩
  · rcases hentry tickerId' side' hu with ⟨hid, -, -⟩ | ⟨hold, hsame⟩
    · omega
    · have := h.bound tickerId' side' hold
      omega
  · rcases hentry t₁ s₁ h₁ with ⟨hid₁, rfl, rfl⟩ | ⟨hold₁, hsame₁⟩
    · rcases hentry t₂ s₂ h₂ with ⟨-, rfl, rfl⟩ | ⟨hold₂, hsame₂⟩
      · exact ⟨rfl, rfl⟩
      · have := h.bound t₂ s₂ hold₂
        omega
    · rcases hentry t₂ s₂ h₂ with ⟨hid₂, rfl, rfl⟩ | ⟨hold₂, hsame₂⟩
      · have := h.bound t₁ s₁ hold₁
        omega
      · rw [hsame₁, hsame₂] at heq
        exact h.distinct t₁ s₁ t₂ s₂ hold₁ hold₂ heq

/-- An order is moved. -/
lemma Identifies.moveOrder (h : Identifies clientId om) (hside : side.IsBookSide) (ifBody : IfBody)
    (checkPreTradeRisk : ℕ → Side → ℕ → RiskCheckResult) (price : ℤ) (qty : ℕ) :
    Identifies clientId
      (om.moveOrder ifBody checkPreTradeRisk (tickerId, sideToIndex side) tickerId price side qty) := by
  have hcases := om.moveOrder_cases ifBody checkPreTradeRisk (tickerId, sideToIndex side) tickerId
    price side qty
  generalize om.moveOrder _ _ _ _ _ _ _ = om' at hcases ⊢
  cases hcases with
  | stay => exact h
  | cancel hlive =>
    have hsent := h.sendRequest (r :=
      { type := .cancel, clientId := om.tradeEngine.clientId,
        tickerId := (om.tickerSideOrder (tickerId, sideToIndex side)).tickerId,
        orderId := (om.tickerSideOrder (tickerId, sideToIndex side)).orderId,
        side := (om.tickerSideOrder (tickerId, sideToIndex side)).side,
        price := (om.tickerSideOrder (tickerId, sideToIndex side)).price,
        qty := (om.tickerSideOrder (tickerId, sideToIndex side)).qty }) h.client (by simp)
    have hused : om.Used tickerId side := ⟨hside, fun hinvalid => by simp [hlive] at hinvalid⟩
    exact hsent.setOrder hside rfl fun _ => hused
  | new => exact h.newOrder hside price qty

/-- The orders of a ticker are moved. -/
lemma Identifies.moveOrders (h : Identifies clientId om) (ifBody : IfBody)
    (checkPreTradeRisk : ℕ → Side → ℕ → RiskCheckResult) (tickerId : ℕ) (bidPrice askPrice : ℤ)
    (clip : ℕ) :
    Safe (fun _ => ¬ tickerId < meMaxTickers) (Identifies clientId)
      (om.moveOrders ifBody checkPreTradeRisk tickerId bidPrice askPrice clip) := by
  by_cases hticker : tickerId < meMaxTickers
  · unfold OrderManager.moveOrders
    rw [orderAt_of_lt hticker (.inl rfl), orderAt_of_lt hticker (.inr rfl)]
    exact (h.moveOrder (.inl rfl) ifBody checkPreTradeRisk bidPrice clip).moveOrder (.inr rfl) ifBody
      checkPreTradeRisk askPrice clip
  · rw [moveOrders_of_le (by omega)]
    exact hticker

end Identifies

end OrderManager

/-! ## The orders at the exchange -/

namespace System

variable {s : System} {clientId : ℕ}

/-- An entry whose side has an order somewhere is in use, and an open order has its id. -/
lemma Orderly.used_of_open (h : s.Orderly) {o : MEOrder} (ho : o ∈ s.openOrders) :
    s.orderManager.Used o.tickerId o.side ∧
      s.orderManager.idAt o.tickerId o.side = o.clientOrderId := by
  obtain ⟨-, hside⟩ := h.openOrder o ho
  have hline := h.line o.tickerId o.side hside
  have hlive : o.clientOrderId ∈ (s.liveOrders o.tickerId o.side).map (·.clientOrderId) :=
    List.mem_map_of_mem (List.mem_filter.mpr ⟨ho, by simp⟩)
  refine ⟨⟨hside, fun hinvalid => ?_⟩, (hline.session _ (List.mem_append_right _ hlive)).symm⟩
  have hnone := (List.append_eq_nil_iff.mp (hline.free (.inl hinvalid)).1).2
  rw [hnone] at hlive
  exact absurd hlive List.not_mem_nil

/-- **A request names one open order at most.** -/
theorem Orderly.unique (h : s.Orderly) (hids : Identifies clientId s.orderManager)
    {request : MEClientRequest} {o o' : MEOrder} (ho : o ∈ s.openOrders) (ho' : o' ∈ s.openOrders)
    (hnames : Names request o) (hnames' : Names request o') : o = o' := by
  obtain ⟨hused, hid⟩ := h.used_of_open ho
  obtain ⟨hused', hid'⟩ := h.used_of_open ho'
  have hid₂ : s.orderManager.idAt o.tickerId o.side = s.orderManager.idAt o'.tickerId o'.side := by
    rw [hid, hid', hnames.2, hnames'.2]
  obtain ⟨hticker, hside⟩ := hids.distinct _ _ _ _ hused hused' hid₂
  -- both are the one live order of the side
  have hone := (h.line o.tickerId o.side hused.1).atMostOne
  have hlength : (s.liveOrders o.tickerId o.side).length ≤ 1 := by
    rw [List.length_append, List.length_map, List.length_map] at hone
    omega
  have hmem : o ∈ s.liveOrders o.tickerId o.side := List.mem_filter.mpr ⟨ho, by simp⟩
  have hmem' : o' ∈ s.liveOrders o.tickerId o.side :=
    List.mem_filter.mpr ⟨ho', by simp [hticker, hside]⟩
  obtain ⟨x, hx⟩ := List.length_eq_one_iff.mp
    (Nat.le_antisymm hlength (List.length_pos_of_mem hmem))
  rw [hx] at hmem hmem'
  rw [List.mem_singleton.mp hmem, List.mem_singleton.mp hmem']

end System

/-! ## Runs of a client's system -/

namespace TradeSystem

variable {F : Type} {riskCfg : ℕ → RiskCfg F} {s : TradeSystem F} {clientId : ℕ}

/-- **The invariant of a client's system**: the limits, and the identity of its orders. -/
structure Sound (riskCfg : ℕ → RiskCfg F) (clientId : ℕ) (s : TradeSystem F) : Prop
    extends Guarded riskCfg s where
  ids : Identifies clientId s.orderManager

/-- A request that is taken off the queue. -/
lemma identifies_leave {s : System} (h : Identifies clientId s.orderManager)
    {request : MEClientRequest} {requests : List MEClientRequest}
    (hrequests : s.orderManager.requests = request :: requests) :
    Identifies clientId (s.leave requests).orderManager :=
  h.of_requests fun r hr => .inl (by rw [hrequests]; exact List.mem_cons_of_mem _ hr)

/-- **A response is delivered.** It names an entry in use, since none is on its way to another one. -/
lemma Sound.identifies_of_delivered (h : Sound riskCfg clientId s) {r : MEClientResponse}
    {responses : List MEClientResponse} (hresponses : s.responses = r :: responses) {om : OrderManager}
    (hom : s.orderManager.onOrderUpdate r = .ok om) : Identifies clientId om := by
  have hmem : r ∈ s.responses := by
    rw [hresponses]
    exact List.mem_cons_self
  obtain ⟨hticker, hside | ⟨hside, htype⟩⟩ := h.orderly.response r hmem
  · obtain ⟨o, hupdate, hid, -, -⟩ :=
      s.orderManager.exists_onOrderUpdate (orderAt_of_lt hticker hside)
    cases hupdate.symm.trans hom
    refine h.ids.setOrder hside hid fun _ => ⟨hside, fun hinvalid => ?_⟩
    have hnone := ((h.orderly.line r.tickerId r.side hside).free (.inl hinvalid)).2
    have hto : r ∈ s.responsesTo r.tickerId r.side := List.mem_filter.mpr ⟨hmem, by simp⟩
    rw [hnone] at hto
    exact absurd hto List.not_mem_nil
  · -- a rejection names no side, and changes nothing
    obtain ⟨order, -, hupdate⟩ := bind_eq_ok.mp hom
    rw [htype] at hupdate
    cases hupdate
    exact h.ids

variable [Double F] {overload : AbsOverload}

/-- Nothing has been sent. -/
lemma sound_start (clientId : ℕ) (openVwap : ℕ → ℕ → F) :
    Sound riskCfg clientId (start clientId openVwap) :=
  ⟨guarded_start clientId openVwap, identifies_start clientId⟩

/-- A step keeps the orders apart.

**Proof sketch.** By the cases of a step: only `moveOrders` and `deliver` change the table of the order
manager, and only `takeRequest` and `rejectCancel` shorten its requests. An order manager that numbers
upwards keeps the ids of the live orders and of the requests apart in each of them. -/
lemma Sound.identifies_step (h : Sound riskCfg clientId s) (ifBody : IfBody) (a : TradeAction) :
    Safe (fun _ => True) (fun s' => Identifies clientId s'.orderManager)
      (s.step ifBody overload riskCfg a) := by
  cases a with
  | moveOrders tickerId bidPrice askPrice clip =>
    have hmoved := h.ids.moveOrders ifBody (checkPreTradeRisk overload riskCfg s.positionKeeper)
      tickerId bidPrice askPrice clip
    exact (hmoved.mono (fun _ _ => trivial) fun _ => id).bind fun _ hom => hom
  | takeRequest marketOrderId =>
    show Identifies clientId (s.takeRequest marketOrderId).orderManager
    unfold System.takeRequest
    split
    · exact h.ids
    · rename_i request requests hrequests
      have hleave := identifies_leave h.ids hrequests
      cases request.type with
      | new => exact hleave
      | cancel =>
        show Identifies clientId ((s.leave requests).cancel request).orderManager
        rcases (s.leave requests).cancel_cases request with hcancel | ⟨_, _, _, -, hcancel⟩
        · rw [hcancel]
          exact hleave
        · rw [hcancel]
          exact hleave
      | invalid => exact hleave
  | rejectCancel =>
    show Identifies clientId (TradeSystem.rejectCancel s.toSystem).orderManager
    unfold TradeSystem.rejectCancel
    split
    · exact h.ids
    · rename_i request requests hrequests
      split_ifs
      · exact identifies_leave h.ids hrequests
      · exact h.ids
  | fill i execQty price =>
    show Identifies clientId (s.fill i execQty price).orderManager
    rcases s.fill_cases i execQty price with hfill | ⟨_, _, _, -, -, -, hfill⟩
    · rw [hfill]
      exact h.ids
    · rw [hfill]
      exact h.ids
  | updateBBO tickerId bbo =>
    have hupdated := s.positionKeeper.safe_updateBBO tickerId bbo
    exact (hupdated.mono (fun _ _ => trivial) fun _ => id).bind fun _ _ => h.ids
  | deliver =>
    show Safe _ _ s.deliver
    unfold TradeSystem.deliver
    split
    · exact h.ids
    · rename_i r responses hresponses
      unfold TradeSystem.onOrderUpdate
      cases hkeeper : (if r.type = .filled then s.positionKeeper.addFill r
          else .ok s.positionKeeper) with
      | error => trivial
      | ok positionKeeper =>
        cases hom : s.orderManager.onOrderUpdate r with
        | error => trivial
        | ok om => exact h.identifies_of_delivered hresponses hom

/-- **A step keeps the invariant.** -/
theorem Sound.step (h : Sound riskCfg clientId s)
    (hcfg : ∀ tickerId,
      (riskCfg tickerId).maxOrderSize < 2 ^ 31 ∧ (riskCfg tickerId).maxPosition < 2 ^ 31)
    (ifBody : IfBody) (a : TradeAction) :
    Safe (fun _ => ¬ a.InRange) (Sound riskCfg clientId) (s.step ifBody overload riskCfg a) := by
  have hguarded : Safe (fun _ => ¬ a.InRange) (Guarded riskCfg) (s.step ifBody overload riskCfg a) :=
    h.toGuarded.step hcfg ifBody a
  have hids : Safe (fun _ => True) (fun s' => Identifies clientId s'.orderManager)
      (s.step ifBody overload riskCfg a) := h.identifies_step ifBody a
  cases hstep : s.step ifBody overload riskCfg a with
  | error f => exact (hstep ▸ hguarded : Safe _ _ (.error f))
  | ok s' => exact ⟨hguarded.of_eq_ok hstep, hids.of_eq_ok hstep⟩

end TradeSystem

end Trading
