import HftSystem.Lib.Fallible
import HftSystem.Lib.Sessions
import HftSystem.Trading.OrderManager

set_option relaxedAutoImplicit false
set_option autoImplicit false

/-!
# What the order manager sends

Which requests a run of calls of the order manager sends, and why. A NEW is sent for a slot without
an order, at a price, and after the risk manager allowed it. A CANCEL is sent for a live order; that
its price is not the one asked for is the condition of an `if` without braces, behind which a
`START_MEASURE` stands.

## Main definitions

* `Trading.MoveOrders`, `Trading.Call`, `Trading.OrderManager.call` — the calls.
* `Trading.OrderManager.Justified` — the reasons for which a request may be sent.
* `Trading.Settled` — a slot for which a call has nothing left to do.
* `Trading.OrderManager.SendsOnlyJustified` — what a run promises.

## Main results

* `Trading.OrderManager.moveSide_moves` — all that `moveOrder` can do, with its reason.
* `Trading.OrderManager.sendsOnlyJustified_iff` — the runs that send only justified requests.
-/

namespace Trading

open Common Exchange Fallible

/-- The arguments of `moveOrders`, and the risk manager as it is then. -/
structure MoveOrders where
  checkPreTradeRisk : ℕ → Side → ℕ → RiskCheckResult
  tickerId : ℕ
  bidPrice : ℤ
  askPrice : ℤ
  clip : ℕ

/-- The price that is asked for on a side. -/
def MoveOrders.price (c : MoveOrders) (side : Side) : ℤ := if side = .buy then c.bidPrice else c.askPrice

/-- The slot of a side. -/
def MoveOrders.slot (c : MoveOrders) (side : Side) : ℕ × ℕ := (c.tickerId, sideToIndex side)

/-- The two sides of a call have slots of their own. -/
lemma MoveOrders.slot_ne (c : MoveOrders) {side side' : Side} (hside : side.IsBookSide)
    (hside' : side'.IsBookSide) (hne : side' ≠ side) : c.slot side' ≠ c.slot side := fun hslot =>
  hne ((sideToIndex_inj hside' hside).mp (congrArg Prod.snd hslot))

/-- A call of the order manager: a strategy moves its orders, or a response arrives. -/
inductive Call
  | moveOrders (c : MoveOrders)
  | onOrderUpdate (clientResponse : MEClientResponse)

/-- No response arrives. -/
def Call.IsMoveOrders : Call → Prop
  | .moveOrders _ => True
  | .onOrderUpdate _ => False

/-- **There is nothing left to do on a side**: a request about the slot is under way, or its live
order has the price that is asked for, or no order may be sent. -/
def Settled (ifBody : IfBody) (c : MoveOrders) (side : Side) (o : OMOrder) : Prop :=
  o.orderState = .pendingNew ∨ o.orderState = .pendingCancel ∨
    (o.orderState = .live ∧ ifBody = .indentedLines ∧ o.price = c.price side) ∨
    o.IsFree ∧
      (c.price side = Price.invalid ∨ c.checkPreTradeRisk c.tickerId side c.clip ≠ .allowed)

namespace OrderManager

/-- An order manager as it is created. -/
def start (clientId : ℕ) : OrderManager := { tradeEngine := { clientId } }

/-- A call. -/
def call (ifBody : IfBody) (om : OrderManager) : Call → Except Fault OrderManager
  | .moveOrders c => om.moveOrders ifBody c.checkPreTradeRisk c.tickerId c.bidPrice c.askPrice c.clip
  | .onOrderUpdate clientResponse => om.onOrderUpdate clientResponse

/-- **A request is justified** by a call and a slot before it: a NEW by a slot without an order, a
price and the risk manager, and a CANCEL by a slot whose live order has another price. -/
def Justified (om : OrderManager) (c : MoveOrders) (side : Side) (r : MEClientRequest) : Prop :=
  r.type = .new ∧ r.tickerId = c.tickerId ∧ r.side = side ∧ r.price = c.price side ∧ r.qty = c.clip ∧
      (om.tickerSideOrder (c.slot side)).IsFree ∧ c.price side ≠ Price.invalid ∧
      c.checkPreTradeRisk c.tickerId side c.clip = .allowed ∨
    r.type = .cancel ∧ r.tickerId = (om.tickerSideOrder (c.slot side)).tickerId ∧
      r.orderId = (om.tickerSideOrder (c.slot side)).orderId ∧
      r.side = (om.tickerSideOrder (c.slot side)).side ∧
      (om.tickerSideOrder (c.slot side)).orderState = .live ∧
      (om.tickerSideOrder (c.slot side)).price ≠ c.price side

/-- What a call sends is justified: at most one request for each side, by the slot of that side. -/
def SendsJustified (om : OrderManager) : Call → OrderManager → Prop
  | .moveOrders c, om' => ∃ bid ask : Option MEClientRequest,
    om'.requests = om.requests ++ (bid.toList ++ ask.toList) ∧
      (∀ r ∈ bid, om.Justified c .buy r) ∧ ∀ r ∈ ask, om.Justified c .sell r
  | .onOrderUpdate _, om' => om'.requests = om.requests

/-- The order ids of the NEW requests. -/
def newIds (om : OrderManager) : List ℕ :=
  (om.requests.filter fun r => r.type = .new).map MEClientRequest.orderId

/-! ## One side -/

/-- **All that `moveOrder` can do**, with its reason. -/
inductive SideMoved (ifBody : IfBody) (c : MoveOrders) (side : Side) (om : OrderManager) :
    OrderManager → Prop
  | stay (hsettled : Settled ifBody c side (om.tickerSideOrder (c.slot side))) :
    SideMoved ifBody c side om om
  | cancel (hlive : (om.tickerSideOrder (c.slot side)).orderState = .live)
      (hprice : ifBody = .nextStatement ∨ (om.tickerSideOrder (c.slot side)).price ≠ c.price side) :
    SideMoved ifBody c side om (om.cancelOrder (c.slot side))
  | new (hfree : (om.tickerSideOrder (c.slot side)).IsFree) (hprice : c.price side ≠ Price.invalid)
      (hrisk : c.checkPreTradeRisk c.tickerId side c.clip = .allowed) :
    SideMoved ifBody c side om
      (om.newOrder (c.slot side) c.tickerId (c.price side) side c.clip)

variable {ifBody : IfBody} {c c' : MoveOrders} {side side' : Side} {om om' : OrderManager}

/-- `moveOrder` on a side of a call. -/
def moveSide (ifBody : IfBody) (c : MoveOrders) (om : OrderManager) (side : Side) : OrderManager :=
  om.moveOrder ifBody c.checkPreTradeRisk (c.slot side) c.tickerId (c.price side) side c.clip

/-- **What a call does to one side** is one of the cases of `SideMoved`. -/
theorem moveSide_moves (ifBody : IfBody) (c : MoveOrders) (side : Side) (om : OrderManager) :
    SideMoved ifBody c side om (om.moveSide ifBody c side) := by
  have hfree (hfree : (om.tickerSideOrder (c.slot side)).IsFree) : SideMoved ifBody c side om
      (if c.price side ≠ Price.invalid then
        if c.checkPreTradeRisk c.tickerId side c.clip = .allowed then
          om.newOrder (c.slot side) c.tickerId (c.price side) side c.clip
        else om
      else om) := by
    split_ifs with hprice hrisk
    · exact .new hfree hprice hrisk
    · exact .stay (.inr (.inr (.inr ⟨hfree, .inr hrisk⟩)))
    · exact .stay (.inr (.inr (.inr ⟨hfree, .inl (not_not.mp hprice)⟩)))
  unfold moveSide moveOrder
  cases hstate : (om.tickerSideOrder (c.slot side)).orderState with
  | invalid => exact hfree (.inl hstate)
  | dead => exact hfree (.inr hstate)
  | live =>
    show SideMoved ifBody c side om (if _ then _ else _)
    split_ifs with hcancel
    · exact .cancel hstate hcancel
    · obtain ⟨hbody, hprice⟩ := not_or.mp hcancel
      refine .stay (.inr (.inr (.inl ⟨hstate, ?_, not_not.mp hprice⟩)))
      cases ifBody with
      | nextStatement => exact absurd rfl hbody
      | indentedLines => rfl
  | pendingNew => exact .stay (.inl hstate)
  | pendingCancel => exact .stay (.inr (.inl hstate))

/-- **A settled side is left alone.** -/
lemma moveSide_of_settled (h : Settled ifBody c side (om.tickerSideOrder (c.slot side))) :
    om.moveSide ifBody c side = om := by
  unfold moveSide moveOrder
  rcases h with hstate | hstate | ⟨hlive, rfl, hprice⟩ | ⟨hfree, hnot⟩
  · rw [hstate]
  · rw [hstate]
  · rw [hlive]
    exact if_neg (not_or.mpr ⟨by decide, not_not.mpr hprice⟩)
  · have hstay : (if c.price side ≠ Price.invalid then
        if c.checkPreTradeRisk c.tickerId side c.clip = .allowed then
          om.newOrder (c.slot side) c.tickerId (c.price side) side c.clip
        else om
      else om) = om := by
      rcases hnot with hprice | hrisk
      · rw [if_neg (not_not.mpr hprice)]
      · rw [if_neg hrisk, ite_self]
    rcases hfree with hstate | hstate
    · rw [hstate]
      exact hstay
    · rw [hstate]
      exact hstay

/-- A side that is moved is settled. -/
lemma settled_moveSide (om : OrderManager) :
    Settled ifBody c side ((om.moveSide ifBody c side).tickerSideOrder (c.slot side)) := by
  have hmoved := moveSide_moves ifBody c side om
  generalize om.moveSide ifBody c side = om' at hmoved
  cases hmoved with
  | stay hsettled => exact hsettled
  | cancel => exact .inr (.inl (congrArg OMOrder.orderState (tickerSideOrder_setOrder ..)))
  | new => exact .inl (congrArg OMOrder.orderState (tickerSideOrder_setOrder ..))

/-- The other slots are left alone. -/
lemma tickerSideOrder_moveSide {slot : ℕ × ℕ} (hne : slot ≠ c.slot side) (om : OrderManager) :
    (om.moveSide ifBody c side).tickerSideOrder slot = om.tickerSideOrder slot := by
  have hmoved := moveSide_moves ifBody c side om
  generalize om.moveSide ifBody c side = om' at hmoved
  cases hmoved with
  | stay => rfl
  | cancel => exact Function.update_of_ne hne ..
  | new => exact Function.update_of_ne hne ..

/-- **What is settled stays so** whatever orders are moved. -/
lemma settled_of_moveSide (h : Settled ifBody c side (om.tickerSideOrder (c.slot side)))
    (c' : MoveOrders) (side' : Side) :
    Settled ifBody c side ((om.moveSide ifBody c' side').tickerSideOrder (c.slot side)) := by
  by_cases hslot : c.slot side = c'.slot side'
  · have hmoved := moveSide_moves ifBody c' side' om
    generalize om.moveSide ifBody c' side' = om' at hmoved
    rw [hslot] at h ⊢
    cases hmoved with
    | stay => exact h
    | cancel => exact .inr (.inl (congrArg OMOrder.orderState (tickerSideOrder_setOrder ..)))
    | new => exact .inl (congrArg OMOrder.orderState (tickerSideOrder_setOrder ..))
  · rw [tickerSideOrder_moveSide hslot]
    exact h

/-- **What `moveOrder` sends**: nothing, or a request that is justified but for the price of a live
order, which only the indentation checks. -/
lemma exists_sent (ifBody : IfBody) (om : OrderManager) (c : MoveOrders) (side : Side) :
    ∃ sent : Option MEClientRequest,
      (om.moveSide ifBody c side).requests = om.requests ++ sent.toList ∧
      (∀ r ∈ sent, om.Justified c side r ∨ ifBody = .nextStatement ∧
        (om.tickerSideOrder (c.slot side)).orderState = .live ∧
        (om.tickerSideOrder (c.slot side)).price = c.price side) ∧
      (ifBody = .nextStatement → (om.tickerSideOrder (c.slot side)).orderState = .live →
        ∃ r, sent = some r ∧ r.type = .cancel) := by
  have hmoved := moveSide_moves ifBody c side om
  generalize om.moveSide ifBody c side = om' at hmoved
  cases hmoved with
  | stay hsettled =>
    refine ⟨none, (List.append_nil _).symm, fun r hr => (by cases hr), fun hbody hlive => ?_⟩
    simp [Settled, OMOrder.IsFree, hlive, hbody] at hsettled
  | cancel hlive hprice =>
    refine ⟨some _, rfl, fun r hr => ?_, fun _ _ => ⟨_, rfl, rfl⟩⟩
    cases hr
    by_cases hsame : (om.tickerSideOrder (c.slot side)).price = c.price side
    · exact .inr ⟨hprice.resolve_right (not_not.mpr hsame), hlive, hsame⟩
    · exact .inl (.inr ⟨rfl, rfl, rfl, rfl, hlive, hsame⟩)
  | new hfree hprice hrisk =>
    refine ⟨some _, rfl, fun r hr => ?_, fun _ hlive => ?_⟩
    · cases hr
      exact .inl (.inl ⟨rfl, rfl, rfl, rfl, rfl, hfree, hprice, hrisk⟩)
    · simp [OMOrder.IsFree, hlive] at hfree

/-- A CANCEL that is justified. -/
lemma Justified.of_cancel {r : MEClientRequest} (h : om.Justified c side r) (hcancel : r.type = .cancel) :
    (om.tickerSideOrder (c.slot side)).orderState = .live ∧
      (om.tickerSideOrder (c.slot side)).price ≠ c.price side := by
  rcases h with hnew | ⟨-, -, -, -, hlive, hprice⟩
  · rw [hcancel] at hnew
    cases hnew.1
  · exact ⟨hlive, hprice⟩

/-! ## A call -/

/-- **A call of `moveOrders`** moves the two sides one after the other. -/
lemma call_moveOrders (ifBody : IfBody) (om : OrderManager) (c : MoveOrders) :
    om.call ifBody (.moveOrders c) =
      if c.tickerId < meMaxTickers then .ok ((om.moveSide ifBody c .buy).moveSide ifBody c .sell)
      else .error .outOfRange := by
  show om.moveOrders ifBody c.checkPreTradeRisk c.tickerId c.bidPrice c.askPrice c.clip = _
  split_ifs with hticker
  · unfold moveOrders
    rw [orderAt_of_lt hticker (.inl rfl), orderAt_of_lt hticker (.inr rfl)]
    rfl
  · exact moveOrders_of_le (not_lt.mp hticker) ..

/-- A call of `moveOrders` that returns. -/
lemma moves_of_call (h : om.call ifBody (.moveOrders c) = .ok om') :
    om' = (om.moveSide ifBody c .buy).moveSide ifBody c .sell := by
  rw [call_moveOrders] at h
  split_ifs at h
  exact (Except.ok.inj h).symm

/-- Two optional entries in a row are the same two, or one entry in another place. -/
lemma toList_append_toList_cases {α : Type} {a b a' b' : Option α}
    (h : a.toList ++ b.toList = a'.toList ++ b'.toList) :
    (a = a' ∧ b = b') ∨ (∃ x, a = some x ∧ b = none ∧ a' = none ∧ b' = some x) ∨
      ∃ x, a = none ∧ b = some x ∧ a' = some x ∧ b' = none := by
  cases a <;> cases b <;> cases a' <;> cases b' <;> simp_all

/-- **A call sends justified requests** exactly if it asks for no live order's own price, where the
indentation does not count.

**Proof sketch.** A call moves the two sides one after the other, and each sends one request at most
with a reason of its own (`exists_sent`). If the indentation counts, or no live order is asked for at
its own price, every reason is a justification. Otherwise the side in question sends a CANCEL that is
not justified, and it cannot pass for the request of the other side: a live order there would have been
canceled too. -/
lemma sendsJustified_iff (h : om.call ifBody (.moveOrders c) = .ok om') :
    om.SendsJustified (.moveOrders c) om' ↔ ifBody = .indentedLines ∨
      ∀ side : Side, side.IsBookSide → (om.tickerSideOrder (c.slot side)).orderState = .live →
        (om.tickerSideOrder (c.slot side)).price ≠ c.price side := by
  obtain rfl := moves_of_call h
  obtain ⟨bid, hbid, hbidReason, hbidLive⟩ := om.exists_sent ifBody c .buy
  obtain ⟨ask, hask, haskReason, haskLive⟩ :=
    (om.moveSide ifBody c .buy).exists_sent ifBody c .sell
  -- the slot of the asks is the one before the call
  have hslot : (om.moveSide ifBody c .buy).tickerSideOrder (c.slot .sell) =
      om.tickerSideOrder (c.slot .sell) :=
    tickerSideOrder_moveSide (c.slot_ne (.inl rfl) (.inr rfl) (by decide)) om
  unfold Justified at haskReason
  rw [hslot] at haskReason haskLive
  have hrequests : ((om.moveSide ifBody c .buy).moveSide ifBody c .sell).requests =
      om.requests ++ (bid.toList ++ ask.toList) := by
    rw [hask, hbid, List.append_assoc]
  constructor
  · rintro ⟨bid', ask', hsent, hbid', hask'⟩
    by_contra hnot
    obtain ⟨hbody, hasks⟩ := not_or.mp hnot
    obtain rfl : ifBody = .nextStatement := by
      cases ifBody with
      | nextStatement => rfl
      | indentedLines => exact absurd rfl hbody
    have hsame : bid.toList ++ ask.toList = bid'.toList ++ ask'.toList :=
      List.append_cancel_left (hrequests.symm.trans hsent)
    push Not at hasks
    obtain ⟨side, hside, hlive, hprice⟩ := hasks
    rcases toList_append_toList_cases hsame with ⟨rfl, rfl⟩ | ⟨r, rfl, rfl, rfl, rfl⟩ | ⟨r, rfl, rfl, rfl, rfl⟩
    · -- each request is that of its own side
      rcases hside with rfl | rfl
      · obtain ⟨r, rfl, hr⟩ := hbidLive rfl hlive
        exact ((hbid' r rfl).of_cancel hr).2 hprice
      · obtain ⟨r, rfl, hr⟩ := haskLive rfl hlive
        exact ((hask' r rfl).of_cancel hr).2 hprice
    · -- only the bid is canceled, and it cannot pass for the ask, since a live ask would be canceled too
      rcases hside with rfl | rfl
      · obtain ⟨_, hsome, hr⟩ := hbidLive rfl hlive
        cases hsome
        obtain ⟨_, hnone, -⟩ := haskLive rfl ((hask' r rfl).of_cancel hr).1
        cases hnone
      · obtain ⟨_, hnone, -⟩ := haskLive rfl hlive
        cases hnone
    · rcases hside with rfl | rfl
      · obtain ⟨_, hnone, -⟩ := hbidLive rfl hlive
        cases hnone
      · obtain ⟨_, hsome, hr⟩ := haskLive rfl hlive
        cases hsome
        obtain ⟨_, hnone, -⟩ := hbidLive rfl ((hbid' r rfl).of_cancel hr).1
        cases hnone
  · intro hcond
    refine ⟨bid, ask, hrequests, fun r hr => ?_, fun r hr => ?_⟩
    · refine (hbidReason r hr).resolve_right fun hbad => ?_
      rcases hcond with hbody | hcond
      · exact absurd (hbad.1.symm.trans hbody) (by decide)
      · exact hcond .buy (.inl rfl) hbad.2.1 hbad.2.2
    · refine (haskReason r hr).resolve_right fun hbad => ?_
      rcases hcond with hbody | hcond
      · exact absurd (hbad.1.symm.trans hbody) (by decide)
      · exact hcond .sell (.inr rfl) hbad.2.1 hbad.2.2

/-! ## The order ids -/

/-- The ids of the NEW requests increase, up to the next one. -/
structure IdsInOrder (om : OrderManager) : Prop where
  increasing : om.newIds.Pairwise (· < ·)
  bound : ∀ orderId ∈ om.newIds, orderId < om.nextOrderId

/-- One more request. -/
lemma newIds_concat {r : MEClientRequest} (h : om'.requests = om.requests ++ [r]) :
    om'.newIds = om.newIds ++ if r.type = .new then [r.orderId] else [] := by
  unfold newIds
  rw [h, Sessions.filter_concat, List.map_append]
  split_ifs <;> rfl

/-- A call about one side keeps the ids in order. -/
lemma IdsInOrder.moveSide (h : om.IdsInOrder) (ifBody : IfBody) (c : MoveOrders) (side : Side) :
    (om.moveSide ifBody c side).IdsInOrder := by
  have hmoved := moveSide_moves ifBody c side om
  generalize om.moveSide ifBody c side = om' at hmoved
  cases hmoved with
  | stay => exact h
  | cancel =>
    have hids : (om.cancelOrder (c.slot side)).newIds = om.newIds :=
      (newIds_concat rfl).trans (List.append_nil _)
    exact ⟨hids ▸ h.increasing, hids ▸ h.bound⟩
  | new =>
    have hids : (om.newOrder (c.slot side) c.tickerId (c.price side) side c.clip).newIds =
        om.newIds ++ [om.nextOrderId] := by
      rw [newIds_concat rfl]
      rfl
    refine ⟨?_, fun orderId horder => ?_⟩
    · rw [hids]
      refine List.pairwise_append.mpr ⟨h.increasing, List.pairwise_singleton _ _, ?_⟩
      intro orderId horder next hnext
      rw [List.mem_singleton.mp hnext]
      exact h.bound orderId horder
    · show orderId < om.nextOrderId + 1
      rw [hids, List.mem_append, List.mem_singleton] at horder
      rcases horder with horder | rfl
      · exact Nat.lt_succ_of_lt (h.bound orderId horder)
      · exact Nat.lt_succ_self _

/-- A response changes one slot. -/
lemma exists_setOrder_of_onOrderUpdate {r : MEClientResponse} (h : om.onOrderUpdate r = .ok om') :
    ∃ slot o, om' = om.setOrder slot o := by
  obtain ⟨slot, hslot, -⟩ := bind_eq_ok.mp h
  obtain ⟨o, ho, -⟩ := om.exists_onOrderUpdate hslot
  rw [ho] at h
  exact ⟨slot, o, (Except.ok.inj h).symm⟩

/-- Every call keeps the ids in order. -/
lemma IdsInOrder.call (h : om.IdsInOrder) {x : Call} (hx : om.call ifBody x = .ok om') :
    om'.IdsInOrder := by
  cases x with
  | moveOrders c =>
    rw [moves_of_call hx]
    exact (h.moveSide ifBody c .buy).moveSide ifBody c .sell
  | onOrderUpdate r =>
    obtain ⟨slot, o, rfl⟩ := exists_setOrder_of_onOrderUpdate hx
    exact ⟨h.increasing, h.bound⟩

/-! ## Calls that are repeated -/

/-- There is nothing left to do for a call. -/
def Settles (ifBody : IfBody) (c : MoveOrders) (om : OrderManager) : Prop :=
  ∀ side : Side, side.IsBookSide → Settled ifBody c side (om.tickerSideOrder (c.slot side))

/-- **A call settles its two sides.** -/
lemma settles_of_call (h : om.call ifBody (.moveOrders c) = .ok om') : Settles ifBody c om' := by
  rw [moves_of_call h]
  rintro side (rfl | rfl)
  · exact settled_of_moveSide (settled_moveSide om) c .sell
  · exact settled_moveSide _

/-- **Sides that are settled stay so** until a response arrives. -/
lemma Settles.call (h : Settles ifBody c om) {x : Call} (hx : x.IsMoveOrders)
    (hcall : om.call ifBody x = .ok om') : Settles ifBody c om' := by
  cases x with
  | moveOrders c' =>
    rw [moves_of_call hcall]
    exact fun side hside => settled_of_moveSide (settled_of_moveSide (h side hside) c' .buy) c' .sell
  | onOrderUpdate r => exact hx.elim

/-- **A settled call does nothing.** -/
lemma Settles.eq_of_call (h : Settles ifBody c om) (hcall : om.call ifBody (.moveOrders c) = .ok om') :
    om' = om := by
  rw [moves_of_call hcall, moveSide_of_settled (h .buy (.inl rfl)),
    moveSide_of_settled (h .sell (.inr rfl))]

/-! ## Runs -/

/-- **The run sends only justified requests.**

* What a call sends is justified.
* The order ids of the NEW requests increase.
* A call that is repeated before a response arrives sends nothing. -/
structure SendsOnlyJustified (ifBody : IfBody) (clientId : ℕ) (calls : List Call) : Prop where
  justified : Meets (call ifBody)
    (fun om x => ∀ om', om.call ifBody x = .ok om' → om.SendsJustified x om') (start clientId) calls
  increasing : Always (call ifBody) (fun om => om.newIds.Pairwise (· < ·)) (start clientId) calls
  repeated : ∀ pre c between post om om', calls = pre ++ .moveOrders c :: between ++ .moveOrders c :: post →
    (∀ x ∈ between, x.IsMoveOrders) →
    (pre ++ .moveOrders c :: between).foldlM (call ifBody) (start clientId) = .ok om →
    om.call ifBody (.moveOrders c) = .ok om' → om'.requests = om.requests

/-- The call asks for no live order's own price. -/
def Call.AsksForOtherPrices (om : OrderManager) : Call → Prop
  | .moveOrders c => ∀ side : Side, side.IsBookSide →
    (om.tickerSideOrder (c.slot side)).orderState = .live →
      (om.tickerSideOrder (c.slot side)).price ≠ c.price side
  | .onOrderUpdate _ => True

/-- **The runs that send only justified requests.** All of them, if the `if` without braces governs
the lines indented under it; and if it governs only the statement behind it, those in which no call
that returns asks for a live order's own price. -/
theorem sendsOnlyJustified_iff (ifBody : IfBody) (clientId : ℕ) (calls : List Call) :
    SendsOnlyJustified ifBody clientId calls ↔
      Meets (call ifBody)
        (fun om x => ∀ om', om.call ifBody x = .ok om' →
          ifBody = .indentedLines ∨ Call.AsksForOtherPrices om x)
        (start clientId) calls := by
  refine ⟨fun h => h.justified.mono fun om x hx om' hcall => ?_, fun h => ⟨?_, ?_, ?_⟩⟩
  · cases x with
    | moveOrders c => exact (sendsJustified_iff hcall).mp (hx om' hcall)
    | onOrderUpdate r => exact .inr trivial
  · refine h.mono fun om x hx om' hcall => ?_
    cases x with
    | moveOrders c => exact (sendsJustified_iff hcall).mpr (hx om' hcall)
    | onOrderUpdate r => exact requests_of_onOrderUpdate hcall
  · exact always_of_step (fun _ _ _ (hom : IdsInOrder _) _ hcall => hom.call hcall)
      (fun _ hom => hom.increasing) ⟨List.Pairwise.nil, fun _ hmem => absurd hmem (List.not_mem_nil)⟩ h
  · intro pre c between post om om' _ hbetween hrun hcall
    rw [List.foldlM_append] at hrun
    obtain ⟨om₁, -, hrun⟩ := bind_eq_ok.mp hrun
    obtain ⟨om₂, hfirst, hrun⟩ := bind_eq_ok.mp hrun
    have hsettles : Safe (fun _ => True) (Settles ifBody c)
        (between.foldlM (OrderManager.call ifBody) om₂) := by
      refine safe_foldlM (fun s x hs hx => ?_) (settles_of_call hfirst)
        (Meets.of_forall fun x hx => hbetween x hx)
      cases hstep : s.call ifBody x with
      | error e => trivial
      | ok s' => exact hs.call hx hstep
    rw [(hsettles.of_eq_ok hrun).eq_of_call hcall]

/-- A bid is asked for at 20, and no ask. -/
def sampleMoveOrders : MoveOrders :=
  { checkPreTradeRisk := fun _ _ _ => .allowed, tickerId := 0, bidPrice := 20, askPrice := Price.invalid,
    clip := 1 }

/-- The exchange accepts the bid. -/
def sampleResponse : MEClientResponse :=
  { type := .accepted, clientId := 1, tickerId := 0, clientOrderId := 1, marketOrderId := 1, side := .buy,
    price := 20, execQty := 0, leavesQty := 1 }

/-- **A live bid at 20 that is asked for at 20 again is canceled** if the `if` governs only the statement
behind it. -/
theorem not_sendsOnlyJustified_sampleMoveOrders : ¬ SendsOnlyJustified .nextStatement 1
    [.moveOrders sampleMoveOrders, .onOrderUpdate sampleResponse, .moveOrders sampleMoveOrders] := by
  intro h
  have hthird := h.justified.of_prefix
    [Call.moveOrders sampleMoveOrders, Call.onOrderUpdate sampleResponse] [] rfl
  rcases (sendsJustified_iff rfl).mp (hthird _ rfl) with hbody | hprices
  · cases hbody
  · exact hprices .buy (.inl rfl) rfl rfl

end OrderManager

end Trading
