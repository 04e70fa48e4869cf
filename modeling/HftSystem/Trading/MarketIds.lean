import HftSystem.Exchange.FreshIds
import HftSystem.Trading.Market
import HftSystem.Trading.JustifiedRequests

set_option relaxedAutoImplicit false
set_option autoImplicit false

/-!
# Order ids in the market

The order manager of every client numbers its orders, and the channels keep the order of its requests.
So the matching engine never gets an id of a MAKER or TAKER client twice, whatever the clients see and
whoever's requests it takes first. If the other clients number their orders too, no order is ever
lost to its owner.

## Main definitions

* `Trading.OrderManager.Numbers` — a client has used each id once at most, and none from the next one on.
* `Trading.Market.submitted` — the requests that clients without an algorithm send.
* `Trading.Market.Numbered` — the ids of all requests, taken or on their way.

## Main results

* `Trading.OrderManager.Numbers.process` — what a client does keeps its numbers.
* `Trading.Market.cancelable_of_run` — every resting order can be canceled, in every run.
-/

namespace Trading

open Common Exchange Fallible MEOrderBook TradeEngineState

/-! ## A client -/

namespace OrderManager

/-- **The numbers of a client** whose requests `done` were taken: its requests are its own, no id is used
for two orders, and the next one is larger than all. -/
structure Numbers (clientId : ℕ) (done : List MEClientRequest) (om : OrderManager) : Prop where
  client : om.tradeEngine.clientId = clientId
  own : ∀ r ∈ done ++ om.requests, r.clientId = clientId
  fresh : FreshIds (done ++ om.requests)
  bound : ∀ r ∈ done ++ om.requests, r.type = .new → r.orderId < om.nextOrderId

section Numbers

variable {clientId tickerId : ℕ} {done : List MEClientRequest} {om om' : OrderManager}

/-- Nothing has been sent. -/
lemma numbers_start (clientId : ℕ) : Numbers clientId [] { tradeEngine := { clientId } } where
  client := rfl
  own _ hr := absurd hr List.not_mem_nil
  fresh := List.Pairwise.nil
  bound _ hr := absurd hr List.not_mem_nil

/-- Only the requests and the numbers matter. -/
lemma Numbers.congr (h : Numbers clientId done om) (hengine : om'.tradeEngine = om.tradeEngine)
    (hnext : om'.nextOrderId = om.nextOrderId) : Numbers clientId done om' := by
  have hrequests : om'.requests = om.requests := by rw [requests, hengine, requests]
  refine ⟨?_, ?_, ?_, ?_⟩
  · rw [hengine, h.client]
  · rw [hrequests]
    exact h.own
  · rw [hrequests]
    exact h.fresh
  · rw [hrequests, hnext]
    exact h.bound

/-- **One more request**: a NEW one has the next id. -/
lemma Numbers.send (h : Numbers clientId done om) {r : MEClientRequest}
    (hclient : om'.tradeEngine.clientId = clientId) (hrequests : om'.requests = om.requests ++ [r])
    (hr : r.clientId = clientId) (hnext : om.nextOrderId ≤ om'.nextOrderId)
    (hnew : r.type = .new → r.orderId = om.nextOrderId ∧ om.nextOrderId < om'.nextOrderId) :
    Numbers clientId done om' := by
  have hall : ∀ r' ∈ done ++ (om.requests ++ [r]), r' ∈ done ++ om.requests ∨ r' = r := by
    intro r' hr'
    simpa [or_assoc] using hr'
  refine ⟨hclient, ?_, ?_, ?_⟩
  · rw [hrequests]
    intro r' hr'
    rcases hall r' hr' with hr' | rfl
    · exact h.own r' hr'
    · exact hr
  · rw [hrequests, ← List.append_assoc]
    refine List.pairwise_append.mpr ⟨h.fresh, List.pairwise_singleton _ _, ?_⟩
    intro r₁ h₁ r₂ h₂ htype₁ htype₂ _ _
    rw [List.mem_singleton] at h₂
    subst h₂
    rw [(hnew htype₂).1]
    exact (h.bound r₁ h₁ htype₁).ne
  · rw [hrequests]
    intro r' hr' htype
    rcases hall r' hr' with hr' | rfl
    · exact (h.bound r' hr' htype).trans_le hnext
    · rw [(hnew htype).1]
      exact (hnew htype).2

/-- `moveOrder` keeps the numbers: a NEW takes the next one. -/
lemma Numbers.moveOrder (h : Numbers clientId done om) (ifBody : IfBody)
    (checkPreTradeRisk : ℕ → Side → ℕ → RiskCheckResult) (order : ℕ × ℕ) (price : ℤ) (side : Side)
    (qty : ℕ) :
    Numbers clientId done (om.moveOrder ifBody checkPreTradeRisk order tickerId price side qty) := by
  have hmoved := moveOrder_cases ifBody checkPreTradeRisk om order tickerId price side qty
  generalize om.moveOrder ifBody checkPreTradeRisk order tickerId price side qty = om' at hmoved
  cases hmoved with
  | stay => exact h
  | cancel =>
    refine h.send h.client rfl h.client le_rfl fun htype => ?_
    cases htype
  | new => exact h.send h.client rfl h.client (Nat.le_succ _) fun _ => ⟨rfl, Nat.lt_succ_self _⟩

/-- So does `moveOrders`, which calls it once for each side. -/
lemma Numbers.moveOrders (h : Numbers clientId done om) {ifBody : IfBody}
    {checkPreTradeRisk : ℕ → Side → ℕ → RiskCheckResult} {bidPrice askPrice : ℤ} {clip : ℕ}
    (hmoved : om.moveOrders ifBody checkPreTradeRisk tickerId bidPrice askPrice clip = .ok om') :
    Numbers clientId done om' := by
  obtain ⟨bidOrder, -, hmoved⟩ := bind_eq_ok.mp hmoved
  obtain ⟨askOrder, -, hmoved⟩ := bind_eq_ok.mp hmoved
  cases hmoved
  exact (h.moveOrder ..).moveOrder ..

/-- A response does not count. -/
lemma Numbers.onOrderUpdate (h : Numbers clientId done om) {r : MEClientResponse}
    (hupdated : om.onOrderUpdate r = .ok om') : Numbers clientId done om' := by
  obtain ⟨slot, o, rfl⟩ := exists_setOrder_of_onOrderUpdate hupdated
  exact h.congr rfl rfl

/-- **What a client does** keeps its numbers. -/
theorem Numbers.process {F : Type} [Double F] [LE F] [DecidableLE F] {setup : TradeEngineSetup F}
    {e e' : TradeEngineState F} (h : Numbers clientId done e.orderManager) {event : TradeEngineEvent}
    (hprocess : e.process setup event = .ok e') : Numbers clientId done e'.orderManager := by
  cases event with
  | response r =>
    obtain ⟨_, -, hprocess⟩ := bind_eq_ok.mp hprocess
    rcases algoOnOrderUpdate_cases hprocess with ⟨-, om, hupdated, rfl⟩ | ⟨-, rfl⟩
    · exact h.onOrderUpdate hupdated
    · exact h
  | update u =>
    have hprocess : e.onMarketUpdate setup u = .ok e' := hprocess
    rw [TradeEngineState.onMarketUpdate_eq e (tickerId_lt_of_onMarketUpdate hprocess)] at hprocess
    obtain ⟨book, -, hprocess⟩ := bind_eq_ok.mp hprocess
    obtain ⟨k, -, hprocess⟩ := bind_eq_ok.mp hprocess
    cases hwanted : wanted setup (featuresAfter e.featureEngine u book) u book with
    | none =>
      rw [hwanted] at hprocess
      cases hprocess
      exact h
    | some prices =>
      rw [hwanted] at hprocess
      obtain ⟨om, hmoved, hprocess⟩ := bind_eq_ok.mp hprocess
      cases hprocess
      exact h.moveOrders hmoved

/-- **A request is taken.** -/
lemma Numbers.take (h : Numbers clientId done om) {r : MEClientRequest} {requests : List MEClientRequest}
    (hrequests : om.requests = r :: requests) :
    Numbers clientId (done ++ [r]) { om with tradeEngine.outgoingOgwRequests := requests } := by
  have hall : done ++ [r] ++ requests = done ++ om.requests := by
    rw [hrequests, List.append_assoc, List.singleton_append]
  refine ⟨h.client, ?_, ?_, ?_⟩
  · show ∀ r' ∈ done ++ [r] ++ requests, r'.clientId = clientId
    rw [hall]
    exact h.own
  · show FreshIds (done ++ [r] ++ requests)
    rw [hall]
    exact h.fresh
  · show ∀ r' ∈ done ++ [r] ++ requests, r'.type = .new → r'.orderId < om.nextOrderId
    rw [hall]
    exact h.bound

end Numbers

end OrderManager

/-! ## The market -/

namespace Market

/-- **The requests that clients send beside their algorithm.** -/
def submitted (actions : List MarketAction) : List MEClientRequest :=
  actions.filterMap fun
    | .submit request => some request
    | .marketData _ _ | .deliver _ | .take _ => none

variable {F : Type} {setups : ℕ → TradeEngineSetup F} {m m' : Market F} {taken : List MEClientRequest}

/-- What is known of the requests of a client, of which `done` were taken: the numbers of its order
manager, or what it has submitted. -/
def NumberedAt (setups : ℕ → TradeEngineSetup F) (submitted done : List MEClientRequest) (clientId : ℕ)
    (e : TradeEngineState F) : Prop :=
  ((setups clientId).Plays → OrderManager.Numbers clientId done e.orderManager) ∧
    (¬ (setups clientId).Plays → done ++ e.requests = submitted.filter fun r => r.clientId = clientId)

/-- **The ids of all requests**, those that the matching engine has taken and those on their way. -/
structure Numbered (setups : ℕ → TradeEngineSetup F) (submitted : List MEClientRequest) (m : Market F)
    (taken : List MEClientRequest) : Prop where
  run : taken.foldlM (EngineState.process MEOrderBook.addAnnounced) {} = .ok m.exchange
  client : ∀ k, NumberedAt setups submitted (taken.filter fun r => r.clientId = k) k (m.engines k)

section Steps

variable {sent : List MEClientRequest}

/-- The requests of a client are its own. -/
lemma Numbered.clientId_of_mem (h : Numbered setups sent m taken) {k : ℕ} {r : MEClientRequest}
    (hr : r ∈ (m.engines k).requests) : r.clientId = k := by
  by_cases hk : (setups k).Plays
  · exact ((h.client k).1 hk).own r (List.mem_append_right _ hr)
  · have hmem := List.mem_append_right (taken.filter fun r => r.clientId = k) hr
    rw [(h.client k).2 hk] at hmem
    simpa using (List.mem_filter.mp hmem).2

/-- What the matching engine has taken uses no id twice. -/
lemma Numbered.freshIds (h : Numbered setups sent m taken) (hsent : FreshIds sent) : FreshIds taken := by
  refine freshIds_of_clients fun k => ?_
  by_cases hk : (setups k).Plays
  · exact List.Pairwise.sublist (List.sublist_append_left _ _) ((h.client k).1 hk).fresh
  · refine List.Pairwise.sublist ?_ hsent
    refine List.Sublist.trans ?_ (List.filter_sublist (p := fun r => r.clientId = k))
    rw [← (h.client k).2 hk]
    exact List.sublist_append_left _ _

/-- **An event at one client.** -/
lemma Numbered.event (h : Numbered setups sent m taken) {k : ℕ} {e : TradeEngineState F}
    (hplays : (setups k).Plays → ∀ done, OrderManager.Numbers k done (m.engines k).orderManager →
      OrderManager.Numbers k done e.orderManager)
    (hrequests : ¬ (setups k).Plays → e.requests = (m.engines k).requests)
    (hengines : m'.engines = Function.update m.engines k e) (hexchange : m'.exchange = m.exchange) :
    Numbered setups sent m' taken := by
  refine ⟨hexchange ▸ h.run, fun j => ?_⟩
  rw [hengines]
  by_cases hjk : j = k
  · subst hjk
    rw [Function.update_self]
    exact ⟨fun hj => hplays hj _ ((h.client j).1 hj), fun hj => hrequests hj ▸ (h.client j).2 hj⟩
  · rw [Function.update_of_ne hjk]
    exact h.client j

/-- **The matching engine takes a request.** -/
lemma Numbered.take (h : Numbered setups sent m taken) {k : ℕ} {r : MEClientRequest}
    {requests : List MEClientRequest} {exchange : EngineState}
    (hrequests : (m.engines k).requests = r :: requests)
    (hprocess : m.exchange.process MEOrderBook.addAnnounced r = .ok exchange)
    (hengines : m'.engines = m.leave k requests) (hexchange : m'.exchange = exchange) :
    Numbered setups sent m' (taken ++ [r]) := by
  have hclient : r.clientId = k := h.clientId_of_mem (by rw [hrequests]; exact List.mem_cons_self)
  refine ⟨?_, fun j => ?_⟩
  · rw [hexchange, List.foldlM_append, h.run]
    show m.exchange.process _ r >>= _ = _
    rw [hprocess]
    rfl
  · rw [hengines, List.filter_append]
    unfold leave
    by_cases hjk : j = k
    · subst hjk
      rw [Function.update_self, List.filter_cons_of_pos (by simpa using hclient), List.filter_nil]
      refine ⟨fun hj => ((h.client j).1 hj).take hrequests, fun hj => ?_⟩
      rw [← (h.client j).2 hj, hrequests, List.append_assoc]
      rfl
    · rw [Function.update_of_ne hjk, List.filter_cons_of_neg (by simpa [hclient] using Ne.symm hjk),
        List.filter_nil, List.append_nil]
      exact h.client j

variable [Double F] [LE F] [DecidableLE F]

/-- **A request is submitted**, by a client without an algorithm. -/
lemma Numbered.submit (h : Numbered setups sent m taken) {r : MEClientRequest}
    (hnot : ¬ (setups r.clientId).Plays) (hstep : m.step setups (.submit r) = .ok m') :
    Numbered setups (sent ++ [r]) m' taken := by
  cases hstep
  refine ⟨h.run, fun j => ?_⟩
  dsimp only
  by_cases hj : j = r.clientId
  · subst hj
    rw [Function.update_self]
    refine ⟨fun hplays => absurd hplays hnot, fun _ => ?_⟩
    rw [List.filter_append, ← (h.client _).2 hnot, List.append_assoc,
      List.filter_cons_of_pos (by simp), List.filter_nil]
    rfl
  · rw [Function.update_of_ne hj]
    refine ⟨(h.client j).1, fun hother => ?_⟩
    rw [(h.client j).2 hother, List.filter_append, List.filter_cons_of_neg (by simpa using Ne.symm hj),
      List.filter_nil, List.append_nil]

/-- **A step** of the market. -/
theorem Numbered.step (h : Numbered setups sent m taken) {a : MarketAction}
    (ha : ∀ r ∈ submitted [a], ¬ (setups r.clientId).Plays) (hstep : m.step setups a = .ok m') :
    ∃ taken', Numbered setups (sent ++ submitted [a]) m' taken' := by
  by_cases hsubmit : ∃ r, a = .submit r
  · obtain ⟨r, rfl⟩ := hsubmit
    exact ⟨taken, h.submit (ha r (List.mem_singleton.mpr rfl)) hstep⟩
  have hnone : submitted [a] = [] := by
    cases a with
    | submit r => exact absurd ⟨r, rfl⟩ hsubmit
    | marketData | deliver | take => rfl
  rw [hnone, List.append_nil]
  cases step_cases setups hstep with
  | idle => exact ⟨taken, h⟩
  | marketData k u e he =>
    refine ⟨taken, h.event (fun _ done hom => hom.process he) (fun hnot => ?_) rfl rfl⟩
    exact congrArg OrderManager.requests (orderManager_of_not_plays hnot he)
  | deliver k r responses e hresponses he =>
    refine ⟨taken, h.event (fun _ done hom => hom.process he) (fun hnot => ?_) rfl rfl⟩
    exact congrArg OrderManager.requests (orderManager_of_not_plays hnot he)
  | submit r => exact absurd ⟨r, rfl⟩ hsubmit
  | take k r requests exchange hrequests hprocess => exact ⟨_, h.take hrequests hprocess rfl rfl⟩

end Steps

/-! ## Runs -/

/-- **No order is ever lost to its owner**, in any run of the market with `add` through line 105: if the
clients without an algorithm use no id for two orders of a ticker, every resting order can be
canceled.

**Proof sketch.** The induction over the steps keeps `Numbered`, with the requests that were taken as
ghost: an order manager numbers its NEWs upwards, so that what it has sent and what was taken share no
id. Then no id was taken twice, and the table of every book is exact (`safe_keyed`). -/
theorem cancelable_of_run [Double F] [LE F] [DecidableLE F] {openVwap : ℕ → ℕ → ℕ → F}
    {actions : List MarketAction} (hown : ∀ r ∈ submitted actions, ¬ (setups r.clientId).Plays)
    (hfresh : FreshIds (submitted actions)) :
    Always (Market.step setups) (fun m => ∀ t, Cancelable (m.exchange.tickerOrderBook t))
      (start openVwap) actions := by
  have hrun : ∀ pre, pre <+: actions → Safe (fun _ => True)
      (fun m => ∃ taken, Numbered setups (submitted pre) m taken)
      (pre.foldlM (Market.step setups) (start openVwap)) := by
    intro pre hpre
    refine safe_foldlM_list (J := fun done m => ∃ taken, Numbered setups (submitted done) m taken)
      ⟨[], rfl, fun k => ⟨fun _ => OrderManager.numbers_start k, fun _ => rfl⟩⟩ ?_
    rintro done a post m hsplit ⟨taken, hm⟩
    have hsubmitted : ∀ r ∈ submitted [a], ¬ (setups r.clientId).Plays := by
      intro r hr
      refine hown r ((List.Sublist.filterMap _ ?_).subset hr)
      refine List.Sublist.trans ?_ hpre.sublist
      rw [hsplit]
      exact List.singleton_sublist.mpr (by simp)
    cases hstep : m.step setups a with
    | error f => trivial
    | ok m' =>
      obtain ⟨taken', hm'⟩ := hm.step hsubmitted hstep
      refine ⟨taken', ?_⟩
      rwa [submitted, List.filterMap_append]
  refine always_iff_prefix.mpr fun pre m hpre hm t => ?_
  obtain ⟨taken, htaken⟩ := (hrun pre hpre).of_eq_ok hm
  have hids : FreshIds taken :=
    htaken.freshIds (List.Pairwise.sublist (hpre.sublist.filterMap _) hfresh)
  have hkeyed := (safe_keyed hids).of_eq_ok htaken.run t
  exact cancelable_of_indexed (b := m.exchange.tickerOrderBook t) hkeyed.indexed

/-- The orders of the sample can be canceled. -/
theorem cancelable_of_run_sample :
    Always (Market.step sampleSetups) (fun m => ∀ t, Cancelable (m.exchange.tickerOrderBook t))
      (start fun _ _ _ => 0) sampleRun :=
  cancelable_of_run (by decide +kernel) (by decide +kernel)

end Market

end Trading
