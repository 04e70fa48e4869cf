import HftSystem.Trading.ClientOrders
import HftSystem.Trading.OrderIdentity

set_option relaxedAutoImplicit false
set_option autoImplicit false

/-!
# The market

The matching engine with its books, the trade engines of all clients, and the channels between
them, which keep the order of each client's messages and lose none. The matching engine takes the
requests of different clients in any order, and every client may see any market data.

The part of the market that belongs to one client is a run of its system, as `PositionLimit` has
it: what the other clients do looks to it like an exchange that executes its orders when it likes.
A client whose algorithm is not one of the two may send what it likes. A request enters the book
through `MEOrderBook.addAnnounced`, which is `add` through line 105: the removal of an undeclared
order and the second copies of the last update and the last response are left out.

The results ask two things of a run. The requests that the engine takes are admissible when it takes
them (`Admits`), and the limits of the clients with an algorithm are below `2 ^ 31`, since larger ones
are negative as the `int32_t`s that the check compares.

## Main definitions

* `Trading.Market`, `Trading.MarketAction`, `Trading.Market.step` — the market and its steps.
* `Trading.Market.Admits` — the steps that a run may contain.
* `Trading.Market.Refines` — every client's part of the market is a run of its system.

## Main results

* `Trading.Market.Refines.step` — every step is one of every client's system, or several.
* `Trading.Market.refines_of_run` — so in every run.
-/

namespace Trading

open Common Exchange LimitOrderBook PriceTime Fallible MEOrderBook TradeEngineState

/-- **The market**: the matching engine, the trade engines of the clients, and the responses on their
way to them. The requests on their way are those of the order managers. -/
structure Market (F : Type) where
  exchange : EngineState := {}
  engines : ℕ → TradeEngineState F
  responses : ℕ → List MEClientResponse := fun _ => []

/-- What can happen: a client sees a market update, hears a response, or sends a request that is not
its algorithm's, and the matching engine takes the next request of a client. -/
inductive MarketAction
  | marketData (clientId : ℕ) (marketUpdate : MEMarketUpdate)
  | deliver (clientId : ℕ)
  | submit (request : MEClientRequest)
  | take (clientId : ℕ)

/-- What the matching engine wrote to the queue of responses meanwhile. -/
def newResponses (x x' : EngineState) : List MEClientResponse :=
  x'.queues.outgoingOgwResponses.drop x.queues.outgoingOgwResponses.length

namespace Market

variable {F : Type}

/-- The requests of a client are taken. -/
def leave (m : Market F) (clientId : ℕ) (requests : List MEClientRequest) :
    ℕ → TradeEngineState F :=
  Function.update m.engines clientId
    { m.engines clientId with
      orderManager.tradeEngine.outgoingOgwRequests := requests }

section Definitions

variable [Double F] [LE F] [DecidableLE F] (setups : ℕ → TradeEngineSetup F)

/-- Nobody has sent anything. -/
def start (openVwap : ℕ → ℕ → ℕ → F) : Market F where
  engines clientId := .start clientId (openVwap clientId)

/-- A step. -/
def step (m : Market F) : MarketAction → Except Fault (Market F)
  | .marketData clientId marketUpdate => do
    let engine ← (m.engines clientId).process (setups clientId) (.update marketUpdate)
    return { m with engines := Function.update m.engines clientId engine }
  | .deliver clientId =>
    match m.responses clientId with
    | [] => return m
    | response :: responses => do
      let engine ← (m.engines clientId).process (setups clientId) (.response response)
      return {
        m with
        engines := Function.update m.engines clientId engine
        responses := Function.update m.responses clientId responses }
  | .submit request =>
    let engine := (m.engines request.clientId).sendClientRequest request
    return { m with engines := Function.update m.engines request.clientId engine }
  | .take clientId =>
    match (m.engines clientId).requests with
    | [] => return m
    | request :: requests => do
      let exchange ← m.exchange.process MEOrderBook.addAnnounced request
      return {
        exchange
        engines := m.leave clientId requests
        responses := fun k =>
          m.responses k ++ (newResponses m.exchange exchange).filter fun r => r.clientId = k }

/-- **All that a step can do.** -/
inductive Steps (m : Market F) : MarketAction → Market F → Prop
  | idle (a : MarketAction) : Steps m a m
  | marketData (clientId : ℕ) (marketUpdate : MEMarketUpdate) (engine : TradeEngineState F)
      (hengine : (m.engines clientId).process (setups clientId) (.update marketUpdate) = .ok engine) :
      Steps m (.marketData clientId marketUpdate)
        { m with engines := Function.update m.engines clientId engine }
  | deliver (clientId : ℕ) (response : MEClientResponse) (responses : List MEClientResponse)
      (engine : TradeEngineState F) (hresponses : m.responses clientId = response :: responses)
      (hengine : (m.engines clientId).process (setups clientId) (.response response) = .ok engine) :
      Steps m (.deliver clientId)
        { m with
          engines := Function.update m.engines clientId engine
          responses := Function.update m.responses clientId responses }
  | submit (request : MEClientRequest) : Steps m (.submit request)
      { m with
        engines := Function.update m.engines request.clientId
          ((m.engines request.clientId).sendClientRequest request) }
  | take (clientId : ℕ) (request : MEClientRequest) (requests : List MEClientRequest)
      (exchange : EngineState) (hrequests : (m.engines clientId).requests = request :: requests)
      (hexchange : m.exchange.process MEOrderBook.addAnnounced request = .ok exchange) :
      Steps m (.take clientId)
        { exchange
          engines := m.leave clientId requests
          responses := fun k =>
            m.responses k ++ (newResponses m.exchange exchange).filter fun r => r.clientId = k }

/-- **What a step of the market does** is one of the cases of `Steps`. -/
lemma step_cases {m m' : Market F} {a : MarketAction} (h : m.step setups a = .ok m') :
    Steps setups m a m' := by
  unfold Market.step at h
  cases a with
  | marketData k u =>
    obtain ⟨engine, hengine, h⟩ := bind_eq_ok.mp h
    cases h
    exact .marketData k u engine hengine
  | deliver k =>
    cases hresponses : m.responses k with
    | nil =>
      simp only [hresponses] at h
      cases h
      exact .idle _
    | cons r responses =>
      simp only [hresponses] at h
      obtain ⟨engine, hengine, h⟩ := bind_eq_ok.mp h
      cases h
      exact .deliver k r responses engine hresponses hengine
  | submit r =>
    cases h
    exact .submit r
  | take k =>
    cases hrequests : (m.engines k).requests with
    | nil =>
      simp only [hrequests] at h
      cases h
      exact .idle _
    | cons r requests =>
      simp only [hrequests] at h
      obtain ⟨exchange, hexchange, h⟩ := bind_eq_ok.mp h
      cases h
      exact .take k r requests exchange hrequests hexchange

/-- The steps that a run may contain: only other clients than those with one of the algorithms send
requests of their own, and the matching engine takes requests that are admissible. -/
def Admits (m : Market F) : MarketAction → Prop
  | .submit request => ¬ (setups request.clientId).Plays
  | .take clientId => ∀ request requests, (m.engines clientId).requests = request :: requests →
      EngineAdmissible m.exchange request
  | .marketData _ _ | .deliver _ => True

end Definitions

/-! ## The part of a client -/

/-- The system of a client is its part of the market. -/
structure IsPart (m : Market F) (v : ℕ → View MEOrder) (k : ℕ) (s : TradeSystem F) : Prop where
  orderManager : s.orderManager = (m.engines k).orderManager
  positionKeeper : s.positionKeeper = (m.engines k).positionKeeper
  responses : s.responses = (m.responses k).map unnumbered
  opens : Opens s.toSystem fun t => restingOf k (v t)

/-- The open orders of a side are those that rest there. -/
lemma IsPart.liveOrders_perm {m : Market F} {v : ℕ → View MEOrder} {k : ℕ} {s : TradeSystem F}
    (h : IsPart m v k s) (t : ℕ) (side : Side) :
    (s.liveOrders t side).Perm ((restingOf k (v t)).filter fun o => o.side = side) := by
  refine List.Perm.trans (List.Perm.of_eq ?_) ((h.opens t).filter _)
  unfold System.liveOrders
  rw [List.filter_filter]
  simp only [Bool.decide_and, Bool.and_comm]

variable [Double F]

/-- **Every client's part of the market is a run of its system**, and the orders that are open there
are those that rest in the books. -/
structure Refines (setups : ℕ → TradeEngineSetup F) (openVwap : ℕ → ℕ → ℕ → F) (m : Market F)
    (v : ℕ → View MEOrder) : Prop where
  book : ∀ t, BookInvariant (m.exchange.alone t) (v t)
  part : ∀ k, (setups k).Plays →
    ∃ s, Reaches (setups k) (TradeSystem.start k (openVwap k)) s ∧ IsPart m v k s
  own : ∀ k, ¬ (setups k).Plays → ∀ r ∈ (m.engines k).requests, r.clientId = k

section Events

variable {setup : TradeEngineSetup F} {s : TradeSystem F} {e e' : TradeEngineState F}

/-- **A market update**, as steps of the client's system: the best prices change, and orders are
moved.

**Proof sketch.** An update of the engine first brings the best prices to the position keeper, which is
one step of the system unless the update is a trade. It then moves the orders if the algorithm wants
them moved, which is another step. -/
lemma exists_reaches_of_update [LE F] [DecidableLE F] (hom : s.orderManager = e.orderManager)
    (hkeeper : s.positionKeeper = e.positionKeeper) {u : MEMarketUpdate}
    (h : e.process setup (.update u) = .ok e') :
    ∃ s', Reaches setup s s' ∧ s'.orderManager = e'.orderManager ∧
      s'.positionKeeper = e'.positionKeeper ∧ s'.responses = s.responses ∧
      s'.openOrders = s.openOrders := by
  have h : e.onMarketUpdate setup u = .ok e' := h
  rw [TradeEngineState.onMarketUpdate_eq e (tickerId_lt_of_onMarketUpdate h)] at h
  obtain ⟨book, -, h⟩ := bind_eq_ok.mp h
  obtain ⟨k, hk, h⟩ := bind_eq_ok.mp h
  -- the best prices
  obtain ⟨s₁, hreach, rfl⟩ : ∃ s₁, Reaches setup s s₁ ∧ s₁ = { s with positionKeeper := k } := by
    unfold positionsAfter at hk
    split_ifs at hk
    · cases hk
      exact ⟨s, .refl s, by rw [← hkeeper]⟩
    · refine ⟨_, (Reaches.refl s).step (.updateBBO u.tickerId book.bbo) ?_, rfl⟩
      show s.positionKeeper.updateBBO u.tickerId book.bbo >>= _ = _
      rw [hkeeper, hk]
      rfl
  -- the orders
  cases hwanted : wanted setup (featuresAfter e.featureEngine u book) u book with
  | none =>
    rw [hwanted] at h
    cases h
    exact ⟨_, hreach, hom, rfl, rfl, rfl⟩
  | some prices =>
    rw [hwanted] at h
    obtain ⟨om, hmoved, h⟩ := bind_eq_ok.mp h
    cases h
    refine ⟨{ s with positionKeeper := k, orderManager := om }, hreach.step
      (.moveOrders u.tickerId prices.1 prices.2 (setup.tickerCfg u.tickerId).clip) ?_, rfl, rfl, rfl,
      rfl⟩
    show s.orderManager.moveOrders _ _ _ _ _ _ >>= _ = _
    rw [hom, hmoved]
    rfl

/-- **A response**, as a step of the client's system. -/
lemma exists_reaches_of_response (hplays : setup.Plays) (hom : s.orderManager = e.orderManager)
    (hkeeper : s.positionKeeper = e.positionKeeper) {r : MEClientResponse}
    {responses : List MEClientResponse} (hresponses : s.responses = unnumbered r :: responses)
    (h : e.onOrderUpdate setup r = .ok e') :
    ∃ s', Reaches setup s s' ∧ s'.orderManager = e'.orderManager ∧
      s'.positionKeeper = e'.positionKeeper ∧ s'.responses = responses ∧
      s'.openOrders = s.openOrders := by
  obtain ⟨k, hk, h⟩ := bind_eq_ok.mp h
  rcases algoOnOrderUpdate_cases h with ⟨-, om, hupdated, rfl⟩ | ⟨hnot, -⟩
  swap
  · exact absurd hplays hnot
  have hfill : (if (unnumbered r).type = .filled then s.positionKeeper.addFill (unnumbered r)
      else .ok s.positionKeeper) = .ok k := by
    rw [hkeeper]
    exact hk
  have hupdate : s.orderManager.onOrderUpdate (unnumbered r) = .ok om := by
    rw [hom]
    exact hupdated
  refine ⟨{ s with positionKeeper := k, orderManager := om, responses }, (Reaches.refl s).step
    .deliver ?_, rfl, rfl, rfl, rfl⟩
  show s.deliver = _
  unfold TradeSystem.deliver
  rw [hresponses]
  unfold TradeSystem.onOrderUpdate
  simp only [hfill, hupdate, ok_bind]
  rfl

end Events

/-! ## Steps of the market -/

section Steps

variable {setups : ℕ → TradeEngineSetup F} {openVwap : ℕ → ℕ → ℕ → F} {m m' : Market F}
  {v : ℕ → View MEOrder}

/-- An engine without an algorithm does not touch its orders. -/
lemma orderManager_of_not_plays [LE F] [DecidableLE F] {setup : TradeEngineSetup F}
    (hnot : ¬ setup.Plays) {e e' : TradeEngineState F} {event : TradeEngineEvent}
    (h : e.process setup event = .ok e') : e'.orderManager = e.orderManager := by
  cases event with
  | response r =>
    obtain ⟨_, -, h⟩ := bind_eq_ok.mp h
    rcases algoOnOrderUpdate_cases h with ⟨hplays, -⟩ | ⟨-, rfl⟩
    · exact absurd hplays hnot
    · rfl
  | update u =>
    have h : e.onMarketUpdate setup u = .ok e' := h
    rw [TradeEngineState.onMarketUpdate_eq e (tickerId_lt_of_onMarketUpdate h)] at h
    obtain ⟨book, -, h⟩ := bind_eq_ok.mp h
    obtain ⟨_, -, h⟩ := bind_eq_ok.mp h
    have hnone : wanted setup (featuresAfter e.featureEngine u book) u book = none := by
      unfold wanted
      unfold TradeEngineSetup.Plays at hnot
      cases htype : setup.algoType <;> simp_all
    rw [hnone] at h
    cases h
    rfl

/-- Every state that a client's system reaches is sound. -/
lemma sound_of_reaches {setup : TradeEngineSetup F}
    (hcfg : ∀ t, (setup.riskCfg t).maxOrderSize < 2 ^ 31 ∧ (setup.riskCfg t).maxPosition < 2 ^ 31)
    {k : ℕ} {openVwap : ℕ → ℕ → F} {s : TradeSystem F}
    (h : Reaches setup (TradeSystem.start k openVwap) s) : TradeSystem.Sound setup.riskCfg k s := by
  obtain ⟨actions, hactions⟩ := h
  exact inv_of_foldlM (C := fun _ _ => True)
    (fun s a s' hs _ hstep => (hs.step hcfg setup.ifBody a).of_eq_ok hstep)
    (TradeSystem.sound_start k openVwap) meets_true hactions

/-- A new market. -/
lemma refines_start (setups : ℕ → TradeEngineSetup F) (openVwap : ℕ → ℕ → ℕ → F) :
    Refines setups openVwap (start openVwap) fun _ => {} where
  book _ := bookInvariant_new
  part _ _ := ⟨_, .refl _, rfl, rfl, rfl, fun _ => List.Perm.refl _⟩
  own _ _ _ hr := absurd hr List.not_mem_nil

/-- **An event at one client** is a matter of its system alone.

**Proof sketch.** The system of the client goes on with what `hplays` gives, and its orders, position
and responses are those of the engine behind the event. The other engines, their responses and the
exchange are the same as before. -/
lemma Refines.event (h : Refines setups openVwap m v) {k : ℕ} {e : TradeEngineState F}
    {responses : List MEClientResponse}
    (hplays : (setups k).Plays → ∀ s, IsPart m v k s → ∃ s', Reaches (setups k) s s' ∧
      s'.orderManager = e.orderManager ∧ s'.positionKeeper = e.positionKeeper ∧
      s'.responses = responses.map unnumbered ∧ s'.openOrders = s.openOrders)
    (hown : ¬ (setups k).Plays → ∀ r ∈ e.requests, r.clientId = k)
    (hengines : m'.engines = Function.update m.engines k e)
    (hresponses : m'.responses = Function.update m.responses k responses)
    (hexchange : m'.exchange = m.exchange) : Refines setups openVwap m' v where
  book := by
    rw [hexchange]
    exact h.book
  part j hj := by
    obtain ⟨s, hreach, hpart⟩ := h.part j hj
    by_cases hjk : j = k
    · subst hjk
      obtain ⟨s', hreach', hom, hkeeper, hresponses', hopen⟩ := hplays hj s hpart
      refine ⟨s', hreach.trans hreach', ?_, ?_, ?_, fun t => ?_⟩
      · rw [hengines, Function.update_self, hom]
      · rw [hengines, Function.update_self, hkeeper]
      · rw [hresponses, Function.update_self, hresponses']
      · rw [hopen]
        exact hpart.opens t
    · refine ⟨s, hreach, ?_, ?_, ?_, hpart.opens⟩
      · rw [hengines, Function.update_of_ne hjk, hpart.orderManager]
      · rw [hengines, Function.update_of_ne hjk, hpart.positionKeeper]
      · rw [hresponses, Function.update_of_ne hjk, hpart.responses]
  own j hj := by
    rw [hengines]
    by_cases hjk : j = k
    · subst hjk
      rw [Function.update_self]
      exact hown hj
    · rw [Function.update_of_ne hjk]
      exact h.own j hj

/-- The requests that a client sends are its own. -/
lemma Refines.clientId_of_mem (h : Refines setups openVwap m v)
    (hcfg : ∀ k, (setups k).Plays → ∀ t, ((setups k).riskCfg t).maxOrderSize < 2 ^ 31 ∧
      ((setups k).riskCfg t).maxPosition < 2 ^ 31) {k : ℕ} {r : MEClientRequest}
    (hr : r ∈ (m.engines k).requests) : r.clientId = k := by
  by_cases hk : (setups k).Plays
  · obtain ⟨s, hreach, hpart⟩ := h.part k hk
    have hsound := sound_of_reaches (hcfg k hk) hreach
    refine (hsound.ids.request r ?_).1
    rw [hpart.orderManager]
    exact hr
  · exact h.own k hk r hr

/-- **The matching engine takes a request.** Every client's system keeps up.

**Proof sketch.** `maintains_keepsUp` is the assertion that every client with an algorithm keeps up
with the book of the ticker, and `EngineState.safe_process` runs it through the engine. What the book
wrote is what the engine wrote behind its old responses, so the responses that are new in the queues of
the clients are those that their systems gave. The books of the other tickers, and the requests of the
other clients, are as they were. -/
lemma Refines.take (h : Refines setups openVwap m v)
    (hcfg : ∀ k, (setups k).Plays → ∀ t, ((setups k).riskCfg t).maxOrderSize < 2 ^ 31 ∧
      ((setups k).riskCfg t).maxPosition < 2 ^ 31) {k : ℕ} {r : MEClientRequest}
    {requests : List MEClientRequest} (hrequests : (m.engines k).requests = r :: requests)
    (hr : EngineAdmissible m.exchange r) {exchange : EngineState}
    (hprocess : m.exchange.process MEOrderBook.addAnnounced r = .ok exchange) :
    ∃ v', Refines setups openVwap
      { exchange
        engines := m.leave k requests
        responses := fun j =>
          m.responses j ++ (newResponses m.exchange exchange).filter fun r => r.clientId = j }
      v' := by
  have hclient : r.clientId = k := h.clientId_of_mem hcfg (by rw [hrequests]; exact List.mem_cons_self)
  have hnonempty : Nonempty (TradeSystem F) := ⟨.start 0 (openVwap 0)⟩
  choose! s₀ hreach hpart using h.part
  -- the clients keep up with the book of the ticker
  have hmaintains := maintains_keepsUp (fun j => (setups j).Plays) setups s₀
    (fun j t => restingOf j (v t)) (m.exchange.alone r.tickerId).sent (v r.tickerId) r requests
    (fun j hj => ⟨(hpart j hj).opens, rfl⟩) fun hplays => by
      have hsound := sound_of_reaches (hcfg _ hplays) (hreach _ hplays)
      refine ⟨?_, fun o ho o' ho' => hsound.orderly.unique hsound.ids ho ho'⟩
      rw [(hpart _ hplays).orderManager, hclient]
      exact hrequests
  obtain ⟨b', ⟨v', hinv, ⟨new, hsent, hkeeps⟩, -⟩, halone⟩ :=
    (EngineState.safe_process local_addAnnounced m.exchange hr.1
      (hmaintains.process (h.book r.tickerId) ⟨rfl, rfl⟩ hr.2)).of_eq_ok hprocess
  -- what the book wrote is what the engine wrote
  obtain ⟨new', hqueue, hsent'⟩ := EngineState.exists_sent local_addAnnounced hprocess
  rw [halone, Function.update_self, hsent] at hsent'
  obtain rfl := List.append_cancel_left hsent'
  have hnew : newResponses m.exchange exchange = new := by
    unfold newResponses
    rw [hqueue, List.drop_left]
  refine ⟨Function.update v r.tickerId v', fun t => ?_, fun j hj => ?_, fun j hj => ?_⟩
  · show BookInvariant (exchange.alone t) _
    rw [halone]
    by_cases ht : t = r.tickerId
    · subst ht
      rw [Function.update_self, Function.update_self]
      exact hinv
    · rw [Function.update_of_ne ht, Function.update_of_ne ht]
      exact h.book t
  · obtain ⟨s, hs⟩ := hkeeps j hj
    have hengine : (afterTaking s₀ r requests j) = (m.leave k requests j).orderManager ∧
        (m.engines j).positionKeeper = (m.leave k requests j).positionKeeper := by
      unfold afterTaking leave
      by_cases hjk : j = k
      · subst hjk
        rw [if_pos hclient, Function.update_self]
        refine ⟨?_, rfl⟩
        show ({ (s₀ j).orderManager with
          tradeEngine.outgoingOgwRequests := requests } : OrderManager) = _
        rw [(hpart j hj).orderManager]
      · rw [if_neg fun hr => hjk (hr.symm.trans hclient), Function.update_of_ne hjk]
        exact ⟨(hpart j hj).orderManager, rfl⟩
    refine ⟨s, (hreach j hj).trans hs.reaches, hs.orderManager.trans hengine.1,
      hs.positionKeeper.trans ((hpart j hj).positionKeeper.trans hengine.2), ?_, ?_⟩
    · rw [hs.responses, (hpart j hj).responses, hnew, List.map_append]
      rfl
    · refine hs.opens.perm fun t => List.Perm.of_eq ?_
      by_cases ht : t = r.tickerId
      · subst ht
        simp [Function.update_self, openPart]
      · rw [Function.update_of_ne ht, Function.update_of_ne ht]
  · show ∀ r ∈ (m.leave k requests j).requests, r.clientId = j
    unfold leave
    by_cases hjk : j = k
    · subst hjk
      rw [Function.update_self]
      intro r' hr'
      refine h.own j hj r' ?_
      rw [hrequests]
      exact List.mem_cons_of_mem _ hr'
    · rw [Function.update_of_ne hjk]
      exact h.own j hj

/-- **Every step** is one of every client's system, or several, or none. -/
theorem Refines.step [LE F] [DecidableLE F] (h : Refines setups openVwap m v)
    (hcfg : ∀ k, (setups k).Plays → ∀ t, ((setups k).riskCfg t).maxOrderSize < 2 ^ 31 ∧
      ((setups k).riskCfg t).maxPosition < 2 ^ 31) {a : MarketAction} (ha : m.Admits setups a)
    (hstep : m.step setups a = .ok m') : ∃ v', Refines setups openVwap m' v' := by
  cases step_cases setups hstep with
  | idle => exact ⟨v, h⟩
  | marketData k u e he =>
    refine ⟨v, h.event (fun _ s hs => ?_) (fun hnot => ?_) rfl (Function.update_eq_self ..).symm rfl⟩
    · obtain ⟨s', hreach, hom, hkeeper, hresponses, hopen⟩ :=
        exists_reaches_of_update hs.orderManager hs.positionKeeper he
      exact ⟨s', hreach, hom, hkeeper, hresponses.trans hs.responses, hopen⟩
    · have hsame : e.requests = (m.engines k).requests :=
        congrArg OrderManager.requests (orderManager_of_not_plays hnot he)
      rw [hsame]
      exact h.own k hnot
  | deliver k r responses e hresponses he =>
    refine ⟨v, h.event (fun hplays s hs => ?_) (fun hnot => ?_) rfl rfl rfl⟩
    · have hheard : s.responses = unnumbered r :: responses.map unnumbered := by
        rw [hs.responses, hresponses, List.map_cons]
      exact exists_reaches_of_response hplays hs.orderManager hs.positionKeeper hheard he
    · have hsame : e.requests = (m.engines k).requests :=
        congrArg OrderManager.requests (orderManager_of_not_plays hnot he)
      rw [hsame]
      exact h.own k hnot
  | submit r =>
    refine ⟨v, h.event (fun hplays => absurd hplays ha) (fun hnot r' hr' => ?_) rfl
      (Function.update_eq_self ..).symm rfl⟩
    rcases List.mem_append.mp hr' with hr' | hr'
    · exact h.own _ hnot r' hr'
    · rw [List.mem_singleton.mp hr']
  | take k r requests exchange hrequests hprocess =>
    exact h.take hcfg hrequests (ha r requests hrequests) hprocess

end Steps

/-! ## Runs -/

section Runs

variable [LE F] [DecidableLE F] {setups : ℕ → TradeEngineSetup F} {openVwap : ℕ → ℕ → ℕ → F}

/-- **The market refines the systems of its clients**, in every run of admissible steps with limits below
`2 ^ 31`: the induction over the steps, of which each is `Refines.step`. -/
theorem refines_of_run
    (hcfg : ∀ k, (setups k).Plays → ∀ t, ((setups k).riskCfg t).maxOrderSize < 2 ^ 31 ∧
      ((setups k).riskCfg t).maxPosition < 2 ^ 31) {actions : List MarketAction}
    (h : Meets (step setups) (Admits setups) (start openVwap) actions) :
    Safe (fun _ => True) (fun m => ∃ v, Refines setups openVwap m v)
      (actions.foldlM (step setups) (start openVwap)) := by
  refine safe_foldlM (fun m a ⟨v, hm⟩ ha => ?_) ⟨_, refines_start setups openVwap⟩ h
  cases hstep : m.step setups a with
  | error f => trivial
  | ok m' => exact hm.step hcfg ha hstep

/-- The requests that the matching engine takes are about tickers that it has, and have one of the
prices. -/
def Priced (setups : ℕ → TradeEngineSetup F) (prices : List ℤ) (m : Market F) : MarketAction → Prop
  | .submit request => ¬ (setups request.clientId).Plays
  | .take clientId => ∀ request ∈ (m.engines clientId).requests.head?,
      request.tickerId < meMaxTickers ∧ request.type ≠ .invalid ∧
        (request.type = .new → request.side.IsBookSide) ∧ request.price ∈ prices
  | .marketData _ _ | .deliver _ => True

/-- Whether the prices of a step are among the given ones can be evaluated. -/
instance (setups : ℕ → TradeEngineSetup F) (prices : List ℤ) (m : Market F) (a : MarketAction) :
    Decidable (Priced setups prices m a) :=
  match a with
  | .submit request => inferInstanceAs (Decidable (¬ (setups request.clientId).Plays))
  | .take clientId => inferInstanceAs (Decidable (∀ request ∈ (m.engines clientId).requests.head?,
      request.tickerId < meMaxTickers ∧ request.type ≠ .invalid ∧
        (request.type = .new → request.side.IsBookSide) ∧ request.price ∈ prices))
  | .marketData _ _ => .isTrue trivial
  | .deliver _ => .isTrue trivial

/-- **A run whose prices are pairwise equal or not congruent** is one that the matching engine
admits.

**Proof sketch.** The invariant is that the exchange is behind a run of requests whose prices are all
among `prices`. Of these the matching engine admits every prefix (`meets_engineAdmissible`), since two
of their prices are equal or share no bucket. Only `take` adds a request, and it adds one of the kind
that `Priced` allows. -/
lemma meets_admits {prices : List ℤ}
    (hprices : ∀ p ∈ prices, ∀ p' ∈ prices, p = p' ∨ ¬ p ≡ p' [ZMOD meMaxPriceLevels])
    {actions : List MarketAction}
    (h : Meets (step setups) (Priced setups prices) (start openVwap) actions) :
    Meets (step setups) (Admits setups) (start openVwap) actions := by
  -- the requests that were taken
  set Good : MEClientRequest → Prop := fun r => r.tickerId < meMaxTickers ∧ r.type ≠ .invalid ∧
    (r.type = .new → r.side.IsBookSide) ∧ r.price ∈ prices
  have hall : ∀ {requests : List MEClientRequest} {r : MEClientRequest}, (∀ r ∈ requests, Good r) →
      Good r → ∀ r' ∈ requests ++ [r], Good r' := by
    intro requests r hgood hr r' hr'
    rcases List.mem_append.mp hr' with hr' | hr'
    · exact hgood r' hr'
    · rw [List.mem_singleton.mp hr']
      exact hr
  set Taken : Market F → Prop := fun m => ∃ requests : List MEClientRequest,
    (∀ r ∈ requests, Good r) ∧
      requests.foldlM (EngineState.process MEOrderBook.addAnnounced) {} = .ok m.exchange
  have hadmits : ∀ m a, Taken m → Priced setups prices m a → m.Admits setups a := by
    rintro m a ⟨requests, hgood, hrun⟩ ha
    cases a with
    | marketData | deliver => trivial
    | submit => exact ha
    | take k =>
      intro r rest hr
      have hall := hall hgood (ha r (by rw [hr]; rfl))
      refine Meets.of_prefix requests [] (meets_engineAdmissible (fun r' hr' => (hall r' hr').1)
        (fun r' hr' => (hall r' hr').2.1) (fun r' hr' => (hall r' hr').2.2.1) fun r₁ h₁ r₂ h₂ => ?_) hrun
      exact hprices _ (hall r₁ h₁).2.2.2 _ (hall r₂ h₂).2.2.2
  have htaken : ∀ m a m', Taken m → Priced setups prices m a → m.step setups a = .ok m' →
      Taken m' := by
    rintro m a m' ⟨requests, hgood, hrun⟩ ha hstep
    cases step_cases setups hstep with
    | take k r rest exchange hrequests hprocess =>
      refine ⟨requests ++ [r], hall hgood (ha r (by rw [hrequests]; rfl)), ?_⟩
      rw [List.foldlM_append, hrun]
      show m.exchange.process _ r >>= _ = _
      rw [hprocess]
      rfl
    | idle | marketData | deliver | submit => exact ⟨requests, hgood, hrun⟩
  exact meets_of_meets hadmits htaken ⟨[], by simp, rfl⟩ h

end Runs

/-! ## A small market -/

/-- Client 1 is a market maker, and all others send what they like. -/
def sampleSetups (k : ℕ) : TradeEngineSetup Rat :=
  if k = 1 then sampleSetup else { sampleSetup with algoType := .random }

/-- The market maker sees two orders on each side and quotes; client 2 sells a part of what the bid is
for, and both hear of it. -/
def sampleRun : List MarketAction :=
  [.marketData 1 { type := .add, orderId := 1, tickerId := 0, side := .buy, price := 10, qty := 5,
                   priority := 1 },
   .marketData 1 { type := .add, orderId := 2, tickerId := 0, side := .sell, price := 12, qty := 5,
                   priority := 1 },
   .marketData 1 { type := .add, orderId := 3, tickerId := 0, side := .buy, price := 10, qty := 3,
                   priority := 2 },
   .marketData 1 { type := .add, orderId := 4, tickerId := 0, side := .sell, price := 12, qty := 1,
                   priority := 2 },
   .take 1, .take 1,
   .submit { type := .new, clientId := 2, tickerId := 0, orderId := 2000, side := .sell, price := 9,
             qty := 3 },
   .take 2, .deliver 1, .deliver 2, .deliver 1, .deliver 1, .deliver 2]

/-- The limits of the sample are below `2 ^ 31`. -/
lemma sampleSetups_limits (k : ℕ) (_ : (sampleSetups k).Plays) (t : ℕ) :
    ((sampleSetups k).riskCfg t).maxOrderSize < 2 ^ 31 ∧
      ((sampleSetups k).riskCfg t).maxPosition < 2 ^ 31 := by
  have hsample : (10 : ℕ) < 2 ^ 31 ∧ (20 : ℕ) < 2 ^ 31 := by decide
  unfold sampleSetups
  split_ifs
  · exact hsample
  · exact hsample

/-- The steps of the sample are admissible. -/
lemma meets_sampleRun :
    Meets (step sampleSetups) (Admits sampleSetups) (start fun _ _ _ => 0) sampleRun :=
  meets_admits (by decide : ∀ p ∈ [9, 10, 12, 13], ∀ p' ∈ [9, 10, 12, 13],
    p = p' ∨ ¬ p ≡ p' [ZMOD meMaxPriceLevels]) (by decide +kernel)

/-- The sample is a run of every client's system. -/
theorem refines_of_run_sample :
    ∃ m v, sampleRun.foldlM (step sampleSetups) (start fun _ _ _ => 0) = .ok m ∧
      Refines sampleSetups (fun _ _ _ => 0) m v :=
  have ⟨m, hm, v, hv⟩ :=
    (refines_of_run sampleSetups_limits meets_sampleRun).exists_of_isOk (by decide +kernel)
  ⟨m, v, hm, hv⟩

end Market

end Trading
