import Mathlib.Algebra.BigOperators.ModEq
import HftSystem.Exchange.Conservation
import HftSystem.Trading.Market

set_option relaxedAutoImplicit false
set_option autoImplicit false

/-!
# Positions across the market

Every execution is told to a buyer and to a seller, each of whom counts it once, so the positions of
all clients cancel out as soon as the executions on their way are counted. The positions are
`int32_t`s that wrap around; that of a client with one of the algorithms never does, because the
limit covers whatever the matching engine may still do to its orders.

## Main definitions

* `Trading.netOf` — the signed quantity of the executions of each client in a ticker.
* `Trading.Market.counted` — a position that counts the executions on their way.
* `Trading.Market.Limited` — the limit of a client, with the orders that rest in the books.

## Main results

* `Trading.Market.Steps.counts` — what a step adds to the positions.
* `Trading.Market.limited_of_run` — the limits hold of what the matching engine does, in every run.
* `Trading.Market.cancel_of_run` — the positions of all clients cancel out, in every run.
-/

namespace Trading

open Common Exchange LimitOrderBook PriceTime Fallible MEOrderBook TradeEngineState Tally

/-! ## Executions by client -/

/-- **The signed quantity of the executions of each client** in a ticker. -/
def netOf (t : ℕ) (responses : List MEClientResponse) : ℕ → ℤ :=
  tally MEClientResponse.clientId MEClientResponse.signedQty
    (responses.filter fun r => r.tickerId = t)

section NetOf

variable {t k : ℕ} {responses : List MEClientResponse}

/-- The executions that two lists of responses tell of. -/
lemma netOf_append (t : ℕ) (responses responses' : List MEClientResponse) :
    netOf t (responses ++ responses') = netOf t responses + netOf t responses' := by
  unfold netOf
  rw [List.filter_append, tally_append]

/-- One more response. -/
lemma netOf_cons (t : ℕ) (r : MEClientResponse) (responses : List MEClientResponse) (k : ℕ) :
    netOf t (r :: responses) k =
      (if r.tickerId = t ∧ r.clientId = k then r.signedQty else 0) + netOf t responses k := by
  unfold netOf
  by_cases ht : r.tickerId = t
  · rw [List.filter_cons_of_pos (by simpa using ht), tally_cons, Pi.add_apply, Pi.single_apply]
    simp [ht, eq_comm]
  · rw [List.filter_cons_of_neg (by simpa using ht), if_neg fun h => ht h.1, zero_add]

/-- The responses to other clients do not count. -/
lemma netOf_filter (t k : ℕ) (responses : List MEClientResponse) :
    netOf t (responses.filter fun r => r.clientId = k) k = netOf t responses k := by
  induction responses with
  | nil => rfl
  | cons r responses ih =>
    rw [netOf_cons, ← ih]
    by_cases hk : r.clientId = k
    · rw [List.filter_cons_of_pos (by simpa using hk), netOf_cons]
    · rw [List.filter_cons_of_neg (by simpa using hk), if_neg fun h => hk h.2, zero_add]

/-- **All clients together** have what all executions add up to. -/
lemma sum_netOf {clients : Finset ℕ}
    (h : ∀ r ∈ responses, r.tickerId = t → r.clientId ∈ clients) :
    ∑ k ∈ clients, netOf t responses k = (balance (responses.filter fun r => r.tickerId = t)).1 := by
  have hmem : ∀ r ∈ responses.filter (fun r => r.tickerId = t), r.clientId ∈ clients := by
    intro r hr
    obtain ⟨hr, ht⟩ := List.mem_filter.mp hr
    exact h r hr (by simpa using ht)
  unfold netOf balance
  rw [sum_tally _ _ hmem, ← AddMonoidHom.coe_fst, map_list_sum, List.map_map]
  rfl

/-- The executions of one client, by side. -/
lemma netOf_eq_executed {s : System} (hresponses : s.responses = responses.map unnumbered)
    (hclient : ∀ r ∈ responses, r.clientId = k)
    (hside : ∀ r ∈ responses, r.type = .filled → r.side.IsBookSide) :
    netOf t responses k = s.executed t .buy - s.executed t .sell := by
  unfold System.executed
  rw [hresponses]
  clear hresponses
  induction responses with
  | nil => rfl
  | cons r responses ih =>
    have ih := ih (fun r' hr' => hclient r' (List.mem_cons_of_mem _ hr'))
      fun r' hr' => hside r' (List.mem_cons_of_mem _ hr')
    -- what this response says about the two sides
    have hone : (if r.tickerId = t ∧ r.clientId = k then r.signedQty else 0) =
        ((if r.tickerId = t ∧ r.side = .buy ∧ r.type = .filled then r.execQty else 0 : ℕ) : ℤ) -
          (if r.tickerId = t ∧ r.side = .sell ∧ r.type = .filled then r.execQty else 0 : ℕ) := by
      rw [hclient r List.mem_cons_self]
      unfold MEClientResponse.signedQty
      by_cases hfilled : r.type = .filled
      · rcases hside r List.mem_cons_self hfilled with hs | hs
        · by_cases ht : r.tickerId = t <;> simp [hfilled, hs, ht]
        · by_cases ht : r.tickerId = t <;> simp [hfilled, hs, ht]
      · simp [hfilled]
    have hkept : (unnumbered r).tickerId = r.tickerId ∧ (unnumbered r).side = r.side ∧
        (unnumbered r).type = r.type ∧ (unnumbered r).execQty = r.execQty := ⟨rfl, rfl, rfl, rfl⟩
    simp only [List.map_cons, List.sum_cons, hkept]
    rw [netOf_cons, ih, hone]
    omega

end NetOf

/-! ## Positions that wrap around -/

section Positions

variable {F : Type} [Double F]

/-- A `size_t` cut to 32 bits is the same number, up to a multiple of `2 ^ 32`. -/
lemma toInt_setWidth_ofInt_modEq (x : ℤ) :
    ((BitVec.ofInt 64 x).setWidth 32).toInt ≡ x [ZMOD 2 ^ 32] := by
  rw [BitVec.toInt_setWidth, BitVec.toNat_ofInt]
  unfold Int.bmod Int.ModEq
  dsimp only
  split_ifs <;> omega

/-- **A fill moves the position by its quantity**, up to a multiple of `2 ^ 32`. -/
lemma PositionInfo.modEq_position_fillPosition (p : PositionInfo F) {r : MEClientResponse}
    (hside : r.side.IsBookSide) :
    (p.fillPosition r).position.toInt ≡ p.position.toInt + positionChange r.side r.execQty
      [ZMOD 2 ^ 32] := by
  have hwiden : (BitVec.ofNat 32 r.execQty).setWidth 64 = BitVec.ofInt 64 ((r.execQty % 2 ^ 32 : ℕ) : ℤ) := by
    apply BitVec.eq_of_toNat_eq
    rw [BitVec.toNat_setWidth, BitVec.toNat_ofNat, BitVec.toNat_ofInt]
    omega
  rw [position_fillPosition, hwiden, BitVec.mul_comm, sideToValue_mul hside]
  unfold BitVec.signExtend
  rw [← BitVec.ofInt_add]
  refine (toInt_setWidth_ofInt_modEq _).trans ?_
  unfold positionChange Int.ModEq
  split_ifs <;> omega

/-- A fill is added to the position in its ticker, up to a multiple of `2 ^ 32`. -/
lemma PositionKeeper.modEq_addFill {keeper keeper' : PositionKeeper F} {r : MEClientResponse}
    (hside : r.side.IsBookSide) (h : keeper.addFill r = .ok keeper') (t : ℕ) :
    keeper'.position t ≡ keeper.position t +
      (if r.tickerId = t then positionChange r.side r.execQty else 0) [ZMOD 2 ^ 32] := by
  unfold PositionKeeper.addFill at h
  split_ifs at h
  obtain ⟨p, hp, h⟩ := bind_eq_ok.mp h
  cases h
  unfold PositionKeeper.position
  dsimp only
  by_cases ht : r.tickerId = t
  · subst ht
    rw [if_pos rfl, Function.update_self]
    have hposition : p.position = ((keeper.tickerPosition r.tickerId).fillPosition r).position := by
      unfold PositionInfo.addFill at hp
      split_ifs at hp
      cases hp
      show PositionInfo.position (if _ then _ else _) = _
      split_ifs <;> rfl
    rw [hposition]
    exact PositionInfo.modEq_position_fillPosition _ hside
  · rw [if_neg ht, add_zero, Function.update_of_ne (Ne.symm ht)]

end Positions

namespace Market

/-! ## What a step adds to the positions -/

section Counts

variable {F : Type} {setups : ℕ → TradeEngineSetup F} {m m' : Market F}

/-- The responses that the matching engine has written. -/
def told (m : Market F) : List MEClientResponse := m.exchange.queues.outgoingOgwResponses

/-- Every response on its way is on its way to its client, and an execution names a side. -/
structure Addressed (m : Market F) : Prop where
  client : ∀ k, ∀ r ∈ m.responses k, r.clientId = k
  sides : ∀ k, SidesNamed (m.responses k)

/-- **A position that counts the executions on their way.** -/
def counted (m : Market F) (t k : ℕ) : ℤ :=
  (m.engines k).positionKeeper.position t + netOf t (m.responses k) k

/-- An engine whose positions are the same. -/
lemma counted_of_engine {k : ℕ} {e : TradeEngineState F}
    (hengines : m'.engines = Function.update m.engines k e) (hresponses : m'.responses = m.responses)
    (h : ∀ t, e.positionKeeper.position t = (m.engines k).positionKeeper.position t) (t j : ℕ) :
    m'.counted t j = m.counted t j + netOf t [] j := by
  have hnone : netOf t [] j = 0 := rfl
  unfold counted
  rw [hengines, hresponses, hnone, add_zero]
  by_cases hjk : j = k
  · subst hjk
    rw [Function.update_self, h]
  · rw [Function.update_of_ne hjk]

/-- The matching engine tells the clients something. -/
lemma counted_of_told {k : ℕ} {requests : List MEClientRequest} {new : List MEClientResponse}
    (hengines : m'.engines = m.leave k requests)
    (hresponses : ∀ j, m'.responses j = m.responses j ++ new.filter fun r => r.clientId = j)
    (t j : ℕ) : m'.counted t j = m.counted t j + netOf t new j := by
  have hkeeper : (m.leave k requests j).positionKeeper = (m.engines j).positionKeeper := by
    unfold leave
    by_cases hjk : j = k
    · subst hjk
      rw [Function.update_self]
    · rw [Function.update_of_ne hjk]
  unfold counted
  rw [hengines, hresponses, hkeeper, netOf_append, Pi.add_apply, netOf_filter, add_assoc]

variable [Double F] [LE F] [DecidableLE F]

/-- A market update does not change a position. -/
lemma position_of_update {setup : TradeEngineSetup F} {e e' : TradeEngineState F}
    {u : MEMarketUpdate} (h : e.process setup (.update u) = .ok e') (t : ℕ) :
    e'.positionKeeper.position t = e.positionKeeper.position t := by
  have h : e.onMarketUpdate setup u = .ok e' := h
  rw [TradeEngineState.onMarketUpdate_eq e (tickerId_lt_of_onMarketUpdate h)] at h
  obtain ⟨book, -, h⟩ := bind_eq_ok.mp h
  obtain ⟨keeper, hkeeper, h⟩ := bind_eq_ok.mp h
  have hsame : e'.positionKeeper = keeper := by
    cases hwanted : wanted setup (featuresAfter e.featureEngine u book) u book with
    | none =>
      rw [hwanted] at h
      cases h
      rfl
    | some prices =>
      rw [hwanted] at h
      obtain ⟨om, -, h⟩ := bind_eq_ok.mp h
      cases h
      rfl
  rw [hsame]
  unfold positionsAfter at hkeeper
  split_ifs at hkeeper
  · cases hkeeper
    rfl
  · exact (e.positionKeeper.safe_updateBBO u.tickerId book.bbo).of_eq_ok hkeeper t

/-- **A response moves the position by what it says**, up to a multiple of `2 ^ 32`. -/
lemma position_of_response {setup : TradeEngineSetup F} {e e' : TradeEngineState F}
    {r : MEClientResponse} (hside : r.type = .filled → r.side.IsBookSide)
    (h : e.process setup (.response r) = .ok e') (t : ℕ) :
    e'.positionKeeper.position t ≡ e.positionKeeper.position t +
      (if r.tickerId = t then r.signedQty else 0) [ZMOD 2 ^ 32] := by
  obtain ⟨keeper, hkeeper, h⟩ := bind_eq_ok.mp h
  have hsame : e'.positionKeeper = keeper := by
    rcases algoOnOrderUpdate_cases h with ⟨-, om, -, rfl⟩ | ⟨-, rfl⟩
    · rfl
    · rfl
  rw [hsame]
  by_cases hfilled : r.type = .filled
  · rw [if_pos hfilled] at hkeeper
    have hsigned : r.signedQty = positionChange r.side r.execQty := if_pos hfilled
    rw [hsigned]
    exact PositionKeeper.modEq_addFill (hside hfilled) hkeeper t
  · rw [if_neg hfilled] at hkeeper
    cases hkeeper
    have hzero : r.signedQty = 0 := if_neg hfilled
    rw [hzero, ite_self, add_zero]

/-- **What a step adds to the positions** is what the matching engine tells the clients meanwhile; and
when it tells them nothing, a position may still wrap around. -/
lemma Steps.counts {a : MarketAction} (h : Steps setups m a m') (hm : m.Addressed) :
    ∃ new, m'.told = m.told ++ new ∧
      ((∀ t k, m'.counted t k = m.counted t k + netOf t new k) ∨
        new = [] ∧ ∀ t k, m'.counted t k ≡ m.counted t k [ZMOD 2 ^ 32]) := by
  cases h with
  | idle => exact ⟨[], (List.append_nil _).symm, .inl fun t j => (add_zero _).symm⟩
  | marketData k u e he =>
    exact ⟨[], (List.append_nil _).symm, .inl
      (counted_of_engine rfl rfl (position_of_update he))⟩
  | deliver k r responses e hresponses he =>
    refine ⟨[], (List.append_nil _).symm, .inr ⟨rfl, fun t j => ?_⟩⟩
    unfold counted
    by_cases hjk : j = k
    · subst hjk
      have hmem : r ∈ m.responses j := by
        rw [hresponses]
        exact List.mem_cons_self
      have hmoved := position_of_response (hm.sides j r hmem) he t
      simp only [Function.update_self]
      rw [hresponses, netOf_cons, hm.client j r hmem]
      simp only [and_true]
      rw [← add_assoc]
      exact hmoved.add_right _
    · simp only [Function.update_of_ne hjk]
      rfl
  | submit r =>
    exact ⟨[], (List.append_nil _).symm, .inl
      (counted_of_engine rfl rfl fun _ => rfl)⟩
  | take k r requests exchange hrequests hexchange =>
    obtain ⟨new, hqueue, -⟩ := EngineState.exists_sent local_addAnnounced hexchange
    have hnew : newResponses m.exchange exchange = new := by
      unfold newResponses
      rw [hqueue, List.drop_left]
    exact ⟨new, hqueue, .inl (counted_of_told rfl fun _ => by rw [← hnew])⟩

end Counts

/-! ## The limit of a client -/

/-- The quantity of a client on a side of a ticker that may still execute: of its requests on their
way, and of its orders in the book. -/
def reserved {F : Type} (m : Market F) (k t : ℕ) (side : Side) (v : View MEOrder) : ℕ :=
  ((m.engines k).requests.map fun r =>
    if r.type = .new ∧ r.tickerId = t ∧ r.side = side then r.qty else 0).sum +
  ((restingOf k v).map fun o => if o.side = side then o.qty else 0).sum

/-- The number of a client's orders on a side of a ticker: on their way, and in the book. -/
def orderCount {F : Type} (m : Market F) (k t : ℕ) (side : Side) (v : View MEOrder) : ℕ :=
  ((m.engines k).requests.filter fun r => r.type = .new ∧ r.tickerId = t ∧ r.side = side).length +
    ((restingOf k v).filter fun o => o.side = side).length

/-- **The limit of a client** in a ticker: there is one order at most on each side, and what the
matching engine has executed for the client stays within the limit, whatever part of its orders is
executed next. -/
structure Limited {F : Type} (limit : ℕ) (m : Market F) (k t : ℕ) (v : View MEOrder) : Prop where
  oneOrder : ∀ side, side.IsBookSide → m.orderCount k t side v ≤ 1
  position : |(m.engines k).positionKeeper.position t| ≤ limit
  executed : ∀ bought ≤ m.reserved k t .buy v, ∀ sold ≤ m.reserved k t .sell v,
    |netOf t m.told k + bought - sold| ≤ limit

/-- A sum over those that have one property, of those that have another one too. -/
lemma sum_filter_ite {α : Type*} (l : List α) (p q : α → Prop) [DecidablePred p] [DecidablePred q]
    (f : α → ℕ) : (l.map fun a => if p a ∧ q a then f a else 0).sum =
      ((l.filter fun a => p a).map fun a => if q a then f a else 0).sum := by
  induction l with
  | nil => rfl
  | cons a l ih =>
    rw [List.map_cons, List.sum_cons, ih]
    by_cases hp : p a
    · rw [List.filter_cons_of_pos (by simpa using hp), List.map_cons, List.sum_cons]
      simp only [hp, true_and]
    · rw [List.filter_cons_of_neg (by simpa using hp), if_neg fun h => hp h.1, Nat.zero_add]

section Limits

variable {F : Type} {m : Market F} {v : ℕ → View MEOrder} {k : ℕ} {s : TradeSystem F}

/-- What may still execute is what the client's system has sent and what is open there. -/
lemma IsPart.reserved (h : IsPart m v k s) (t : ℕ) (side : Side) :
    m.reserved k t side (v t) = s.sentQty t side + s.openQty t side := by
  have hopen : s.openQty t side =
      ((restingOf k (v t)).map fun o => if o.side = side then o.qty else 0).sum := by
    unfold System.openQty
    rw [sum_filter_ite]
    exact ((h.opens t).map _).sum_eq
  rw [hopen]
  unfold System.sentQty Market.reserved
  rw [h.orderManager]
  rfl

/-- The orders of a client are those of its system. -/
lemma IsPart.orderCount (h : IsPart m v k s) (t : ℕ) (side : Side) :
    m.orderCount k t side (v t) =
      (s.newsInFlight t side).length + (s.liveOrders t side).length := by
  rw [(h.liveOrders_perm t side).length_eq]
  unfold System.newsInFlight Market.orderCount
  rw [h.orderManager]
  rfl

variable [Double F] {setups : ℕ → TradeEngineSetup F} {openVwap : ℕ → ℕ → ℕ → F}

/-- **The limit**, of a position that counts the executions on their way. -/
lemma Refines.limit (h : Refines setups openVwap m v)
    (hcfg : ∀ t, ((setups k).riskCfg t).maxOrderSize < 2 ^ 31 ∧
      ((setups k).riskCfg t).maxPosition < 2 ^ 31) (hk : (setups k).Plays) (hm : m.Addressed) (t : ℕ) :
    (∀ side, side.IsBookSide → m.orderCount k t side (v t) ≤ 1) ∧
      |(m.engines k).positionKeeper.position t| ≤ ((setups k).riskCfg t).maxPosition ∧
      ∀ bought ≤ m.reserved k t .buy (v t), ∀ sold ≤ m.reserved k t .sell (v t),
        |m.counted t k + bought - sold| ≤ ((setups k).riskCfg t).maxPosition := by
  obtain ⟨s, hreach, hpart⟩ := h.part k hk
  have hsound := sound_of_reaches hcfg hreach
  have hcovered := hsound.covered t
  refine ⟨fun side hside => ?_, ?_, fun bought hbought sold hsold => ?_⟩
  · rw [hpart.orderCount]
    have hone := (hsound.orderly.line t side hside).atMostOne
    rwa [List.length_append, List.length_map, List.length_map] at hone
  · rw [← hpart.positionKeeper]
    exact hcovered.abs_le
  · rw [hpart.reserved] at hbought hsold
    have hcounted : m.counted t k = s.positionKeeper.position t + s.executed t .buy -
        s.executed t .sell := by
      unfold counted
      rw [netOf_eq_executed hpart.responses (hm.client k) (hm.sides k), hpart.positionKeeper]
      omega
    have hup : ((s.executed t .buy + bought : ℕ) : ℤ) ≤ s.exposure t .buy := by
      unfold System.exposure
      omega
    have hdown : ((s.executed t .sell + sold : ℕ) : ℤ) ≤ s.exposure t .sell := by
      unfold System.exposure
      omega
    have hle := hcovered.abs_add_sub_le hup (Int.natCast_nonneg _) hdown (Int.natCast_nonneg _)
    refine le_of_eq_of_le (congrArg abs ?_) hle
    rw [hcounted]
    omega

end Limits

/-! ## Runs -/

section Runs

variable {F : Type} [Double F] {setups : ℕ → TradeEngineSetup F} {openVwap : ℕ → ℕ → ℕ → F}
  {m m' : Market F} {v v' : ℕ → View MEOrder}

/-- **The books of the market are in order**: the positions count what the matching engine has told,
those of the algorithms without wrapping around, and executions cancel out. -/
structure Accounted (setups : ℕ → TradeEngineSetup F) (m : Market F) : Prop extends Addressed m where
  settled : ∀ t, balance (m.exchange.alone t).sent = 0 ∧ SidesNamed (m.exchange.alone t).sent
  wraps : ∀ t k, netOf t m.told k ≡ m.counted t k [ZMOD 2 ^ 32]
  exact : ∀ t k, (setups k).Plays → netOf t m.told k = m.counted t k

/-- Nothing has been told. -/
lemma accounted_start (setups : ℕ → TradeEngineSetup F) (openVwap : ℕ → ℕ → ℕ → F) :
    Accounted setups (start openVwap) where
  client _ _ hr := absurd hr List.not_mem_nil
  sides _ _ hr := absurd hr List.not_mem_nil
  settled _ := ⟨rfl, fun _ hr => absurd hr List.not_mem_nil⟩
  wraps _ _ := .rfl
  exact _ _ _ := rfl

variable [LE F] [DecidableLE F]

/-- A step keeps the executions in balance. -/
lemma Steps.settled {a : MarketAction} (h : Steps setups m a m') (ha : m.Admits setups a)
    (hbook : ∀ t, BookInvariant (m.exchange.alone t) (v t))
    (hm : ∀ t, balance (m.exchange.alone t).sent = 0 ∧ SidesNamed (m.exchange.alone t).sent) (t : ℕ) :
    balance (m'.exchange.alone t).sent = 0 ∧ SidesNamed (m'.exchange.alone t).sent := by
  cases h with
  | idle | marketData | deliver | submit => exact hm t
  | take k r requests exchange hrequests hexchange =>
    have hr := ha r requests hrequests
    have hmaintains := (maintains_balanced r).and (maintains_sidesNamed r)
    obtain ⟨b', ⟨_, -, hsettled, -⟩, halone⟩ :=
      (EngineState.safe_process local_addAnnounced m.exchange hr.1
        (hmaintains.process (hbook r.tickerId) (hm r.tickerId) hr.2)).of_eq_ok hexchange
    show balance (exchange.alone t).sent = 0 ∧ SidesNamed (exchange.alone t).sent
    rw [halone]
    by_cases ht : t = r.tickerId
    · subst ht
      rw [Function.update_self]
      exact hsettled
    · rw [Function.update_of_ne ht]
      exact hm t

/-- A step sends responses to their clients. -/
lemma Steps.addressed {a : MarketAction} (h : Steps setups m a m') (hm : m.Addressed)
    (hsides : ∀ t, SidesNamed (m'.exchange.alone t).sent) : m'.Addressed := by
  cases h with
  | idle => exact hm
  | marketData | submit => exact ⟨hm.client, hm.sides⟩
  | deliver k r responses e hresponses he =>
    have hsub : ∀ j, ∀ r' ∈ Function.update m.responses k responses j, r' ∈ m.responses j := by
      intro j r' hr'
      by_cases hjk : j = k
      · subst hjk
        rw [Function.update_self] at hr'
        rw [hresponses]
        exact List.mem_cons_of_mem _ hr'
      · rwa [Function.update_of_ne hjk] at hr'
    exact ⟨fun j r' hr' => hm.client j r' (hsub j r' hr'), fun j r' hr' => hm.sides j r' (hsub j r' hr')⟩
  | take k r requests exchange hrequests hexchange =>
    obtain ⟨new, hqueue, hsent⟩ := EngineState.exists_sent local_addAnnounced hexchange
    have hnew : newResponses m.exchange exchange = new := by
      unfold newResponses
      rw [hqueue, List.drop_left]
    have hnamed : SidesNamed new := fun r' hr' => hsides r.tickerId r' (by
      show r' ∈ (exchange.alone r.tickerId).sent
      rw [hsent]
      exact List.mem_append_right _ hr')
    refine ⟨fun j r' hr' => ?_, fun j r' hr' => ?_⟩
    · rcases List.mem_append.mp hr' with hr' | hr'
      · exact hm.client j r' hr'
      · exact of_decide_eq_true (List.mem_filter.mp hr').2
    · rcases List.mem_append.mp hr' with hr' | hr'
      · exact hm.sides j r' hr'
      · rw [hnew] at hr'
        exact hnamed r' (List.mem_filter.mp hr').1

/-- **A step keeps the books in order.**

**Proof sketch.** A position that counts the executions on their way only changes by what is told
meanwhile, up to a multiple of `2 ^ 32`; and that of an algorithm is within its limit before and
afterwards, and hence does not wrap around. -/
lemma Accounted.step (hm : Accounted setups m)
    (hcfg : ∀ k, (setups k).Plays → ∀ t, ((setups k).riskCfg t).maxOrderSize < 2 ^ 31 ∧
      ((setups k).riskCfg t).maxPosition < 2 ^ 31) (h : Refines setups openVwap m v)
    (h' : Refines setups openVwap m' v') {a : MarketAction} (ha : m.Admits setups a)
    (hstep : Steps setups m a m') : Accounted setups m' := by
  have hsettled := hstep.settled ha h.book hm.settled
  have haddressed := hstep.addressed hm.toAddressed fun t => (hsettled t).2
  obtain ⟨new, htold, hcounts⟩ := hstep.counts hm.toAddressed
  have hnet : ∀ t k, netOf t m'.told k = netOf t m.told k + netOf t new k := by
    intro t k
    rw [htold, netOf_append]
    rfl
  have hnone : ∀ t k, netOf t [] k = 0 := fun _ _ => rfl
  refine ⟨haddressed, hsettled, fun t k => ?_, fun t k hk => ?_⟩
  · rw [hnet]
    rcases hcounts with hcounts | ⟨rfl, hcounts⟩
    · rw [hcounts]
      exact (hm.wraps t k).add_right _
    · rw [hnone, add_zero]
      exact (hm.wraps t k).trans (hcounts t k).symm
  · rw [hnet]
    rcases hcounts with hcounts | ⟨rfl, hcounts⟩
    · rw [hcounts, hm.exact t k hk]
    · rw [hnone, add_zero, hm.exact t k hk]
      -- both are within the limit
      have hbefore := (h.limit (hcfg k hk) hk hm.toAddressed t).2.2 0 (Nat.zero_le _) 0 (Nat.zero_le _)
      have hafter := (h'.limit (hcfg k hk) hk haddressed t).2.2 0 (Nat.zero_le _) 0 (Nat.zero_le _)
      have hmax := (hcfg k hk t).2
      have hmod := hcounts t k
      unfold Int.ModEq at hmod
      rw [abs_le] at hbefore hafter
      omega

/-- **What holds in every run.** -/
lemma safe_run
    (hcfg : ∀ k, (setups k).Plays → ∀ t, ((setups k).riskCfg t).maxOrderSize < 2 ^ 31 ∧
      ((setups k).riskCfg t).maxPosition < 2 ^ 31) {actions : List MarketAction}
    (h : Meets (Market.step setups) (Admits setups) (start openVwap) actions) :
    Safe (fun _ => True) (fun m => (∃ v, Refines setups openVwap m v) ∧ Accounted setups m)
      (actions.foldlM (Market.step setups) (start openVwap)) := by
  refine safe_foldlM (fun m a ⟨⟨v, hm⟩, haccounted⟩ ha => ?_)
    ⟨⟨_, refines_start setups openVwap⟩, accounted_start setups openVwap⟩ h
  cases hstep : m.step setups a with
  | error f => trivial
  | ok m' =>
    obtain ⟨v', hm'⟩ := hm.step hcfg ha hstep
    exact ⟨⟨v', hm'⟩, haccounted.step hcfg hm hm' ha (step_cases setups hstep)⟩

/-- **The limits hold of what the matching engine does.** In every run of admissible steps, with `add`
through line 105 and limits below `2 ^ 31`, a client with one of the algorithms has one order at most
on each side of a ticker, and the matching engine has executed, for the client, no more than its
limit, nor will if it executes any part of the orders that it has or gets.

**Proof sketch.** The limit holds in the client's own system (`Refines.limit`), whose position counts
the executions that it has heard of; with those on their way it is what the matching engine told the
client (`Accounted.exact`). -/
theorem limited_of_run
    (hcfg : ∀ k, (setups k).Plays → ∀ t, ((setups k).riskCfg t).maxOrderSize < 2 ^ 31 ∧
      ((setups k).riskCfg t).maxPosition < 2 ^ 31) {actions : List MarketAction}
    (h : Meets (Market.step setups) (Admits setups) (start openVwap) actions) :
    Safe (fun _ => True)
      (fun m => ∃ v : ℕ → View MEOrder, (∀ t, BookInvariant (m.exchange.alone t) (v t)) ∧
        ∀ k, (setups k).Plays → ∀ t, Limited ((setups k).riskCfg t).maxPosition m k t (v t))
      (actions.foldlM (Market.step setups) (start openVwap)) := by
  refine (safe_run hcfg h).mono (fun _ => id) ?_
  rintro m ⟨⟨v, hm⟩, haccounted⟩
  refine ⟨v, hm.book, fun k hk t => ?_⟩
  obtain ⟨hone, hposition, hexecuted⟩ := hm.limit (hcfg k hk) hk haccounted.toAddressed t
  refine ⟨hone, hposition, ?_⟩
  rw [haccounted.exact t k hk]
  exact hexecuted

/-- The market maker has bought what it bid for in part. -/
theorem limited_of_run_sample :
    ∃ m, sampleRun.foldlM (Market.step sampleSetups) (start fun _ _ _ => 0) = .ok m ∧
      ∃ v : ℕ → View MEOrder, (∀ t, BookInvariant (m.exchange.alone t) (v t)) ∧
        ∀ k, (sampleSetups k).Plays → ∀ t,
          Limited ((sampleSetups k).riskCfg t).maxPosition m k t (v t) :=
  (limited_of_run sampleSetups_limits meets_sampleRun).exists_of_isOk (by decide +kernel)

/-- **The positions of all clients cancel out.** In every run of admissible steps, with `add` through line
105 and limits below `2 ^ 31`, the positions in a ticker of all clients to whom anything was told add
up to nothing when the executions on their way are counted, as numbers of 32 bits; and without
wrapping around if all of them have one of the algorithms.

**Proof sketch.** What was told about a ticker adds up to nothing over all clients (`balanced_of_run`
in the market), a position counts what was told modulo `2 ^ 32`, and exactly where the limit keeps it
from wrapping around. -/
theorem cancel_of_run
    (hcfg : ∀ k, (setups k).Plays → ∀ t, ((setups k).riskCfg t).maxOrderSize < 2 ^ 31 ∧
      ((setups k).riskCfg t).maxPosition < 2 ^ 31) {actions : List MarketAction}
    (h : Meets (Market.step setups) (Admits setups) (start openVwap) actions) :
    Safe (fun _ => True)
      (fun m => ∀ t (clients : Finset ℕ), (∀ r ∈ m.told, r.tickerId = t → r.clientId ∈ clients) →
        ∑ k ∈ clients, m.counted t k ≡ 0 [ZMOD 2 ^ 32] ∧
          ((∀ k ∈ clients, (setups k).Plays) → ∑ k ∈ clients, m.counted t k = 0))
      (actions.foldlM (Market.step setups) (start openVwap)) := by
  refine (safe_run hcfg h).mono (fun _ => id) ?_
  rintro m ⟨-, haccounted⟩ t clients hclients
  have hsum : ∑ k ∈ clients, netOf t m.told k = 0 :=
    (sum_netOf hclients).trans (congrArg Prod.fst (haccounted.settled t).1)
  refine ⟨?_, fun hplays => ?_⟩
  · rw [← hsum]
    exact (Int.ModEq.sum fun k _ => haccounted.wraps t k).symm
  · rw [← hsum]
    exact Finset.sum_congr rfl fun k hk => (haccounted.exact t k (hplays k hk)).symm

/-- The positions of the sample cancel out. -/
theorem cancel_of_run_sample :
    ∃ m, sampleRun.foldlM (Market.step sampleSetups) (start fun _ _ _ => 0) = .ok m ∧
      ∀ t (clients : Finset ℕ), (∀ r ∈ m.told, r.tickerId = t → r.clientId ∈ clients) →
        ∑ k ∈ clients, m.counted t k ≡ 0 [ZMOD 2 ^ 32] ∧
          ((∀ k ∈ clients, (sampleSetups k).Plays) → ∑ k ∈ clients, m.counted t k = 0) :=
  (cancel_of_run sampleSetups_limits meets_sampleRun).exists_of_isOk (by decide +kernel)

end Runs

end Market

end Trading
