import HftSystem.Exchange.BookLifetime
import HftSystem.Exchange.FreshIds

set_option relaxedAutoImplicit false
set_option autoImplicit false

/-!
# The random algorithm

The loop of `main` in `trading/trading_main.cpp` that sends random orders and cancels some of them.
`rand()` may return anything, and the requests of any number of such clients may reach the matching
engine in any order. The prices lie so close together that no two of them share an entry of the table
of levels, and no id is used twice. So the only thing that can go wrong is that a book comes to the end
of its blocks.

## Main definitions

* `Trading.RandomTrader` — the variables of the loop, with `Trading.RandomTrader.round`, one round.
* `Trading.IsRandom` — what every request of the loop looks like.
* `Trading.RandomTraffic` — the requests of all clients, in any order.

## Main results

* `Trading.RandomTrader.Sound.round` — what a round keeps.
* `Trading.random_run` — every run of the matching engine on such requests.
-/

namespace Trading

open Common Exchange LimitOrderBook PriceTime Fallible MEOrderBook

/-! ## The loop -/

/-- The variables of the loop, and the requests it has sent. -/
structure RandomTrader where
  orderId : ℕ
  clientRequestsVec : List MEClientRequest := []
  sent : List MEClientRequest := []

/-- `ticker_base_price`, from the first calls of `rand()`. -/
def tickerBasePrice (rand : ℕ → ℕ) (i : ℕ) : ℤ := ((rand i % 100 : ℕ) : ℤ) + 100

/-- A round of the loop, which calls `rand()` five times. -/
def RandomTrader.round (rand : ℕ → ℕ) (clientId : ℕ) (s : RandomTrader) (i : ℕ) : RandomTrader :=
  let call j := rand (meMaxTickers + 5 * i + j)
  let tickerId := call 0 % meMaxTickers
  let price := tickerBasePrice rand tickerId + ((call 1 % 10 : ℕ) : ℤ) + 1
  let qty := 1 + call 2 % 100 + 1
  let side := if call 3 % 2 ≠ 0 then Side.buy else Side.sell
  let newRequest : MEClientRequest :=
    { type := .new, clientId, tickerId, orderId := s.orderId, side, price, qty }
  let clientRequestsVec := s.clientRequestsVec ++ [newRequest]
  let cxlIndex := call 4 % clientRequestsVec.length
  -- the index is in range
  let cxlRequest := { clientRequestsVec.getD cxlIndex newRequest with type := .cancel }
  { orderId := s.orderId + 1
    clientRequestsVec
    sent := s.sent ++ [newRequest, cxlRequest] }

/-- The first order id, a product of 32 bits. -/
def firstOrderId (clientId : ℕ) : ℕ := clientId * 1000 % 2 ^ 32

/-- Some rounds of the loop, which may break off after each one. -/
def randomTrader (rand : ℕ → ℕ) (clientId rounds : ℕ) : RandomTrader :=
  (List.range rounds).foldl (RandomTrader.round rand clientId) { orderId := firstOrderId clientId }

/-- The number of rounds at most. -/
def maxRounds : ℕ := 10000

/-! ## What it sends -/

/-- **What every request of the loop looks like**, with ids below a bound. -/
structure IsRandom (clientId bound : ℕ) (r : MEClientRequest) : Prop where
  client : r.clientId = clientId
  ticker : r.tickerId < meMaxTickers
  type : r.type ≠ .invalid
  side : r.side.IsBookSide
  price : 101 ≤ r.price ∧ r.price ≤ 209
  orderId : r.orderId < bound

/-- The bound of the ids may grow. -/
lemma IsRandom.mono {clientId bound bound' : ℕ} {r : MEClientRequest} (h : IsRandom clientId bound r)
    (hle : bound ≤ bound') : IsRandom clientId bound' r :=
  { h with orderId := h.orderId.trans_le hle }

/-- A request that is canceled. -/
lemma IsRandom.cancel {clientId bound : ℕ} {r : MEClientRequest} (h : IsRandom clientId bound r) :
    IsRandom clientId bound { r with type := .cancel } :=
  { h with type := by simp }

/-- **The loop after some rounds**: all of its requests look alike, and no id is used twice. -/
structure RandomTrader.Sound (clientId n : ℕ) (s : RandomTrader) : Prop where
  orderId : s.orderId = firstOrderId clientId + n
  held : ∀ r ∈ s.clientRequestsVec, IsRandom clientId s.orderId r
  sent : ∀ r ∈ s.sent, IsRandom clientId s.orderId r
  fresh : FreshIds s.sent

/-- **A round** keeps it: the new id is larger than all before.

**Proof sketch.** A round sends a NEW under the next id and a CANCEL of one of the orders that are
held, the new one included. So both requests are those of a random client, and the ids of the NEWs stay
apart because the new one is larger than all before. -/
lemma RandomTrader.Sound.round {clientId n : ℕ} {s : RandomTrader} (h : s.Sound clientId n)
    (rand : ℕ → ℕ) (i : ℕ) : (s.round rand clientId i).Sound clientId (n + 1) := by
  set s' := s.round rand clientId i
  obtain ⟨new, hvec, hsent, hid, htype, hnew⟩ : ∃ new,
      s'.clientRequestsVec = s.clientRequestsVec ++ [new] ∧
        s'.sent = s.sent ++ [new, { s'.clientRequestsVec.getD
          (rand (meMaxTickers + 5 * i + 4) % s'.clientRequestsVec.length) new with type := .cancel }] ∧
        new.orderId = s.orderId ∧ new.type = .new ∧ IsRandom clientId (s.orderId + 1) new := by
    refine ⟨_, rfl, rfl, rfl, rfl, rfl, Nat.mod_lt _ (by decide), by simp, ?_, ?_, Nat.lt_succ_self _⟩
    · dsimp only
      split_ifs
      · exact .inl rfl
      · exact .inr rfl
    · unfold tickerBasePrice
      dsimp only
      omega
  have hnext : s'.orderId = s.orderId + 1 := rfl
  have hheld : ∀ r ∈ s'.clientRequestsVec, IsRandom clientId s'.orderId r := by
    rw [hvec, hnext]
    intro r hr
    rcases List.mem_append.mp hr with hr | hr
    · exact (h.held r hr).mono (Nat.le_succ _)
    · rw [List.mem_singleton.mp hr]
      exact hnew
  have hcancel : ∀ j, IsRandom clientId s'.orderId
      { s'.clientRequestsVec.getD j new with type := .cancel } := by
    intro j
    refine IsRandom.cancel ?_
    rw [List.getD_eq_getElem?_getD]
    cases hget : s'.clientRequestsVec[j]? with
    | none => exact hnew
    | some r => exact hheld r (List.mem_of_getElem? hget)
  refine ⟨?_, hheld, ?_, ?_⟩
  · rw [hnext, h.orderId, Nat.add_assoc]
  · rw [hsent]
    intro r hr
    rcases List.mem_append.mp hr with hr | hr
    · exact (h.sent r hr).mono (Nat.le_succ _)
    · rcases List.mem_pair.mp hr with rfl | rfl
      · exact hnew
      · exact hcancel _
  · rw [hsent]
    refine List.pairwise_append.mpr ⟨h.fresh, List.pairwise_pair.mpr ?_, ?_⟩
    · intro _ hcxl
      cases hcxl
    · intro r hr r' hr' _ htype' _ _
      rcases List.mem_pair.mp hr' with rfl | rfl
      · rw [hid]
        exact (h.sent r hr).orderId.ne
      · cases htype'

/-- **The loop**, by its rounds. -/
lemma sound_randomTrader (rand : ℕ → ℕ) (clientId n : ℕ) :
    (randomTrader rand clientId n).Sound clientId n := by
  induction n with
  | zero => exact ⟨rfl, by simp [randomTrader], by simp [randomTrader], List.Pairwise.nil⟩
  | succ n ih =>
    unfold randomTrader
    rw [List.range_succ, List.foldl_concat]
    exact ih.round rand n

/-! ## The traffic of all clients -/

/-- **The requests of all clients, in any order**: those of each one are the first that its loop sends. -/
def RandomTraffic (rand : ℕ → ℕ → ℕ) (requests : List MEClientRequest) : Prop :=
  ∀ clientId, ∃ rounds ≤ maxRounds,
    (requests.filter fun r => r.clientId = clientId) <+: (randomTrader (rand clientId) clientId rounds).sent

section Traffic

variable {rand : ℕ → ℕ → ℕ} {requests : List MEClientRequest} (h : RandomTraffic rand requests)

include h

/-- Every request is one of its client's loop. -/
lemma RandomTraffic.isRandom {r : MEClientRequest} (hr : r ∈ requests) :
    IsRandom r.clientId (firstOrderId r.clientId + maxRounds) r := by
  obtain ⟨rounds, hle, hpre⟩ := h r.clientId
  have hsound := sound_randomTrader (rand r.clientId) r.clientId rounds
  have hsent := hsound.sent r (hpre.subset (List.mem_filter.mpr ⟨hr, by simp⟩))
  refine hsent.mono ?_
  rw [hsound.orderId]
  exact Nat.add_le_add_left hle _

/-- No id is used twice. -/
lemma RandomTraffic.freshIds : FreshIds requests := by
  refine freshIds_of_clients fun clientId => ?_
  obtain ⟨rounds, -, hpre⟩ := h clientId
  exact List.Pairwise.sublist hpre.sublist (sound_randomTrader (rand clientId) clientId rounds).fresh

/-- The prices lie closer together than the entries of the table of levels. -/
lemma RandomTraffic.meets_engineAdmissible :
    Meets (EngineState.process MEOrderBook.addAnnounced) EngineAdmissible {} requests := by
  refine Exchange.meets_engineAdmissible (fun r hr => (h.isRandom hr).ticker)
    (fun r hr => (h.isRandom hr).type) (fun r hr _ => (h.isRandom hr).side) fun r hr r' hr' => ?_
  have hr := (h.isRandom hr).price
  have hr' := (h.isRandom hr').price
  by_cases heq : r.price = r'.price
  · exact .inl heq
  · right
    intro hmod
    obtain ⟨k, hk⟩ := hmod.dvd
    have hlevels : ((meMaxPriceLevels : ℕ) : ℤ) = 256 := rfl
    rw [hlevels] at hk
    omega

/-- The ids have entries in the table of orders. -/
lemma RandomTraffic.inRange (hclient : ∀ r ∈ requests, r.clientId < meMaxNumClients) :
    ∀ r ∈ requests, InRange r := by
  intro r hr
  have hlt := hclient r hr
  refine ⟨hlt, (h.isRandom hr).orderId.trans_le ?_⟩
  have hclients : meMaxNumClients = 256 := rfl
  have hids : meMaxOrderIds = 1048576 := rfl
  have hrounds : maxRounds = 10000 := rfl
  rw [firstOrderId, Nat.mod_eq_of_lt (by omega)]
  omega

end Traffic

/-- **Every run on the requests of random clients**, with `add` through line 105. It completes exactly if
each request finds the blocks that it needs, and reads behind the store of a pool otherwise. Every
book keeps its invariant, and every order that rests can be canceled.

**Proof sketch.** The prices of a random client all lie in one window that is shorter than the table
of levels, so its requests are admissible; its ids are in range and never repeat. The engine then
lasts as long as its pools do (`EngineLasting.safe_process`), and fresh ids keep the table of orders
exact (`safe_keyed`). -/
theorem random_run {rand : ℕ → ℕ → ℕ} {requests : List MEClientRequest}
    (hclient : ∀ r ∈ requests, r.clientId < meMaxNumClients) (h : RandomTraffic rand requests) :
    Safe (fun f => f = .overrun ∧ ¬ Meets (EngineState.process MEOrderBook.addAnnounced)
        (fun x r => HasBlocks (x.alone r.tickerId) r) {} requests)
      (fun x => Meets (EngineState.process MEOrderBook.addAnnounced)
          (fun x r => HasBlocks (x.alone r.tickerId) r) {} requests ∧
        ∀ t, (∃ v, BookInvariant (x.tickerOrderBook t) v) ∧ Cancelable (x.tickerOrderBook t))
      (requests.foldlM (EngineState.process MEOrderBook.addAnnounced) {}) := by
  have hlasting := safe_foldlM_iff_meets (D := fun x r => EngineAdmissible x r ∧ InRange r)
    (fun x r (hx : EngineLasting x) hr => (hx.safe_process hr.1 hr.2).mono (fun _ hf => hf)
      fun _ hx' => ⟨hx'.1.1, hx'.2⟩) engineLasting_new
    (h.meets_engineAdmissible.and_forall (h.inRange hclient))
  refine (hlasting.and (safe_keyed h.freshIds)).mono (fun _ hf => hf.1) ?_
  rintro x ⟨⟨hx, hmeets⟩, hkeyed⟩
  refine ⟨hmeets, fun t => ⟨?_, ?_⟩⟩
  · obtain ⟨⟨v, hv⟩, -⟩ := hx t
    exact ⟨v, hv.of_alone⟩
  · exact cancelable_of_indexed (b := x.tickerOrderBook t) (hkeyed t).indexed

/-- Calls of `rand()`. -/
def sampleRand (clientId i : ℕ) : ℕ := 7 * i * i + 3 * i + clientId

/-- Two rounds of one client, with one round of another one in between. -/
def sampleTraffic : List MEClientRequest :=
  (randomTrader (sampleRand 1) 1 2).sent.take 3 ++ (randomTrader (sampleRand 2) 2 1).sent ++
    (randomTrader (sampleRand 1) 1 2).sent.drop 3

/-- The requests of the sample are those of random clients. -/
lemma randomTraffic_sampleTraffic : RandomTraffic sampleRand sampleTraffic := by
  intro clientId
  by_cases hfirst : clientId = 1
  · subst hfirst
    exact ⟨2, by decide, by decide +kernel⟩
  by_cases hsecond : clientId = 2
  · subst hsecond
    exact ⟨1, by decide, by decide +kernel⟩
  have hclients : ∀ r ∈ sampleTraffic, r.clientId = 1 ∨ r.clientId = 2 := by decide +kernel
  refine ⟨0, by decide, ?_⟩
  rw [List.filter_eq_nil_iff.mpr fun r hr => ?_]
  · exact List.nil_prefix
  · rcases hclients r hr with hr | hr
    · simp [hr, Ne.symm hfirst]
    · simp [hr, Ne.symm hsecond]

/-- The run on the sample completes. -/
theorem random_run_sample :
    ∃ x, sampleTraffic.foldlM (EngineState.process MEOrderBook.addAnnounced) {} = .ok x ∧
      ∀ t, (∃ v, BookInvariant (x.tickerOrderBook t) v) ∧ Cancelable (x.tickerOrderBook t) :=
  have ⟨x, hx, _, hbooks⟩ :=
    (random_run (by decide +kernel) randomTraffic_sampleTraffic).exists_of_isOk (by decide +kernel)
  ⟨x, hx, hbooks⟩

end Trading
