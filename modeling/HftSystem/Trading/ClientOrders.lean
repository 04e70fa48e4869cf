import HftSystem.Exchange.BookRule
import HftSystem.Trading.PositionLimit
import HftSystem.Trading.TradeEngine

set_option relaxedAutoImplicit false
set_option autoImplicit false

/-!
# The matching engine, as one client sees it

What the matching engine does while it processes a request looks to every client like steps of the
exchange of `OrderExchange`: its own request is taken, and its open orders execute. To the client
that sent the request, its order is open as soon as it is accepted, while in the book it only rests
when it has executed; and the market order ids, of which an execution tells only the lower 32 bits,
are left out.

## Main definitions

* `Trading.restingOf` — the orders of a client that rest in a book.
* `Trading.Opens` — the open orders of a system, by ticker.
* `Trading.Reaches` — a run of the system of one client.
* `Trading.KeepsUp` — a client's system that keeps up with a request.

## Main results

* `Trading.KeepsUp.fill` — one execution.
* `Trading.maintains_keepsUp` — a whole request.
-/

namespace Trading

open Common Exchange LimitOrderBook PriceTime Fallible MEOrderBook

/-! ## What a client knows -/

/-- A response without the market order id. -/
def unnumbered (r : MEClientResponse) : MEClientResponse := { r with marketOrderId := OrderId.invalid }

/-- An order as its client knows it. -/
def bare (o : MEOrder) : MEOrder :=
  { o with marketOrderId := OrderId.invalid, priority := Priority.invalid }

/-- **The orders of a client that rest in a book.** -/
def restingOf (k : ℕ) (v : View MEOrder) : List MEOrder :=
  ((orders v.levels).map fun x => bare x.2).filter fun o => o.clientId = k

/-- The responses that a client hears. -/
def heard (k : ℕ) (responses : List MEClientResponse) : List MEClientResponse :=
  (responses.filter fun r => r.clientId = k).map unnumbered

/-- What a client hears of two lists of responses. -/
lemma heard_append (k : ℕ) (rs rs' : List MEClientResponse) :
    heard k (rs ++ rs') = heard k rs ++ heard k rs' := by
  simp [heard]

/-- A client hears the responses that name it. -/
lemma heard_singleton (k : ℕ) (r : MEClientResponse) :
    heard k [r] = if r.clientId = k then [unnumbered r] else [] := by
  unfold heard
  by_cases h : r.clientId = k <;> simp [h]

/-- The orders of a client, one more order being there. -/
lemma restingOf_of_perm {k : ℕ} {v : View MEOrder} {x : Ptr × MEOrder} {xs : List (Ptr × MEOrder)}
    (h : (orders v.levels).Perm (x :: xs)) :
    (restingOf k v).Perm ((if x.2.clientId = k then [bare x.2] else []) ++
      (xs.map fun x => bare x.2).filter fun o => o.clientId = k) := by
  unfold restingOf
  refine ((h.map _).filter _).trans (List.Perm.of_eq ?_)
  have hbare : (bare x.2).clientId = x.2.clientId := rfl
  by_cases hk : x.2.clientId = k <;> simp [hbare, hk]

/-! ## Open orders by ticker -/

/-- **The open orders of a system**, by ticker. -/
def Opens (s : System) (l : ℕ → List MEOrder) : Prop :=
  ∀ t, (s.openOrders.filter fun o => o.tickerId = t).Perm (l t)

/-- What is left of an order. -/
def leftOf (o : MEOrder) (execQty : ℕ) : List MEOrder :=
  if o.qty - execQty = 0 then [] else [{ o with qty := o.qty - execQty }]

/-- The response to an execution. -/
def filledResponse (o : MEOrder) (execQty : ℕ) (price : ℤ) : MEClientResponse :=
  { type := .filled, clientId := o.clientId, tickerId := o.tickerId, clientOrderId := o.clientOrderId,
    marketOrderId := o.marketOrderId, side := o.side, price, execQty, leavesQty := o.qty - execQty }

/-- **The orders of a client and an execution**, which leaves of the first order what is left of it. -/
lemma exists_restingOf_afterMatch (k : ℕ) {v : View MEOrder} {side : Side} {l : Level MEOrder}
    {ls : List (Level MEOrder)} {p : Ptr} {o : MEOrder} {q : List (Ptr × MEOrder)}
    (hside : v.side side = l :: ls) (hq : l.queue = (p, o) :: q) (leavesQty : ℕ) :
    ∃ rest, (restingOf k v).Perm ((if o.clientId = k then [bare o] else []) ++ rest) ∧
      (restingOf k (afterMatch v side l ls p o q leavesQty)).Perm
        ((if o.clientId = k then leftOf (bare o) (min leavesQty o.qty) else []) ++ rest) := by
  obtain ⟨rest, hbefore, hafter⟩ := exists_orders_afterMatch hside hq leavesQty
  refine ⟨_, restingOf_of_perm hbefore, ?_⟩
  unfold leftOf
  have hqty : (bare o).qty = o.qty := rfl
  by_cases hle : o.qty ≤ leavesQty
  · have hnone : o.qty - min leavesQty o.qty = 0 := by omega
    rw [if_pos hle, List.nil_append] at hafter
    simp only [hqty, hnone, if_true, ite_self, List.nil_append]
    exact (hafter.map _).filter _
  · have hleft : o.qty - min leavesQty o.qty = o.qty - leavesQty := by omega
    have hsome : o.qty - leavesQty ≠ 0 := by omega
    rw [if_neg hle, List.singleton_append] at hafter
    simp only [hqty, hleft, if_neg hsome]
    exact restingOf_of_perm hafter

section Opens

variable {s s' : System} {l : ℕ → List MEOrder} {t : ℕ} {o : MEOrder}
  {os rest pre post : List MEOrder}

/-- An order that is open. -/
lemma Opens.exists_split (h : Opens s l) (hl : (l t).Perm (o :: rest)) :
    o.tickerId = t ∧ ∃ pre post, s.openOrders = pre ++ o :: post := by
  have hmem : o ∈ s.openOrders.filter fun o => o.tickerId = t :=
    (h t).mem_iff.mpr (hl.mem_iff.mpr List.mem_cons_self)
  obtain ⟨hmem, ho⟩ := List.mem_filter.mp hmem
  exact ⟨of_decide_eq_true ho, List.append_of_mem hmem⟩

/-- **An open order is replaced** by others of its ticker. -/
lemma Opens.replace (h : Opens s l) (hopen : s.openOrders = pre ++ o :: post)
    (hl : (l t).Perm (o :: rest)) (ho : o.tickerId = t) (hos : ∀ o' ∈ os, o'.tickerId = t)
    (hs' : s'.openOrders = pre ++ (os ++ post)) : Opens s' (Function.update l t (os ++ rest)) := by
  have hsplit : ∀ t' (os : List MEOrder),
      ((pre ++ (os ++ post)).filter fun o => o.tickerId = t').Perm
        ((os.filter fun o => o.tickerId = t') ++ ((pre ++ post).filter fun o => o.tickerId = t')) := by
    intro t' os
    rw [List.filter_append, List.filter_append, List.filter_append, ← List.append_assoc,
      ← List.append_assoc]
    exact List.perm_append_comm.append_right _
  intro t'
  rw [hs']
  refine (hsplit t' os).trans ?_
  by_cases ht : t' = t
  · subst ht
    rw [Function.update_self, List.filter_eq_self.mpr fun o' ho' => decide_eq_true (hos o' ho')]
    refine List.Perm.append_left os (List.Perm.cons_inv (a := o) ?_)
    have hold := (h t').trans hl
    rw [hopen, ← List.singleton_append] at hold
    refine List.Perm.trans ?_ hold
    refine ((hsplit t' [o]).trans (List.Perm.of_eq ?_)).symm
    rw [List.filter_eq_self.mpr (by simpa using ho)]
    rfl
  · rw [Function.update_of_ne ht, List.filter_eq_nil_iff.mpr fun o' ho' => by
      simpa [hos o' ho'] using Ne.symm ht, List.nil_append]
    have hold := h t'
    rw [hopen, ← List.singleton_append] at hold
    refine List.Perm.trans ?_ hold
    refine ((hsplit t' [o]).trans (List.Perm.of_eq ?_)).symm
    rw [List.filter_eq_nil_iff.mpr (by simpa [ho] using Ne.symm ht), List.nil_append]

/-- An order is opened, if it has a quantity. -/
lemma Opens.append (h : Opens s l) (hos : ∀ o' ∈ os, o'.tickerId = t)
    (hs' : s'.openOrders = s.openOrders ++ os) : Opens s' (Function.update l t (os ++ l t)) := by
  intro t'
  rw [hs', List.filter_append]
  refine List.perm_append_comm.trans ?_
  by_cases ht : t' = t
  · subst ht
    rw [Function.update_self, List.filter_eq_self.mpr fun o' ho' => decide_eq_true (hos o' ho')]
    exact (h t').append_left os
  · rw [Function.update_of_ne ht, List.filter_eq_nil_iff.mpr fun o' ho' => by
      simpa [hos o' ho'] using Ne.symm ht]
    exact h t'

/-- The open orders of a ticker may be listed in another order. -/
lemma Opens.perm (h : Opens s l) {l' : ℕ → List MEOrder} (hl : ∀ t, (l t).Perm (l' t)) : Opens s l' :=
  fun t => (h t).trans (hl t)

/-- **An open order executes.** -/
lemma fill_at (hopen : s.openOrders = pre ++ o :: post) {execQty : ℕ} (hpos : 0 < execQty)
    (hle : execQty ≤ o.qty) (price : ℤ) : s.fill pre.length execQty price =
      { s with openOrders := pre ++ (leftOf o execQty ++ post) }.respond
        (filledResponse o execQty price) := by
  have hat : s.openOrders[pre.length]? = some o := by
    rw [hopen]
    simp
  unfold System.fill leftOf
  rw [hat]
  simp only [hpos, hle, and_self, if_true]
  congr 2
  rw [hopen]
  split_ifs
  · simp [List.eraseIdx_append_of_length_le]
  · simp

end Opens

/-! ## Runs of the client's system -/

section KeepsUp

variable {F : Type} [Double F] (setup : TradeEngineSetup F)

/-- **A run of the system of one client** leads from one state to the other. -/
def Reaches (s s' : TradeSystem F) : Prop :=
  ∃ actions : List TradeAction,
    actions.foldlM (TradeSystem.step setup.ifBody setup.overload setup.riskCfg) s = .ok s'

variable {setup}

/-- The empty run. -/
lemma Reaches.refl (s : TradeSystem F) : Reaches setup s s := ⟨[], rfl⟩

/-- A run may take one more step. -/
lemma Reaches.step {s s' s'' : TradeSystem F} (h : Reaches setup s s') (action : TradeAction)
    (ha : s'.step setup.ifBody setup.overload setup.riskCfg action = .ok s'') :
    Reaches setup s s'' := by
  obtain ⟨actions, hactions⟩ := h
  refine ⟨actions ++ [action], ?_⟩
  rw [List.foldlM_append, hactions]
  simpa using ha

/-- Two runs in a row are one. -/
lemma Reaches.trans {s s' s'' : TradeSystem F} (h : Reaches setup s s') (h' : Reaches setup s' s'') :
    Reaches setup s s'' := by
  obtain ⟨actions, hactions⟩ := h
  obtain ⟨actions', hactions'⟩ := h'
  refine ⟨actions ++ actions', ?_⟩
  rw [List.foldlM_append, hactions]
  exact hactions'

/-- **The system of a client keeps up** with what the matching engine does to a request about the
ticker `t`: it has been led to `s`, has heard the responses `new`, and the client's orders of the
ticker are `mine`. -/
structure KeepsUp (setup : TradeEngineSetup F) (k t : ℕ) (s₀ : TradeSystem F) (om : OrderManager)
    (l₀ : ℕ → List MEOrder) (new : List MEClientResponse) (mine : List MEOrder) (s : TradeSystem F) :
    Prop where
  reaches : Reaches setup s₀ s
  orderManager : s.orderManager = om
  positionKeeper : s.positionKeeper = s₀.positionKeeper
  responses : s.responses = s₀.responses ++ heard k new
  opens : Opens s.toSystem (Function.update l₀ t mine)

section Steps

variable {k t : ℕ} {s₀ s : TradeSystem F} {om : OrderManager} {l₀ : ℕ → List MEOrder}
  {new : List MEClientResponse} {mine rest : List MEOrder}

/-- The order in which the orders are listed does not matter. -/
lemma KeepsUp.perm (h : KeepsUp setup k t s₀ om l₀ new mine s) {mine' : List MEOrder}
    (hmine : mine.Perm mine') : KeepsUp setup k t s₀ om l₀ new mine' s where
  reaches := h.reaches
  orderManager := h.orderManager
  positionKeeper := h.positionKeeper
  responses := h.responses
  opens := h.opens.perm fun t' => by
    by_cases ht : t' = t
    · subst ht
      simpa using hmine
    · simp [Function.update_of_ne ht]

/-- A response to another client. -/
lemma KeepsUp.skip (h : KeepsUp setup k t s₀ om l₀ new mine s) {r : MEClientResponse}
    (hr : r.clientId ≠ k) : KeepsUp setup k t s₀ om l₀ (new ++ [r]) mine s where
  reaches := h.reaches
  orderManager := h.orderManager
  positionKeeper := h.positionKeeper
  responses := by rw [heard_append, heard_singleton, if_neg hr, List.append_nil, h.responses]
  opens := h.opens

/-- **An execution**, of an order of the client or of another one. -/
theorem KeepsUp.fill (h : KeepsUp setup k t s₀ om l₀ new mine s) {o : MEOrder}
    (hmine : mine.Perm ((if o.clientId = k then [o] else []) ++ rest)) {execQty : ℕ}
    (hpos : 0 < execQty) (hle : execQty ≤ o.qty) {price : ℤ} {r : MEClientResponse}
    (hclient : r.clientId = o.clientId)
    (hr : o.tickerId = t → unnumbered r = filledResponse o execQty price) :
    ∃ s', KeepsUp setup k t s₀ om l₀ (new ++ [r])
      ((if o.clientId = k then leftOf o execQty else []) ++ rest) s' := by
  by_cases hk : o.clientId = k
  · rw [if_pos hk] at hmine ⊢
    have hmine' : (Function.update l₀ t mine t).Perm (o :: rest) := by simpa using hmine
    obtain ⟨ho, pre, post, hopen⟩ := h.opens.exists_split hmine'
    have hfill := fill_at hopen hpos hle price
    have hleft : ∀ o' ∈ leftOf o execQty, o'.tickerId = t := by
      intro o' ho'
      unfold leftOf at ho'
      split_ifs at ho'
      · cases ho'
      · rw [List.mem_singleton.mp ho']
        exact ho
    refine ⟨{ s with toSystem := s.fill pre.length execQty price }, ?_, ?_, h.positionKeeper, ?_, ?_⟩
    · exact h.reaches.step (.fill pre.length execQty price) rfl
    · rw [hfill]
      exact h.orderManager
    · rw [hfill, heard_append, heard_singleton, if_pos (hclient.trans hk), hr ho]
      show s.responses ++ [filledResponse o execQty price] = _
      rw [h.responses, List.append_assoc]
    · have hopen' : (s.fill pre.length execQty price).openOrders =
          pre ++ (leftOf o execQty ++ post) := by
        rw [hfill]
        rfl
      have hreplaced := h.opens.replace hopen hmine' ho hleft hopen'
      rwa [Function.update_idem] at hreplaced
  · rw [if_neg hk, List.nil_append] at hmine ⊢
    exact ⟨s, (h.perm hmine).skip fun hr' => hk (hclient.symm.trans hr')⟩

end Steps

/-! ## Requests -/

/-- The order of a request while it executes. -/
def incoming (r : MEClientRequest) (qty : ℕ) : MEOrder :=
  { tickerId := r.tickerId, clientId := r.clientId, clientOrderId := r.orderId, side := r.side,
    price := r.price, qty }

/-- The order of a request, if it has a quantity left. -/
def openPart (r : MEClientRequest) (qty : ℕ) : List MEOrder := if qty = 0 then [] else [incoming r qty]

/-- The two responses of an execution. -/
lemma fillResponses_eq (r : MEClientRequest) (o : MEOrder) (newMarketOrderId leavesQty : ℕ) :
    ∃ r₁ r₂, fillResponses r.clientId r.orderId r.tickerId r.side newMarketOrderId
        ⟨o, min leavesQty o.qty, leavesQty - o.qty⟩ = [r₁, r₂] ∧
      (r₁.clientId = r.clientId ∧
        unnumbered r₁ = filledResponse (incoming r leavesQty) (min leavesQty o.qty) o.price) ∧
      r₂.clientId = o.clientId ∧ (o.tickerId = r.tickerId →
        unnumbered r₂ = filledResponse (bare o) (min leavesQty o.qty) o.price) := by
  refine ⟨_, _, rfl, ⟨rfl, ?_⟩, rfl, fun hticker => ?_⟩
  · have hleft : leavesQty - o.qty = leavesQty - min leavesQty o.qty := by omega
    unfold unnumbered
    simp only [hleft]
    rfl
  · unfold unnumbered
    simp only [← hticker]
    rfl

/-- What an execution leaves of an incoming order. -/
lemma leftOf_incoming (r : MEClientRequest) (qty execQty : ℕ) :
    leftOf (incoming r qty) execQty = openPart r (qty - execQty) := rfl

section Requests

variable {k : ℕ} {s₀ : TradeSystem F} {l₀ : ℕ → List MEOrder} {r : MEClientRequest}
  {requests : List MEClientRequest}

/-- Nothing has happened. -/
lemma keepsUp_start (h : Opens s₀.toSystem l₀) (t : ℕ) :
    KeepsUp setup k t s₀ s₀.orderManager l₀ [] (l₀ t) s₀ where
  reaches := .refl s₀
  orderManager := rfl
  positionKeeper := rfl
  responses := (List.append_nil _).symm
  opens := by rwa [Function.update_eq_self]

/-- **The client's own order is accepted.** -/
lemma keepsUp_accept (h : Opens s₀.toSystem l₀) (hrequests : s₀.orderManager.requests = r :: requests)
    (htype : r.type = .new) (hclient : r.clientId = k) (marketOrderId : ℕ) :
    ∃ s, KeepsUp setup k r.tickerId s₀ (s₀.leave requests).orderManager l₀
      [{ type := .accepted, clientId := r.clientId, tickerId := r.tickerId,
         clientOrderId := r.orderId, marketOrderId, side := r.side, price := r.price, execQty := 0,
         leavesQty := r.qty }]
      (openPart r r.qty ++ l₀ r.tickerId) s := by
  have htake : s₀.takeRequest OrderId.invalid = (s₀.leave requests).accept r OrderId.invalid := by
    unfold System.takeRequest
    rw [hrequests]
    simp only [htype]
  refine ⟨{ s₀ with toSystem := s₀.takeRequest OrderId.invalid }, ?_, ?_, rfl, ?_, ?_⟩
  · exact (Reaches.refl s₀).step (.takeRequest OrderId.invalid) rfl
  · rw [htake]
    rfl
  · rw [htake, heard_singleton, if_pos hclient]
    rfl
  · have hopen : ((s₀.leave requests).accept r OrderId.invalid).openOrders =
        s₀.openOrders ++ openPart r r.qty := by
      unfold openPart
      by_cases hqty : r.qty = 0
      · rw [if_pos hqty, List.append_nil]
        exact if_pos hqty
      · rw [if_neg hqty]
        exact if_neg hqty
    rw [htake]
    refine h.append (fun o ho => ?_) hopen
    unfold openPart at ho
    split_ifs at ho
    · cases ho
    · rw [List.mem_singleton.mp ho]
      rfl

/-- **The client's own CANCEL is rejected.** -/
lemma keepsUp_reject (h : Opens s₀.toSystem l₀) (hrequests : s₀.orderManager.requests = r :: requests)
    (htype : r.type = .cancel) (hclient : r.clientId = k) :
    ∃ s, KeepsUp setup k r.tickerId s₀ (s₀.leave requests).orderManager l₀
      [{ type := .cancelRejected, clientId := r.clientId, tickerId := r.tickerId,
         clientOrderId := r.orderId }] (l₀ r.tickerId) s := by
  have hreject : TradeSystem.rejectCancel s₀.toSystem = (s₀.leave requests).reject r := by
    unfold TradeSystem.rejectCancel
    rw [hrequests]
    exact if_pos htype
  refine ⟨{ s₀ with toSystem := TradeSystem.rejectCancel s₀.toSystem }, ?_, ?_, rfl, ?_, ?_⟩
  · exact (Reaches.refl s₀).step .rejectCancel rfl
  · rw [hreject]
    rfl
  · rw [hreject, heard_singleton, if_pos hclient]
    rfl
  · rw [hreject, Function.update_eq_self]
    exact h

/-- **The client's own CANCEL takes its order out**, if the order is the only one that it names.

**Proof sketch.** The system of the client looks the order up as the exchange does, by its ticker and
its id. It finds the order that the request names since there is no other, takes it out and answers
with what is left of it, which is what the exchange sends. -/
lemma keepsUp_cancel (h : Opens s₀.toSystem l₀) (hrequests : s₀.orderManager.requests = r :: requests)
    (htype : r.type = .cancel) (hclient : r.clientId = k)
    (hunique : ∀ o ∈ s₀.openOrders, ∀ o' ∈ s₀.openOrders, System.Names r o → System.Names r o' →
      o = o')
    {o : MEOrder} {rest : List MEOrder} (hl : (l₀ r.tickerId).Perm (o :: rest))
    (ho : o.clientOrderId = r.orderId) {response : MEClientResponse}
    (hresponse : unnumbered response =
      { type := .canceled, clientId := r.clientId, tickerId := r.tickerId,
        clientOrderId := r.orderId, marketOrderId := OrderId.invalid, side := o.side,
        price := o.price, execQty := Qty.invalid, leavesQty := o.qty })
    (hnumber : o.marketOrderId = OrderId.invalid) :
    ∃ s, KeepsUp setup k r.tickerId s₀ (s₀.leave requests).orderManager l₀ [response] rest s := by
  obtain ⟨hticker, pre₀, post₀, hopen₀⟩ := h.exists_split hl
  have hnames : System.Names r o := ⟨hticker, ho⟩
  have hmem : o ∈ s₀.openOrders := by simp [hopen₀]
  -- the order that is found is the one that the request names
  obtain ⟨pre, post, hopen, hcancel⟩ : ∃ pre post, s₀.openOrders = pre ++ o :: post ∧
      (s₀.leave requests).cancel r = { s₀.leave requests with openOrders := pre ++ ([] ++ post) }.respond
        { type := .canceled, clientId := r.clientId, tickerId := o.tickerId,
          clientOrderId := o.clientOrderId, marketOrderId := o.marketOrderId, side := o.side,
          price := o.price, execQty := Qty.invalid, leavesQty := o.qty } := by
    have hfind : ∃ o', s₀.openOrders.find? (fun o => System.Names r o) = some o' :=
      Option.isSome_iff_exists.mp (List.find?_isSome.mpr ⟨o, hmem, by simpa using hnames⟩)
    obtain ⟨o', hfind⟩ := hfind
    have hfound := List.find?_eq_some_iff_append.mp hfind
    obtain ⟨hnames', pre, post, hopen, hpre⟩ := hfound
    obtain rfl : o' = o := hunique o' (by simp [hopen]) o hmem (by simpa using hnames') hnames
    refine ⟨pre, post, hopen, ?_⟩
    have hfind' : (s₀.leave requests).openOrders.find? (fun o => System.Names r o) = some o' := hfind
    unfold System.cancel
    rw [hfind']
    have herase : (s₀.leave requests).openOrders.eraseP (fun o => System.Names r o) =
        pre ++ ([] ++ post) := by
      show s₀.openOrders.eraseP _ = _
      rw [hopen, List.eraseP_append_right _ (fun o' ho' => by simpa using hpre o' ho')]
      exact congrArg (pre ++ ·) (List.eraseP_cons_of_pos hnames')
    simp only [herase]
  have htake : s₀.takeRequest OrderId.invalid = (s₀.leave requests).cancel r := by
    unfold System.takeRequest
    rw [hrequests]
    simp only [htype]
  have hresponded : response.clientId = r.clientId := congrArg MEClientResponse.clientId hresponse
  refine ⟨{ s₀ with toSystem := s₀.takeRequest OrderId.invalid }, ?_, ?_, rfl, ?_, ?_⟩
  · exact (Reaches.refl s₀).step (.takeRequest OrderId.invalid) rfl
  · rw [htake, hcancel]
    rfl
  · rw [htake, hcancel, heard_singleton, if_pos (hresponded.trans hclient), hresponse]
    show s₀.responses ++ [_] = _
    rw [hticker, ho, hnumber]
  · rw [htake, hcancel]
    have hnone : ∀ o' ∈ ([] : List MEOrder), o'.tickerId = r.tickerId := fun _ ho' =>
      absurd ho' List.not_mem_nil
    exact h.replace hopen hl hticker hnone rfl

end Requests

/-! ## A whole request -/

section Whole

variable (Plays : ℕ → Prop) (setups : ℕ → TradeEngineSetup F) (s₀ : ℕ → TradeSystem F)
  (l₀ : ℕ → ℕ → List MEOrder) (sent₀ : List MEClientResponse) (v₀ : View MEOrder)
  (r : MEClientRequest) (requests : List MEClientRequest)

/-- What a client has still to send after its request was taken. -/
def afterTaking (k : ℕ) : OrderManager :=
  if r.clientId = k then ((s₀ k).leave requests).orderManager else (s₀ k).orderManager

/-- **The systems of all clients keep up** with a book, while the request has the quantity
`leavesQty` left. -/
def AllKeepUp (b : MEOrderBook) (v : View MEOrder) (leavesQty : ℕ) : Prop :=
  ∃ new, b.sent = sent₀ ++ new ∧ ∀ k, Plays k → ∃ s,
    KeepsUp (setups k) k r.tickerId (s₀ k) (afterTaking s₀ r requests k) (l₀ k) new
      ((if r.clientId = k then openPart r leavesQty else []) ++ restingOf k v) s

/-- **A whole request** looks to every client like steps of its system.

**Proof sketch.** The five obligations, one by one. An acceptance opens the order in the system of its
client and is nothing to the others. An execution is two fills, of the incoming and of the resting
order, of which each belongs to the system of its own client. A remainder that comes to rest changes
the place of an open order only. A CANCEL closes the order that its key names, or none. What a client
hears is in each case what its system answers, up to the market order ids. -/
theorem maintains_keepsUp
    (hopens : ∀ k, Plays k → Opens (s₀ k).toSystem (l₀ k) ∧ l₀ k r.tickerId = restingOf k v₀)
    (hrequests : Plays r.clientId → (s₀ r.clientId).orderManager.requests = r :: requests ∧
      ∀ o ∈ (s₀ r.clientId).openOrders, ∀ o' ∈ (s₀ r.clientId).openOrders,
        System.Names r o → System.Names r o' → o = o') :
    Maintains r (fun b v => b.sent = sent₀ ∧ v = v₀)
      (fun _ b v leavesQty => AllKeepUp Plays setups s₀ l₀ sent₀ r requests b v leavesQty)
      fun b v => AllKeepUp Plays setups s₀ l₀ sent₀ r requests b v 0 where
  accept hnew b v h := by
    obtain ⟨rfl, rfl⟩ := h
    refine ⟨[_], rfl, fun k hk => ?_⟩
    obtain ⟨hopen, hl⟩ := hopens k hk
    unfold afterTaking
    by_cases hclient : r.clientId = k
    · subst hclient
      rw [if_pos rfl, if_pos rfl, ← hl]
      exact keepsUp_accept hopen (hrequests hk).1 hnew rfl b.nextMarketOrderId
    · rw [if_neg hclient, if_neg hclient, ← hl]
      exact ⟨s₀ k, (keepsUp_start hopen r.tickerId).skip hclient⟩
  fill n b b' v l ls p o q leavesQty hs hwf h hside hq hpos hengine := by
    obtain ⟨new, hsent, h⟩ := h
    have ho : 0 < o.qty := by
      obtain ⟨_, hbefore, -⟩ := exists_orders_afterMatch hside hq leavesQty
      exact hwf.positive (p, o) (hbefore.mem_iff.mpr List.mem_cons_self)
    have hleaves : leavesQty - min leavesQty o.qty = leavesQty - o.qty := by omega
    set responses := fillResponses r.clientId r.orderId r.tickerId r.side (n % 2 ^ 32)
      ⟨o, min leavesQty o.qty, leavesQty - o.qty⟩ with hresponses
    have hsent' : b'.sent = b.sent ++ responses :=
      congrArg MatchingEngine.outgoingOgwResponses hengine
    refine ⟨new ++ responses, by rw [hsent', hsent, List.append_assoc], fun k hk => ?_⟩
    obtain ⟨s, hs⟩ := h k hk
    -- the incoming order executes, and then the resting one
    have hopen : openPart r leavesQty = [incoming r leavesQty] := if_neg (Nat.ne_of_gt hpos)
    rw [hopen] at hs
    obtain ⟨r₁, r₂, hboth, ⟨hclient₁, hr₁⟩, hclient₂, hr₂⟩ :=
      fillResponses_eq r o (n % 2 ^ 32) leavesQty
    have hexec : 0 < min leavesQty o.qty := by omega
    obtain ⟨s₁, hs₁⟩ := hs.fill (o := incoming r leavesQty) (List.Perm.refl _) hexec
      (Nat.min_le_left _ _) hclient₁ fun _ => hr₁
    obtain ⟨rest, hbefore, hafter⟩ := exists_restingOf_afterMatch k hside hq leavesQty
    obtain ⟨s₂, hs₂⟩ := hs₁.fill (o := bare o)
      ((hbefore.append_left _).trans (List.perm_append_comm_assoc _ _ _)) hexec (Nat.min_le_right _ _)
      hclient₂ hr₂
    rw [List.append_assoc] at hs₂
    refine ⟨s₂, ?_⟩
    rw [hresponses, hboth]
    refine hs₂.perm ((List.perm_append_comm_assoc _ _ _).trans ((hafter.symm.append_left _).trans ?_))
    rw [leftOf_incoming, ← hleaves]
    rfl
  used n b v h _ := h
  rest n b b' v v' p priority leavesQty _ _ h hpos _ _ hplaced _ hengine := by
    obtain ⟨new, hsent, h⟩ := h
    have hsent' : b'.sent = b.sent ++ [] := congrArg MatchingEngine.outgoingOgwResponses hengine
    refine ⟨new, by rw [hsent', List.append_nil, hsent], fun k hk => ?_⟩
    obtain ⟨s, hs⟩ := h k hk
    refine ⟨s, hs.perm ?_⟩
    have hperm := restingOf_of_perm (k := k) hplaced.orders_perm
    have hopen : openPart r leavesQty = [incoming r leavesQty] := if_neg (Nat.ne_of_gt hpos)
    rw [hopen]
    simp only [openPart, if_true, ite_self, List.nil_append]
    exact hperm.symm
  cancel hcancel b b' v v' h hstep := by
    obtain ⟨rfl, rfl⟩ := h
    cases hstep with
    | rejected =>
      refine ⟨[_], rfl, fun k hk => ?_⟩
      obtain ⟨hopen, hl⟩ := hopens k hk
      simp only [openPart, if_true, ite_self, List.nil_append, ← hl]
      unfold afterTaking
      by_cases hclient : r.clientId = k
      · subst hclient
        rw [if_pos rfl]
        exact keepsUp_reject hopen (hrequests hk).1 hcancel rfl
      · rw [if_neg hclient]
        exact ⟨s₀ k, (keepsUp_start hopen r.tickerId).skip hclient⟩
    | @canceled _ s l l₁ l₂ q₁ q₂ x hs hv hq hslot hengine _ =>
      have hsent := congrArg MatchingEngine.outgoingOgwResponses hengine
      refine ⟨[_], hsent, fun k hk => ?_⟩
      obtain ⟨hopen, hl⟩ := hopens k hk
      have hkey : x.2.clientId = r.clientId ∧ x.2.clientOrderId = r.orderId := by
        unfold clientOrderSlot at hslot
        split_ifs at hslot
        exact Prod.mk.inj (Option.some.inj hslot)
      have hperm := restingOf_of_perm (k := k) (orders_remove hv hq)
      simp only [openPart, if_true, ite_self, List.nil_append]
      unfold afterTaking
      by_cases hclient : r.clientId = k
      · subst hclient
        rw [if_pos hkey.1] at hperm
        rw [if_pos rfl]
        exact keepsUp_cancel hopen (hrequests hk).1 hcancel rfl (hrequests hk).2 (o := bare x.2)
          (hl ▸ hperm) hkey.2 rfl rfl
      · rw [if_neg fun hx => hclient (hkey.1.symm.trans hx), List.nil_append] at hperm
        rw [if_neg hclient]
        exact ⟨s₀ k, ((keepsUp_start hopen r.tickerId).skip hclient).perm (hl ▸ hperm)⟩

end Whole

end KeepsUp

end Trading
