import Mathlib.Tactic.Abel
import HftSystem.Lib.Tally
import HftSystem.Exchange.BookRule

set_option relaxedAutoImplicit false
set_option autoImplicit false

/-!
# Conservation

The responses to a client account for every unit of quantity. What ACCEPTED brings in, the FILLED
take out and a CANCELED gives back, and what is left after every request is what rests in the book.
The executions themselves cancel out: each one is told to a buyer and to a seller, at one price and
for one quantity.

## Main definitions

* `Exchange.OrderKey` — the client, its order id and the side, which a response names.
* `Exchange.openQty` — the quantity that the responses say to be open.
* `Exchange.restingQty` — the quantity that rests in a book.
* `Exchange.soldQty` — the signed quantity of an execution.

## Main results

* `Exchange.maintains_conserved`, `Exchange.maintains_balanced` — what each thing that a request
  does keeps.
* `Exchange.conserved_of_run` — the quantity of every order is accounted for in every run.
* `Exchange.balanced_of_run` — executions cancel out in every run, in quantity and in cash.
-/

namespace Exchange

open Common LimitOrderBook PriceTime Fallible MEOrderBook Tally

/-! ## The quantity of an order -/

/-- What a response names: a client, its id of the order, and the side. -/
structure OrderKey where
  clientId : ℕ
  clientOrderId : ℕ
  side : Side
  deriving DecidableEq

namespace MEClientResponse

/-- The order that a response is about. -/
def orderKey (r : MEClientResponse) : OrderKey := ⟨r.clientId, r.clientOrderId, r.side⟩

/-- What a response says about the quantity that is open. -/
def opened (r : MEClientResponse) : ℤ :=
  match r.type with
  | .accepted => r.leavesQty
  | .filled => -r.execQty
  | .canceled => -r.leavesQty
  | .cancelRejected | .invalid => 0

end MEClientResponse

/-- The identity of a resting order towards its client. -/
def MEOrder.orderKey (o : MEOrder) : OrderKey := ⟨o.clientId, o.clientOrderId, o.side⟩

/-- **The quantity that the responses say to be open**, by order. -/
def openQty (responses : List MEClientResponse) : OrderKey → ℤ :=
  tally MEClientResponse.orderKey MEClientResponse.opened responses

/-- **The quantity that rests in a book**, by order. -/
def restingQty (v : View MEOrder) : OrderKey → ℤ :=
  tally (fun x : Ptr × MEOrder => x.2.orderKey) (fun x => (x.2.qty : ℤ)) (orders v.levels)

/-- What rests is not negative. -/
lemma restingQty_nonneg (v : View MEOrder) (k : OrderKey) : 0 ≤ restingQty v k :=
  tally_nonneg _ (fun _ _ => Int.natCast_nonneg _) k

/-- Taking an order out. -/
lemma restingQty_remove {v : View MEOrder} {s : Side} {l : Level MEOrder}
    {l₁ l₂ : List (Level MEOrder)} {q₁ q₂ : List (Ptr × MEOrder)} {x : Ptr × MEOrder}
    (hv : v.side s = l₁ ++ l :: l₂) (hq : l.queue = q₁ ++ x :: q₂) :
    restingQty v = Pi.single x.2.orderKey (x.2.qty : ℤ) +
      restingQty (v.set s (l₁ ++ (l.withQueue (q₁ ++ q₂) ++ l₂))) := by
  unfold restingQty
  rw [tally_perm _ _ (orders_remove hv hq), tally_cons]

/-- Letting an order rest. -/
lemma restingQty_place {v v' : View MEOrder} {p : Ptr} {o : MEOrder} (h : Placed v p o v') :
    restingQty v' = Pi.single o.orderKey (o.qty : ℤ) + restingQty v := by
  unfold restingQty
  rw [tally_perm _ _ h.orders_perm, tally_cons]

/-- An execution takes what it fills. -/
lemma restingQty_afterMatch {v : View MEOrder} {s : Side} {l : Level MEOrder}
    {ls : List (Level MEOrder)} {p : Ptr} {o : MEOrder} {q : List (Ptr × MEOrder)}
    (hside : v.side s = l :: ls) (hq : l.queue = (p, o) :: q) (leavesQty : ℕ) :
    restingQty v = Pi.single o.orderKey ((min leavesQty o.qty : ℕ) : ℤ) +
      restingQty (afterMatch v s l ls p o q leavesQty) := by
  obtain ⟨rest, hbefore, hafter⟩ := exists_orders_afterMatch hside hq leavesQty
  unfold restingQty
  rw [tally_perm _ _ hbefore, tally_perm _ _ hafter, tally_cons, tally_append]
  by_cases hle : o.qty ≤ leavesQty
  · rw [if_pos hle, tally_nil, zero_add, min_eq_right hle]
  · -- the order stays with the rest of its quantity
    set o' : MEOrder := { o with qty := o.qty - leavesQty }
    have hleft : o'.qty = o.qty - leavesQty := rfl
    have hqty : (o.qty : ℤ) = leavesQty + (o'.qty : ℤ) := by omega
    have hkey : o'.orderKey = o.orderKey := rfl
    rw [if_neg hle, min_eq_left (by omega), tally_singleton, hqty, Pi.single_add, hkey, add_assoc]

/-- The quantity that two lists of responses say to be open. -/
lemma openQty_append (responses responses' : List MEClientResponse) :
    openQty (responses ++ responses') = openQty responses + openQty responses' :=
  tally_append _ _ _ _

/-- What an execution says about the two orders. -/
lemma openQty_fillResponses (r : MEClientRequest) (newMarketOrderId : ℕ) (f : Fill MEOrder) :
    openQty (fillResponses r.clientId r.orderId r.tickerId r.side newMarketOrderId f) =
      -Pi.single ⟨r.clientId, r.orderId, r.side⟩ (f.qty : ℤ) -
        Pi.single f.order.orderKey (f.qty : ℤ) := by
  unfold openQty fillResponses
  rw [tally_cons, tally_singleton, sub_eq_add_neg, ← Pi.single_neg, ← Pi.single_neg]
  rfl

/-- **What requests do** keeps every unit of quantity accounted for.

**Proof sketch.** The five obligations, one by one. An acceptance opens the quantity of the request. An
execution closes the same quantity twice, once for the resting order and once for the incoming one
(`openQty_fillResponses`, `restingQty_afterMatch`). What is left moves from the request to the book
when it rests, and a CANCEL closes what the book gives up (`restingQty_remove`). -/
theorem maintains_conserved (r : MEClientRequest) :
    Maintains r (fun b v => openQty b.sent = restingQty v)
      (fun _ b v leavesQty => openQty b.sent =
        restingQty v + Pi.single ⟨r.clientId, r.orderId, r.side⟩ (leavesQty : ℤ))
      fun b v => openQty b.sent = restingQty v where
  accept _ b v hI := by
    show openQty (b.sent ++ [_]) = _
    rw [openQty_append, hI]
    exact congrArg _ (tally_singleton _ _ _)
  fill n b b' v l ls p o q leavesQty _ _ hJ hside hq _ hengine := by
    have hsent : b'.sent = b.sent ++ fillResponses r.clientId r.orderId r.tickerId r.side (n % 2 ^ 32)
        ⟨o, min leavesQty o.qty, leavesQty - o.qty⟩ :=
      congrArg MatchingEngine.outgoingOgwResponses hengine
    have hleaves : (leavesQty : ℤ) = ((min leavesQty o.qty : ℕ) : ℤ) + ((leavesQty - o.qty : ℕ) : ℤ) := by
      omega
    rw [hsent, openQty_append, hJ, openQty_fillResponses, restingQty_afterMatch hside hq leavesQty,
      hleaves, Pi.single_add]
    dsimp only
    abel
  used n b v hJ _ := by
    rw [hJ, Nat.cast_zero, Pi.single_zero, add_zero]
  rest n b b' v v' p priority leavesQty _ _ hJ _ _ _ hplaced _ hengine := by
    have hsent : b'.sent = b.sent ++ [] := congrArg MatchingEngine.outgoingOgwResponses hengine
    rw [hsent, List.append_nil, hJ, restingQty_place hplaced, add_comm]
    rfl
  cancel _ b b' v v' hI hstep := by
    cases hstep with
    | rejected =>
      show openQty (b.sent ++ [_]) = _
      rw [openQty_append, hI]
      refine (congrArg _ (tally_eq_zero _ _ ?_)).trans (add_zero _)
      simp [MEClientResponse.opened]
    | @canceled _ s l l₁ l₂ q₁ q₂ x hs hv hq hslot hengine _ =>
      have hsent := congrArg MatchingEngine.outgoingOgwResponses hengine
      have hkey : x.2.orderKey = ⟨r.clientId, r.orderId, x.2.side⟩ := by
        unfold clientOrderSlot at hslot
        split_ifs at hslot
        obtain ⟨hclient, horder⟩ := Prod.mk.inj (Option.some.inj hslot)
        rw [MEOrder.orderKey, hclient, horder]
      refine (congrArg openQty hsent).trans ?_
      show openQty (b.sent ++ [_]) = _
      rw [openQty_append, hI, restingQty_remove hv hq, hkey]
      unfold openQty
      rw [tally_singleton]
      simp only [MEClientResponse.orderKey, MEClientResponse.opened, Pi.single_neg]
      abel

/-- **Conservation of quantity.** After every completed run of admissible requests, with `add` through
line 105, the responses about a ticker account for every order of every client: what they say to be
open is what rests in the book, so an order is never executed or given back by more than was
accepted.

**Proof sketch.** `maintains_conserved` is what one request keeps, and `Maintains.run` the rule that
carries it through the run. What rests is never negative. -/
theorem conserved_of_run {requests : List MEClientRequest}
    (h : Meets (EngineState.process MEOrderBook.addAnnounced) EngineAdmissible {} requests) :
    Safe (RunFault requests)
      (fun x => ∀ t, ∃ v, BookInvariant (x.tickerOrderBook t) v ∧
        openQty (x.queues.about t).outgoingOgwResponses = restingQty v ∧
        ∀ k, 0 ≤ openQty (x.queues.about t).outgoingOgwResponses k)
      (requests.foldlM (EngineState.process MEOrderBook.addAnnounced) {}) := by
  refine (Maintains.run maintains_conserved rfl h).mono (fun _ hf => hf) fun x hx t => ?_
  obtain ⟨v, hinv, hopen⟩ := hx t
  have hopen : openQty (x.queues.about t).outgoingOgwResponses = restingQty v := hopen
  exact ⟨v, hinv.of_alone, hopen, fun k => hopen ▸ restingQty_nonneg v k⟩

/-- The quantity of the orders of the sample is accounted for. -/
theorem conserved_of_run_sample :
    ∃ x, sampleOrders.foldlM (EngineState.process MEOrderBook.addAnnounced) {} = .ok x ∧
      ∀ t, ∃ v, BookInvariant (x.tickerOrderBook t) v ∧
        openQty (x.queues.about t).outgoingOgwResponses = restingQty v ∧
        ∀ k, 0 ≤ openQty (x.queues.about t).outgoingOgwResponses k :=
  (conserved_of_run meets_sampleOrders).exists_of_isOk (by decide)

/-! ## The sum of all executions -/

/-- What an execution adds to the position of the client. -/
def MEClientResponse.signedQty (r : MEClientResponse) : ℤ :=
  if r.type = .filled then if r.side = .buy then r.execQty else -r.execQty else 0

/-- **What the executions add up to**: in quantity, and in cash. -/
def balance (responses : List MEClientResponse) : ℤ × ℤ :=
  (responses.map fun r => (r.signedQty, r.signedQty * r.price)).sum

/-- The executions of two lists of responses add up apart. -/
lemma balance_append (responses responses' : List MEClientResponse) :
    balance (responses ++ responses') = balance responses + balance responses' := by
  rw [balance, List.map_append, List.sum_append]
  rfl

/-- A response that is no execution. -/
lemma balance_of_ne {r : MEClientResponse} (h : r.type ≠ .filled) : balance [r] = 0 := by
  simp [balance, MEClientResponse.signedQty, h]

/-- **An execution** is told to a buyer and to a seller. -/
lemma balance_fillResponses (r : MEClientRequest) (newMarketOrderId : ℕ) {f : Fill MEOrder}
    (hs : r.side.IsBookSide) (hside : f.order.side = r.side.opposite) :
    balance (fillResponses r.clientId r.orderId r.tickerId r.side newMarketOrderId f) = 0 := by
  unfold balance fillResponses MEClientResponse.signedQty
  rw [hside]
  rcases hs with hbuy | hsell
  · rw [hbuy]
    simp [Side.opposite]
  · rw [hsell]
    simp [Side.opposite]

/-- **An assertion about the responses** is kept by what requests do if it is kept by every response
that is no execution and by the two responses of every execution.

**Proof sketch.** Resting sends nothing, and the resting order of an execution is on the other side. -/
lemma maintains_sent {S : List MEClientResponse → Prop} (r : MEClientRequest)
    (hother : ∀ responses r', r'.type ≠ .filled → S responses → S (responses ++ [r']))
    (hfill : ∀ responses n (f : Fill MEOrder), r.side.IsBookSide → f.order.side = r.side.opposite →
      S responses → S (responses ++ fillResponses r.clientId r.orderId r.tickerId r.side n f)) :
    Maintains r (fun b _ => S b.sent) (fun _ b _ _ => S b.sent) fun b _ => S b.sent where
  accept _ _ _ hI := hother _ _ (by simp) hI
  fill n b b' v l ls p o q leavesQty hs hwf hJ hside hq _ hengine := by
    have hsent : b'.sent = b.sent ++ fillResponses r.clientId r.orderId r.tickerId r.side (n % 2 ^ 32)
        ⟨o, min leavesQty o.qty, leavesQty - o.qty⟩ :=
      congrArg MatchingEngine.outgoingOgwResponses hengine
    have ho : o.side = r.side.opposite :=
      ((hwf.valid.homed _ (isBookSide_opposite r.side) l (by simp [hside])).2 (p, o)
        (by simp [hq])).1
    rw [hsent]
    exact hfill _ _ _ hs ho hJ
  used _ _ _ hJ _ := hJ
  rest n b b' v v' p priority leavesQty _ _ hJ _ _ _ _ _ hengine := by
    have hsent : b'.sent = b.sent ++ [] := congrArg MatchingEngine.outgoingOgwResponses hengine
    rw [hsent, List.append_nil]
    exact hJ
  cancel _ b b' v v' hI hstep := by
    cases hstep with
    | rejected => exact hother _ _ (by simp) hI
    | canceled _ _ _ _ hengine _ =>
      have hsent := congrArg MatchingEngine.outgoingOgwResponses hengine
      show S b'.matchingEngine.outgoingOgwResponses
      rw [hsent]
      exact hother _ _ (by simp) hI

/-- **What requests do** keeps the executions in balance. -/
theorem maintains_balanced (r : MEClientRequest) :
    Maintains r (fun b _ => balance b.sent = 0) (fun _ b _ _ => balance b.sent = 0)
      fun b _ => balance b.sent = 0 := by
  refine maintains_sent r (S := fun responses => balance responses = 0)
    (fun responses r' hne h => ?_) fun responses n f hs hside h => ?_
  · rw [balance_append, h, balance_of_ne hne, add_zero]
  · rw [balance_append, h, balance_fillResponses r n hs hside, add_zero]

/-- Every execution names a side of the book. -/
def SidesNamed (responses : List MEClientResponse) : Prop :=
  ∀ r ∈ responses, r.type = .filled → r.side.IsBookSide

/-- Both of two lists name sides of the book. -/
lemma SidesNamed.append {responses responses' : List MEClientResponse} (h : SidesNamed responses)
    (h' : SidesNamed responses') : SidesNamed (responses ++ responses') := fun r hr =>
  (List.mem_append.mp hr).elim (h r) (h' r)

/-- A response that is no execution. -/
lemma sidesNamed_of_ne {r : MEClientResponse} (h : r.type ≠ .filled) : SidesNamed [r] := fun _ hr' hf =>
  absurd (List.mem_singleton.mp hr' ▸ hf) h

/-- **What requests do** names the side of every execution. -/
theorem maintains_sidesNamed (r : MEClientRequest) :
    Maintains r (fun b _ => SidesNamed b.sent) (fun _ b _ _ => SidesNamed b.sent)
      fun b _ => SidesNamed b.sent := by
  refine maintains_sent r (fun _ _ hne h => h.append (sidesNamed_of_ne hne))
    fun responses n f hs hside h => h.append fun r' hr' _ => ?_
  simp only [fillResponses, List.mem_cons, List.not_mem_nil, or_false] at hr'
  rcases hr' with rfl | rfl
  · exact hs
  · rw [hside]
    exact isBookSide_opposite r.side

/-- **The exchange neither creates nor keeps anything.** After every completed run of admissible requests,
with `add` through line 105, the executions that were told to the clients of a ticker add up to
nothing, in quantity and in cash. Line 109, which is left out, sends the last of them again. -/
theorem balanced_of_run {requests : List MEClientRequest}
    (h : Meets (EngineState.process MEOrderBook.addAnnounced) EngineAdmissible {} requests) :
    Safe (RunFault requests) (fun x => ∀ t, balance (x.queues.about t).outgoingOgwResponses = 0)
      (requests.foldlM (EngineState.process MEOrderBook.addAnnounced) {}) :=
  (Maintains.run maintains_balanced rfl h).mono (fun _ hf => hf) fun _ hx t => (hx t).choose_spec.2

/-- The executions of the sample add up to nothing. -/
theorem balanced_of_run_sample :
    ∃ x, sampleOrders.foldlM (EngineState.process MEOrderBook.addAnnounced) {} = .ok x ∧
      ∀ t, balance (x.queues.about t).outgoingOgwResponses = 0 :=
  (balanced_of_run meets_sampleOrders).exists_of_isOk (by decide)

end Exchange
