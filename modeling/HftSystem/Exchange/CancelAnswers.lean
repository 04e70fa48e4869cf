import HftSystem.Exchange.Conservation
import HftSystem.Exchange.FreshIds

set_option relaxedAutoImplicit false
set_option autoImplicit false

/-!
# What a CANCEL comes to

Where the clients do not use an order id twice, the answer to a CANCEL can be told from the responses
that were sent before: as much of the order as they say to be open is given back, and if they say that
nothing is open, the request is rejected. A CANCEL stays without an answer only if its order id is not
in the table of its client, where the lookup throws.

## Main definitions

* `Exchange.openUnder` — the quantity that the responses say to be open under an id.
* `Exchange.CancelAnswer` — the answer to a CANCEL, by the quantity.
* `Exchange.NotInTable` — the order id is not in the table of the client.
* `Exchange.Answers` — a step of the engine that answers by the responses before it.

## Main results

* `Exchange.safe_cancel_answered` — the answer of a book.
* `Exchange.answers_of_freshIds` — the answers in every run.
-/

namespace Exchange

open Common LimitOrderBook PriceTime Fallible MEOrderBook Tally

/-! ## What is open under an id -/

/-- **The quantity that the responses say to be open under an id**, on both sides. -/
def openUnder (responses : List MEClientResponse) (clientId orderId : ℕ) : ℤ :=
  openQty responses ⟨clientId, orderId, .buy⟩ + openQty responses ⟨clientId, orderId, .sell⟩

/-- The quantity that rests under an id. -/
def restingUnder (v : View MEOrder) (clientId orderId : ℕ) : ℤ :=
  restingQty v ⟨clientId, orderId, .buy⟩ + restingQty v ⟨clientId, orderId, .sell⟩

/-! ## The answer to a CANCEL -/

/-- **The answer to a CANCEL**: an open quantity is given back, and if there is none the request is
rejected. -/
structure CancelAnswer (clientId orderId tickerId : ℕ) (qty : ℤ) (response : MEClientResponse) : Prop where
  client : response.clientId = clientId
  order : response.clientOrderId = orderId
  ticker : response.tickerId = tickerId
  canceled : 0 < qty → response.type = .canceled ∧ (response.leavesQty : ℤ) = qty
  rejected : ¬ 0 < qty → response.type = .cancelRejected
  opened : openUnder [response] clientId orderId = -qty

/-- The quantity that two lists of responses say to be open. -/
lemma openUnder_append (responses responses' : List MEClientResponse) (clientId orderId : ℕ) :
    openUnder (responses ++ responses') clientId orderId =
      openUnder responses clientId orderId + openUnder responses' clientId orderId := by
  simp only [openUnder, openQty_append, Pi.add_apply]
  abel

section Answer

variable {b : MEOrderBook} {v : View MEOrder} {clientId orderId : ℕ}

/-- The sum of both sides, for an order of one of them. -/
lemma single_both {s : Side} (hs : s.IsBookSide) (clientId orderId : ℕ) (qty : ℤ) :
    (Pi.single (⟨clientId, orderId, s⟩ : OrderKey) qty : OrderKey → ℤ) ⟨clientId, orderId, .buy⟩ +
      (Pi.single (⟨clientId, orderId, s⟩ : OrderKey) qty : OrderKey → ℤ) ⟨clientId, orderId, .sell⟩ =
        qty := by
  rcases hs with rfl | rfl
  · rw [Pi.single_eq_same, Pi.single_eq_of_ne (by simp), add_zero]
  · rw [Pi.single_eq_same, Pi.single_eq_of_ne (by simp), zero_add]

/-- Nothing rests under the id. -/
lemma restingUnder_eq_zero
    (h : ∀ x ∈ orders v.levels, ¬ (x.2.clientId = clientId ∧ x.2.clientOrderId = orderId)) :
    restingUnder v clientId orderId = 0 := by
  have hkey : ∀ s : Side, restingQty v ⟨clientId, orderId, s⟩ = 0 := by
    intro s
    refine tally_of_ne _ _ fun x hx heq => h x hx ?_
    have heq : x.2.orderKey = ⟨clientId, orderId, s⟩ := heq
    simp only [MEOrder.orderKey, OrderKey.mk.injEq] at heq
    exact ⟨heq.1, heq.2.1⟩
  rw [restingUnder, hkey, hkey, add_zero]

/-- The block of a resting order. -/
lemma node_of_mem_orders (h : Represents b.toLimitOrderBook v) {x : Ptr × MEOrder}
    (hx : x ∈ orders v.levels) : b.orderPool.InUse x.1 ∧ (b.node x.1).order = x.2 := by
  obtain ⟨l, hl, hxl⟩ := mem_orders.mp hx
  exact ⟨(h.ledger.inUse _).mpr (mem_ptrs.mpr ⟨x, hx, rfl⟩), (h.shape.heap.levelAt l hl).record x hxl⟩

/-- Two resting orders of one id are the same. -/
lemma eq_of_ids (h : Represents b.toLimitOrderBook v) (hindex : Indexed b.toLimitOrderBook)
    {x y : Ptr × MEOrder} (hx : x ∈ orders v.levels) (hy : y ∈ orders v.levels)
    (hclient : y.2.clientId = x.2.clientId) (horder : y.2.clientOrderId = x.2.clientOrderId) : y = x := by
  obtain ⟨hxuse, hxrecord⟩ := node_of_mem_orders h hx
  obtain ⟨hyuse, hyrecord⟩ := node_of_mem_orders h hy
  have hptr : y.1 = x.1 := by
    refine hindex.slot_inj hyuse hxuse ?_
    rw [hxrecord, hyrecord]
    show clientOrderSlot _ _ = clientOrderSlot _ _
    rw [hclient, horder]
  refine Prod.ext hptr ?_
  rw [← hyrecord, ← hxrecord, hptr]

/-- What rests under the id of an order is that order. -/
lemma restingUnder_of_mem (h : Represents b.toLimitOrderBook v) (hindex : Indexed b.toLimitOrderBook)
    {x : Ptr × MEOrder} (hx : x ∈ orders v.levels) (hside : x.2.side.IsBookSide) :
    restingUnder v x.2.clientId x.2.clientOrderId = x.2.qty := by
  obtain ⟨rest, hperm⟩ : ∃ rest, (orders v.levels).Perm (x :: rest) :=
    ⟨_, List.perm_cons_erase hx⟩
  have hnodup : (orders v.levels).Nodup := List.Nodup.of_map Prod.fst h.shape.heap.ptr_nodup
  rw [hperm.nodup_iff, List.nodup_cons] at hnodup
  -- the others have other ids
  have hrest : ∀ s : Side, tally (fun y : Ptr × MEOrder => y.2.orderKey) (fun y => (y.2.qty : ℤ)) rest
      ⟨x.2.clientId, x.2.clientOrderId, s⟩ = 0 := by
    intro s
    refine tally_of_ne _ _ fun y hy heq => hnodup.1 ?_
    simp only [MEOrder.orderKey, OrderKey.mk.injEq] at heq
    rwa [← eq_of_ids h hindex hx (hperm.mem_iff.mpr (List.mem_cons_of_mem _ hy)) heq.1 heq.2.1]
  have hqty : ∀ k, restingQty v k = (Pi.single x.2.orderKey (x.2.qty : ℤ) : OrderKey → ℤ) k +
      tally (fun y : Ptr × MEOrder => y.2.orderKey) (fun y => (y.2.qty : ℤ)) rest k := by
    intro k
    rw [restingQty, tally_perm _ _ hperm, tally_cons, Pi.add_apply]
  rw [restingUnder, hqty, hqty, hrest, hrest, add_zero, add_zero]
  exact single_both hside _ _ _

/-- **The order id is not in the table of the client**, so that `at` throws. -/
def NotInTable (clientId orderId : ℕ) (f : Fault) : Prop :=
  f = .outOfRange ∧ clientId < meMaxNumClients ∧ ¬ orderId < meMaxOrderIds

/-- **A CANCEL** is answered by what rests under the id.

**Proof sketch.** The table leads to the orders that rest and to nothing else. If it has no entry,
nothing rests under the id and the request is rejected. If it has one, the entry is the only order
of the id, and `cancel` gives back what is left of it. -/
lemma safe_cancel_answered (h : BookInvariant b v) (hindex : Indexed b.toLimitOrderBook)
    (clientId orderId tickerId : ℕ) :
    Safe (NotInTable clientId orderId)
      (fun b' => ∃ response, b'.sent = b.sent ++ [response] ∧
        CancelAnswer clientId orderId tickerId (restingUnder v clientId orderId) response)
      (b.cancel clientId orderId tickerId) := by
  have hrep := h.wellFormed.repr
  cases hfind : b.findOrder clientId orderId with
  | error f =>
    unfold MEOrderBook.cancel
    rw [hfind]
    unfold findOrder at hfind
    split_ifs at hfind with hclient horder
    cases hfind
    exact ⟨rfl, hclient, horder⟩
  | ok found =>
    cases found with
    | none =>
      have hzero : restingUnder v clientId orderId = 0 := by
        refine restingUnder_eq_zero ?_
        rintro x hx ⟨rfl, rfl⟩
        obtain ⟨huse, hrecord⟩ := node_of_mem_orders hrep hx
        have hfound := (cancelable_of_indexed hindex).found x.1 huse
        rw [hrecord, hfind] at hfound
        cases hfound
      rw [cancel_of_none hfind, hzero]
      refine ⟨_, rfl, rfl, rfl, rfl, fun hpos => absurd hpos (lt_irrefl 0), fun _ => rfl, ?_⟩
      simp [openUnder, openQty, tally_singleton, MEClientResponse.opened]
    | some p =>
      have hentry : b.orderIndex (clientId, orderId) = some p := by
        unfold findOrder at hfind
        split_ifs at hfind
        · exact Except.ok.inj hfind
        · cases hfind
      obtain ⟨x, hx, rfl, hslot⟩ := hrep.ledger.index _ _ hentry
      obtain ⟨-, -, hids⟩ := clientOrderSlot_eq_some.mp hslot
      obtain ⟨rfl, rfl⟩ := Prod.mk.inj hids
      obtain ⟨l, hl, hxl⟩ := mem_orders.mp hx
      obtain ⟨s, hs, hl⟩ := View.mem_levels.mp hl
      obtain ⟨l₁, l₂, hv⟩ := List.append_of_mem hl
      obtain ⟨q₁, q₂, hq⟩ := List.append_of_mem hxl
      obtain ⟨b', hb', -, -, hengine, -⟩ :=
        cancel_of_some hrep h.wellFormed.valid hs hv hq hslot hfind tickerId
      have hhome : x.2.side = s := ((h.wellFormed.valid.homed s hs l hl).2 x hxl).1
      have hside : x.2.side.IsBookSide := hhome ▸ hs
      have hpos : 0 < x.2.qty := h.wellFormed.positive x hx
      have hqty := restingUnder_of_mem hrep hindex hx hside
      rw [hb', hqty]
      refine ⟨_, congrArg MatchingEngine.outgoingOgwResponses hengine, rfl, rfl, rfl,
        fun _ => ⟨rfl, rfl⟩, fun hnot => absurd (Int.natCast_pos.mpr hpos) hnot, ?_⟩
      rw [openUnder, openQty, tally_singleton]
      exact single_both hside _ _ _

end Answer

/-! ## Runs -/

/-- **The answer to a CANCEL is what the responses before it say to be open**, and nothing is open
afterwards. -/
def Answers (x : EngineState) (r : MEClientRequest) (x' : EngineState) : Prop :=
  ∃ response, x'.queues.outgoingOgwResponses = x.queues.outgoingOgwResponses ++ [response] ∧
    CancelAnswer r.clientId r.orderId r.tickerId
      (openUnder (x.queues.about r.tickerId).outgoingOgwResponses r.clientId r.orderId) response ∧
    openUnder (x'.queues.about r.tickerId).outgoingOgwResponses r.clientId r.orderId = 0

/-- **A CANCEL whose order id is not in the table** ends the process. -/
lemma process_cancel_of_notInTable (x : EngineState) {r : MEClientRequest} (htype : r.type = .cancel)
    (hticker : r.tickerId < meMaxTickers) (hclient : r.clientId < meMaxNumClients)
    (horder : ¬ r.orderId < meMaxOrderIds) :
    x.process MEOrderBook.addAnnounced r = .error .outOfRange := by
  have hfind : ∀ b : MEOrderBook, b.findOrder r.clientId r.orderId = .error .outOfRange := by
    intro b
    rw [findOrder, if_pos hclient, if_neg horder]
  unfold EngineState.process processClientRequest
  rw [if_pos hticker, htype]
  simp only [MEOrderBook.cancel, hfind]
  rfl

/-- **Every CANCEL is answered by what its client was told before**: if the responses about the ticker
say that there is some quantity open under the id, it is given back, and otherwise the request is
rejected. Only a CANCEL whose order id is not in the table of its client is not answered, and ends
the process.

**Proof sketch.** In every state of the run, the table of each book leads to the orders that rest and
to nothing else, since no id is used twice, and the responses say to be open what rests. So the
answer by what rests is one by the responses. -/
theorem answers_of_freshIds {requests : List MEClientRequest}
    (h : Meets (EngineState.process MEOrderBook.addAnnounced) EngineAdmissible {} requests)
    (hfresh : FreshIds requests) :
    Meets (EngineState.process MEOrderBook.addAnnounced)
      (fun x r => r.type = .cancel →
        Safe (NotInTable r.clientId r.orderId) (Answers x r) (x.process MEOrderBook.addAnnounced r) ∧
          (r.clientId < meMaxNumClients → ¬ r.orderId < meMaxOrderIds →
            x.process MEOrderBook.addAnnounced r = .error .outOfRange)) {} requests := by
  have halways : Always (EngineState.process MEOrderBook.addAnnounced)
      (fun x => ∀ t, Indexed (x.alone t).toLimitOrderBook ∧
        ∃ v, BookInvariant (x.alone t) v ∧ openQty (x.alone t).sent = restingQty v) {} requests := by
    refine always_iff_prefix.mpr fun pre x hpre hx t => ⟨?_, ?_⟩
    · exact ((safe_keyed (List.Pairwise.sublist hpre.sublist hfresh)).of_eq_ok hx t).indexed
    · obtain ⟨post, rfl⟩ := hpre
      exact (Maintains.run maintains_conserved rfl (Meets.of_append h)).of_eq_ok hx t
  refine (halways.meets.and h).mono fun x r ⟨hx, hr⟩ htype =>
    ⟨?_, process_cancel_of_notInTable x htype hr.1⟩
  obtain ⟨hindex, v, hinv, hopen⟩ := hx r.tickerId
  have hstep : processClientRequest MEOrderBook.addAnnounced (x.alone r.tickerId) r =
      (x.alone r.tickerId).cancel r.clientId r.orderId r.tickerId := by
    unfold processClientRequest
    rw [htype]
  have hsafe := EngineState.safe_process local_addAnnounced x hr.1
    (hstep ▸ safe_cancel_answered hinv hindex r.clientId r.orderId r.tickerId)
  cases hx' : x.process MEOrderBook.addAnnounced r with
  | error f => exact (hx' ▸ hsafe : Safe _ _ (.error f))
  | ok x' =>
    obtain ⟨b', ⟨response, hsent, hanswer⟩, halone⟩ := hsafe.of_eq_ok hx'
    obtain ⟨new, hqueue, hsent'⟩ := EngineState.exists_sent local_addAnnounced hx'
    rw [halone, Function.update_self, hsent] at hsent'
    obtain rfl := List.append_cancel_left hsent'
    have hqty : openUnder (x.alone r.tickerId).sent r.clientId r.orderId =
        restingUnder v r.clientId r.orderId := by
      rw [openUnder, hopen]
      rfl
    refine ⟨response, hqueue, ?_, ?_⟩
    · show CancelAnswer _ _ _ (openUnder (x.alone r.tickerId).sent r.clientId r.orderId) response
      rw [hqty]
      exact hanswer
    · show openUnder (x'.alone r.tickerId).sent r.clientId r.orderId = 0
      rw [halone, Function.update_self, hsent, openUnder_append, hqty, hanswer.opened, add_neg_cancel]

/-- The CANCELs of the sample are answered. -/
theorem answers_of_freshIds_sample :
    Meets (EngineState.process MEOrderBook.addAnnounced)
      (fun x r => r.type = .cancel →
        Safe (NotInTable r.clientId r.orderId) (Answers x r) (x.process MEOrderBook.addAnnounced r) ∧
          (r.clientId < meMaxNumClients → ¬ r.orderId < meMaxOrderIds →
            x.process MEOrderBook.addAnnounced r = .error .outOfRange)) {} sampleOrders :=
  answers_of_freshIds meets_sampleOrders (by decide : FreshIds sampleOrders)

end Exchange
