import HftSystem.Common.OrderIndex
import HftSystem.Exchange.BookInvariant

set_option relaxedAutoImplicit false
set_option autoImplicit false

/-!
# Orders that their owners can cancel

`cancel` finds an order through `cid_oid_to_order_`. A remainder is entered there without a look
at what the entry holds, so a client that reuses the id of one of its resting orders loses the
older one: it rests, and no CANCEL finds it.

## Main definitions

* `Exchange.Cancelable` — the table finds exactly the resting orders.
* `Exchange.FindsFreeEntry` — a NEW request whose remainder rests finds its entry null.

## Main results

* `Exchange.cancelable_iff` — the runs in which every resting order can be canceled.
-/

namespace Exchange

open Common LimitOrderBook Fallible MEOrderBook

/-- **Every resting order can be canceled by its owner.**

* An entry of `cid_oid_to_order_` leads to a block exactly when it is the block of a resting order
  with the ids of the entry; in particular it is null exactly when no such order rests.
* The lookup of `cancel` finds every resting order under the ids that it carries. -/
structure Cancelable (b : MEOrderBook) : Prop where
  index : ∀ clientId orderId p, b.orderIndex (clientId, orderId) = some p ↔
    b.orderPool.InUse p ∧ (b.node p).order.clientId = clientId ∧
      (b.node p).order.clientOrderId = orderId
  found : ∀ p, b.orderPool.InUse p →
    b.findOrder (b.node p).order.clientId (b.node p).order.clientOrderId = .ok (some p)

/-- **The entry of a NEW request is free**: matching uses up the quantity of the order, or it
leaves the entry of the order's ids null. -/
def FindsFreeEntry (b : MEOrderBook) (r : MEClientRequest) : Prop :=
  r.type = .new → Safe (fun _ => True)
    (fun x => x.2 = 0 ∨ x.1.orderIndex (r.clientId, r.orderId) = none) (b.matchRequest r)

/-- Whether a request finds a free entry can be evaluated. -/
instance (b : MEOrderBook) (r : MEClientRequest) : Decidable (FindsFreeEntry b r) :=
  inferInstanceAs (Decidable (_ → Safe _ _ _))

section Steps

variable {b : MEOrderBook}

/-- The table of a book, in the words of `cancel`. -/
lemma cancelable_of_indexed (h : Indexed b.toLimitOrderBook) : Cancelable b := by
  have hslot : ∀ p, b.orderPool.InUse p → (b.node p).order.clientId < meMaxNumClients ∧
      (b.node p).order.clientOrderId < meMaxOrderIds := by
    intro p hp
    obtain ⟨k, hk⟩ := Option.ne_none_iff_exists'.mp (h.slot p hp)
    obtain ⟨hclient, horder, -⟩ := clientOrderSlot_eq_some.mp hk
    exact ⟨hclient, horder⟩
  have hindex : ∀ clientId orderId p, b.orderIndex (clientId, orderId) = some p ↔
      b.orderPool.InUse p ∧ (b.node p).order.clientId = clientId ∧
        (b.node p).order.clientOrderId = orderId := by
    intro clientId orderId p
    rw [h.index]
    refine and_congr_right fun hp => ?_
    obtain ⟨hclient, horder⟩ := hslot p hp
    refine clientOrderSlot_eq_some.trans ⟨fun hk => ?_, fun hk => ?_⟩
    · have hids := Prod.mk.inj hk.2.2
      exact ⟨hids.1.symm, hids.2.symm⟩
    · exact ⟨hclient, horder, by rw [hk.1, hk.2]⟩
  refine ⟨hindex, fun p hp => ?_⟩
  obtain ⟨hclient, horder⟩ := hslot p hp
  unfold findOrder
  rw [if_pos hclient, if_pos horder, (hindex _ _ p).mpr ⟨hp, rfl, rfl⟩]

/-- Removing an order, from the book of the exchange. -/
lemma safe_indexed_removeOrder (h : Indexed b.toLimitOrderBook) (p : Ptr) :
    Safe (fun _ => True) (fun b' => Indexed b'.toLimitOrderBook)
      (b.onBook fun book => book.removeOrder p) := by
  refine (h.safe_removeOrder p).bind ?_
  intro book hbook
  exact hbook

/-- One execution writes to the table only where it removes the order it used up. -/
lemma safe_indexed_matchOrder (h : Indexed b.toLimitOrderBook) (tickerId clientId : ℕ) (side : Side)
    (clientOrderId newMarketOrderId : ℕ) (itr : Ptr) (leavesQty : ℕ) :
    Safe (fun _ => True) (fun r => Indexed r.1.toLimitOrderBook)
      (b.matchOrder tickerId clientId side clientOrderId newMarketOrderId itr leavesQty) := by
  unfold matchOrder
  simp only
  set f : MEOrder → MEOrder := fun o => { o with qty := o.qty - min leavesQty (b.node itr).order.qty }
  have hfilled : Indexed (b.modifyOrder itr f) := by
    refine h.congr rfl (MemPool.inUse_modify _ _ _) fun p => ?_
    rw [node_modifyOrder]
    simp only
    split_ifs with hp
    · rw [hp]
      rfl
    · rfl
  split
  · refine Safe.bind (safe_indexed_removeOrder ?_ itr) ?_
    · exact hfilled
    · intro b' hb'
      exact hb'
  · exact hfilled

/-- Matching keeps the table in step with the book. -/
lemma safe_indexed_checkForMatch (h : Indexed b.toLimitOrderBook)
    (clientId clientOrderId tickerId : ℕ) (side : Side) (price : ℤ) (qty newMarketOrderId : ℕ) :
    Safe (fun _ => True) (fun r => Indexed r.1.toLimitOrderBook)
      (b.checkForMatch clientId clientOrderId tickerId side price qty newMarketOrderId) := by
  refine safe_checkForMatch clientId clientOrderId tickerId side price newMarketOrderId
    (fun b => Indexed b.toLimitOrderBook) ?_ h qty
  intro b newMarketOrderId _ itr leavesQty h _
  exact safe_indexed_matchOrder h tickerId clientId side clientOrderId newMarketOrderId itr leavesQty

/-- The remainder is entered under the ids of the request. -/
lemma safe_addRemainder_entered (b : MEOrderBook) (clientId clientOrderId tickerId newMarketOrderId : ℕ)
    (side : Side) (price : ℤ) (leavesQty : ℕ) :
    Safe (fun _ => True)
      (fun r => ∃ record : MEOrder,
        Entered b.toLimitOrderBook r.2.2 record (clientId, clientOrderId) r.1.toLimitOrderBook)
      (b.addRemainder clientId clientOrderId tickerId newMarketOrderId side price leavesQty) := by
  unfold addRemainder
  refine (safe_true _).bind fun priority _ => ?_
  refine ((MemPool.safe_allocate _ _).mono (fun _ _ => trivial) fun _ hr => hr).bind ?_
  intro r hal
  have hentered := safe_entered_addOrder b.toLimitOrderBook hal
  have hadded : Safe (fun _ => True)
      (fun b' : MEOrderBook => ∃ k, Entered b.toLimitOrderBook r.1
        { tickerId, clientId, clientOrderId, marketOrderId := newMarketOrderId, side, price,
          qty := leavesQty, priority } k b'.toLimitOrderBook)
      (onBook { b with orderPool := r.2 } fun book => book.addOrder r.1) := by
    refine hentered.bind ?_
    intro book hbook
    exact hbook
  refine hadded.bind ?_
  rintro b' ⟨k, hk⟩
  obtain ⟨-, -, rfl⟩ := clientOrderSlot_eq_some.mp hk.slot
  exact ⟨_, hk⟩

/-- The order that was entered before is lost. -/
lemma not_cancelable_of_taken (h : Indexed b.toLimitOrderBook) {b' : MEOrderBook} {p : Ptr}
    {record : MEOrder} {clientId clientOrderId : ℕ}
    (hb' : Entered b.toLimitOrderBook p record (clientId, clientOrderId) b'.toLimitOrderBook)
    (htaken : b.orderIndex (clientId, clientOrderId) ≠ none) : ¬ Cancelable b' := by
  obtain ⟨q, hq⟩ := Option.ne_none_iff_exists'.mp htaken
  obtain ⟨huse, hslot, hlost⟩ := h.lost_of_taken hb' hq
  obtain ⟨-, -, hk⟩ := clientOrderSlot_eq_some.mp hslot
  have hids := Prod.mk.inj hk
  intro hcancel
  exact hlost ((hcancel.index clientId clientOrderId q).mpr ⟨huse, hids.1.symm, hids.2.symm⟩)

/-- **A NEW request** keeps the table if its entry is free, and breaks it if it is taken. -/
theorem safe_matchAndRest_entry (h : Indexed b.toLimitOrderBook) {r : MEClientRequest}
    (htype : r.type = .new) :
    Safe (fun _ => True)
      (fun b' => (FindsFreeEntry b r → Indexed b'.toLimitOrderBook) ∧
        (¬ FindsFreeEntry b r → ¬ Cancelable b'))
      (b.matchAndRest r.clientId r.orderId r.tickerId r.side r.price r.qty) := by
  have hmatch : Safe (fun _ => True) (fun x => Indexed x.1.toLimitOrderBook) (b.matchRequest r) :=
    safe_indexed_checkForMatch (b := (b.accept r.clientId r.orderId r.tickerId r.side r.price r.qty).1)
      h r.clientId r.orderId r.tickerId r.side r.price r.qty b.nextMarketOrderId
  rw [matchAndRest_eq]
  unfold FindsFreeEntry
  cases hloop : b.matchRequest r with
  | error e => trivial
  | ok x =>
    rw [hloop] at hmatch
    simp only [ok_bind, safe_ok, htype, forall_const]
    split
    · next hleaves => exact ⟨fun _ => hmatch, fun htaken => absurd (.inl hleaves) htaken⟩
    · next hleaves =>
      refine (safe_addRemainder_entered x.1 r.clientId r.orderId r.tickerId b.nextMarketOrderId r.side
        r.price x.2).bind ?_
      rintro placed ⟨record, hplaced⟩
      refine ⟨fun hfree => ?_, fun htaken => ?_⟩
      · exact Indexed.place hmatch hplaced (hfree.resolve_left hleaves)
      · exact not_cancelable_of_taken hmatch hplaced fun hnone => htaken (.inr hnone)

/-- **A CANCEL request** keeps the table. -/
lemma safe_indexed_cancel (h : Indexed b.toLimitOrderBook) (clientId orderId tickerId : ℕ) :
    Safe (fun _ => True) (fun b' => Indexed b'.toLimitOrderBook)
      (b.cancel clientId orderId tickerId) := by
  unfold MEOrderBook.cancel
  refine (safe_true _).bind fun p _ => ?_
  cases p with
  | none => exact h
  | some p =>
    refine Safe.bind (safe_indexed_removeOrder ?_ p) ?_
    · exact h
    · intro b' hb'
      exact hb'

/-- **A request** keeps the table if its entry is free. -/
lemma safe_indexed_process (h : Indexed b.toLimitOrderBook) {r : MEClientRequest}
    (hr : FindsFreeEntry b r) :
    Safe (fun _ => True) (fun b' => Indexed b'.toLimitOrderBook)
      (processClientRequest matchAndRest b r) := by
  unfold processClientRequest
  cases htype : r.type with
  | invalid => trivial
  | new => exact (safe_matchAndRest_entry h htype).mono (fun _ => id) fun _ hb' => hb'.1 hr
  | cancel => exact safe_indexed_cancel h _ _ _

end Steps

/-! ## Runs -/

/-- The table of a new book. -/
lemma indexed_new : Indexed MEOrderBook.new.toLimitOrderBook := by
  refine ⟨fun k p => ?_, fun p hp => ?_⟩
  · constructor
    · intro hnone
      cases hnone
    · rintro ⟨hp, -⟩
      exact absurd hp (MemPool.not_inUse_new _ _)
  · exact absurd hp (MemPool.not_inUse_new _ _)

/-- **Every run in which each entry is free** keeps the table. -/
lemma safe_indexed_run {requests : List MEClientRequest}
    (h : Meets (processClientRequest matchAndRest) FindsFreeEntry MEOrderBook.new requests) :
    Safe (fun _ => True) (fun b => Indexed b.toLimitOrderBook)
      (requests.foldlM (processClientRequest matchAndRest) MEOrderBook.new) :=
  safe_foldlM (fun _ _ hb hr => safe_indexed_process hb hr) indexed_new h

/-- **Every resting order can be canceled exactly in the runs in which every order that comes to
rest finds its entry null.** -/
theorem cancelable_iff (requests : List MEClientRequest) :
    Always (processClientRequest matchAndRest) Cancelable MEOrderBook.new requests ↔
      Meets (processClientRequest matchAndRest)
        (fun b r => ∀ b', processClientRequest matchAndRest b r = .ok b' → FindsFreeEntry b r)
        MEOrderBook.new requests := by
  have hshows : ∀ b : MEOrderBook, Indexed b.toLimitOrderBook → Cancelable b := fun _ h =>
    cancelable_of_indexed h
  refine always_iff_meets (D := fun _ _ => True) ?_ hshows ?_ indexed_new meets_true
  · intro b r b' h _ hr hb'
    exact (safe_indexed_process h hr).of_eq_ok hb'
  · intro b r b' h _ hr hb'
    have htype : r.type = .new := by
      by_contra hne
      exact hr fun heq => absurd heq hne
    unfold processClientRequest at hb'
    simp only [htype] at hb'
    exact ((safe_matchAndRest_entry h htype).of_eq_ok hb').2 hr

/-- Two buy orders of a client under one id. -/
def reusedId : List MEClientRequest :=
  [{ type := .new, clientId := 1, tickerId := 0, orderId := 1, side := .buy, price := 10, qty := 5 },
   { type := .new, clientId := 1, tickerId := 0, orderId := 1, side := .buy, price := 11, qty := 5 }]

/-- The first one rests, and cannot be canceled: the table leads to the second one. -/
theorem reusedId_not_cancelable :
    ∃ b, reusedId.foldlM (processClientRequest matchAndRest) MEOrderBook.new = .ok b ∧
      ¬ Cancelable b := by
  have hrun : Safe (fun _ => False)
      (fun b => b.orderPool.InUse 0 ∧ (b.node 0).order.clientId = 1 ∧
        (b.node 0).order.clientOrderId = 1 ∧ b.orderIndex (1, 1) = some 1)
      (reusedId.foldlM (processClientRequest matchAndRest) MEOrderBook.new) := by
    decide +kernel
  obtain ⟨b, hb, huse, hclient, horder, hfound⟩ := hrun.exists_ok
  refine ⟨b, hb, fun hcancel => ?_⟩
  have hlost := (hcancel.index 1 1 0).mpr ⟨huse, hclient, horder⟩
  rw [hfound] at hlost
  cases hlost

end Exchange
