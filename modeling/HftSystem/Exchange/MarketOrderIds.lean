import HftSystem.Common.BookPointers
import HftSystem.Exchange.LifeCycle

set_option relaxedAutoImplicit false
set_option autoImplicit false

/-!
# Market order ids and the tables of the consumers

Every NEW request takes a market order id from a counter that is never reset, whether its order
rests or not, and the consumers look published ids up in tables of `ME_MAX_ORDER_IDS` entries. The
ids of MODIFY and CANCEL are those of orders that rest, so they fit as long as the ids of the ADDs
do. The pool of orders bounds how many orders rest at a time.

## Main definitions

* `Exchange.IdsFit` — the ids that were published have entries in the tables.
* `Exchange.IdFits` — a NEW request whose remainder rests takes an id that fits.

## Main results

* `Exchange.IdInvariant.safe_step`, `Exchange.not_idsFit_of_step` — one request.
* `Exchange.idsFit_iff` — the runs whose ids fit.
-/

namespace Exchange

open Common LimitOrderBook Fallible MEOrderBook

/-- An order id that `at` finds an entry for. -/
def FitsTable (o : MEOrder) : Prop := o.marketOrderId < meMaxOrderIds

/-- The consumers look up the id of an ADD, a MODIFY and a CANCEL. -/
def UpdateFits (u : MEMarketUpdate) : Prop :=
  u.type = .add ∨ u.type = .modify ∨ u.type = .cancel → u.orderId < meMaxOrderIds

/-- **The published ids fit the tables**: no `at(order_id)` of a consumer throws. -/
def IdsFit (b : MEOrderBook) : Prop := ∀ u ∈ b.published, UpdateFits u

/-- The invariant: the ids that were published fit, and so do those of the orders that the
pointers of the book lead to. -/
structure IdInvariant (b : MEOrderBook) : Prop where
  orders : Pointees FitsTable b.toLimitOrderBook
  published : IdsFit b

/-- **The id of a request fits**: the counter is in range when a NEW request is processed, or
matching uses up the quantity of the order. -/
def IdFits (b : MEOrderBook) (r : MEClientRequest) : Prop :=
  r.type = .new → b.nextMarketOrderId < meMaxOrderIds ∨
    Safe (fun _ => True) (fun x => x.2 = 0) (b.matchRequest r)

/-! ## Writing to the queues -/

section Steps

variable {b : MEOrderBook}

/-- A response publishes no id. -/
lemma IdInvariant.respond (h : IdInvariant b) (response : MEClientResponse) :
    IdInvariant (b.respond response) := ⟨h.orders, h.published⟩

/-- The update that the book keeps may be sent if its id fits. -/
lemma IdInvariant.sendMarketUpdate (h : IdInvariant b) (hu : UpdateFits b.marketUpdate) :
    IdInvariant b.sendMarketUpdate := by
  refine ⟨h.orders, fun w hw => ?_⟩
  rcases List.mem_append.mp hw with hw | hw
  · exact h.published w hw
  · obtain rfl := List.mem_singleton.mp hw
    exact hu

/-- So may any update whose id fits. -/
lemma IdInvariant.publish (h : IdInvariant b) {u : MEMarketUpdate} (hu : UpdateFits u) :
    IdInvariant (b.publish u) :=
  IdInvariant.sendMarketUpdate (b := { b with marketUpdate := u }) ⟨h.orders, h.published⟩ hu

/-- Removing an order publishes nothing. -/
lemma IdInvariant.safe_removeOrder (h : IdInvariant b) (p : Ptr) :
    Safe (fun _ => True)
      (fun b' => IdInvariant b' ∧ b'.marketUpdate = b.marketUpdate)
      (b.onBook fun book => book.removeOrder p) :=
  (safe_pointees_removeOrder h.orders p).bind fun _ hbook => ⟨⟨hbook, h.published⟩, rfl⟩

/-! ## Matching -/

/-- **One execution** publishes the id of a resting order.

**Proof sketch.** The execution changes a quantity, which keeps the ids that rest, and it answers two
clients. The trade names no order, and the MODIFY or CANCEL behind it names the resting order, whose id
fits the table. -/
lemma IdInvariant.safe_matchOrder (h : IdInvariant b) (tickerId clientId : ℕ) (side : Side)
    (clientOrderId newMarketOrderId : ℕ) {itr : Ptr} (hitr : FitsTable (b.node itr).order)
    (leavesQty : ℕ) :
    Safe (fun _ => True) (fun r => IdInvariant r.1)
      (b.matchOrder tickerId clientId side clientOrderId newMarketOrderId itr leavesQty) := by
  unfold matchOrder
  simp only
  set fill := min leavesQty (b.node itr).order.qty
  set f : MEOrder → MEOrder := fun o => { o with qty := o.qty - fill } with hf
  set b₁ : MEOrderBook := { b with toLimitOrderBook := b.modifyOrder itr f } with hb₁
  have h₁ : IdInvariant b₁ := by
    refine ⟨h.orders.modifyOrder itr (f := f) ?_, h.published⟩
    intro o ho
    exact ho
  have hid : (b₁.node itr).order.marketOrderId < meMaxOrderIds := by
    simp only [hb₁, hf, node_modifyOrder, if_true]
    exact hitr
  -- the trade names no order
  have hsent := ((h₁.respond
    { type := .filled, clientId, tickerId, clientOrderId, marketOrderId := newMarketOrderId, side,
      price := (b₁.node itr).order.price, execQty := fill, leavesQty := leavesQty - fill }).respond
    { type := .filled, clientId := (b₁.node itr).order.clientId, tickerId,
      clientOrderId := (b₁.node itr).order.clientOrderId,
      marketOrderId := (b₁.node itr).order.marketOrderId, side := (b₁.node itr).order.side,
      price := (b₁.node itr).order.price, execQty := fill,
      leavesQty := (b₁.node itr).order.qty }).publish (u :=
    { type := .trade, orderId := OrderId.invalid, tickerId, side,
      price := (b₁.node itr).order.price, qty := fill, priority := Priority.invalid })
    (by simp [UpdateFits])
  split
  · refine ((hsent.publish fun _ => hid).safe_removeOrder itr).bind ?_
    intro b' hb'
    exact hb'.1
  · exact hsent.publish fun _ => hid

/-- The matching loop reads the orders it executes against from the levels. -/
lemma IdInvariant.safe_checkForMatch (h : IdInvariant b) (clientId clientOrderId tickerId : ℕ)
    (side : Side) (price : ℤ) (qty newMarketOrderId : ℕ) :
    Safe (fun _ => True) (fun r => IdInvariant r.1)
      (b.checkForMatch clientId clientOrderId tickerId side price qty newMarketOrderId) := by
  refine Exchange.safe_checkForMatch clientId clientOrderId tickerId side price newMarketOrderId
    IdInvariant ?_ h qty
  intro b newMarketOrderId best itr leavesQty h hfirst
  exact h.safe_matchOrder tickerId clientId side clientOrderId newMarketOrderId
    (h.orders.first best itr hfirst) leavesQty

/-! ## Resting -/

/-- A new order record may be put into a fresh block if its id fits. -/
lemma pointees_allocate {b : LimitOrderBook MEOrder (ℕ × ℕ)} (h : Pointees FitsTable b)
    {record : MEOrder} (hrecord : FitsTable record) {p : Ptr} {pool : MemPool (OrderNode MEOrder)}
    (hal : MemPool.Allocated b.orderPool pool { order := record } p) :
    Pointees FitsTable { b with orderPool := pool } ∧
      FitsTable ((LimitOrderBook.node { b with orderPool := pool } p).order) := by
  have hnode : ∀ q, LimitOrderBook.node { b with orderPool := pool } q =
      if q = p then { order := record } else b.node q := by
    intro q
    simp only [node, hal.get, Function.update_apply]
  have hkeep : ∀ q, FitsTable (b.node q).order →
      FitsTable (LimitOrderBook.node { b with orderPool := pool } q).order := by
    intro q hq
    rw [hnode]
    split_ifs
    · exact hrecord
    · exact hq
  refine ⟨⟨fun a q hq => hkeep q (h.first a q hq), fun c q hq => hkeep q (h.prev c q ?_),
    fun c q hq => hkeep q (h.next c q ?_), fun k q hq => hkeep q (h.index k q hq)⟩, ?_⟩
  -- the links of the new block are null
  · rw [hnode] at hq
    split_ifs at hq
    exact hq
  · rw [hnode] at hq
    split_ifs at hq
    exact hq
  · rw [hnode, if_pos rfl]
    exact hrecord

/-- **The remainder rests** under an id that fits. -/
lemma IdInvariant.safe_addRemainder (h : IdInvariant b) (clientId clientOrderId tickerId : ℕ)
    {newMarketOrderId : ℕ} (hid : newMarketOrderId < meMaxOrderIds) (side : Side) (price : ℤ)
    (leavesQty : ℕ) :
    Safe (fun _ => True) (fun r => IdInvariant r.1)
      (b.addRemainder clientId clientOrderId tickerId newMarketOrderId side price leavesQty) := by
  unfold addRemainder
  refine (safe_true _).bind fun priority _ => ?_
  refine ((MemPool.safe_allocate _ _).mono (fun _ _ => trivial) fun _ hr => hr).bind ?_
  intro r hal
  have hrecord : FitsTable
      { tickerId, clientId, clientOrderId, marketOrderId := newMarketOrderId, side, price,
        qty := leavesQty, priority } := hid
  obtain ⟨hpool, hp⟩ := pointees_allocate h.orders hrecord hal
  have hadded : Safe (fun _ => True) IdInvariant
      (onBook { b with orderPool := r.2 } fun book => book.addOrder r.1) := by
    refine (safe_pointees_addOrder hpool hp).bind ?_
    intro book hbook
    exact ⟨hbook, h.published⟩
  refine hadded.bind ?_
  intro b' hb'
  exact hb'

/-! ## Requests -/

/-- **`add`** announces the remainder under the id that it took from the counter. -/
lemma IdInvariant.safe_add (h : IdInvariant b) (exchangeOrder : Ptr → Ptr) (r : MEClientRequest)
    (hid : b.nextMarketOrderId < meMaxOrderIds ∨
      Safe (fun _ => True) (fun x => x.2 = 0) (b.matchRequest r)) :
    Safe (fun _ => True) IdInvariant
      (b.add exchangeOrder r.clientId r.orderId r.tickerId r.side r.price r.qty) := by
  have haccepted : IdInvariant (b.accept r.clientId r.orderId r.tickerId r.side r.price r.qty).1 :=
    IdInvariant.respond (b := { b with nextMarketOrderId := b.nextMarketOrderId + 1 })
      ⟨h.orders, h.published⟩ _
  have hmatch : Safe (fun _ => True) (fun x => IdInvariant x.1) (b.matchRequest r) :=
    haccepted.safe_checkForMatch r.clientId r.orderId r.tickerId r.side r.price r.qty
      b.nextMarketOrderId
  rw [add_eq]
  cases hloop : b.matchRequest r with
  | error e => trivial
  | ok x =>
    rw [hloop] at hid hmatch
    simp only [ok_bind]
    split
    · exact hmatch.respond _
    · next hleaves =>
      have hlt := hid.resolve_right hleaves
      refine (hmatch.safe_addRemainder r.clientId r.orderId r.tickerId hlt r.side r.price x.2).bind ?_
      intro placed hplaced
      have hannounced := hplaced.publish (u :=
        { type := .add, orderId := b.nextMarketOrderId, tickerId := r.tickerId, side := r.side,
          price := r.price, qty := x.2, priority := placed.2.1 }) fun _ => hlt
      refine (hannounced.safe_removeOrder (exchangeOrder placed.2.2)).bind ?_
      rintro b' ⟨hb', hupdate⟩
      -- the announcement is still in `market_update_`, and is sent again
      refine (hb'.sendMarketUpdate ?_).respond _
      rw [hupdate]
      exact fun _ => hlt

/-- **`cancel`** publishes the id of the order that it finds. -/
lemma IdInvariant.safe_cancel (h : IdInvariant b) (clientId orderId tickerId : ℕ) :
    Safe (fun _ => True) IdInvariant (b.cancel clientId orderId tickerId) := by
  have hfound : Safe (fun _ => True) (fun p => ∀ q, p = some q → FitsTable (b.node q).order)
      (b.findOrder clientId orderId) := by
    unfold findOrder
    split_ifs
    · exact h.orders.index _
    · trivial
    · intro q hq
      cases hq
  unfold MEOrderBook.cancel
  refine hfound.bind fun p hp => ?_
  cases p with
  | none => exact h.respond _
  | some p =>
    have hwritten : ∀ response update, IdInvariant
        { b with clientResponse := response, marketUpdate := update } := fun _ _ =>
      ⟨h.orders, h.published⟩
    refine ((hwritten _ _).safe_removeOrder p).bind ?_
    rintro b' ⟨hb', hupdate⟩
    refine (hb'.sendMarketUpdate ?_).respond _
    rw [hupdate]
    exact fun _ => hp p rfl

/-- **One request** whose id fits keeps the invariant. -/
theorem IdInvariant.safe_step (h : IdInvariant b) (exchangeOrder : Ptr → Ptr) {r : MEClientRequest}
    (hr : IdFits b r) :
    Safe (fun _ => True) IdInvariant
      (processClientRequest (MEOrderBook.add exchangeOrder) b r) := by
  unfold processClientRequest
  cases htype : r.type with
  | invalid => trivial
  | new => exact h.safe_add exchangeOrder r (hr htype)
  | cancel => exact h.safe_cancel _ _ _

/-- **One request** whose id does not fit publishes an ADD that the tables have no entry for. -/
theorem not_idsFit_of_step {b' : MEOrderBook} {exchangeOrder : Ptr → Ptr} {r : MEClientRequest}
    (hr : ¬ IdFits b r)
    (hb' : processClientRequest (MEOrderBook.add exchangeOrder) b r = .ok b') : ¬ IdsFit b' := by
  obtain ⟨htype, hr⟩ := Classical.not_imp.mp hr
  obtain ⟨hid, hleaves⟩ := not_or.mp hr
  simp only [processClientRequest, htype] at hb'
  rw [add_eq] at hb'
  obtain ⟨⟨matched, leavesQty⟩, hmatch, hb'⟩ := bind_eq_ok.mp hb'
  rw [hmatch] at hleaves
  replace hleaves : ¬ leavesQty = 0 := hleaves
  simp only at hb'
  rw [if_neg hleaves] at hb'
  obtain ⟨placed, -, hb'⟩ := bind_eq_ok.mp hb'
  obtain ⟨b₁, hb₁, hb'⟩ := bind_eq_ok.mp hb'
  obtain ⟨book, -, hb₁⟩ := bind_eq_ok.mp hb₁
  cases hb₁
  cases hb'
  intro hfit
  refine hid (hfit
    { type := .add, orderId := b.nextMarketOrderId, tickerId := r.tickerId, side := r.side,
      price := r.price, qty := leavesQty, priority := placed.2.1 } ?_ (.inl rfl))
  simp [published, MEOrderBook.respond, MEOrderBook.sendMarketUpdate, MEOrderBook.publish]

end Steps

/-! ## Runs -/

/-- A new book has published nothing, and has no order to point to. -/
lemma idInvariant_new : IdInvariant MEOrderBook.new := by
  refine ⟨⟨?_, ?_, ?_, ?_⟩, ?_⟩
  · intro a p h
    cases h
  · intro q p h
    cases h
  · intro q p h
    cases h
  · intro k p h
    cases h
  · intro u hu
    cases hu

/-- **The published ids fit the tables exactly in the runs in which no order rests once the
counter has left their range.** -/
theorem idsFit_iff (exchangeOrder : Ptr → Ptr) (requests : List MEClientRequest) :
    Always (processClientRequest (MEOrderBook.add exchangeOrder)) IdsFit MEOrderBook.new requests ↔
      Meets (processClientRequest (MEOrderBook.add exchangeOrder))
        (fun b r => ∀ b', processClientRequest (MEOrderBook.add exchangeOrder) b r = .ok b' →
          IdFits b r) MEOrderBook.new requests := by
  have hshows : ∀ b, IdInvariant b → IdsFit b := fun _ h => h.published
  refine always_iff_meets (D := fun _ _ => True) ?_ hshows ?_ idInvariant_new
    meets_true
  · intro b r b' h _ hr hb'
    exact (h.safe_step exchangeOrder hr).of_eq_ok hb'
  · intro b r b' _ _ hr hb'
    exact not_idsFit_of_step hr hb'

/-- A NEW request for no quantity, which takes an id all the same. -/
def emptyRequest : MEClientRequest :=
  { type := .new, clientId := 1, tickerId := 0, orderId := 1, side := .buy, price := 10, qty := 0 }

/-- Empty requests leave a book without orders as it was, but for the counter. -/
lemma foldlM_emptyRequest (n : ℕ) {b : MEOrderBook} (h : Idle b) :
    ∃ b', (List.replicate n emptyRequest).foldlM
        (processClientRequest (MEOrderBook.add id)) b = .ok b' ∧
      Idle b' ∧ b'.nextMarketOrderId = b.nextMarketOrderId + n := by
  induction n generalizing b with
  | zero => exact ⟨b, rfl, h, rfl⟩
  | succ n ih =>
    have hadd := add_first h.book emptyRequest.clientId emptyRequest.orderId emptyRequest.tickerId
      emptyRequest.side emptyRequest.price emptyRequest.qty
    obtain ⟨b₁, hb₁, hpost⟩ := hadd.exists_ok_of_forall fun _ hf => hf.2 rfl
    obtain ⟨hbook, hpublished, hnext⟩ := (if_pos rfl).mp hpost
    obtain ⟨b', hrun, hidle, hnext'⟩ :=
      ih (b := b₁) ⟨hbook.trans h.book, hpublished.trans h.published⟩
    refine ⟨b', ?_, hidle, by omega⟩
    rw [List.replicate_succ, List.foldlM_cons]
    exact (bind_eq_ok.mpr ⟨b₁, hb₁, hrun⟩)

/-- Once the counter has run through the table, the first order that rests is announced under an
id out of range, although no other order ever rested. -/
theorem idsFit_exhausted :
    ∃ b, (List.replicate (meMaxOrderIds - 1) emptyRequest ++ [{ emptyRequest with qty := 5 }]).foldlM
        (processClientRequest (MEOrderBook.add id)) MEOrderBook.new = .ok b ∧ ¬ IdsFit b := by
  obtain ⟨b, hrun, hidle, hnext⟩ := foldlM_emptyRequest (meMaxOrderIds - 1) idle_new
  have hadd := add_first hidle.book emptyRequest.clientId emptyRequest.orderId
    emptyRequest.tickerId emptyRequest.side emptyRequest.price 5
  have hslot : clientOrderSlot emptyRequest.clientId emptyRequest.orderId ≠ none := by decide
  obtain ⟨b', hb', hpost⟩ := hadd.exists_ok_of_forall fun _ hf => hslot hf.1
  obtain ⟨-, u, hu, hid, hpublished⟩ := (if_neg (by decide)).mp hpost
  refine ⟨b', ?_, fun hfit => ?_⟩
  · rw [List.foldlM_append, hrun, ok_bind, List.foldlM_cons]
    exact bind_eq_ok.mpr ⟨b', hb', rfl⟩
  · have hlt : u.orderId < meMaxOrderIds := hfit u (by simp [hpublished]) (.inl hu)
    have hone : MEOrderBook.new.nextMarketOrderId = 1 := rfl
    have hpos : 0 < meMaxOrderIds := by decide
    omega

end Exchange
