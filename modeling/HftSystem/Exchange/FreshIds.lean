import HftSystem.Exchange.BookRule
import HftSystem.Exchange.CancelIndex

set_option relaxedAutoImplicit false
set_option autoImplicit false

/-!
# Orders with ids of their own

If no client uses an order id for two NEW requests to a ticker, the table of orders never finds its
entry taken: matching and canceling only clear entries, and a remainder is entered under ids that have
not been there before. So every order can be canceled as long as it rests, and what a CANCEL comes to
can be told from the responses that were sent before.

## Main definitions

* `Exchange.FreshIds` — no client uses an id twice.
* `Exchange.Keyed` — the table finds exactly the resting orders, all of which have known ids.

## Main results

* `Exchange.Keyed.process` — one request to a book.
* `Exchange.cancelable_of_freshIds` — every resting order can be canceled, in every run.
-/

namespace Exchange

open Common LimitOrderBook PriceTime Fallible MEOrderBook

/-- **No client uses an order id for two orders of a ticker.** -/
def FreshIds (requests : List MEClientRequest) : Prop :=
  requests.Pairwise fun r r' => r.type = .new → r'.type = .new → r.tickerId = r'.tickerId →
    r.clientId = r'.clientId → r.orderId ≠ r'.orderId

/-- Whether the ids are fresh can be evaluated. -/
instance (requests : List MEClientRequest) : Decidable (FreshIds requests) :=
  inferInstanceAs (Decidable (List.Pairwise _ _))

/-- Ids that are not used twice by any client. -/
lemma freshIds_of_clients {requests : List MEClientRequest}
    (h : ∀ clientId, FreshIds (requests.filter fun r => r.clientId = clientId)) : FreshIds requests := by
  refine List.pairwise_iff_forall_sublist.mpr fun {r r'} hsub htype htype' hticker hclient => ?_
  have hown := hsub.filter fun r'' => decide (r''.clientId = r.clientId)
  rw [List.filter_cons_of_pos (by simp), List.filter_cons_of_pos (by simp [hclient]),
    List.filter_nil] at hown
  exact List.pairwise_iff_forall_sublist.mp (h r.clientId) hown htype htype' hticker hclient

/-! ## Entries are cleared -/

/-- Every entry of `b'` was one of `b`. -/
def NoNewEntry (b b' : MEOrderBook) : Prop := ∀ k p, b'.orderIndex k = some p → b.orderIndex k = some p

section Cleared

variable {b₀ b : MEOrderBook}

/-- Removing an order. -/
lemma NoNewEntry.safe_removeOrder (h : NoNewEntry b₀ b) (p : Ptr) :
    Safe (fun _ => True) (NoNewEntry b₀) (b.onBook fun book => book.removeOrder p) := by
  have hremove : Safe (fun _ => True)
      (fun book : LimitOrderBook MEOrder (ℕ × ℕ) => ∀ k q, book.orderIndex k = some q →
        b₀.orderIndex k = some q) (b.toLimitOrderBook.removeOrder p) := by
    unfold LimitOrderBook.removeOrder
    refine (safe_links_dequeueOrder _ p).bind fun b₁ h₁ => ?_
    have hidx : Safe (fun _ => True)
        (fun b₂ : LimitOrderBook MEOrder (ℕ × ℕ) => ∀ k q, b₂.orderIndex k = some q →
          b₀.orderIndex k = some q) (b₁.setIndex (BookOrder.slot (b.node p).order) none) := by
      cases BookOrder.slot (b.node p).order with
      | none => trivial
      | some k =>
        intro k' q hq
        simp only [Function.update_apply, h₁.orderIndex] at hq
        split_ifs at hq
        exact h k' q hq
    exact hidx.bind fun b₂ h₂ => (safe_true _).bind fun pool _ => h₂
  refine hremove.bind ?_
  intro book hbook
  exact hbook

/-- One execution. -/
lemma NoNewEntry.safe_matchOrder (h : NoNewEntry b₀ b) (tickerId clientId : ℕ) (side : Side)
    (clientOrderId newMarketOrderId : ℕ) (itr : Ptr) (leavesQty : ℕ) :
    Safe (fun _ => True) (fun r => NoNewEntry b₀ r.1)
      (b.matchOrder tickerId clientId side clientOrderId newMarketOrderId itr leavesQty) := by
  unfold matchOrder
  simp only
  split
  · refine Safe.bind (NoNewEntry.safe_removeOrder (?_ : NoNewEntry b₀ _) itr) ?_
    · exact h
    · intro b' hb'
      exact hb'
  · exact h

end Cleared

/-- Matching. -/
lemma safe_noNewEntry_checkForMatch (b : MEOrderBook) (clientId clientOrderId tickerId : ℕ)
    (side : Side) (price : ℤ) (qty newMarketOrderId : ℕ) :
    Safe (fun _ => True) (fun r => NoNewEntry b r.1)
      (b.checkForMatch clientId clientOrderId tickerId side price qty newMarketOrderId) := by
  refine safe_checkForMatch clientId clientOrderId tickerId side price newMarketOrderId (NoNewEntry b) ?_
    (fun _ _ hp => hp) qty
  intro b' newMarketOrderId _ itr leavesQty h _
  exact h.safe_matchOrder tickerId clientId side clientOrderId newMarketOrderId itr leavesQty

/-- A CANCEL. -/
lemma safe_noNewEntry_cancel (b : MEOrderBook) (clientId orderId tickerId : ℕ) :
    Safe (fun _ => True) (NoNewEntry b) (b.cancel clientId orderId tickerId) := by
  unfold MEOrderBook.cancel
  refine (safe_true _).bind fun p _ => ?_
  cases p with
  | none => exact fun _ _ hp => hp
  | some p =>
    refine Safe.bind (NoNewEntry.safe_removeOrder (?_ : NoNewEntry b _) p) ?_
    · exact fun _ _ hp => hp
    · intro b' hb'
      exact hb'

/-! ## One request -/

/-- **The table finds exactly the resting orders**, all of which have ids that are known. -/
structure Keyed (known : ℕ × ℕ → Prop) (b : MEOrderBook) : Prop where
  indexed : Indexed b.toLimitOrderBook
  known : ∀ k p, b.orderIndex k = some p → known k

section Requests

variable {known known' : ℕ × ℕ → Prop} {b b' : MEOrderBook}

/-- More ids may be known. -/
lemma Keyed.mono (h : Keyed known b) (hknown : ∀ k, known k → known' k) : Keyed known' b :=
  ⟨h.indexed, fun k p hp => hknown k (h.known k p hp)⟩

/-- Entries that are cleared. -/
lemma Keyed.of_noNewEntry (h : Keyed known b) (hindexed : Indexed b'.toLimitOrderBook)
    (hnone : NoNewEntry b b') : Keyed known b' := ⟨hindexed, fun k p hp => h.known k p (hnone k p hp)⟩

/-- Nothing is known of a new book. -/
lemma keyed_new (known : ℕ × ℕ → Prop) : Keyed known MEOrderBook.new :=
  ⟨indexed_new, fun _ _ hp => by cases hp⟩

/-- **A NEW request** with ids that are not known yet. -/
lemma Keyed.addAnnounced (h : Keyed known b) {r : MEClientRequest}
    (hfresh : ¬ known (r.clientId, r.orderId)) :
    Safe (fun _ => True) (Keyed fun k => known k ∨ k = (r.clientId, r.orderId))
      (b.addAnnounced r.clientId r.orderId r.tickerId r.side r.price r.qty) := by
  have hmatch : Safe (fun _ => True) (fun x => Keyed known x.1) (b.matchRequest r) := by
    refine ((safe_indexed_checkForMatch ?_ ..).and (safe_noNewEntry_checkForMatch ..)).mono
      (fun _ _ => trivial) fun x hx => h.of_noNewEntry hx.1 hx.2
    exact h.indexed
  have heq : b.addAnnounced r.clientId r.orderId r.tickerId r.side r.price r.qty =
      b.matchRequest r >>= fun x =>
        x.1.rest r.clientId r.orderId r.tickerId b.nextMarketOrderId r.side r.price x.2 := rfl
  rw [heq]
  refine hmatch.bind fun x hx => ?_
  unfold MEOrderBook.rest
  split
  · exact hx.mono fun _ hk => .inl hk
  · refine (safe_addRemainder_entered x.1 r.clientId r.orderId r.tickerId b.nextMarketOrderId r.side
      r.price x.2).bind ?_
    rintro placed ⟨record, hplaced⟩
    have hfree : x.1.orderIndex (r.clientId, r.orderId) = none := by
      refine Option.eq_none_iff_forall_ne_some.mpr fun p hp => ?_
      exact hfresh (hx.known _ p hp)
    refine ⟨Indexed.place hx.indexed hplaced hfree, fun k p hp => ?_⟩
    have hp : placed.1.orderIndex k = some p := hp
    rw [hplaced.orderIndex, Function.update_apply] at hp
    split_ifs at hp with hk
    · exact .inr hk
    · exact .inl (hx.known k p hp)

/-- **A request.** -/
lemma Keyed.process (h : Keyed known b) {r : MEClientRequest}
    (hfresh : r.type = .new → ¬ known (r.clientId, r.orderId)) :
    Safe (fun _ => True) (Keyed fun k => known k ∨ r.type = .new ∧ k = (r.clientId, r.orderId))
      (processClientRequest MEOrderBook.addAnnounced b r) := by
  unfold processClientRequest
  cases htype : r.type with
  | invalid => trivial
  | new =>
    refine (h.addAnnounced (hfresh htype)).mono (fun _ hf => hf) fun b' hb' => hb'.mono fun k hk => ?_
    exact hk.imp_right fun hk => ⟨rfl, hk⟩
  | cancel =>
    refine ((safe_indexed_cancel h.indexed _ _ _).and (safe_noNewEntry_cancel b _ _ _)).mono
      (fun _ _ => trivial) fun b' hb' => ?_
    exact (h.of_noNewEntry hb'.1 hb'.2).mono fun k hk => .inl hk

end Requests

/-! ## Runs -/

/-- The ids that were used for orders of a ticker. -/
def UsedIds (requests : List MEClientRequest) (t : ℕ) (k : ℕ × ℕ) : Prop :=
  ∃ r ∈ requests, r.type = .new ∧ r.tickerId = t ∧ (r.clientId, r.orderId) = k

/-- **The tables of all books**, after the requests that were processed. -/
lemma safe_keyed {requests : List MEClientRequest} (h : FreshIds requests) :
    Safe (fun _ => True) (fun x : EngineState => ∀ t, Keyed (UsedIds requests t) (x.alone t))
      (requests.foldlM (EngineState.process MEOrderBook.addAnnounced) {}) := by
  refine safe_foldlM_list
    (J := fun done x => ∀ t, Keyed (UsedIds done t) (EngineState.alone x t)) (fun _ => keyed_new _) ?_
  intro pre r post x hsplit hx
  have hfresh : ∀ r' ∈ pre, r'.type = .new → r.type = .new → r'.tickerId = r.tickerId →
      r'.clientId = r.clientId → r'.orderId ≠ r.orderId := by
    intro r' hr'
    rw [FreshIds, hsplit, List.pairwise_append] at h
    exact h.2.2 r' hr' r List.mem_cons_self
  by_cases hticker : r.tickerId < meMaxTickers
  swap
  · unfold EngineState.process
    rw [if_neg hticker]
    trivial
  refine (EngineState.safe_process local_addAnnounced x hticker
    ((hx r.tickerId).process fun htype => ?_)).mono (fun _ _ => trivial) ?_
  · rintro ⟨r', hr', htype', hticker', hids⟩
    have hids := Prod.mk.inj hids
    exact hfresh r' hr' htype' htype hticker' hids.1 hids.2
  · rintro x' ⟨b', hb', halone⟩ t
    rw [halone, Function.update_apply]
    split_ifs with ht
    · subst ht
      refine hb'.mono fun k hk => ?_
      rcases hk with ⟨r', hr', hused⟩ | ⟨htype, rfl⟩
      · exact ⟨r', List.mem_append_left _ hr', hused⟩
      · exact ⟨r, List.mem_append_right _ (List.mem_singleton.mpr rfl), htype, rfl, rfl⟩
    · refine (hx t).mono ?_
      rintro k ⟨r', hr', hused⟩
      exact ⟨r', List.mem_append_left _ hr', hused⟩

/-- **Every resting order can be canceled by its owner**, in every state of every run, with `add` through
line 105, in which no client uses an id for two orders of a ticker. -/
theorem cancelable_of_freshIds {requests : List MEClientRequest} (h : FreshIds requests) :
    Always (EngineState.process MEOrderBook.addAnnounced)
      (fun x => ∀ t, Cancelable (x.tickerOrderBook t)) {} requests := by
  refine always_iff_prefix.mpr fun pre x hpre hx t => ?_
  have hkeyed := (safe_keyed (List.Pairwise.sublist hpre.sublist h)).of_eq_ok hx t
  exact cancelable_of_indexed (b := x.tickerOrderBook t) hkeyed.indexed

/-- The ids of the sample are fresh. -/
theorem cancelable_of_freshIds_sample :
    Always (EngineState.process MEOrderBook.addAnnounced)
      (fun x => ∀ t, Cancelable (x.tickerOrderBook t)) {} sampleOrders :=
  cancelable_of_freshIds (by decide : FreshIds sampleOrders)

end Exchange
