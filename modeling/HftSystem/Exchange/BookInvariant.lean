import HftSystem.Exchange.Resting

set_option relaxedAutoImplicit false
set_option autoImplicit false

/-!
# The invariant of the exchange book

What holds of every book that NEW and CANCEL requests lead to: it represents a valid view, the
queues are in the order of priorities and of market order ids, and no bid meets an ask. Every
edit of the view but the insertion only takes orders out or changes their quantities, which
`Shrinks` captures once for all of them.

## Main definitions

* `Exchange.Ordered`, `Exchange.Uncrossed`, `Exchange.BookInvariant` — the invariant.
* `Exchange.Shrinks` — an edit that only takes orders out or changes quantities.
* `Exchange.Admissible` — the requests of a run: a book side, a quantity, and a price that no
  resting price collides with.

## Main results

* `Exchange.BookInvariant.cancel`, `Exchange.BookInvariant.matchAndRest` — the two steps.
* `Exchange.bookInvariant_run` — every run, with its two consequences
  `Exchange.representation_invariant` and `Exchange.never_crossed`.
-/

namespace Exchange

open Common LimitOrderBook PriceTime Fallible MEOrderBook

/-! ## The invariant -/

/-- What orders the queue of a level. -/
def queueKey (x : Ptr × MEOrder) : ℕ × ℕ := (x.2.priority, x.2.marketOrderId)

/-- The queues are in strictly increasing order of priority and of market order id, and the ids
have been generated. -/
structure Ordered (v : View MEOrder) (nextMarketOrderId : ℕ) : Prop where
  queue : ∀ l ∈ v.levels, (l.queue.map queueKey).Pairwise fun x y => x.1 < y.1 ∧ x.2 < y.2
  fresh : ∀ l ∈ v.levels, ∀ k ∈ l.queue.map queueKey, k.2 < nextMarketOrderId

/-- Every bid is below every ask. -/
def Uncrossed (v : View MEOrder) : Prop := ∀ bid ∈ v.bids, ∀ ask ∈ v.asks, bid.price < ask.price

/-- **The invariant of the exchange book.** -/
structure BookInvariant (b : MEOrderBook) (v : View MEOrder) : Prop where
  wellFormed : WellFormed b v
  ordered : Ordered v b.nextMarketOrderId
  uncrossed : Uncrossed v

/-- Every level of `v'` was a level of `v`, and its queue has lost orders at most. -/
def Shrinks (v v' : View MEOrder) : Prop :=
  ∀ s, s.IsBookSide → ∀ m ∈ v'.side s, ∃ l ∈ v.side s, m.price = l.price ∧
    (m.queue.map queueKey).Sublist (l.queue.map queueKey)

/-- A view loses nothing to itself. -/
lemma Shrinks.refl (v : View MEOrder) : Shrinks v v :=
  fun _ _ m hm => ⟨m, hm, rfl, List.Sublist.refl _⟩

/-- What is lost in two steps is lost. -/
lemma Shrinks.trans {v v' v'' : View MEOrder} (h : Shrinks v v') (h' : Shrinks v' v'') :
    Shrinks v v'' := by
  intro s hs m hm
  obtain ⟨l, hl, hprice, hsub⟩ := h' s hs m hm
  obtain ⟨k, hk, hprice', hsub'⟩ := h s hs l hl
  exact ⟨k, hk, hprice.trans hprice', hsub.trans hsub'⟩

/-- Replacing a level by one with fewer orders. -/
lemma shrinks_set {v : View MEOrder} {s : Side} {l : Level MEOrder}
    {l₁ l₂ m : List (Level MEOrder)} (hs : s.IsBookSide) (hv : v.side s = l₁ ++ l :: l₂)
    (hm : ∀ k ∈ m, k.price = l.price ∧ (k.queue.map queueKey).Sublist (l.queue.map queueKey)) :
    Shrinks v (v.set s (l₁ ++ (m ++ l₂))) := by
  intro s' hs' k hk
  by_cases he : s' = s
  · rw [he, View.side_set_self, List.mem_append, List.mem_append] at hk
    rw [he, hv]
    rcases hk with hk | hk | hk
    · exact ⟨k, by simp [hk], rfl, List.Sublist.refl _⟩
    · exact ⟨l, by simp, hm k hk⟩
    · exact ⟨k, by simp [hk], rfl, List.Sublist.refl _⟩
  · rw [View.side_set_of_ne _ _ hs hs' he] at hk
    exact ⟨k, hk, rfl, List.Sublist.refl _⟩

/-- Taking an order out shrinks the view. -/
lemma shrinks_remove {v : View MEOrder} {s : Side} {l : Level MEOrder}
    {l₁ l₂ : List (Level MEOrder)} {q : List (Ptr × MEOrder)} (hs : s.IsBookSide)
    (hv : v.side s = l₁ ++ l :: l₂) (hq : q.Sublist l.queue) :
    Shrinks v (v.set s (l₁ ++ (l.withQueue q ++ l₂))) := by
  refine shrinks_set hs hv fun k hk => ?_
  cases q with
  | nil => simp [Level.withQueue] at hk
  | cons x q =>
    obtain rfl := List.mem_singleton.mp hk
    exact ⟨rfl, hq.map _⟩

/-- An execution shrinks the view. -/
lemma shrinks_afterMatch {v : View MEOrder} {s : Side} {l : Level MEOrder}
    {ls : List (Level MEOrder)} {p : Ptr} {o : MEOrder} {q : List (Ptr × MEOrder)}
    (hs : s.IsBookSide) (hv : v.side s = l :: ls) (hq : l.queue = (p, o) :: q) (leavesQty : ℕ) :
    Shrinks v (afterMatch v s l ls p o q leavesQty) := by
  have hv₀ : v.side s = [] ++ l :: ls := hv
  rw [afterMatch]
  split
  · exact shrinks_remove hs hv₀ (by rw [hq]; exact List.sublist_cons_self _ _)
  · refine shrinks_set (m := [_]) hs hv₀ fun k hk => ?_
    obtain rfl := List.mem_singleton.mp hk
    exact ⟨rfl, by simp [hq, queueKey]⟩

/-- Lost orders leave the others in their order. -/
lemma Ordered.shrink {v v' : View MEOrder} {n : ℕ} (h : Ordered v n) (hs : Shrinks v v') :
    Ordered v' n where
  queue m hm := by
    obtain ⟨s, hside, hm⟩ := View.mem_levels.mp hm
    obtain ⟨l, hl, -, hsub⟩ := hs s hside m hm
    exact (h.queue l (View.mem_levels_of_side hl)).sublist hsub
  fresh m hm k hk := by
    obtain ⟨s, hside, hm⟩ := View.mem_levels.mp hm
    obtain ⟨l, hl, -, hsub⟩ := hs s hside m hm
    exact h.fresh l (View.mem_levels_of_side hl) k (hsub.subset hk)

/-- The ids stay below a larger bound. -/
lemma Ordered.mono {v : View MEOrder} {n n' : ℕ} (h : Ordered v n) (hn : n ≤ n') : Ordered v n' where
  queue := h.queue
  fresh l hl k hk := (h.fresh l hl k hk).trans_le hn

/-- Lost orders do not cross the others. -/
lemma Uncrossed.shrink {v v' : View MEOrder} (h : Uncrossed v) (hs : Shrinks v v') :
    Uncrossed v' := by
  intro bid hbid ask hask
  obtain ⟨l, hl, hprice, -⟩ := hs .buy (.inl rfl) bid hbid
  obtain ⟨l', hl', hprice', -⟩ := hs .sell (.inr rfl) ask hask
  rw [hprice, hprice']
  exact h l hl l' hl'

/-! ## Resting -/

/-- Where an order is placed: the levels of the new view. -/
lemma Placed.mem_levels {v v' : View MEOrder} {p : Ptr} {x : MEOrder} (h : Placed v p x v')
    {m : Level MEOrder} (hm : m ∈ v'.levels) :
    m ∈ v.levels ∨ (∃ l ∈ v.levels, priceToIndex l.price = priceToIndex x.price ∧
      m = { l with queue := l.queue ++ [(p, x)] }) ∨
      m.queue = [(p, x)] ∧ m.price = x.price := by
  cases h with
  | @append s l l₁ l₂ hs hv hl =>
    have hmem : l ∈ v.levels := View.mem_levels_of_side (s := s) (by simp [hv])
    rcases List.mem_cons.mp ((v.levels_set_perm s l₁ [_] l₂).mem_iff.mp hm) with rfl | hm
    · exact .inr (.inl ⟨l, hmem, hl, rfl⟩)
    · exact .inl ((View.levels_perm_cons hv).mem_iff.mpr (List.mem_cons_of_mem _ hm))
  | openLevel a hempty =>
    rcases List.mem_cons.mp ((v.levels_insertLevel _ _).mem_iff.mp hm) with rfl | hm
    · exact .inr (.inr ⟨rfl, rfl⟩)
    · exact .inl hm

/-- **Resting keeps the queues in order**: the new order has the largest priority of its level
and the largest market order id of all.

**Proof sketch.** By the level of the new order. Where it joins one, the last order of that level has
the largest priority of all, and the new one has a larger one (`NextPriority`). Its market order id is
the next one, which is larger than all that rest. -/
lemma Ordered.place {b : MEOrderBook} {v v' : View MEOrder} {p : Ptr} {x : MEOrder}
    (h : Ordered v x.marketOrderId) (hb : WellFormed b v) (hplaced : Placed v p x v')
    (hnext : NextPriority v x.price x.priority) : Ordered v' (x.marketOrderId + 1) where
  queue m hm := by
    rcases Placed.mem_levels hplaced hm with hm | ⟨l, hl, hprice, rfl⟩ | ⟨hm, -⟩
    · exact h.queue m hm
    · rw [List.map_append, List.pairwise_append]
      refine ⟨h.queue l hl, List.pairwise_singleton _ _, fun k hk k' hk' => ?_⟩
      obtain rfl := List.mem_singleton.mp hk'
      refine ⟨?_, h.fresh l hl k hk⟩
      rcases hnext with ⟨hempty, -⟩ | ⟨l', hl', hprice', z, hz, hprio⟩
      · exact absurd hprice (hempty l hl)
      · obtain rfl : l' = l :=
          hb.repr.shape.heap.eq_of_bucket hl' hl (hprice'.trans hprice.symm)
        -- the last order of the level has its largest priority
        obtain ⟨q, hq⟩ := List.getLast?_eq_some_iff.mp hz
        have hsorted := h.queue l' hl
        rw [hq, List.map_append, List.map_singleton] at hsorted hk
        simp only [queueKey]
        rcases List.mem_append.mp hk with hk | hk
        · have := ((List.pairwise_append.mp hsorted).2.2 k hk _ (List.mem_singleton.mpr rfl)).1
          simp only [queueKey] at this
          omega
        · obtain rfl := List.mem_singleton.mp hk
          simp only [queueKey]
          omega
    · rw [hm]
      exact List.pairwise_singleton _ _
  fresh m hm k hk := by
    rcases Placed.mem_levels hplaced hm with hm | ⟨l, hl, -, rfl⟩ | ⟨hm, -⟩
    · exact (h.fresh m hm k hk).trans (Nat.lt_succ_self _)
    · rw [List.map_append, List.mem_append] at hk
      rcases hk with hk | hk
      · exact (h.fresh l hl k hk).trans (Nat.lt_succ_self _)
      · obtain rfl := List.mem_singleton.mp hk
        exact Nat.lt_succ_self _
    · rw [hm] at hk
      obtain rfl := List.mem_singleton.mp hk
      exact Nat.lt_succ_self _

/-- When the best level of a side does not cross, none does. -/
lemma not_crosses_of_head {v : View MEOrder} (hv : v.Valid) {side : Side} (hs : side.IsBookSide)
    {price : ℤ}
    (h : ∀ l ∈ (v.side side.opposite).head?, crosses side price l.price = false) :
    ∀ l ∈ v.side side.opposite, crosses side price l.price = false := by
  intro l hl
  have hsorted := hv.sorted _ (isBookSide_opposite side)
  cases hlevels : v.side side.opposite with
  | nil => simp [hlevels] at hl
  | cons k ls =>
    rw [hlevels] at hl h hsorted
    have hk := h k rfl
    rcases List.mem_cons.mp hl with rfl | hl
    · exact hk
    · have hbetter := (List.pairwise_cons.mp hsorted).1 l.price (List.mem_map_of_mem hl)
      rcases hs with rfl | rfl <;>
        simp [crosses, Side.opposite, isBetter] at hk hbetter ⊢ <;> omega

/-- The levels of the side of an order that was placed. -/
lemma Placed.price_mem {v v' : View MEOrder} {p : Ptr} {x : MEOrder} (h : Placed v p x v')
    (hv : v.Valid) (hs : x.side.IsBookSide) (hfits : v.Fits x) {m : Level MEOrder}
    (hm : m ∈ v'.side x.side) : m.price = x.price ∨ ∃ l ∈ v.side x.side, m.price = l.price := by
  have hcontents := (Common.Placed.contents h hv hs hfits).2.1
  have hmem : m.contents ∈ v'.contents x.side := List.mem_map_of_mem hm
  rw [show v'.contents x.side = _ from hcontents] at hmem
  rcases mem_insertOrder hmem with hmem | ⟨hprice, -⟩
  · obtain ⟨l, hl, hle⟩ := List.mem_map.mp hmem
    exact .inr ⟨l, hl, (congrArg Prod.fst hle).symm⟩
  · exact .inl hprice

/-- **Resting never crosses the book** when the order does not cross it. -/
lemma Uncrossed.place {v v' : View MEOrder} {p : Ptr} {x : MEOrder} (h : Uncrossed v)
    (hplaced : Placed v p x v') (hv : v.Valid) (hs : x.side.IsBookSide) (hfits : v.Fits x)
    (hcross : ∀ l ∈ v.side x.side.opposite, crosses x.side x.price l.price = false) :
    Uncrossed v' := by
  have hother := (Common.Placed.contents hplaced hv hs hfits).2.2
  have hown := fun m hm => Placed.price_mem hplaced hv hs hfits (m := m) hm
  intro bid hbid ask hask
  rcases hs with hbuy | hsell
  · have hasks : v'.asks = v.asks := hother .sell (.inr rfl) (by
      change Side.sell ≠ x.side
      rw [hbuy]
      decide)
    rw [hasks] at hask
    rw [hbuy] at hown hcross
    have hnot := hcross ask hask
    rcases hown bid hbid with hprice | ⟨l, hl, hprice⟩
    · simp [crosses] at hnot
      omega
    · rw [hprice]
      exact h l hl ask hask
  · have hbids : v'.bids = v.bids := hother .buy (.inl rfl) (by
      change Side.buy ≠ x.side
      rw [hsell]
      decide)
    rw [hbids] at hbid
    rw [hsell] at hown hcross
    have hnot := hcross bid hbid
    rcases hown ask hask with hprice | ⟨l, hl, hprice⟩
    · simp [crosses] at hnot
      omega
    · rw [hprice]
      exact h bid hbid l hl

/-! ## The steps -/

/-- The loop of `checkForMatch` keeps what shrinking keeps. -/
lemma checkForMatch_shrinks {b : MEOrderBook} {v : View MEOrder} (h : WellFormed b v)
    (clientId clientOrderId tickerId : ℕ) {side : Side} (hs : side.IsBookSide) (price : ℤ)
    (qty newMarketOrderId : ℕ) :
    ∃ b' v' leavesQty, b.checkForMatch clientId clientOrderId tickerId side price qty
        newMarketOrderId = .ok (b', leavesQty) ∧
      WellFormed b' v' ∧ Shrinks v v' ∧ b'.nextMarketOrderId = b.nextMarketOrderId ∧
      (leavesQty = 0 ∨ ∀ l ∈ v'.side side.opposite, crosses side price l.price = false) := by
  obtain ⟨b', v', leavesQty, hloop, hwf, ⟨hshrinks, hnext⟩, hstop⟩ :=
    checkForMatch_rule clientId clientOrderId tickerId side price newMarketOrderId
      (fun b' v' _ => Shrinks v v' ∧ b'.nextMarketOrderId = b.nextMarketOrderId)
      (fun b₁ b₂ v₁ l ls p o q leaves _ hI hside hq _ _ _ _ hnext =>
        ⟨hI.1.trans (shrinks_afterMatch (isBookSide_opposite side) hside hq leaves),
          hnext.trans hI.2⟩)
      h hs qty ⟨Shrinks.refl v, rfl⟩
  exact ⟨b', v', leavesQty, hloop, hwf, hshrinks, hnext,
    hstop.imp_right (not_crosses_of_head hwf.valid hs)⟩

/-- The live prices and the price of a request are pairwise equal or not congruent modulo
`ME_MAX_PRICE_LEVELS`. -/
def NoCollision (v : View MEOrder) (price : ℤ) : Prop :=
  ∀ l ∈ v.levels, l.price = price ∨ priceToIndex l.price ≠ priceToIndex price

/-- Lost levels collide with nothing. -/
lemma NoCollision.shrink {v v' : View MEOrder} {price : ℤ} (h : NoCollision v price)
    (hs : Shrinks v v') : NoCollision v' price := by
  intro m hm
  obtain ⟨s, hside, hm⟩ := View.mem_levels.mp hm
  obtain ⟨l, hl, hprice, -⟩ := hs s hside m hm
  rw [hprice]
  exact h l (View.mem_levels_of_side hl)

/-- A level at the price of an order that does not cross the book is on the side of the order. -/
lemma NoCollision.fits {v : View MEOrder} {side : Side} {price : ℤ} (h : NoCollision v price)
    (hv : v.Valid) (hs : side.IsBookSide)
    (hcross : ∀ l ∈ v.side side.opposite, crosses side price l.price = false) :
    ∀ l ∈ v.levels, priceToIndex l.price = priceToIndex price →
      l.price = price ∧ l.side = side := by
  intro l hl he
  have hprice : l.price = price := (h l hl).resolve_right fun hne => hne he
  obtain ⟨s, hs', hl⟩ := View.mem_levels.mp hl
  refine ⟨hprice, ?_⟩
  rw [(hv.homed s hs' l hl).1]
  by_contra hne
  have hopp : s = side.opposite := by
    rcases hs with rfl | rfl <;> rcases hs' with rfl | rfl <;> simp_all [Side.opposite]
  have := hcross l (hopp ▸ hl)
  rw [hprice] at this
  simp [crosses] at this

/-- The levels of `v'` are at prices of `v`, or at a price of `prices`. -/
def PricesFrom (v : View MEOrder) (prices : List ℤ) (v' : View MEOrder) : Prop :=
  ∀ m ∈ v'.levels, m.price ∈ prices ∨ ∃ l ∈ v.levels, m.price = l.price

/-- The levels that are left are at old prices. -/
lemma Shrinks.pricesFrom {v v' : View MEOrder} (h : Shrinks v v') (prices : List ℤ) :
    PricesFrom v prices v' := by
  intro m hm
  obtain ⟨s, hside, hm⟩ := View.mem_levels.mp hm
  obtain ⟨l, hl, hprice, -⟩ := h s hside m hm
  exact .inr ⟨l, View.mem_levels_of_side hl, hprice⟩

/-- **`cancel` keeps the invariant.** -/
theorem BookInvariant.cancel {b : MEOrderBook} {v : View MEOrder} (h : BookInvariant b v)
    (clientId orderId tickerId : ℕ) :
    Safe (fun f => f = .outOfRange ∧ ¬ orderId < meMaxOrderIds)
      (fun b' => ∃ v', BookInvariant b' v' ∧ PricesFrom v [] v')
      (b.cancel clientId orderId tickerId) := by
  refine (safe_cancel h.wellFormed clientId orderId tickerId).mono (fun _ hf => hf) ?_
  rintro b' ⟨v', hwf, hstep⟩
  cases hstep with
  | rejected => exact ⟨v, ⟨hwf, h.ordered, h.uncrossed⟩, (Shrinks.refl v).pricesFrom _⟩
  | @canceled _ s l l₁ l₂ q₁ q₂ x hs hv hq _ _ hnext =>
    have hshrinks : Shrinks v (v.set s (l₁ ++ (l.withQueue (q₁ ++ q₂) ++ l₂))) :=
      shrinks_remove hs hv (by rw [hq]; exact (List.sublist_cons_self _ _).append_left _)
    refine ⟨_, ⟨hwf, ?_, h.uncrossed.shrink hshrinks⟩, hshrinks.pricesFrom _⟩
    rw [hnext]
    exact h.ordered.shrink hshrinks

/-- **`add` through line 102 keeps the invariant.**

**Proof sketch.** Matching shrinks the view and stops when no level of the other side crosses.
So a level at the price of the remainder is on its side, and the remainder crosses nothing. -/
theorem BookInvariant.matchAndRest {b : MEOrderBook} {v : View MEOrder} (h : BookInvariant b v)
    (clientId clientOrderId tickerId : ℕ) {side : Side} (hs : side.IsBookSide) {price : ℤ}
    (hprice : NoCollision v price) (qty : ℕ) :
    Safe (fun f => NoFreshBlock f ∨ f = .outOfRange ∧ clientOrderSlot clientId clientOrderId = none)
      (fun b' => ∃ v', BookInvariant b' v' ∧ PricesFrom v [price] v')
      (b.matchAndRest clientId clientOrderId tickerId side price qty) := by
  set accepted := (b.accept clientId clientOrderId tickerId side price qty).1 with haccepted
  have hwf₀ : WellFormed accepted v := h.wellFormed.of_book rfl
  obtain ⟨b₁, v₁, leavesQty, hmatch, hwf, hshrinks, hnext, hstop⟩ :=
    checkForMatch_shrinks hwf₀ clientId clientOrderId tickerId hs price qty b.nextMarketOrderId
  have hnext₁ : b₁.nextMarketOrderId = b.nextMarketOrderId + 1 := hnext
  have hordered : Ordered v₁ b.nextMarketOrderId := h.ordered.shrink hshrinks
  have huncrossed : Uncrossed v₁ := h.uncrossed.shrink hshrinks
  have hid : (b.accept clientId clientOrderId tickerId side price qty).2 = b.nextMarketOrderId := rfl
  unfold MEOrderBook.matchAndRest
  simp only [← haccepted, hid, hmatch, ok_bind]
  by_cases hzero : leavesQty = 0
  · rw [if_pos hzero]
    refine ⟨v₁, ⟨hwf, ?_, huncrossed⟩, hshrinks.pricesFrom _⟩
    rw [hnext₁]
    exact hordered.mono (Nat.le_succ _)
  · rw [if_neg hzero]
    have hcross := hstop.resolve_left hzero
    have hfits := (hprice.shrink hshrinks).fits hwf.valid hs hcross
    refine Safe.bind (safe_addRemainder hwf clientId clientOrderId tickerId b.nextMarketOrderId hs
      price (Nat.pos_of_ne_zero hzero) hfits) ?_
    rintro ⟨b₂, priority, p⟩ ⟨v₂, hwf₂, hpriority, hplaced, -, hnext₂, -⟩
    refine ⟨v₂, ⟨hwf₂, ?_, huncrossed.place hplaced hwf.valid hs hfits hcross⟩, fun m hm => ?_⟩
    · rw [show b₂.nextMarketOrderId = b.nextMarketOrderId + 1 from hnext₂.trans hnext₁]
      exact Ordered.place hordered hwf hplaced hpriority
    · rcases Placed.mem_levels hplaced hm with hm | ⟨l, hl, -, rfl⟩ | ⟨-, hm⟩
      · exact hshrinks.pricesFrom _ m hm
      · exact hshrinks.pricesFrom [price] l hl
      · exact .inl (by simp [hm])

/-! ## Runs -/

/-- The requests that a run may contain: a NEW request names a book side, and no resting price
is congruent to its price without being equal to it. -/
def Admissible (b : MEOrderBook) (r : MEClientRequest) : Prop :=
  r.type ≠ .invalid ∧ (r.type = .new → r.side.IsBookSide ∧ ∀ p, b.orderPool.InUse p →
    (b.node p).order.price = r.price ∨ ¬ (b.node p).order.price ≡ r.price [ZMOD meMaxPriceLevels])

/-- The identifiers of a request have entries in the table of orders. -/
def InRange (r : MEClientRequest) : Prop :=
  r.clientId < meMaxNumClients ∧ r.orderId < meMaxOrderIds

/-- How a run of requests can end early: a pool supplies no fresh block, or a request names an
identifier that the table of orders has no entry for. -/
def RunFault (requests : List MEClientRequest) (f : Fault) : Prop :=
  NoFreshBlock f ∨ f = .outOfRange ∧ ∃ r ∈ requests, ¬ InRange r

/-- The condition on the resting prices, on the view. -/
lemma noCollision_of_admissible {b : MEOrderBook} {v : View MEOrder} (h : WellFormed b v)
    {price : ℤ} (hprice : ∀ p, b.orderPool.InUse p → (b.node p).order.price = price ∨
      ¬ (b.node p).order.price ≡ price [ZMOD meMaxPriceLevels]) : NoCollision v price := by
  intro l hl
  obtain ⟨x, q, hq⟩ := List.exists_cons_of_ne_nil (h.valid.nonempty l hl)
  have hx : x ∈ l.queue := by simp [hq]
  obtain ⟨s, hs, hside⟩ := View.mem_levels.mp hl
  have hrecord : (b.node x.1).order.price = l.price := by
    rw [(h.repr.shape.heap.levelAt l hl).record x hx]
    exact ((h.valid.homed s hs l hside).2 x hx).2
  have := hprice x.1 ((h.repr.ledger.inUse x.1).mpr (mem_ptrs.mpr ⟨x, mem_orders.mpr ⟨l, hl, hx⟩, rfl⟩))
  rw [hrecord, ← priceToIndex_eq_iff] at this
  exact this

/-- One request keeps the invariant. -/
lemma bookInvariant_step {b : MEOrderBook} {v : View MEOrder} (h : BookInvariant b v)
    {r : MEClientRequest} (hr : Admissible b r) :
    Safe (fun f => NoFreshBlock f ∨ f = .outOfRange ∧ ¬ InRange r)
      (fun b' => ∃ v', BookInvariant b' v' ∧ PricesFrom v [r.price] v')
      (processClientRequest matchAndRest b r) := by
  unfold processClientRequest
  cases htype : r.type with
  | invalid => exact absurd htype hr.1
  | new =>
    obtain ⟨hs, hprice⟩ := hr.2 htype
    refine (h.matchAndRest r.clientId r.orderId r.tickerId hs
      (noCollision_of_admissible h.wellFormed hprice) r.qty).mono (fun f hf => ?_) fun _ hb => hb
    refine hf.imp_right fun ⟨hf, hslot⟩ => ⟨hf, fun hin => ?_⟩
    simp [clientOrderSlot, hin.1, hin.2] at hslot
  | cancel =>
    refine (h.cancel r.clientId r.orderId r.tickerId).mono (fun f hf => .inr ⟨hf.1, ?_⟩) ?_
    · exact fun hin => hf.2 hin.2
    · rintro b' ⟨v', h', hprices⟩
      exact ⟨v', h', fun m hm => .inr ((hprices m hm).resolve_left (by simp))⟩

/-- The invariant holds of a new book. -/
lemma bookInvariant_new : BookInvariant MEOrderBook.new {} :=
  ⟨wellFormed_new, ⟨by simp [View.levels], by simp [View.levels]⟩, by simp [Uncrossed]⟩

/-- **Every run keeps the invariant.** -/
theorem bookInvariant_run {requests : List MEClientRequest}
    (h : Meets (processClientRequest matchAndRest) Admissible MEOrderBook.new requests) :
    Safe (RunFault requests) (fun b => ∃ v, BookInvariant b v)
      (requests.foldlM (processClientRequest matchAndRest) MEOrderBook.new) := by
  refine safe_foldlM (C := fun b r => Admissible b r ∧ r ∈ requests) ?_ ⟨{}, bookInvariant_new⟩
    (h.and_forall fun _ hr => hr)
  rintro b r ⟨v, hv⟩ ⟨hr, hmem⟩
  refine (bookInvariant_step hv hr).mono (fun f hf => ?_) fun b' ⟨v', hv', _⟩ => ⟨v', hv'⟩
  exact hf.imp_right fun ⟨hf, hin⟩ => ⟨hf, r, hmem, hin⟩

/-- A run that returned left a book that keeps the invariant. -/
lemma exists_bookInvariant_of_run {requests : List MEClientRequest} {b : MEOrderBook}
    (h : Meets (processClientRequest matchAndRest) Admissible MEOrderBook.new requests)
    (hb : requests.foldlM (processClientRequest matchAndRest) MEOrderBook.new = .ok b) :
    ∃ v, BookInvariant b v :=
  (bookInvariant_run h).of_eq_ok hb

/-- A request whose price gets along with those of the levels is admissible. -/
lemma admissible_of_prices {b : MEOrderBook} {v : View MEOrder} (hv : BookInvariant b v)
    {r : MEClientRequest} (htype : r.type ≠ .invalid) (hside : r.type = .new → r.side.IsBookSide)
    (hprice : ∀ l ∈ v.levels, l.price = r.price ∨ ¬ l.price ≡ r.price [ZMOD meMaxPriceLevels]) :
    Admissible b r := by
  refine ⟨htype, fun hnew => ⟨hside hnew, fun p hp => ?_⟩⟩
  obtain ⟨x, hx, rfl⟩ := mem_ptrs.mp ((hv.wellFormed.repr.ledger.inUse p).mp hp)
  obtain ⟨l, hl, hxl⟩ := mem_orders.mp hx
  obtain ⟨s, hs, hsl⟩ := View.mem_levels.mp hl
  have hrecord : (b.node x.1).order.price = l.price := by
    rw [(hv.wellFormed.repr.shape.heap.levelAt l hl).record x hxl]
    exact ((hv.wellFormed.valid.homed s hs l hsl).2 x hxl).2
  rw [hrecord]
  exact hprice l hl

/-- A run whose prices are pairwise equal or not congruent is admissible throughout. -/
lemma meets_admissible {requests : List MEClientRequest}
    (htype : ∀ r ∈ requests, r.type ≠ .invalid)
    (hside : ∀ r ∈ requests, r.type = .new → r.side.IsBookSide)
    (hprice : ∀ r ∈ requests, ∀ r' ∈ requests,
      r.price = r'.price ∨ ¬ r.price ≡ r'.price [ZMOD meMaxPriceLevels]) :
    Meets (processClientRequest matchAndRest) Admissible MEOrderBook.new requests := by
  have hadm : ∀ b r, (∃ v, BookInvariant b v ∧
      ∀ l ∈ v.levels, ∃ r' ∈ requests, l.price = r'.price) → r ∈ requests → Admissible b r := by
    rintro b r ⟨v, hv, hprices⟩ hr
    refine admissible_of_prices hv (htype r hr) (hside r hr) fun l hl => ?_
    obtain ⟨r', hr', hlr⟩ := hprices l hl
    rw [hlr]
    exact hprice r' hr' r hr
  refine meets_of_forall (D := fun r => r ∈ requests) hadm ?_
    ⟨{}, bookInvariant_new, by simp [View.levels]⟩ fun _ hr => hr
  rintro b r b' ⟨v, hv, hprices⟩ hr hb'
  obtain ⟨v', hv', hfrom⟩ :=
    (bookInvariant_step hv (hadm b r ⟨v, hv, hprices⟩ hr)).of_eq_ok hb'
  refine ⟨v', hv', fun m hm => ?_⟩
  rcases hfrom m hm with hm | ⟨l, hl, hm⟩
  · exact ⟨r, hr, List.mem_singleton.mp hm⟩
  · obtain ⟨r', hr', hlr⟩ := hprices l hl
    exact ⟨r', hr', hm.trans hlr⟩

/-- **The representation invariant of the exchange book.** Whatever NEW and CANCEL requests
are processed, the run ends early only for want of a fresh block or of a table entry, and
otherwise the pools, the circular lists and the tables hold a view whose sides are in strict
price order and whose queues are non-empty and in strict order of priority and of market order
id. -/
theorem representation_invariant {requests : List MEClientRequest}
    (h : Meets (processClientRequest matchAndRest) Admissible MEOrderBook.new requests) :
    Safe (RunFault requests)
      (fun b => ∃ v, Represents b.toLimitOrderBook v ∧ v.Valid ∧ Ordered v b.nextMarketOrderId)
      (requests.foldlM (processClientRequest matchAndRest) MEOrderBook.new) :=
  (bookInvariant_run h).mono (fun _ hf => hf) fun _ ⟨v, hv⟩ =>
    ⟨v, hv.wellFormed.repr, hv.wellFormed.valid, hv.ordered⟩

/-- Three orders, of which the last one takes out the first, and a cancel of the second. -/
def sampleRequests : List MEClientRequest :=
  [{ type := .new, clientId := 1, tickerId := 0, orderId := 1, side := .sell, price := 12, qty := 5 },
   { type := .new, clientId := 2, tickerId := 0, orderId := 1, side := .buy, price := -3, qty := 4 },
   { type := .new, clientId := 2, tickerId := 0, orderId := 2, side := .buy, price := 12, qty := 9 },
   { type := .cancel, clientId := 2, tickerId := 0, orderId := 1, price := -3 }]

/-- The book after the requests of the sample keeps its lists. -/
theorem representation_invariant_sample :
    ∃ b, sampleRequests.foldlM (processClientRequest matchAndRest) MEOrderBook.new = .ok b ∧
      ∃ v, Represents b.toLimitOrderBook v ∧ v.Valid ∧ Ordered v b.nextMarketOrderId :=
  (representation_invariant (meets_admissible (by decide) (by decide) (by decide))).exists_of_isOk
    (by decide)

/-- The best bid is below the best ask, and every resting bid is below every resting ask. -/
def NotCrossed (b : MEOrderBook) : Prop :=
  (∀ bid ask, b.bidsByPrice = some bid → b.asksByPrice = some ask →
    (b.level bid).price < (b.level ask).price) ∧
  ∀ p q, b.orderPool.InUse p → b.orderPool.InUse q → (b.node p).order.side = .buy →
    (b.node q).order.side = .sell → (b.node p).order.price < (b.node q).order.price

/-- The level of a resting order, on the order's side and at its price. -/
lemma WellFormed.level_of_inUse {b : MEOrderBook} {v : View MEOrder} (h : WellFormed b v) {p : Ptr}
    (hp : b.orderPool.InUse p) : ∃ s, s.IsBookSide ∧ (b.node p).order.side = s ∧
      ∃ l ∈ v.side s, l.price = (b.node p).order.price := by
  obtain ⟨x, hx, rfl⟩ := mem_ptrs.mp ((h.repr.ledger.inUse p).mp hp)
  obtain ⟨l, hl, hxl⟩ := mem_orders.mp hx
  obtain ⟨s, hs, hsl⟩ := View.mem_levels.mp hl
  obtain ⟨hside, hprice⟩ := (h.valid.homed s hs l hsl).2 x hxl
  rw [(h.repr.shape.heap.levelAt l hl).record x hxl]
  exact ⟨s, hs, hside, l, hsl, hprice.symm⟩

/-- The price of the best level of a side, in the pool and in the view. -/
lemma WellFormed.best_mem {b : MEOrderBook} {v : View MEOrder} (h : WellFormed b v) {s : Side}
    (hs : s.IsBookSide) {a : Ptr} (ha : b.bestOrdersByPrice s = some a) :
    ∃ l ∈ v.side s, (b.level a).price = l.price := by
  have hbest := (h.repr.shape.spine s hs).best
  rw [ha] at hbest
  cases hside : v.side s with
  | nil => simp [hside] at hbest
  | cons l ls =>
    have hl : l ∈ v.side s := by simp [hside]
    obtain rfl : a = l.addr := by simpa [hside] using hbest
    exact ⟨l, List.mem_cons_self .., (h.repr.shape.levelAt hl).price⟩

/-- **The exchange book is never crossed or locked.** -/
theorem never_crossed {requests : List MEClientRequest}
    (h : Meets (processClientRequest matchAndRest) Admissible MEOrderBook.new requests) :
    Safe (RunFault requests) NotCrossed
      (requests.foldlM (processClientRequest matchAndRest) MEOrderBook.new) := by
  refine (bookInvariant_run h).mono (fun _ hf => hf) ?_
  rintro b ⟨v, hv⟩
  refine ⟨fun bid ask hbid hask => ?_, fun p q hp hq hbuy hsell => ?_⟩
  · obtain ⟨l, hl, hlp⟩ := hv.wellFormed.best_mem (s := .buy) (.inl rfl) hbid
    obtain ⟨l', hl', hlp'⟩ := hv.wellFormed.best_mem (s := .sell) (.inr rfl) hask
    rw [hlp, hlp']
    exact hv.uncrossed l hl l' hl'
  · obtain ⟨s, -, hs, l, hl, hlp⟩ := hv.wellFormed.level_of_inUse hp
    obtain ⟨s', -, hs', l', hl', hlp'⟩ := hv.wellFormed.level_of_inUse hq
    obtain rfl := hbuy.symm.trans hs
    obtain rfl := hsell.symm.trans hs'
    rw [← hlp, ← hlp']
    exact hv.uncrossed l hl l' hl'

/-- The book after the requests of the sample is not crossed. -/
theorem never_crossed_sample :
    ∃ b, sampleRequests.foldlM (processClientRequest matchAndRest) MEOrderBook.new = .ok b ∧
      NotCrossed b :=
  (never_crossed (meets_admissible (by decide) (by decide) (by decide))).exists_of_isOk (by decide)

end Exchange
