import HftSystem.Common.BookHome
import HftSystem.Exchange.Resting
import HftSystem.Trading.BookUpdates

set_option relaxedAutoImplicit false
set_option autoImplicit false

/-!
# Orders at home, over runs of both books

`addOrder` takes the level that it finds in the bucket of a price without looking at that
level's own price and side. In the runs of the exchange's book and of a client's book, every
order stays at home exactly as long as no order is added whose bucket holds a foreign level.

## Main definitions

* `Trading.StepFindsOwnLevel`, `Trading.UpdateFindsOwnLevel` — the condition on a step of the
  exchange's book and on an update of a client's book.
* `Trading.Sound` — well-formed updates.

## Main results

* `Trading.atHome_iff` — when every order is at home throughout a run.
-/

namespace Trading

open Common Exchange LimitOrderBook PriceTime Fallible

/-! ## The exchange's book -/

/-- A step that lets a remainder rest names a side of the book. -/
def OnBookSide : ExchangeStep → Prop
  | .rest _ _ _ _ side _ _ => side.IsBookSide
  | .checkForMatch .. | .cancel .. => True

/-- A remainder that rests finds no foreign level in the bucket of its price. -/
def StepFindsOwnLevel (b : MEOrderBook) : ExchangeStep → Prop
  | .rest _ _ _ _ side price leavesQty =>
    leavesQty ≠ 0 → FindsOwnLevel b.toLimitOrderBook side price
  | .checkForMatch .. | .cancel .. => True

/-- **A step of the exchange's book** keeps it well formed if it finds its own level.

**Proof sketch.** By the cases of a step. Matching and cancelling keep the book well formed whatever
they find (`checkForMatch_rule`, `safe_cancel`). A remainder that rests needs a level of its own price
or none at all, which is what finding its own level says (`findsOwnLevel_iff`). -/
lemma wellFormed_step {b b' : MEOrderBook} (h : ∃ v, Exchange.WellFormed b v) {step : ExchangeStep}
    (hside : OnBookSide step) (hstep : StepFindsOwnLevel b step)
    (hb' : ExchangeStep.run b step = .ok b') : ∃ v, Exchange.WellFormed b' v := by
  obtain ⟨v, h⟩ := h
  cases step with
  | checkForMatch clientId clientOrderId tickerId side price qty newMarketOrderId =>
    obtain ⟨⟨b₁, leavesQty⟩, hmatch, hb'⟩ := bind_eq_ok.mp hb'
    cases hb'
    by_cases hs : side.IsBookSide
    · obtain ⟨b₂, v', leavesQty', hmatch', hwf, -⟩ := checkForMatch_rule clientId clientOrderId
        tickerId side price newMarketOrderId (fun _ _ _ => True) (fun _ _ _ _ _ _ _ _ _ _ _ _ _ _ _
          _ _ _ => trivial) h hs qty trivial
      rw [hmatch] at hmatch'
      cases hmatch'
      exact ⟨v', hwf⟩
    · unfold MEOrderBook.checkForMatch at hmatch
      rw [if_neg hs] at hmatch
      cases hmatch
      exact ⟨v, h⟩
  | cancel clientId orderId tickerId =>
    obtain ⟨v', hwf, -⟩ := (safe_cancel h clientId orderId tickerId).of_eq_ok hb'
    exact ⟨v', hwf⟩
  | rest clientId clientOrderId tickerId newMarketOrderId side price leavesQty =>
    simp only [ExchangeStep.run, MEOrderBook.rest] at hb'
    by_cases hzero : leavesQty = 0
    · rw [if_pos hzero] at hb'
      cases hb'
      exact ⟨v, h⟩
    · rw [if_neg hzero] at hb'
      obtain ⟨r, hr, hb'⟩ := bind_eq_ok.mp hb'
      cases hb'
      have hfits := (findsOwnLevel_iff h.repr.shape.heap).mp (hstep hzero)
      obtain ⟨v', hwf, -⟩ := (safe_addRemainder h clientId clientOrderId tickerId newMarketOrderId
        hside price (Nat.pos_of_ne_zero hzero) hfits).of_eq_ok hr
      exact ⟨v', hwf.of_book rfl⟩

/-- **A step of the exchange's book** that finds a foreign level leaves an order in it. -/
lemma not_atHome_of_step {b b' : MEOrderBook} (h : ∃ v, Exchange.WellFormed b v)
    {step : ExchangeStep} (hside : OnBookSide step) (hstep : ¬ StepFindsOwnLevel b step)
    (hb' : ExchangeStep.run b step = .ok b') : ¬ AtHome b'.toLimitOrderBook := by
  obtain ⟨v, h⟩ := h
  cases step with
  | checkForMatch => exact absurd trivial hstep
  | cancel => exact absurd trivial hstep
  | rest clientId clientOrderId tickerId newMarketOrderId side price leavesQty =>
    obtain ⟨hzero, hforeign⟩ := Classical.not_imp.mp hstep
    simp only [ExchangeStep.run, MEOrderBook.rest, if_neg hzero] at hb'
    obtain ⟨r, hr, hb'⟩ := bind_eq_ok.mp hb'
    cases hb'
    obtain ⟨v', hrep, -, hplaced, -⟩ := (safe_addRemainder_placed h clientId clientOrderId tickerId
      newMarketOrderId hside price leavesQty).of_eq_ok hr
    exact not_atHome_of_placed h.repr hplaced hrep hforeign

/-! ## A client's book -/

/-- Well-formed updates: an ADD names a side of the book and no id of a resting order, and MODIFY
and CANCEL name a resting order with its side and price. -/
def Sound (b : MarketOrderBook) (u : MEMarketUpdate) : Prop :=
  u.type = .add ∧ u.side.IsBookSide ∧
      (∀ p, b.orderPool.InUse p → (b.node p).order.orderId ≠ u.orderId) ∨
    (u.type = .modify ∨ u.type = .cancel) ∧ ∃ p, b.orderPool.InUse p ∧
      (b.node p).order.orderId = u.orderId ∧ (b.node p).order.side = u.side ∧
      (b.node p).order.price = u.price

/-- An order that is added finds no foreign level in the bucket of its price. -/
def UpdateFindsOwnLevel (b : MarketOrderBook) (u : MEMarketUpdate) : Prop :=
  u.type = .add → FindsOwnLevel b.toLimitOrderBook u.side u.price

/-- The resting orders, on the view. -/
lemma WellFormed.inUse_iff {b : MarketOrderBook} {v : View MarketOrder} (h : WellFormed b v)
    {p : Ptr} : b.orderPool.InUse p ↔ ∃ x ∈ orders v.levels, x.1 = p ∧ (b.node p).order = x.2 := by
  rw [h.repr.ledger.inUse, mem_ptrs]
  refine exists_congr fun x => and_congr_right fun hx => ⟨fun hp => ⟨hp, ?_⟩, fun hp => hp.1⟩
  obtain ⟨l, hl, hxl⟩ := mem_orders.mp hx
  exact hp ▸ (h.repr.shape.heap.levelAt l hl).record x hxl

/-- A sound update that finds its own level is what the book expects. -/
lemma expected_of_sound {b : MarketOrderBook} {v : View MarketOrder} (h : WellFormed b v)
    {u : MEMarketUpdate} (hu : Sound b u) (hfinds : UpdateFindsOwnLevel b u) : Expected v u := by
  rcases hu with ⟨htype, hs, hnew⟩ | ⟨htype, p, hp, hid, -⟩
  · simp only [Expected, htype]
    refine ⟨hs, (findsOwnLevel_iff h.repr.shape.heap).mp (hfinds htype), fun x hx => ?_⟩
    obtain ⟨l, hl, hxl⟩ := mem_orders.mp hx
    have hrecord := (h.repr.shape.heap.levelAt l hl).record x hxl
    exact hrecord ▸ hnew x.1 (h.inUse_iff.mpr ⟨x, hx, rfl, hrecord⟩)
  · obtain ⟨x, hx, -, hrecord⟩ := h.inUse_iff.mp hp
    rw [hrecord] at hid
    rcases htype with htype | htype <;> simp only [Expected, htype] <;> exact ⟨x, hx, hid⟩

/-- **An update of a client's book** keeps it well formed if it finds its own level. -/
lemma wellFormed_update {b b' : MarketOrderBook} (h : ∃ v, WellFormed b v) {u : MEMarketUpdate}
    (hu : Sound b u) (hfinds : UpdateFindsOwnLevel b u) (hb' : b.onMarketUpdate u = .ok b') :
    ∃ v, WellFormed b' v := by
  obtain ⟨v, h⟩ := h
  obtain ⟨v', hwf, -⟩ := (safe_onMarketUpdate h (expected_of_sound h hu hfinds)).of_eq_ok hb'
  exact ⟨v', hwf⟩

/-- Refreshing the best bid and offer does not touch the lists. -/
lemma toLimitOrderBook_of_updateBBO {b b' : MarketOrderBook} {updateBid updateAsk : Bool}
    (h : b.updateBBO updateBid updateAsk = .ok b') : b'.toLimitOrderBook = b.toLimitOrderBook := by
  obtain ⟨b₁, h₁, h₂⟩ := bind_eq_ok.mp h
  have hbid : b₁.toLimitOrderBook = b.toLimitOrderBook := by
    unfold MarketOrderBook.updateBid at h₁
    split at h₁
    · obtain ⟨_, -, h₁⟩ := bind_eq_ok.mp h₁
      cases h₁
      rfl
    · cases h₁
      rfl
  rw [← hbid]
  unfold MarketOrderBook.updateAsk at h₂
  split at h₂
  · obtain ⟨_, -, h₂⟩ := bind_eq_ok.mp h₂
    cases h₂
    rfl
  · cases h₂
    rfl

/-- **An update of a client's book** that finds a foreign level leaves an order in it. -/
lemma not_atHome_of_update {b b' : MarketOrderBook} (h : ∃ v, WellFormed b v) {u : MEMarketUpdate}
    (hu : Sound b u) (hfinds : ¬ UpdateFindsOwnLevel b u) (hb' : b.onMarketUpdate u = .ok b') :
    ¬ AtHome b'.toLimitOrderBook := by
  obtain ⟨v, h⟩ := h
  obtain ⟨htype, hforeign⟩ := Classical.not_imp.mp hfinds
  obtain ⟨-, hs, -⟩ : u.type = .add ∧ u.side.IsBookSide ∧ _ :=
    hu.resolve_right fun hx => by rcases hx.1 with hx | hx <;> simp [htype] at hx
  simp only [MarketOrderBook.onMarketUpdate, htype] at hb'
  obtain ⟨b₁, hb₁, hb'⟩ := bind_eq_ok.mp hb'
  rw [toLimitOrderBook_of_updateBBO hb']
  obtain ⟨v', hrep, p, hplaced, -⟩ := (safe_add_placed h htype hs).of_eq_ok hb₁
  exact not_atHome_of_placed h.repr hplaced hrep hforeign

/-! ## Runs -/

/-- The runs of the exchange's book. -/
lemma exchange_atHome_iff {steps : List ExchangeStep} (hsides : ∀ step ∈ steps, OnBookSide step) :
    Always ExchangeStep.run (fun b => AtHome b.toLimitOrderBook) MEOrderBook.new steps ↔
      Meets ExchangeStep.run (fun b step => ∀ b', ExchangeStep.run b step = .ok b' →
        StepFindsOwnLevel b step) MEOrderBook.new steps :=
  always_iff_meets (D := fun _ step => OnBookSide step)
    (fun _ _ _ h hs hstep hb' => wellFormed_step h hs hstep hb')
    (fun _ ⟨_, h⟩ => atHome_of_valid h.repr h.valid)
    (fun _ _ _ h hs hstep hb' => not_atHome_of_step h hs hstep hb')
    ⟨{}, Exchange.wellFormed_new⟩ (Meets.of_forall hsides)

/-- The runs of a client's book. -/
lemma client_atHome_iff {us : List MEMarketUpdate}
    (hsound : Meets MarketOrderBook.onMarketUpdate Sound MarketOrderBook.new us) :
    Always MarketOrderBook.onMarketUpdate (fun b => AtHome b.toLimitOrderBook)
        MarketOrderBook.new us ↔
      Meets MarketOrderBook.onMarketUpdate (fun b u => ∀ b', b.onMarketUpdate u = .ok b' →
        UpdateFindsOwnLevel b u) MarketOrderBook.new us :=
  always_iff_meets (fun _ _ _ h hu hfinds hb' => wellFormed_update h hu hfinds hb')
    (fun _ ⟨_, h⟩ => atHome_of_valid h.repr h.valid)
    (fun _ _ _ h hu hfinds hb' => not_atHome_of_update h hu hfinds hb')
    ⟨{}, wellFormed_new⟩ hsound

/-- **Every order is at home as long as no order is added to a foreign level.** In the runs of
the exchange's book, where a NEW request is a run of the matching loop followed by the resting of
its remainder, and in the runs of a client's book, every order is at home in every state reached
exactly when every completed step finds no foreign level in the bucket of the price that it adds
an order at. -/
theorem atHome_iff {steps : List ExchangeStep} (hsides : ∀ step ∈ steps, OnBookSide step)
    {us : List MEMarketUpdate}
    (hsound : Meets MarketOrderBook.onMarketUpdate Sound MarketOrderBook.new us) :
    (Always ExchangeStep.run (fun b => AtHome b.toLimitOrderBook) MEOrderBook.new steps ↔
      Meets ExchangeStep.run (fun b step => ∀ b', ExchangeStep.run b step = .ok b' →
        StepFindsOwnLevel b step) MEOrderBook.new steps) ∧
    (Always MarketOrderBook.onMarketUpdate (fun b => AtHome b.toLimitOrderBook)
        MarketOrderBook.new us ↔
      Meets MarketOrderBook.onMarketUpdate (fun b u => ∀ b', b.onMarketUpdate u = .ok b' →
        UpdateFindsOwnLevel b u) MarketOrderBook.new us) :=
  ⟨exchange_atHome_iff hsides, client_atHome_iff hsound⟩

/-- Two NEW requests to buy, at 10 and at 266. -/
def congruentBids : List ExchangeStep :=
  [.checkForMatch 1 1 0 .buy 10 5 1, .rest 1 1 0 1 .buy 10 5,
   .checkForMatch 1 2 0 .buy 266 5 2, .rest 1 2 0 2 .buy 266 5]

/-- Whether a step is on a side of the book can be evaluated. -/
instance (step : ExchangeStep) : Decidable (OnBookSide step) :=
  match step with
  | .rest _ _ _ _ side _ _ => inferInstanceAs (Decidable side.IsBookSide)
  | .checkForMatch .. | .cancel .. => inferInstanceAs (Decidable True)

/-- An ADD and the CANCEL of its order. -/
def addAndCancel : List MEMarketUpdate :=
  [{ type := .add, orderId := 1, tickerId := 0, side := .buy, price := 10, qty := 5, priority := 1 },
   { type := .cancel, orderId := 1, tickerId := 0, side := .buy, price := 10, qty := 0,
     priority := 1 }]

/-- The updates are sound. -/
lemma sound_addAndCancel :
    Meets MarketOrderBook.onMarketUpdate Sound MarketOrderBook.new addAndCancel := by
  refine ⟨.inl ⟨rfl, .inl rfl, fun p hp => absurd hp (MemPool.not_inUse_new _ _)⟩,
    fun b hb => ⟨.inr ⟨.inr rfl, 0, ?_⟩, fun _ _ => trivial⟩⟩
  exact (show Safe (fun _ => False) (fun b : MarketOrderBook => b.orderPool.InUse 0 ∧
    (b.node 0).order.orderId = 1 ∧ (b.node 0).order.side = .buy ∧ (b.node 0).order.price = 10)
    (MarketOrderBook.new.onMarketUpdate _) by decide +kernel).of_eq_ok hb

/-- Both kinds of run exist. -/
theorem atHome_iff_sample :
    (Always ExchangeStep.run (fun b => AtHome b.toLimitOrderBook) MEOrderBook.new congruentBids ↔
      Meets ExchangeStep.run (fun b step => ∀ b', ExchangeStep.run b step = .ok b' →
        StepFindsOwnLevel b step) MEOrderBook.new congruentBids) ∧
    (Always MarketOrderBook.onMarketUpdate (fun b => AtHome b.toLimitOrderBook)
        MarketOrderBook.new addAndCancel ↔
      Meets MarketOrderBook.onMarketUpdate (fun b u => ∀ b', b.onMarketUpdate u = .ok b' →
        UpdateFindsOwnLevel b u) MarketOrderBook.new addAndCancel) :=
  atHome_iff (by decide) sound_addAndCancel

/-- The order at 266 queues in the level of 10. -/
theorem congruentBids_not_atHome :
    ¬ Always ExchangeStep.run (fun b => AtHome b.toLimitOrderBook) MEOrderBook.new
      congruentBids := by
  intro h
  have hmeets := (exchange_atHome_iff (by decide)).mp h
  obtain ⟨b, hb, hbucket, hlevel, hok⟩ := (show Safe (fun _ => False) (fun b : MEOrderBook =>
    b.getOrdersAtPrice 266 = some 0 ∧ (b.level 0).price = 10 ∧
      (ExchangeStep.run b (.rest 1 2 0 2 .buy 266 5)).isOk)
    ((congruentBids.take 3).foldlM ExchangeStep.run MEOrderBook.new) by decide +kernel).exists_ok
  obtain ⟨b', hb'⟩ : ∃ b', ExchangeStep.run b (.rest 1 2 0 2 .buy 266 5) = .ok b' := by
    cases hrun : ExchangeStep.run b (.rest 1 2 0 2 .buy 266 5) with
    | ok b' => exact ⟨b', rfl⟩
    | error f =>
      rw [hrun] at hok
      cases hok
  have hfinds := Meets.of_prefix (congruentBids.take 3) [] hmeets hb b' hb' (by decide) 0
    hbucket
  rw [hlevel] at hfinds
  exact absurd hfinds.1 (by decide)

end Trading
