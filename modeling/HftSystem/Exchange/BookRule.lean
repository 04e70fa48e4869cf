import HftSystem.Exchange.BookInvariant
import HftSystem.Exchange.EngineRuns

set_option relaxedAutoImplicit false
set_option autoImplicit false

/-!
# The rule for runs of the matching engine

A request does five things to a book: it is accepted, it executes against resting orders, its
remainder is used up or rests, or it cancels an order. An assertion about the book, its view and
what the book has written holds in every run as soon as each of the five keeps it, beside the
invariant of the book.

## Main definitions

* `Exchange.Maintains` — the obligations of an assertion, one for each thing that a request does.
* `Exchange.EngineAdmissible` — the requests that a run of the engine may contain.

## Main results

* `Exchange.Maintains.process` — one request to a book.
* `Exchange.exists_orders_afterMatch` — an execution and the resting orders.
* `Exchange.Maintains.run` — a run of the engine.
* `Exchange.meets_engineAdmissible` — a condition on the requests for a run to be admissible.
-/

namespace Exchange

open Common LimitOrderBook PriceTime Fallible MEOrderBook

/-! ## The obligations -/

/-- The price at which a request can open a level. -/
def newPrices (r : MEClientRequest) : List ℤ := if r.type = .new then [r.price] else []

/-- **What an assertion has to keep** while a book processes a request. `I` holds before, and `K`
afterwards. `J n` holds while the request executes under the market order id `n`, with the quantity
that is left. -/
structure Maintains (r : MEClientRequest) (I : MEOrderBook → View MEOrder → Prop)
    (J : ℕ → MEOrderBook → View MEOrder → ℕ → Prop) (K : MEOrderBook → View MEOrder → Prop) :
    Prop where
  accept : r.type = .new → ∀ b v, I b v → J b.nextMarketOrderId
    (b.accept r.clientId r.orderId r.tickerId r.side r.price r.qty).1 v r.qty
  fill : ∀ n b b' v l ls p o q leavesQty, r.side.IsBookSide → WellFormed b v →
    J n b v leavesQty → v.side r.side.opposite = l :: ls → l.queue = (p, o) :: q → 0 < leavesQty →
    b'.matchingEngine = b.matchingEngine.push
      (fillResponses r.clientId r.orderId r.tickerId r.side (n % 2 ^ 32)
        ⟨o, min leavesQty o.qty, leavesQty - o.qty⟩)
      (fillUpdates r.tickerId r.side ⟨o, min leavesQty o.qty, leavesQty - o.qty⟩) →
    J n b' (afterMatch v r.side.opposite l ls p o q leavesQty) (leavesQty - o.qty)
  used : ∀ n b v, J n b v 0 → b.nextMarketOrderId = n + 1 → K b v
  rest : ∀ n b b' v v' p priority leavesQty, r.side.IsBookSide → WellFormed b v →
    J n b v leavesQty → 0 < leavesQty →
    (∀ l ∈ v.side r.side.opposite, crosses r.side r.price l.price = false) →
    (∀ l ∈ v.levels, priceToIndex l.price = priceToIndex r.price →
      l.price = r.price ∧ l.side = r.side) →
    Placed v p { tickerId := r.tickerId, clientId := r.clientId, clientOrderId := r.orderId,
                 marketOrderId := n, side := r.side, price := r.price, qty := leavesQty,
                 priority } v' →
    b'.nextMarketOrderId = n + 1 →
    b'.matchingEngine = b.matchingEngine.push []
      [{ type := .add, orderId := n, tickerId := r.tickerId, side := r.side, price := r.price,
         qty := leavesQty, priority }] →
    K b' v'
  cancel : r.type = .cancel → ∀ b b' v v', I b v →
    CancelStep b v r.clientId r.orderId r.tickerId b' v' → K b' v'

section Rule

variable {r : MEClientRequest} {I K : MEOrderBook → View MEOrder → Prop}
  {J : ℕ → MEOrderBook → View MEOrder → ℕ → Prop} (h : Maintains r I J K) {b : MEOrderBook}
  {v : View MEOrder}

include h

/-- The matching loop keeps the assertion, and what shrinking keeps. -/
lemma Maintains.checkForMatch (hb : WellFormed b v) (hs : r.side.IsBookSide) {n qty : ℕ}
    (hJ : J n b v qty) :
    ∃ b' v' leavesQty, b.checkForMatch r.clientId r.orderId r.tickerId r.side r.price qty n =
        .ok (b', leavesQty) ∧
      WellFormed b' v' ∧ Shrinks v v' ∧ b'.nextMarketOrderId = b.nextMarketOrderId ∧
      J n b' v' leavesQty ∧
      (leavesQty = 0 ∨ ∀ l ∈ v'.side r.side.opposite, crosses r.side r.price l.price = false) := by
  have hs' := isBookSide_opposite r.side
  obtain ⟨b', v', leavesQty, hloop, hwf, ⟨hshrinks, hnext, hJ'⟩, hstop⟩ :=
    checkForMatch_rule r.clientId r.orderId r.tickerId r.side r.price n
      (fun b' v' leavesQty => Shrinks v v' ∧ b'.nextMarketOrderId = b.nextMarketOrderId ∧
        J n b' v' leavesQty)
      (by
        rintro b₁ b₂ v₁ l ls p o q leavesQty hwf₁ ⟨hshrinks, hnext, hJ₁⟩ hside hq hpos - - hengine
          hnext'
        exact ⟨hshrinks.trans (shrinks_afterMatch hs' hside hq leavesQty), hnext'.trans hnext,
          h.fill n b₁ b₂ v₁ l ls p o q leavesQty hs hwf₁ hJ₁ hside hq hpos hengine⟩)
      hb hs qty ⟨Shrinks.refl v, rfl, hJ⟩
  exact ⟨b', v', leavesQty, hloop, hwf, hshrinks, hnext, hJ',
    hstop.imp_right (not_crosses_of_head hwf.valid hs)⟩

/-- **A NEW request** keeps the assertion.

**Proof sketch.** Matching shrinks the view and stops when no level of the other side crosses, so a
level at the price of the remainder is on its side. -/
lemma Maintains.addAnnounced (hb : BookInvariant b v) (hI : I b v) (htype : r.type = .new)
    (hs : r.side.IsBookSide) (hprice : NoCollision v r.price) :
    Safe (fun f => NoFreshBlock f ∨ f = .outOfRange ∧ clientOrderSlot r.clientId r.orderId = none)
      (fun b' => ∃ v', BookInvariant b' v' ∧ K b' v' ∧ PricesFrom v [r.price] v')
      (b.addAnnounced r.clientId r.orderId r.tickerId r.side r.price r.qty) := by
  set accepted := (b.accept r.clientId r.orderId r.tickerId r.side r.price r.qty).1 with haccepted
  have hwf₀ : WellFormed accepted v := hb.wellFormed.of_book rfl
  obtain ⟨b₁, v₁, leavesQty, hmatch, hwf, hshrinks, hnext, hJ, hstop⟩ :=
    h.checkForMatch hwf₀ hs (h.accept htype b v hI)
  have hnext₁ : b₁.nextMarketOrderId = b.nextMarketOrderId + 1 := hnext
  have hordered : Ordered v₁ b.nextMarketOrderId := hb.ordered.shrink hshrinks
  have huncrossed : Uncrossed v₁ := hb.uncrossed.shrink hshrinks
  have hid : (b.accept r.clientId r.orderId r.tickerId r.side r.price r.qty).2 =
      b.nextMarketOrderId := rfl
  unfold MEOrderBook.addAnnounced MEOrderBook.rest
  simp only [← haccepted, hid, hmatch, ok_bind]
  by_cases hzero : leavesQty = 0
  · rw [if_pos hzero]
    subst hzero
    refine ⟨v₁, ⟨hwf, ?_, huncrossed⟩, h.used _ b₁ v₁ hJ hnext₁, hshrinks.pricesFrom _⟩
    rw [hnext₁]
    exact hordered.mono (Nat.le_succ _)
  · rw [if_neg hzero]
    have hcross := hstop.resolve_left hzero
    have hfits := (hprice.shrink hshrinks).fits hwf.valid hs hcross
    refine Safe.bind (safe_addRemainder hwf r.clientId r.orderId r.tickerId b.nextMarketOrderId hs
      r.price (Nat.pos_of_ne_zero hzero) hfits) ?_
    rintro ⟨b₂, priority, p⟩ ⟨v₂, hwf₂, hpriority, hplaced, hengine, hnext₂, -⟩
    have hnext' : b₂.nextMarketOrderId = b.nextMarketOrderId + 1 := hnext₂.trans hnext₁
    refine ⟨v₂, ⟨hwf₂.of_book rfl, ?_, huncrossed.place hplaced hwf.valid hs hfits hcross⟩, ?_,
      fun m hm => ?_⟩
    · show Ordered v₂ b₂.nextMarketOrderId
      rw [hnext']
      exact Ordered.place hordered hwf hplaced hpriority
    · refine h.rest b.nextMarketOrderId b₁ _ v₁ v₂ p priority leavesQty hs hwf hJ
        (Nat.pos_of_ne_zero hzero) hcross hfits hplaced hnext' ?_
      rw [← hengine]
      simp [MEOrderBook.publish, sendMarketUpdate, MatchingEngine.push]
    · rcases Placed.mem_levels hplaced hm with hm | ⟨l, hl, -, rfl⟩ | ⟨-, hm⟩
      · exact hshrinks.pricesFrom _ m hm
      · exact hshrinks.pricesFrom [r.price] l hl
      · exact .inl (by simp [hm])

/-- **A request** keeps the assertion and the invariant of the book. -/
theorem Maintains.process (hb : BookInvariant b v) (hI : I b v) (hr : Admissible b r) :
    Safe (fun f => NoFreshBlock f ∨ f = .outOfRange ∧ ¬ InRange r)
      (fun b' => ∃ v', BookInvariant b' v' ∧ K b' v' ∧ PricesFrom v (newPrices r) v')
      (processClientRequest MEOrderBook.addAnnounced b r) := by
  unfold processClientRequest newPrices
  cases htype : r.type with
  | invalid => exact absurd htype hr.1
  | new =>
    obtain ⟨hs, hprice⟩ := hr.2 htype
    refine (h.addAnnounced hb hI htype hs (noCollision_of_admissible hb.wellFormed hprice)).mono
      (fun f hf => ?_) fun _ hb => hb
    refine hf.imp_right fun ⟨hf, hslot⟩ => ⟨hf, fun hin => ?_⟩
    simp [clientOrderSlot, hin.1, hin.2] at hslot
  | cancel =>
    refine (safe_cancel hb.wellFormed r.clientId r.orderId r.tickerId).mono
      (fun f hf => .inr ⟨hf.1, fun hin => hf.2 hin.2⟩) ?_
    rintro b' ⟨v', hwf, hstep⟩
    obtain ⟨hshrinks, hnext⟩ : Shrinks v v' ∧ b'.nextMarketOrderId = b.nextMarketOrderId := by
      cases hstep with
      | rejected => exact ⟨Shrinks.refl v, rfl⟩
      | canceled hs hv hq _ _ hnext =>
        refine ⟨shrinks_remove hs hv ?_, hnext⟩
        rw [hq]
        exact (List.sublist_cons_self _ _).append_left _
    refine ⟨v', ⟨hwf, ?_, hb.uncrossed.shrink hshrinks⟩, h.cancel htype b b' v v' hI hstep,
      hshrinks.pricesFrom _⟩
    rw [hnext]
    exact hb.ordered.shrink hshrinks

end Rule

/-! ## The orders of a side -/

/-- **An execution and the resting orders**: it takes the first one out, or leaves it with the rest of
its quantity. -/
lemma exists_orders_afterMatch {v : View MEOrder} {s : Side} {l : Level MEOrder}
    {ls : List (Level MEOrder)} {p : Ptr} {o : MEOrder} {q : List (Ptr × MEOrder)}
    (hside : v.side s = l :: ls) (hq : l.queue = (p, o) :: q) (leavesQty : ℕ) :
    ∃ rest, (orders v.levels).Perm ((p, o) :: rest) ∧
      (orders (afterMatch v s l ls p o q leavesQty).levels).Perm
        ((if o.qty ≤ leavesQty then [] else [(p, { o with qty := o.qty - leavesQty })]) ++ rest) := by
  have hside₀ : v.side s = [] ++ l :: ls := hside
  have hq₀ : l.queue = [] ++ (p, o) :: q := hq
  refine ⟨_, orders_remove hside₀ hq₀, ?_⟩
  rw [afterMatch]
  split_ifs
  · exact List.Perm.refl _
  · refine (orders_perm (v.levels_set_perm s [] [_] ls)).trans ?_
    refine List.Perm.trans ?_ ((orders_perm (v.levels_set_perm s [] _ ls)).symm.append_left _)
    simp only [orders_cons, orders_append, Level.orders_withQueue, List.cons_append,
      List.nil_append]
    exact List.Perm.refl _

/-! ## Runs -/

/-- The requests that a run of the engine may contain. -/
def EngineAdmissible (x : EngineState) (r : MEClientRequest) : Prop :=
  r.tickerId < meMaxTickers ∧ Admissible (x.tickerOrderBook r.tickerId) r

/-- The book of a ticker, with the queues of the engine. -/
lemma BookInvariant.of_alone {x : EngineState} {t : ℕ} {v : View MEOrder}
    (h : BookInvariant (x.alone t) v) : BookInvariant (x.tickerOrderBook t) v :=
  ⟨h.wellFormed.of_book rfl, h.ordered, h.uncrossed⟩

/-- **The rule for runs.** What each thing that a request does keeps holds of every book, with what
it has written, after every run; and a run fails only for want of a fresh block or of a table
entry. -/
theorem Maintains.run {I : MEOrderBook → View MEOrder → Prop}
    {J : MEClientRequest → ℕ → MEOrderBook → View MEOrder → ℕ → Prop}
    (h : ∀ r, Maintains r I (J r) I) (hnew : I .new {}) {requests : List MEClientRequest}
    (hmeets : Meets (EngineState.process MEOrderBook.addAnnounced) EngineAdmissible {} requests) :
    Safe (RunFault requests) (fun x => ∀ t, ∃ v, BookInvariant (x.alone t) v ∧ I (x.alone t) v)
      (requests.foldlM (EngineState.process MEOrderBook.addAnnounced) {}) := by
  refine EngineState.safe_run local_addAnnounced
    (C := fun b r => Admissible b r ∧ r ∈ requests)
    (P := fun b => ∃ v, BookInvariant b v ∧ I b v) ?_ ⟨{}, bookInvariant_new, hnew⟩ ?_
  · rintro b r ⟨v, hb, hI⟩ ⟨hr, hmem⟩
    exact ((h r).process hb hI hr).mono (fun f hf => hf.imp_right fun ⟨hf, hin⟩ => ⟨hf, r, hmem, hin⟩)
      fun b' ⟨v', hb', hI', _⟩ => ⟨v', hb', hI'⟩
  · exact (hmeets.and_forall fun _ hr => hr).mono fun _ _ hr => ⟨hr.1.1, hr.1.2, hr.2⟩

/-- Two assertions together. -/
lemma Maintains.and {r : MEClientRequest} {I I' K K' : MEOrderBook → View MEOrder → Prop}
    {J J' : ℕ → MEOrderBook → View MEOrder → ℕ → Prop} (h : Maintains r I J K)
    (h' : Maintains r I' J' K') :
    Maintains r (fun b v => I b v ∧ I' b v) (fun n b v leavesQty => J n b v leavesQty ∧ J' n b v leavesQty)
      fun b v => K b v ∧ K' b v where
  accept hnew b v hI := ⟨h.accept hnew b v hI.1, h'.accept hnew b v hI.2⟩
  fill n b b' v l ls p o q leavesQty hs hwf hJ hside hq hpos hengine :=
    ⟨h.fill n b b' v l ls p o q leavesQty hs hwf hJ.1 hside hq hpos hengine,
      h'.fill n b b' v l ls p o q leavesQty hs hwf hJ.2 hside hq hpos hengine⟩
  used n b v hJ hnext := ⟨h.used n b v hJ.1 hnext, h'.used n b v hJ.2 hnext⟩
  rest n b b' v v' p priority leavesQty hs hwf hJ hpos hcross hfits hplaced hnext hengine :=
    ⟨h.rest n b b' v v' p priority leavesQty hs hwf hJ.1 hpos hcross hfits hplaced hnext hengine,
      h'.rest n b b' v v' p priority leavesQty hs hwf hJ.2 hpos hcross hfits hplaced hnext hengine⟩
  cancel hcancel b b' v v' hI hstep :=
    ⟨h.cancel hcancel b b' v v' hI.1 hstep, h'.cancel hcancel b b' v v' hI.2 hstep⟩

/-- The invariant of the book alone. -/
lemma maintains_true (r : MEClientRequest) :
    Maintains r (fun _ _ => True) (fun _ _ _ _ => True) fun _ _ => True := by
  constructor <;> intros <;> trivial

/-- A run whose prices are pairwise equal or not congruent is admissible throughout.

**Proof sketch.** The prices of every book are among those of the requests. -/
lemma meets_engineAdmissible {requests : List MEClientRequest}
    (hticker : ∀ r ∈ requests, r.tickerId < meMaxTickers)
    (htype : ∀ r ∈ requests, r.type ≠ .invalid)
    (hside : ∀ r ∈ requests, r.type = .new → r.side.IsBookSide)
    (hprice : ∀ r ∈ requests, ∀ r' ∈ requests,
      r.price = r'.price ∨ ¬ r.price ≡ r'.price [ZMOD meMaxPriceLevels]) :
    Meets (EngineState.process MEOrderBook.addAnnounced) EngineAdmissible {} requests := by
  set Known : EngineState → Prop := fun x => ∀ t, ∃ v, BookInvariant (x.alone t) v ∧
    ∀ l ∈ v.levels, ∃ r' ∈ requests, l.price = r'.price with hKnown
  have hadm : ∀ x r, Known x → r ∈ requests → EngineAdmissible x r := by
    intro x r hx hr
    obtain ⟨v, hinv, hprices⟩ := hx r.tickerId
    refine ⟨hticker r hr, admissible_of_prices (b := x.alone r.tickerId) hinv (htype r hr)
      (hside r hr) fun l hl => ?_⟩
    obtain ⟨r', hr', hlr⟩ := hprices l hl
    rw [hlr]
    exact hprice r' hr' r hr
  refine meets_of_forall (D := fun r => r ∈ requests) hadm ?_
    (fun _ => ⟨{}, bookInvariant_new, by simp [View.levels]⟩) fun _ hr => hr
  intro x r x' hx hr hx'
  obtain ⟨v, hinv, hprices⟩ := hx r.tickerId
  obtain ⟨hlt, hbook⟩ := hadm x r hx hr
  obtain ⟨b', ⟨v', hinv', -, hfrom⟩, halone⟩ := (EngineState.safe_process local_addAnnounced x hlt
    ((maintains_true r).process hinv trivial hbook)).of_eq_ok hx'
  intro t
  rw [halone]
  by_cases ht : t = r.tickerId
  · subst ht
    rw [Function.update_self]
    refine ⟨v', hinv', fun m hm => ?_⟩
    rcases hfrom m hm with hm | ⟨l, hl, hm⟩
    · unfold newPrices at hm
      split_ifs at hm
      · exact ⟨r, hr, List.mem_singleton.mp hm⟩
      · cases hm
    · obtain ⟨r', hr', hlr⟩ := hprices l hl
      exact ⟨r', hr', hm.trans hlr⟩
  · rw [Function.update_of_ne ht]
    exact hx t

/-- The orders of three clients in two tickers, one of which executes. -/
def sampleOrders : List MEClientRequest :=
  [{ type := .new, clientId := 1, tickerId := 0, orderId := 1, side := .sell, price := 12, qty := 5 },
   { type := .new, clientId := 3, tickerId := 4, orderId := 1, side := .sell, price := 7, qty := 2 },
   { type := .new, clientId := 2, tickerId := 0, orderId := 1, side := .buy, price := 12, qty := 3 },
   { type := .cancel, clientId := 3, tickerId := 4, orderId := 1, price := 7 }]

/-- The requests of the sample are admissible. -/
lemma meets_sampleOrders :
    Meets (EngineState.process MEOrderBook.addAnnounced) EngineAdmissible {} sampleOrders :=
  meets_engineAdmissible (by decide) (by decide) (by decide) (by decide)

end Exchange
