import HftSystem.Exchange.BookInvariant
import HftSystem.Trading.BookUpdates

set_option relaxedAutoImplicit false
set_option autoImplicit false

/-!
# The client's book mirrors the exchange's book

Two books agree when they list the same prices, and the same orders at each of them. Whatever
step the exchange's book takes, the updates that the step publishes bring the client's book to
where it agrees again.

## Main definitions

* `Trading.Mirrors` — the contents of the two books agree.
* `Trading.Allowed` — the steps that the exchange's book may take.

## Main results

* `Trading.mirror_match` — one execution.
* `Trading.mirror_step` — every step.
-/

namespace Trading

open Common Exchange LimitOrderBook PriceTime Fallible MEOrderBook MarketOrderBook

/-- A resting order as the market sees it. -/
def toMarketOrder (o : MEOrder) : MarketOrder where
  orderId := o.marketOrderId
  side := o.side
  price := o.price
  qty := o.qty
  priority := o.priority

/-- **The books agree**: on each side they have the same prices, and at each price the same
orders, first in first out. -/
def Mirrors (v : View MEOrder) (w : View MarketOrder) : Prop :=
  ∀ s, s.IsBookSide → w.contents s = mapOrders toMarketOrder (v.contents s)

/-- The steps that may be taken: a remainder rests only when it does not cross the book, when no
resting price collides with its price, and under a new id that the tables of the clients have an
entry for. -/
def Allowed (v : View MEOrder) : ExchangeStep → Prop
  | .checkForMatch .. => True
  | .cancel .. => True
  | .rest _ _ _ newMarketOrderId side price _ =>
    side.IsBookSide ∧ NoCollision v price ∧
      (∀ l ∈ v.side side.opposite, crosses side price l.price = false) ∧
      newMarketOrderId < meMaxOrderIds ∧ ∀ x ∈ orders v.levels, x.2.marketOrderId ≠ newMarketOrderId

/-- The updates that a step published. -/
def newUpdates (b b' : MEOrderBook) : List MEMarketUpdate :=
  b'.published.drop b.published.length

/-- What a step has published is what it has put behind the rest. -/
lemma newUpdates_of_eq {b b' : MEOrderBook} (us : List MEMarketUpdate)
    (h : b'.published = b.published ++ us) : newUpdates b b' = us := by
  simp [newUpdates, h]

/-- An order of the exchange's book is an order of the client's book. -/
lemma Mirrors.mem {v : View MEOrder} {w : View MarketOrder} (hm : Mirrors v w)
    {x : Ptr × MEOrder} {s : Side} (hs : s.IsBookSide) {l : Level MEOrder} (hl : l ∈ v.side s)
    (hx : x ∈ l.queue) :
    ∃ y ∈ orders w.levels, y.2.orderId = x.2.marketOrderId := by
  have hmem : toMarketOrder x.2 ∈ listed (w.contents s) := by
    rw [hm s hs, listed_mapOrders]
    refine List.mem_map_of_mem (mem_listed_contents.mpr ⟨x, mem_orders.mpr ⟨l, hl, hx⟩, rfl⟩)
  obtain ⟨y, hy, hyx⟩ := mem_listed_contents.mp hmem
  obtain ⟨m, hm, hym⟩ := mem_orders.mp hy
  exact ⟨y, mem_orders.mpr ⟨m, View.mem_levels_of_side hm, hym⟩, congrArg MarketOrder.orderId hyx⟩

/-- An order of the client's book is an order of the exchange's book, and its level is at the
price of a level there. -/
lemma Mirrors.exists_of_mem {v : View MEOrder} {w : View MarketOrder} (hm : Mirrors v w)
    {s : Side} (hs : s.IsBookSide) {m : Level MarketOrder} (hmem : m ∈ w.side s) :
    ∃ l ∈ v.side s, l.price = m.price ∧ ∀ y ∈ m.queue, ∃ x ∈ l.queue, toMarketOrder x.2 = y.2 := by
  have hcontents : m.contents ∈ mapOrders toMarketOrder (v.contents s) :=
    hm s hs ▸ List.mem_map_of_mem hmem
  obtain ⟨k, hk, hkm⟩ := List.mem_map.mp hcontents
  obtain ⟨l, hl, rfl⟩ := List.mem_map.mp hk
  obtain ⟨hprice, hqueue⟩ := Prod.mk.inj hkm
  refine ⟨l, hl, hprice, fun y hy => ?_⟩
  have hy : y.2 ∈ l.contents.2.map toMarketOrder := hqueue ▸ List.mem_map_of_mem hy
  obtain ⟨o, ho, hoy⟩ := List.mem_map.mp hy
  obtain ⟨x, hx, rfl⟩ := List.mem_map.mp ho
  exact ⟨x, hx, hoy⟩

section Steps

variable {b : MEOrderBook} {v : View MEOrder} {c : MarketOrderBook} {w : View MarketOrder}
  (hc : WellFormed c w) (hm : Mirrors v w)

include hc hm

/-- **One execution**: the client's book changes as the exchange's book does.

**Proof sketch.** The execution publishes a TRADE, which changes no book, and then a CANCEL of the
order if it is used up or a MODIFY of its quantity if it is not. The order is the first one of its
level in both books, so both updates do to the client's lists what the execution does to the
exchange's. -/
lemma mirror_match {s : Side} (hs : s.IsBookSide) {l : Level MEOrder}
    {ls : List (Level MEOrder)} {p : Ptr} {o : MEOrder} {q : List (Ptr × MEOrder)}
    (hside : v.side s = l :: ls) (hq : l.queue = (p, o) :: q) (tickerId : ℕ) (side : Side)
    (leavesQty : ℕ) :
    ∃ c' w', (fillUpdates tickerId side ⟨o, min leavesQty o.qty, leavesQty - o.qty⟩).foldlM
        onMarketUpdate c = .ok c' ∧ WellFormed c' w' ∧
      Mirrors (afterMatch v s l ls p o q leavesQty) w' := by
  have hw : w.contents s = [] ++ (l.price, [] ++ toMarketOrder o ::
      (q.map Prod.snd).map toMarketOrder) :: mapOrders toMarketOrder (ls.map Level.contents) := by
    rw [hm s hs, View.contents, hside, List.map_cons, Level.contents, hq]
    rfl
  have hexists := hm.mem hs (l := l) (by simp [hside]) (x := (p, o)) (by simp [hq])
  have hafter : (afterMatch v s l ls p o q leavesQty).contents s = _ :=
    contents_afterMatch (q := q) (p := p)
  have hother : ∀ s', s'.IsBookSide → s' ≠ s →
      (afterMatch v s l ls p o q leavesQty).contents s' = v.contents s' := fun s' hs' he => by
    rw [afterMatch, View.contents, View.side_set_of_ne _ _ hs hs' he]
    rfl
  -- what the second update makes of the client's book
  have hend : ∀ u : MEMarketUpdate, u.type ≠ .add → u.type ≠ .trade → Expected w u →
      effect u s (w.contents s) =
        mapOrders toMarketOrder ((afterMatch v s l ls p o q leavesQty).contents s) →
      (∀ s', s'.IsBookSide → s' ≠ s → effect u s' (w.contents s') = w.contents s') →
      ∃ c' w', c.onMarketUpdate u = .ok c' ∧ WellFormed c' w' ∧
        Mirrors (afterMatch v s l ls p o q leavesQty) w' := by
    intro u hadd htrade hu hself hrest
    obtain ⟨c', w', hc', hwf, hw'⟩ := onMarketUpdate_eq hc hu hadd
    refine ⟨c', w', hc', hwf, fun s' hs' => ?_⟩
    by_cases he : s' = s
    · rw [he, hw' s hs, hself]
    · rw [hw' s' hs', hrest s' hs' he, hm s' hs', hother s' hs' he]
  have htrade : ∀ u : MEMarketUpdate, u.type = .trade → c.onMarketUpdate u = .ok c :=
    fun u hu => if_pos hu
  simp only [fillUpdates, List.foldlM_cons, List.foldlM_nil, htrade, ok_bind, bind_pure]
  by_cases hle : o.qty ≤ leavesQty
  · rw [if_pos (by omega)]
    obtain ⟨hself, hrest⟩ := effect_cancel hc hs hw (u :=
      { type := .cancel, orderId := o.marketOrderId, tickerId, side := o.side, price := o.price,
        qty := o.qty, priority := Priority.invalid }) rfl rfl
    refine hend _ (by simp) (by simp) (by simpa [Expected] using hexists) ?_ hrest
    rw [hself, hafter, afterFill, if_pos hle, mapOrders_consLevel]
    rfl
  · rw [if_neg (by omega)]
    obtain ⟨hself, hrest⟩ := effect_modify hc hs hw (u :=
      { type := .modify, orderId := o.marketOrderId, tickerId, side := o.side, price := o.price,
        qty := o.qty - min leavesQty o.qty, priority := o.priority }) rfl rfl
    refine hend _ (by simp) (by simp) (by simpa [Expected] using hexists) ?_ hrest
    have hmin : min leavesQty o.qty = leavesQty := by omega
    rw [hself, hafter, afterFill, if_neg hle, hmin]
    rfl

/-- **The matching loop**: the client's book follows it. -/
lemma mirror_checkForMatch (hb : Exchange.WellFormed b v)
    (clientId clientOrderId tickerId : ℕ) (side : Side) (price : ℤ) (qty newMarketOrderId : ℕ) :
    ∃ b' leavesQty c' v' w', b.checkForMatch clientId clientOrderId tickerId side price qty
        newMarketOrderId = .ok (b', leavesQty) ∧
      (newUpdates b b').foldlM onMarketUpdate c = .ok c' ∧
      Exchange.WellFormed b' v' ∧ WellFormed c' w' ∧ Mirrors v' w' := by
  by_cases hs : side.IsBookSide
  case neg =>
    refine ⟨b, qty, c, v, w, if_neg hs, ?_, hb, hc, hm⟩
    rw [newUpdates_of_eq [] (List.append_nil _).symm]
    rfl
  have hs' := isBookSide_opposite side
  obtain ⟨b', v', leavesQty, hloop, hwf, ⟨us, c', w', hus, hfold, hc', hm'⟩, -⟩ :=
    checkForMatch_rule clientId clientOrderId tickerId side price newMarketOrderId
      (fun b' v' _ => ∃ us c' w', b'.published = b.published ++ us ∧
        us.foldlM onMarketUpdate c = .ok c' ∧ WellFormed c' w' ∧ Mirrors v' w')
      (by
        rintro b₁ b₂ v₁ l ls p o q leavesQty - ⟨us, c₁, w₁, hus, hfold, hc₁, hm₁⟩ hside hq - - -
          hengine -
        obtain ⟨c₂, w₂, hfold₂, hc₂, hm₂⟩ :=
          mirror_match hc₁ hm₁ hs' hside hq tickerId side leavesQty
        refine ⟨us ++ fillUpdates tickerId side ⟨o, min leavesQty o.qty, leavesQty - o.qty⟩, c₂, w₂,
          ?_, ?_, hc₂, hm₂⟩
        · rw [published, hengine, ← List.append_assoc, ← hus]
          rfl
        · rw [List.foldlM_append, hfold]
          exact hfold₂)
      hb hs qty ⟨[], c, w, by simp, rfl, hc, hm⟩
  exact ⟨b', leavesQty, c', v', w', hloop, newUpdates_of_eq us hus ▸ hfold, hwf, hc', hm'⟩

/-- **A cancel request**: the client's book follows it.

**Proof sketch.** A request that is rejected publishes nothing. Otherwise one CANCEL is published,
which names an order of the client's book (`Mirrors.mem`), and both books drop it from the same place
of the same queue. -/
lemma mirror_cancel (hb : Exchange.WellFormed b v) (clientId orderId tickerId : ℕ) :
    Safe (fun f => f = .outOfRange ∧ ¬ orderId < meMaxOrderIds)
      (fun b' => ∃ c' v' w', (newUpdates b b').foldlM onMarketUpdate c = .ok c' ∧
        Exchange.WellFormed b' v' ∧ WellFormed c' w' ∧ Mirrors v' w')
      (b.cancel clientId orderId tickerId) := by
  refine (safe_cancel hb clientId orderId tickerId).mono (fun _ hf => hf) ?_
  rintro b' ⟨v', hwf, hstep⟩
  cases hstep with
  | rejected =>
    refine ⟨c, v, w, ?_, hwf, hc, hm⟩
    rw [newUpdates_of_eq [] (by simp [published, respond])]
    rfl
  | @canceled _ s l l₁ l₂ q₁ q₂ x hs hv hq _ hengine _ =>
    set u : MEMarketUpdate :=
      { type := .cancel, orderId := x.2.marketOrderId, tickerId, side := x.2.side,
        price := x.2.price, qty := 0, priority := x.2.priority } with hu
    have hw : w.contents s = mapOrders toMarketOrder (l₁.map Level.contents) ++
        (l.price, (q₁.map Prod.snd).map toMarketOrder ++ toMarketOrder x.2 ::
          (q₂.map Prod.snd).map toMarketOrder) :: mapOrders toMarketOrder (l₂.map Level.contents) := by
      rw [hm s hs, contents_split hv hq]
      simp
    have hexists := hm.mem hs (l := l) (by simp [hv]) (x := x) (by simp [hq])
    obtain ⟨hself, hother⟩ := effect_cancel hc hs hw (u := u) rfl rfl
    obtain ⟨c', w', hc', hwf', hw'⟩ :=
      onMarketUpdate_eq hc (u := u) (by simpa [Expected, hu] using hexists) (by simp [hu])
    refine ⟨c', _, w', ?_, hwf, hwf', fun s' hs' => ?_⟩
    · rw [newUpdates_of_eq [u] (by rw [published, hengine]; rfl)]
      simp [hc']
    · by_cases he : s' = s
      · rw [he, hw' s hs, hself, View.contents_set_self, List.map_append,
          Level.contents_withQueue, List.map_append]
        simp
      · rw [hw' s' hs', hother s' hs' he, hm s' hs', View.contents, View.contents,
          View.side_set_of_ne _ _ hs hs' he]

/-- **A remainder that rests**: the client's book follows it.

**Proof sketch.** A quantity of zero publishes nothing. Otherwise the exchange's book places the order
(`safe_addRemainder`) and publishes one ADD, which the client's book expects: its levels are at the
prices of the exchange's, and no live order has the new id. Both insert by price and time, so the
contents go on mirroring each other. -/
lemma mirror_rest (hb : Exchange.WellFormed b v)
    (clientId clientOrderId tickerId : ℕ) {newMarketOrderId : ℕ} {side : Side} {price : ℤ}
    (leavesQty : ℕ)
    (hs : side.IsBookSide) (hprice : NoCollision v price)
    (hcross : ∀ l ∈ v.side side.opposite, crosses side price l.price = false)
    (hid : newMarketOrderId < meMaxOrderIds)
    (hnew : ∀ x ∈ orders v.levels, x.2.marketOrderId ≠ newMarketOrderId) :
    Safe (fun f => NoFreshBlock f ∨ f = .outOfRange ∧ clientOrderSlot clientId clientOrderId = none)
      (fun b' => Safe NoFreshBlock
        (fun c' => ∃ v' w', Exchange.WellFormed b' v' ∧ WellFormed c' w' ∧ Mirrors v' w')
        ((newUpdates b b').foldlM onMarketUpdate c))
      (b.rest clientId clientOrderId tickerId newMarketOrderId side price leavesQty) := by
  unfold MEOrderBook.rest
  by_cases hzero : leavesQty = 0
  · rw [if_pos hzero]
    simp only [safe_ok]
    rw [newUpdates_of_eq [] (List.append_nil _).symm]
    exact ⟨v, w, hb, hc, hm⟩
  rw [if_neg hzero]
  have hfits := hprice.fits hb.valid hs hcross
  refine Safe.bind (safe_addRemainder hb clientId clientOrderId tickerId newMarketOrderId hs price
    (Nat.pos_of_ne_zero hzero) hfits) ?_
  rintro ⟨b₁, priority, p⟩ ⟨v', hwf, -, hplaced, hengine, -, -⟩
  set u : MEMarketUpdate :=
    { type := .add, orderId := newMarketOrderId, tickerId, side, price, qty := leavesQty, priority }
    with hu
  have hexpected : Expected w u := by
    refine ⟨hs, fun m hm' he => ?_, fun y hy => ?_⟩
    · obtain ⟨s, hs', hms⟩ := View.mem_levels.mp hm'
      obtain ⟨l, hl, hlm, -⟩ := hm.exists_of_mem hs' hms
      obtain ⟨hp, hside⟩ := hfits l (View.mem_levels_of_side hl) (by rw [hlm]; exact he)
      refine ⟨hlm ▸ hp, ?_⟩
      rw [(hc.valid.homed s hs' m hms).1, ← (hb.valid.homed s hs' l hl).1]
      exact hside
    · obtain ⟨m, hm', hym⟩ := mem_orders.mp hy
      obtain ⟨s, hs', hms⟩ := View.mem_levels.mp hm'
      obtain ⟨l, hl, -, hqueue⟩ := hm.exists_of_mem hs' hms
      obtain ⟨x, hx, hxy⟩ := hqueue y hym
      rw [← hxy]
      exact hnew x (mem_orders.mpr ⟨l, View.mem_levels_of_side hl, hx⟩)
  obtain ⟨hvalid, hself, hother⟩ := hplaced.contents hb.valid hs hfits
  have hpublished : newUpdates b (b₁.publish u) = [u] := by
    refine newUpdates_of_eq [u] ?_
    rw [published, published, ← hengine]
    rfl
  change Safe NoFreshBlock _ ((newUpdates b (b₁.publish u)).foldlM onMarketUpdate c)
  rw [hpublished, List.foldlM_cons]
  refine Safe.bind ((safe_onMarketUpdate hc hexpected).mono (fun f hf => ?_) fun _ hr => hr) ?_
  · exact hf.2.resolve_right fun hf => hf.2 hid
  · rintro c' ⟨w', hc', hw'⟩
    refine ⟨v', w', hwf.of_book rfl, hc', fun s hs' => ?_⟩
    rw [hw' s hs', hm s hs']
    simp only [effect, hu]
    split
    · next he =>
      rw [← he]
      refine Eq.trans ?_ (congrArg (mapOrders toMarketOrder) hself.symm)
      rw [mapOrders_insertOrder]
      rfl
    · next he =>
      have hsame : v'.side s = v.side s := hother s hs' fun hx => he hx.symm
      rw [View.contents, View.contents, hsame]

/-- **The client's book mirrors the exchange's book.** Whatever step the exchange's book takes,
the updates it publishes bring an agreeing client's book to where it agrees again, up to the
supply of fresh blocks. -/
theorem mirror_step (hb : Exchange.WellFormed b v) (step : ExchangeStep) (hstep : Allowed v step) :
    Safe (fun f => NoFreshBlock f ∨ f = .outOfRange ∧ step.OutOfTable)
      (fun b' => Safe NoFreshBlock
        (fun c' => ∃ v' w', Exchange.WellFormed b' v' ∧ WellFormed c' w' ∧ Mirrors v' w')
        ((newUpdates b b').foldlM onMarketUpdate c)) (ExchangeStep.run b step) := by
  cases step with
  | checkForMatch clientId clientOrderId tickerId side price qty newMarketOrderId =>
    obtain ⟨b', leavesQty, c', v', w', hmatch, hfold, h⟩ := mirror_checkForMatch hc hm hb clientId
      clientOrderId tickerId side price qty newMarketOrderId
    rw [ExchangeStep.run, hmatch]
    change Safe NoFreshBlock _ ((newUpdates b b').foldlM onMarketUpdate c)
    rw [hfold]
    exact ⟨v', w', h⟩
  | cancel clientId orderId tickerId =>
    refine (mirror_cancel hc hm hb clientId orderId tickerId).mono (fun _ hf => .inr hf) ?_
    rintro b' ⟨c', v', w', hfold, h⟩
    rw [hfold]
    exact ⟨v', w', h⟩
  | rest clientId clientOrderId tickerId newMarketOrderId side price leavesQty =>
    obtain ⟨hs, hprice, hcross, hid, hnew⟩ := hstep
    exact mirror_rest hc hm hb clientId clientOrderId tickerId leavesQty hs hprice hcross hid hnew

end Steps

/-- An ask that rests. -/
def sampleAsk : ExchangeStep := .rest 1 1 0 1 .sell 12 5

/-- A buyer that takes a part of it. -/
def sampleTake : ExchangeStep := .checkForMatch 2 1 0 .buy 12 3 2

/-- An ask is placed and partly taken, and the client's book follows. -/
theorem mirror_step_sample :
    ∃ b₁ c₁ b₂ c₂ v w, ExchangeStep.run MEOrderBook.new sampleAsk = .ok b₁ ∧
      (newUpdates MEOrderBook.new b₁).foldlM onMarketUpdate MarketOrderBook.new = .ok c₁ ∧
      ExchangeStep.run b₁ sampleTake = .ok b₂ ∧ (newUpdates b₁ b₂).foldlM onMarketUpdate c₁ = .ok c₂ ∧
      Exchange.WellFormed b₂ v ∧ WellFormed c₂ w ∧ Mirrors v w := by
  have hrun : (do
      let b₁ ← ExchangeStep.run MEOrderBook.new sampleAsk
      let c₁ ← (newUpdates MEOrderBook.new b₁).foldlM onMarketUpdate MarketOrderBook.new
      let b₂ ← ExchangeStep.run b₁ sampleTake
      (newUpdates b₁ b₂).foldlM onMarketUpdate c₁).isOk = true := by decide
  obtain ⟨b₁, hb₁, hrun⟩ := bind_isOk.mp hrun
  obtain ⟨c₁, hc₁, hrun⟩ := bind_isOk.mp hrun
  obtain ⟨b₂, hb₂, hrun⟩ := bind_isOk.mp hrun
  have hempty : Mirrors {} {} := fun s hs => by rcases hs with rfl | rfl <;> rfl
  have hask : Allowed {} sampleAsk :=
    ⟨.inr rfl, by simp [NoCollision, View.levels], by simp [View.side], by decide,
      by simp [View.levels]⟩
  have h₁ := mirror_step wellFormed_new hempty Exchange.wellFormed_new sampleAsk hask
  obtain ⟨v, w, hv, hw, hm⟩ := (h₁.of_eq_ok hb₁).of_eq_ok hc₁
  have h₂ := mirror_step hw hm hv sampleTake trivial
  obtain ⟨c₂, hc₂, v', w', h⟩ := (h₂.of_eq_ok hb₂).exists_of_isOk hrun
  exact ⟨b₁, c₁, b₂, c₂, v', w', hb₁, hc₁, hb₂, hc₂, h⟩

end Trading
