import HftSystem.Exchange.BookInvariant

set_option relaxedAutoImplicit false
set_option autoImplicit false

/-!
# The matching loop is the reference matcher

`checkForMatch` computes what `PriceTime.sweep` computes on the levels of the other side, sends
the messages of its executions in order, and leaves everything else alone.

## Main results

* `Exchange.checkForMatch_priceTime` — price-time priority of the matching loop.
-/

namespace Exchange

open Common LimitOrderBook PriceTime Fallible MEOrderBook

/-- A price that is not worse than the limit of an order. -/
def NotWorse (side : Side) (limit price : ℤ) : Prop :=
  (side = .buy → price ≤ limit) ∧ (side = .sell → limit ≤ price)

/-- A price that crosses is not worse than the limit. -/
lemma notWorse_of_crosses {side : Side} {limit price : ℤ} (h : crosses side limit price = true) :
    NotWorse side limit price := by
  constructor <;> rintro rfl <;> simpa [crosses] using h

/-- A sweep that the loop ends without an execution. -/
lemma sweep_of_stop {v : View MEOrder} {side : Side} {price : ℤ} {leavesQty : ℕ}
    (h : leavesQty = 0 ∨
      ∀ l ∈ (v.side side.opposite).head?, crosses side price l.price = false) :
    sweep MEOrder.qty MEOrder.withQty (crosses side price) leavesQty (v.contents side.opposite) =
      ⟨[], leavesQty, v.contents side.opposite⟩ := by
  rcases h with rfl | h
  · exact sweep_zero _
  · rw [View.contents]
    cases hside : v.side side.opposite with
    | nil => rfl
    | cons l ls =>
      rw [hside] at h
      exact sweep_of_not_crosses (h l rfl)

/-- **Price-time priority matching.** On every well-formed book the matching loop terminates
and is the reference matcher: it executes a prefix of the other side, best price first and
first in first out, at prices not worse than the limit, all but the last one completely; it
stops when the quantity is used up or the best level no longer crosses; it sends the messages
of these executions; and no other order changes its quantity or its place.

**Proof sketch.** The invariant of the loop is that the executions so far, followed by a sweep of what
is left of the other side by what is left of the quantity, are the whole sweep. One turn moves the
first execution of the rest over to `done` (`sweep_cons`), with its messages. At the end the rest of
the sweep executes nothing (`sweep_of_stop`), and the properties of the sweep are those of
`sweep_outcome`. -/
theorem checkForMatch_priceTime {b : MEOrderBook} {v : View MEOrder} (h : WellFormed b v)
    (clientId clientOrderId tickerId : ℕ) {side : Side} (hs : side.IsBookSide) (price : ℤ)
    (qty newMarketOrderId : ℕ) :
    ∃ b' v' r,
      r = sweep MEOrder.qty MEOrder.withQty (crosses side price) qty (v.contents side.opposite) ∧
      b.checkForMatch clientId clientOrderId tickerId side price qty newMarketOrderId =
        .ok (b', r.leaves) ∧
      WellFormed b' v' ∧ v'.contents side.opposite = r.rest ∧ v'.side side = v.side side ∧
      b'.matchingEngine = b.matchingEngine.push
        (r.fills.flatMap
          (fillResponses clientId clientOrderId tickerId side (newMarketOrderId % 2 ^ 32)))
        (r.fills.flatMap (fillUpdates tickerId side)) ∧
      Outcome MEOrder.qty MEOrder.withQty (crosses side price) qty (v.contents side.opposite) r ∧
      ∀ f ∈ r.fills, NotWorse side price f.order.price := by
  have hs' := isBookSide_opposite side
  set r := sweep MEOrder.qty MEOrder.withQty (crosses side price) qty (v.contents side.opposite)
    with hr
  -- what has been executed and what the sweep still does make up the whole sweep
  obtain ⟨b', v', leavesQty, hmatch, hwf, ⟨done, hfills, hleaves, hrest, hengine, hown⟩, hstop⟩ :=
    checkForMatch_rule clientId clientOrderId tickerId side price newMarketOrderId
      (fun b₁ v₁ leavesQty => ∃ done,
        r.fills = done ++ (sweep MEOrder.qty MEOrder.withQty (crosses side price) leavesQty
          (v₁.contents side.opposite)).fills ∧
        r.leaves = (sweep MEOrder.qty MEOrder.withQty (crosses side price) leavesQty
          (v₁.contents side.opposite)).leaves ∧
        r.rest = (sweep MEOrder.qty MEOrder.withQty (crosses side price) leavesQty
          (v₁.contents side.opposite)).rest ∧
        b₁.matchingEngine = b.matchingEngine.push
          (done.flatMap
            (fillResponses clientId clientOrderId tickerId side (newMarketOrderId % 2 ^ 32)))
          (done.flatMap (fillUpdates tickerId side)) ∧
        v₁.side side = v.side side)
      (by
        rintro b₁ b₂ v₁ l ls p o q leavesQty hwf ⟨done, hfills, hleaves, hrest, hengine, hown⟩ hside
          hq hpos hc - hsent -
        have hcontents : v₁.contents side.opposite =
            (l.price, o :: q.map Prod.snd) :: ls.map Level.contents := by
          simp [View.contents, hside, Level.contents, hq]
        rw [hcontents, sweep_cons hpos hc, ← contents_afterMatch (v := v₁) (s := side.opposite)
          (p := p)] at hfills hleaves hrest
        refine ⟨done ++ [⟨o, min leavesQty o.qty, leavesQty - o.qty⟩], ?_, hleaves, hrest, ?_, ?_⟩
        · simpa using hfills
        · rw [hsent, hengine]
          simp
        · have hne : side ≠ side.opposite := by rcases hs with rfl | rfl <;> decide
          rw [← hown, afterMatch, View.side_set_of_ne _ _ hs' hs hne])
      h hs qty ⟨[], rfl, rfl, rfl, by simp, rfl⟩
  rw [sweep_of_stop hstop] at hfills hleaves hrest
  simp only [List.append_nil] at hfills
  have houtcome : Outcome MEOrder.qty MEOrder.withQty (crosses side price) qty
      (v.contents side.opposite) r := by
    refine sweep_outcome (fun l hl => ?_) fun x hx => ?_
    · obtain ⟨m, hm, rfl⟩ := List.mem_map.mp hl
      simpa [Level.contents] using h.valid.nonempty m (View.mem_levels_of_side hm)
    · obtain ⟨c, hc, hxc⟩ := List.mem_flatMap.mp hx
      obtain ⟨m, hm, rfl⟩ := List.mem_map.mp hc
      obtain ⟨y, hy, rfl⟩ := List.mem_map.mp hxc
      exact h.positive y (mem_orders.mpr ⟨m, View.mem_levels_of_side hm, hy⟩)
  refine ⟨b', v', r, rfl, ?_, hwf, hrest.symm, hown, ?_, houtcome, fun f hf => ?_⟩
  · rw [hmatch, hleaves]
  · rw [hengine, hfills]
  · obtain ⟨c, hc, hfc, hcross⟩ := houtcome.crossed f hf
    obtain ⟨m, hm, rfl⟩ := List.mem_map.mp hc
    obtain ⟨y, hy, hyf⟩ := List.mem_map.mp hfc
    have hprice : y.2.price = m.price := ((h.valid.homed _ hs' m hm).2 y hy).2
    refine notWorse_of_crosses ?_
    rw [← hyf, hprice]
    exact hcross

/-- Two asks, of which a buyer takes the first one completely. -/
def sampleAsks : List MEClientRequest :=
  [{ type := .new, clientId := 1, tickerId := 0, orderId := 1, side := .sell, price := 12, qty := 5 },
   { type := .new, clientId := 1, tickerId := 0, orderId := 2, side := .sell, price := 13, qty := 5 }]

/-- A bid of 7 at 12 takes the first ask. -/
theorem checkForMatch_priceTime_sample :
    ∃ b v b' v' r, sampleAsks.foldlM (processClientRequest matchAndRest) MEOrderBook.new = .ok b ∧
      WellFormed b v ∧
      r = sweep MEOrder.qty MEOrder.withQty (crosses .buy 12) 7 (v.contents .sell) ∧
      b.checkForMatch 3 1 0 .buy 12 7 3 = .ok (b', r.leaves) ∧
      WellFormed b' v' ∧ v'.contents .sell = r.rest := by
  have hrun := bookInvariant_run
    (meets_admissible (show ∀ r ∈ sampleAsks, _ by decide) (by decide) (by decide))
  obtain ⟨b, hb, v, hv⟩ := hrun.exists_of_isOk (by decide)
  obtain ⟨b', v', r, hr, hmatch, hwf, hrest, -⟩ :=
    checkForMatch_priceTime hv.wellFormed 3 1 0 (show Side.IsBookSide .buy from .inl rfl) 12 7 3
  exact ⟨b, v, b', v', r, hb, hv.wellFormed, hr, hmatch, hwf, hrest⟩

end Exchange
