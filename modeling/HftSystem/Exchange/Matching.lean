import HftSystem.Common.BookView
import HftSystem.Exchange.MEOrderBook

set_option relaxedAutoImplicit false
set_option autoImplicit false

/-!
# Price-time priority matching

One execution of `match` and the loop of `checkForMatch`, against the reference matcher
`PriceTime.sweep`. The loop re-reads the best level after each execution, which may have
removed the order, its level and the best pointer; the rule `matchLoop_rule` packages the
induction over its iterations for any invariant of the book, its view and the quantity left.

## Main definitions

* `Exchange.fillResponses`, `Exchange.fillUpdates` — what one execution sends.
* `Exchange.afterMatch` — the view after one execution.

## Main results

* `Exchange.matchOrder_spec` — one execution.
* `Exchange.matchLoop_rule` — the invariant rule for the loop, which always terminates.
* `Exchange.checkForMatch_rule` — the rule for the whole function.
* `Exchange.safe_checkForMatch` — the rule on a book whatever its lists look like.
-/

namespace Exchange

open Common LimitOrderBook PriceTime Fallible MEOrderBook

/-! ## What an execution sends -/

section Messages

variable (clientId clientOrderId tickerId : ℕ) (side : Side) (newMarketOrderId : ℕ)

/-- The two responses of an execution: to the incoming order, and to the resting one. -/
def fillResponses (f : Fill MEOrder) : List MEClientResponse :=
  [{ type := .filled, clientId, tickerId, clientOrderId, marketOrderId := newMarketOrderId, side,
     price := f.order.price, execQty := f.qty, leavesQty := f.leaves },
   { type := .filled, clientId := f.order.clientId, tickerId,
     clientOrderId := f.order.clientOrderId, marketOrderId := f.order.marketOrderId,
     side := f.order.side, price := f.order.price, execQty := f.qty,
     leavesQty := f.order.qty - f.qty }]

/-- The two market updates of an execution: the trade, and the end or the new quantity of the
resting order. -/
def fillUpdates (f : Fill MEOrder) : List MEMarketUpdate :=
  [{ type := .trade, orderId := OrderId.invalid, tickerId, side, price := f.order.price,
     qty := f.qty, priority := Priority.invalid },
   if f.order.qty - f.qty = 0 then
     { type := .cancel, orderId := f.order.marketOrderId, tickerId, side := f.order.side,
       price := f.order.price, qty := f.order.qty, priority := Priority.invalid }
   else
     { type := .modify, orderId := f.order.marketOrderId, tickerId, side := f.order.side,
       price := f.order.price, qty := f.order.qty - f.qty, priority := f.order.priority }]

end Messages

/-- An order with another quantity. -/
def MEOrder.withQty (o : MEOrder) (qty : ℕ) : MEOrder := { o with qty }

/-- The queues of the matching engine after more was written to them. -/
def MatchingEngine.push (e : MatchingEngine) (responses : List MEClientResponse)
    (updates : List MEMarketUpdate) : MatchingEngine where
  outgoingOgwResponses := e.outgoingOgwResponses ++ responses
  outgoingMdUpdates := e.outgoingMdUpdates ++ updates

/-- Nothing is written. -/
@[simp] lemma MatchingEngine.push_nil (e : MatchingEngine) : e.push [] [] = e := by
  simp [MatchingEngine.push]

/-- What is written in two goes is written in one. -/
@[simp] lemma MatchingEngine.push_push (e : MatchingEngine) (r r' : List MEClientResponse)
    (u u' : List MEMarketUpdate) : (e.push r u).push r' u' = e.push (r ++ r') (u ++ u') := by
  simp [MatchingEngine.push]

/-- The view after an execution of `leavesQty` against the first order of a side. -/
def afterMatch (v : View MEOrder) (s : Side) (l : Level MEOrder) (ls : List (Level MEOrder))
    (p : Ptr) (o : MEOrder) (q : List (Ptr × MEOrder)) (leavesQty : ℕ) : View MEOrder :=
  v.set s <|
    if o.qty ≤ leavesQty then l.withQueue q ++ ls
    else { l with queue := (p, { o with qty := o.qty - leavesQty }) :: q } :: ls

/-- An operation of the shared book that succeeds. -/
lemma onBook_eq {b : MEOrderBook} {book : LimitOrderBook MEOrder (ℕ × ℕ)}
    {f : LimitOrderBook MEOrder (ℕ × ℕ) → Except Fault (LimitOrderBook MEOrder (ℕ × ℕ))}
    (h : f b.toLimitOrderBook = .ok book) :
    b.onBook f = .ok { b with toLimitOrderBook := book } := by
  simp only [onBook, h, ok_bind]
  rfl

/-! ## One execution -/

section Match

variable {b : MEOrderBook} {v : View MEOrder} {s : Side} {l : Level MEOrder}
  {ls : List (Level MEOrder)} {p : Ptr} {o : MEOrder} {q : List (Ptr × MEOrder)} {leavesQty : ℕ}

/-- **One execution** fills as much as it can, tells both clients and the market, and takes the
resting order out when nothing is left of it.

**Proof sketch.** The write to the quantity leaves a view with the new record
(`Represents.modifyOrder`). If nothing is left, the order is removed, and its level with it if it was
the last one (`removeOrder_spec`); if something is left, the view is the one after the write. The
messages are read off the body. -/
theorem matchOrder_spec (clientId clientOrderId tickerId : ℕ) (side : Side) (newMarketOrderId : ℕ)
    (h : Represents b.toLimitOrderBook v) (hv : v.Valid) (hs : s.IsBookSide)
    (hside : v.side s = l :: ls) (hq : l.queue = (p, o) :: q) (leavesQty : ℕ) :
    ∃ b', b.matchOrder tickerId clientId side clientOrderId newMarketOrderId p leavesQty =
        .ok (b', leavesQty - o.qty) ∧
      Represents b'.toLimitOrderBook (afterMatch v s l ls p o q leavesQty) ∧
      b'.matchingEngine = b.matchingEngine.push
        (fillResponses clientId clientOrderId tickerId side newMarketOrderId
          ⟨o, min leavesQty o.qty, leavesQty - o.qty⟩)
        (fillUpdates tickerId side ⟨o, min leavesQty o.qty, leavesQty - o.qty⟩) ∧
      b'.nextMarketOrderId = b.nextMarketOrderId := by
  have hl : l ∈ v.side s := by simp [hside]
  have hrecord : (b.node p).order = o := (h.shape.levelAt hl).record (p, o) (by simp [hq])
  obtain ⟨hos, hop⟩ := (hv.homed s hs l hl).2 (p, o) (by simp [hq])
  have hside₀ : v.side s = [] ++ l :: ls := hside
  have hq₀ : l.queue = [] ++ (p, o) :: q := hq
  -- the write to the quantity
  set fill := min leavesQty o.qty with hfill
  set f : MEOrder → MEOrder := fun o => { o with qty := o.qty - fill } with hf
  have hnode : ((b.modifyOrder p f).node p).order = f o := by simp [hrecord]
  have hrep : Represents (b.modifyOrder p f)
      (v.set s ([] ++ { l with queue := [] ++ (p, f o) :: q } :: ls)) :=
    h.modifyOrder hs hside₀ hq₀ rfl
  have hleaves : leavesQty - fill = leavesQty - o.qty := by omega
  unfold matchOrder
  simp only [hrecord, ← hfill, ← hf, hleaves, hnode]
  by_cases hle : o.qty ≤ leavesQty
  · have hzero : o.qty - fill = 0 := by omega
    have hprice : priceToIndex l.price = priceToIndex (BookOrder.price (f o)) :=
      congrArg priceToIndex hop.symm
    obtain ⟨book, k, hbook, -, -, hrep'⟩ := removeOrder_spec hrep hs (View.side_set_self ..) rfl
      (fun _ => iff_of_eq (congrArg (· = Side.buy) hos))
      hprice
    rw [if_pos (show (f o).qty = 0 from hzero), onBook_eq hbook]
    refine ⟨_, rfl, ?_, ?_, rfl⟩
    · rw [afterMatch, if_pos hle]
      simpa using hrep'
    · simp [respond, publish, sendMarketUpdate, MatchingEngine.push, fillResponses, fillUpdates, hf,
        hzero]
  · have hzero : ¬ o.qty - fill = 0 := by omega
    have hfo : f o = { o with qty := o.qty - leavesQty } := by
      simp only [hf, show fill = leavesQty by omega]
    rw [if_neg (show ¬ (f o).qty = 0 from hzero)]
    refine ⟨_, rfl, ?_, ?_, rfl⟩
    · rw [afterMatch, if_neg hle, ← hfo]
      exact hrep
    · simp [respond, publish, sendMarketUpdate, MatchingEngine.push, fillResponses, fillUpdates, hf,
        hzero]

/-- What an execution leaves of a side, without the addresses. -/
lemma contents_afterMatch :
    (afterMatch v s l ls p o q leavesQty).contents s =
      afterFill MEOrder.qty MEOrder.withQty leavesQty l.price o (q.map Prod.snd)
        (ls.map Level.contents) := by
  rw [afterMatch, View.contents_set_self, afterFill]
  split
  · exact Level.contents_withQueue l q ls
  · simp [Level.contents, MEOrder.withQty]

/-- An execution keeps a view valid. -/
lemma valid_afterMatch (hv : v.Valid) (hs : s.IsBookSide) (hside : v.side s = l :: ls)
    (hq : l.queue = (p, o) :: q) : (afterMatch v s l ls p o q leavesQty).Valid := by
  have hside₀ : v.side s = [] ++ l :: ls := hside
  have hq₀ : l.queue = [] ++ (p, o) :: q := hq
  rw [afterMatch]
  split
  · exact hv.remove hs hside₀ (by rw [hq]; exact List.subset_cons_self _ _)
  · exact hv.modify (y := (p, { o with qty := o.qty - leavesQty })) hs hside₀ hq₀ rfl rfl

/-- The orders after an execution are those before, but for the quantity of the first one. -/
lemma mem_orders_afterMatch (hside : v.side s = l :: ls) (hq : l.queue = (p, o) :: q)
    {x : Ptr × MEOrder} (hx : x ∈ orders (afterMatch v s l ls p o q leavesQty).levels) :
    x ∈ orders v.levels ∨
      ¬ o.qty ≤ leavesQty ∧ x = (p, { o with qty := o.qty - leavesQty }) := by
  have hside₀ : v.side s = [] ++ l :: ls := hside
  have hperm := orders_perm (View.levels_perm_cons hside₀)
  rw [orders_cons, hq] at hperm
  rw [afterMatch] at hx
  split at hx
  · have := (orders_perm (v.levels_set_perm s [] (l.withQueue q) ls)).mem_iff.mp hx
    rw [orders_append, Level.orders_withQueue] at this
    refine .inl (hperm.mem_iff.mpr ?_)
    exact List.mem_cons_of_mem _ this
  · have := (orders_perm (v.levels_set_perm s [] [_] ls)).mem_iff.mp hx
    rw [List.singleton_append, orders_cons] at this
    rcases List.mem_cons.mp this with rfl | hx
    · exact .inr ⟨‹_›, rfl⟩
    · exact .inl (hperm.mem_iff.mpr (List.mem_cons_of_mem _ hx))

end Match

/-! ## The loop -/

/-- A well-formed book: it represents a valid view, and every resting order has a quantity. -/
structure WellFormed (b : MEOrderBook) (v : View MEOrder) : Prop where
  repr : Represents b.toLimitOrderBook v
  valid : v.Valid
  positive : ∀ x ∈ orders v.levels, 0 < x.2.qty

/-- The side against which an order executes is a book side. -/
lemma isBookSide_opposite (side : Side) : side.opposite.IsBookSide := by
  cases side
  case buy => exact .inr rfl
  all_goals exact .inl rfl

section Loop

variable (clientId clientOrderId tickerId : ℕ) (side : Side) (price : ℤ) (newMarketOrderId : ℕ)

/-- **The rule for the matching loop.** An assertion that every execution preserves holds when
the loop is over. The loop terminates, and it stops because the quantity is used up or the best
level does not cross.

**Proof sketch.** Induction on the bound. An iteration that goes on either removes the first
order of the side, or uses the quantity up and is the last one. -/
theorem matchLoop_rule (I : MEOrderBook → View MEOrder → ℕ → Prop)
    (hstep : ∀ b b' v l ls p o q leavesQty, WellFormed b v → I b v leavesQty →
      v.side side.opposite = l :: ls → l.queue = (p, o) :: q → 0 < leavesQty →
      crosses side price l.price = true →
      Represents b'.toLimitOrderBook (afterMatch v side.opposite l ls p o q leavesQty) →
      b'.matchingEngine = b.matchingEngine.push
        (fillResponses clientId clientOrderId tickerId side newMarketOrderId
          ⟨o, min leavesQty o.qty, leavesQty - o.qty⟩)
        (fillUpdates tickerId side ⟨o, min leavesQty o.qty, leavesQty - o.qty⟩) →
      b'.nextMarketOrderId = b.nextMarketOrderId →
      I b' (afterMatch v side.opposite l ls p o q leavesQty) (leavesQty - o.qty))
    {b : MEOrderBook} {v : View MEOrder} (h : WellFormed b v) (leavesQty : ℕ)
    (hI : I b v leavesQty) (fuel : ℕ) (hfuel : (orders (v.side side.opposite)).length < fuel) :
    ∃ b' v' leavesQty',
      matchLoop clientId clientOrderId tickerId side price newMarketOrderId fuel b leavesQty =
        .ok (b', leavesQty') ∧
      WellFormed b' v' ∧ I b' v' leavesQty' ∧
      (leavesQty' = 0 ∨ ∀ l ∈ (v'.side side.opposite).head?, crosses side price l.price = false) := by
  have hs := isBookSide_opposite side
  induction fuel generalizing b v leavesQty with
  | zero => omega
  | succ fuel ih =>
    unfold matchLoop
    by_cases hzero : leavesQty = 0
    · exact ⟨b, v, leavesQty, by rw [if_pos hzero], h, hI, .inl hzero⟩
    rw [if_neg hzero]
    have hbest := (h.repr.shape.spine _ hs).best
    cases hside : v.side side.opposite with
    | nil =>
      rw [hside] at hbest
      refine ⟨b, v, leavesQty, ?_, h, hI, .inr (by simp [hside])⟩
      simp only [hbest, addrs_nil, List.head?_nil]
    | cons l ls =>
      have hl : l ∈ v.side side.opposite := by simp [hside]
      have hat := h.repr.shape.levelAt hl
      obtain ⟨⟨p, o⟩, q, hq⟩ :=
        List.exists_cons_of_ne_nil (h.valid.nonempty l (View.mem_levels_of_side hl))
      have hfirst : (b.level l.addr).firstOrder = some p := by
        rw [hat.first, Level.ptrs, hq]
        rfl
      have hprice : (b.node p).order.price = l.price := by
        rw [hat.record (p, o) (by simp [hq])]
        exact ((h.valid.homed _ hs l hl).2 (p, o) (by simp [hq])).2
      rw [hside] at hbest
      simp only [hbest, addrs_cons, List.head?_cons, hfirst, deref_some, ok_bind, hprice]
      cases hc : crosses side price l.price with
      | false =>
        refine ⟨b, v, leavesQty, by simp, h, hI, .inr ?_⟩
        simp [hside, hc]
      | true =>
        obtain ⟨b', hb', hrep, hengine, hnext⟩ := matchOrder_spec clientId clientOrderId tickerId
          side newMarketOrderId h.repr h.valid hs hside hq leavesQty
        have hpos : 0 < o.qty :=
          h.positive (p, o) (mem_orders.mpr ⟨l, View.mem_levels_of_side hl, by simp [hq]⟩)
        have hwf : WellFormed b' (afterMatch v side.opposite l ls p o q leavesQty) := by
          refine ⟨hrep, valid_afterMatch h.valid hs hside hq, fun x hx => ?_⟩
          rcases mem_orders_afterMatch hside hq hx with hx | ⟨hlt, rfl⟩
          · exact h.positive x hx
          · simp only
            omega
        have hI' := hstep b b' v l ls p o q leavesQty h hI hside hq (Nat.pos_of_ne_zero hzero) hc hrep
          hengine hnext
        simp only [hb', ok_bind, if_true]
        by_cases hle : o.qty ≤ leavesQty
        · refine ih hwf _ hI' ?_
          rw [afterMatch, View.side_set_self, if_pos hle]
          rw [hside] at hfuel
          simp [hq] at hfuel ⊢
          omega
        · have hused : leavesQty - o.qty = 0 := by omega
          obtain ⟨fuel, rfl⟩ : ∃ n, fuel = n + 1 := by
            rw [hside] at hfuel
            simp [hq] at hfuel
            exact ⟨fuel - 1, by omega⟩
          refine ⟨b', _, 0, ?_, hwf, hused ▸ hI', .inl rfl⟩
          simp [matchLoop, hused]

/-- **The rule for `checkForMatch`.** -/
theorem checkForMatch_rule (I : MEOrderBook → View MEOrder → ℕ → Prop)
    (hstep : ∀ b b' v l ls p o q leavesQty, WellFormed b v → I b v leavesQty →
      v.side side.opposite = l :: ls → l.queue = (p, o) :: q → 0 < leavesQty →
      crosses side price l.price = true →
      Represents b'.toLimitOrderBook (afterMatch v side.opposite l ls p o q leavesQty) →
      b'.matchingEngine = b.matchingEngine.push
        (fillResponses clientId clientOrderId tickerId side (newMarketOrderId % 2 ^ 32)
          ⟨o, min leavesQty o.qty, leavesQty - o.qty⟩)
        (fillUpdates tickerId side ⟨o, min leavesQty o.qty, leavesQty - o.qty⟩) →
      b'.nextMarketOrderId = b.nextMarketOrderId →
      I b' (afterMatch v side.opposite l ls p o q leavesQty) (leavesQty - o.qty))
    {b : MEOrderBook} {v : View MEOrder} (h : WellFormed b v) (hs : side.IsBookSide) (qty : ℕ)
    (hI : I b v qty) :
    ∃ b' v' leavesQty',
      b.checkForMatch clientId clientOrderId tickerId side price qty newMarketOrderId =
        .ok (b', leavesQty') ∧
      WellFormed b' v' ∧ I b' v' leavesQty' ∧
      (leavesQty' = 0 ∨ ∀ l ∈ (v'.side side.opposite).head?, crosses side price l.price = false) := by
  have hlen : (orders (v.side side.opposite)).length ≤ (orders v.levels).length := by
    by_cases he : side.opposite = .buy <;> simp [View.side, View.levels, he]
  rw [checkForMatch, if_pos hs]
  exact matchLoop_rule clientId clientOrderId tickerId side price (newMarketOrderId % 2 ^ 32) I hstep h
    qty hI (b.orderPool.size + 1) (Nat.lt_succ_of_le (hlen.trans h.repr.length_le))

/-- **The rule on any book.** The loop executes against the first order of some level, so what
these executions preserve, it preserves.

**Proof sketch.** By induction on the fuel of the loop. Each turn stops or executes against the first
order of the best level, and `hmatch` carries the property over it. -/
theorem safe_checkForMatch (I : MEOrderBook → Prop)
    (hmatch : ∀ b newMarketOrderId best itr leavesQty, I b →
      (b.level best).firstOrder = some itr → Safe (fun _ => True) (fun r => I r.1)
        (b.matchOrder tickerId clientId side clientOrderId newMarketOrderId itr leavesQty))
    {b : MEOrderBook} (h : I b) (qty : ℕ) :
    Safe (fun _ => True) (fun r => I r.1)
      (b.checkForMatch clientId clientOrderId tickerId side price qty newMarketOrderId) := by
  have hloop : ∀ fuel b leavesQty, I b → Safe (fun _ => True) (fun r => I r.1)
      (matchLoop clientId clientOrderId tickerId side price (newMarketOrderId % 2 ^ 32) fuel b
        leavesQty) := by
    intro fuel
    induction fuel with
    | zero =>
      intro b leavesQty _
      trivial
    | succ fuel ih =>
      intro b leavesQty h
      unfold matchLoop
      split
      · exact h
      split
      · exact h
      next best _ =>
        cases hfirst : (b.level best).firstOrder with
        | none => trivial
        | some itr =>
          simp only [deref_some, ok_bind]
          split
          · refine (hmatch b _ best itr leavesQty h hfirst).bind ?_
            intro r hr
            exact ih r.1 r.2 hr
          · exact h
  unfold checkForMatch
  split
  · exact hloop _ b qty h
  · exact h

end Loop

end Exchange
