import HftSystem.Common.BookText
import HftSystem.Trading.FeedBlocks

set_option relaxedAutoImplicit false
set_option autoImplicit false

/-!
# What the books print

The destructors of the books log `toString`, with its check of the prices. The printout of a book can be
computed from the updates that were published about its ticker, and a client that followed them prints
the same as the exchange. The check fails only for an ask at the smallest price that there is or a
bid at the largest, which is `Price_INVALID`.

## Main definitions

* `Trading.feedText` — the printout of the live orders of a feed.
* `Trading.FeedInOrder` — they pass the check.

## Main results

* `Trading.printouts_of_run` — the books of the exchange.
* `Trading.clients_print` — the books of a client.
-/

namespace Exchange

open Common

/-- `MEOrder::toString`. -/
def MEOrder.toString (o : MEOrder) (prevOrderId nextOrderId : ℕ) : String :=
  "MEOrder[ticker:" ++ tickerIdToString o.tickerId ++ " cid:" ++ clientIdToString o.clientId ++ " oid:" ++
    orderIdToString o.clientOrderId ++ " moid:" ++ orderIdToString o.marketOrderId ++ " side:" ++
    sideToString o.side ++ " price:" ++ priceToString o.price ++ " qty:" ++ qtyToString o.qty ++ " prio:" ++
    priorityToString o.priority ++ " prev:" ++ orderIdToString prevOrderId ++ " next:" ++
    orderIdToString nextOrderId ++ "]"

/-- What an `MEOrder` prints. -/
instance : PrintedOrder MEOrder where
  orderId := MEOrder.marketOrderId
  qty := MEOrder.qty
  text := MEOrder.toString
  levelName := "MEOrdersAtPrice"
  firstName := "first_me_order"

end Exchange

namespace Trading

open Common Exchange LimitOrderBook PriceTime Fallible MEOrderBook MarketOrderBook

/-- `MarketOrder::toString`. -/
def MarketOrder.toString (o : MarketOrder) (prevOrderId nextOrderId : ℕ) : String :=
  "MarketOrder[oid:" ++ orderIdToString o.orderId ++ " side:" ++ sideToString o.side ++ " price:" ++
    priceToString o.price ++ " qty:" ++ qtyToString o.qty ++ " prio:" ++ priorityToString o.priority ++
    " prev:" ++ orderIdToString prevOrderId ++ " next:" ++ orderIdToString nextOrderId ++ "]"

/-- What a `MarketOrder` prints. -/
instance : PrintedOrder MarketOrder where
  orderId := MarketOrder.orderId
  qty := MarketOrder.qty
  text := MarketOrder.toString
  levelName := "MarketOrdersAtPrice"
  firstName := "first_mkt_order"

/-- **The printout of the live orders of a feed.** -/
def feedText (tickerId : ℕ) (detailed : Bool) (f : Feed) : String :=
  bookText tickerId detailed fun s => mapOrders shownOrder (sideOf f.live s)

/-- The live orders pass the check: no ask has the smallest price, and no bid the largest. -/
def FeedInOrder (f : Feed) : Prop :=
  ∀ e ∈ f.live.entries, isBetter e.2.side (startPrice e.2.side) e.2.price = true

/-- A book that shows the live orders of a feed prints their text. -/
lemma feedText_congr {shown : Side → List (ℤ × List (ℕ × ℕ))} {f : Feed}
    (h : ∀ s, s.IsBookSide → shown s = mapOrders shownOrder (sideOf f.live s)) (tickerId : ℕ)
    (detailed : Bool) : bookText tickerId detailed shown = feedText tickerId detailed f := by
  simp only [feedText, bookText, h .sell (.inr rfl), h .buy (.inl rfl)]

/-- The prices of the sides are those of the live orders. -/
lemma mem_prices_sideOf {live : SortedMap ℕ MEMarketUpdate} {s : Side} {p : ℤ} :
    p ∈ (sideOf live s).map Prod.fst ↔ ∃ e ∈ live.entries, e.2.side = s ∧ e.2.price = p := by
  rw [sideOf, mem_prices_build]
  simp only [List.mem_map, List.mem_filter, decide_eq_true_eq, SortedMap.values]
  constructor
  · rintro ⟨-, ⟨-, ⟨⟨e, he, rfl⟩, hs⟩, rfl⟩, hp⟩
    exact ⟨e, he, hs, hp⟩
  · rintro ⟨e, he, hs, hp⟩
    exact ⟨record e.2, ⟨e.2, ⟨⟨e, he, rfl⟩, hs⟩, rfl⟩, hp⟩

/-- **A book that lists the live orders** prints them. -/
lemma prints_feed {ω κ : Type} [BookOrder ω κ] [PrintedOrder ω] {b : LimitOrderBook ω κ} {v : View ω}
    (h : Represents b v) (hv : v.Valid) {f : Feed} (hcompat : Compatible f.live)
    (hshown : ∀ s, s.IsBookSide → v.shown s = mapOrders shownOrder (sideOf f.live s))
    (tickerId : ℕ) (detailed validityCheck : Bool) :
    Prints validityCheck (FeedInOrder f) (feedText tickerId detailed f)
      (b.print tickerId detailed validityCheck) := by
  have hprices : ∀ s : Side, s.IsBookSide → v.prices s = (sideOf f.live s).map Prod.fst := by
    intro s hs
    have hfst : v.prices s = (v.shown s).map Prod.fst := by
      rw [View.shown_eq, List.map_map]
      rfl
    rw [hfst, hshown s hs, mapOrders, List.map_map]
    rfl
  have hprint := h.prints hv.nonempty tickerId detailed validityCheck
  rw [feedText_congr hshown] at hprint
  apply hprint.congr
  constructor
  · intro horder e he
    have hs := hcompat.side e he
    apply (pricesInOrder_iff hs (hv.sorted _ hs)).mp (horder _ hs)
    show e.2.price ∈ v.prices e.2.side
    rw [hprices _ hs]
    exact mem_prices_sideOf.mpr ⟨e, he, rfl, rfl⟩
  · intro hall s hs
    refine (pricesInOrder_iff hs (hv.sorted s hs)).mpr fun p hp => ?_
    have hp : p ∈ v.prices s := hp
    rw [hprices s hs] at hp
    obtain ⟨e, he, rfl, rfl⟩ := mem_prices_sideOf.mp hp
    exact hall e he

section Runs

variable {requests : List MEClientRequest} {x : EngineState}
  (h : Meets (EngineState.process MEOrderBook.addAnnounced) EngineAdmissible {} requests)
  (hx : requests.foldlM (EngineState.process MEOrderBook.addAnnounced) {} = .ok x)

include h hx

/-- The books of the exchange print the live orders of what they published. -/
lemma prints_of_run :
    ∃ fs, feedsOf x.queues.outgoingMdUpdates = some fs ∧ (∀ t, Compatible (fs t).live) ∧
      ∀ t detailed validityCheck, Prints validityCheck (FeedInOrder (fs t)) (feedText t detailed (fs t))
        ((x.tickerOrderBook t).print t detailed validityCheck) := by
  obtain ⟨hstream, fs, hfs, hshown⟩ := ((enginePublishes_of_run h).of_eq_ok hx).stream
  have hcompat := hstream.compatible _ (List.prefix_refl _) fs hfs
  refine ⟨fs, hfs, hcompat, fun t detailed validityCheck => ?_⟩
  obtain ⟨v, hinv, hv⟩ := hshown t
  apply prints_feed hinv.wellFormed.repr hinv.wellFormed.valid (hcompat t)
  intro s hs
  rw [hv s hs, View.shown, mapOrders, mapOrders, mapOrders, List.map_map]
  apply List.map_congr_left
  intro l _
  simp [shownOrder, PrintedOrder.orderId, PrintedOrder.qty, toMarketOrder]

/-- **What the books of the exchange print.** After every completed run of admissible requests, with `add`
through line 105, the printout of each book, in both forms, can be computed from the updates that were
published. With the check, it ends the process exactly if an ask rests at the smallest price, or a bid at
the largest. -/
theorem printouts_of_run :
    ∃ fs, feedsOf x.queues.outgoingMdUpdates = some fs ∧ ∀ t detailed validityCheck,
      Prints validityCheck (FeedInOrder (fs t)) (feedText t detailed (fs t))
        ((x.tickerOrderBook t).print t detailed validityCheck) := by
  obtain ⟨fs, hfs, -, hprints⟩ := prints_of_run h hx
  exact ⟨fs, hfs, hprints⟩

/-- The books of a client that followed the updates print their live orders. -/
lemma prints_of_followed {fs : ℕ → Feed} (hfs : feedsOf x.queues.outgoingMdUpdates = some fs)
    (hcompat : ∀ t, Compatible (fs t).live) {books : ℕ → MarketOrderBook}
    (hbooks : onMarketUpdates newBooks x.queues.outgoingMdUpdates = .ok books) {t : ℕ}
    (ht : t < meMaxTickers) (detailed validityCheck : Bool) :
    Prints validityCheck (FeedInOrder (fs t)) (feedText t detailed (fs t))
      ((books t).print t detailed validityCheck) := by
  obtain ⟨-, fs', hfs', hall⟩ := (safe_followed h hx).of_eq_ok hbooks
  obtain rfl := Option.some_inj.mp (hfs.symm.trans hfs')
  obtain ⟨⟨w, hwf, hw⟩, -⟩ := hall t ht
  apply prints_feed hwf.repr hwf.valid (hcompat t)
  intro s hs
  rw [View.shown, hw s hs]

/-- **A client prints the books of the exchange.** After every completed run of admissible requests, with
`add` through line 105, that a client followed to the end, both print the same text of every ticker,
in both forms, or the check ends both. -/
theorem clients_print {books : ℕ → MarketOrderBook}
    (hbooks : onMarketUpdates newBooks x.queues.outgoingMdUpdates = .ok books) {t : ℕ}
    (ht : t < meMaxTickers) (detailed validityCheck : Bool) :
    (∃ text, (x.tickerOrderBook t).print t detailed validityCheck = .ok text ∧
        (books t).print t detailed validityCheck = .ok text) ∨
      ∃ msg msg', (x.tickerOrderBook t).print t detailed validityCheck = .error (.assert msg) ∧
        (books t).print t detailed validityCheck = .error (.assert msg') := by
  obtain ⟨fs, hfs, hcompat, hprints⟩ := prints_of_run h hx
  exact (hprints t detailed validityCheck).same
    (prints_of_followed h hx hfs hcompat hbooks ht detailed validityCheck)

end Runs

/-- The books of the sample print what was published about them. -/
theorem printouts_of_run_sample :
    ∃ x, sampleOrders.foldlM (EngineState.process MEOrderBook.addAnnounced) {} = .ok x ∧
      ∃ fs, feedsOf x.queues.outgoingMdUpdates = some fs ∧ ∀ t detailed validityCheck,
        Prints validityCheck (FeedInOrder (fs t)) (feedText t detailed (fs t))
          ((x.tickerOrderBook t).print t detailed validityCheck) := by
  obtain ⟨x, hx, -⟩ := (safe_true (sampleOrders.foldlM
    (EngineState.process MEOrderBook.addAnnounced) {})).exists_of_isOk (by decide)
  exact ⟨x, hx, printouts_of_run meets_sampleOrders hx⟩

/-- A client prints the same text about the first ticker of the sample. -/
theorem clients_print_sample :
    ∃ x books, sampleOrders.foldlM (EngineState.process MEOrderBook.addAnnounced) {} = .ok x ∧
      onMarketUpdates newBooks x.queues.outgoingMdUpdates = .ok books ∧
      ((∃ text, (x.tickerOrderBook 0).print 0 true true = .ok text ∧ (books 0).print 0 true true = .ok text) ∨
        ∃ msg msg', (x.tickerOrderBook 0).print 0 true true = .error (.assert msg) ∧
          (books 0).print 0 true true = .error (.assert msg')) := by
  obtain ⟨x, hx, hok⟩ := bind_isOk.mp
    (show (sampleOrders.foldlM (EngineState.process MEOrderBook.addAnnounced) {} >>= fun x =>
      onMarketUpdates newBooks x.queues.outgoingMdUpdates).isOk = true by decide)
  obtain ⟨books, hbooks, -⟩ := (safe_true _).exists_of_isOk hok
  exact ⟨x, books, hx, hbooks, clients_print meets_sampleOrders hx hbooks (by decide) true true⟩

end Trading
