import HftSystem.Exchange.SnapshotSynthesizer
import HftSystem.Trading.BookUpdates

set_option relaxedAutoImplicit false
set_option autoImplicit false

/-!
# A client's book follows a feed

When the ids of a stream increase, the book that processes it contains the live orders of the
feed, inserted by price and time in the order of their ids. What a book contains is therefore a
function of the live orders alone, whichever stream announced them.

## Main definitions

* `Trading.sideOf` — the side that a set of live orders makes.
* `Trading.Compatible` — live orders whose prices do not get into each other's way.
* `Trading.Tracks`, `Trading.TracksAll` — a book, or the books of all tickers, contain the live
  orders.

## Main results

* `Trading.safe_announced` — a book follows an update of its feed.
* `Trading.safe_dispatch` — the books of all tickers do.
-/

namespace Trading

open Common Exchange LimitOrderBook PriceTime Fallible MarketOrderBook

/-- The side that live orders make: they are inserted by price and time in the order of their
ids. -/
def sideOf (live : SortedMap ℕ MEMarketUpdate) (s : Side) : List (ℤ × List MarketOrder) :=
  build (isBetter s) MarketOrder.price ((live.values.filter fun o => o.side = s).map record)

/-- Bids and asks, bids below asks, whose prices are equal or not congruent. -/
structure Compatible (live : SortedMap ℕ MEMarketUpdate) : Prop where
  side : ∀ e ∈ live.entries, e.2.side.IsBookSide
  price : ∀ e ∈ live.entries, ∀ e' ∈ live.entries,
    e.2.price ≡ e'.2.price [ZMOD meMaxPriceLevels] → e.2.price = e'.2.price
  uncrossed : ∀ e ∈ live.entries, ∀ e' ∈ live.entries,
    e.2.side = .buy → e'.2.side = .sell → e.2.price < e'.2.price

/-- Fewer orders are still compatible. -/
lemma Compatible.mono {live live' : SortedMap ℕ MEMarketUpdate} (h : Compatible live)
    (hsub : live'.entries ⊆ live.entries) : Compatible live' :=
  ⟨fun e he => h.side e (hsub he), fun e he e' he' => h.price e (hsub he) e' (hsub he'),
    fun e he e' he' => h.uncrossed e (hsub he) e' (hsub he')⟩

/-- **Two compatible orders whose prices share a bucket** have the same price and side. -/
lemma Compatible.eq_of_bucket {live : SortedMap ℕ MEMarketUpdate} (h : Compatible live)
    {e e' : ℕ × MEMarketUpdate} (he : e ∈ live.entries) (he' : e' ∈ live.entries)
    (hbucket : priceToIndex e.2.price = priceToIndex e'.2.price) :
    e.2.price = e'.2.price ∧ e.2.side = e'.2.side := by
  have hprice := h.price e he e' he' (priceToIndex_eq_iff.mp hbucket)
  refine ⟨hprice, ?_⟩
  rcases h.side e he with hs | hs <;> rcases h.side e' he' with hs' | hs' <;> rw [hs, hs']
  · exact absurd hprice (h.uncrossed e he e' he' hs hs').ne
  · exact absurd hprice.symm (h.uncrossed e' he' e he hs' hs).ne

/-- The book contains the live orders. -/
def Tracks (b : MarketOrderBook) (live : SortedMap ℕ MEMarketUpdate) : Prop :=
  ∃ v, WellFormed b v ∧ ∀ s, s.IsBookSide → v.contents s = sideOf live s

/-- A new book tracks a feed without orders. -/
lemma tracks_new : Tracks MarketOrderBook.new {} := by
  refine ⟨{}, wellFormed_new, fun s hs => ?_⟩
  rcases hs with rfl | rfl <;> rfl

/-! ## Updates on the live orders -/

section SideOf

variable {live : SortedMap ℕ MEMarketUpdate} {s : Side}

/-- The levels of a side, from the live orders in the order of their ids. -/
lemma sideOf_of_values {live' : SortedMap ℕ MEMarketUpdate} {us : List MEMarketUpdate}
    (h : live'.values = us) :
    sideOf live' s = build (isBetter s) MarketOrder.price ((us.filter fun o => o.side = s).map record) :=
  h ▸ rfl

/-- An ADD of the largest id inserts its order. -/
lemma sideOf_add {u : MEMarketUpdate} (hlt : ∀ e ∈ live.entries, e.1 < u.orderId) :
    sideOf (live.insert u.orderId u) s =
      if u.side = s then insertOrder (isBetter s) u.price (record u) (sideOf live s)
      else sideOf live s := by
  have hvalues : (live.insert u.orderId u).values = live.values ++ [u] := by
    rw [SortedMap.values, SortedMap.entries_insert_of_lt hlt, List.map_append]
    rfl
  rw [sideOf_of_values hvalues, List.filter_append, List.map_append]
  split_ifs with hs
  · rw [List.filter_singleton, decide_eq_true hs, cond_true, List.map_singleton,
      build_append_singleton]
    rfl
  · rw [List.filter_singleton, decide_eq_false hs, cond_false, List.map_nil, List.append_nil]
    rfl

/-- A MODIFY changes the quantity of its order.

**Proof sketch.** Replacing the value of a key changes the list of live orders at that key only, which
is the key of the one order with the id. The change keeps sides and prices, so it commutes with
building the side (`mapOrders_build`). -/
lemma sideOf_modify (hkeys : ∀ e ∈ live.entries, e.2.orderId = e.1) {orderId qty : ℕ}
    {o : MEMarketUpdate} (ho : (orderId, o) ∈ live.entries) :
    sideOf (live.insert orderId { o with qty }) s = mapOrders (setQty orderId qty) (sideOf live s) := by
  set f : MEMarketUpdate → MEMarketUpdate :=
    fun w => if w.orderId = orderId then { w with qty } else w with hf
  have hvalues : (live.insert orderId { o with qty }).values = live.values.map f := by
    rw [SortedMap.values, SortedMap.entries_insert_of_mem ho, SortedMap.values, List.map_map,
      List.map_map]
    refine List.map_congr_left fun e he => ?_
    simp only [Function.comp_apply, hf, hkeys e he]
    split_ifs with hid
    · have hmem : (orderId, e.2) ∈ live.entries := by
        rw [← hid]
        exact he
      have hoid : o.orderId = orderId := hkeys _ ho
      rw [SortedMap.eq_of_mem hmem ho, hid, ← hoid]
    · rfl
  have hside : ∀ w, (f w).side = w.side := fun w => by
    simp only [hf]
    split_ifs <;> rfl
  have hfilter : (live.values.map f).filter (fun w => w.side = s) =
      (live.values.filter fun w => w.side = s).map f := by
    rw [List.filter_map]
    congr 2
    funext w
    simp [hside]
  have hrecord : ∀ w, record (f w) = setQty orderId qty (record w) := fun w => by
    by_cases hid : w.orderId = orderId <;> simp [hf, setQty, record, hid]
  rw [sideOf_of_values hvalues, hfilter, sideOf, mapOrders_build, List.map_map, List.map_map]
  · congr 2
    funext w
    exact hrecord w
  · intro w
    simp only [setQty]
    split_ifs <;> rfl

/-- A CANCEL drops its order. -/
lemma sideOf_cancel (hs : s.IsBookSide) (hkeys : ∀ e ∈ live.entries, e.2.orderId = e.1)
    (orderId : ℕ) : sideOf (live.erase orderId) s =
      keepOrders (fun o => o.orderId ≠ orderId) (sideOf live s) := by
  have hvalues : (live.erase orderId).values = live.values.filter fun w => w.orderId ≠ orderId := by
    rw [SortedMap.values, SortedMap.entries_erase, SortedMap.values, List.filter_map]
    congr 1
    exact List.filter_congr fun e he => by simp [hkeys e he]
  rw [sideOf_of_values hvalues, sideOf, keepOrders_build (priority_isBetter hs), List.filter_map,
    List.filter_comm]
  rfl

end SideOf

/-! ## The book of one ticker -/

/-- An order of the book is live. -/
lemma exists_live {v : View MarketOrder} {live : SortedMap ℕ MEMarketUpdate}
    (hv : ∀ s, s.IsBookSide → v.contents s = sideOf live s) {x : Ptr × MarketOrder}
    (hx : x ∈ orders v.levels) : ∃ e ∈ live.entries, record e.2 = x.2 := by
  obtain ⟨l, hl, hxl⟩ := mem_orders.mp hx
  obtain ⟨s, hs, hl⟩ := View.mem_levels.mp hl
  have hlisted : x.2 ∈ listed (v.contents s) :=
    mem_listed_contents.mpr ⟨x, mem_orders.mpr ⟨l, hl, hxl⟩, rfl⟩
  rw [hv s hs, sideOf, mem_listed_build] at hlisted
  obtain ⟨o, ho, hrecord⟩ := List.mem_map.mp hlisted
  obtain ⟨e, he, rfl⟩ := List.mem_map.mp (List.mem_filter.mp ho).1
  exact ⟨e, he, hrecord⟩

/-- A live order is in the book. -/
lemma exists_order {v : View MarketOrder} {live : SortedMap ℕ MEMarketUpdate}
    (hv : ∀ s, s.IsBookSide → v.contents s = sideOf live s) {e : ℕ × MEMarketUpdate}
    (he : e ∈ live.entries) (hs : e.2.side.IsBookSide) :
    ∃ x ∈ orders v.levels, x.2 = record e.2 := by
  have hlisted : record e.2 ∈ listed (v.contents e.2.side) := by
    rw [hv _ hs, sideOf, mem_listed_build]
    exact List.mem_map_of_mem
      (List.mem_filter.mpr ⟨List.mem_map_of_mem he, decide_eq_true rfl⟩)
  obtain ⟨x, hx, hrecord⟩ := mem_listed_contents.mp hlisted
  obtain ⟨l, hl, hxl⟩ := mem_orders.mp hx
  exact ⟨x, mem_orders.mpr ⟨l, View.mem_levels_of_side hl, hxl⟩, hrecord⟩

/-- **The book follows an ADD** of the largest id that is compatible with the live orders. -/
lemma safe_tracks_add {b : MarketOrderBook} {live : SortedMap ℕ MEMarketUpdate} (h : Tracks b live)
    {u : MEMarketUpdate} (htype : u.type = .add) (hkeys : ∀ e ∈ live.entries, e.2.orderId = e.1)
    (hlt : ∀ e ∈ live.entries, e.1 < u.orderId) (hcompat : Compatible (live.insert u.orderId u)) :
    Safe (UpdateFault u) (fun b' => Tracks b' (live.insert u.orderId u)) (b.onMarketUpdate u) := by
  obtain ⟨v, hb, hv⟩ := h
  have hself := SortedMap.mem_insert_self live u.orderId u
  have hother : ∀ e ∈ live.entries, e ∈ (live.insert u.orderId u).entries := fun e he =>
    (SortedMap.mem_insert_of_ne (hlt e he).ne).mpr he
  have hexpected : Expected v u := by
    simp only [Expected, htype]
    refine ⟨hcompat.side _ hself, fun l hl hbucket => ?_, fun x hx hid => ?_⟩
    · -- the level holds a live order, which is compatible with the new one
      obtain ⟨s, hs, hls⟩ := View.mem_levels.mp hl
      obtain ⟨x, q, hq⟩ := List.exists_cons_of_ne_nil (hb.valid.nonempty l hl)
      have hxl : x ∈ l.queue := by simp [hq]
      obtain ⟨hside, hhome⟩ := hb.valid.homed s hs l hls
      obtain ⟨hxs, hxp⟩ := hhome x hxl
      obtain ⟨e, he, hrecord⟩ := exists_live hv (mem_orders.mpr ⟨l, hl, hxl⟩)
      rw [← hrecord] at hxs hxp
      rw [← hxp] at hbucket ⊢
      rw [hside, ← hxs]
      exact hcompat.eq_of_bucket (hother e he) hself hbucket
    · obtain ⟨e, he, hrecord⟩ := exists_live hv hx
      have hlt := hlt e he
      rw [← hkeys e he, ← hid, ← hrecord] at hlt
      exact lt_irrefl _ hlt
  refine (safe_onMarketUpdate hb hexpected).mono (fun _ hf => hf) ?_
  rintro b' ⟨v', hb', hv'⟩
  refine ⟨v', hb', fun s hs => ?_⟩
  rw [hv' s hs, hv s hs, sideOf_add hlt]
  simp only [effect, htype]

/-- The table of orders has an entry for a live order. -/
lemma Tracks.orderId_lt {b : MarketOrderBook} {live : SortedMap ℕ MEMarketUpdate} (h : Tracks b live)
    (hcompat : Compatible live) {e : ℕ × MEMarketUpdate} (he : e ∈ live.entries) :
    e.2.orderId < meMaxOrderIds := by
  obtain ⟨v, hb, hv⟩ := h
  obtain ⟨x, hx, hrecord⟩ := exists_order hv he (hcompat.side e he)
  obtain ⟨k, hk, -⟩ := hb.index x hx
  rw [hrecord] at hk
  exact (orderSlot_eq_some.mp hk).1

/-- The live order that a MODIFY or CANCEL names is in the book. -/
lemma expected_of_live {v : View MarketOrder} {live : SortedMap ℕ MEMarketUpdate}
    (hv : ∀ s, s.IsBookSide → v.contents s = sideOf live s) (hcompat : Compatible live)
    (hkeys : ∀ e ∈ live.entries, e.2.orderId = e.1) {u o : MEMarketUpdate}
    (htype : u.type = .modify ∨ u.type = .cancel) (hlive : (u.orderId, o) ∈ live.entries) :
    Expected v u := by
  obtain ⟨x, hx, hrecord⟩ := exists_order hv hlive (hcompat.side _ hlive)
  have hid : x.2.orderId = u.orderId := hrecord ▸ hkeys _ hlive
  rcases htype with htype | htype <;> simp only [Expected, htype] <;> exact ⟨x, hx, hid⟩

/-- **The book follows an update of its feed.** The table of orders has an entry for the order
that the update names.

**Proof sketch.** By what the update announces. An ADD is `safe_tracks_add`. A MODIFY and a CANCEL name
a live order, so the book expects them (`expected_of_live`), and their effect on a side is that on the
live orders (`sideOf_modify`, `sideOf_cancel`). The other updates have no effect on either. -/
theorem safe_announced {b : MarketOrderBook} {f f' : Feed} (h : Tracks b f.live) (htidy : f.Tidy)
    {u : MEMarketUpdate} (hu : f.announce u = some f')
    (hlt : u.type = .add → ∀ i ∈ f.added, i < u.orderId) (hcompat : Compatible f.live)
    (hcompat' : Compatible f'.live) :
    Safe (UpdateFault u) (fun b' => Tracks b' f'.live ∧
        (u.type = .add ∨ u.type = .modify ∨ u.type = .cancel → u.orderId < meMaxOrderIds))
      (b.onMarketUpdate u) := by
  have hkeys := htidy.orderId
  have hfollow : Feed.Announced f u f' := Feed.announced_of_eq hu
  cases hfollow with
  | add htype _ =>
    refine (safe_tracks_add h htype hkeys (fun e he => hlt htype _ (htidy.added e he)) hcompat').mono
      (fun _ hf => hf) fun b' hb' => ⟨hb', fun _ => ?_⟩
    exact hb'.orderId_lt hcompat' (SortedMap.mem_insert_self f.live u.orderId u)
  | modify htype hlive _ _ =>
    have hid : u.orderId < meMaxOrderIds := by
      have hlt := h.orderId_lt hcompat hlive
      rwa [hkeys _ hlive] at hlt
    obtain ⟨v, hb, hv⟩ := h
    have hexpected := expected_of_live hv hcompat hkeys (.inl htype) hlive
    refine (safe_onMarketUpdate hb hexpected).mono (fun _ hf => hf) ?_
    rintro b' ⟨v', hb', hv'⟩
    refine ⟨⟨v', hb', fun s hs => ?_⟩, fun _ => hid⟩
    rw [hv' s hs, hv s hs, sideOf_modify hkeys hlive]
    simp only [effect, htype]
  | cancel htype hlive _ _ =>
    have hid : u.orderId < meMaxOrderIds := by
      have hlt := h.orderId_lt hcompat hlive
      rwa [hkeys _ hlive] at hlt
    obtain ⟨v, hb, hv⟩ := h
    have hexpected := expected_of_live hv hcompat hkeys (.inr htype) hlive
    refine (safe_onMarketUpdate hb hexpected).mono (fun _ hf => hf) ?_
    rintro b' ⟨v', hb', hv'⟩
    refine ⟨⟨v', hb', fun s hs => ?_⟩, fun _ => hid⟩
    rw [hv' s hs, hv s hs, sideOf_cancel hs hkeys]
    simp only [effect, htype]
  | other htype =>
    obtain ⟨v, hb, hv⟩ := h
    have hexpected : Expected v u := by
      rcases htype with htype | htype | htype | htype <;> simp only [Expected, htype]
    refine (safe_onMarketUpdate hb hexpected).mono (fun _ hf => hf) ?_
    rintro b' ⟨v', hb', hv'⟩
    refine ⟨⟨v', hb', fun s hs => ?_⟩, fun hnamed => ?_⟩
    · rw [hv' s hs, hv s hs]
      rcases htype with htype | htype | htype | htype <;> simp only [effect, htype]
    · rcases htype with htype | htype | htype | htype <;> simp [htype] at hnamed

/-! ## The books of all tickers -/

/-- The book of every ticker contains the live orders of its feed. -/
def TracksAll (books : ℕ → MarketOrderBook) (fs : ℕ → Feed) : Prop :=
  ∀ t < meMaxTickers, Tracks (books t) (fs t).live

/-- New books for all tickers. -/
def newBooks (_ : ℕ) : MarketOrderBook := MarketOrderBook.new

/-- New books track feeds without orders. -/
lemma tracksAll_newBooks : TracksAll newBooks fun _ => {} := fun _ _ => tracks_new

/-- How the books of all tickers can fail on some updates: for want of a fresh block or of a table
entry. -/
def UpdatesFault (us : List MEMarketUpdate) (f : Fault) : Prop :=
  NoFreshBlock f ∨ ∃ u ∈ us, ¬ SnapshotSynthesizer.InTables u

/-- More updates can fail in more ways. -/
lemma UpdatesFault.mono {us us' : List MEMarketUpdate} (hsub : us ⊆ us') {f : Fault}
    (h : UpdatesFault us f) : UpdatesFault us' f :=
  h.imp_right fun ⟨u, hu, hin⟩ => ⟨u, hsub hu, hin⟩

/-- When the tables have entries for all updates, the books only fail for want of a fresh block. -/
lemma UpdatesFault.noFreshBlock {us : List MEMarketUpdate} {f : Fault} (h : UpdatesFault us f)
    (hin : ∀ u ∈ us, SnapshotSynthesizer.InTables u) : NoFreshBlock f :=
  h.resolve_right fun ⟨u, hu, hout⟩ => hout (hin u hu)

/-- An update changes the book of its ticker. -/
lemma safe_dispatch_of {books : ℕ → MarketOrderBook} {u : MEMarketUpdate}
    {post : MarketOrderBook → Prop}
    (h : u.tickerId < meMaxTickers →
      Safe (UpdateFault u) post ((books u.tickerId).onMarketUpdate u)) :
    Safe (UpdatesFault [u])
      (fun books' => u.tickerId < meMaxTickers ∧
        ∃ b', post b' ∧ books' = Function.update books u.tickerId b')
      (dispatch books u) := by
  have hout : ¬ SnapshotSynthesizer.InTables u → ∃ u' ∈ [u], ¬ SnapshotSynthesizer.InTables u' :=
    fun h => ⟨u, List.mem_singleton.mpr rfl, h⟩
  unfold dispatch
  refine Safe.bind (safe_ASSERT fun ht => .inr (hout fun hin => ht hin.1)) fun _ ht => ?_
  refine Safe.bind ((h ht).mono (fun f hf => ?_) fun _ hb => hb) fun b' hb' => ⟨ht, b', hb', rfl⟩
  exact hf.2.imp_right fun ⟨_, hid⟩ => hout fun hin => hid (hin.2 (.inl hf.1))

/-- **The books follow an update of the feeds.** -/
theorem safe_dispatch {books : ℕ → MarketOrderBook} {fs fs' : ℕ → Feed} (h : TracksAll books fs)
    (hhomed : Homed fs) {u : MEMarketUpdate} (hu : announceAt fs u = some fs')
    (hlt : u.type = .add → ∀ i ∈ (fs u.tickerId).added, i < u.orderId)
    (hcompat : ∀ t, Compatible (fs t).live) (hcompat' : ∀ t, Compatible (fs' t).live) :
    Safe (UpdatesFault [u]) (fun books' => TracksAll books' fs' ∧ SnapshotSynthesizer.InTables u)
      (dispatch books u) := by
  obtain ⟨f, hf, rfl⟩ := Option.map_eq_some_iff.mp hu
  have hcompat' := hcompat' u.tickerId
  rw [Function.update_self] at hcompat'
  refine (safe_dispatch_of fun ht => safe_announced (h _ ht) (hhomed _).1 hf hlt (hcompat _)
    hcompat').mono (fun _ hf => hf) ?_
  rintro _ ⟨hticker, b', ⟨hb', hid⟩, rfl⟩
  refine ⟨fun t htable => ?_, hticker, hid⟩
  by_cases ht : t = u.tickerId
  · subst ht
    rw [Function.update_self, Function.update_self]
    exact hb'
  · rw [Function.update_of_ne ht, Function.update_of_ne ht]
    exact h t htable

end Trading
