import HftSystem.Trading.BookReading

set_option relaxedAutoImplicit false
set_option autoImplicit false

/-!
# The best bid and offer of a client's book

`onMarketUpdate` decides before it applies an update which side of the best bid and offer to
refresh, and it looks at the best level of that time: a side is refreshed when the update reaches
its best level. This decision misses the first order of an empty side, and a CLEAR.

## Main definitions

* `Trading.ShowsTop` — the best bid and offer shows the best levels of the two lists.
* `Trading.FindsNoStale` — an ADD finds no stale level in its bucket.
* `Trading.Shown` — the update refreshes what it changes.

## Main results

* `Trading.showsTop_iff_shown` — one update of a book that shows its best levels.
* `Trading.showsTop_of_run` — the runs in which the best levels are always shown.
-/

namespace Trading

open Common Exchange LimitOrderBook PriceTime Fallible MarketOrderBook

/-- The price and the quantity of a side. -/
def BBO.side (bbo : BBO) (s : Side) : ℤ × ℕ :=
  if s = .buy then (bbo.bidPrice, bbo.bidQty) else (bbo.askPrice, bbo.askQty)

/-- **The best bid and offer shows the top of the book.** -/
def ShowsTop (b : MarketOrderBook) : Prop :=
  ∀ s : Side, s.IsBookSide → ∃ ls, b.readSide s = .ok ls ∧ b.bbo.side s = quote ls

/-- The value of `bid_updated` or `ask_updated`: the update reaches the best level of the side. -/
def MarketOrderBook.reaches (b : MarketOrderBook) (u : MEMarketUpdate) (s : Side) : Bool :=
  if s = .buy then b.bidUpdated u else b.askUpdated u

/-- A level that an ADD finds in the bucket of its price is in use and has its price and side. -/
def FindsNoStale (b : MarketOrderBook) (u : MEMarketUpdate) : Prop :=
  u.type = .add → ∀ a, b.getOrdersAtPrice u.price = some a →
    b.ordersAtPricePool.InUse a ∧ (b.level a).price = u.price ∧ (b.level a).side = u.side

/-- **An update refreshes what it changes.** A side whose best level it does not reach is not
opened by it and not cleared by it, unless the side already shows what it should show then. -/
def Shown (b : MarketOrderBook) (u : MEMarketUpdate) : Prop :=
  ∀ s : Side, s.IsBookSide → b.reaches u s = false →
    (u.type = .clear → b.bbo.side s = (Price.invalid, Qty.invalid)) ∧
      (u.type = .add → u.side = s → b.bestOrdersByPrice s = none → b.bbo.side s = (u.price, u.qty))

/-- The book follows a view, stale entries aside, and its quantities are `uint32_t`. -/
structure Follows (b : MarketOrderBook) (S : ℕ → Bool) (v : View MarketOrder) : Prop where
  wellFormed : WellFormed (b.hidden S) v
  qty : ∀ s : Side, s.IsBookSide → ∀ o ∈ listed (v.contents s), o.qty < 2 ^ 32

section Step

variable {b b' : MarketOrderBook} {v v' : View MarketOrder} {S S' : ℕ → Bool} {u : MEMarketUpdate}
  {s : Side}

/-- The quantities after an update are those of before or that of the update. -/
lemma mem_listed_effect {ls : List (ℤ × List MarketOrder)} {o : MarketOrder}
    (ho : o ∈ listed (effect u s ls)) :
    (∃ o' ∈ listed ls, o'.qty = o.qty) ∨ o.qty = u.qty := by
  cases htype : u.type with
  | add =>
    simp only [effect, htype] at ho
    split_ifs at ho with hs
    · rcases mem_listed_insertOrder.mp ho with rfl | ho
      · exact .inr rfl
      · exact .inl ⟨o, ho, rfl⟩
    · exact .inl ⟨o, ho, rfl⟩
  | modify =>
    simp only [effect, htype, listed_mapOrders, List.mem_map] at ho
    obtain ⟨o', ho', rfl⟩ := ho
    unfold setQty
    split_ifs with hid
    · exact .inr rfl
    · exact .inl ⟨o', ho', rfl⟩
  | cancel =>
    simp only [effect, htype, listed_keepOrders, List.mem_filter] at ho
    exact .inl ⟨o, ho.1, rfl⟩
  | clear =>
    simp only [effect, htype, listed_nil, List.not_mem_nil] at ho
  | trade | invalid | snapshotStart | snapshotEnd =>
    simp only [effect, htype] at ho
    exact .inl ⟨o, ho, rfl⟩

/-- The bucket of an ADD that finds no stale level has no stale entry. -/
lemma exists_hidden (h : WellFormed (b.hidden S) v) (hstale : FindsNoStale b u)
    (htype : u.type = .add) :
    ∃ S', b.hidden S' = b.hidden S ∧ S' (priceToIndex u.price) = false := by
  refine ⟨fun i => S i && (i != priceToIndex u.price), ?_, by simp⟩
  have hnone : S (priceToIndex u.price) = true → b.priceOrdersAtPrice (priceToIndex u.price) = none := by
    intro hS
    by_contra hne
    obtain ⟨a, ha⟩ := Option.ne_none_iff_exists'.mp hne
    obtain ⟨hinUse, hprice, -⟩ := hstale htype a ha
    -- a level in use is in the view, where its bucket is not hidden
    obtain ⟨l, hl, rfl⟩ := mem_addrs.mp ((h.repr.shape.heap.inUse a).mp hinUse)
    have hlevel : (b.level l.addr).price = l.price := (h.repr.shape.heap.levelAt l hl).price
    have hfound := h.repr.shape.heap.bucket_of_mem hl u.price (by rw [← hlevel, hprice])
    have hmasked : (b.hidden S).getOrdersAtPrice u.price = none := if_pos hS
    rw [hmasked] at hfound
    cases hfound
  have hbook : b.toLimitOrderBook.overlay (fun i => S i && (i != priceToIndex u.price)) (fun _ => none) =
      b.toLimitOrderBook.overlay S fun _ => none := by
    refine overlay_congr _ fun i => ?_
    by_cases hi : i = priceToIndex u.price
    · subst hi
      by_cases hS : S (priceToIndex u.price) = true
      · simp [hS, hnone hS]
      · simp [hS]
    · simp [hi]
  simp only [MarketOrderBook.hidden, MarketOrderBook.overlay, hbook]

/-- **A well-formed update that finds no stale level** does to the lists what it should. -/
theorem follows_onMarketUpdate (h : Follows b S v) (hu : WellFormedUpdate b u)
    (hstale : FindsNoStale b u) (hb' : b.onMarketUpdate u = .ok b') :
    ∃ S' v', Follows b' S' v' ∧
      ∀ s, s.IsBookSide → v'.contents s = effect u s (v.contents s) := by
  obtain ⟨S', v', hwf, hv'⟩ : ∃ S' v', WellFormed (b'.hidden S') v' ∧
      ∀ s, s.IsBookSide → v'.contents s = effect u s (v.contents s) := by
    by_cases hclear : u.type = .clear
    · obtain ⟨c, hc, hcleared, -⟩ := onMarketUpdate_clear hclear h.wellFormed
      obtain rfl : c = b' := Except.ok.inj (hc.symm.trans hb')
      refine ⟨fun _ => true, {}, hcleared.wellFormed (fun i hi => ?_), fun s hs => ?_⟩
      · cases hi
      rcases hs with rfl | rfl <;> simp only [effect, hclear] <;> rfl
    · have hexpected := expected_of_wellFormedUpdate h.wellFormed hu hclear
      obtain ⟨S', hS', hadd⟩ : ∃ S', b.hidden S' = b.hidden S ∧
          (u.type = .add → S' (priceToIndex u.price) = false) := by
        by_cases hadd : u.type = .add
        · obtain ⟨S', hS', hfalse⟩ := exists_hidden h.wellFormed hstale hadd
          exact ⟨S', hS', fun _ => hfalse⟩
        · exact ⟨S, rfl, fun h => absurd h hadd⟩
      obtain ⟨v', hwf, hv'⟩ := (safe_onMarketUpdate_hidden (hS' ▸ h.wellFormed) hexpected
        hadd).of_eq_ok hb'
      exact ⟨S', v', hwf, hv'⟩
  refine ⟨S', v', ⟨hwf, fun s hs o ho => ?_⟩, hv'⟩
  rw [hv' s hs] at ho
  rcases mem_listed_effect ho with ⟨o', ho', he⟩ | he
  · exact he ▸ h.qty s hs o' ho'
  · exact he ▸ hu.qty

/-- The best level of a side, on the contents. -/
lemma best_eq_none_iff (h : WellFormed (b.hidden S) v) (hs : s.IsBookSide) :
    b.bestOrdersByPrice s = none ↔ v.contents s = [] := by
  have hbest : b.bestOrdersByPrice s = (addrs (v.side s)).head? := (h.repr.shape.spine s hs).best
  rw [hbest, List.head?_eq_none_iff, addrs, View.contents, List.map_eq_nil_iff, List.map_eq_nil_iff]

/-- **When an update reaches the best level** of a side. -/
lemma reaches_iff (h : WellFormed (b.hidden S) v) (hs : s.IsBookSide) :
    b.reaches u s = true ↔ u.side = s ∧ ∃ p q ls, v.contents s = (p, q) :: ls ∧
      isBetter s p u.price = false := by
  have hbest : b.bestOrdersByPrice s = (addrs (v.side s)).head? := (h.repr.shape.spine s hs).best
  cases hv : v.side s with
  | nil =>
    have hnone : v.contents s = [] := by rw [View.contents, hv, List.map_nil]
    rw [hv] at hbest
    rcases hs with rfl | rfl <;> simp [bestOrdersByPrice] at hbest <;>
      simp [reaches, bidUpdated, askUpdated, hbest, hnone]
  | cons l ls =>
    have hcontents : v.contents s = (l.price, l.queue.map Prod.snd) :: ls.map Level.contents := by
      rw [View.contents, hv]
      rfl
    have hprice : (b.level l.addr).price = l.price :=
      (h.repr.shape.levelAt (s := s) (by simp [hv])).price
    rw [hv] at hbest
    rcases hs with rfl | rfl <;> simp [bestOrdersByPrice] at hbest <;>
      simp [reaches, bidUpdated, askUpdated, hbest, hcontents, hprice, isBetter]

/-- The order that a MODIFY or a CANCEL names, on the contents. -/
lemma exists_contents (h : WellFormed (b.hidden S) v) (hu : WellFormedUpdate b u)
    (htype : u.type = .modify ∨ u.type = .cancel) :
    u.side.IsBookSide ∧ ∃ c₁ c₂ a₁ a₂ o,
      v.contents u.side = c₁ ++ (u.price, a₁ ++ o :: a₂) :: c₂ ∧ o.orderId = u.orderId := by
  obtain ⟨-, p, hp, hid, hside, hprice⟩ :
      (u.type = .modify ∨ u.type = .cancel) ∧ ∃ p, b.orderPool.InUse p ∧
        (b.node p).order.orderId = u.orderId ∧ (b.node p).order.side = u.side ∧
        (b.node p).order.price = u.price :=
    (hu.sound (.inr htype)).resolve_left fun hadd => by
      rcases htype with htype | htype <;> simp [htype] at hadd
  obtain ⟨x, hx, -, hrecord⟩ := h.inUse_iff.mp hp
  have hrecord : (b.node p).order = x.2 := hrecord
  rw [hrecord] at hid hside hprice
  obtain ⟨l, hl, hxl⟩ := mem_orders.mp hx
  obtain ⟨s, hs, hls⟩ := View.mem_levels.mp hl
  obtain ⟨hxs, hxp⟩ := (h.valid.homed s hs l hls).2 x hxl
  obtain rfl : s = u.side := hxs.symm.trans hside
  obtain ⟨l₁, l₂, hv⟩ := List.append_of_mem hls
  obtain ⟨q₁, q₂, hq⟩ := List.append_of_mem hxl
  have hlevel : l.price = u.price := (show x.2.price = l.price from hxp).symm.trans hprice
  refine ⟨hs, l₁.map Level.contents, l₂.map Level.contents, q₁.map Prod.snd, q₂.map Prod.snd, x.2,
    ?_, hid⟩
  rw [contents_split hv hq, hlevel]

/-- **What an update that does not reach the best level leaves there**: the best level stays, unless
the update clears the book or opens the side.

**Proof sketch.** A level at the price of the update, on its side, is not the best one, since the
update would reach it. So a MODIFY or a CANCEL changes the list from a later level on, and an ADD to a
side with orders inserts behind the best level. An ADD to an empty side shows its own price and
quantity, and a CLEAR shows none. -/
lemma quote_effect (h : Follows b S v) (hu : WellFormedUpdate b u) (hs : s.IsBookSide)
    (hr : b.reaches u s = false) :
    quote (effect u s (v.contents s)) =
      if u.type = .clear then (Price.invalid, Qty.invalid)
      else if u.type = .add ∧ u.side = s ∧ b.bestOrdersByPrice s = none then (u.price, u.qty)
      else quote (v.contents s) := by
  have hwf := h.wellFormed
  -- a level whose price the update has is not the best
  have hbehind : ∀ {p q ls}, v.contents s = (p, q) :: ls → u.side = s →
      isBetter s p u.price = true := by
    intro p q ls hc hside
    by_contra hb
    have := (reaches_iff hwf hs).mpr ⟨hside, p, q, ls, hc, by simpa using hb⟩
    rw [hr] at this
    cases this
  -- a MODIFY or a CANCEL changes one side, and there from the level of the update on
  have hkeep : ∀ {c₁ c₂ r q}, v.contents u.side = c₁ ++ (u.price, q) :: c₂ →
      effect u u.side (v.contents u.side) = c₁ ++ r →
      (∀ s', s'.IsBookSide → s' ≠ u.side → effect u s' (v.contents s') = v.contents s') →
      quote (effect u s (v.contents s)) = quote (v.contents s) := by
    intro c₁ c₂ r q hc hself hother
    by_cases hside : s = u.side
    · subst hside
      cases c₁ with
      | nil => exact absurd rfl (ne_of_isBetter (hbehind hc rfl))
      | cons c ls =>
        rw [hself, hc]
        rfl
    · rw [hother s hs hside]
  cases htype : u.type with
  | add =>
    simp only [effect, htype, reduceCtorEq, if_false, true_and]
    by_cases hside : u.side = s
    · rw [if_pos hside]
      cases hc : v.contents s with
      | nil =>
        rw [if_pos ⟨hside, (best_eq_none_iff hwf hs).mpr hc⟩]
        simpa [insertOrder, quote, record] using hu.qty
      | cons c ls =>
        have hbetter := hbehind hc hside
        rw [if_neg fun hn => by simp [(best_eq_none_iff hwf hs).mp hn.2] at hc, insertOrder,
          if_neg (ne_of_isBetter hbetter), if_pos hbetter]
        rfl
    · rw [if_neg hside, if_neg fun hn => hside hn.1]
  | modify =>
    obtain ⟨hus, c₁, c₂, a₁, a₂, o, hc, hid⟩ := exists_contents hwf hu (.inl htype)
    obtain ⟨hself, hother⟩ := effect_modify hwf hus hc htype hid
    simp only [reduceCtorEq, if_false, false_and]
    exact hkeep hc hself hother
  | cancel =>
    obtain ⟨hus, c₁, c₂, a₁, a₂, o, hc, hid⟩ := exists_contents hwf hu (.inr htype)
    obtain ⟨hself, hother⟩ := effect_cancel hwf hus hc htype hid
    simp only [reduceCtorEq, if_false, false_and]
    exact hkeep hc hself hother
  | clear =>
    simp only [effect, htype, if_true]
    rfl
  | trade | invalid | snapshotStart | snapshotEnd =>
    simp only [effect, htype, reduceCtorEq, if_false, false_and]

/-- A book that follows a view shows the best levels if it shows them on the view. -/
lemma Follows.showsTop_iff (h : Follows b S v) :
    ShowsTop b ↔ ∀ s : Side, s.IsBookSide → b.bbo.side s = quote (v.contents s) := by
  refine forall₂_congr fun s hs => ?_
  rw [readSide_hidden h.wellFormed hs]
  simp

/-- A side after a refresh. -/
lemma side_refresh (bbo : BBO) (v : View MarketOrder) (updateBid updateAsk : Bool) (s : Side) :
    (bbo.refresh v updateBid updateAsk).side s =
      if (if s = .buy then updateBid else updateAsk) then top (v.side s) else bbo.side s := by
  by_cases hs : s = .buy
  · subst hs
    cases updateBid <;> rfl
  · cases updateAsk <;> simp [BBO.side, BBO.refresh, View.side, hs]

/-- **One update of a book that shows its best levels** keeps showing them exactly when it refreshes
what it changes. -/
theorem showsTop_iff_shown (h : Follows b S v) (htop : ShowsTop b) (hu : WellFormedUpdate b u)
    (hb' : b.onMarketUpdate u = .ok b') (h' : Follows b' S' v')
    (hv' : ∀ s, s.IsBookSide → v'.contents s = effect u s (v.contents s)) :
    ShowsTop b' ↔ Shown b u := by
  rw [h'.showsTop_iff]
  have htop := h.showsTop_iff.mp htop
  by_cases htrade : u.type = .trade
  · -- a TRADE changes nothing
    have hsame : b.onMarketUpdate u = .ok b := if_pos htrade
    obtain rfl : b = b' := Except.ok.inj (hsame.symm.trans hb')
    refine iff_of_true (fun s hs => ?_) fun s _ _ => by simp [htrade]
    rw [htop s hs, hv' s hs]
    simp only [effect, htrade]
  refine forall₂_congr fun s hs => ?_
  have hbbo : b'.bbo.side s = if b.reaches u s then top (v'.side s) else b.bbo.side s := by
    rw [bbo_onMarketUpdate htrade hb' h'.wellFormed, side_refresh]
    rfl
  rw [hbbo]
  cases hr : b.reaches u s with
  | true =>
    rw [if_pos rfl, top_eq_quote h'.wellFormed.valid (h'.qty s hs)]
    simp
  | false =>
    rw [if_neg Bool.false_ne_true, hv' s hs, quote_effect h hu hs hr]
    by_cases hclear : u.type = .clear
    · simp [hclear]
    · by_cases hopen : u.type = .add ∧ u.side = s ∧ b.bestOrdersByPrice s = none
      · rw [if_neg hclear, if_pos hopen]
        simp [hopen]
      · rw [if_neg hclear, if_neg hopen]
        refine iff_of_true (htop s hs) fun _ => ⟨fun hc => absurd hc hclear, fun h₁ h₂ h₃ => ?_⟩
        exact absurd ⟨h₁, h₂, h₃⟩ hopen

end Step

/-! ## Runs -/

/-- The invariant of the runs that always show the top of the book. -/
def FollowsAndShows (b : MarketOrderBook) : Prop := (∃ S v, Follows b S v) ∧ ShowsTop b

/-- A new book follows the empty view. -/
lemma follows_new : Follows MarketOrderBook.new (fun _ => false) {} where
  wellFormed := wellFormed_new
  qty s hs := by rcases hs with rfl | rfl <;> simp [View.contents, View.side]

/-- A new book shows that it is empty. -/
lemma showsTop_new : ShowsTop MarketOrderBook.new :=
  follows_new.showsTop_iff.mpr fun s hs => by rcases hs with rfl | rfl <;> rfl

/-- The first ADD of a side to a new book is not shown, unless its price is `Price_INVALID`. -/
lemma not_shown_new {u : MEMarketUpdate} (htype : u.type = .add) (hside : u.side.IsBookSide)
    (hprice : u.price ≠ Price.invalid) : ¬ Shown MarketOrderBook.new u := by
  intro h
  have hreaches : MarketOrderBook.new.reaches u u.side = false := by
    unfold MarketOrderBook.reaches
    split_ifs <;> rfl
  have hempty : MarketOrderBook.new.bestOrdersByPrice u.side = none := by
    rcases hside with hs | hs <;> rw [hs] <;> rfl
  have hbbo := (h u.side hside hreaches).2 htype rfl hempty
  have hinvalid : (MarketOrderBook.new.bbo.side u.side).1 = Price.invalid := by
    rcases hside with hs | hs <;> rw [hs] <;> rfl
  rw [hbbo] at hinvalid
  exact hprice hinvalid

/-- **The runs in which the best bid and offer always shows the top of the book.** In a run of
well-formed updates in which no ADD finds a stale level, it does so in every state reached exactly
when every completed update refreshes what it changes; in particular it does when every update
finds no stale level and refreshes what it changes. By `not_shown_new` no
ADD with a valid price to a new book refreshes what it changes.

**Proof sketch.** One update of a book that shows its best levels is `showsTop_iff_shown`; the book
goes on following its view whether it shows its best levels or not, so that the two directions are one
induction over the updates. -/
theorem showsTop_of_run {us : List MEMarketUpdate}
    (hu : Meets MarketOrderBook.onMarketUpdate WellFormedUpdate MarketOrderBook.new us) :
    (Meets MarketOrderBook.onMarketUpdate (fun b u => FindsNoStale b u ∧ Shown b u)
        MarketOrderBook.new us →
      Always MarketOrderBook.onMarketUpdate ShowsTop MarketOrderBook.new us) ∧
    (Meets MarketOrderBook.onMarketUpdate FindsNoStale MarketOrderBook.new us →
      (Always MarketOrderBook.onMarketUpdate ShowsTop MarketOrderBook.new us ↔
        Meets MarketOrderBook.onMarketUpdate (fun b u => ∀ b', b.onMarketUpdate u = .ok b' → Shown b u)
          MarketOrderBook.new us)) := by
  have hiff : Meets MarketOrderBook.onMarketUpdate FindsNoStale MarketOrderBook.new us →
      (Always MarketOrderBook.onMarketUpdate ShowsTop MarketOrderBook.new us ↔
        Meets MarketOrderBook.onMarketUpdate (fun b u => ∀ b', b.onMarketUpdate u = .ok b' → Shown b u)
          MarketOrderBook.new us) := by
    intro hstale
    have hstep : ∀ b u b', FollowsAndShows b → WellFormedUpdate b u ∧ FindsNoStale b u →
        b.onMarketUpdate u = .ok b' → (∃ S v, Follows b' S v) ∧ (ShowsTop b' ↔ Shown b u) := by
      rintro b u b' ⟨⟨S, v, h⟩, htop⟩ ⟨hu, hstale⟩ hb'
      obtain ⟨S', v', h', hv'⟩ := follows_onMarketUpdate h hu hstale hb'
      exact ⟨⟨S', v', h'⟩, showsTop_iff_shown h htop hu hb' h' hv'⟩
    have hnew : FollowsAndShows MarketOrderBook.new := ⟨⟨_, _, follows_new⟩, showsTop_new⟩
    have hshows : ∀ b, FollowsAndShows b → ShowsTop b := fun _ h => h.2
    refine always_iff_meets ?_ hshows ?_ hnew (hu.and hstale)
    · intro b u b' h hu hshown hb'
      obtain ⟨hfollows, hiff⟩ := hstep b u b' h hu hb'
      exact ⟨hfollows, hiff.mpr hshown⟩
    · intro b u b' h hu hshown hb' htop
      exact hshown ((hstep b u b' h hu hb').2.mp htop)
  refine ⟨fun hmeets => ?_, hiff⟩
  refine (hiff (hmeets.mono fun b u h => h.1)).mpr (hmeets.mono fun b u h _ _ => h.2)

/-- A TRADE and a CLEAR. -/
def quietUpdates : List MEMarketUpdate :=
  [{ firstBid with type := .trade }, { firstBid with type := .clear, side := .invalid }]

/-- Where nothing is added the best bid and offer is right. A first bid finds no stale level either, but
does not meet `Shown`. -/
theorem showsTop_of_firstBid :
    Always MarketOrderBook.onMarketUpdate ShowsTop MarketOrderBook.new quietUpdates ∧
      (Always MarketOrderBook.onMarketUpdate ShowsTop MarketOrderBook.new [firstBid] ↔
        Meets MarketOrderBook.onMarketUpdate (fun b u => ∀ b', b.onMarketUpdate u = .ok b' → Shown b u)
          MarketOrderBook.new [firstBid]) := by
  constructor
  · have hwellFormed : ∀ b, ∀ u ∈ quietUpdates, WellFormedUpdate b u := by
      intro b u hu
      have hadds : ¬ (u.type = .add ∨ u.type = .modify ∨ u.type = .cancel) := by
        revert u
        decide
      have hqty : u.qty < 2 ^ 32 := by
        revert u
        decide
      exact ⟨fun h => absurd h hadds, fun h => absurd (.inl h) hadds, fun h => absurd (.inl h) hadds, hqty⟩
    -- a TRADE leaves the book alone, so the CLEAR finds a new book as well
    have htrade : ∀ b', MarketOrderBook.new.onMarketUpdate { firstBid with type := .trade } = .ok b' →
        MarketOrderBook.new = b' := fun b' hb' => Except.ok.inj hb'
    have hnoAdd : ∀ u ∈ quietUpdates, FindsNoStale MarketOrderBook.new u ∧ Shown MarketOrderBook.new u := by
      intro u hu
      have hadd : u.type ≠ .add := by
        revert u
        decide
      refine ⟨fun h => absurd h hadd, fun s hs _ => ⟨fun _ => ?_, fun h => absurd h hadd⟩⟩
      rcases hs with rfl | rfl <;> rfl
    refine (showsTop_of_run ?_).1 ?_
    · exact ⟨hwellFormed _ _ (by decide), fun b' _ => ⟨hwellFormed _ _ (by decide), fun _ _ => trivial⟩⟩
    · refine ⟨hnoAdd _ (by decide), fun b' hb' => ⟨?_, fun _ _ => trivial⟩⟩
      rw [← htrade b' hb']
      exact hnoAdd _ (by decide)
  · refine (showsTop_of_run wellFormedUpdate_firstBid).2 ⟨fun _ a ha => ?_, fun _ _ => trivial⟩
    cases ha

/-- **The first order of a side is not shown**: the best bid is at 10, and the best bid and offer has
no bid. -/
theorem firstBid_not_shown :
    Meets MarketOrderBook.onMarketUpdate WellFormedUpdate MarketOrderBook.new [firstBid] ∧
      ¬ Always MarketOrderBook.onMarketUpdate ShowsTop MarketOrderBook.new [firstBid] := by
  refine ⟨wellFormedUpdate_firstBid, fun h => ?_⟩
  obtain ⟨b, hb, hread, hbbo⟩ := (show Safe (fun _ => False) (fun b : MarketOrderBook =>
    Safe (fun _ => False) (fun ls => ls = [(10, [record firstBid])]) (b.readSide .buy) ∧
      b.bbo.side .buy = (Price.invalid, Qty.invalid))
    (MarketOrderBook.new.onMarketUpdate firstBid) by decide +kernel).exists_ok
  obtain ⟨ls, hls, hquote⟩ := (h.2 b hb).start .buy (.inl rfl)
  obtain rfl := hread.of_eq_ok hls
  rw [hbbo] at hquote
  exact absurd hquote (by decide)

end Trading
