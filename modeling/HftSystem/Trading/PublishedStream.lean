import HftSystem.Exchange.BookRule
import HftSystem.Trading.BookMirror
import HftSystem.Trading.FeedReplay

set_option relaxedAutoImplicit false
set_option autoImplicit false

/-!
# What the matching engine publishes

Whatever NEW and CANCEL requests the matching engine processes, the updates that it writes to its
queue form a well-formed stream, and the orders that the stream announces are those that rest in the
books, level by level and in the order of the queues. So a client that processes the stream ends up
with the books of the exchange.

## Main definitions

* `Trading.Announces` — the updates of one book, and the feed that they announce.
* `Trading.ShowsResting` — a feed lists the resting orders of a book.
* `Trading.EnginePublishes` — the invariant of the engine.

## Main results

* `Trading.stream_of_announces` — well-formed streams of the tickers, merged.
* `Trading.Publishes.fill`, `Trading.Publishes.cancel`, `Trading.Publishes.place` — what a step of
  the book publishes.
* `Trading.published_of_run` — every run of the engine.
* `Trading.clients_mirror` — the books of a client that processes what was published.
-/

namespace Trading

open Common Exchange LimitOrderBook PriceTime Fallible MEOrderBook MarketOrderBook Routing

/-! ## The stream of one book -/

/-- **The updates of one book**, and the feed that they announce: the ids that they add increase,
and the live orders are compatible after every prefix. -/
structure Announces (us : List MEMarketUpdate) (f : Feed) : Prop where
  announced : Feed.announceAll {} us = some f
  increasing : f.added.Pairwise (· > ·)
  compatible : ∀ pre, pre <+: us → ∀ g, Feed.announceAll {} pre = some g → Compatible g.live

/-- Nothing announces no order. -/
lemma announces_nil : Announces [] {} := by
  refine ⟨rfl, List.Pairwise.nil, fun pre hpre g hg => ?_⟩
  obtain rfl := List.prefix_nil.mp hpre
  cases hg
  exact ⟨by simp, by simp, by simp⟩

/-- A feed after one more update. -/
lemma announceAll_append_singleton {us : List MEMarketUpdate} {u : MEMarketUpdate} {f f' : Feed}
    (h : Feed.announceAll {} us = some f) :
    Feed.announceAll {} (us ++ [u]) = some f' ↔ f.announce u = some f' := by
  rw [Feed.announceAll, List.foldlM_append, Option.bind_eq_bind,
    show us.foldlM Feed.announce {} = some f from h]
  simp

/-- The live orders after all updates are compatible. -/
lemma Announces.feed_compatible {us : List MEMarketUpdate} {f : Feed} (h : Announces us f) :
    Compatible f.live := h.compatible us (List.prefix_refl _) f h.announced

/-- The feed of a book is tidy. -/
lemma Announces.tidy {us : List MEMarketUpdate} {f : Feed} (h : Announces us f) : f.Tidy := by
  have hfeed := h.announced
  clear h
  induction us using List.reverseRecOn generalizing f with
  | nil =>
    cases hfeed
    exact Feed.tidy_empty
  | append_singleton us u ih =>
    cases hus : Feed.announceAll {} us with
    | none =>
      rw [Feed.announceAll, List.foldlM_append,
        show us.foldlM Feed.announce {} = none from hus] at hfeed
      cases hfeed
    | some g => exact (ih hus).announce ((announceAll_append_singleton hus).mp hfeed)

/-- **One more update** of a book. -/
lemma Announces.snoc {us : List MEMarketUpdate} {f f' : Feed} (h : Announces us f)
    {u : MEMarketUpdate} (hu : f.announce u = some f') (hlt : u.type = .add → ∀ i ∈ f.added, i < u.orderId)
    (hcompat : Compatible f'.live) : Announces (us ++ [u]) f' where
  announced := (announceAll_append_singleton h.announced).mpr hu
  increasing := by
    have hfollow : Feed.Announced f u f' := Feed.announced_of_eq hu
    cases hfollow with
    | add htype _ => exact List.pairwise_cons.mpr ⟨hlt htype, h.increasing⟩
    | modify _ _ _ _ => exact h.increasing
    | cancel _ _ _ _ => exact h.increasing
    | other _ => exact h.increasing
  compatible pre hpre g hg := by
    rcases List.prefix_concat_iff.mp hpre with rfl | hpre
    · rw [announceAll_append_singleton h.announced, hu] at hg
      cases hg
      exact hcompat
    · exact h.compatible pre hpre g hg

/-- **An update that is no ADD** keeps the live orders compatible. -/
lemma compatible_of_announce {f f' : Feed} (h : Compatible f.live) {u : MEMarketUpdate}
    (hu : f.announce u = some f') (htype : u.type ≠ .add) : Compatible f'.live := by
  have hfollow : Feed.Announced f u f' := Feed.announced_of_eq hu
  cases hfollow with
  | add hadd _ => exact absurd hadd htype
  | @modify o _ hlive _ _ =>
    -- the order that changes keeps its side and its price
    have hsame : ∀ e ∈ (f.live.insert u.orderId { o with qty := u.qty }).entries,
        ∃ e' ∈ f.live.entries, e.2.side = e'.2.side ∧ e.2.price = e'.2.price := by
      intro e he
      rcases SortedMap.mem_insertEntry he with rfl | he
      · exact ⟨_, hlive, rfl, rfl⟩
      · exact ⟨e, he, rfl, rfl⟩
    refine ⟨fun e he => ?_, fun e he d hd => ?_, fun e he d hd => ?_⟩
    · obtain ⟨e', he', hs, -⟩ := hsame e he
      exact hs ▸ h.side e' he'
    · obtain ⟨e', he', -, hp⟩ := hsame e he
      obtain ⟨d', hd', -, hp'⟩ := hsame d hd
      rw [hp, hp']
      exact h.price e' he' d' hd'
    · obtain ⟨e', he', hs, hp⟩ := hsame e he
      obtain ⟨d', hd', hs', hp'⟩ := hsame d hd
      rw [hp, hp', hs, hs']
      exact h.uncrossed e' he' d' hd'
  | cancel _ _ _ _ => exact h.mono fun e he => (List.mem_filter.mp he).1
  | other _ => exact h

/-- **One more order** is compatible with those that rest if none of them shares a bucket with it at
another price, and it crosses none of the other side. -/
lemma Compatible.insert {live : SortedMap ℕ MEMarketUpdate} (h : Compatible live) {i : ℕ}
    {u : MEMarketUpdate} (hs : u.side.IsBookSide)
    (hbucket : ∀ e ∈ live.entries, e.2.price ≡ u.price [ZMOD meMaxPriceLevels] →
      e.2.price = u.price)
    (hcross : ∀ e ∈ live.entries, e.2.side = u.side.opposite →
      crosses u.side u.price e.2.price = false) :
    Compatible (live.insert i u) := by
  refine ⟨fun e he => ?_, fun e he d hd hmod => ?_, fun e he d hd hbuy hsell => ?_⟩
  · rcases SortedMap.mem_insertEntry he with rfl | he
    · exact hs
    · exact h.side e he
  · rcases SortedMap.mem_insertEntry he with rfl | he <;>
      rcases SortedMap.mem_insertEntry hd with rfl | hd
    · rfl
    · exact (hbucket d hd hmod.symm).symm
    · exact hbucket e he hmod
    · exact h.price e he d hd hmod
  · rcases SortedMap.mem_insertEntry he with rfl | he <;>
      rcases SortedMap.mem_insertEntry hd with rfl | hd
    · have hne : Side.buy = Side.sell := hbuy.symm.trans hsell
      cases hne
    · -- the new order buys
      have hnot := hcross d hd (by rw [hsell, hbuy]; rfl)
      rw [hbuy] at hnot
      simpa [crosses] using hnot
    · -- the new order sells
      have hnot := hcross e he (by rw [hsell, hbuy]; rfl)
      rw [hsell] at hnot
      simpa [crosses] using hnot
    · exact h.uncrossed e he d hd hbuy hsell

/-! ## The streams of all books, merged -/

/-- Announcing to the feed of a ticker is a routed step. -/
lemma announceAt_iff_routed {fs fs' : ℕ → Feed} {u : MEMarketUpdate} :
    announceAt fs u = some fs' ↔
      Routed MEMarketUpdate.tickerId (fun f u f' => Feed.announce f u = some f') fs u fs' := by
  rw [announceAt, Option.map_eq_some_iff]
  exact exists_congr fun f => and_congr_right fun _ => eq_comm

/-- **The feeds of a stream** are those that its updates for each ticker announce. -/
lemma feedsOf_iff {us : List MEMarketUpdate} {fs : ℕ → Feed} :
    feedsOf us = some fs ↔
      ∀ t, Feed.announceAll {} (us.filter fun u => u.tickerId = t) = some (fs t) := by
  rw [feedsOf, foldlM_some_iff_run]
  simp only [announceAt_iff_routed]
  rw [run_routed_iff]
  simp only [Feed.announceAll, foldlM_some_iff_run]

/-- **Merged streams.** If the updates for each ticker are a stream of their own, all of them are
a stream. -/
theorem stream_of_announces {us : List MEMarketUpdate} {fs : ℕ → Feed}
    (h : ∀ t, Announces (us.filter fun u => u.tickerId = t) (fs t)) :
    Stream us ∧ feedsOf us = some fs := by
  have hfeeds : feedsOf us = some fs := feedsOf_iff.mpr fun t => (h t).announced
  refine ⟨⟨Option.isSome_iff_exists.mpr ⟨fs, hfeeds⟩, fun t => ?_, fun pre hpre gs hgs t => ?_⟩,
    hfeeds⟩
  · have hincreasing := (h t).increasing
    rw [added_feedsOf hfeeds, List.pairwise_reverse] at hincreasing
    exact hincreasing
  · exact (h t).compatible _ (hpre.filter _) _ (feedsOf_iff.mp hgs t)

/-! ## One order of the live orders -/

section Split

variable {live : SortedMap ℕ MEMarketUpdate} (hkeys : ∀ e ∈ live.entries, e.2.orderId = e.1)
  {s s' : Side} {c₁ c₂ : List (ℤ × List MarketOrder)} {p : ℤ} {a₁ a₂ : List MarketOrder}
  {o : MarketOrder}

/-- The orders that a side lists are live. -/
lemma exists_entry {o : MarketOrder} (ho : o ∈ listed (sideOf live s)) :
    ∃ e ∈ live.entries, e.2.side = s ∧ record e.2 = o := by
  rw [sideOf, mem_listed_build] at ho
  obtain ⟨w, hw, hrecord⟩ := List.mem_map.mp ho
  obtain ⟨hw, hside⟩ := List.mem_filter.mp hw
  obtain ⟨e, he, rfl⟩ := List.mem_map.mp hw
  exact ⟨e, he, of_decide_eq_true hside, hrecord⟩

/-- The live orders of a side are listed. -/
lemma record_mem_sideOf {e : ℕ × MEMarketUpdate} (he : e ∈ live.entries) :
    record e.2 ∈ listed (sideOf live e.2.side) := by
  rw [sideOf, mem_listed_build]
  exact List.mem_map_of_mem (List.mem_filter.mpr ⟨List.mem_map_of_mem he, decide_eq_true rfl⟩)

include hkeys

/-- A side lists an id once. -/
lemma nodup_orderId : ((listed (sideOf live s)).map MarketOrder.orderId).Nodup := by
  have hperm : (listed (sideOf live s)).Perm ((live.values.filter fun o => o.side = s).map record) :=
    listed_build_perm _
  have hids : ((live.values.filter fun o => o.side = s).map record).map MarketOrder.orderId =
      (live.values.filter fun o => o.side = s).map MEMarketUpdate.orderId := by
    rw [List.map_map]
    rfl
  have hvalues : live.values.map MEMarketUpdate.orderId = live.entries.map Prod.fst := by
    rw [SortedMap.values, List.map_map]
    exact List.map_congr_left hkeys
  rw [(hperm.map _).nodup_iff, hids]
  have hsub : ((live.values.filter fun o => o.side = s).map MEMarketUpdate.orderId).Sublist
      (live.entries.map Prod.fst) := hvalues ▸ List.filter_sublist.map _
  exact hsub.nodup (List.pairwise_map.mpr (live.sorted.imp fun h => h.ne))

/-- The other orders of a side have other ids. -/
lemma orderId_ne_of_split (hsplit : sideOf live s = c₁ ++ (p, a₁ ++ o :: a₂) :: c₂) :
    ∀ y ∈ listed c₁ ++ (a₁ ++ a₂) ++ listed c₂, y.orderId ≠ o.orderId := by
  have hnodup := nodup_orderId hkeys (s := s)
  have hperm : (listed (sideOf live s)).Perm (o :: (listed c₁ ++ (a₁ ++ a₂) ++ listed c₂)) := by
    have hlisted : listed (sideOf live s) =
        (listed c₁ ++ a₁) ++ o :: (a₂ ++ listed c₂) := by
      rw [hsplit]
      simp [listed]
    have hrest : listed c₁ ++ (a₁ ++ a₂) ++ listed c₂ =
        (listed c₁ ++ a₁) ++ (a₂ ++ listed c₂) := by simp
    rw [hlisted, hrest]
    exact List.perm_middle
  rw [(hperm.map _).nodup_iff, List.map_cons, List.nodup_cons] at hnodup
  intro y hy heq
  exact hnodup.1 (heq ▸ List.mem_map_of_mem hy)

/-- The orders of the other side have other ids. -/
lemma orderId_ne_of_ne (hne : s' ≠ s) (ho : o ∈ listed (sideOf live s)) :
    ∀ y ∈ listed (sideOf live s'), y.orderId ≠ o.orderId := by
  intro y hy heq
  obtain ⟨e, he, hside, rfl⟩ := exists_entry ho
  obtain ⟨d, hd, hside', rfl⟩ := exists_entry hy
  have hkey : d.1 = e.1 := by
    rw [← hkeys d hd, ← hkeys e he]
    exact heq
  have hsame : d.2 = e.2 := SortedMap.eq_of_mem (hkey ▸ hd) he
  exact hne (by rw [← hside', ← hside, hsame])

/-- **Erasing an order** takes it out of its side. -/
lemma sideOf_erase_split (hs : s.IsBookSide) (hsplit : sideOf live s = c₁ ++ (p, a₁ ++ o :: a₂) :: c₂) :
    sideOf (live.erase o.orderId) s = c₁ ++ consLevel p (a₁ ++ a₂) c₂ ∧
      ∀ s', s'.IsBookSide → s' ≠ s → sideOf (live.erase o.orderId) s' = sideOf live s' := by
  have hmem : o ∈ listed (sideOf live s) := by
    rw [hsplit]
    simp [listed]
  have hnonempty : ∀ s, ∀ l ∈ sideOf live s, l.2 ≠ [] := fun _ _ hl => nonempty_of_mem_build hl
  constructor
  · rw [sideOf_cancel hs hkeys, hsplit, keepOrders_split]
    · intro l hl
      refine hnonempty s l ?_
      rw [hsplit]
      rcases List.mem_append.mp hl with hl | hl
      · exact List.mem_append_left _ hl
      · exact List.mem_append_right _ (List.mem_cons_of_mem _ hl)
    · simp
    · intro y hy
      simpa using orderId_ne_of_split hkeys hsplit y hy
  · intro s' hs' hne
    rw [sideOf_cancel hs' hkeys, keepOrders_of_forall (hnonempty s')]
    intro y hy
    simpa using orderId_ne_of_ne hkeys hne hmem y hy

/-- **Setting the quantity of an order** changes it in its side. -/
lemma sideOf_insert_split (hsplit : sideOf live s = c₁ ++ (p, a₁ ++ o :: a₂) :: c₂)
    {w : MEMarketUpdate} (hw : (o.orderId, w) ∈ live.entries) (qty : ℕ) :
    sideOf (live.insert o.orderId { w with qty }) s = c₁ ++ (p, a₁ ++ { o with qty } :: a₂) :: c₂ ∧
      ∀ s', s' ≠ s → sideOf (live.insert o.orderId { w with qty }) s' = sideOf live s' := by
  have hmem : o ∈ listed (sideOf live s) := by
    rw [hsplit]
    simp [listed]
  constructor
  · rw [sideOf_modify hkeys hw, hsplit, mapOrders_split, setQty, if_pos rfl]
    intro y hy
    rw [setQty, if_neg (orderId_ne_of_split hkeys hsplit y hy)]
  · intro s' hne
    rw [sideOf_modify hkeys hw, mapOrders_of_forall]
    intro y hy
    rw [setQty, if_neg (orderId_ne_of_ne hkeys hne hmem y hy)]

end Split

/-! ## What the steps of a book publish -/

/-- **The feed lists the resting orders.** -/
def ShowsResting (v : View MEOrder) (f : Feed) : Prop :=
  ∀ s, s.IsBookSide → sideOf f.live s = mapOrders toMarketOrder (v.contents s)

/-- **What a book has published**: a stream that adds ids below `n`, and whose live orders are those
that rest. -/
structure Publishes (n : ℕ) (b : MEOrderBook) (v : View MEOrder) (f : Feed) : Prop where
  announces : Announces b.published f
  shown : ShowsResting v f
  fresh : ∀ i ∈ f.added, i < n

/-- The bound of the ids may grow, and the book may change where nothing is published. -/
lemma Publishes.mono {n n' : ℕ} {b b' : MEOrderBook} {v : View MEOrder} {f : Feed}
    (h : Publishes n b v f) (hn : n ≤ n') (hb : b'.published = b.published) :
    Publishes n' b' v f :=
  ⟨hb ▸ h.announces, h.shown, fun i hi => (h.fresh i hi).trans_le hn⟩

section Steps

variable {n : ℕ} {b b' : MEOrderBook} {v : View MEOrder} {f : Feed} (h : Publishes n b v f)
  {s : Side} (hs : s.IsBookSide) {l : Level MEOrder} {l₁ l₂ : List (Level MEOrder)}
  {x : Ptr × MEOrder} {q₁ q₂ : List (Ptr × MEOrder)} {u : MEMarketUpdate}

include h

/-- A trade announces nothing. -/
lemma Publishes.trade (htype : u.type = .trade) (hb : b'.published = b.published ++ [u]) :
    Publishes n b' v f := by
  have hu : f.announce u = some f := by simp [Feed.announce, htype]
  refine ⟨?_, h.shown, h.fresh⟩
  rw [hb]
  exact h.announces.snoc hu (by simp [htype]) h.announces.feed_compatible

include hs

/-- One resting order, in the feed. -/
lemma Publishes.live_of_split (hv : v.side s = l₁ ++ l :: l₂) (hq : l.queue = q₁ ++ x :: q₂) :
    sideOf f.live s = mapOrders toMarketOrder (l₁.map Level.contents) ++
        (l.price, (q₁.map Prod.snd).map toMarketOrder ++ toMarketOrder x.2 ::
          (q₂.map Prod.snd).map toMarketOrder) :: mapOrders toMarketOrder (l₂.map Level.contents) ∧
      ∃ w, (x.2.marketOrderId, w) ∈ f.live.entries ∧ w.side = x.2.side ∧ w.price = x.2.price := by
  have hsplit : sideOf f.live s = mapOrders toMarketOrder (l₁.map Level.contents) ++
      (l.price, (q₁.map Prod.snd).map toMarketOrder ++ toMarketOrder x.2 ::
        (q₂.map Prod.snd).map toMarketOrder) ::
          mapOrders toMarketOrder (l₂.map Level.contents) := by
    rw [h.shown s hs, contents_split hv hq]
    simp
  refine ⟨hsplit, ?_⟩
  have hmem : toMarketOrder x.2 ∈ listed (sideOf f.live s) := by
    rw [hsplit]
    simp [listed]
  obtain ⟨e, he, -, hrecord⟩ := exists_entry hmem
  have hkey : e.1 = x.2.marketOrderId :=
    (h.announces.tidy.orderId e he).symm.trans (congrArg MarketOrder.orderId hrecord)
  exact ⟨e.2, hkey ▸ he, congrArg MarketOrder.side hrecord, congrArg MarketOrder.price hrecord⟩

/-- **Taking an order out**, announced by a CANCEL. -/
lemma Publishes.takeOut (hv : v.side s = l₁ ++ l :: l₂) (hq : l.queue = q₁ ++ x :: q₂)
    (htype : u.type = .cancel) (hid : u.orderId = x.2.marketOrderId) (hside : u.side = x.2.side)
    (hprice : u.price = x.2.price) (hb : b'.published = b.published ++ [u]) :
    ∃ f', Publishes n b' (v.set s (l₁ ++ (l.withQueue (q₁ ++ q₂) ++ l₂))) f' := by
  obtain ⟨hsplit, w, hw, hws, hwp⟩ := h.live_of_split hs hv hq
  have hkeys := h.announces.tidy.orderId
  have hu : f.announce u = some { f with live := f.live.erase u.orderId } := by
    have hexisting : f.existing u = some w :=
      Feed.existing_eq_some.mpr ⟨hid ▸ hw, hws.trans hside.symm, hwp.trans hprice.symm⟩
    simp [Feed.announce, htype, hexisting]
  have hstream := h.announces.snoc hu (by simp [htype])
    (compatible_of_announce h.announces.feed_compatible hu (by simp [htype]))
  refine ⟨{ f with live := f.live.erase u.orderId }, hb ▸ hstream, ?_, h.fresh⟩
  obtain ⟨hself, hother⟩ := sideOf_erase_split hkeys hs hsplit
  have hoid : (toMarketOrder x.2).orderId = u.orderId := hid.symm
  rw [hoid] at hself hother
  intro s' hs'
  by_cases he : s' = s
  · rw [he]
    refine hself.trans ?_
    rw [View.contents_set_self, List.map_append, Level.contents_withQueue]
    simp
  · refine (hother s' hs' he).trans ?_
    rw [h.shown s' hs', View.contents, View.contents, View.side_set_of_ne _ _ hs hs' he]

/-- **Changing the quantity of an order**, announced by a MODIFY. -/
lemma Publishes.change (hv : v.side s = l₁ ++ l :: l₂) (hq : l.queue = q₁ ++ x :: q₂) {qty : ℕ}
    (htype : u.type = .modify) (hid : u.orderId = x.2.marketOrderId) (hside : u.side = x.2.side)
    (hprice : u.price = x.2.price) (hqty : u.qty = qty)
    (hb : b'.published = b.published ++ [u]) :
    ∃ f', Publishes n b'
      (v.set s (l₁ ++ { l with queue := q₁ ++ (x.1, { x.2 with qty }) :: q₂ } :: l₂)) f' := by
  obtain ⟨hsplit, w, hw, hws, hwp⟩ := h.live_of_split hs hv hq
  have hkeys := h.announces.tidy.orderId
  have hu : f.announce u =
      some { f with live := f.live.insert u.orderId { w with qty := u.qty } } := by
    have hexisting : f.existing u = some w :=
      Feed.existing_eq_some.mpr ⟨hid ▸ hw, hws.trans hside.symm, hwp.trans hprice.symm⟩
    simp [Feed.announce, htype, hexisting]
  have hstream := h.announces.snoc hu (by simp [htype])
    (compatible_of_announce h.announces.feed_compatible hu (by simp [htype]))
  refine ⟨{ f with live := f.live.insert u.orderId { w with qty := u.qty } }, hb ▸ hstream, ?_,
    h.fresh⟩
  obtain ⟨hself, hother⟩ := sideOf_insert_split hkeys hsplit hw u.qty
  have hoid : (toMarketOrder x.2).orderId = u.orderId := hid.symm
  rw [hoid] at hself hother
  intro s' hs'
  by_cases he : s' = s
  · rw [he]
    refine hself.trans ?_
    rw [View.contents_set_self, hid, hqty]
    simp [Level.contents, toMarketOrder]
  · refine (hother s' he).trans ?_
    rw [h.shown s' hs', View.contents, View.contents, View.side_set_of_ne _ _ hs hs' he]

/-- **One execution** publishes the trade and what becomes of the resting order. -/
lemma Publishes.fill {ls : List (Level MEOrder)} {p : Ptr} {o : MEOrder}
    {q : List (Ptr × MEOrder)} (hside : v.side s = l :: ls) (hq : l.queue = (p, o) :: q)
    (tickerId : ℕ) (side : Side) {leavesQty : ℕ}
    (hb : b'.published = b.published ++
      fillUpdates tickerId side ⟨o, min leavesQty o.qty, leavesQty - o.qty⟩) :
    ∃ f', Publishes n b' (afterMatch v s l ls p o q leavesQty) f' := by
  have hside₀ : v.side s = [] ++ l :: ls := hside
  have hq₀ : l.queue = [] ++ (p, o) :: q := hq
  -- the book between the two updates
  set trade : MEMarketUpdate :=
    { type := .trade, orderId := OrderId.invalid, tickerId, side, price := o.price,
      qty := min leavesQty o.qty, priority := Priority.invalid } with htrade
  have htraded : Publishes n (b.publish trade) v f := h.trade rfl rfl
  have hpublished : (b.publish trade).published = b.published ++ [trade] := rfl
  simp only [fillUpdates, ← htrade] at hb
  rw [← List.singleton_append, ← List.append_assoc, ← hpublished] at hb
  rw [afterMatch]
  by_cases hle : o.qty ≤ leavesQty
  · rw [if_pos (by omega)] at hb
    rw [if_pos hle]
    exact htraded.takeOut hs hside₀ hq₀ rfl rfl rfl rfl hb
  · have hmin : min leavesQty o.qty = leavesQty := by omega
    rw [if_neg (by omega)] at hb
    rw [if_neg hle]
    exact htraded.change hs hside₀ hq₀ rfl rfl rfl rfl (congrArg (o.qty - ·) hmin) hb

end Steps

/-- **A cancel request** publishes nothing or the end of the order. -/
lemma Publishes.cancel {n clientId orderId tickerId : ℕ} {b b' : MEOrderBook} {v v' : View MEOrder}
    {f : Feed} (h : Publishes n b v f) (hstep : CancelStep b v clientId orderId tickerId b' v') :
    ∃ f', Publishes n b' v' f' := by
  cases hstep with
  | rejected => exact ⟨f, h.mono le_rfl rfl⟩
  | canceled hs hv hq _ hengine _ =>
    have hpublished := congrArg MatchingEngine.outgoingMdUpdates hengine
    refine h.takeOut hs hv hq ?_ ?_ ?_ ?_ hpublished
    all_goals rfl

/-- A live order rests in a level of its side, at its price. -/
lemma ShowsResting.exists_level {v : View MEOrder} {f : Feed} (h : ShowsResting v f) {e : ℕ × MEMarketUpdate}
    (he : e ∈ f.live.entries) (hs : e.2.side.IsBookSide) (hv : v.Valid) :
    ∃ l ∈ v.side e.2.side, l.price = e.2.price := by
  have hmem : record e.2 ∈ listed (sideOf f.live e.2.side) := record_mem_sideOf he
  rw [h _ hs, listed_mapOrders, List.mem_map] at hmem
  obtain ⟨o, ho, hrecord⟩ := hmem
  obtain ⟨x, hx, rfl⟩ := mem_listed_contents.mp ho
  obtain ⟨l, hl, hxl⟩ := mem_orders.mp hx
  refine ⟨l, hl, ?_⟩
  rw [← ((hv.homed _ hs l hl).2 x hxl).2]
  exact congrArg MarketOrder.price hrecord

/-- **A remainder that rests** is announced by an ADD under the id that is next.

**Proof sketch.** All ids that were added are smaller, so the ADD announces a new order. An order
that is live rests in a level at its price (`ShowsResting.exists_level`), so the new order shares no
bucket with it at another price, since it fits the book, and crosses it nowhere; hence the live
orders are still compatible (`Compatible.insert`). The book puts the order where its price and time
belong (`Placed.contents`), and so does the feed, as the id is the largest. -/
lemma Publishes.place {b b' : MEOrderBook} {v v' : View MEOrder} {f : Feed} {p : Ptr} {x : MEOrder}
    (h : Publishes x.marketOrderId b v f) (hplaced : Placed v p x v') (hv : v.Valid)
    (hs : x.side.IsBookSide) (hfits : v.Fits x)
    (hcross : ∀ l ∈ v.side x.side.opposite, crosses x.side x.price l.price = false) (tickerId : ℕ)
    (hb : b'.published = b.published ++
      [{ type := .add, orderId := x.marketOrderId, tickerId, side := x.side, price := x.price,
         qty := x.qty, priority := x.priority }]) :
    ∃ f', Publishes (x.marketOrderId + 1) b' v' f' := by
  set u : MEMarketUpdate :=
    { type := .add, orderId := x.marketOrderId, tickerId, side := x.side, price := x.price,
      qty := x.qty, priority := x.priority } with hu
  have hcompat := h.announces.feed_compatible
  have hnew : u.orderId ∉ f.added := fun hmem => lt_irrefl _ (h.fresh _ hmem)
  have hannounce : f.announce u =
      some { added := u.orderId :: f.added, live := f.live.insert u.orderId u } := by
    simp only [Feed.announce, hu]
    rw [if_neg hnew]
  have hlevel : ∀ e ∈ f.live.entries, ∃ l ∈ v.side e.2.side, l.price = e.2.price :=
    fun e he => h.shown.exists_level he (hcompat.side e he) hv
  have hcompat' : Compatible (f.live.insert u.orderId u) := by
    refine hcompat.insert hs (fun e he hmod => ?_) fun e he hopposite => ?_
    · obtain ⟨l, hl, hle⟩ := hlevel e he
      rw [← hle] at hmod ⊢
      exact (hfits l (View.mem_levels_of_side hl) (priceToIndex_eq_iff.mpr hmod)).1
    · obtain ⟨l, hl, hle⟩ := hlevel e he
      rw [← hle]
      exact hcross l (hopposite ▸ hl)
  refine ⟨_, hb ▸ h.announces.snoc hannounce (fun _ i hi => h.fresh i hi) hcompat', fun s hs' => ?_,
    fun i hi => ?_⟩
  · obtain ⟨-, hself, hother⟩ := hplaced.contents hv hs hfits
    have hlt : ∀ e ∈ f.live.entries, e.1 < u.orderId := fun e he =>
      h.fresh _ (h.announces.tidy.added e he)
    rw [sideOf_add hlt]
    split_ifs with he
    · rw [h.shown s hs', ← he]
      refine Eq.trans ?_ (congrArg (mapOrders toMarketOrder) hself.symm)
      rw [mapOrders_insertOrder]
      rfl
    · rw [h.shown s hs']
      have hsame : v'.side s = v.side s := hother s hs' fun hx => he hx.symm
      rw [View.contents, View.contents, hsame]
  · rcases List.mem_cons.mp hi with rfl | hi
    · exact Nat.lt_succ_self _
    · exact (h.fresh i hi).trans (Nat.lt_succ_self _)

/-! ## Runs of the engine -/

/-- **What requests do** keeps the stream in step with the book. -/
lemma maintains_publishes (r : MEClientRequest) :
    Maintains r (fun b v => ∃ f, Publishes b.nextMarketOrderId b v f)
      (fun n b v _ => ∃ f, Publishes n b v f) fun b v => ∃ f, Publishes b.nextMarketOrderId b v f where
  accept _ _ _ := fun ⟨f, hf⟩ => ⟨f, hf.mono le_rfl rfl⟩
  fill n b b' v l ls p o q leavesQty _ _ hJ hside hq _ hengine := by
    obtain ⟨f, hf⟩ := hJ
    refine hf.fill (isBookSide_opposite r.side) hside hq r.tickerId r.side ?_
    rw [MEOrderBook.published, hengine]
    rfl
  used n b v hJ hnext := by
    obtain ⟨f, hf⟩ := hJ
    rw [hnext]
    exact ⟨f, hf.mono (Nat.le_succ _) rfl⟩
  rest n b b' v v' p priority leavesQty hs hwf hJ _ hcross hfits hplaced hnext hengine := by
    obtain ⟨f, hf⟩ := hJ
    rw [hnext]
    refine Publishes.place hf hplaced hwf.valid hs hfits hcross r.tickerId ?_
    rw [MEOrderBook.published, hengine]
    rfl
  cancel _ b b' v v' hI hstep := by
    obtain ⟨f, hf⟩ := hI
    have hnext : b'.nextMarketOrderId = b.nextMarketOrderId := by
      cases hstep with
      | rejected => rfl
      | canceled _ _ _ _ _ hnext => exact hnext
    rw [hnext]
    exact hf.cancel hstep

/-- **The invariant of the engine**: every book is in step with what was published about its
ticker. -/
def EnginePublishes (x : EngineState) : Prop :=
  ∀ t, ∃ v, BookInvariant (x.alone t) v ∧
    ∃ f, Publishes (x.alone t).nextMarketOrderId (x.alone t) v f

/-- **Every run** keeps the invariant of the engine. -/
lemma enginePublishes_of_run {requests : List MEClientRequest}
    (h : Meets (EngineState.process MEOrderBook.addAnnounced) EngineAdmissible {} requests) :
    Safe (RunFault requests) EnginePublishes
      (requests.foldlM (EngineState.process MEOrderBook.addAnnounced) {}) := by
  refine Maintains.run maintains_publishes ⟨{}, announces_nil, fun s hs => ?_, by simp⟩ h
  rcases hs with rfl | rfl <;> rfl

/-- **What the invariant says** about the queue of updates and the books. -/
lemma EnginePublishes.stream {x : EngineState} (h : EnginePublishes x) :
    Stream x.queues.outgoingMdUpdates ∧
      ∃ fs, feedsOf x.queues.outgoingMdUpdates = some fs ∧
        ∀ t, ∃ v, BookInvariant (x.tickerOrderBook t) v ∧ ShowsResting v (fs t) := by
  choose v hinv fs hfs using h
  have hstream := stream_of_announces fun t => (hfs t).announces
  exact ⟨hstream.1, fs, hstream.2, fun t => ⟨v t, (hinv t).of_alone, (hfs t).shown⟩⟩

/-- **The published stream of every run.** Whatever admissible requests the engine processes, with `add`
through line 105, it fails only for want of a fresh block or of a table entry, the updates in its
queue are a well-formed stream, and the live orders of each ticker are the orders that rest in its
book. -/
theorem published_of_run {requests : List MEClientRequest}
    (h : Meets (EngineState.process MEOrderBook.addAnnounced) EngineAdmissible {} requests) :
    Safe (RunFault requests)
      (fun x => Stream x.queues.outgoingMdUpdates ∧
        ∃ fs, feedsOf x.queues.outgoingMdUpdates = some fs ∧
          ∀ t, ∃ v, BookInvariant (x.tickerOrderBook t) v ∧ ShowsResting v (fs t))
      (requests.foldlM (EngineState.process MEOrderBook.addAnnounced) {}) :=
  (enginePublishes_of_run h).mono (fun _ hf => hf) fun _ hx => hx.stream

/-- The stream of the sample. -/
theorem published_of_run_sample :
    ∃ x, sampleOrders.foldlM (EngineState.process MEOrderBook.addAnnounced) {} = .ok x ∧
      Stream x.queues.outgoingMdUpdates ∧
      ∃ fs, feedsOf x.queues.outgoingMdUpdates = some fs ∧
        ∀ t, ∃ v, BookInvariant (x.tickerOrderBook t) v ∧ ShowsResting v (fs t) :=
  (published_of_run meets_sampleOrders).exists_of_isOk (by decide)

/-! ## The books of a client -/

/-- The book of a client that contains the live orders mirrors the book that they rest in. -/
lemma ShowsResting.mirrors {v : View MEOrder} {f : Feed} (h : ShowsResting v f) {w : View MarketOrder}
    (hw : ∀ s, s.IsBookSide → w.contents s = sideOf f.live s) : Mirrors v w :=
  fun s hs => (hw s hs).trans (h s hs)

/-- **The client's books mirror the exchange's books.** A client that processes the updates of a completed
run of admissible requests, with `add` through line 105, fails only for want of a fresh block or of a
table entry, and ends up with a book for each ticker that has the prices of the exchange's book and
its queues.

**Proof sketch.** The stream of the run is well formed (`published_of_run`), so the books of the
client track its live orders (`safe_stream`), and these are the orders that rest in the exchange's
books. Two views of one set of live orders mirror each other (`ShowsResting.mirrors`). -/
theorem clients_mirror {requests : List MEClientRequest} {x : EngineState}
    (h : Meets (EngineState.process MEOrderBook.addAnnounced) EngineAdmissible {} requests)
    (hx : requests.foldlM (EngineState.process MEOrderBook.addAnnounced) {} = .ok x) :
    Safe (UpdatesFault x.queues.outgoingMdUpdates)
      (fun books => ∀ t < meMaxTickers, ∃ v w, BookInvariant (x.tickerOrderBook t) v ∧
        WellFormed (books t) w ∧ Mirrors v w)
      (onMarketUpdates newBooks x.queues.outgoingMdUpdates) := by
  obtain ⟨hstream, fs, hfs, hshown⟩ := ((enginePublishes_of_run h).of_eq_ok hx).stream
  have hpre : [] ++ x.queues.outgoingMdUpdates <+: x.queues.outgoingMdUpdates := List.prefix_refl _
  have hfollow := safe_stream hstream hpre (fun _ => true) (fun _ hu => by cases hu) rfl hfs
    tracksAll_newBooks
  have hall : x.queues.outgoingMdUpdates.filter (fun _ => true) = x.queues.outgoingMdUpdates :=
    List.filter_true _
  rw [hall] at hfollow
  refine hfollow.mono (fun _ hf => hf) ?_
  rintro books ⟨hbooks, -⟩ t ht
  obtain ⟨w, hwf, hw⟩ := hbooks t ht
  obtain ⟨v, hinv, hv⟩ := hshown t
  exact ⟨v, w, hinv, hwf, hv.mirrors hw⟩

/-- The client's books mirror those of the sample. -/
theorem clients_mirror_sample :
    ∃ x, sampleOrders.foldlM (EngineState.process MEOrderBook.addAnnounced) {} = .ok x ∧
      Safe (UpdatesFault x.queues.outgoingMdUpdates)
        (fun books => ∀ t < meMaxTickers, ∃ v w, BookInvariant (x.tickerOrderBook t) v ∧
          WellFormed (books t) w ∧ Mirrors v w)
        (onMarketUpdates newBooks x.queues.outgoingMdUpdates) := by
  obtain ⟨x, hx, -⟩ := (enginePublishes_of_run meets_sampleOrders).exists_of_isOk (by decide)
  exact ⟨x, hx, clients_mirror meets_sampleOrders hx⟩

end Trading
