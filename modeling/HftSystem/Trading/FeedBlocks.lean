import HftSystem.Exchange.BookLifetime
import HftSystem.Trading.LevelOwnership
import HftSystem.Trading.PublishedStream

set_option relaxedAutoImplicit false
set_option autoImplicit false

/-!
# The blocks that a stream of updates uses up

How far a book has come with its pools can be read off the updates that were published for it: an
ADD uses up the block of an order, and that of a level if no live order shares the bucket of its
price. This is so for the book of the exchange and for that of a client that follows, so a client
never runs out of blocks before the exchange does.

## Main definitions

* `Exchange.addCount`, `Exchange.Feed.levelsOpened` — what a stream uses up.
* `Trading.BlocksCounted` — a book of the exchange that has used up what its stream does.

## Main results

* `Trading.blocks_of_run` — every book, in every run of the engine.
* `Trading.safe_served_onMarketUpdate` — what an update uses up in the book of a client.
* `Trading.clients_complete` — a client that follows ends only at an id that is out of range.
-/

namespace Exchange

open Common Fallible

/-! ## Counting -/

/-- The number of ADDs. -/
def addCount (us : List MEMarketUpdate) : ℕ := (us.filter fun u => u.type = .add).length

/-- The ADDs of two streams. -/
lemma addCount_append (us us' : List MEMarketUpdate) : addCount (us ++ us') = addCount us + addCount us' := by
  simp [addCount, List.filter_append]

namespace Feed

/-- The levels that an ADD at a price opens: one if no live order shares its bucket. -/
def levelsNeeded (f : Feed) (price : ℤ) : ℕ :=
  if ∀ e ∈ f.live.entries, priceToIndex e.2.price ≠ priceToIndex price then 1 else 0

/-- The levels that an update opens. -/
def opened (f : Feed) (u : MEMarketUpdate) : ℕ := if u.type = .add then f.levelsNeeded u.price else 0

/-- The levels that a stream opens. -/
def levelsOpened (f : Feed) : List MEMarketUpdate → ℕ
  | [] => 0
  | u :: us => f.opened u + match f.announce u with
    | some f' => f'.levelsOpened us
    | none => 0

/-- The levels that two streams in a row open. -/
lemma levelsOpened_append {us : List MEMarketUpdate} {f f' : Feed} (h : f.announceAll us = some f')
    (us' : List MEMarketUpdate) :
    f.levelsOpened (us ++ us') = f.levelsOpened us + f'.levelsOpened us' := by
  induction us generalizing f with
  | nil =>
    cases h
    exact (Nat.zero_add _).symm
  | cons u us ih =>
    rw [announceAll, List.foldlM_cons] at h
    obtain ⟨f₁, hf₁, h⟩ := Option.bind_eq_some_iff.mp h
    simp only [List.cons_append, levelsOpened, hf₁, ih h, Nat.add_assoc]

/-- The levels that one update opens. -/
lemma levelsOpened_singleton (f : Feed) (u : MEMarketUpdate) : f.levelsOpened [u] = f.opened u := by
  simp only [levelsOpened]
  cases f.announce u <;> rfl

/-- Without an ADD no level is opened. -/
lemma levelsOpened_of_forall {us : List MEMarketUpdate} (h : ∀ u ∈ us, u.type ≠ .add) (f : Feed) :
    f.levelsOpened us = 0 := by
  induction us generalizing f with
  | nil => rfl
  | cons u us ih =>
    obtain ⟨hu, hus⟩ := List.forall_mem_cons.mp h
    simp only [levelsOpened, opened, if_neg hu, Nat.zero_add]
    cases f.announce u with
    | none => rfl
    | some f' => exact ih hus f'

end Feed

end Exchange

namespace Trading

open Common Exchange LimitOrderBook PriceTime Fallible MEOrderBook MarketOrderBook

/-- **A book and a feed with the same buckets** open the same levels. -/
lemma levelsNeeded_eq {ω κ : Type} [BookOrder ω κ] {b : LimitOrderBook ω κ} {ls : List (Level ω)}
    {f : Feed} (h : Heap b ls)
    (hbuckets : ∀ i, (∃ l ∈ ls, priceToIndex l.price = i) ↔
      ∃ e ∈ f.live.entries, priceToIndex e.2.price = i) (price : ℤ) :
    b.levelsNeeded price = f.levelsNeeded price := by
  have hiff : b.getOrdersAtPrice price = none ↔
      ∀ e ∈ f.live.entries, priceToIndex e.2.price ≠ priceToIndex price := by
    constructor
    · intro hnone e he hbucket
      obtain ⟨l, hl, hli⟩ := (hbuckets _).mpr ⟨e, he, hbucket⟩
      cases hnone.symm.trans (h.bucket_of_mem hl _ hli)
    · intro hfree
      cases hbucket : b.getOrdersAtPrice price with
      | none => rfl
      | some a =>
        obtain ⟨l, hl, -, hli⟩ := (h.bucket _ _).mp hbucket
        obtain ⟨e, he, hei⟩ := (hbuckets _).mp ⟨l, hl, hli⟩
        exact absurd hei (hfree e he)
  unfold LimitOrderBook.levelsNeeded Feed.levelsNeeded
  simp only [hiff]

/-! ## The book of the exchange -/

/-- **The book has used up what its stream uses up.** -/
def BlocksCounted (b : MEOrderBook) : Prop :=
  BlocksServed b.toLimitOrderBook (addCount b.published) (Feed.levelsOpened {} b.published)

/-- A new book has used up nothing, and published nothing. -/
lemma blocksCounted_new : BlocksCounted .new := lasting_new

section Exchange

variable {b b' : MEOrderBook} {v : View MEOrder} {f : Feed} {r : MEClientRequest}

/-- The levels of a book are at the prices of the live orders. -/
lemma ShowsResting.levelsNeeded (h : ShowsResting v f) (hwf : Exchange.WellFormed b v)
    (hcompat : Compatible f.live) (price : ℤ) : b.levelsNeeded price = f.levelsNeeded price := by
  refine levelsNeeded_eq hwf.repr.shape.heap (fun i => ⟨?_, ?_⟩) price
  · rintro ⟨l, hl, hli⟩
    obtain ⟨s, hs, hls⟩ := View.mem_levels.mp hl
    obtain ⟨x, hx⟩ := List.exists_mem_of_ne_nil _ (hwf.valid.nonempty l hl)
    obtain ⟨-, hprice⟩ := (hwf.valid.homed s hs l hls).2 x hx
    have hlisted : toMarketOrder x.2 ∈ listed (sideOf f.live s) := by
      rw [h s hs, listed_mapOrders]
      exact List.mem_map_of_mem (mem_listed_contents.mpr ⟨x, mem_orders.mpr ⟨l, hls, hx⟩, rfl⟩)
    obtain ⟨e, he, -, hrecord⟩ := exists_entry hlisted
    have hprice' : e.2.price = x.2.price := congrArg MarketOrder.price hrecord
    exact ⟨e, he, by rw [hprice', ← hli]; exact congrArg priceToIndex hprice⟩
  · rintro ⟨e, he, hei⟩
    obtain ⟨l, hl, hprice⟩ := h.exists_level he (hcompat.side e he) hwf.valid
    exact ⟨l, View.mem_levels_of_side hl, by rw [hprice, hei]⟩

/-- Where nothing comes to rest, nothing is counted. -/
lemma BlocksCounted.quiet (h : BlocksCounted b) (hf : Feed.announceAll {} b.published = some f)
    (hquiet : Quiet b b') : BlocksCounted b' := by
  obtain ⟨us, hus, hnone⟩ := hquiet.published
  have hcount : addCount us = 0 := by
    unfold addCount
    rw [List.length_eq_zero_iff, List.filter_eq_nil_iff]
    simpa using hnone
  unfold BlocksCounted
  rw [hus, addCount_append, hcount, Feed.levelsOpened_append hf, Feed.levelsOpened_of_forall hnone]
  exact BlocksServed.keeps h hquiet.blocks

/-- **A request** uses up what its updates do.

**Proof sketch.** A CANCEL takes no block and announces no ADD (`safe_quiet_cancel`), and neither does
matching. A remainder that rests takes one block for its order, and one for its level if its bucket is
empty. It is announced by one ADD, which opens a level of the feed in the same case, since the feed
lists what rests (`ShowsResting.levelsNeeded`). -/
lemma BlocksCounted.safe_process (h : BlocksCounted b) (hb : BookInvariant b v)
    (hp : Publishes b.nextMarketOrderId b v f) (hr : Admissible b r) :
    Safe (fun _ => True) BlocksCounted (processClientRequest MEOrderBook.addAnnounced b r) := by
  unfold processClientRequest
  cases htype : r.type with
  | invalid => exact absurd htype hr.1
  | cancel =>
    exact (safe_quiet_cancel b r.clientId r.orderId r.tickerId).mono (fun _ hf => hf)
      fun _ => h.quiet hp.announces.announced
  | new =>
    obtain ⟨hs, -⟩ := hr.2 htype
    have hwf : Exchange.WellFormed
        (b.accept r.clientId r.orderId r.tickerId r.side r.price r.qty).1 v := hb.wellFormed.of_book rfl
    obtain ⟨b₁, v₁, leavesQty, hmatch, hwf₁, -, -, ⟨f₁, hf₁⟩, -⟩ :=
      (maintains_publishes r).checkForMatch hwf hs
        ((maintains_publishes r).accept htype b v ⟨f, hp⟩)
    have hmatch : b.matchRequest r = .ok (b₁, leavesQty) := hmatch
    have h₁ : BlocksCounted b₁ :=
      h.quiet hp.announces.announced ((safe_quiet_matchRequest b r).of_eq_ok hmatch)
    simp only
    rw [addAnnounced_eq, hmatch, ok_bind]
    unfold MEOrderBook.rest
    split_ifs with hzero
    · exact h₁
    have hqueued := safe_addRemainder_queued hwf₁ r.clientId r.orderId r.tickerId b.nextMarketOrderId
      r.side r.price leavesQty (fun n => MemPool.safe_allocate _ n) fun _ l => MemPool.safe_allocate _ l
    have hserved := safe_served_addRemainder h₁ r.clientId r.orderId r.tickerId b.nextMarketOrderId
      r.side r.price leavesQty
    refine Safe.bind ((hqueued.and hserved).mono (fun _ _ => trivial) fun _ hplaced => hplaced) ?_
    rintro ⟨b₂, priority, p⟩ ⟨⟨-, -, -, -, -, hengine, -⟩, hplaced⟩
    -- the remainder is announced
    have hpublished : ∀ u : MEMarketUpdate, (b₂.publish u).published = b₁.published ++ [u] := fun u =>
      congrArg (fun e : MatchingEngine => e.outgoingMdUpdates ++ [u]) hengine
    have hneeded := hf₁.shown.levelsNeeded hwf₁ hf₁.announces.feed_compatible r.price
    show BlocksServed b₂.toLimitOrderBook _ _
    rw [hpublished, addCount_append, Feed.levelsOpened_append hf₁.announces.announced,
      Feed.levelsOpened_singleton, Feed.opened, if_pos rfl, ← hneeded]
    exact hplaced

end Exchange

/-- **The invariant of the engine**: every book is in step with what was published about its ticker, and
has used up what that uses up. -/
def EngineCounted (x : EngineState) : Prop :=
  ∀ t, (∃ v, BookInvariant (x.alone t) v ∧
    ∃ f, Publishes (x.alone t).nextMarketOrderId (x.alone t) v f) ∧ BlocksCounted (x.alone t)

/-- **Every run** keeps the invariant of the engine. -/
lemma engineCounted_of_run {requests : List MEClientRequest}
    (h : Meets (EngineState.process MEOrderBook.addAnnounced) EngineAdmissible {} requests) :
    Safe (RunFault requests) EngineCounted
      (requests.foldlM (EngineState.process MEOrderBook.addAnnounced) {}) := by
  have hnew : Publishes MEOrderBook.new.nextMarketOrderId .new {} {} := by
    refine ⟨announces_nil, fun s hs => ?_, by simp⟩
    rcases hs with rfl | rfl <;> rfl
  refine EngineState.safe_run local_addAnnounced (C := fun b r => Admissible b r ∧ r ∈ requests)
    (P := fun b => (∃ v, BookInvariant b v ∧ ∃ f, Publishes b.nextMarketOrderId b v f) ∧ BlocksCounted b) ?_
    ⟨⟨{}, bookInvariant_new, {}, hnew⟩, blocksCounted_new⟩ ?_
  · rintro b r ⟨⟨v, hb, f, hf⟩, hcounted⟩ ⟨hr, hmem⟩
    have hprocess := (maintains_publishes r).process hb ⟨f, hf⟩ hr
    refine (hprocess.and (hcounted.safe_process hb hf hr)).mono
      (fun e he => he.1.imp_right fun ⟨he, hin⟩ => ⟨he, r, hmem, hin⟩) ?_
    rintro b' ⟨⟨v', hb', hf', -⟩, hcounted'⟩
    exact ⟨⟨v', hb', hf'⟩, hcounted'⟩
  · exact (h.and_forall fun _ hr => hr).mono fun _ _ hr => ⟨hr.1.1, hr.1.2, hr.2⟩

/-- **The blocks of every run.** Whatever admissible requests the engine processes, with `add` through
line 105, the index of the next block of the order pool of each book is the number of ADDs that were
published about its ticker, and that of the level pool is the number of levels that these ADDs opened.
Both stay below the sizes of the pools, whatever was executed and canceled in between. -/
theorem blocks_of_run {requests : List MEClientRequest}
    (h : Meets (EngineState.process MEOrderBook.addAnnounced) EngineAdmissible {} requests) :
    Safe (RunFault requests)
      (fun x => ∀ t,
        ((x.alone t).orderPool.nextFreeIndex = addCount (x.alone t).published ∧
          addCount (x.alone t).published < meMaxOrderIds) ∧
        (x.alone t).ordersAtPricePool.nextFreeIndex = Feed.levelsOpened {} (x.alone t).published ∧
          Feed.levelsOpened {} (x.alone t).published < meMaxPriceLevels)
      (requests.foldlM (EngineState.process MEOrderBook.addAnnounced) {}) :=
  (engineCounted_of_run h).mono (fun _ hf => hf) fun _ hx t =>
    ⟨⟨(hx t).2.order.next, (hx t).2.order.lt⟩, (hx t).2.level.next, (hx t).2.level.lt⟩

/-- The blocks of the sample are counted. -/
theorem blocks_of_run_sample :
    ∃ x, sampleOrders.foldlM (EngineState.process MEOrderBook.addAnnounced) {} = .ok x ∧ ∀ t,
      ((x.alone t).orderPool.nextFreeIndex = addCount (x.alone t).published ∧
        addCount (x.alone t).published < meMaxOrderIds) ∧
      (x.alone t).ordersAtPricePool.nextFreeIndex = Feed.levelsOpened {} (x.alone t).published ∧
        Feed.levelsOpened {} (x.alone t).published < meMaxPriceLevels :=
  (blocks_of_run meets_sampleOrders).exists_of_isOk (by decide)

/-! ## The book of a client -/

section Client

variable {b : MarketOrderBook} {v : View MarketOrder} {orders levels : ℕ} {u : MEMarketUpdate}

/-- The failures of a loop over the list of a level. -/
def ChaseFault (f : Fault) : Prop := f = .nullPointer ∨ f = .diverges

/-- Following a pointer fails on a null pointer only. -/
lemma safe_chase_deref (p : Option Ptr) : Safe ChaseFault (fun _ => True) (deref p) := by
  cases p with
  | none => exact .inl rfl
  | some p => trivial

/-- Going over a list fails on a null pointer, or goes on for ever. -/
lemma safe_chase_walk (next : Ptr → Option Ptr) (first : Ptr) (fuel : ℕ) (p : Ptr) :
    Safe ChaseFault (fun _ => True) (walk next first fuel p) := by
  induction fuel generalizing p with
  | zero => exact .inr rfl
  | succ fuel ih =>
    unfold walk
    split
    · trivial
    · exact (safe_chase_deref _).bind fun q _ => (ih q).bind fun _ _ => trivial

/-- Refreshing the best bid and offer fails in these ways only, and does not touch the lists. -/
lemma safe_chase_updateBBO (b : MarketOrderBook) (updateBid updateAsk : Bool) :
    Safe ChaseFault (fun b' => b'.toLimitOrderBook = b.toLimitOrderBook)
      (b.updateBBO updateBid updateAsk) := by
  have htop : ∀ (b : MarketOrderBook) best, Safe ChaseFault (fun _ => True) (b.topOfBook best) := by
    intro b best
    cases best with
    | none => trivial
    | some best =>
      have hqty : Safe ChaseFault (fun _ => True) (b.levelQty best) :=
        (safe_chase_deref _).bind fun first _ => (safe_chase_deref _).bind fun second _ =>
          (safe_chase_walk _ _ _ _).bind fun _ _ => trivial
      exact hqty.bind fun _ _ => trivial
  have hbid : Safe ChaseFault (fun b' => b'.toLimitOrderBook = b.toLimitOrderBook)
      (b.updateBid updateBid) := by
    unfold MarketOrderBook.updateBid
    split
    · exact (htop _ _).bind fun _ _ => rfl
    · exact rfl
  unfold MarketOrderBook.updateBBO
  refine hbid.bind fun b₁ h₁ => ?_
  unfold MarketOrderBook.updateAsk
  split
  · exact (htop _ _).bind fun _ _ => h₁
  · exact h₁

/-- **ADD** uses up the block of an order, and that of a level if it opens one. -/
lemma safe_served_add (h : WellFormed b v) (hserved : BlocksServed b.toLimitOrderBook orders levels)
    (htype : u.type = .add) :
    Safe (fun f => f = .outOfRange ∨ f = .overrun ∧
        ¬ (orders + 1 < meMaxOrderIds ∧ levels + b.levelsNeeded u.price < meMaxPriceLevels))
      (fun b' => BlocksServed b'.toLimitOrderBook (orders + 1) (levels + b.levelsNeeded u.price))
      (b.applyUpdate u) := by
  set allow : Fault → Prop := fun f => f = .overrun ∧
    ¬ (orders + 1 < meMaxOrderIds ∧ levels + b.levelsNeeded u.price < meMaxPriceLevels) with hallow
  have horders : Safe allow (fun x => MemPool.Allocated b.orderPool x.2 { order := record u } x.1 ∧
      x.2.Served meMaxOrderIds (orders + 1)) (b.orderPool.allocate { order := record u }) :=
    (hserved.order.safe_allocate _).mono (fun _ hf => ⟨hf.1, fun hroom => hf.2 hroom.1⟩) fun _ hx => hx
  have hhold := safe_holdOrder h.repr (record u) (horders.mono (fun _ hf => hf) fun _ hx => hx.1)
  simp only [applyUpdate, htype]
  refine Safe.bind ((hhold.and horders).mono (fun _ hf => .inr hf.1) fun _ hx => hx) ?_
  rintro ⟨p, pool⟩ ⟨hold, hal, hpool⟩
  have hlevels : b.getOrdersAtPrice u.price = none → ∀ l,
      Safe allow (fun x => MemPool.Allocated b.ordersAtPricePool x.2 l x.1)
        (b.ordersAtPricePool.allocate l) := by
    intro hbucket l
    refine (hserved.level.safe_allocate l).mono (fun _ hf => ⟨hf.1, fun hroom => hf.2 ?_⟩) fun _ hx => hx.1
    simpa only [levelsNeeded, hbucket, if_true] using hroom.2
  have hheld : BlocksServed { b.toLimitOrderBook with orderPool := pool } (orders + 1) levels :=
    ⟨hpool, hserved.level⟩
  have hadded := hheld.safe_addOrder p
  rw [hold.record] at hadded
  have hboth := (safe_addOrder_queued hold h.valid.nonempty hlevels).and hadded
  refine Safe.bind (hboth.mono (fun f hf => ?_) fun _ hbook => hbook.2) fun _ hbook => hbook
  exact hf.1.elim .inr fun hf => .inl hf.1

/-- Another update, but for CLEAR, uses up no block. -/
lemma safe_keeps_applyUpdate (b : MarketOrderBook) (hadd : u.type ≠ .add) (hclear : u.type ≠ .clear) :
    Safe (fun _ => True) (fun b' => KeepsBlocks b.toLimitOrderBook b'.toLimitOrderBook)
      (b.applyUpdate u) := by
  cases htype : u.type with
  | add => exact absurd htype hadd
  | clear => exact absurd htype hclear
  | modify =>
    simp only [applyUpdate, htype]
    exact (safe_true _).bind fun p _ => (KeepsBlocks.refl _).modifyNode p _
  | cancel =>
    simp only [applyUpdate, htype]
    exact (safe_true _).bind fun p _ =>
      (safe_keeps_removeOrder b.toLimitOrderBook p).bind fun _ hbook => hbook
  | trade | invalid | snapshotStart | snapshotEnd =>
    simp only [applyUpdate, htype]
    exact .refl _

/-- **An update of the stream** uses up the block of an order, and that of a level if it opens one, if it is
an ADD; and nothing otherwise. -/
theorem safe_served_onMarketUpdate (h : WellFormed b v)
    (hserved : BlocksServed b.toLimitOrderBook orders levels) (hclear : u.type ≠ .clear) :
    Safe (fun f => u.type = .add → ChaseFault f ∨ f = .outOfRange ∨ f = .overrun ∧
        ¬ (orders + 1 < meMaxOrderIds ∧ levels + b.levelsNeeded u.price < meMaxPriceLevels))
      (fun b' => BlocksServed b'.toLimitOrderBook (orders + if u.type = .add then 1 else 0)
        (levels + if u.type = .add then b.levelsNeeded u.price else 0))
      (b.onMarketUpdate u) := by
  have happly : Safe (fun f => u.type = .add → ChaseFault f ∨ f = .outOfRange ∨ f = .overrun ∧
        ¬ (orders + 1 < meMaxOrderIds ∧ levels + b.levelsNeeded u.price < meMaxPriceLevels))
      (fun b' => BlocksServed b'.toLimitOrderBook (orders + if u.type = .add then 1 else 0)
        (levels + if u.type = .add then b.levelsNeeded u.price else 0))
      (b.applyUpdate u) := by
    by_cases htype : u.type = .add
    · rw [if_pos htype, if_pos htype]
      exact (safe_served_add h hserved htype).mono (fun _ hf _ => .inr hf) fun _ hb' => hb'
    · rw [if_neg htype, if_neg htype]
      exact (safe_keeps_applyUpdate b htype hclear).mono (fun _ _ hadd => absurd hadd htype)
        fun _ => hserved.keeps
  unfold onMarketUpdate
  by_cases htrade : u.type = .trade
  · have hadd : u.type ≠ .add := by simp [htrade]
    rw [if_pos htrade, if_neg hadd, if_neg hadd]
    exact hserved
  · rw [if_neg htrade]
    refine happly.bind fun b₁ h₁ => ?_
    refine (safe_chase_updateBBO b₁ _ _).mono (fun _ hf _ => .inl hf) fun b' hb' => ?_
    rwa [hb']

/-- The levels of a book that follows a feed are at the prices of the live orders. -/
lemma levelsNeeded_of_contents {f : Feed} (h : WellFormed b v)
    (hv : ∀ s, s.IsBookSide → v.contents s = sideOf f.live s) (hcompat : Compatible f.live) (price : ℤ) :
    b.levelsNeeded price = f.levelsNeeded price := by
  refine levelsNeeded_eq h.repr.shape.heap (fun i => ⟨?_, ?_⟩) price
  · rintro ⟨l, hl, hli⟩
    obtain ⟨s, hs, hls⟩ := View.mem_levels.mp hl
    obtain ⟨x, hx⟩ := List.exists_mem_of_ne_nil _ (h.valid.nonempty l hl)
    obtain ⟨-, hprice⟩ := (h.valid.homed s hs l hls).2 x hx
    obtain ⟨e, he, hrecord⟩ := exists_live hv (mem_orders.mpr ⟨l, hl, hx⟩)
    have hprice' : e.2.price = x.2.price := congrArg MarketOrder.price hrecord
    exact ⟨e, he, by rw [hprice', ← hli]; exact congrArg priceToIndex hprice⟩
  · rintro ⟨e, he, hei⟩
    obtain ⟨x, hx, hrecord⟩ := exists_order hv he (hcompat.side e he)
    obtain ⟨l, hl, hxl⟩ := mem_orders.mp hx
    obtain ⟨s, hs, hls⟩ := View.mem_levels.mp hl
    obtain ⟨-, hprice⟩ := (h.valid.homed s hs l hls).2 x hxl
    have hprice' : x.2.price = e.2.price := congrArg MarketOrder.price hrecord
    exact ⟨l, hl, by rw [← hei, ← hprice']; exact (congrArg priceToIndex hprice).symm⟩

/-- **A book that follows its feed** with the blocks that the updates use up only fails at an id
that the table of orders has no entry for. -/
lemma safe_followed_update {f f' : Feed} (h : Tracks b f.live)
    (hserved : BlocksServed b.toLimitOrderBook orders levels) (htidy : f.Tidy)
    (hu : f.announce u = some f') (hlt : u.type = .add → ∀ i ∈ f.added, i < u.orderId)
    (hcompat : Compatible f.live) (hcompat' : Compatible f'.live)
    (horders : orders + addCount [u] < meMaxOrderIds) (hlevels : levels + f.opened u < meMaxPriceLevels) :
    Safe (fun e => e = .outOfRange ∧ ¬ (u.type = .add → u.orderId < meMaxOrderIds))
      (fun b' => (u.type = .add → u.orderId < meMaxOrderIds) ∧ Tracks b' f'.live ∧
        BlocksServed b'.toLimitOrderBook (orders + addCount [u]) (levels + f.opened u))
      (b.onMarketUpdate u) := by
  have hfollow := safe_announced h htidy hu hlt hcompat hcompat'
  have hclear : u.type ≠ .clear := by
    intro htype
    simp [Feed.announce, htype] at hu
  obtain ⟨v, hwf, hv⟩ := h
  have hneeded := levelsNeeded_of_contents hwf hv hcompat u.price
  have hadds : addCount [u] = if u.type = .add then 1 else 0 := by
    by_cases htype : u.type = .add <;> simp [addCount, htype]
  have hblocks := safe_served_onMarketUpdate hwf hserved hclear
  rw [hadds] at horders ⊢
  rw [Feed.opened] at hlevels ⊢
  rw [hneeded] at hblocks
  refine (hfollow.and hblocks).mono ?_ fun b' hb' =>
    ⟨fun htype => hb'.1.2 (.inl htype), hb'.1.1, hb'.2⟩
  rintro e ⟨⟨htype, he⟩, hblock⟩
  rw [if_pos htype] at horders hlevels
  rcases he with hfresh | ⟨rfl, hid⟩
  · -- there are blocks left
    exfalso
    rcases hblock htype with (rfl | rfl) | rfl | ⟨-, hfull⟩
    · simp [NoFreshBlock] at hfresh
    · simp [NoFreshBlock] at hfresh
    · simp [NoFreshBlock] at hfresh
    · exact hfull ⟨horders, hlevels⟩
  · exact ⟨rfl, fun hin => hid (hin htype)⟩

end Client

/-! ## The books of all tickers -/

/-- The updates of a stream for a ticker. -/
def updatesOf (us : List MEMarketUpdate) (t : ℕ) : List MEMarketUpdate :=
  us.filter fun u => u.tickerId = t

/-- The updates of a ticker announce the feed of the ticker. -/
lemma announceAll_updatesOf {us : List MEMarketUpdate} {fs : ℕ → Feed} (h : feedsOf us = some fs) (t : ℕ) :
    Feed.announceAll {} (updatesOf us t) = some (fs t) := feedsOf_iff.mp h t

/-- The stream leaves a block in every pool that it is counted against. -/
def LeavesBlocks (us : List MEMarketUpdate) : Prop :=
  ∀ t, addCount (updatesOf us t) < meMaxOrderIds ∧
    Feed.levelsOpened {} (updatesOf us t) < meMaxPriceLevels

/-- **The books of a client that followed a stream**, with the blocks that it uses up. -/
def Followed (us : List MEMarketUpdate) (books : ℕ → MarketOrderBook) : Prop :=
  (∀ u ∈ us, u.type = .add → u.orderId < meMaxOrderIds) ∧ ∃ fs, feedsOf us = some fs ∧
    ∀ t < meMaxTickers, Tracks (books t) (fs t).live ∧
      BlocksServed (books t).toLimitOrderBook (addCount (updatesOf us t))
        (Feed.levelsOpened {} (updatesOf us t))

/-- New books have followed nothing. -/
lemma followed_newBooks : Followed [] newBooks :=
  ⟨by simp, fun _ => {}, rfl, fun _ _ =>
    ⟨tracks_new, MemPool.served_new (by decide), MemPool.served_new (by decide)⟩⟩

/-- The updates that are left of a stream that leaves blocks find theirs. -/
lemma LeavesBlocks.room {pre post : List MEMarketUpdate} {u : MEMarketUpdate}
    (h : LeavesBlocks (pre ++ u :: post)) {fs : ℕ → Feed} (hfs : feedsOf pre = some fs) :
    addCount (updatesOf pre u.tickerId) + addCount [u] < meMaxOrderIds ∧
      Feed.levelsOpened {} (updatesOf pre u.tickerId) + (fs u.tickerId).opened u < meMaxPriceLevels := by
  have hsplit : updatesOf (pre ++ u :: post) u.tickerId =
      updatesOf pre u.tickerId ++ ([u] ++ updatesOf post u.tickerId) := by
    simp [updatesOf]
  obtain ⟨horders, hlevels⟩ := h u.tickerId
  rw [hsplit, addCount_append, addCount_append] at horders
  rw [hsplit, Feed.levelsOpened_append (announceAll_updatesOf hfs _), List.singleton_append,
    Feed.levelsOpened] at hlevels
  omega

/-- **One update**, of a stream that leaves blocks.

**Proof sketch.** The stream leaves room for the update in both pools of its book
(`LeavesBlocks.room`), so the book follows it (`safe_followed_update`) unless its id is out of the
table. Behind it the updates of its ticker are one more, so both counts are those of the longer prefix;
the other books and their updates are the same. -/
lemma Followed.safe_dispatch {us pre post : List MEMarketUpdate} {u : MEMarketUpdate}
    {books : ℕ → MarketOrderBook} (h : Followed pre books) (hstream : Stream us)
    (hsplit : us = pre ++ u :: post) (hleaves : LeavesBlocks us) (hticker : u.tickerId < meMaxTickers) :
    Safe (fun e => e = .outOfRange ∧ ¬ ∀ u ∈ us, u.type = .add → u.orderId < meMaxOrderIds)
      (Followed (pre ++ [u])) (dispatch books u) := by
  obtain ⟨hids, fs, hfs, hbooks⟩ := h
  have hpre : pre ++ [u] <+: us := ⟨post, by rw [hsplit]; simp⟩
  obtain ⟨fs', hfs'⟩ := hstream.exists_feeds hpre
  obtain ⟨fs₀, hfs₀, hannounce⟩ := feedsOf_append_singleton.mp hfs'
  obtain rfl := Option.some_inj.mp (hfs.symm.trans hfs₀)
  have hcompat := hstream.compatible pre ((List.prefix_append _ _).trans hpre) fs hfs u.tickerId
  have hcompat' := hstream.compatible _ hpre fs' hfs' u.tickerId
  obtain ⟨f, hf, rfl⟩ := Option.map_eq_some_iff.mp hannounce
  rw [Function.update_self] at hcompat'
  obtain ⟨horders, hlevels⟩ := LeavesBlocks.room (hsplit ▸ hleaves) hfs
  obtain ⟨htracks, hserved⟩ := hbooks _ hticker
  have hupdate := safe_followed_update htracks hserved (homed_feedsOf hfs _).1 hf
    (fun htype => hstream.lt_of_added hpre hfs htype) hcompat hcompat' horders hlevels
  unfold dispatch
  rw [ASSERT_of_true hticker, ok_bind]
  refine Safe.bind (hupdate.mono (fun e he => ⟨he.1, fun hall => he.2 (hall u ?_)⟩) fun _ hb => hb) ?_
  · simp [hsplit]
  rintro b' ⟨hid, htracks', hserved'⟩
  refine ⟨fun w hw => ?_, _, hfs', fun t ht => ?_⟩
  · rcases List.mem_append.mp hw with hw | hw
    · exact hids w hw
    · obtain rfl := List.mem_singleton.mp hw
      exact hid
  by_cases he : t = u.tickerId
  · subst he
    have hone : updatesOf (pre ++ [u]) u.tickerId = updatesOf pre u.tickerId ++ [u] := by
      simp [updatesOf]
    rw [Function.update_self, Function.update_self, hone, addCount_append,
      Feed.levelsOpened_append (announceAll_updatesOf hfs _), Feed.levelsOpened_singleton]
    exact ⟨htracks', hserved'⟩
  · have hnone : updatesOf (pre ++ [u]) t = updatesOf pre t := by
      simp [updatesOf, Ne.symm he]
    rw [Function.update_of_ne he, Function.update_of_ne he, hnone]
    exact hbooks t ht

/-- **The tickers of the updates** are those of the requests. -/
lemma tickers_of_run {requests : List MEClientRequest} {x : EngineState}
    (h : Meets (EngineState.process MEOrderBook.addAnnounced) EngineAdmissible {} requests)
    (hx : requests.foldlM (EngineState.process MEOrderBook.addAnnounced) {} = .ok x) :
    ∀ u ∈ x.queues.outgoingMdUpdates, u.tickerId < meMaxTickers := by
  have hstep : ∀ (x : EngineState) r x', (∀ t, ¬ t < meMaxTickers → (x.alone t).published = []) →
      EngineAdmissible x r → x.process MEOrderBook.addAnnounced r = .ok x' →
      ∀ t, ¬ t < meMaxTickers → (x'.alone t).published = [] := by
    intro x r x' hx hr hx' t ht
    obtain ⟨b', -, halone⟩ := (EngineState.safe_process local_addAnnounced x hr.1
      (safe_true _)).of_eq_ok hx'
    rw [halone, Function.update_of_ne fun he => ht (by rw [he]; exact hr.1)]
    exact hx t ht
  have hnone : ∀ t, ¬ t < meMaxTickers → (x.alone t).published = [] :=
    inv_of_foldlM hstep (fun _ _ => rfl) h hx
  intro u hu
  by_contra ht
  have hmem : u ∈ (x.alone u.tickerId).published := List.mem_filter.mpr ⟨hu, decide_eq_true rfl⟩
  rw [hnone _ ht] at hmem
  cases hmem

/-- **The updates of a run**, as a client processes them. -/
lemma safe_followed {requests : List MEClientRequest} {x : EngineState}
    (h : Meets (EngineState.process MEOrderBook.addAnnounced) EngineAdmissible {} requests)
    (hx : requests.foldlM (EngineState.process MEOrderBook.addAnnounced) {} = .ok x) :
    Safe (fun e => e = .outOfRange ∧ ¬ ∀ u ∈ x.queues.outgoingMdUpdates,
        u.type = .add → u.orderId < meMaxOrderIds)
      (Followed x.queues.outgoingMdUpdates)
      (onMarketUpdates newBooks x.queues.outgoingMdUpdates) := by
  have hcounted := (engineCounted_of_run h).of_eq_ok hx
  obtain ⟨hstream, -⟩ := EnginePublishes.stream fun t => (hcounted t).1
  have hleaves : LeavesBlocks x.queues.outgoingMdUpdates := fun t =>
    ⟨(hcounted t).2.order.lt, (hcounted t).2.level.lt⟩
  have htickers := tickers_of_run h hx
  have hrun := safe_foldlM_append followed_newBooks fun pre u post books hsplit hfollowed =>
    Followed.safe_dispatch hfollowed hstream hsplit hleaves (htickers u (by simp [hsplit]))
  exact hrun

/-- **A client that follows the exchange** through a completed run of admissible requests, with `add`
through line 105, completes exactly if the ids of all ADDs are below `ME_MAX_ORDER_IDS`, and throws
`std::out_of_range` otherwise: it never runs out of blocks before the exchange does. Once it is
through, the pools of its books have come as far as those of the exchange.

**Proof sketch.** Both sides take their next blocks from a count of the published updates: the
exchange by `engineCounted_of_run`, the client by `safe_followed`. So a block that the exchange found
is there for the client as well, and the table of ids is all that can fail. -/
theorem clients_complete {requests : List MEClientRequest} {x : EngineState}
    (h : Meets (EngineState.process MEOrderBook.addAnnounced) EngineAdmissible {} requests)
    (hx : requests.foldlM (EngineState.process MEOrderBook.addAnnounced) {} = .ok x) :
    (((∃ books, onMarketUpdates newBooks x.queues.outgoingMdUpdates = .ok books) ↔
        ∀ u ∈ x.queues.outgoingMdUpdates, u.type = .add → u.orderId < meMaxOrderIds) ∧
      (onMarketUpdates newBooks x.queues.outgoingMdUpdates = .error .outOfRange ↔
        ¬ ∀ u ∈ x.queues.outgoingMdUpdates, u.type = .add → u.orderId < meMaxOrderIds)) ∧
    ∀ books, onMarketUpdates newBooks x.queues.outgoingMdUpdates = .ok books → ∀ t < meMaxTickers,
      (books t).orderPool.nextFreeIndex = (x.tickerOrderBook t).orderPool.nextFreeIndex ∧
        (books t).ordersAtPricePool.nextFreeIndex =
          (x.tickerOrderBook t).ordersAtPricePool.nextFreeIndex := by
  have hcounted := (engineCounted_of_run h).of_eq_ok hx
  have hrun := safe_followed h hx
  refine ⟨hrun.exact fun _ hb => hb.1, fun books hbooks t ht => ?_⟩
  obtain ⟨-, fs, -, hall⟩ := hrun.of_eq_ok hbooks
  have hserved := (hall t ht).2
  exact ⟨hserved.order.next.trans (hcounted t).2.order.next.symm,
    hserved.level.next.trans (hcounted t).2.level.next.symm⟩

/-- A client follows the sample to the end. -/
theorem clients_complete_sample :
    ∃ x, sampleOrders.foldlM (EngineState.process MEOrderBook.addAnnounced) {} = .ok x ∧
      (((∃ books, onMarketUpdates newBooks x.queues.outgoingMdUpdates = .ok books) ↔
          ∀ u ∈ x.queues.outgoingMdUpdates, u.type = .add → u.orderId < meMaxOrderIds) ∧
        (onMarketUpdates newBooks x.queues.outgoingMdUpdates = .error .outOfRange ↔
          ¬ ∀ u ∈ x.queues.outgoingMdUpdates, u.type = .add → u.orderId < meMaxOrderIds)) := by
  obtain ⟨x, hx, -⟩ := (safe_true (sampleOrders.foldlM
    (EngineState.process MEOrderBook.addAnnounced) {})).exists_of_isOk (by decide)
  exact ⟨x, hx, (clients_complete meets_sampleOrders hx).1⟩

end Trading
