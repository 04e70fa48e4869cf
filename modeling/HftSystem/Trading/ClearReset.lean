import HftSystem.Trading.BookReading

set_option relaxedAutoImplicit false
set_option autoImplicit false

/-!
# A client's book after a CLEAR

Whether a book that was cleared behaves like a new one. CLEAR keeps the entries of the table of
price levels. As long as no order is added whose bucket held a level at the CLEAR, the lists are
those of a new book that processes the same updates. The first order that is added to such a bucket
is queued in a level that was freed, and is in no list of the book.

## Main definitions

* `Trading.ListsAgree` — two books have the same levels and queues.
* `Trading.Shadows` — a book that was cleared and a new one that processed the same updates.

## Main results

* `Trading.safe_shadows` — one update that avoids the stale entries.
* `Trading.not_listsAgree_of_stale` — one order that is added to a stale level.
* `Trading.clear_resets_iff` — when a CLEAR resets the book.
-/

namespace Trading

open Common Exchange LimitOrderBook PriceTime Fallible MarketOrderBook

/-- The updates about single orders: ADD, MODIFY, CANCEL and TRADE. -/
def AboutOrder (u : MEMarketUpdate) : Prop :=
  u.type = .add ∨ u.type = .modify ∨ u.type = .cancel ∨ u.type = .trade

/-- Whether an update is about an order can be evaluated. -/
instance (u : MEMarketUpdate) : Decidable (AboutOrder u) :=
  inferInstanceAs (Decidable (_ ∨ _ ∨ _ ∨ _))

/-- A CLEAR is about no order. -/
lemma AboutOrder.ne_clear {u : MEMarketUpdate} (h : AboutOrder u) : u.type ≠ .clear := by
  rcases h with h | h | h | h <;> rw [h] <;> decide

/-- **Two books have the same lists**: the same levels, and in every level the same orders. -/
def ListsAgree (b c : MarketOrderBook) : Prop :=
  ∀ s : Side, s.IsBookSide → ∃ ls, b.readSide s = .ok ls ∧ c.readSide s = .ok ls

/-- Processing the updates never fails for want of a fresh block. -/
def SuppliesFreshBlocks (b : MarketOrderBook) (us : List MEMarketUpdate) : Prop :=
  ∀ f, us.foldlM onMarketUpdate b = .error f → ¬ NoFreshBlock f

/-- What an update takes for granted depends on the contents of the book only.

**Proof sketch.** A CANCEL or a MODIFY expects an order of its id, and the orders of a view are those
that its contents list. An ADD expects that no order has its id, and that the level of its bucket has
its price and its side. The prices of the levels are in the contents, and their sides are those they
stand on. -/
lemma Expected.of_contents {v w : View MarketOrder} {u : MEMarketUpdate} (h : Expected w u)
    (hv : v.Valid) (hw : w.Valid) (hc : ∀ s, s.IsBookSide → v.contents s = w.contents s)
    (htype : u.type ≠ .clear) : Expected v u := by
  have horder : ∀ {v w : View MarketOrder}, (∀ s, s.IsBookSide → v.contents s = w.contents s) →
      ∀ x ∈ orders v.levels, ∃ y ∈ orders w.levels, y.2 = x.2 := by
    intro v w hc x hx
    obtain ⟨l, hl, hxl⟩ := mem_orders.mp hx
    obtain ⟨s, hs, hls⟩ := View.mem_levels.mp hl
    have hlisted : x.2 ∈ listed (v.contents s) :=
      mem_listed_contents.mpr ⟨x, mem_orders.mpr ⟨l, hls, hxl⟩, rfl⟩
    rw [hc s hs] at hlisted
    obtain ⟨y, hy, hyx⟩ := mem_listed_contents.mp hlisted
    obtain ⟨m, hm, hym⟩ := mem_orders.mp hy
    exact ⟨y, mem_orders.mpr ⟨m, View.mem_levels_of_side hm, hym⟩, hyx⟩
  have hnamed : (∃ x ∈ orders w.levels, x.2.orderId = u.orderId) →
      ∃ x ∈ orders v.levels, x.2.orderId = u.orderId := by
    rintro ⟨x, hx, hid⟩
    obtain ⟨y, hy, hyx⟩ := horder (fun s hs => (hc s hs).symm) x hx
    exact ⟨y, hy, hyx ▸ hid⟩
  cases ht : u.type with
  | add =>
    simp only [Expected, ht] at h ⊢
    obtain ⟨hs, hfits, hnew⟩ := h
    refine ⟨hs, fun l hl hbucket => ?_, fun x hx => ?_⟩
    · obtain ⟨s, hs, hls⟩ := View.mem_levels.mp hl
      have hmem : l.contents ∈ w.contents s := hc s hs ▸ List.mem_map_of_mem hls
      obtain ⟨m, hm, hml⟩ := List.mem_map.mp hmem
      have hprice : m.price = l.price := congrArg Prod.fst hml
      have := hfits m (View.mem_levels_of_side hm) (by rw [hprice]; exact hbucket)
      rwa [hprice, (hw.homed s hs m hm).1, ← (hv.homed s hs l hls).1] at this
    · obtain ⟨y, hy, hyx⟩ := horder hc x hx
      exact hyx ▸ hnew y hy
  | modify => simpa only [Expected, ht] using hnamed (by simpa only [Expected, ht] using h)
  | cancel => simpa only [Expected, ht] using hnamed (by simpa only [Expected, ht] using h)
  | clear => exact absurd ht htype
  | trade | invalid | snapshotStart | snapshotEnd => simp only [Expected, ht]

/-- **A book that was cleared, and a new one that processed the same updates since.** The stale
entries are those for the buckets in `S`. -/
structure Shadows (S : ℕ → Bool) (d c : MarketOrderBook) (v w : View MarketOrder) : Prop where
  cleared : WellFormed (d.hidden S) v
  fresh : WellFormed c w
  contents : ∀ s, s.IsBookSide → v.contents s = w.contents s
  stale : ∀ i, S i = true → d.priceOrdersAtPrice i ≠ none

section Step

variable {S : ℕ → Bool} {d c c' d' : MarketOrderBook} {v w : View MarketOrder} {u : MEMarketUpdate}

/-- The lists of a book that shadows another one agree with its lists. -/
lemma Shadows.listsAgree (h : Shadows S d c v w) : ListsAgree d c := fun s hs =>
  ⟨v.contents s, readSide_hidden h.cleared hs, by rw [readSide_eq h.fresh hs, h.contents s hs]⟩

/-- A new book follows a well-formed update. -/
lemma wellFormed_onMarketUpdate (h : WellFormed c w) (hu : WellFormedUpdate c u)
    (hkind : AboutOrder u) (hc' : c.onMarketUpdate u = .ok c') :
    Expected w u ∧ ∃ w', WellFormed c' w' ∧
      ∀ s, s.IsBookSide → w'.contents s = effect u s (w.contents s) := by
  have hexpected : Expected w u :=
    expected_of_wellFormedUpdate (S := fun _ => false) h hu hkind.ne_clear
  exact ⟨hexpected, (safe_onMarketUpdate h hexpected).of_eq_ok hc'⟩

/-- **An update that avoids the stale entries** does the same to both books, if the pools supply
fresh blocks. -/
theorem safe_shadows (h : Shadows S d c v w) (hu : WellFormedUpdate c u) (hkind : AboutOrder u)
    (hc' : c.onMarketUpdate u = .ok c') (hadd : u.type = .add → S (priceToIndex u.price) = false) :
    Safe NoFreshBlock (fun d' => ∃ v' w', Shadows S d' c' v' w') (d.onMarketUpdate u) := by
  obtain ⟨hexpected, w', hw', hwc⟩ := wellFormed_onMarketUpdate h.fresh hu hkind hc'
  have hexpected' := hexpected.of_contents h.cleared.valid h.fresh.valid h.contents hkind.ne_clear
  have hsafe := safe_onMarketUpdate_hidden h.cleared hexpected' hadd
  cases hd' : d.onMarketUpdate u with
  | error f =>
    rw [hd'] at hsafe
    obtain ⟨htype, hf | ⟨-, hid⟩⟩ := hsafe
    · exact hf
    · -- the new book has found an entry for the id
      simp only [Expected, htype] at hexpected
      have hlisted : record u ∈ listed (w'.contents u.side) := by
        rw [hwc u.side hexpected.1]
        simp only [effect, htype, if_true]
        exact mem_listed_insertOrder.mpr (.inl rfl)
      obtain ⟨x, hx, hrecord⟩ := mem_listed_contents.mp hlisted
      obtain ⟨l, hl, hxl⟩ := mem_orders.mp hx
      obtain ⟨k, hk, -⟩ := hw'.index x (mem_orders.mpr ⟨l, View.mem_levels_of_side hl, hxl⟩)
      rw [hrecord] at hk
      exact absurd (orderSlot_eq_some.mp hk).1 hid
  | ok d' =>
    rw [hd'] at hsafe
    obtain ⟨v', hv', hvc⟩ := hsafe
    refine ⟨v', w', hv', hw', fun s hs => ?_, fun i hi => ?_⟩
    · rw [hvc s hs, hwc s hs, h.contents s hs]
    · rw [table_onMarketUpdate (h.cleared.avoids hexpected' hadd) hd' hi]
      exact h.stale i hi

/-- The prices of a side, read after the orders were changed but not the levels.

**Proof sketch.** The prices that `readLevel` collects are those of the levels at the addresses that it
visits. Those addresses come from the best level and the links between the levels, and all of these are
the same in both books. -/
lemma map_fst_readSide {s : Side} {ls ls' : List (ℤ × List MarketOrder)}
    (hlevel : ∀ a, d'.level a = d.level a)
    (hbest : d'.bestOrdersByPrice s = d.bestOrdersByPrice s)
    (hsize : d'.ordersAtPricePool.size = d.ordersAtPricePool.size)
    (hls : d.readSide s = .ok ls) (hls' : d'.readSide s = .ok ls') :
    ls'.map Prod.fst = ls.map Prod.fst := by
  have hmapM : ∀ (b : MarketOrderBook) (as : List Ptr) (ls : List (ℤ × List MarketOrder)),
      as.mapM b.readLevel = .ok ls → ls.map Prod.fst = as.map fun a => (b.level a).price := by
    intro b as
    induction as with
    | nil =>
      intro ls hls
      cases hls
      rfl
    | cons a as ih =>
      intro ls hls
      rw [List.mapM_cons] at hls
      obtain ⟨l, hl, hls⟩ := bind_eq_ok.mp hls
      obtain ⟨q, -, hl⟩ := bind_eq_ok.mp hl
      obtain ⟨m, hm, hls⟩ := bind_eq_ok.mp hls
      cases hl
      cases hls
      rw [List.map_cons, List.map_cons, ih m hm]
  have hnext : (fun a => (d'.level a).nextEntry) = fun a => (d.level a).nextEntry :=
    funext fun a => by rw [hlevel a]
  have hprice : (fun a => (d'.level a).price) = fun a => (d.level a).price :=
    funext fun a => by rw [hlevel a]
  unfold readSide at hls hls'
  rw [hbest] at hls'
  cases hd : d.bestOrdersByPrice s with
  | none =>
    simp only [hd, Except.ok.injEq] at hls hls'
    rw [← hls, ← hls']
  | some best =>
    simp only [hd] at hls hls'
    obtain ⟨next, hn, hls⟩ := bind_eq_ok.mp hls
    obtain ⟨others, ho, hls⟩ := bind_eq_ok.mp hls
    obtain ⟨next', hn', hls'⟩ := bind_eq_ok.mp hls'
    obtain ⟨others', ho', hls'⟩ := bind_eq_ok.mp hls'
    rw [hlevel, hn] at hn'
    obtain rfl : next = next' := Except.ok.inj hn'
    rw [hnext, hsize, ho] at ho'
    obtain rfl : others = others' := Except.ok.inj ho'
    rw [hmapM d' _ _ hls', hmapM d _ _ hls, hprice]

/-- Queueing an order in a level that exists does not touch the levels. -/
lemma levels_of_appendOrder {b b' : LimitOrderBook MarketOrder ℕ} {a p : Ptr}
    (h : b.appendOrder a p = .ok b') : b'.ordersAtPricePool = b.ordersAtPricePool ∧
      b'.bidsByPrice = b.bidsByPrice ∧ b'.asksByPrice = b.asksByPrice := by
  obtain ⟨first, -, h⟩ := bind_eq_ok.mp h
  obtain ⟨last, -, h⟩ := bind_eq_ok.mp h
  cases h
  exact ⟨rfl, rfl, rfl⟩

/-- An ADD that finds a level in its bucket does not touch the levels. -/
lemma levels_of_add {a : Ptr} (htype : u.type = .add) (ha : d.getOrdersAtPrice u.price = some a)
    (hd' : d.onMarketUpdate u = .ok d') : d'.ordersAtPricePool = d.ordersAtPricePool ∧
      d'.bidsByPrice = d.bidsByPrice ∧ d'.asksByPrice = d.asksByPrice := by
  unfold onMarketUpdate at hd'
  rw [if_neg (by simp [htype])] at hd'
  obtain ⟨d₁, hd₁, hd'⟩ := bind_eq_ok.mp hd'
  rw [toLimitOrderBook_of_updateBBO hd']
  rw [applyUpdate_add d htype] at hd₁
  obtain ⟨r, hr, hd₁⟩ := bind_eq_ok.mp hd₁
  obtain ⟨book, hbook, hd₁⟩ := bind_eq_ok.mp hd₁
  cases hd₁
  obtain ⟨book', hbook', hbook⟩ := bind_eq_ok.mp hbook
  obtain ⟨hpool, hbids, hasks⟩ : book'.ordersAtPricePool = d.ordersAtPricePool ∧
      book'.bidsByPrice = d.bidsByPrice ∧ book'.asksByPrice = d.asksByPrice := by
    have hrecord : r.2.get r.1 = { order := record u } := by
      rw [((MemPool.safe_allocate _ _).of_eq_ok hr).get, Function.update_self]
    unfold enqueueOrder at hbook'
    simp only [node, hrecord] at hbook'
    have hfound : LimitOrderBook.getOrdersAtPrice { d.toLimitOrderBook with orderPool := r.2 }
        (BookOrder.price (record u)) = some a := ha
    rw [hfound] at hbook'
    exact levels_of_appendOrder (b := { d.toLimitOrderBook with orderPool := r.2 }) hbook'
  unfold setIndex at hbook
  split at hbook
  · cases hbook
    exact ⟨hpool, hbids, hasks⟩
  · cases hbook

/-- **An order that is added to a stale level is in no list** of the book that was cleared. -/
theorem not_listsAgree_of_stale (h : Shadows S d c v w) (hu : WellFormedUpdate c u)
    (htype : u.type = .add) (hS : S (priceToIndex u.price) = true)
    (hc' : c.onMarketUpdate u = .ok c') (hd' : d.onMarketUpdate u = .ok d') : ¬ ListsAgree d' c' := by
  intro hsame
  obtain ⟨hexpected, w', hw', hwc⟩ := wellFormed_onMarketUpdate h.fresh hu (.inl htype) hc'
  simp only [Expected, htype] at hexpected
  have hs := hexpected.1
  -- the new book has a level at the price of the order
  obtain ⟨ls, hdls, hcls⟩ := hsame u.side hs
  obtain rfl := Except.ok.inj ((readSide_eq hw' hs).symm.trans hcls)
  have hin : u.price ∈ (w'.contents u.side).map Prod.fst := by
    rw [hwc u.side hs]
    simp only [effect, htype, if_true]
    exact List.mem_map.mpr (exists_level_insertOrder _ _ _)
  -- the other one has the levels of before
  obtain ⟨a, ha⟩ := Option.ne_none_iff_exists'.mp (h.stale _ hS)
  obtain ⟨hpool, hbids, hasks⟩ := levels_of_add htype ha hd'
  have hprices := map_fst_readSide (fun a => by simp only [level, hpool])
    (by simp only [bestOrdersByPrice, hbids, hasks]) (by rw [hpool]) (readSide_hidden h.cleared hs) hdls
  rw [hprices, View.contents, List.map_map] at hin
  obtain ⟨l, hl, hprice⟩ := List.mem_map.mp hin
  -- but none of them is in the stale bucket
  have hfound := h.cleared.repr.shape.heap.bucket_of_mem (View.mem_levels_of_side hl) u.price
    (congrArg priceToIndex hprice)
  have hmasked : (d.hidden S).getOrdersAtPrice u.price = none := if_pos hS
  rw [hmasked] at hfound
  cases hfound

end Step

/-! ## Runs -/

/-- **The lists are the same after every part of a run exactly when every ADD avoids the stale
entries.**

**Proof sketch.** By induction on the updates. Behind an update that is no ADD to a stale entry the two
books shadow each other again (`safe_shadows`), so the rest of the run is the induction hypothesis.
Behind an ADD to a stale entry the order is in no list of the one book, and the lists disagree at once
(`not_listsAgree_of_stale`). -/
lemma listsAgree_iff {S : ℕ → Bool} {d c c' : MarketOrderBook} {us : List MEMarketUpdate}
    (h : ∃ v w, Shadows S d c v w) (hu : Meets MarketOrderBook.onMarketUpdate WellFormedUpdate c us)
    (hkind : ∀ u ∈ us, AboutOrder u) (hc' : us.foldlM onMarketUpdate c = .ok c')
    (hpool : SuppliesFreshBlocks d us) :
    (∀ pre c₁, pre <+: us → pre.foldlM onMarketUpdate c = .ok c₁ →
        ∃ d₁, pre.foldlM onMarketUpdate d = .ok d₁ ∧ ListsAgree d₁ c₁) ↔
      ∀ u ∈ us, u.type = .add → S (priceToIndex u.price) = false := by
  induction us generalizing d c with
  | nil =>
    obtain ⟨v, w, h⟩ := h
    refine iff_of_true (fun pre c₁ hpre hc₁ => ?_) (by simp)
    obtain rfl := List.prefix_nil.mp hpre
    cases hc₁
    exact ⟨d, rfl, h.listsAgree⟩
  | cons u us ih =>
    obtain ⟨v, w, h⟩ := h
    rw [List.foldlM_cons, bind_eq_ok] at hc'
    obtain ⟨c₁, hc₁, hc'⟩ := hc'
    -- the part of the run behind the first update
    have hrest : (u.type = .add → S (priceToIndex u.price) = false) →
        ∃ d₁, d.onMarketUpdate u = .ok d₁ ∧
          ((∀ pre c₂, pre <+: us → pre.foldlM onMarketUpdate c₁ = .ok c₂ →
              ∃ d₂, pre.foldlM onMarketUpdate d₁ = .ok d₂ ∧ ListsAgree d₂ c₂) ↔
            ∀ u ∈ us, u.type = .add → S (priceToIndex u.price) = false) := by
      intro hadd
      have hsafe := safe_shadows h hu.1 (hkind u (List.mem_cons_self ..)) hc₁ hadd
      cases hd₁ : d.onMarketUpdate u with
      | error f =>
        rw [hd₁] at hsafe
        exact absurd hsafe (hpool f (by rw [List.foldlM_cons, hd₁]; rfl))
      | ok d₁ =>
        rw [hd₁] at hsafe
        refine ⟨d₁, rfl, ih hsafe (hu.2 c₁ hc₁) (fun u hu => hkind u (List.mem_cons_of_mem _ hu)) hc' ?_⟩
        intro f hf
        exact hpool f (by rw [List.foldlM_cons, hd₁]; exact hf)
    constructor
    · intro hsame
      have hadd : u.type = .add → S (priceToIndex u.price) = false := by
        intro htype
        by_contra hS
        obtain ⟨d₁, hd₁, hlists⟩ := hsame [u] c₁ (by simp)
          (by rw [List.foldlM_cons, hc₁]; rfl)
        rw [List.foldlM_cons, bind_eq_ok] at hd₁
        obtain ⟨d₂, hd₂, hd₁⟩ := hd₁
        cases hd₁
        exact not_listsAgree_of_stale h hu.1 htype (by simpa using hS) hc₁ hd₂ hlists
      obtain ⟨d₁, hd₁, hiff⟩ := hrest hadd
      refine List.forall_mem_cons.mpr ⟨hadd, hiff.mp fun pre c₂ hpre hc₂ => ?_⟩
      obtain ⟨d₂, hd₂, hlists⟩ := hsame (u :: pre) c₂ (List.cons_prefix_cons.mpr ⟨rfl, hpre⟩)
        (by rw [List.foldlM_cons, hc₁]; exact hc₂)
      rw [List.foldlM_cons, hd₁] at hd₂
      exact ⟨d₂, hd₂, hlists⟩
    · intro hadd
      obtain ⟨hadd, hrestadd⟩ := List.forall_mem_cons.mp hadd
      obtain ⟨d₁, hd₁, hiff⟩ := hrest hadd
      intro pre c₂ hpre hc₂
      cases pre with
      | nil =>
        cases hc₂
        exact ⟨d, rfl, h.listsAgree⟩
      | cons u' pre =>
        obtain ⟨rfl, htail⟩ := List.cons_prefix_cons.mp hpre
        rw [List.foldlM_cons, hc₁] at hc₂
        obtain ⟨d₂, hd₂, hlists⟩ := hiff.mpr hrestadd pre c₂ htail hc₂
        exact ⟨d₂, by rw [List.foldlM_cons, hd₁]; exact hd₂, hlists⟩

/-- A run of well-formed updates about orders keeps a new book well formed. -/
lemma wellFormed_of_run {as : List MEMarketUpdate} {b : MarketOrderBook}
    (ha : Meets MarketOrderBook.onMarketUpdate WellFormedUpdate MarketOrderBook.new as)
    (hkind : ∀ u ∈ as, AboutOrder u) (hb : as.foldlM onMarketUpdate MarketOrderBook.new = .ok b) :
    ∃ v, WellFormed b v := by
  have hstep : ∀ c u c', (∃ v, WellFormed c v) → WellFormedUpdate c u ∧ AboutOrder u →
      c.onMarketUpdate u = .ok c' → ∃ v, WellFormed c' v := by
    rintro c u c' ⟨v, h⟩ ⟨hu, hkind⟩ hc'
    obtain ⟨-, v', h', -⟩ := wellFormed_onMarketUpdate h hu hkind hc'
    exact ⟨v', h'⟩
  exact inv_of_foldlM hstep ⟨_, wellFormed_new⟩ (ha.and_forall hkind) hb

/-- **A book right after its CLEAR, and a new one.** The stale buckets are those that held a
level. -/
lemma exists_shadows {b : MarketOrderBook} {v : View MarketOrder} {clear : MEMarketUpdate}
    (h : WellFormed b v) (hclear : clear.type = .clear) :
    ∃ b', b.onMarketUpdate clear = .ok b' ∧ Cleared b b' ∧
      Shadows (fun i => (b.priceOrdersAtPrice i).isSome) b' MarketOrderBook.new {} {} := by
  obtain ⟨b', hb', hcleared, htable⟩ := onMarketUpdate_clear (S := fun _ => false) hclear h
  refine ⟨b', hb', hcleared, hcleared.wellFormed fun i hi => ?_, wellFormed_new, fun _ _ => rfl,
    fun i hi => ?_⟩
  · rw [htable]
    simpa using hi
  · rw [htable]
    simpa [Option.isSome_iff_ne_none] using hi

/-- **When CLEAR resets the book.** A new book processes well-formed updates `as` and then a CLEAR.
The CLEAR succeeds and no block of the two pools is in use after it. A sequence `us` that is well
formed for a new book then has, after each of its parts, the lists that it has on a new book exactly
when it adds no order whose bucket held a level at the CLEAR. -/
theorem clear_resets_iff {as : List MEMarketUpdate} {b : MarketOrderBook} {clear : MEMarketUpdate}
    (ha : Meets MarketOrderBook.onMarketUpdate WellFormedUpdate MarketOrderBook.new as)
    (hkind : ∀ u ∈ as, AboutOrder u) (hb : as.foldlM onMarketUpdate MarketOrderBook.new = .ok b)
    (hclear : clear.type = .clear) :
    ∃ b', b.onMarketUpdate clear = .ok b' ∧ (∀ a, ¬ b'.ordersAtPricePool.InUse a) ∧
      (∀ p, ¬ b'.orderPool.InUse p) ∧
      ∀ us c', Meets MarketOrderBook.onMarketUpdate WellFormedUpdate MarketOrderBook.new us →
        (∀ u ∈ us, AboutOrder u) → us.foldlM onMarketUpdate MarketOrderBook.new = .ok c' →
        SuppliesFreshBlocks b' us →
        ((∀ pre c, pre <+: us → pre.foldlM onMarketUpdate MarketOrderBook.new = .ok c →
            ∃ d, pre.foldlM onMarketUpdate b' = .ok d ∧ ListsAgree d c) ↔
          ∀ u ∈ us, u.type = .add → ∀ a, b.ordersAtPricePool.InUse a →
            priceToIndex (b.level a).price ≠ priceToIndex u.price) := by
  obtain ⟨v, h⟩ := wellFormed_of_run ha hkind hb
  obtain ⟨b', hb', hcleared, hshadows⟩ := exists_shadows h hclear
  refine ⟨b', hb', hcleared.levels, hcleared.orders, fun us c' hu hkind hc' hpool => ?_⟩
  refine (listsAgree_iff ⟨_, _, hshadows⟩ hu hkind hc' hpool).trans ?_
  refine forall₃_congr fun u _ _ => ?_
  have heap := h.repr.shape.heap
  constructor
  · intro hfalse a ha hbucket
    obtain ⟨l, hl, rfl⟩ := mem_addrs.mp ((heap.inUse a).mp ha)
    rw [(heap.levelAt l hl).price] at hbucket
    have hfound : b.priceOrdersAtPrice (priceToIndex u.price) = some l.addr :=
      heap.bucket_of_mem hl u.price hbucket
    simp [hfound] at hfalse
  · intro hfree
    by_contra hstale
    have hne : b.priceOrdersAtPrice (priceToIndex u.price) ≠ none := by simpa using hstale
    obtain ⟨a, ha⟩ := Option.ne_none_iff_exists'.mp hne
    obtain ⟨l, hl, rfl, hprice⟩ := (heap.bucket _ _).mp ha
    refine hfree l.addr ((heap.inUse _).mpr (mem_addrs.mpr ⟨l, hl, rfl⟩)) ?_
    rw [(heap.levelAt l hl).price, hprice]

/-! ## An order at the price of a level that was cleared -/

/-- A pool without blocks in use supplies its next block, if that is not the last one. -/
lemma exists_allocate {T : Type} {pool : MemPool T} (hfree : ∀ i, ¬ pool.InUse i)
    (hsize : pool.nextFreeIndex + 1 < pool.size) (x : T) : ∃ r, pool.allocate x = .ok r := by
  have hisFree : ∀ i < pool.size, (pool.store i).isFree = true := fun i hi => by
    by_contra hne
    exact hfree i ⟨hi, by simpa using hne⟩
  obtain ⟨n, hn⟩ : ∃ n, pool.size - pool.nextFreeIndex = n + 2 :=
    ⟨pool.size - pool.nextFreeIndex - 2, by omega⟩
  have hne : pool.nextFreeIndex + 1 ≠ pool.size := by omega
  simp [MemPool.allocate, MemPool.block, ASSERT, MemPool.updateNextFreeIndex, MemPool.scan, hn, hne,
    hisFree _ hsize, hisFree pool.nextFreeIndex (by omega), show pool.nextFreeIndex < pool.size by omega]

/-- Following a pointer fails only if it is null. -/
lemma safe_deref (x : Option Ptr) : Safe (fun f => f = .nullPointer) (fun _ => True) (deref x) := by
  cases x with
  | none => rfl
  | some p => trivial

/-- **An ADD to a stale level of a cleared book** fails for no want of a block.

**Proof sketch.** The ADD finds a level in its bucket, so it is queued there and no level is opened.
Its order has a block, since the pool of orders has a fresh one. The queue of the level is followed by
pointers that may be null, and the table of orders may have no entry for the id. -/
lemma safe_add_stale {b b' : MarketOrderBook} {u : MEMarketUpdate} (hcleared : Cleared b b')
    (hsize : b.orderPool.nextFreeIndex + 1 < b.orderPool.size) (htype : u.type = .add)
    (ha : b'.getOrdersAtPrice u.price ≠ none) :
    Safe (fun f => f = .nullPointer ∨ f = .outOfRange) (fun _ => True) (b'.onMarketUpdate u) := by
  have hbid : b'.bidUpdated u = false := by simp only [bidUpdated, hcleared.bids]
  have hask : b'.askUpdated u = false := by simp only [askUpdated, hcleared.asks]
  obtain ⟨a, ha⟩ := Option.ne_none_iff_exists'.mp ha
  obtain ⟨r, hr⟩ := exists_allocate hcleared.orders (by rw [hcleared.size, hcleared.next]; exact hsize)
    ({ order := record u } : OrderNode MarketOrder)
  have hrecord : r.2.get r.1 = { order := record u } := by
    rw [((MemPool.safe_allocate _ _).of_eq_ok hr).get, Function.update_self]
  set book : LimitOrderBook MarketOrder ℕ := { b'.toLimitOrderBook with orderPool := r.2 } with hbook
  have hfound : book.getOrdersAtPrice (BookOrder.price (book.node r.1).order) = some a := by
    simp only [node, hbook, hrecord]
    exact ha
  have hadd : Safe (fun f => f = .nullPointer ∨ f = .outOfRange) (fun _ => True)
      (book.addOrder r.1) := by
    have henqueue : Safe (fun f => f = .nullPointer ∨ f = .outOfRange) (fun _ => True)
        (book.enqueueOrder r.1) := by
      unfold enqueueOrder
      rw [hfound]
      have hderef : ∀ x, Safe (fun f => f = .nullPointer ∨ f = .outOfRange) (fun _ => True) (deref x) :=
        fun x => (safe_deref x).mono (fun _ hf => .inl hf) fun _ h => h
      exact (hderef _).bind fun _ _ => (hderef _).bind fun _ _ => trivial
    refine henqueue.bind fun book' _ => ?_
    unfold setIndex
    split
    · trivial
    · exact .inr rfl
  unfold onMarketUpdate
  rw [if_neg (by simp [htype]), hbid, hask, applyUpdate_add b' htype, hr, ok_bind]
  have happly : Safe (fun f => f = .nullPointer ∨ f = .outOfRange) (fun _ => True)
      (MarketOrderBook.onBook { b' with orderPool := r.2 } fun book => book.addOrder r.1) :=
    hadd.bind fun _ _ => trivial
  exact happly.bind fun _ _ => trivial

/-- A CLEAR. -/
def clearUpdate : MEMarketUpdate :=
  { type := .clear, orderId := OrderId.invalid, tickerId := 0, side := .invalid,
    price := Price.invalid, qty := Qty.invalid, priority := Priority.invalid }

/-- Such runs exist. -/
theorem clear_resets_after_bid : ∃ b, [firstBid].foldlM onMarketUpdate MarketOrderBook.new = .ok b ∧
    ∃ b', b.onMarketUpdate clearUpdate = .ok b' ∧ (∀ a, ¬ b'.ordersAtPricePool.InUse a) ∧
      (∀ p, ¬ b'.orderPool.InUse p) ∧
      ∀ us c', Meets MarketOrderBook.onMarketUpdate WellFormedUpdate MarketOrderBook.new us →
        (∀ u ∈ us, AboutOrder u) → us.foldlM onMarketUpdate MarketOrderBook.new = .ok c' →
        SuppliesFreshBlocks b' us →
        ((∀ pre c, pre <+: us → pre.foldlM onMarketUpdate MarketOrderBook.new = .ok c →
            ∃ d, pre.foldlM onMarketUpdate b' = .ok d ∧ ListsAgree d c) ↔
          ∀ u ∈ us, u.type = .add → ∀ a, b.ordersAtPricePool.InUse a →
            priceToIndex (b.level a).price ≠ priceToIndex u.price) := by
  obtain ⟨b, hb, -⟩ := (show Safe (fun _ => False) (fun _ => True)
    ([firstBid].foldlM onMarketUpdate MarketOrderBook.new) by decide +kernel).exists_ok
  exact ⟨b, hb, clear_resets_iff wellFormedUpdate_firstBid (by decide) hb rfl⟩

/-- **A level that was cleared takes the orders at its price.** The second bid at 10, after the
CLEAR, is in no list of the book, while a new book lists it. -/
theorem second_bid_not_listed :
    Meets MarketOrderBook.onMarketUpdate WellFormedUpdate MarketOrderBook.new [firstBid] ∧
      ∃ b b' c, [firstBid].foldlM onMarketUpdate MarketOrderBook.new = .ok b ∧
        b.onMarketUpdate clearUpdate = .ok b' ∧
        [firstBid].foldlM onMarketUpdate MarketOrderBook.new = .ok c ∧
        SuppliesFreshBlocks b' [firstBid] ∧
        ¬ ∃ d, [firstBid].foldlM onMarketUpdate b' = .ok d ∧ ListsAgree d c := by
  refine ⟨wellFormedUpdate_firstBid, ?_⟩
  obtain ⟨b, hb, hnext, hsize, hbucket⟩ := (show Safe (fun _ => False) (fun b : MarketOrderBook =>
    b.orderPool.nextFreeIndex = 1 ∧ b.orderPool.size = meMaxOrderIds ∧
      b.getOrdersAtPrice 10 = some 0)
    (MarketOrderBook.new.onMarketUpdate firstBid) by decide +kernel).exists_ok
  have hrun : ∀ c d : MarketOrderBook, c.onMarketUpdate firstBid = .ok d ↔
      [firstBid].foldlM onMarketUpdate c = .ok d := fun c d => by
    rw [List.foldlM_cons, bind_eq_ok]
    refine ⟨fun h => ⟨d, h, rfl⟩, ?_⟩
    rintro ⟨e, he, hed⟩
    exact Except.ok.inj hed ▸ he
  obtain ⟨v, hv⟩ := wellFormed_of_run wellFormedUpdate_firstBid (by decide) ((hrun _ b).mp hb)
  obtain ⟨b', hb', hcleared, hshadows⟩ := exists_shadows hv (show clearUpdate.type = .clear from rfl)
  have hstale : (b.priceOrdersAtPrice (priceToIndex firstBid.price)).isSome = true :=
    Option.isSome_iff_exists.mpr ⟨0, hbucket⟩
  refine ⟨b, b', b, (hrun _ b).mp hb, hb', (hrun _ b).mp hb, fun f hf => ?_, ?_⟩
  · have hsafe := safe_add_stale (u := firstBid) hcleared (by rw [hnext, hsize]; decide) rfl
      (hshadows.stale _ hstale)
    cases hd : b'.onMarketUpdate firstBid with
    | error g =>
      rw [List.foldlM_cons, hd] at hf
      obtain rfl : g = f := Except.error.inj hf
      rw [hd] at hsafe
      rcases hsafe with rfl | rfl <;> simp [NoFreshBlock]
    | ok d =>
      rw [List.foldlM_cons, hd] at hf
      cases hf
  · rintro ⟨d, hd, hagree⟩
    exact not_listsAgree_of_stale hshadows wellFormedUpdate_firstBid.1 rfl hstale hb
      ((hrun b' d).mpr hd) hagree

end Trading
