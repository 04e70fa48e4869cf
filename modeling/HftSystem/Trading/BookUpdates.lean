import HftSystem.Common.BookView
import HftSystem.Trading.MarketOrderBook

set_option relaxedAutoImplicit false
set_option autoImplicit false

/-!
# What market updates do to a client's book

Every update edits the contents of the two sides as its name says: an ADD inserts an order by
price and time, a MODIFY changes a quantity in place, and a CANCEL drops an order. `effect` is
this abstract book, and `safe_onMarketUpdate` says that the pools, lists and tables of a
well-formed book follow it.

## Main definitions

* `Trading.WellFormed` — the book represents a valid view, and its table finds every order.
* `Trading.effect` — an update on the contents of a side.
* `Trading.Expected` — what an update takes for granted about the book.

## Main results

* `Trading.updateBBO_eq` — the best bid and offer are refreshed from the best levels.
* `Trading.safe_onMarketUpdate` — the book follows an expected update.
-/

namespace Trading

open Common Exchange LimitOrderBook PriceTime Fallible MarketOrderBook

/-- A well-formed book: it represents a valid view, and the table of identifiers has every order
of the view. -/
structure WellFormed (b : MarketOrderBook) (v : View MarketOrder) : Prop where
  repr : Represents b.toLimitOrderBook v
  valid : v.Valid
  index : ∀ x ∈ orders v.levels, ∃ k, orderSlot x.2.orderId = some k ∧ b.orderIndex k = some x.1

/-- The ids that the table has an entry for. -/
lemma orderSlot_eq_some {orderId k : ℕ} :
    orderSlot orderId = some k ↔ orderId < meMaxOrderIds ∧ orderId = k := by
  simp [orderSlot]

/-- A new book is well formed. -/
lemma wellFormed_new : WellFormed MarketOrderBook.new {} := by
  refine ⟨⟨⟨fun s hs => ?_, ⟨?_, ?_, ?_, ?_, ?_⟩⟩, ⟨?_, ?_, ?_⟩⟩, View.valid_empty, ?_⟩
  · rcases hs with rfl | rfl <;> exact ⟨rfl, trivial⟩
  all_goals simp [View.levels, ptrs, MarketOrderBook.new]

/-- A well-formed book stays so when only the best bid and offer change. -/
lemma WellFormed.of_book {b b' : MarketOrderBook} {v : View MarketOrder} (h : WellFormed b v)
    (hb : b'.toLimitOrderBook = b.toLimitOrderBook) : WellFormed b' v :=
  ⟨hb ▸ h.repr, h.valid, hb ▸ h.index⟩

/-- Market order ids name orders of the book uniquely. -/
lemma WellFormed.eq_of_orderId {b : MarketOrderBook} {v : View MarketOrder} (h : WellFormed b v)
    {x y : Ptr × MarketOrder} (hx : x ∈ orders v.levels) (hy : y ∈ orders v.levels)
    (he : x.2.orderId = y.2.orderId) : x = y := by
  obtain ⟨k, hk, hxk⟩ := h.index x hx
  obtain ⟨k', hk', hyk⟩ := h.index y hy
  rw [he, hk'] at hk
  obtain rfl := Option.some_inj.mp hk
  exact h.repr.shape.heap.eq_of_ptr hx hy (Option.some_inj.mp (hxk.symm.trans hyk))

/-! ## The best bid and offer -/

/-- The `uint32_t` sum of the quantities of a queue. -/
def queueQty : List (Ptr × MarketOrder) → ℕ
  | [] => 0
  | x :: q => (q.map fun y => y.2.qty).foldl addQty x.2.qty

/-- The price and the quantity that the best level of a side shows. -/
def top : List (Level MarketOrder) → ℤ × ℕ
  | [] => (Price.invalid, Qty.invalid)
  | l :: _ => (l.price, queueQty l.queue)

/-- **The loop over the best level** terminates and sums up its quantities. -/
lemma topOfBook_eq {b : MarketOrderBook} {v : View MarketOrder} (h : WellFormed b v) {s : Side}
    (hs : s.IsBookSide) : b.topOfBook (b.bestOrdersByPrice s) = .ok (top (v.side s)) := by
  have hbest := (h.repr.shape.spine s hs).best
  cases hside : v.side s with
  | nil =>
    rw [hbest, hside]
    rfl
  | cons l ls =>
    have hl : l ∈ v.side s := by simp [hside]
    have hat := h.repr.shape.levelAt hl
    have hl := View.mem_levels_of_side hl
    obtain ⟨x, q, hq⟩ := List.exists_cons_of_ne_nil (h.valid.nonempty l hl)
    obtain ⟨hfirst, y, hnext, hwalk⟩ := h.repr.walk_queue hl hq
    have hqty : ∀ z ∈ l.queue, (b.node z.1).order.qty = z.2.qty := fun z hz => by
      rw [hat.record z hz]
    have hothers : (q.map Prod.fst).map (fun p => (b.node p).order.qty) = q.map fun z => z.2.qty := by
      rw [List.map_map]
      exact List.map_congr_left fun z hz => hqty z (by simp [hq, hz])
    rw [hbest, hside]
    simp only [topOfBook, levelQty, addrs_cons, List.head?_cons, hfirst, deref_some, ok_bind, hnext,
      hwalk, hothers, hqty x (by simp [hq]), hat.price]
    rw [top, hq]
    rfl

/-- The best bid and offer after a refresh. -/
def BBO.refresh (bbo : BBO) (v : View MarketOrder) (updateBid updateAsk : Bool) : BBO where
  bidPrice := if updateBid then (top v.bids).1 else bbo.bidPrice
  askPrice := if updateAsk then (top v.asks).1 else bbo.askPrice
  bidQty := if updateBid then (top v.bids).2 else bbo.bidQty
  askQty := if updateAsk then (top v.asks).2 else bbo.askQty

/-- **`updateBBO`** never fails and refreshes what it is told to. -/
theorem updateBBO_eq {b : MarketOrderBook} {v : View MarketOrder} (h : WellFormed b v)
    (updateBid updateAsk : Bool) :
    b.updateBBO updateBid updateAsk = .ok { b with bbo := b.bbo.refresh v updateBid updateAsk } := by
  have hb : ∀ bbo, WellFormed { b with bbo } v := fun _ => h.of_book rfl
  have hbid : ∀ bbo, MarketOrderBook.topOfBook { b with bbo } b.bidsByPrice = .ok (top v.bids) :=
    fun bbo => topOfBook_eq (hb bbo) (s := .buy) (.inl rfl)
  have hask : ∀ bbo, MarketOrderBook.topOfBook { b with bbo } b.asksByPrice = .ok (top v.asks) :=
    fun bbo => topOfBook_eq (hb bbo) (s := .sell) (.inr rfl)
  have hbid' := hbid b.bbo
  cases updateBid <;> cases updateAsk <;>
    simp [updateBBO, MarketOrderBook.updateBid, updateAsk, BBO.refresh, hbid', hask]

/-! ## The abstract book -/

/-- Set the quantity of the order with an id. -/
def setQty (orderId qty : ℕ) (o : MarketOrder) : MarketOrder :=
  if o.orderId = orderId then { o with qty } else o

/-- **What an update does to the contents of a side.** -/
def effect (u : MEMarketUpdate) (s : Side) (ls : List (ℤ × List MarketOrder)) :
    List (ℤ × List MarketOrder) :=
  match u.type with
  | .add => if u.side = s then insertOrder (isBetter s) u.price (record u) ls else ls
  | .modify => mapOrders (setQty u.orderId u.qty) ls
  | .cancel => keepOrders (fun o => o.orderId ≠ u.orderId) ls
  | .clear => []
  | .trade | .invalid | .snapshotStart | .snapshotEnd => ls

/-- What an update takes for granted: an ADD has a new id and no foreign level in its bucket,
MODIFY and CANCEL name an order of the book, and a CLEAR finds an empty book. -/
def Expected (v : View MarketOrder) (u : MEMarketUpdate) : Prop :=
  match u.type with
  | .add => u.side.IsBookSide ∧ v.Fits (record u) ∧ ∀ x ∈ orders v.levels, x.2.orderId ≠ u.orderId
  | .modify | .cancel => ∃ x ∈ orders v.levels, x.2.orderId = u.orderId
  | .clear => v.bids = [] ∧ v.asks = []
  | .trade | .invalid | .snapshotStart | .snapshotEnd => True

section Split

variable {b : MarketOrderBook} {v : View MarketOrder} {s : Side} {l : Level MarketOrder}
  {l₁ l₂ : List (Level MarketOrder)} {q₁ q₂ : List (Ptr × MarketOrder)} {x : Ptr × MarketOrder}

/-- The other orders of the side of an order have other ids. -/
lemma WellFormed.orderId_ne (h : WellFormed b v) (hv : v.side s = l₁ ++ l :: l₂)
    (hq : l.queue = q₁ ++ x :: q₂) :
    ∀ o ∈ listed (l₁.map Level.contents) ++ (q₁.map Prod.snd ++ q₂.map Prod.snd) ++
      listed (l₂.map Level.contents), o.orderId ≠ x.2.orderId := by
  have hl : l ∈ v.side s := by simp [hv]
  have hx : x ∈ orders v.levels :=
    mem_orders.mpr ⟨l, View.mem_levels_of_side hl, by simp [hq]⟩
  have hperm : (orders v.levels).Perm
      (x :: orders (v.set s (l₁ ++ (l.withQueue (q₁ ++ q₂) ++ l₂))).levels) := orders_remove hv hq
  have hnd := (hperm.map Prod.fst).nodup_iff.mp h.repr.shape.heap.ptr_nodup
  intro o ho he
  obtain ⟨y, hy, rfl⟩ : ∃ y ∈ orders (v.set s (l₁ ++ (l.withQueue (q₁ ++ q₂) ++ l₂))).levels,
      y.2 = o := by
    have hmem : ∃ y ∈ orders (l₁ ++ (l.withQueue (q₁ ++ q₂) ++ l₂)), y.2 = o := by
      simp only [List.mem_append, mem_listed_contents, List.mem_map] at ho
      simp only [orders_append, Level.orders_withQueue, List.mem_append]
      rcases ho with (⟨y, hy, ho⟩ | ⟨y, hy, ho⟩ | ⟨y, hy, ho⟩) | ⟨y, hy, ho⟩ <;>
        exact ⟨y, by tauto, ho⟩
    obtain ⟨y, hy, ho⟩ := hmem
    obtain ⟨m, hm, hym⟩ := mem_orders.mp hy
    exact ⟨y, mem_orders.mpr ⟨m, View.mem_levels_of_side (s := s) (by simpa using hm), hym⟩, ho⟩
  have hyx := h.eq_of_orderId (hperm.mem_iff.mpr (List.mem_cons_of_mem _ hy)) hx he
  subst hyx
  exact (List.nodup_cons.mp hnd).1 (List.mem_map_of_mem hy)

/-- The orders of the other side have other ids, too. -/
lemma WellFormed.orderId_ne_of_side (h : WellFormed b v) {s' : Side} (hs : s.IsBookSide)
    (hs' : s'.IsBookSide) (hne : s' ≠ s) (hv : v.side s = l₁ ++ l :: l₂)
    (hq : l.queue = q₁ ++ x :: q₂) : ∀ o ∈ listed (v.contents s'), o.orderId ≠ x.2.orderId := by
  intro o ho he
  obtain ⟨y, hy, rfl⟩ := mem_listed_contents.mp ho
  obtain ⟨m, hm, hym⟩ := mem_orders.mp hy
  have hx : x ∈ l.queue := by simp [hq]
  have hl : l ∈ v.side s := by simp [hv]
  have hyx := h.eq_of_orderId (mem_orders.mpr ⟨m, View.mem_levels_of_side hm, hym⟩)
    (mem_orders.mpr ⟨l, View.mem_levels_of_side hl, hx⟩) he
  subst hyx
  have h₁ := ((h.valid.homed s' hs' m hm).2 y hym).1
  have h₂ := ((h.valid.homed s hs l hl).2 y hx).1
  exact hne (h₁.symm.trans h₂)

end Split

section Effect

variable {b : MarketOrderBook} {v : View MarketOrder} {s : Side} {u : MEMarketUpdate}
  {c₁ c₂ : List (ℤ × List MarketOrder)} {p : ℤ} {a₁ a₂ : List MarketOrder} {o : MarketOrder}

/-- A MODIFY of an order of a side, on the contents of both sides. -/
lemma effect_modify (h : WellFormed b v) (hs : s.IsBookSide)
    (hc : v.contents s = c₁ ++ (p, a₁ ++ o :: a₂) :: c₂) (htype : u.type = .modify)
    (hid : o.orderId = u.orderId) :
    effect u s (v.contents s) = c₁ ++ (p, a₁ ++ { o with qty := u.qty } :: a₂) :: c₂ ∧
      ∀ s', s'.IsBookSide → s' ≠ s → effect u s' (v.contents s') = v.contents s' := by
  obtain ⟨l, l₁, l₂, q₁, q₂, x, hv, hq, rfl, rfl, rfl, rfl, rfl, rfl⟩ := exists_of_contents hc
  simp only [effect, htype]
  refine ⟨?_, fun s' hs' he => mapOrders_of_forall fun o ho => ?_⟩
  · rw [hc, mapOrders_split, setQty, if_pos hid]
    intro o ho
    rw [setQty, if_neg (hid ▸ h.orderId_ne hv hq o ho)]
  · rw [setQty, if_neg (hid ▸ h.orderId_ne_of_side hs hs' he hv hq o ho)]

/-- A CANCEL of an order of a side, on the contents of both sides. -/
lemma effect_cancel (h : WellFormed b v) (hs : s.IsBookSide)
    (hc : v.contents s = c₁ ++ (p, a₁ ++ o :: a₂) :: c₂) (htype : u.type = .cancel)
    (hid : o.orderId = u.orderId) :
    effect u s (v.contents s) = c₁ ++ consLevel p (a₁ ++ a₂) c₂ ∧
      ∀ s', s'.IsBookSide → s' ≠ s → effect u s' (v.contents s') = v.contents s' := by
  obtain ⟨l, l₁, l₂, q₁, q₂, x, hv, hq, rfl, rfl, rfl, rfl, rfl, rfl⟩ := exists_of_contents hc
  have hne : ∀ s', ∀ c ∈ v.contents s', c.2 ≠ [] := fun s' c hc => by
    obtain ⟨m, hm, rfl⟩ := List.mem_map.mp hc
    simpa [Level.contents] using h.valid.nonempty m (View.mem_levels_of_side hm)
  simp only [effect, htype]
  refine ⟨?_, fun s' hs' he => keepOrders_of_forall (hne s') fun o ho => ?_⟩
  · rw [hc, keepOrders_split]
    · intro c hcm
      refine hne s c ?_
      rw [hc]
      rcases List.mem_append.mp hcm with hcm | hcm <;> simp [hcm]
    · simp [hid]
    · intro o ho
      simpa [hid] using h.orderId_ne hv hq o ho
  · simpa [hid] using h.orderId_ne_of_side hs hs' he hv hq o ho

end Effect

/-! ## The operations -/

/-- An operation of the shared book that succeeds. -/
lemma onBook_eq {b : MarketOrderBook} {book : LimitOrderBook MarketOrder ℕ}
    {f : LimitOrderBook MarketOrder ℕ → Except Fault (LimitOrderBook MarketOrder ℕ)}
    (h : f b.toLimitOrderBook = .ok book) :
    b.onBook f = .ok { b with toLimitOrderBook := book } := by
  simp only [onBook, h, ok_bind]
  rfl

/-- The order that a MODIFY or CANCEL names. -/
lemma orderAt_eq {b : MarketOrderBook} {v : View MarketOrder} (h : WellFormed b v) {orderId : ℕ}
    (hid : ∃ x ∈ orders v.levels, x.2.orderId = orderId) :
    ∃ (s : Side) (l : Level MarketOrder) (l₁ l₂ : List (Level MarketOrder))
      (q₁ q₂ : List (Ptr × MarketOrder)) (x : Ptr × MarketOrder), s.IsBookSide ∧
      v.side s = l₁ ++ l :: l₂ ∧ l.queue = q₁ ++ x :: q₂ ∧ x.2.orderId = orderId ∧
      x.2.side = s ∧ x.2.price = l.price ∧ b.orderAt orderId = .ok x.1 := by
  obtain ⟨x, hx, rfl⟩ := hid
  obtain ⟨l, hl, hxl⟩ := mem_orders.mp hx
  obtain ⟨s, hs, hl⟩ := View.mem_levels.mp hl
  obtain ⟨l₁, l₂, hv⟩ := List.append_of_mem hl
  obtain ⟨q₁, q₂, hq⟩ := List.append_of_mem hxl
  obtain ⟨hside, hprice⟩ := (h.valid.homed s hs l hl).2 x hxl
  obtain ⟨k, hk, hindex⟩ := h.index x hx
  refine ⟨s, l, l₁, l₂, q₁, q₂, x, hs, hv, hq, rfl, hside, hprice, ?_⟩
  simp only [orderAt, hk, hindex, deref_some]

/-- **ADD** places the order, whatever level the bucket of its price holds. -/
lemma safe_add_placed {b : MarketOrderBook} {v : View MarketOrder} (h : WellFormed b v)
    {u : MEMarketUpdate} (htype : u.type = .add) (hs : u.side.IsBookSide) :
    Safe (fun f => NoFreshBlock f ∨ f = .outOfRange ∧ ¬ u.orderId < meMaxOrderIds)
      (fun b' => ∃ v', Represents b'.toLimitOrderBook v' ∧ ∃ p, Placed v p (record u) v' ∧
        ∃ k, orderSlot u.orderId = some k ∧
          b'.orderIndex = Function.update b.orderIndex k (some p))
      (b.applyUpdate u) := by
  simp only [applyUpdate, htype]
  refine Safe.bind ((safe_holdOrder h.repr (record u) (MemPool.safe_allocate _ _)).mono
    (fun _ hf => .inl hf) fun _ hr => hr) ?_
  rintro ⟨p, pool⟩ hold
  have hadd := safe_addOrder hold hs h.valid.nonempty
  cases hbook : LimitOrderBook.addOrder { b.toLimitOrderBook with orderPool := pool } p with
  | error f =>
    rw [hbook] at hadd
    simp only [onBook, hbook]
    refine hadd.imp_right fun ⟨hf, hslot⟩ => ⟨hf, fun hlt => ?_⟩
    have hsome : orderSlot u.orderId = some u.orderId := orderSlot_eq_some.mpr ⟨hlt, rfl⟩
    exact absurd (hsome.symm.trans hslot) (by simp)
  | ok book =>
    rw [hbook] at hadd
    obtain ⟨k, v', hk, hindex, hplaced, hrep⟩ := hadd
    rw [onBook_eq (b := { b with orderPool := pool }) hbook]
    exact ⟨v', hrep, p, hplaced, k, hk, hindex⟩

/-- **ADD** inserts the order. -/
lemma safe_add {b : MarketOrderBook} {v : View MarketOrder} (h : WellFormed b v)
    {u : MEMarketUpdate} (htype : u.type = .add) (hu : Expected v u) :
    Safe (fun f => NoFreshBlock f ∨ f = .outOfRange ∧ ¬ u.orderId < meMaxOrderIds)
      (fun b' => ∃ v', WellFormed b' v' ∧
        ∀ s, s.IsBookSide → v'.contents s = effect u s (v.contents s))
      (b.applyUpdate u) := by
  simp only [Expected, htype] at hu
  obtain ⟨hs, hfits, hnew⟩ := hu
  refine (safe_add_placed h htype hs).mono (fun _ hf => hf) ?_
  rintro b' ⟨v', hrep, p, hplaced, k, hk, hindex⟩
  obtain ⟨hvalid, hcontents, hother⟩ := hplaced.contents h.valid hs hfits
  refine ⟨v', ⟨hrep, hvalid, fun x hx => ?_⟩, fun s hs' => ?_⟩
  · rw [hindex]
    rcases List.mem_cons.mp (hplaced.orders_perm.mem_iff.mp hx) with rfl | hx
    · exact ⟨k, hk, Function.update_self _ _ _⟩
    · obtain ⟨k', hk', hxk⟩ := h.index x hx
      refine ⟨k', hk', ?_⟩
      have hne : k' ≠ k := by
        rw [← (orderSlot_eq_some.mp hk').2, ← (orderSlot_eq_some.mp hk).2]
        exact hnew x hx
      rw [Function.update_of_ne hne]
      exact hxk
  · simp only [effect, htype]
    split
    · next he => exact he ▸ hcontents
    · next he =>
      rw [View.contents, hother s hs' (fun hx => he hx.symm)]
      rfl

/-- **MODIFY** changes the quantity of the order. -/
lemma modify_eq {b : MarketOrderBook} {v : View MarketOrder} (h : WellFormed b v)
    {u : MEMarketUpdate} (htype : u.type = .modify) (hu : Expected v u) :
    ∃ b' v', b.applyUpdate u = .ok b' ∧ WellFormed b' v' ∧
      ∀ s, s.IsBookSide → v'.contents s = effect u s (v.contents s) := by
  simp only [Expected, htype] at hu
  obtain ⟨s, l, l₁, l₂, q₁, q₂, x, hs, hv, hq, hid, hside, hprice, hat⟩ := orderAt_eq h hu
  set f : MarketOrder → MarketOrder := fun o => { o with qty := u.qty } with hf
  have hrep := h.repr.modifyOrder (f := f) hs hv hq rfl
  have hvalid := h.valid.modify (y := (x.1, f x.2)) hs hv hq rfl rfl
  refine ⟨{ b with toLimitOrderBook := b.modifyOrder x.1 f }, _, ?_, ⟨hrep, hvalid, fun y hy => ?_⟩,
    fun s' hs' => ?_⟩
  · simp only [applyUpdate, htype, hat, ok_bind]
    rfl
  · -- the orders are those of before, one with another quantity
    have hmem : ∃ z ∈ orders v.levels, z.1 = y.1 ∧ z.2.orderId = y.2.orderId := by
      obtain ⟨m, hm, hym⟩ := mem_orders.mp hy
      rcases List.mem_cons.mp ((v.levels_set_perm s l₁ [_] l₂).mem_iff.mp hm) with rfl | hm
      · have hl : l ∈ v.levels := View.mem_levels_of_side (s := s) (by simp [hv])
        rcases List.mem_append.mp hym with hym | hym
        · exact ⟨y, mem_orders.mpr ⟨l, hl, by simp [hq, hym]⟩, rfl, rfl⟩
        · rcases List.mem_cons.mp hym with rfl | hym
          · exact ⟨x, mem_orders.mpr ⟨l, hl, by simp [hq]⟩, rfl, rfl⟩
          · exact ⟨y, mem_orders.mpr ⟨l, hl, by simp [hq, hym]⟩, rfl, rfl⟩
      · exact ⟨y, mem_orders.mpr ⟨m,
          (View.levels_perm_cons hv).mem_iff.mpr (List.mem_cons_of_mem _ hm), hym⟩, rfl, rfl⟩
    obtain ⟨z, hz, hzy, hzid⟩ := hmem
    rw [← hzy, ← hzid]
    exact h.index z hz
  · obtain ⟨hself, hother⟩ := effect_modify h hs (contents_split hv hq) htype hid
    by_cases he : s' = s
    · rw [he, hself, View.contents_set_self]
      simp [Level.contents, hf]
    · rw [hother s' hs' he, View.contents, View.side_set_of_ne _ _ hs hs' he]
      rfl

/-- **CANCEL** drops the order.

**Proof sketch.** The table leads to the order that the update names (`orderAt_eq`), and removing it
leaves the view without it (`removeOrder_spec`). The entries of the other orders are other ones, since
no id is listed twice. On the contents of the sides this is the effect of the update (`effect_cancel`). -/
lemma cancel_eq {b : MarketOrderBook} {v : View MarketOrder} (h : WellFormed b v)
    {u : MEMarketUpdate} (htype : u.type = .cancel) (hu : Expected v u) :
    ∃ b' v', b.applyUpdate u = .ok b' ∧ WellFormed b' v' ∧
      ∀ s, s.IsBookSide → v'.contents s = effect u s (v.contents s) := by
  simp only [Expected, htype] at hu
  obtain ⟨s, l, l₁, l₂, q₁, q₂, x, hs, hv, hq, hid, hside, hprice, hat⟩ := orderAt_eq h hu
  obtain ⟨book, k, hbook, hk, hindex, hrep⟩ := removeOrder_spec h.repr hs hv hq
      (fun _ => iff_of_eq (congrArg (· = Side.buy) hside))
    (congrArg priceToIndex hprice.symm)
  have hvalid := h.valid.remove (q := q₁ ++ q₂) hs hv fun y hy => by
    rw [hq]
    simp only [List.mem_append, List.mem_cons] at hy ⊢
    tauto
  have hperm := orders_remove hv hq
  refine ⟨{ b with toLimitOrderBook := book }, _, ?_, ⟨hrep, hvalid, fun y hy => ?_⟩,
    fun s' hs' => ?_⟩
  · simp only [applyUpdate, htype, hat, ok_bind]
    exact onBook_eq hbook
  · have hyv := hperm.mem_iff.mpr (List.mem_cons_of_mem x hy)
    obtain ⟨k', hk', hyk⟩ := h.index y hyv
    refine ⟨k', hk', ?_⟩
    have hne : k' ≠ k := by
      rintro rfl
      have hnd := (hperm.map Prod.fst).nodup_iff.mp h.repr.shape.heap.ptr_nodup
      have hyx := h.eq_of_orderId hyv (hperm.mem_iff.mpr (List.mem_cons_self ..))
        ((orderSlot_eq_some.mp hk').2.trans (orderSlot_eq_some.mp hk).2.symm)
      subst hyx
      exact (List.nodup_cons.mp hnd).1 (List.mem_map_of_mem hy)
    simp only [hindex]
    rw [Function.update_of_ne hne]
    exact hyk
  · obtain ⟨hself, hother⟩ := effect_cancel h hs (contents_split hv hq) htype hid
    by_cases he : s' = s
    · rw [he, hself, View.contents_set_self, List.map_append, Level.contents_withQueue,
        List.map_append]
    · rw [hother s' hs' he, View.contents, View.side_set_of_ne _ _ hs hs' he]
      rfl

/-- **CLEAR** of an empty book does nothing. -/
lemma clear_eq {b : MarketOrderBook} {v : View MarketOrder} (h : WellFormed b v)
    (hempty : v.bids = [] ∧ v.asks = []) :
    ∃ b', b.clear = .ok b' ∧ b'.toLimitOrderBook = b.toLimitOrderBook := by
  have hlevels : v.levels = [] := by simp [View.levels, hempty]
  have hindex : ∀ k, b.orderIndex k = none := fun k => by
    cases hk : b.orderIndex k with
    | none => rfl
    | some p =>
      obtain ⟨x, hx, -⟩ := h.repr.ledger.index k p hk
      simp [hlevels] at hx
  have hbids : b.bidsByPrice = none := by
    simpa [View.side, hempty.1, bestOrdersByPrice] using (h.repr.shape.spine .buy (.inl rfl)).best
  have hasks : b.asksByPrice = none := by
    simpa [View.side, hempty.2, bestOrdersByPrice] using (h.repr.shape.spine .sell (.inr rfl)).best
  have horders : b.deallocateOrders = .ok b.orderPool := by
    unfold deallocateOrders
    generalize List.range meMaxOrderIds = ids
    induction ids with
    | nil => rfl
    | cons i ids ih =>
      simp only [hindex] at ih ⊢
      exact ih
  have htable : (fun _ => none) = b.orderIndex := funext fun k => (hindex k).symm
  refine ⟨b, ?_, rfl⟩
  obtain ⟨⟨levels, bids, asks, table, pool, index⟩, bbo⟩ := b
  simp only at hbids hasks htable
  subst hbids hasks htable
  simp only [clear, horders, ok_bind, deallocateLevels]
  rfl

/-- How an update can fail: an ADD for want of a fresh block or of a table entry. -/
def UpdateFault (u : MEMarketUpdate) (f : Fault) : Prop :=
  u.type = .add ∧ (NoFreshBlock f ∨ f = .outOfRange ∧ ¬ u.orderId < meMaxOrderIds)

/-- **The book follows an expected update.** -/
theorem safe_onMarketUpdate {b : MarketOrderBook} {v : View MarketOrder} (h : WellFormed b v)
    {u : MEMarketUpdate} (hu : Expected v u) :
    Safe (UpdateFault u) (fun b' => ∃ v', WellFormed b' v' ∧
      ∀ s, s.IsBookSide → v'.contents s = effect u s (v.contents s)) (b.onMarketUpdate u) := by
  unfold onMarketUpdate
  split
  · next htype => exact ⟨v, h, fun s _ => by simp only [effect, htype]⟩
  -- the update itself, and then the best bid and offer
  have happly : Safe (UpdateFault u) (fun b' => ∃ v', WellFormed b' v' ∧
      ∀ s, s.IsBookSide → v'.contents s = effect u s (v.contents s)) (b.applyUpdate u) := by
    cases htype : u.type with
    | add => exact (safe_add h htype hu).mono (fun f hf => ⟨htype, hf⟩) fun _ hb => hb
    | modify =>
      obtain ⟨b', v', hb', hv'⟩ := modify_eq h htype hu
      rw [hb']
      exact ⟨v', hv'⟩
    | cancel =>
      obtain ⟨b', v', hb', hv'⟩ := cancel_eq h htype hu
      rw [hb']
      exact ⟨v', hv'⟩
    | clear =>
      simp only [Expected, htype] at hu
      obtain ⟨b', hb', hbook⟩ := clear_eq h hu
      simp only [applyUpdate, htype, hb']
      refine ⟨v, h.of_book hbook, fun s hs => ?_⟩
      rcases hs with rfl | rfl <;> simp [effect, htype, View.contents, View.side, hu]
    | trade | invalid | snapshotStart | snapshotEnd =>
      simp only [applyUpdate, htype]
      exact ⟨v, h, fun s _ => by simp only [effect, htype]⟩
  refine happly.bind ?_
  rintro b' ⟨v', hb', hv'⟩
  rw [updateBBO_eq hb']
  exact ⟨v', hb'.of_book rfl, hv'⟩

/-- An update that is no ADD does not fail. -/
lemma onMarketUpdate_eq {b : MarketOrderBook} {v : View MarketOrder} (h : WellFormed b v)
    {u : MEMarketUpdate} (hu : Expected v u) (htype : u.type ≠ .add) :
    ∃ b' v', b.onMarketUpdate u = .ok b' ∧ WellFormed b' v' ∧
      ∀ s, s.IsBookSide → v'.contents s = effect u s (v.contents s) := by
  obtain ⟨b', hb', v', hv'⟩ := (safe_onMarketUpdate h hu).exists_ok_of_forall
    fun _ hf => htype hf.1
  exact ⟨b', v', hb', hv'⟩

end Trading
