import HftSystem.Common.BookSpine

set_option relaxedAutoImplicit false
set_option autoImplicit false

/-!
# What a book's pools represent

A `View` lists the levels of both sides and the orders queued in them. `Represents` says that
the pools, the circular lists and the two tables of a book hold exactly a view. The edits of a
queue and the edits of the list of levels are specified here against the view; a level is
edited in place, so the rest of the view is framed off by a permutation.

## Main definitions

* `Common.View` — the levels of both sides.
* `Common.LevelAt` — a level record and its circular queue hold a level of the view.
* `Common.Shape`, `Common.Represents` — the lists, and the lists with the order tables.

## Main results

* `Common.appendOrder_spec`, `Common.unlinkOrder_spec`, `Common.modifyOrder_spec` — the edits
  of a queue.
* `Common.openLevel_of_places`, `Common.removeOrdersAtPrice_spec` — the edits of a side.
-/

namespace Common

open CircularList LimitOrderBook Fallible

variable {ω κ : Type}

/-! ## Views -/

/-- The orders queued in a list of levels. -/
def orders (ls : List (Level ω)) : List (Ptr × ω) := ls.flatMap Level.queue

/-- The addresses of the orders queued in a list of levels. -/
def ptrs (ls : List (Level ω)) : List Ptr := (orders ls).map Prod.fst

/-- No levels have no orders. -/
@[simp] lemma orders_nil : orders ([] : List (Level ω)) = [] := rfl

/-- The orders of the first level come first. -/
@[simp] lemma orders_cons (l : Level ω) (ls : List (Level ω)) :
    orders (l :: ls) = l.queue ++ orders ls := List.flatMap_cons

/-- The orders of two lists of levels. -/
@[simp] lemma orders_append (ls ls' : List (Level ω)) :
    orders (ls ++ ls') = orders ls ++ orders ls' := List.flatMap_append

/-- The pointers of the first level come first. -/
@[simp] lemma ptrs_cons (l : Level ω) (ls : List (Level ω)) :
    ptrs (l :: ls) = l.ptrs ++ ptrs ls := by
  simp [ptrs, Level.ptrs]

/-- An order is one of some level. -/
lemma mem_orders {x : Ptr × ω} {ls : List (Level ω)} :
    x ∈ orders ls ↔ ∃ l ∈ ls, x ∈ l.queue := List.mem_flatMap

/-- A pointer is that of some order. -/
lemma mem_ptrs {p : Ptr} {ls : List (Level ω)} : p ∈ ptrs ls ↔ ∃ x ∈ orders ls, x.1 = p :=
  List.mem_map

/-- Levels in another order have their orders in another order. -/
lemma orders_perm {ls ls' : List (Level ω)} (h : ls.Perm ls') : (orders ls).Perm (orders ls') :=
  h.flatMap_right _

/-- And so the pointers. -/
lemma ptrs_perm {ls ls' : List (Level ω)} (h : ls.Perm ls') : (ptrs ls).Perm (ptrs ls') :=
  (orders_perm h).map _

/-- The levels of both sides of a book. -/
@[ext] structure View (ω : Type) where
  bids : List (Level ω) := []
  asks : List (Level ω) := []

namespace View

/-- The levels of a side, best first. -/
def side (v : View ω) (s : Side) : List (Level ω) := if s = .buy then v.bids else v.asks

/-- Replace the levels of a side. -/
def set (v : View ω) (s : Side) (ls : List (Level ω)) : View ω :=
  if s = .buy then { v with bids := ls } else { v with asks := ls }

/-- All levels. -/
def levels (v : View ω) : List (Level ω) := v.bids ++ v.asks

/-- The side that was set. -/
@[simp] lemma side_set_self (v : View ω) (s : Side) (ls : List (Level ω)) :
    (v.set s ls).side s = ls := by
  by_cases h : s = .buy <;> simp [side, set, h]

/-- The side that was not set. -/
lemma side_set_of_ne (v : View ω) {s s' : Side} (ls : List (Level ω)) (hs : s.IsBookSide)
    (hs' : s'.IsBookSide) (h : s' ≠ s) : (v.set s ls).side s' = v.side s' := by
  rcases hs with rfl | rfl <;> rcases hs' with rfl | rfl <;> simp_all [side, set]

/-- Setting a side to what it is. -/
@[simp] lemma set_side (v : View ω) (s : Side) : v.set s (v.side s) = v := by
  by_cases h : s = .buy <;> simp [side, set, h]

/-- The last levels that a side is set to count. -/
@[simp] lemma set_set (v : View ω) (s : Side) (ls ls' : List (Level ω)) :
    (v.set s ls).set s ls' = v.set s ls' := by
  by_cases h : s = .buy <;> simp [set, h]

/-- **Levels in the middle of a side can be moved to the front** of the list of all levels. -/
lemma levels_set_perm (v : View ω) (s : Side) (l₁ m l₂ : List (Level ω)) :
    (v.set s (l₁ ++ (m ++ l₂))).levels.Perm (m ++ (v.set s (l₁ ++ l₂)).levels) := by
  have hmid : ∀ l r : List (Level ω), (l ++ (m ++ r)).Perm (m ++ (l ++ r)) := fun l r => by
    rw [← List.append_assoc, ← List.append_assoc]
    exact List.perm_append_comm.append_right r
  by_cases h : s = .buy
  · simp only [set, levels, h, if_true]
    simpa using (hmid l₁ l₂).append_right v.asks
  · simp only [set, levels, h, if_false]
    exact ((hmid l₁ l₂).append_left v.bids).trans (hmid v.bids (l₁ ++ l₂))

/-- One level of a side, moved to the front. -/
lemma levels_perm_cons {v : View ω} {s : Side} {l : Level ω} {l₁ l₂ : List (Level ω)}
    (h : v.side s = l₁ ++ l :: l₂) : v.levels.Perm (l :: (v.set s (l₁ ++ l₂)).levels) := by
  have := v.levels_set_perm s l₁ [l] l₂
  rwa [List.singleton_append, ← h, set_side] at this

/-- A level is one of some side. -/
lemma mem_levels {v : View ω} {l : Level ω} :
    l ∈ v.levels ↔ ∃ s : Side, s.IsBookSide ∧ l ∈ v.side s := by
  constructor
  · intro h
    rcases List.mem_append.mp h with h | h
    · exact ⟨.buy, .inl rfl, h⟩
    · exact ⟨.sell, .inr rfl, h⟩
  · rintro ⟨s, rfl | rfl, h⟩
    · exact List.mem_append_left _ h
    · exact List.mem_append_right _ h

/-- The levels of a side are levels of the view. -/
lemma mem_levels_of_side {v : View ω} {s : Side} {l : Level ω} (h : l ∈ v.side s) :
    l ∈ v.levels := by
  by_cases hs : s = .buy <;> simp [side, levels, hs] at h ⊢ <;> tauto

end View

/-! ## Representation -/

/-- The record and the circular queue of a level. -/
structure LevelAt (b : LimitOrderBook ω κ) (l : Level ω) : Prop where
  side : (b.level l.addr).side = l.side
  price : (b.level l.addr).price = l.price
  first : (b.level l.addr).firstOrder = l.ptrs.head?
  ring : Ring (fun p => (b.node p).nextOrder) (fun p => (b.node p).prevOrder) l.ptrs
  record : ∀ x ∈ l.queue, (b.node x.1).order = x.2

/-- The levels, in any order, and their queues are what the pools hold, and the table of price
levels finds each of them. -/
structure Heap (b : LimitOrderBook ω κ) (ls : List (Level ω)) : Prop where
  addr_nodup : (addrs ls).Nodup
  ptr_nodup : (ptrs ls).Nodup
  levelAt : ∀ l ∈ ls, LevelAt b l
  bucket : ∀ i a, b.priceOrdersAtPrice i = some a ↔
    ∃ l ∈ ls, l.addr = a ∧ priceToIndex l.price = i
  inUse : ∀ a, b.ordersAtPricePool.InUse a ↔ a ∈ addrs ls

/-- The lists and the table of price levels hold a view. -/
structure Shape (b : LimitOrderBook ω κ) (v : View ω) : Prop where
  spine : ∀ s, s.IsBookSide → Spine b s (v.side s)
  heap : Heap b v.levels

/-- The order pool and the table of identifiers hold the orders of a view. The table may lack
an entry, when two orders carry the same identifier. -/
structure Ledger [BookOrder ω κ] (b : LimitOrderBook ω κ) (v : View ω) : Prop where
  inUse : ∀ p, b.orderPool.InUse p ↔ p ∈ ptrs v.levels
  slots : ∀ x ∈ orders v.levels, (BookOrder.slot x.2).isSome
  index : ∀ k p, b.orderIndex k = some p →
    ∃ x ∈ orders v.levels, x.1 = p ∧ BookOrder.slot x.2 = some k

/-- **The representation relation.** -/
structure Represents [BookOrder ω κ] (b : LimitOrderBook ω κ) (v : View ω) : Prop where
  shape : Shape b v
  ledger : Ledger b v

/-- The representation does not depend on the order of the levels. -/
lemma Heap.perm {b : LimitOrderBook ω κ} {ls ls' : List (Level ω)} (h : Heap b ls)
    (hp : ls.Perm ls') : Heap b ls' where
  addr_nodup := (hp.map Level.addr).nodup_iff.mp h.addr_nodup
  ptr_nodup := (ptrs_perm hp).nodup_iff.mp h.ptr_nodup
  levelAt l hl := h.levelAt l (hp.mem_iff.mpr hl)
  bucket i a := by simpa only [hp.mem_iff] using h.bucket i a
  inUse a := by rw [h.inUse, addrs, addrs, (hp.map Level.addr).mem_iff]

/-- A level stays represented when its record and its orders are not written to. -/
lemma LevelAt.congr {b b' : LimitOrderBook ω κ} {l : Level ω} (h : LevelAt b l)
    (hside : (b'.level l.addr).side = (b.level l.addr).side)
    (hprice : (b'.level l.addr).price = (b.level l.addr).price)
    (hfirst : (b'.level l.addr).firstOrder = (b.level l.addr).firstOrder)
    (hnode : ∀ p ∈ l.ptrs, b'.node p = b.node p) : LevelAt b' l where
  side := hside.trans h.side
  price := hprice.trans h.price
  first := hfirst.trans h.first
  ring := h.ring.congr fun p hp => by simp only [hnode p hp, and_self]
  record x hx := by rw [hnode x.1 (List.mem_map_of_mem hx), h.record x hx]

/-- The levels of a side lie in the pool, so their number is bounded by its size. -/
lemma Heap.length_le {b : LimitOrderBook ω κ} {ls ls' : List (Level ω)} (h : Heap b ls)
    (hs : ls'.Sublist ls) : ls'.length ≤ b.ordersAtPricePool.size := by
  have hsub : (addrs ls').Sublist (addrs ls) := hs.map _
  have hnd : (addrs ls').Nodup := h.addr_nodup.sublist hsub
  calc ls'.length = (addrs ls').toFinset.card := by
        rw [List.toFinset_card_of_nodup hnd, addrs, List.length_map]
    _ ≤ (Finset.range b.ordersAtPricePool.size).card := by
        refine Finset.card_le_card fun a ha => Finset.mem_range.mpr ?_
        exact ((h.inUse a).mpr (hsub.subset (List.mem_toFinset.mp ha))).1
    _ = b.ordersAtPricePool.size := Finset.card_range _

/-- A side is a part of all levels. -/
lemma View.side_sublist (v : View ω) (s : Side) : (v.side s).Sublist v.levels := by
  by_cases h : s = .buy <;> simp [View.side, View.levels, h]

/-- **The loop over the levels of a side** terminates and visits those behind the best. -/
lemma Shape.walk_side {b : LimitOrderBook ω κ} {v : View ω} (h : Shape b v) {s : Side}
    (hs : s.IsBookSide) {l : Level ω} {ls : List (Level ω)} (hv : v.side s = l :: ls) :
    b.bestOrdersByPrice s = some l.addr ∧ ∃ a, (b.level l.addr).nextEntry = some a ∧
      walk (fun a => (b.level a).nextEntry) l.addr (b.ordersAtPricePool.size + 1) a =
        .ok (addrs ls) := by
  have hsub := v.side_sublist s
  have hnd : (addrs (v.side s)).Nodup := h.heap.addr_nodup.sublist (hsub.map _)
  have hlen : (v.side s).length ≤ b.ordersAtPricePool.size := h.heap.length_le hsub
  have hring := (h.spine s hs).ring
  rw [hv] at hnd hlen hring
  rw [List.length_cons] at hlen
  refine ⟨?_, walk_ring hring hnd (by rw [List.length_map]; omega)⟩
  rw [(h.spine s hs).best, hv]
  rfl

/-- **The prices of a side** as they are read are those of the view. -/
lemma Shape.levelPrices_eq {b : LimitOrderBook ω κ} {v : View ω} (h : Shape b v) {s : Side}
    (hs : s.IsBookSide) : b.levelPrices s = .ok ((v.side s).map Level.price) := by
  have hprices : ∀ ls : List (Level ω), (∀ l ∈ ls, l ∈ v.levels) →
      (addrs ls).map (fun a => (b.level a).price) = ls.map Level.price := by
    intro ls hls
    rw [addrs, List.map_map]
    exact List.map_congr_left fun l hl => (h.heap.levelAt l (hls l hl)).price
  unfold levelPrices
  cases hv : v.side s with
  | nil =>
    have hbest : b.bestOrdersByPrice s = none := by
      rw [(h.spine s hs).best, hv]
      rfl
    rw [hbest]
    rfl
  | cons l ls =>
    obtain ⟨hbest, a, hnext, hwalk⟩ := h.walk_side hs hv
    simp only [hbest, hnext, deref_some, ok_bind, hwalk]
    rw [← hprices (l :: ls) fun m hm => View.mem_levels_of_side (hv ▸ hm)]
    rfl

/-- The level found in a bucket. -/
lemma Heap.bucket_of_mem {b : LimitOrderBook ω κ} {ls : List (Level ω)} (h : Heap b ls)
    {l : Level ω} (hl : l ∈ ls) (price : ℤ) (hp : priceToIndex l.price = priceToIndex price) :
    b.getOrdersAtPrice price = some l.addr :=
  (h.bucket _ _).mpr ⟨l, hl, rfl, hp⟩

/-- Levels with the same address are the same. -/
lemma Heap.eq_of_addr {b : LimitOrderBook ω κ} {ls : List (Level ω)} (h : Heap b ls)
    {l l' : Level ω} (hl : l ∈ ls) (hl' : l' ∈ ls) (he : l.addr = l'.addr) : l = l' :=
  List.inj_on_of_nodup_map h.addr_nodup hl hl' he

/-- Orders with the same address are the same. -/
lemma Heap.eq_of_ptr {b : LimitOrderBook ω κ} {ls : List (Level ω)} (h : Heap b ls)
    {x y : Ptr × ω} (hx : x ∈ orders ls) (hy : y ∈ orders ls) (he : x.1 = y.1) : x = y :=
  List.inj_on_of_nodup_map h.ptr_nodup hx hy he

/-- Two levels never share a bucket. -/
lemma Heap.eq_of_bucket {b : LimitOrderBook ω κ} {ls : List (Level ω)} (h : Heap b ls)
    {l l' : Level ω} (hl : l ∈ ls) (hl' : l' ∈ ls)
    (he : priceToIndex l.price = priceToIndex l'.price) : l = l' := by
  have h₁ := h.bucket_of_mem hl l'.price he
  have h₂ := h.bucket_of_mem hl' l'.price rfl
  exact h.eq_of_addr hl hl' (Option.some_inj.mp (h₁.symm.trans h₂))

/-! ## The edits of a queue -/

/-- `b'` differs from `b` only in the orders and in the first orders of the levels. -/
structure QueueFrame (b b' : LimitOrderBook ω κ) : Prop where
  bidsByPrice : b'.bidsByPrice = b.bidsByPrice
  asksByPrice : b'.asksByPrice = b.asksByPrice
  priceOrdersAtPrice : b'.priceOrdersAtPrice = b.priceOrdersAtPrice
  orderIndex : b'.orderIndex = b.orderIndex
  levelInUse : b'.ordersAtPricePool.InUse = b.ordersAtPricePool.InUse
  orderInUse : b'.orderPool.InUse = b.orderPool.InUse
  entry : ∀ a, (b'.level a).side = (b.level a).side ∧ (b'.level a).price = (b.level a).price ∧
    (b'.level a).nextEntry = (b.level a).nextEntry ∧ (b'.level a).prevEntry = (b.level a).prevEntry

/-- The list of a side does not depend on the queues. -/
lemma Spine.congr {b b' : LimitOrderBook ω κ} {s : Side} {ls ls' : List (Level ω)}
    (h : Spine b s ls) (hf : QueueFrame b b') (ha : addrs ls' = addrs ls) : Spine b' s ls' where
  best := by
    rw [ha, ← h.best]
    simp only [bestOrdersByPrice, hf.bidsByPrice, hf.asksByPrice]
  ring := by
    rw [ha]
    exact h.ring.congr fun a _ => ⟨(hf.entry a).2.2.1, (hf.entry a).2.2.2⟩

/-- **Editing one queue.** A level of the view may be replaced by one with the same address
and price, if its new queue is represented and no order of another level is written to.

**Proof sketch.** Up to the order of the levels, the heap of the view is the level and the rest. The
level itself is represented by `hl'`, and no level of the rest shares an order with it, so the rest is
represented as before. The spines only see addresses and prices, which are the same. -/
lemma Shape.replace {b b' : LimitOrderBook ω κ} {v : View ω} {s : Side} {l l' : Level ω}
    {l₁ l₂ : List (Level ω)} (h : Shape b v) (hs : s.IsBookSide) (hv : v.side s = l₁ ++ l :: l₂)
    (hf : QueueFrame b b') (haddr : l'.addr = l.addr) (hprice : l'.price = l.price)
    (hl' : LevelAt b' l') (hnd : l'.ptrs.Nodup)
    (hnew : ∀ p ∈ l'.ptrs, p ∈ l.ptrs ∨ p ∉ ptrs v.levels)
    (hfirst : ∀ a, a ≠ l.addr → (b'.level a).firstOrder = (b.level a).firstOrder)
    (hnode : ∀ p ∈ ptrs v.levels, p ∉ l.ptrs → b'.node p = b.node p) :
    Shape b' (v.set s (l₁ ++ l' :: l₂)) := by
  set rest := (v.set s (l₁ ++ l₂)).levels with hrest
  have hperm : v.levels.Perm (l :: rest) := View.levels_perm_cons hv
  have hheap : Heap b (l :: rest) := h.heap.perm hperm
  have hdisj : ∀ p ∈ ptrs rest, p ∉ l.ptrs := fun p hp hpl => by
    have := hheap.ptr_nodup
    rw [ptrs_cons] at this
    exact (List.nodup_append.mp this).2.2 p hpl p hp rfl
  have hmem : ∀ p ∈ ptrs rest, p ∈ ptrs v.levels := fun p hp =>
    (ptrs_perm hperm).mem_iff.mpr (by rw [ptrs_cons]; exact List.mem_append_right _ hp)
  refine ⟨fun s' hs' => ?_, Heap.perm ?_ (v.levels_set_perm s l₁ [l'] l₂).symm⟩
  · by_cases he : s' = s
    · subst he
      rw [View.side_set_self]
      refine (h.spine s' hs').congr hf ?_
      rw [hv]
      simp [haddr]
    · rw [View.side_set_of_ne _ _ hs hs' he]
      exact (h.spine s' hs').congr hf rfl
  · rw [List.singleton_append, ← hrest]
    refine ⟨?_, ?_, fun m hm => ?_, fun i a => ?_, fun a => ?_⟩
    · simpa [haddr] using hheap.addr_nodup
    · rw [ptrs_cons, List.nodup_append]
      have hrestnd := hheap.ptr_nodup
      rw [ptrs_cons, List.nodup_append] at hrestnd
      refine ⟨hnd, hrestnd.2.1, ?_⟩
      rintro p hp q hq rfl
      exact (hnew p hp).elim (hdisj p hq) fun hn => hn (hmem p hq)
    · rcases List.mem_cons.mp hm with rfl | hm
      · exact hl'
      · have hne : m.addr ≠ l.addr := by
          have := hheap.addr_nodup
          rw [addrs_cons, List.nodup_cons] at this
          exact fun he => this.1 (he ▸ List.mem_map_of_mem hm)
        refine (hheap.levelAt m (List.mem_cons_of_mem _ hm)).congr (hf.entry _).1 (hf.entry _).2.1
          (hfirst _ hne) fun p hp => ?_
        have hp' : p ∈ ptrs rest := by
          obtain ⟨x, hx, rfl⟩ := List.mem_map.mp hp
          exact mem_ptrs.mpr ⟨x, mem_orders.mpr ⟨m, hm, hx⟩, rfl⟩
        exact hnode p (hmem p hp') (hdisj p hp')
    · rw [hf.priceOrdersAtPrice, hheap.bucket]
      simp [haddr, hprice]
    · rw [hf.levelInUse, hheap.inUse]
      simp [haddr]

/-- The orders of a level are among those of the book. -/
lemma View.ptrs_subset {v : View ω} {s : Side} {l : Level ω} (hl : l ∈ v.side s) {p : Ptr}
    (hp : p ∈ l.ptrs) : p ∈ ptrs v.levels := by
  obtain ⟨x, hx, rfl⟩ := List.mem_map.mp hp
  exact mem_ptrs.mpr ⟨x, mem_orders.mpr ⟨l, View.mem_levels_of_side hl, hx⟩, rfl⟩

/-- The orders of a level have different addresses. -/
lemma Shape.ptrs_nodup {b : LimitOrderBook ω κ} {v : View ω} (h : Shape b v) {s : Side}
    {l : Level ω} (hl : l ∈ v.side s) : l.ptrs.Nodup := by
  obtain ⟨l₁, l₂, hv⟩ := List.append_of_mem hl
  have := (h.heap.perm (View.levels_perm_cons hv)).ptr_nodup
  rw [ptrs_cons] at this
  exact (List.nodup_append.mp this).1

/-- The level of a side is represented. -/
lemma Shape.levelAt {b : LimitOrderBook ω κ} {v : View ω} (h : Shape b v) {s : Side}
    {l : Level ω} (hl : l ∈ v.side s) : LevelAt b l :=
  h.heap.levelAt l (View.mem_levels_of_side hl)

/-- **Appending to a queue.** The branch of `addOrder` for a level that exists puts the order
behind the last one of the level.

**Proof sketch.** The queue is a ring with a first order `a` and a last one `z`. The four writes put
the order between them, and `Ring.push` is the ring with it. Orders of other levels are none of the
three, so the shape is that with one queue replaced (`Shape.replace`). -/
theorem appendOrder_spec {b : LimitOrderBook ω κ} {v : View ω} {s : Side} {l : Level ω}
    {l₁ l₂ : List (Level ω)} (h : Shape b v) (hs : s.IsBookSide) (hv : v.side s = l₁ ++ l :: l₂)
    (hq : l.queue ≠ []) {p : Ptr} (hp : p ∉ ptrs v.levels) :
    ∃ b', b.appendOrder l.addr p = .ok b' ∧ QueueFrame b b' ∧
      Shape b' (v.set s (l₁ ++ { l with queue := l.queue ++ [(p, (b.node p).order)] } :: l₂)) := by
  have hl : l ∈ v.side s := by simp [hv]
  have hat := h.levelAt hl
  obtain ⟨a, r, har⟩ : ∃ a r, l.ptrs = a :: r :=
    List.exists_cons_of_ne_nil (by simpa [Level.ptrs] using hq)
  obtain ⟨z, hz⟩ : ∃ z, (a :: r).getLast? = some z :=
    ⟨_, List.getLast?_eq_some_getLast (List.cons_ne_nil a r)⟩
  have hring := hat.ring
  have hnd := h.ptrs_nodup hl
  have hpl : p ∉ a :: r := fun hpr => hp (View.ptrs_subset hl (har ▸ hpr))
  have hfirst : (b.level l.addr).firstOrder = some a := by rw [hat.first, har]; rfl
  rw [har] at hring hnd
  have hza := hring.prev_head hz
  have hpa : p ≠ a := fun he => hpl (he ▸ List.mem_cons_self ..)
  have hpz : p ≠ z := fun he => hpl (he ▸ List.mem_of_getLast? hz)
  set b' := (((b.setNextOrder z (some p)).setPrevOrder p (some z)).setNextOrder p
    (some a)).setPrevOrder a (some p) with hb'
  have hf : QueueFrame b b' := ⟨rfl, rfl, rfl, rfl, rfl,
    by simp [hb', setNextOrder, setPrevOrder], fun c => ⟨rfl, rfl, rfl, rfl⟩⟩
  have hptrs : Level.ptrs { l with queue := l.queue ++ [(p, (b.node p).order)] } =
      a :: r ++ [p] := by
    rw [← har]
    simp [Level.ptrs]
  refine ⟨b', ?_, hf, h.replace hs hv hf rfl rfl ?_ ?_ ?_ (fun _ _ => rfl) fun q hq hql => ?_⟩
  · simp [appendOrder, hfirst, hza.2, hb', pure, Except.pure]
  · refine ⟨hat.side, hat.price, ?_, ?_, ?_⟩
    · rw [hptrs]
      exact hfirst
    · rw [hptrs]
      have hne : ∀ y ∈ a :: r, y ≠ p := fun y hy he => hpl (he ▸ hy)
      refine hring.push hnd hz ?_ ?_ ?_ ?_ (fun y hy hyz => ?_) fun y hy => ?_
      · simp [hb', hpz.symm]
      · simp [hb']
      · simp [hb', hpa]
      · simp [hb']
      · simp [hb', hyz, hne y hy]
      · have hya : y ≠ a := fun he => (List.nodup_cons.mp hnd).1 (he ▸ hy)
        simp [hb', hya, hne y (List.mem_cons_of_mem _ hy)]
    · intro x hx
      rcases List.mem_append.mp hx with hx | hx
      · simpa [hb'] using hat.record x hx
      · obtain rfl : x = (p, (b.node p).order) := by simpa using hx
        simp [hb']
  · rw [hptrs, List.nodup_append]
    exact ⟨hnd, List.nodup_singleton p, fun y hy w hw he =>
      hpl ((List.mem_singleton.mp hw) ▸ he ▸ hy)⟩
  · intro q hq
    rw [hptrs, List.mem_append] at hq
    rcases hq with hq | hq
    · exact .inl (har ▸ hq)
    · exact .inr (List.mem_singleton.mp hq ▸ hp)
  · have hne : ∀ c ∈ [a, z], q ≠ c := by
      intro c hc he
      refine hql (har ▸ ?_)
      rcases List.mem_pair.mp hc with rfl | rfl
      · exact he ▸ List.mem_cons_self ..
      · exact he ▸ List.mem_of_getLast? hz
    have hqp : q ≠ p := fun he => hp (he ▸ hq)
    simp [hb', hqp, hne a (by simp), hne z (by simp)]

/-- **Taking an order out of a queue** that holds others.

**Proof sketch.** `Ring.remove` gives the neighbours `z` and `a` of the order and the ring without it,
whose links are those of `b₁`. The first order of the level moves on to `a` only if it was the one that
goes, which is the case `q₁ = []`. The last two writes clear the links of the order itself, which is no
longer in the ring. No other level or order is written to, so the shape is that with one queue replaced
(`Shape.replace`). -/
theorem unlinkOrder_spec {b : LimitOrderBook ω κ} {v : View ω} {s : Side} {l : Level ω}
    {l₁ l₂ : List (Level ω)} {q₁ q₂ : List (Ptr × ω)} {x : Ptr × ω} (h : Shape b v)
    (hs : s.IsBookSide) (hv : v.side s = l₁ ++ l :: l₂) (hq : l.queue = q₁ ++ x :: q₂)
    (hne : q₁ ++ q₂ ≠ []) :
    ∃ b', b.unlinkOrder (some l.addr) x.1 = .ok b' ∧ QueueFrame b b' ∧
      Shape b' (v.set s (l₁ ++ { l with queue := q₁ ++ q₂ } :: l₂)) := by
  have hl : l ∈ v.side s := by simp [hv]
  have hat := h.levelAt hl
  have hptrs : l.ptrs = q₁.map Prod.fst ++ x.1 :: q₂.map Prod.fst := by simp [Level.ptrs, hq]
  have hnd := h.ptrs_nodup hl
  have hptrs' : Level.ptrs { l with queue := q₁ ++ q₂ } = q₁.map Prod.fst ++ q₂.map Prod.fst := by
    simp [Level.ptrs]
  have hring := hat.ring
  rw [hptrs] at hring hnd
  obtain ⟨z, a, hxa, hzx, hz, ha, hfirst, hremove⟩ := hring.remove hnd (by
    rw [← List.map_append]
    simpa using hne)
  rw [← hptrs'] at hz ha hremove
  have hleft := List.nodup_cons.mp (List.nodup_middle.mp hnd)
  rw [← hptrs'] at hleft
  have hmem : ∀ y ∈ Level.ptrs { l with queue := q₁ ++ q₂ }, y ≠ x.1 := fun y hy he =>
    hleft.1 (he ▸ hy)
  have hsub : ∀ y ∈ Level.ptrs { l with queue := q₁ ++ q₂ }, y ∈ l.ptrs := by
    intro y hy
    rw [hptrs'] at hy
    rw [hptrs]
    exact List.perm_middle.mem_iff.mpr (List.mem_cons_of_mem _ hy)
  set b₁ := (b.setNextOrder z (some a)).setPrevOrder a (some z) with hb₁
  set b₂ := if (b.level l.addr).firstOrder = some x.1 then b₁.setFirstOrder l.addr (some a) else b₁
    with hb₂
  set b' := (b₂.setNextOrder x.1 none).setPrevOrder x.1 none with hb'
  have hnode₂ : ∀ q, b₂.node q = b₁.node q := by
    intro q
    rw [hb₂]
    split <;> rfl
  have hlevel : ∀ c, b'.level c = b₂.level c := fun _ => rfl
  have hlevel₂ : ∀ c, b₂.level c = { b.level c with firstOrder :=
      if c = l.addr ∧ (b.level l.addr).firstOrder = some x.1 then some a
      else (b.level c).firstOrder } := by
    intro c
    by_cases hfx : (b.level l.addr).firstOrder = some x.1
    · simp only [hb₂, hfx, if_true, level_setFirstOrder, and_true]
      rfl
    · simp only [hb₂, hfx, if_false, and_false]
      rfl
  have hf : QueueFrame b b' := by
    refine ⟨?_, ?_, ?_, ?_, ?_, ?_, fun c => ?_⟩
    iterate 4 · simp only [hb', hb₂]; split <;> rfl
    · simp only [hb', hb₂]; split <;> simp [setFirstOrder, setNextOrder, setPrevOrder, hb₁]
    · simp only [hb', hb₂]; split <;> simp [setFirstOrder, setNextOrder, setPrevOrder, hb₁]
    · rw [hlevel, hlevel₂]
      exact ⟨rfl, rfl, rfl, rfl⟩
  refine ⟨b', ?_, hf, h.replace hs hv hf rfl rfl ⟨?_, ?_, ?_, ?_, fun y hy => ?_⟩ hleft.2
    (fun p hp => .inl (hsub p hp)) (fun c hc => ?_) fun q hq hql => ?_⟩
  · simp only [unlinkOrder, hzx, hxa, deref_some, ok_bind]
    rfl
  · exact (hf.entry _).1.trans hat.side
  · exact (hf.entry _).2.1.trans hat.price
  · rw [hlevel, hlevel₂, hptrs', hat.first, hptrs]
    cases q₁ with
    | nil =>
      have : (q₂.map Prod.fst).head? = some a := hfirst rfl
      simp [this]
    | cons y q₁ =>
      have hyx : y.1 ≠ x.1 := hmem y.1 (by simp [Level.ptrs])
      simp [hyx]
  · refine hremove _ _ ?_ ?_ (fun y hy hyz => ?_) fun y hy hya => ?_
    · simp [hb', hnode₂, hb₁, hmem z hz]
    · simp [hb', hnode₂, hb₁, hmem a ha]
    · simp [hb', hnode₂, hb₁, hmem y hy, hyz]
    · simp [hb', hnode₂, hb₁, hmem y hy, hya]
  · have hy' : y ∈ l.queue := by
      rw [hq]
      rcases List.mem_append.mp hy with hy | hy
      · exact List.mem_append_left _ hy
      · exact List.mem_append_right _ (List.mem_cons_of_mem _ hy)
    simpa [hb', hnode₂, hb₁] using hat.record y hy'
  · rw [hlevel, hlevel₂]
    simp [hc]
  · have hqx : q ≠ x.1 := fun he => hql (he ▸ hptrs ▸ by simp)
    have hqa : q ≠ a := fun he => hql (he ▸ hsub a ha)
    have hqz : q ≠ z := fun he => hql (he ▸ hsub z hz)
    simp [hb', hnode₂, hb₁, hqx, hqa, hqz]

/-- **Writing to the record of an order.** -/
theorem modifyOrder_spec {b : LimitOrderBook ω κ} {v : View ω} {s : Side} {l : Level ω}
    {l₁ l₂ : List (Level ω)} {q₁ q₂ : List (Ptr × ω)} {x : Ptr × ω} (h : Shape b v)
    (hs : s.IsBookSide) (hv : v.side s = l₁ ++ l :: l₂) (hq : l.queue = q₁ ++ x :: q₂)
    (f : ω → ω) :
    QueueFrame b (b.modifyOrder x.1 f) ∧ Shape (b.modifyOrder x.1 f)
      (v.set s (l₁ ++ { l with queue := q₁ ++ (x.1, f x.2) :: q₂ } :: l₂)) := by
  have hl : l ∈ v.side s := by simp [hv]
  have hat := h.levelAt hl
  have hnd := h.ptrs_nodup hl
  have hptrs : Level.ptrs { l with queue := q₁ ++ (x.1, f x.2) :: q₂ } = l.ptrs := by
    simp [Level.ptrs, hq]
  have hf : QueueFrame b (b.modifyOrder x.1 f) :=
    ⟨rfl, rfl, rfl, rfl, rfl, by simp [modifyOrder], fun c => ⟨rfl, rfl, rfl, rfl⟩⟩
  refine ⟨hf, h.replace hs hv hf rfl rfl ⟨hat.side, hat.price, ?_, ?_, fun y hy => ?_⟩
    (hptrs ▸ hnd) (fun p hp => .inl (hptrs ▸ hp)) (fun _ _ => rfl) fun q _ hql => ?_⟩
  · rw [hptrs]
    exact hat.first
  · rw [hptrs]
    exact hat.ring.congr fun p _ => by simp
  · rw [Level.ptrs, hq, List.map_append, List.map_cons] at hnd
    have hx : (b.node x.1).order = x.2 := hat.record x (by simp [hq])
    have hoff : ∀ w ∈ q₁ ++ q₂, w.1 ≠ x.1 := by
      intro w hw he
      have hd := List.nodup_middle.mp hnd
      rw [List.nodup_cons, ← List.map_append] at hd
      exact hd.1 (he ▸ List.mem_map_of_mem hw)
    rcases List.mem_append.mp hy with hy | hy
    · simpa [hoff y (List.mem_append_left _ hy)] using hat.record y (by simp [hq, hy])
    · rcases List.mem_cons.mp hy with rfl | hy
      · simp [hx]
      · simpa [hoff y (List.mem_append_right _ hy)] using hat.record y (by simp [hq, hy])
  · have hqx : q ≠ x.1 := fun he => hql (he ▸ by simp [Level.ptrs, hq])
    simp [hqx]

/-! ## The edits of a side -/

/-- A view stays represented when only blocks outside it are written to. -/
lemma Shape.congr {b b' : LimitOrderBook ω κ} {v : View ω} (h : Shape b v)
    (hbest : ∀ s, b'.bestOrdersByPrice s = b.bestOrdersByPrice s)
    (htable : b'.priceOrdersAtPrice = b.priceOrdersAtPrice)
    (hinUse : b'.ordersAtPricePool.InUse = b.ordersAtPricePool.InUse)
    (hlevel : ∀ a ∈ addrs v.levels, b'.level a = b.level a)
    (hnode : ∀ p ∈ ptrs v.levels, b'.node p = b.node p) : Shape b' v := by
  refine ⟨fun s hs => ⟨(hbest s).trans (h.spine s hs).best, ?_⟩,
    h.heap.addr_nodup, h.heap.ptr_nodup, fun l hl => ?_, htable ▸ h.heap.bucket,
    hinUse ▸ h.heap.inUse⟩
  · refine (h.spine s hs).ring.congr fun a ha => ?_
    have hmem : a ∈ addrs v.levels := ((v.side_sublist s).map Level.addr).subset ha
    simp only [hlevel a hmem, and_self]
  · have hlv := hlevel l.addr (List.mem_map_of_mem hl)
    refine (h.heap.levelAt l hl).congr ?_ ?_ ?_ fun p hp => ?_
    iterate 3 rw [hlv]
    obtain ⟨x, hx, rfl⟩ := List.mem_map.mp hp
    exact hnode _ (mem_ptrs.mpr ⟨x, mem_orders.mpr ⟨l, hl, hx⟩, rfl⟩)

/-- The levels of the two sides have different addresses. -/
lemma Shape.addrs_disjoint {b : LimitOrderBook ω κ} {v : View ω} (h : Shape b v) {s s' : Side}
    (hs : s.IsBookSide) (hs' : s'.IsBookSide) (hne : s' ≠ s) {a : Ptr} (ha : a ∈ addrs (v.side s))
    (ha' : a ∈ addrs (v.side s')) : False := by
  have hd := h.heap.addr_nodup
  rw [View.levels, addrs_append, List.nodup_append] at hd
  rcases hs with rfl | rfl <;> rcases hs' with rfl | rfl
  · exact hne rfl
  · exact hd.2.2 a ha a ha' rfl
  · exact hd.2.2 a ha' a ha rfl
  · exact hne rfl

/-- Opening a level adds it to the levels of the book. -/
lemma View.levels_insertLevel (v : View ω) (s : Side) (new : Level ω) :
    (v.set s (insertLevel new (v.side s))).levels.Perm (new :: v.levels) := by
  have h := v.levels_set_perm s
    ((v.side s).takeWhile fun l => addAfter new.side new.price l.price) [new]
    ((v.side s).dropWhile fun l => addAfter new.side new.price l.price)
  rwa [List.takeWhile_append_dropWhile, View.set_side] at h

/-- A level is opened: the table and the pool gain it. -/
lemma Heap.insert {b b' : LimitOrderBook ω κ} {new : Level ω} {ls : List (Level ω)} (h : Heap b ls)
    (hfresh : new.addr ∉ addrs ls) (hptrs : (ptrs (new :: ls)).Nodup) (hnew : LevelAt b' new)
    (hold : ∀ l ∈ ls, LevelAt b' l)
    (hempty : ∀ l ∈ ls, priceToIndex l.price ≠ priceToIndex new.price)
    (htable : b'.priceOrdersAtPrice =
      Function.update b.priceOrdersAtPrice (priceToIndex new.price) (some new.addr))
    (hinUse : ∀ c, b'.ordersAtPricePool.InUse c ↔ c = new.addr ∨ b.ordersAtPricePool.InUse c) :
    Heap b' (new :: ls) where
  addr_nodup := List.nodup_cons.mpr ⟨hfresh, h.addr_nodup⟩
  ptr_nodup := hptrs
  levelAt := List.forall_mem_cons.mpr ⟨hnew, hold⟩
  bucket i c := by
    rw [htable, Function.update_apply]
    by_cases hi : i = priceToIndex new.price
    · have hno : ¬ ∃ l ∈ ls, l.addr = c ∧ priceToIndex l.price = i := by
        rintro ⟨l, hl, -, hli⟩
        exact hempty l hl (hli.trans hi)
      rw [if_pos hi, List.exists_mem_cons_iff, or_iff_left hno]
      simp [hi]
    · rw [if_neg hi, h.bucket]
      simp [Ne.symm hi]
  inUse c := by
    rw [hinUse, h.inUse, addrs_cons, List.mem_cons]

/-- A level is removed: the table and the pool lose it. -/
lemma Heap.erase {b b' : LimitOrderBook ω κ} {l : Level ω} {ls : List (Level ω)}
    (h : Heap b (l :: ls)) (hold : ∀ m ∈ ls, LevelAt b' m)
    (htable : b'.priceOrdersAtPrice =
      Function.update b.priceOrdersAtPrice (priceToIndex l.price) none)
    (hinUse : ∀ c, b'.ordersAtPricePool.InUse c ↔ c ≠ l.addr ∧ b.ordersAtPricePool.InUse c) :
    Heap b' ls where
  addr_nodup := (List.nodup_cons.mp h.addr_nodup).2
  ptr_nodup := by
    have hptrs := h.ptr_nodup
    rw [ptrs_cons] at hptrs
    exact (List.nodup_append.mp hptrs).2.1
  levelAt := hold
  bucket i c := by
    rw [htable, Function.update_apply]
    by_cases hi : i = priceToIndex l.price
    · rw [if_pos hi]
      refine iff_of_false (by simp) ?_
      rintro ⟨m, hm, -, hmi⟩
      obtain rfl : m = l := h.eq_of_bucket (List.mem_cons_of_mem _ hm) (List.mem_cons_self ..)
        (hmi.trans hi)
      exact (List.nodup_cons.mp h.addr_nodup).1 (List.mem_map_of_mem hm)
    · rw [if_neg hi, h.bucket, List.exists_mem_cons_iff, or_iff_right]
      rintro ⟨-, hli⟩
      exact hi hli.symm
  inUse c := by
    rw [hinUse, h.inUse, addrs_cons, List.mem_cons]
    constructor
    · rintro ⟨hcl, hc | hc⟩
      · exact absurd hc hcl
      · exact hc
    · exact fun hc => ⟨fun he => (List.nodup_cons.mp h.addr_nodup).1 (he ▸ hc), .inr hc⟩

/-- The list of the other side is not touched. -/
lemma Shape.spine_other {b b' b'' : LimitOrderBook ω κ} {v : View ω} (h : Shape b v) {s s' : Side}
    (hs : s.IsBookSide) (hs' : s'.IsBookSide) (hne : s' ≠ s) {touched : List Ptr}
    (hframe : LinkFrame touched s b' b'')
    (htouched : ∀ c ∈ touched, c ∈ addrs (v.side s) ∨ c ∉ addrs v.levels)
    (hbest : b'.bestOrdersByPrice s' = b.bestOrdersByPrice s')
    (hlevel : ∀ c ∈ addrs v.levels, b'.level c = b.level c) : Spine b'' s' (v.side s') where
  best := ((hframe.best s' hs' hne).trans hbest).trans (h.spine s' hs').best
  ring := by
    refine (h.spine s' hs').ring.congr fun c hc => ?_
    have hmem : c ∈ addrs v.levels := ((v.side_sublist s').map Level.addr).subset hc
    have hlinks := hframe.links c fun hct => by
      rcases htouched c hct with hside | hnot
      · exact h.addrs_disjoint hs hs' hne hside hc
      · exact hnot hmem
    rw [hlevel c hmem] at hlinks
    exact hlinks

/-- `addOrdersAtPrice` puts a new level for the order `x` into the list of side `s`, which becomes
`place new`. -/
def PlacesLevel [BookOrder ω κ] (v : View ω) (x : ω) (s : Side) (place : Level ω → List (Level ω)) :
    Prop :=
  ∀ (b : LimitOrderBook ω κ) (new : Level ω), new.side = BookOrder.side x →
    new.price = BookOrder.price x → Spine b s (v.side s) → (addrs (new :: v.side s)).Nodup →
    (∀ l ∈ v.side s, (b.level l.addr).price = l.price) →
    (b.level new.addr).side = new.side ∧ (b.level new.addr).price = new.price →
    (v.side s).length ≤ b.ordersAtPricePool.size →
    ∃ b', b.addOrdersAtPrice new.addr = .ok b' ∧ Spine b' s (place new) ∧
      LinkFrame (addrs (new :: v.side s)) s b b' ∧
      b'.priceOrdersAtPrice =
        Function.update b.priceOrdersAtPrice (priceToIndex new.price) (some new.addr)

/-- **Opening a level for an order** whose bucket is empty. It fails only as the pool of levels
does.

**Proof sketch.** The order is first linked to itself, which nothing else sees since it is not in the
book. The pool then hands out a block that no level uses, so writing the new level leaves the spines
alone, and `hplace` is what linking it does to the spine of the side and to the table. The spine of the
other side and every old level are read off the frame of that operation, and the new level holds the
one order. -/
theorem openLevel_of_places [BookOrder ω κ] {allow : Fault → Prop} {b : LimitOrderBook ω κ}
    {v : View ω} (h : Shape b v) {p : Ptr} (hp : p ∉ ptrs v.levels) {x : ω}
    (hx : (b.node p).order = x) {s : Side} (hs : s.IsBookSide) {place : Level ω → List (Level ω)}
    (hplace : PlacesLevel (κ := κ) v x s place)
    (hlevels : ∀ new, (v.set s (place new)).levels.Perm (new :: v.levels))
    (hempty : ∀ l ∈ v.levels, priceToIndex l.price ≠ priceToIndex (BookOrder.price x))
    (halloc : ∀ l, Safe allow (fun r => MemPool.Allocated b.ordersAtPricePool r.2 l r.1)
      (b.ordersAtPricePool.allocate l)) :
    Safe allow (fun b' => b'.orderIndex = b.orderIndex ∧
      b'.orderPool.InUse = b.orderPool.InUse ∧ ∃ a,
        Shape b' (v.set s (place ⟨a, BookOrder.side x, BookOrder.price x, [(p, x)]⟩)))
      (b.openLevel p) := by
  set side := BookOrder.side x with hside
  set price := BookOrder.price x with hprice
  set b₀ := (b.setPrevOrder p (some p)).setNextOrder p (some p) with hb₀
  have hx₀ : (b₀.node p).order = x := by simp [hb₀, hx]
  have hshape₀ : Shape b₀ v := by
    refine h.congr (fun _ => rfl) rfl rfl (fun _ _ => rfl) fun q hq => ?_
    have hqp : q ≠ p := fun he => hp (he ▸ hq)
    simp [hb₀, hqp]
  unfold openLevel
  simp only [← hb₀, hx₀, ← hside, ← hprice]
  refine Safe.bind (halloc _) ?_
  rintro ⟨a, pool⟩ (hal : MemPool.Allocated b₀.ordersAtPricePool pool _ a)
  set new : Level ω := ⟨a, side, price, [(p, x)]⟩ with hnew
  set b₁ : LimitOrderBook ω κ := { b₀ with ordersAtPricePool := pool } with hb₁
  have hfresh : a ∉ addrs v.levels := fun ha => hal.fresh ((hshape₀.heap.inUse a).mpr ha)
  have hlevel : ∀ c, b₁.level c =
      if c = a then { side, price, firstOrder := some p } else b₀.level c := by
    intro c
    simp only [level, hb₁, hal.get, Function.update_apply]
  have hold : ∀ c ∈ addrs v.levels, b₁.level c = b₀.level c := fun c hc => by
    rw [hlevel, if_neg fun he : c = a => hfresh (he ▸ hc)]
  have hsub : ∀ {t : Side} {c}, c ∈ addrs (v.side t) → c ∈ addrs v.levels := fun {t} {c} hc =>
    ((v.side_sublist t).map Level.addr).subset hc
  have hspine₁ : Spine b₁ s (v.side s) := by
    refine ⟨(hshape₀.spine s hs).best, (hshape₀.spine s hs).ring.congr fun c hc => ?_⟩
    simp only [hold c (hsub hc), and_self]
  obtain ⟨b', hb', hspine, hframe, htable⟩ := hplace b₁ new rfl rfl hspine₁
    (List.nodup_cons.mpr ⟨fun hc => hfresh (hsub hc),
      hshape₀.heap.addr_nodup.sublist ((v.side_sublist s).map _)⟩)
    (fun l hl => by
      rw [hold _ (hsub (List.mem_map_of_mem hl))]
      exact (hshape₀.levelAt hl).price)
    (by simp [hnew, hlevel])
    (by rw [show b₁.ordersAtPricePool.size = b₀.ordersAtPricePool.size from hal.size]
        exact hshape₀.heap.length_le (v.side_sublist s))
  simp only [show b₁.addOrdersAtPrice a = .ok b' from hb', safe_ok]
  have hnode : b'.node = b₀.node := by
    funext q
    simp only [node, hframe.orderPool, hb₁]
  refine ⟨hframe.orderIndex, ?_, a, ⟨fun s' hs' => ?_, Heap.perm ?_ (hlevels new).symm⟩⟩
  · rw [hframe.orderPool]
    simp [hb₁, hb₀, setNextOrder, setPrevOrder]
  · by_cases he : s' = s
    · subst he
      rwa [View.side_set_self]
    · rw [View.side_set_of_ne _ _ hs hs' he]
      refine hshape₀.spine_other hs hs' he hframe (fun c hc => ?_) rfl hold
      rcases List.mem_cons.mp hc with rfl | hc
      · exact .inr hfresh
      · exact .inl hc
  · refine hshape₀.heap.insert hfresh ?_ ?_ (fun l hl => ?_) hempty htable fun c => ?_
    · rw [ptrs_cons]
      exact List.nodup_cons.mpr ⟨hp, hshape₀.heap.ptr_nodup⟩
    · refine ⟨(hframe.fields a).1.trans ?_, (hframe.fields a).2.1.trans ?_,
        (hframe.fields a).2.2.trans ?_, ?_, fun y hy => ?_⟩
      iterate 3 simp [hlevel, hnew, Level.ptrs]
      · simp [hnode, hb₀, hnew, Level.ptrs, Linked]
      · obtain rfl : y = (p, x) := by simpa [hnew] using hy
        rw [hnode, hx₀]
    · have hfields := hframe.fields l.addr
      rw [hold _ (List.mem_map_of_mem hl)] at hfields
      exact (hshape₀.heap.levelAt l hl).congr hfields.1 hfields.2.1 hfields.2.2
        fun q _ => by rw [hnode]
    · rw [hframe.inUse]
      exact hal.inUse c

/-- A level for an order of a book side goes to its place by price. -/
lemma placesLevel_insert [BookOrder ω κ] {v : View ω} {x : ω} (hs : (BookOrder.side x).IsBookSide)
    (hempty : ∀ l ∈ v.levels, priceToIndex l.price ≠ priceToIndex (BookOrder.price x)) :
    PlacesLevel (κ := κ) v x (BookOrder.side x) fun new =>
      insertLevel new (v.side (BookOrder.side x)) := by
  intro b new hside hprice hspine hnd hprices hnew hsize
  rw [← hside] at hs hspine hnd hprices hsize ⊢
  refine addOrdersAtPrice_spec new hs hspine hnd hprices hnew (fun l hl he => ?_) hsize
  exact hempty l (View.mem_levels_of_side hl) (by rw [he, hprice])

/-- A level for an order whose side names neither list goes behind the asks. -/
lemma placesLevel_last [BookOrder ω κ] {v : View ω} {x : ω}
    (hs : ¬ (BookOrder.side x).IsBookSide) :
    PlacesLevel (κ := κ) v x .sell fun new => v.side .sell ++ [new] := by
  intro b new hside hprice hspine hnd _ hnew _
  rw [← hside] at hs
  exact addOrdersAtPrice_other new hs hspine hnd hnew

/-- The last level of a side moved to the front. -/
lemma View.levels_append_level (v : View ω) (s : Side) (new : Level ω) :
    (v.set s (v.side s ++ [new])).levels.Perm (new :: v.levels) := by
  have h := v.levels_set_perm s (v.side s) [new] []
  rwa [List.append_nil, List.append_nil, View.set_side] at h

/-- **Taking a level out of the list of its side**, of which it may be the only one. -/
theorem detachEntry_spec {b : LimitOrderBook ω κ} {x : Level ω} {l₁ l₂ : List (Level ω)}
    {side : Side} (hside : side.IsBookSide) (hs : Spine b side (l₁ ++ x :: l₂))
    (hd : (addrs (l₁ ++ x :: l₂)).Nodup) :
    ∃ b', b.detachEntry side x.addr = .ok b' ∧ Spine b' side (l₁ ++ l₂) ∧
      LinkFrame (addrs (l₁ ++ x :: l₂)) side b b' ∧
      b'.priceOrdersAtPrice = b.priceOrdersAtPrice := by
  have hself : (b.level x.addr).nextEntry = some x.addr ↔ l₁ ++ l₂ = [] := by
    have hring := hs.ring
    rw [addrs_append, addrs_cons] at hring hd
    rw [Ring.next_self_iff hring hd]
    simp [addrs]
  unfold detachEntry
  by_cases hne : l₁ ++ l₂ = []
  · refine ⟨b.setBest side none, if_pos (hself.mpr hne), ⟨?_, ?_⟩,
      ⟨rfl, rfl, rfl, fun _ => ⟨rfl, rfl, rfl⟩, fun _ _ => ⟨rfl, rfl⟩,
        fun s' hs' he => best_setBest_of_ne b none hside hs' he⟩, rfl⟩
    · rw [hne]
      exact best_setBest_self b side none
    · rw [hne]
      trivial
  · rw [if_neg (hself.not.mpr hne)]
    exact unlinkEntry_spec hside hs hd hne

/-- **Removing a level**: it leaves the list of its side, the table and the pool.

**Proof sketch.** `detachEntry_spec` takes the level out of the ring of its side. Its bucket is then
cleared and its block released, which no other level uses, so the heap is the one of the rest
(`Heap.erase`). -/
theorem removeOrdersAtPrice_spec {b : LimitOrderBook ω κ} {v : View ω} {s : Side} {l : Level ω}
    {l₁ l₂ : List (Level ω)} {price : ℤ} (h : Shape b v) (hs : s.IsBookSide)
    (hv : v.side s = l₁ ++ l :: l₂) (hprice : priceToIndex l.price = priceToIndex price) :
    ∃ b', b.removeOrdersAtPrice s price = .ok b' ∧ Shape b' (v.set s (l₁ ++ l₂)) ∧
      b'.orderIndex = b.orderIndex ∧ b'.orderPool = b.orderPool := by
  have hl : l ∈ v.side s := by simp [hv]
  have hspine := h.spine s hs
  rw [hv] at hspine
  have hsided : (addrs (l₁ ++ l :: l₂)).Nodup :=
    h.heap.addr_nodup.sublist (hv ▸ (v.side_sublist s).map Level.addr)
  set rest := (v.set s (l₁ ++ l₂)).levels with hrest
  have hheap : Heap b (l :: rest) := h.heap.perm (View.levels_perm_cons hv)
  obtain ⟨b₁, hb₁, hspine₁, hframe, htable⟩ := detachEntry_spec hs hspine hsided
  have hinUse : b₁.ordersAtPricePool.InUse l.addr := by
    rw [hframe.inUse, hheap.inUse]
    exact List.mem_cons_self ..
  set b' : LimitOrderBook ω κ :=
    { b₁.setOrdersAtPrice price none with
      ordersAtPricePool := b₁.ordersAtPricePool.release l.addr } with hb'
  have hlevel : ∀ c, b'.level c = b₁.level c := fun c => by simp [level, hb']
  have hnode : ∀ q, b'.node q = b.node q := fun q => by
    change b₁.orderPool.get q = _
    rw [hframe.orderPool]
    rfl
  refine ⟨b', ?_, ⟨fun s' hs' => ?_, hheap.erase (fun m hm => ?_) ?_ fun c => ?_⟩,
    hframe.orderIndex, hframe.orderPool⟩
  · unfold removeOrdersAtPrice
    rw [h.heap.bucket_of_mem (View.mem_levels_of_side hl) price hprice, deref_some, ok_bind, hb₁,
      ok_bind]
    change (b₁.ordersAtPricePool.deallocate l.addr >>= _) = _
    rw [MemPool.deallocate_eq hinUse]
    rfl
  · have hspine' : Spine b₁ s' ((v.set s (l₁ ++ l₂)).side s') := by
      by_cases he : s' = s
      · subst he
        rwa [View.side_set_self]
      · rw [View.side_set_of_ne _ _ hs hs' he]
        exact h.spine_other hs hs' he hframe (fun c hc => .inl (hv ▸ hc)) rfl fun _ _ => rfl
    exact ⟨hspine'.best, hspine'.ring.congr fun c _ => by simp only [hlevel, and_self]⟩
  · have hfields := hframe.fields m.addr
    rw [← hlevel] at hfields
    exact (hheap.levelAt m (List.mem_cons_of_mem _ hm)).congr hfields.1 hfields.2.1 hfields.2.2
      fun q _ => hnode q
  · rw [← htable, hprice]
    rfl
  · rw [← hframe.inUse]
    exact MemPool.inUse_release ..

end Common
