import HftSystem.Common.LimitOrderBook

set_option relaxedAutoImplicit false
set_option autoImplicit false

/-!
# Stale entries of the table of price levels

An operation of the book looks at one bucket of the table of price levels, that of the order it is
about. When this bucket is none of `S`, the operation does the same whatever the entries for the
buckets in `S` are: it neither sees a stale entry there nor writes to one.

## Main definitions

* `Common.LimitOrderBook.overlay` — the book with other entries for some buckets.

## Main results

* `Common.LimitOrderBook.addOrder_overlay`, `Common.LimitOrderBook.removeOrder_overlay` — adding
  and removing an order commute with `overlay`.
-/

namespace Common.LimitOrderBook

variable {ω κ : Type} {S : ℕ → Bool} {t : ℕ → Option Ptr}

/-- The book with the entries of `t` in the table for the buckets in `S`. -/
def overlay (S : ℕ → Bool) (t : ℕ → Option Ptr) (b : LimitOrderBook ω κ) : LimitOrderBook ω κ :=
  { b with priceOrdersAtPrice := fun i => if S i then t i else b.priceOrdersAtPrice i }

/-- Linking orders does not write to the levels. -/
@[simp] lemma level_setNextOrder (b : LimitOrderBook ω κ) (p : Ptr) (x : Option Ptr) (a : Ptr) :
    (b.setNextOrder p x).level a = b.level a := rfl

/-- The link between two orders does not change the levels. -/
@[simp] lemma level_setPrevOrder (b : LimitOrderBook ω κ) (p : Ptr) (x : Option Ptr) (a : Ptr) :
    (b.setPrevOrder p x).level a = b.level a := rfl

section Reads

variable (b : LimitOrderBook ω κ)

/-- Stale entries do not change the levels. -/
@[simp] lemma level_overlay (a : Ptr) : (b.overlay S t).level a = b.level a := rfl

/-- They do not change the orders. -/
@[simp] lemma node_overlay (p : Ptr) : (b.overlay S t).node p = b.node p := rfl

/-- They do not change the best levels. -/
@[simp] lemma bestOrdersByPrice_overlay (s : Side) :
    (b.overlay S t).bestOrdersByPrice s = b.bestOrdersByPrice s := rfl

/-- They do not change the pool of levels. -/
@[simp] lemma ordersAtPricePool_overlay : (b.overlay S t).ordersAtPricePool = b.ordersAtPricePool := rfl

/-- A new best level beside stale entries. -/
@[simp] lemma setBest_overlay (s : Side) (best : Option Ptr) :
    (b.overlay S t).setBest s best = (b.setBest s best).overlay S t := rfl

/-- A link to the next level beside stale entries. -/
@[simp] lemma setNextEntry_overlay (a : Ptr) (x : Option Ptr) :
    (b.overlay S t).setNextEntry a x = (b.setNextEntry a x).overlay S t := rfl

/-- A link to the previous level beside stale entries. -/
@[simp] lemma setPrevEntry_overlay (a : Ptr) (x : Option Ptr) :
    (b.overlay S t).setPrevEntry a x = (b.setPrevEntry a x).overlay S t := rfl

/-- A first order of a level beside stale entries. -/
@[simp] lemma setFirstOrder_overlay (a : Ptr) (x : Option Ptr) :
    (b.overlay S t).setFirstOrder a x = (b.setFirstOrder a x).overlay S t := rfl

/-- A link to the next order beside stale entries. -/
@[simp] lemma setNextOrder_overlay (p : Ptr) (x : Option Ptr) :
    (b.overlay S t).setNextOrder p x = (b.setNextOrder p x).overlay S t := rfl

/-- A link to the previous order beside stale entries. -/
@[simp] lemma setPrevOrder_overlay (p : Ptr) (x : Option Ptr) :
    (b.overlay S t).setPrevOrder p x = (b.setPrevOrder p x).overlay S t := rfl

/-- A bucket that is left alone is found. -/
lemma getOrdersAtPrice_overlay {price : ℤ} (h : S (priceToIndex price) = false) :
    (b.overlay S t).getOrdersAtPrice price = b.getOrdersAtPrice price := by
  simp [getOrdersAtPrice, overlay, h]

/-- A bucket that is left alone is written. -/
lemma setOrdersAtPrice_overlay {price : ℤ} (h : S (priceToIndex price) = false) (a : Option Ptr) :
    (b.overlay S t).setOrdersAtPrice price a = (b.setOrdersAtPrice price a).overlay S t := by
  simp only [overlay, setOrdersAtPrice, LimitOrderBook.mk.injEq, true_and, and_true]
  funext i
  by_cases hi : i = priceToIndex price
  · subst hi
    simp [h]
  · simp [hi]

/-- Only the entries that change matter. -/
lemma overlay_congr {S' : ℕ → Bool}
    (h : ∀ i, (if S i then t i else b.priceOrdersAtPrice i) =
      if S' i then t i else b.priceOrdersAtPrice i) : b.overlay S t = b.overlay S' t := by
  simp only [overlay, LimitOrderBook.mk.injEq, true_and, and_true]
  exact funext h

end Reads

/-! ## The operations -/

section Operations

variable (b : LimitOrderBook ω κ)

/-- The walk over the levels does not look at the table. -/
lemma advanceTarget_overlay (s : Side) (price : ℤ) (best : Ptr) (fuel : ℕ) (after : Bool)
    (target : Ptr) : (b.overlay S t).advanceTarget s price best fuel after target =
      b.advanceTarget s price best fuel after target := by
  induction fuel generalizing after target with
  | zero => rfl
  | succ fuel ih => simp only [advanceTarget, level_overlay, ih]

/-- Neither does the search for the place of a level. -/
lemma findTarget_overlay (s : Side) (price : ℤ) (best : Ptr) :
    (b.overlay S t).findTarget s price best = b.findTarget s price best := by
  simp only [findTarget, level_overlay, advanceTarget_overlay, ordersAtPricePool_overlay]

/-- Linking a level behind another one does not look at the table. -/
lemma insertAfter_overlay (new target best : Ptr) :
    (b.overlay S t).insertAfter new target best = overlay S t <$> b.insertAfter new target best := by
  by_cases h : target = best
  · simp [insertAfter, h]
  · simp [insertAfter, h]

/-- Neither does linking it in front of another one. -/
lemma insertBefore_overlay (s : Side) (price : ℤ) (new target best : Ptr) :
    (b.overlay S t).insertBefore s price new target best =
      overlay S t <$> b.insertBefore s price new target best := by
  simp only [insertBefore, level_overlay, setPrevEntry_overlay, setNextEntry_overlay, setBest_overlay, map_bind]
  refine bind_congr fun prev => ?_
  rw [apply_ite (Functor.map (overlay S t))]
  rfl

/-- Linking a level writes its entry, which must not be a stale one. -/
lemma addOrdersAtPrice_overlay {new : Ptr} (h : S (priceToIndex (b.level new).price) = false) :
    (b.overlay S t).addOrdersAtPrice new = overlay S t <$> b.addOrdersAtPrice new := by
  simp only [addOrdersAtPrice, level_overlay, setOrdersAtPrice_overlay b h, bestOrdersByPrice_overlay,
    setBest_overlay, setNextEntry_overlay, setPrevEntry_overlay, findTarget_overlay]
  split
  · rfl
  · rw [map_bind]
    refine bind_congr fun r => ?_
    split
    · exact insertAfter_overlay _ _ _ _
    · exact insertBefore_overlay _ _ _ _ _ _

/-- Unlinking a level does not look at the table. -/
lemma unlinkEntry_overlay (s : Side) (a : Ptr) :
    (b.overlay S t).unlinkEntry s a = overlay S t <$> b.unlinkEntry s a := by
  by_cases h : some a = b.bestOrdersByPrice s
  · simp [unlinkEntry, h]
  · simp [unlinkEntry, h]

/-- Neither does detaching it. -/
lemma detachEntry_overlay (s : Side) (a : Ptr) :
    (b.overlay S t).detachEntry s a = overlay S t <$> b.detachEntry s a := by
  simp only [detachEntry, level_overlay, setBest_overlay, unlinkEntry_overlay]
  split <;> rfl

/-- Removing a level clears its entry, which must not be a stale one. -/
lemma removeOrdersAtPrice_overlay (s : Side) {price : ℤ} (h : S (priceToIndex price) = false) :
    (b.overlay S t).removeOrdersAtPrice s price = overlay S t <$> b.removeOrdersAtPrice s price := by
  simp only [removeOrdersAtPrice, getOrdersAtPrice_overlay b h, detachEntry_overlay, map_bind,
    bind_map_left, setOrdersAtPrice_overlay _ h]
  rfl

/-- Queueing an order in its level does not look at the table. -/
lemma appendOrder_overlay (a p : Ptr) :
    (b.overlay S t).appendOrder a p = overlay S t <$> b.appendOrder a p := by
  simp [appendOrder]

/-- Neither does unlinking it. -/
lemma unlinkOrder_overlay (a : Option Ptr) (p : Ptr) :
    (b.overlay S t).unlinkOrder a p = overlay S t <$> b.unlinkOrder a p := by
  simp only [unlinkOrder, level_overlay, node_overlay, setPrevOrder_overlay, setNextOrder_overlay,
    setFirstOrder_overlay, level_setPrevOrder, level_setNextOrder, map_bind]
  refine bind_congr fun orderBefore => bind_congr fun orderAfter => bind_congr fun a => ?_
  by_cases h : (b.level a).firstOrder = some p
  · simp [h]
  · simp [h]

/-- The table of orders is another one. -/
lemma setIndex_overlay [DecidableEq κ] (slot : Option κ) (p : Option Ptr) :
    (b.overlay S t).setIndex slot p = overlay S t <$> b.setIndex slot p := by
  cases slot <;> rfl

variable [BookOrder ω κ]

variable {p : Ptr} (h : S (priceToIndex (BookOrder.price (b.node p).order)) = false)

include h in

/-- Opening a level at a price whose entry is not stale. -/
lemma openLevel_overlay : (b.overlay S t).openLevel p = overlay S t <$> b.openLevel p := by
  set b₁ := (b.setPrevOrder p (some p)).setNextOrder p (some p) with hb₁
  set new : OrdersAtPrice :=
    { side := BookOrder.side (b₁.node p).order, price := BookOrder.price (b₁.node p).order,
      firstOrder := some p } with hnew
  have hl : (b.overlay S t).openLevel p = b.ordersAtPricePool.allocate new >>= fun r =>
      overlay S t { b₁ with ordersAtPricePool := r.2 } |>.addOrdersAtPrice r.1 := rfl
  have hr : b.openLevel p = b.ordersAtPricePool.allocate new >>= fun r =>
      { b₁ with ordersAtPricePool := r.2 }.addOrdersAtPrice r.1 := rfl
  rw [hl, hr]
  cases hal : b.ordersAtPricePool.allocate new with
  | error f => rfl
  | ok r =>
    have hget := ((MemPool.safe_allocate _ _).of_eq_ok hal).get
    refine addOrdersAtPrice_overlay _ ?_
    have hlevel : level { b₁ with ordersAtPricePool := r.2 } r.1 = new := by
      simp [level, hget]
    rw [hlevel, hnew]
    simpa [hb₁] using h

include h in

/-- Queueing an order at a price whose entry is not stale. -/
lemma enqueueOrder_overlay : (b.overlay S t).enqueueOrder p = overlay S t <$> b.enqueueOrder p := by
  simp only [enqueueOrder, node_overlay, getOrdersAtPrice_overlay b h, appendOrder_overlay,
    openLevel_overlay b h]
  split <;> rfl

include h in

/-- Taking out an order at a price whose entry is not stale. -/
lemma dequeueOrder_overlay : (b.overlay S t).dequeueOrder p = overlay S t <$> b.dequeueOrder p := by
  simp only [dequeueOrder, node_overlay, getOrdersAtPrice_overlay b h, unlinkOrder_overlay,
    removeOrdersAtPrice_overlay b _ h]
  split <;> rfl

include h in
/-- **Adding an order** whose bucket is left alone. -/
theorem addOrder_overlay [DecidableEq κ] : (b.overlay S t).addOrder p = overlay S t <$> b.addOrder p := by
  simp only [addOrder, node_overlay, enqueueOrder_overlay b h, bind_map_left, setIndex_overlay, map_bind]

include h in
/-- **Removing an order** whose bucket is left alone. -/
theorem removeOrder_overlay [DecidableEq κ] :
    (b.overlay S t).removeOrder p = overlay S t <$> b.removeOrder p := by
  simp only [removeOrder, node_overlay, dequeueOrder_overlay b h, bind_map_left, setIndex_overlay, map_bind]
  rfl

end Operations

end Common.LimitOrderBook
