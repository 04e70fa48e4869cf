import Mathlib.Data.List.Flatten
import HftSystem.Exchange.CancelIndex

set_option relaxedAutoImplicit false
set_option autoImplicit false

/-!
# What a cancel leaves alone

`cancel` takes one order out of the book and touches nothing else: no other order, no other level, no
place in a queue and no place of a level. A cancel that finds no order leaves the whole book alone.

## Main definitions

* `Common.withoutOrder` — levels without one of their orders.
* `Exchange.TakesOut` — all that changes when one order is taken out.

## Main results

* `Exchange.TakesOut.of_represents` — the view without the order determines all of it.
* `Exchange.cancel_exact` — a cancel takes out exactly its order, or is rejected.
-/

namespace Common

variable {ω κ : Type} [DecidableEq ω]

/-- **Levels without an order**: a level with no other order is gone, and the other levels stay in their
places, with the other orders in their places. -/
def withoutOrder (x : Ptr × ω) (ls : List (Level ω)) : List (Level ω) :=
  (ls.filter fun l => l.queue ≠ [x]).map fun l => { l with queue := l.queue.erase x }

/-- An order is taken out of both parts of a list of levels. -/
lemma withoutOrder_append (x : Ptr × ω) (ls ls' : List (Level ω)) :
    withoutOrder x (ls ++ ls') = withoutOrder x ls ++ withoutOrder x ls' := by
  rw [withoutOrder, List.filter_append, List.map_append]
  rfl

/-- The addresses of the levels that are left. -/
lemma addrs_withoutOrder (x : Ptr × ω) (ls : List (Level ω)) :
    addrs (withoutOrder x ls) = addrs (ls.filter fun l => l.queue ≠ [x]) := by
  rw [withoutOrder, addrs, List.map_map]
  rfl

/-- Levels without the order stay as they are. -/
lemma withoutOrder_of_not_mem {x : Ptr × ω} {ls : List (Level ω)} (h : x ∉ orders ls) :
    withoutOrder x ls = ls := by
  have hqueue : ∀ l ∈ ls, x ∉ l.queue := fun l hl hx => h (mem_orders.mpr ⟨l, hl, hx⟩)
  have hfilter : (ls.filter fun l => l.queue ≠ [x]) = ls := by
    refine List.filter_eq_self.mpr fun l hl => decide_eq_true fun hq => hqueue l hl ?_
    rw [hq]
    exact List.mem_singleton.mpr rfl
  rw [withoutOrder, hfilter]
  refine (List.map_congr_left fun l hl => ?_).trans (List.map_id ls)
  rw [List.erase_of_not_mem (hqueue l hl)]
  rfl

/-- The level of the order. -/
lemma withoutOrder_level {x : Ptr × ω} {l : Level ω} {q₁ q₂ : List (Ptr × ω)}
    (hq : l.queue = q₁ ++ x :: q₂) (hx : x ∉ q₁) : withoutOrder x [l] = l.withQueue (q₁ ++ q₂) := by
  have herase : l.queue.erase x = q₁ ++ q₂ := by
    rw [hq, List.erase_append_right _ hx, List.erase_cons_head]
  have honly : l.queue = [x] ↔ q₁ ++ q₂ = [] := by
    rw [hq]
    cases q₁ with
    | nil => simp
    | cons y q₁ => simp
  unfold withoutOrder
  by_cases hempty : q₁ ++ q₂ = []
  · rw [List.filter_cons_of_neg (by simpa using honly.mpr hempty), hempty]
    rfl
  · rw [List.filter_cons_of_pos (by simpa using honly.not.mpr hempty), Level.withQueue_of_ne hempty,
      ← herase]
    rfl

section Sides

variable {b : LimitOrderBook ω κ} {v : View ω} {s : Side} {l : Level ω} {l₁ l₂ : List (Level ω)}
  {q₁ q₂ : List (Ptr × ω)} {x : Ptr × ω}

/-- **Taking an order out of its level** takes it out of its side. -/
lemma withoutOrder_side (h : Heap b v.levels) (hv : v.side s = l₁ ++ l :: l₂)
    (hq : l.queue = q₁ ++ x :: q₂) :
    withoutOrder x (v.side s) = l₁ ++ (l.withQueue (q₁ ++ q₂) ++ l₂) := by
  have hnodup : (orders (v.side s)).Nodup :=
    (List.Nodup.of_map Prod.fst h.ptr_nodup).sublist ((v.side_sublist s).flatMap _)
  rw [hv, orders_append, orders_cons, hq] at hnodup
  have hfront : x ∉ orders l₁ ∧ x ∉ q₁ ∧ x ∉ orders l₂ := by
    simp only [List.nodup_append, List.nodup_cons, List.mem_append, List.mem_cons] at hnodup
    refine ⟨fun hx => ?_, fun hx => ?_, fun hx => ?_⟩
    · exact hnodup.2.2 x hx x (by simp) rfl
    · exact hnodup.2.1.1.2.2 x hx x (by simp) rfl
    · exact hnodup.2.1.2.2 x (by simp) x hx rfl
  rw [hv, List.append_cons, withoutOrder_append, withoutOrder_append, withoutOrder_level hq hfront.2.1,
    withoutOrder_of_not_mem hfront.1, withoutOrder_of_not_mem hfront.2.2, List.append_assoc]

/-- The other side is left alone. -/
lemma withoutOrder_other (h : Heap b v.levels) (hv : v.side s = l₁ ++ l :: l₂)
    (hq : l.queue = q₁ ++ x :: q₂) {s' : Side} (hs : s.IsBookSide) (hs' : s'.IsBookSide)
    (hne : s' ≠ s) : withoutOrder x (v.side s') = v.side s' := by
  refine withoutOrder_of_not_mem fun hx => ?_
  have hnodup := (List.Nodup.of_map Prod.fst h.ptr_nodup : (orders v.levels).Nodup)
  rw [(orders_perm (View.levels_perm_cons hv)).nodup_iff, orders_cons, List.nodup_append] at hnodup
  obtain ⟨m, hm, hxm⟩ := mem_orders.mp hx
  refine hnodup.2.2 x (by simp [hq]) x (mem_orders.mpr ⟨m, View.mem_levels_of_side (s := s') ?_, hxm⟩) rfl
  rw [View.side_set_of_ne _ _ hs hs' hne]
  exact hm

/-- **The view without an order**, side by side. -/
lemma View.side_set_withQueue (h : Heap b v.levels) (hs : s.IsBookSide) (hv : v.side s = l₁ ++ l :: l₂)
    (hq : l.queue = q₁ ++ x :: q₂) {s' : Side} (hs' : s'.IsBookSide) :
    (v.set s (l₁ ++ (l.withQueue (q₁ ++ q₂) ++ l₂))).side s' = withoutOrder x (v.side s') := by
  by_cases hne : s' = s
  · rw [hne, View.side_set_self, withoutOrder_side h hv hq]
  · rw [View.side_set_of_ne _ _ hs hs' hne, withoutOrder_other h hv hq hs hs' hne]

end Sides

end Common

namespace Exchange

open Common LimitOrderBook Fallible MEOrderBook

/-- **The order `x` is taken out of a book, and nothing else changes.**

* The orders of the new view are those of the old one but `x`: each with its address, its record and so
  its quantity.
* Each side of the new view is the old one without the order: the level of `x` is gone exactly if `x` was
  its only order, and everything else keeps its place.
* The pointer to the best level leads to the first level that is left.
* The pools lose the block of the order and, with its last order, the block of the level; blocks that stay
  in use keep their records.
* The table loses the entry of the order. -/
structure TakesOut (b : MEOrderBook) (v : View MEOrder) (x : Ptr × MEOrder) (b' : MEOrderBook)
    (v' : View MEOrder) : Prop where
  represents : Represents b'.toLimitOrderBook v'
  orders : (orders v.levels).Perm (x :: Common.orders v'.levels)
  side : ∀ s : Side, s.IsBookSide → v'.side s = withoutOrder x (v.side s)
  best : ∀ s : Side, s.IsBookSide →
    b'.bestOrdersByPrice s = (addrs ((v.side s).filter fun l => l.queue ≠ [x])).head?
  orderPool : ∀ p, b'.orderPool.InUse p ↔ b.orderPool.InUse p ∧ p ≠ x.1
  levelPool : ∀ a, b'.ordersAtPricePool.InUse a ↔
    b.ordersAtPricePool.InUse a ∧ ∀ l ∈ v.levels, l.queue = [x] → l.addr ≠ a
  order : ∀ p, b'.orderPool.InUse p → (b'.node p).order = (b.node p).order
  level : ∀ a, b'.ordersAtPricePool.InUse a →
    (b'.level a).side = (b.level a).side ∧ (b'.level a).price = (b.level a).price
  index : b'.orderIndex =
    Function.update b.orderIndex (x.2.clientId, x.2.clientOrderId) none

variable {b b' : MEOrderBook} {v v' : View MEOrder} {x : Ptr × MEOrder}

/-- The levels that are left. -/
lemma mem_withoutOrder {ls : List (Level MEOrder)} {l' : Level MEOrder} : l' ∈ withoutOrder x ls ↔
    ∃ l ∈ ls, l.queue ≠ [x] ∧ { l with queue := l.queue.erase x } = l' := by
  simp only [withoutOrder, List.mem_map, List.mem_filter, decide_eq_true_eq, and_assoc]

/-- **The view without the order determines everything else.**

**Proof sketch.** The levels that are left are the old ones without the order, less the one that it was
alone in. Both views determine their heaps: the blocks in use are the pointers and the addresses of the
view, the records and the fields of the levels are those that it lists, and the best levels are the
heads of its sides. So each clause is read off the two views. -/
lemma TakesOut.of_represents (h : Represents b.toLimitOrderBook v)
    (h' : Represents b'.toLimitOrderBook v')
    (horders : (Common.orders v.levels).Perm (x :: Common.orders v'.levels))
    (hside : ∀ s : Side, s.IsBookSide → v'.side s = withoutOrder x (v.side s))
    (hindex : b'.orderIndex = Function.update b.orderIndex (x.2.clientId, x.2.clientOrderId) none) :
    TakesOut b v x b' v' := by
  have hptrs : (ptrs v.levels).Perm (x.1 :: ptrs v'.levels) := horders.map Prod.fst
  have hnodup := hptrs.nodup_iff.mp h.shape.heap.ptr_nodup
  -- each level that is left is an old one without the order
  have hlevels (l' : Level MEOrder) : l' ∈ v'.levels ↔
      ∃ l ∈ v.levels, l.queue ≠ [x] ∧ { l with queue := l.queue.erase x } = l' := by
    simp only [View.mem_levels]
    constructor
    · rintro ⟨s, hs, hl'⟩
      rw [hside s hs, mem_withoutOrder] at hl'
      obtain ⟨l, hl, hkept⟩ := hl'
      exact ⟨l, ⟨s, hs, hl⟩, hkept⟩
    · rintro ⟨l, ⟨s, hs, hl⟩, hkept⟩
      exact ⟨s, hs, by rw [hside s hs, mem_withoutOrder]; exact ⟨l, hl, hkept⟩⟩
  have hlevelPool (a : Ptr) : b'.ordersAtPricePool.InUse a ↔
      b.ordersAtPricePool.InUse a ∧ ∀ l ∈ v.levels, l.queue = [x] → l.addr ≠ a := by
    rw [h'.shape.heap.inUse, h.shape.heap.inUse, mem_addrs, mem_addrs]
    constructor
    · rintro ⟨l', hl', rfl⟩
      obtain ⟨l, hl, hkept, rfl⟩ := (hlevels l').mp hl'
      refine ⟨⟨l, hl, rfl⟩, fun m hm honly haddr => hkept ?_⟩
      rw [← h.shape.heap.eq_of_addr hm hl haddr]
      exact honly
    · rintro ⟨⟨l, hl, rfl⟩, hkept⟩
      exact ⟨_, (hlevels _).mpr ⟨l, hl, fun honly => hkept l hl honly rfl, rfl⟩, rfl⟩
  refine ⟨h', horders, hside, fun s hs => ?_, fun p => ?_, hlevelPool, fun p hp => ?_, fun a ha => ?_,
    hindex⟩
  · rw [(h'.shape.spine s hs).best, hside s hs, addrs_withoutOrder]
  · rw [h'.ledger.inUse, h.ledger.inUse, hptrs.mem_iff, List.mem_cons]
    have hx := (List.nodup_cons.mp hnodup).1
    exact ⟨fun hp => ⟨.inr hp, fun he => hx (he ▸ hp)⟩, fun hp => hp.1.resolve_left hp.2⟩
  · obtain ⟨y, hy, rfl⟩ := mem_ptrs.mp ((h'.ledger.inUse p).mp hp)
    have hold : y ∈ Common.orders v.levels := horders.mem_iff.mpr (List.mem_cons_of_mem _ hy)
    obtain ⟨l', hl', hyl'⟩ := mem_orders.mp hy
    obtain ⟨l, hl, hyl⟩ := mem_orders.mp hold
    rw [(h'.shape.heap.levelAt l' hl').record y hyl', (h.shape.heap.levelAt l hl).record y hyl]
  · obtain ⟨l', hl', rfl⟩ := mem_addrs.mp ((h'.shape.heap.inUse a).mp ha)
    have hat' := h'.shape.heap.levelAt l' hl'
    obtain ⟨l, hl, -, rfl⟩ := (hlevels l').mp hl'
    have hat := h.shape.heap.levelAt l hl
    exact ⟨hat'.side.trans hat.side.symm, hat'.price.trans hat.price.symm⟩

/-- After a run of admissible requests none of which takes an entry of the table that is in use, the book
is as `cancel_exact` asks. -/
lemma exists_cancelable_of_run {requests : List MEClientRequest} {b : MEOrderBook}
    (hadm : Meets (processClientRequest matchAndRest) Admissible MEOrderBook.new requests)
    (hfree : Meets (processClientRequest matchAndRest) FindsFreeEntry MEOrderBook.new requests)
    (hb : requests.foldlM (processClientRequest matchAndRest) MEOrderBook.new = .ok b) :
    ∃ v, WellFormed b v ∧ Cancelable b := by
  obtain ⟨v, hv⟩ := exists_bookInvariant_of_run hadm hb
  exact ⟨v, hv.wellFormed, cancelable_of_indexed ((safe_indexed_run hfree).of_eq_ok hb)⟩

/-- **A cancel takes out exactly its order**, and tells the client and the market; if the order does not
rest, it is rejected and nothing happens.

**Proof sketch.** If the order rests, the table of client orders leads to its pointer, so `cancel`
finds the order and takes it out (`cancel_of_some`); the view without it says the rest
(`TakesOut.of_represents`). If it does not rest, its entry is empty, since an entry leads to an order
of its ids. -/
theorem cancel_exact (h : Represents b.toLimitOrderBook v) (hvalid : v.Valid) (hindex : Cancelable b)
    {clientId orderId : ℕ} (hclient : clientId < meMaxNumClients) (horder : orderId < meMaxOrderIds)
    (tickerId : ℕ) :
    (∀ x ∈ orders v.levels, x.2.clientId = clientId → x.2.clientOrderId = orderId →
      ∃ b' v', b.cancel clientId orderId tickerId = .ok b' ∧ TakesOut b v x b' v' ∧
        b'.matchingEngine = b.matchingEngine.push
          [{ type := .canceled, clientId, tickerId, clientOrderId := orderId,
             marketOrderId := x.2.marketOrderId, side := x.2.side, price := x.2.price,
             execQty := Qty.invalid, leavesQty := x.2.qty }]
          [{ type := .cancel, orderId := x.2.marketOrderId, tickerId, side := x.2.side,
             price := x.2.price, qty := 0, priority := x.2.priority }]) ∧
    ((∀ x ∈ orders v.levels, ¬ (x.2.clientId = clientId ∧ x.2.clientOrderId = orderId)) →
      ∃ b', b.cancel clientId orderId tickerId = .ok b' ∧
        b'.toLimitOrderBook = b.toLimitOrderBook ∧
        b'.matchingEngine = b.matchingEngine.push
          [{ type := .cancelRejected, clientId, tickerId, clientOrderId := orderId }] []) := by
  have hfind : b.findOrder clientId orderId = .ok (b.orderIndex (clientId, orderId)) := by
    unfold findOrder
    rw [if_pos hclient, if_pos horder]
  refine ⟨?_, fun hnone => ?_⟩
  · rintro x hx rfl rfl
    obtain ⟨l, hl, hxl⟩ := mem_orders.mp hx
    have hrecord : (b.node x.1).order = x.2 := (h.shape.heap.levelAt l hl).record x hxl
    have hinUse : b.orderPool.InUse x.1 := (h.ledger.inUse _).mpr (mem_ptrs.mpr ⟨x, hx, rfl⟩)
    have hentry := (hindex.index x.2.clientId x.2.clientOrderId x.1).mpr
      ⟨hinUse, by rw [hrecord], by rw [hrecord]⟩
    rw [hentry] at hfind
    obtain ⟨s, hs, hl⟩ := View.mem_levels.mp hl
    obtain ⟨l₁, l₂, hv⟩ := List.append_of_mem hl
    obtain ⟨q₁, q₂, hq⟩ := List.append_of_mem hxl
    have hslot : clientOrderSlot x.2.clientId x.2.clientOrderId =
        some (x.2.clientId, x.2.clientOrderId) := if_pos ⟨hclient, horder⟩
    obtain ⟨b', hb', hrep, htable, hengine, -⟩ :=
      cancel_of_some h hvalid hs hv hq hslot hfind tickerId
    exact ⟨b', _, hb', .of_represents h hrep (orders_remove hv hq)
      (fun _ hs' => View.side_set_withQueue h.shape.heap hs hv hq hs') htable, hengine⟩
  · have hentry : b.orderIndex (clientId, orderId) = none := by
      refine Option.eq_none_iff_forall_ne_some.mpr fun p hp => ?_
      obtain ⟨x, hx, -, hslot⟩ := h.ledger.index _ _ hp
      obtain ⟨-, -, hids⟩ := clientOrderSlot_eq_some.mp hslot
      exact hnone x hx ⟨(Prod.mk.inj hids).1.symm, (Prod.mk.inj hids).2.symm⟩
    rw [hentry] at hfind
    refine ⟨_, cancel_of_none hfind tickerId, rfl, ?_⟩
    simp [respond, MatchingEngine.push]

/-- Four bids in two levels, and an ask. -/
def twoLevels : List MEClientRequest :=
  [{ type := .new, clientId := 1, tickerId := 0, orderId := 1, side := .buy, price := 10, qty := 5 },
   { type := .new, clientId := 2, tickerId := 0, orderId := 1, side := .buy, price := 10, qty := 3 },
   { type := .new, clientId := 3, tickerId := 0, orderId := 1, side := .buy, price := 10, qty := 7 },
   { type := .new, clientId := 1, tickerId := 0, orderId := 2, side := .buy, price := 9, qty := 2 },
   { type := .new, clientId := 4, tickerId := 0, orderId := 1, side := .sell, price := 12, qty := 4 }]

/-- The second of the three orders of a level is canceled; four other orders rest. -/
theorem cancel_exact_sample :
    ∃ b, twoLevels.foldlM (processClientRequest matchAndRest) MEOrderBook.new = .ok b ∧
      ∃ v x b' v', (∀ ids ∈ [(1, 1), (2, 1), (3, 1), (1, 2), (4, 1)],
          ∃ y ∈ orders v.levels, (y.2.clientId, y.2.clientOrderId) = ids) ∧
        x ∈ orders v.levels ∧ (x.2.clientId, x.2.clientOrderId) = (2, 1) ∧
        b.cancel 2 1 0 = .ok b' ∧ TakesOut b v x b' v' ∧
        b'.matchingEngine = b.matchingEngine.push
          [{ type := .canceled, clientId := 2, tickerId := 0, clientOrderId := 1, marketOrderId := 2,
             side := .buy, price := 10, execQty := Qty.invalid, leavesQty := 3 }]
          [{ type := .cancel, orderId := 2, tickerId := 0, side := .buy, price := 10, qty := 0,
             priority := 2 }] := by
  obtain ⟨b, hb, hentries, hentry, hnode⟩ := Safe.exists_ok (by decide +kernel :
    Safe (fun _ => False)
      (fun b => (∀ ids ∈ [(1, 1), (2, 1), (3, 1), (1, 2), (4, 1)], b.orderIndex ids ≠ none) ∧
        b.orderIndex (2, 1) = some 1 ∧ (b.node 1).order =
          { tickerId := 0, clientId := 2, clientOrderId := 1, marketOrderId := 2, side := .buy,
            price := 10, qty := 3, priority := 2 })
      (twoLevels.foldlM (processClientRequest matchAndRest) MEOrderBook.new))
  obtain ⟨v, hwf, hcancelable⟩ := exists_cancelable_of_run
    (meets_admissible (by decide) (by decide) (by decide)) (by decide +kernel) hb
  have hrep := hwf.repr
  -- an entry of the table leads to a resting order
  have hrests : ∀ k p, b.orderIndex k = some p →
      ∃ y ∈ orders v.levels, y.1 = p ∧ (y.2.clientId, y.2.clientOrderId) = k := by
    intro k p hp
    obtain ⟨y, hy, hyp, hslot⟩ := hrep.ledger.index k p hp
    obtain ⟨-, -, hids⟩ := clientOrderSlot_eq_some.mp hslot
    exact ⟨y, hy, hyp, hids.symm⟩
  obtain ⟨x, hx, hxp, hids⟩ := hrests _ _ hentry
  obtain ⟨l, hl, hxl⟩ := mem_orders.mp hx
  have hrecord : (b.node x.1).order = x.2 := (hrep.shape.heap.levelAt l hl).record x hxl
  rw [hxp, hnode] at hrecord
  obtain ⟨b', v', hb', htaken, hsent⟩ := (cancel_exact hrep hwf.valid hcancelable
    (by decide : 2 < meMaxNumClients) (by decide : 1 < meMaxOrderIds) 0).1 x hx
    (Prod.mk.inj hids).1 (Prod.mk.inj hids).2
  refine ⟨b, hb, v, x, b', v', fun ids hmem => ?_, hx, hids, hb', htaken, ?_⟩
  · obtain ⟨p, hp⟩ := Option.ne_none_iff_exists'.mp (hentries ids hmem)
    obtain ⟨y, hy, -, hy'⟩ := hrests _ _ hp
    exact ⟨y, hy, hy'⟩
  · rw [hsent, ← hrecord]

end Exchange
