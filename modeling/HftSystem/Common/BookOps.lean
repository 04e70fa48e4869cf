import HftSystem.Common.BookRepr

set_option relaxedAutoImplicit false
set_option autoImplicit false

/-!
# The operations of a book on its view

`addOrder`, `removeOrder` and a change of quantity, each as one edit of the represented view,
and the validity of views, which each edit preserves.

## Main definitions

* `Common.Holding` — a book that holds a view and one order that is not in it yet.
* `Common.Placed` — the views that `addOrder` can make of a view.
* `Common.View.Valid` — sorted sides of non-empty levels, every order at home in its level.
* `Common.View.Fits` — the bucket of an order holds no foreign level.

## Main results

* `Common.safe_holdOrder`, `Common.safe_addOrder`, `Common.removeOrder_spec`,
  `Common.Represents.modifyOrder` — the operations.
* `Common.View.Valid.place`, `Common.View.Valid.remove`, `Common.View.Valid.modify` — they
  preserve validity.
-/

namespace Common

open CircularList LimitOrderBook Fallible

variable {ω κ : Type} [BookOrder ω κ]

/-! ## Allocating and adding an order -/

/-- The book holds a view, and the order `x` has been allocated at `p` and is not in it. -/
structure Holding (b : LimitOrderBook ω κ) (v : View ω) (p : Ptr) (x : ω) : Prop where
  shape : Shape b v
  fresh : p ∉ ptrs v.levels
  record : (b.node p).order = x
  inUse : ∀ q, b.orderPool.InUse q ↔ q = p ∨ q ∈ ptrs v.levels
  slots : ∀ y ∈ orders v.levels, (BookOrder.slot y.2).isSome
  index : ∀ k q, b.orderIndex k = some q →
    ∃ y ∈ orders v.levels, y.1 = q ∧ BookOrder.slot y.2 = some k

/-- **Allocating an order** leaves the view as it is. -/
lemma safe_holdOrder {allow : Fault → Prop} {b : LimitOrderBook ω κ} {v : View ω}
    (h : Represents b v) (x : ω)
    (halloc : Safe allow (fun r => MemPool.Allocated b.orderPool r.2 { order := x } r.1)
      (b.orderPool.allocate { order := x })) :
    Safe allow (fun r => Holding { b with orderPool := r.2 } v r.1 x)
      (b.orderPool.allocate { order := x }) := by
  refine halloc.mono (fun _ hf => hf) ?_
  rintro ⟨p, pool⟩ hal
  have hfresh : p ∉ ptrs v.levels := fun hp => hal.fresh ((h.ledger.inUse p).mpr hp)
  refine ⟨h.shape.congr (fun _ => rfl) rfl rfl (fun _ _ => rfl) fun q hq => ?_, hfresh, ?_,
    fun q => ?_, h.ledger.slots, h.ledger.index⟩
  · have hqp : q ≠ p := fun he => hfresh (he ▸ hq)
    simp [node, hal.get, hqp]
  · simp [node, hal.get]
  · exact (hal.inUse q).trans (by rw [h.ledger.inUse])

/-- What `addOrder` makes of a view. The order is appended to the level of its bucket, or a
level is opened for it. -/
inductive Placed (v : View ω) (p : Ptr) (x : ω) : View ω → Prop
  | append {s : Side} {l : Level ω} {l₁ l₂ : List (Level ω)} (hs : s.IsBookSide)
      (hv : v.side s = l₁ ++ l :: l₂)
      (hl : priceToIndex l.price = priceToIndex (BookOrder.price x)) :
      Placed v p x (v.set s (l₁ ++ { l with queue := l.queue ++ [(p, x)] } :: l₂))
  | openLevel (a : Ptr)
      (hempty : ∀ l ∈ v.levels, priceToIndex l.price ≠ priceToIndex (BookOrder.price x)) :
      Placed v p x (v.set (BookOrder.side x) (insertLevel
        ⟨a, BookOrder.side x, BookOrder.price x, [(p, x)]⟩ (v.side (BookOrder.side x))))

/-- **Adding an order** adds it to the orders of the book and moves no other. -/
lemma Placed.orders_perm {v v' : View ω} {p : Ptr} {x : ω} (h : Placed v p x v') :
    (orders v'.levels).Perm ((p, x) :: orders v.levels) := by
  cases h with
  | @append s l l₁ l₂ hs hv hl =>
    refine (Common.orders_perm (v.levels_set_perm s l₁ [_] l₂)).trans ?_
    refine List.Perm.trans ?_ ((Common.orders_perm (View.levels_perm_cons hv)).symm.cons _)
    simp only [List.singleton_append, orders_cons, List.append_assoc]
    exact List.perm_middle
  | openLevel a hempty =>
    exact Common.orders_perm (v.levels_insertLevel _ _)

/-- What `addOrder` makes of a view, for any side byte. A level for an order whose side names
neither list is opened behind the asks. -/
inductive Queued (v : View ω) (p : Ptr) (x : ω) : View ω → Prop
  | append {s : Side} {l : Level ω} {l₁ l₂ : List (Level ω)} (hs : s.IsBookSide)
      (hv : v.side s = l₁ ++ l :: l₂)
      (hl : priceToIndex l.price = priceToIndex (BookOrder.price x)) :
      Queued v p x (v.set s (l₁ ++ { l with queue := l.queue ++ [(p, x)] } :: l₂))
  | insert (a : Ptr) (hside : (BookOrder.side x).IsBookSide)
      (hempty : ∀ l ∈ v.levels, priceToIndex l.price ≠ priceToIndex (BookOrder.price x)) :
      Queued v p x (v.set (BookOrder.side x) (insertLevel
        ⟨a, BookOrder.side x, BookOrder.price x, [(p, x)]⟩ (v.side (BookOrder.side x))))
  | last (a : Ptr) (hside : ¬ (BookOrder.side x).IsBookSide)
      (hempty : ∀ l ∈ v.levels, priceToIndex l.price ≠ priceToIndex (BookOrder.price x)) :
      Queued v p x (v.set .sell
        (v.side .sell ++ [⟨a, BookOrder.side x, BookOrder.price x, [(p, x)]⟩]))

/-- An order of a book side is placed. -/
lemma Queued.placed {v v' : View ω} {p : Ptr} {x : ω} (h : Queued v p x v')
    (hs : (BookOrder.side x).IsBookSide) : Placed v p x v' := by
  cases h with
  | append hs' hv hl => exact .append hs' hv hl
  | insert a _ hempty => exact .openLevel a hempty
  | last a hside _ => exact absurd hs hside

/-- Adding an order adds it to the orders of the book, whatever its side. -/
lemma Queued.orders_perm {v v' : View ω} {p : Ptr} {x : ω} (h : Queued v p x v') :
    (orders v'.levels).Perm ((p, x) :: orders v.levels) := by
  cases h with
  | append hs hv hl => exact (Placed.append hs hv hl).orders_perm
  | insert a _ hempty => exact (Placed.openLevel a hempty).orders_perm
  | last a _ _ => exact Common.orders_perm (v.levels_append_level .sell _)

/-- The table of identifiers after an order was added. -/
lemma index_update [DecidableEq κ] {b : LimitOrderBook ω κ} {v v' : View ω} {p : Ptr} {x : ω}
    {k : κ} (hk : BookOrder.slot x = some k)
    (hindex : ∀ k q, b.orderIndex k = some q →
      ∃ y ∈ orders v.levels, y.1 = q ∧ BookOrder.slot y.2 = some k)
    (hperm : (orders v'.levels).Perm ((p, x) :: orders v.levels)) (k' : κ) (q : Ptr)
    (hq : Function.update b.orderIndex k (some p) k' = some q) :
    ∃ y ∈ orders v'.levels, y.1 = q ∧ BookOrder.slot y.2 = some k' := by
  rw [Function.update_apply] at hq
  split at hq
  · obtain rfl : p = q := Option.some_inj.mp hq
    subst k'
    exact ⟨(p, x), hperm.mem_iff.mpr (List.mem_cons_self ..), rfl, hk⟩
  · obtain ⟨y, hy, hyq⟩ := hindex k' q hq
    exact ⟨y, hperm.mem_iff.mpr (List.mem_cons_of_mem _ hy), hyq⟩

/-- The failures of an insertion: no fresh block for a level, or an identifier that the table
has no entry for. -/
def InsertFault (x : ω) (f : Fault) : Prop :=
  NoFreshBlock f ∨ f = .outOfRange ∧ BookOrder.slot x = none

/-- **`addOrder`**, for any side byte. It fails as the pool of levels does, when it has to open a
level, or for an identifier without an entry.

**Proof sketch.** Queueing the order is first: an empty bucket opens a level, by price where the side
is one of the two and behind the last ask where it is not, and a full bucket is a level to append to.
Then the table of orders takes the entry of the order, if it has one for its ids, and the ledger gains
the order. -/
theorem safe_addOrder_queued [DecidableEq κ] {allow : Fault → Prop} {b : LimitOrderBook ω κ}
    {v : View ω} {p : Ptr} {x : ω} (h : Holding b v p x) (hne : ∀ l ∈ v.levels, l.queue ≠ [])
    (halloc : b.getOrdersAtPrice (BookOrder.price x) = none → ∀ l,
      Safe allow (fun r => MemPool.Allocated b.ordersAtPricePool r.2 l r.1)
        (b.ordersAtPricePool.allocate l)) :
    Safe (fun f => allow f ∨ f = .outOfRange ∧ BookOrder.slot x = none)
      (fun b' => ∃ k v', BookOrder.slot x = some k ∧
        b'.orderIndex = Function.update b.orderIndex k (some p) ∧ Queued v p x v' ∧
        Represents b' v') (b.addOrder p) := by
  unfold addOrder
  rw [h.record]
  -- queueing
  have henqueue : Safe (fun f => allow f ∨ f = .outOfRange ∧ BookOrder.slot x = none)
      (fun b' => b'.orderIndex = b.orderIndex ∧ b'.orderPool.InUse = b.orderPool.InUse ∧
        ∃ v', Queued v p x v' ∧ Shape b' v')
      (b.enqueueOrder p) := by
    unfold enqueueOrder
    rw [h.record]
    cases hbucket : b.getOrdersAtPrice (BookOrder.price x) with
    | none =>
      have hempty : ∀ l ∈ v.levels, priceToIndex l.price ≠ priceToIndex (BookOrder.price x) := by
        intro l hl he
        rw [h.shape.heap.bucket_of_mem hl _ he] at hbucket
        cases hbucket
      by_cases hs : (BookOrder.side x).IsBookSide
      · refine (openLevel_of_places h.shape h.fresh h.record hs (placesLevel_insert hs hempty)
          (fun new => v.levels_insertLevel _ new) hempty (halloc hbucket)).mono
          (fun _ hf => .inl hf) ?_
        rintro b' ⟨hindex, hinUse, a, hshape⟩
        exact ⟨hindex, hinUse, _, .insert a hs hempty, hshape⟩
      · refine (openLevel_of_places h.shape h.fresh h.record (.inr rfl) (placesLevel_last hs)
          (fun new => v.levels_append_level _ new) hempty (halloc hbucket)).mono
          (fun _ hf => .inl hf) ?_
        rintro b' ⟨hindex, hinUse, a, hshape⟩
        exact ⟨hindex, hinUse, _, .last a hs hempty, hshape⟩
    | some a =>
      obtain ⟨l, hl, rfl, hprice⟩ := (h.shape.heap.bucket _ _).mp hbucket
      obtain ⟨s, hs, hl⟩ := View.mem_levels.mp hl
      obtain ⟨l₁, l₂, hv⟩ := List.append_of_mem hl
      obtain ⟨b', hb', hf, hshape⟩ := appendOrder_spec h.shape hs hv
        (hne l (View.mem_levels_of_side hl)) h.fresh
      simp only [hb', safe_ok]
      rw [h.record] at hshape
      exact ⟨hf.orderIndex, hf.orderInUse, _, .append hs hv hprice, hshape⟩
  refine henqueue.bind ?_
  rintro b' ⟨hindex, hinUse, v', hplaced, hshape⟩
  cases hk : BookOrder.slot x with
  | none => exact .inr ⟨rfl, rfl⟩
  | some k =>
    have hperm := hplaced.orders_perm
    refine ⟨k, v', rfl, by simp [hindex], hplaced, ⟨?_, fun q => ?_, fun y hy => ?_, ?_⟩⟩
    · exact hshape.congr (fun _ => rfl) rfl rfl (fun _ _ => rfl) fun _ _ => rfl
    · change b'.orderPool.InUse q ↔ _
      have hptrs : (ptrs v'.levels).Perm (p :: ptrs v.levels) := hperm.map Prod.fst
      rw [hinUse, h.inUse, hptrs.mem_iff, List.mem_cons]
    · rcases List.mem_cons.mp (hperm.mem_iff.mp hy) with rfl | hy
      · rw [hk]
        rfl
      · exact h.slots y hy
    · simp only [hindex]
      exact index_update hk h.index hperm

/-- **`addOrder`** for an order of a book side. -/
theorem safe_addOrder [DecidableEq κ] {b : LimitOrderBook ω κ} {v : View ω} {p : Ptr} {x : ω}
    (h : Holding b v p x) (hs : (BookOrder.side x).IsBookSide)
    (hne : ∀ l ∈ v.levels, l.queue ≠ []) :
    Safe (InsertFault x) (fun b' => ∃ k v', BookOrder.slot x = some k ∧
      b'.orderIndex = Function.update b.orderIndex k (some p) ∧ Placed v p x v' ∧
      Represents b' v') (b.addOrder p) := by
  refine (safe_addOrder_queued h hne fun _ l => MemPool.safe_allocate _ l).mono (fun _ hf => hf) ?_
  rintro b' ⟨k, v', hk, hindex, hqueued, hrep⟩
  exact ⟨k, v', hk, hindex, hqueued.placed hs, hrep⟩

/-- The orders of a book lie in the pool, so their number is bounded by its size. -/
lemma Represents.length_le {b : LimitOrderBook ω κ} {v : View ω} (h : Represents b v) :
    (orders v.levels).length ≤ b.orderPool.size := by
  calc (orders v.levels).length = (ptrs v.levels).toFinset.card := by
        rw [List.toFinset_card_of_nodup h.shape.heap.ptr_nodup, ptrs, List.length_map]
    _ ≤ (Finset.range b.orderPool.size).card := by
        refine Finset.card_le_card fun p hp => Finset.mem_range.mpr ?_
        exact ((h.ledger.inUse p).mpr (List.mem_toFinset.mp hp)).1
    _ = b.orderPool.size := Finset.card_range _

/-- **The loop over the orders of a level** terminates and visits those behind the first. -/
lemma Represents.walk_queue {b : LimitOrderBook ω κ} {v : View ω} (h : Represents b v)
    {l : Level ω} (hl : l ∈ v.levels) {x : Ptr × ω} {q : List (Ptr × ω)} (hq : l.queue = x :: q) :
    (b.level l.addr).firstOrder = some x.1 ∧ ∃ p, (b.node x.1).nextOrder = some p ∧
      walk (fun p => (b.node p).nextOrder) x.1 (b.orderPool.size + 1) p = .ok (q.map Prod.fst) := by
  obtain ⟨s, hs, hls⟩ := View.mem_levels.mp hl
  have hat := h.shape.levelAt hls
  have hptrs : l.ptrs = x.1 :: q.map Prod.fst := by simp [Level.ptrs, hq]
  have hring := hat.ring
  have hnd := h.shape.ptrs_nodup hls
  rw [hptrs] at hring hnd
  have hlen : l.queue.length ≤ (orders v.levels).length := by
    obtain ⟨l₁, l₂, hls⟩ := List.append_of_mem hl
    simp [hls]
    omega
  have hsize := hlen.trans h.length_le
  rw [hq, List.length_cons] at hsize
  refine ⟨?_, walk_ring hring hnd (by rw [List.length_map]; omega)⟩
  rw [hat.first, hptrs]
  rfl

/-! ## Removing an order and changing its quantity -/

/-- A level with another queue, which is no level when the queue is empty. -/
def Level.withQueue (l : Level ω) : List (Ptr × ω) → List (Level ω)
  | [] => []
  | x :: q => [{ l with queue := x :: q }]

omit [BookOrder ω κ] in
/-- A level keeps its place while an order is left. -/
lemma Level.withQueue_of_ne {l : Level ω} {q : List (Ptr × ω)} (h : q ≠ []) :
    l.withQueue q = [{ l with queue := q }] := by
  cases q with
  | nil => exact absurd rfl h
  | cons x q => rfl

omit [BookOrder ω κ] in
/-- The orders that a level had do not matter. -/
@[simp] lemma Level.withQueue_mk (l : Level ω) (q r : List (Ptr × ω)) :
    ({ l with queue := r } : Level ω).withQueue q = l.withQueue q := by
  cases q <;> rfl

omit [BookOrder ω κ] in
/-- The orders of what is left of a level. -/
@[simp] lemma Level.orders_withQueue (l : Level ω) (q : List (Ptr × ω)) :
    orders (l.withQueue q) = q := by
  cases q <;> simp [Level.withQueue]

omit [BookOrder ω κ] in
/-- **Removing an order** moves no other. -/
lemma orders_remove {v : View ω} {s : Side} {l : Level ω} {l₁ l₂ : List (Level ω)}
    {q₁ q₂ : List (Ptr × ω)} {x : Ptr × ω} (hv : v.side s = l₁ ++ l :: l₂)
    (hq : l.queue = q₁ ++ x :: q₂) :
    (orders v.levels).Perm
      (x :: orders (v.set s (l₁ ++ (l.withQueue (q₁ ++ q₂) ++ l₂))).levels) := by
  refine (orders_perm (View.levels_perm_cons hv)).trans ?_
  refine List.Perm.trans ?_ ((orders_perm (v.levels_set_perm s l₁ _ l₂)).symm.cons x)
  simp only [orders_cons, orders_append, hq, Level.orders_withQueue, List.append_assoc,
    List.cons_append]
  exact List.perm_middle

omit [BookOrder ω κ] in
/-- Any byte but that of a buy removes a level from the asks. -/
lemma removeOrdersAtPrice_congr (b : LimitOrderBook ω κ) {s s' : Side} (h : s = .buy ↔ s' = .buy)
    (price : ℤ) : b.removeOrdersAtPrice s price = b.removeOrdersAtPrice s' price := by
  have hset : ∀ (b : LimitOrderBook ω κ) x, b.setBest s x = b.setBest s' x := by
    intro b x
    simp only [setBest, h]
  have hbest : ∀ b : LimitOrderBook ω κ, b.bestOrdersByPrice s = b.bestOrdersByPrice s' := by
    intro b
    simp only [bestOrdersByPrice, h]
  simp only [removeOrdersAtPrice, detachEntry, unlinkEntry, hset, hbest]

/-- **`removeOrder`** takes the order out of its queue, and the level with the last order, which
must be in the list that the side of the order stands for.

**Proof sketch.** The order is alone in its ring exactly if it is its own neighbour, which is what the
code tests. Then its level is removed, and else it is unlinked from the queue. Behind that, the entry
of the order in the table is cleared and its block released, so the ledger is the one without the
order. -/
theorem removeOrder_spec [DecidableEq κ] {b : LimitOrderBook ω κ} {v : View ω} {s : Side}
    {l : Level ω} {l₁ l₂ : List (Level ω)} {q₁ q₂ : List (Ptr × ω)} {x : Ptr × ω}
    (h : Represents b v) (hs : s.IsBookSide) (hv : v.side s = l₁ ++ l :: l₂)
    (hq : l.queue = q₁ ++ x :: q₂)
    (hside : q₁ ++ q₂ = [] → (BookOrder.side x.2 = .buy ↔ s = .buy))
    (hprice : priceToIndex l.price = priceToIndex (BookOrder.price x.2)) :
    ∃ b' k, b.removeOrder x.1 = .ok b' ∧ BookOrder.slot x.2 = some k ∧
      b'.orderIndex = Function.update b.orderIndex k none ∧
      Represents b' (v.set s (l₁ ++ (l.withQueue (q₁ ++ q₂) ++ l₂))) := by
  have hl : l ∈ v.side s := by simp [hv]
  have hx : x ∈ orders v.levels :=
    mem_orders.mpr ⟨l, View.mem_levels_of_side hl, by simp [hq]⟩
  have hat := h.shape.levelAt hl
  have hrecord : (b.node x.1).order = x.2 := hat.record x (by simp [hq])
  have hbucket := h.shape.heap.bucket_of_mem (View.mem_levels_of_side hl) _ hprice
  have hself : (b.node x.1).prevOrder = some x.1 ↔ q₁ ++ q₂ = [] := by
    have hring := hat.ring
    have hnd := h.shape.ptrs_nodup hl
    simp only [Level.ptrs, hq, List.map_append, List.map_cons] at hring hnd
    rw [Ring.prev_self_iff hring hnd]
    simp
  -- unlinking
  obtain ⟨b₁, hb₁, hshape, hindex, hinUse⟩ : ∃ b₁, b.dequeueOrder x.1 = .ok b₁ ∧
      Shape b₁ (v.set s (l₁ ++ (l.withQueue (q₁ ++ q₂) ++ l₂))) ∧
      b₁.orderIndex = b.orderIndex ∧ b₁.orderPool.InUse = b.orderPool.InUse := by
    unfold dequeueOrder
    simp only [hrecord, hbucket]
    by_cases hne : q₁ ++ q₂ = []
    · obtain ⟨b₁, hb₁, hshape, hindex, hpool⟩ := removeOrdersAtPrice_spec h.shape hs hv hprice
      rw [← removeOrdersAtPrice_congr b (hside hne)] at hb₁
      refine ⟨b₁, by rw [if_pos (hself.mpr hne), hb₁], ?_, hindex, by rw [hpool]⟩
      rwa [hne]
    · obtain ⟨b₁, hb₁, hf, hshape⟩ := unlinkOrder_spec h.shape hs hv hq hne
      refine ⟨b₁, by rw [if_neg (hself.not.mpr hne), hb₁], ?_, hf.orderIndex, hf.orderInUse⟩
      rwa [Level.withQueue_of_ne hne]
  obtain ⟨k, hk⟩ := Option.isSome_iff_exists.mp (h.ledger.slots x hx)
  have hperm := orders_remove hv hq
  set v' := v.set s (l₁ ++ (l.withQueue (q₁ ++ q₂) ++ l₂))
  have hptrs : (x.1 :: ptrs v'.levels).Perm (ptrs v.levels) := (hperm.map Prod.fst).symm
  have hnd := hptrs.nodup_iff.mpr h.shape.heap.ptr_nodup
  have hused : b₁.orderPool.InUse x.1 := by
    rw [hinUse, h.ledger.inUse]
    exact hptrs.mem_iff.mp (List.mem_cons_self ..)
  refine ⟨{ b₁ with
    orderIndex := Function.update b₁.orderIndex k none, orderPool := b₁.orderPool.release x.1 },
    k, ?_, hk, by simp [hindex], ⟨?_, fun q => ?_, fun y hy => ?_, fun k' q hk' => ?_⟩⟩
  · simp only [removeOrder, hb₁, hrecord, hk, ok_bind, setIndex, MemPool.deallocate_eq hused]
    rfl
  · exact hshape.congr (fun _ => rfl) rfl rfl (fun _ _ => rfl) fun q _ => by simp [node]
  · change (b₁.orderPool.release x.1).InUse q ↔ _
    rw [MemPool.inUse_release, hinUse, h.ledger.inUse, ← hptrs.mem_iff, List.mem_cons]
    have hxq := (List.nodup_cons.mp hnd).1
    constructor
    · rintro ⟨hne, hq | hq⟩
      · exact absurd hq hne
      · exact hq
    · exact fun hq => ⟨fun he => hxq (he ▸ hq), .inr hq⟩
  · exact h.ledger.slots y (hperm.mem_iff.mpr (List.mem_cons_of_mem _ hy))
  · simp only [hindex, Function.update_apply] at hk'
    split at hk'
    · cases hk'
    · obtain ⟨y, hy, hyq, hyk⟩ := h.ledger.index k' q hk'
      rcases List.mem_cons.mp (hperm.mem_iff.mp hy) with rfl | hy
      · rw [hk] at hyk
        exact absurd (Option.some_inj.mp hyk).symm ‹_›
      · exact ⟨y, hy, hyq, hyk⟩

/-- **Removing the order that was added last** restores the view. -/
theorem removeOrder_queued [DecidableEq κ] {b : LimitOrderBook ω κ} {v v' : View ω} {p : Ptr} {x : ω}
    (h : Represents b v') (hqueued : Queued v p x v') (hne : ∀ l ∈ v.levels, l.queue ≠ []) :
    ∃ b', b.removeOrder p = .ok b' ∧ Represents b' v := by
  have hx : ([(p, x)] : List (Ptr × ω)) = [] ++ (p, x) :: [] := rfl
  cases hqueued with
  | @append s l l₁ l₂ hs hv hl =>
    have hlevel : l.queue ≠ [] := hne l (View.mem_levels_of_side (s := s) (by simp [hv]))
    obtain ⟨b', -, hb', -, -, hrep⟩ := removeOrder_spec h hs (View.side_set_self ..) rfl
      (fun hnil => absurd (List.append_eq_nil_iff.mp hnil).1 hlevel) hl
    refine ⟨b', hb', ?_⟩
    rw [View.set_set, Level.withQueue_mk, List.append_nil, Level.withQueue_of_ne hlevel,
      List.singleton_append, ← hv, View.set_side] at hrep
    exact hrep
  | insert a hside hempty =>
    obtain ⟨b', -, hb', -, -, hrep⟩ := removeOrder_spec h hside (View.side_set_self ..) hx
      (fun _ => Iff.rfl) rfl
    refine ⟨b', hb', ?_⟩
    rw [View.set_set] at hrep
    simpa [Level.withQueue, List.takeWhile_append_dropWhile] using hrep
  | last a hside hempty =>
    have hbuy : BookOrder.side x ≠ .buy := fun he => hside (.inl he)
    obtain ⟨b', -, hb', -, -, hrep⟩ := removeOrder_spec h (.inr rfl) (View.side_set_self ..) hx
      (fun _ => iff_of_false hbuy (by decide)) rfl
    refine ⟨b', hb', ?_⟩
    rw [View.set_set] at hrep
    simpa [Level.withQueue] using hrep

/-- **Changing an order in place**: its side, price and identifier must stay. -/
theorem Represents.modifyOrder {b : LimitOrderBook ω κ} {v : View ω} {s : Side} {l : Level ω}
    {l₁ l₂ : List (Level ω)} {q₁ q₂ : List (Ptr × ω)} {x : Ptr × ω} {f : ω → ω}
    (h : Represents b v) (hs : s.IsBookSide) (hv : v.side s = l₁ ++ l :: l₂)
    (hq : l.queue = q₁ ++ x :: q₂) (hf : BookOrder.slot (f x.2) = BookOrder.slot x.2) :
    Represents (b.modifyOrder x.1 f)
      (v.set s (l₁ ++ { l with queue := q₁ ++ (x.1, f x.2) :: q₂ } :: l₂)) := by
  obtain ⟨hframe, hshape⟩ := modifyOrder_spec h.shape hs hv hq f
  set v' := v.set s (l₁ ++ { l with queue := q₁ ++ (x.1, f x.2) :: q₂ } :: l₂)
  set rest := orders (v.set s (l₁ ++ (l.withQueue (q₁ ++ q₂) ++ l₂))).levels
  have hperm : (orders v.levels).Perm (x :: rest) := orders_remove hv hq
  have hperm' : (orders v'.levels).Perm ((x.1, f x.2) :: rest) := by
    refine (orders_perm (v.levels_set_perm s l₁ [_] l₂)).trans ?_
    refine List.Perm.trans ?_ ((orders_perm (v.levels_set_perm s l₁ _ l₂)).symm.cons _)
    simp only [orders_cons, orders_append, Level.orders_withQueue, List.append_assoc,
      List.cons_append]
    exact List.perm_middle
  have hptrs : (ptrs v'.levels).Perm (ptrs v.levels) :=
    (hperm'.map Prod.fst).trans (hperm.map Prod.fst).symm
  refine ⟨hshape, fun q => ?_, fun y hy => ?_, fun k q hk => ?_⟩
  · rw [hframe.orderInUse, h.ledger.inUse, hptrs.mem_iff]
  · rcases List.mem_cons.mp (hperm'.mem_iff.mp hy) with rfl | hy
    · exact hf ▸ h.ledger.slots x (hperm.mem_iff.mpr (List.mem_cons_self ..))
    · exact h.ledger.slots y (hperm.mem_iff.mpr (List.mem_cons_of_mem _ hy))
  · rw [hframe.orderIndex] at hk
    obtain ⟨y, hy, hyq, hyk⟩ := h.ledger.index k q hk
    rcases List.mem_cons.mp (hperm.mem_iff.mp hy) with rfl | hy
    · exact ⟨_, hperm'.mem_iff.mpr (List.mem_cons_self ..), hyq, hf.trans hyk⟩
    · exact ⟨y, hperm'.mem_iff.mpr (List.mem_cons_of_mem _ hy), hyq, hyk⟩

end Common
