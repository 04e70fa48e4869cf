import HftSystem.Common.OrderIndex
import HftSystem.Common.PoolRuns

set_option relaxedAutoImplicit false
set_option autoImplicit false

/-!
# The blocks that a book uses up

The index of the next block of a pool only moves forward, so an order takes a block out of its pool
for good when it is added, and so does a level when it is opened. What a book does otherwise uses up
no block, and gives none back to later allocations.

## Main definitions

* `Common.MemPool.Keeps` — writes and deallocations.
* `Common.MemPool.Served` — a pool with the number of allocations that it has served.
* `Common.KeepsBlocks`, `Common.BlocksServed` — the same for the two pools of a book.

## Main results

* `Common.MemPool.Served.safe_allocate` — an allocation, from a pool with that number.
* `Common.safe_keeps_removeOrder` — removing an order uses up no block.
* `Common.BlocksServed.safe_addOrder` — adding an order uses up a block if it opens a level.
-/

namespace Common

open LimitOrderBook Fallible

/-! ## Pools -/

namespace MemPool

variable {T : Type}

/-- **Nothing is allocated**: the pool differs by writes and deallocations. -/
structure Keeps (pool pool' : MemPool T) : Prop where
  size : pool'.size = pool.size
  nextFreeIndex : pool'.nextFreeIndex = pool.nextFreeIndex
  free : ∀ i, (pool.store i).isFree = true → (pool'.store i).isFree = true

namespace Keeps

variable {pool pool' pool'' : MemPool T}

/-- Nothing is taken where nothing happens. -/
lemma refl (pool : MemPool T) : Keeps pool pool := ⟨rfl, rfl, fun _ => id⟩

/-- Two steps that take no block take none together. -/
lemma trans (h : Keeps pool pool') (h' : Keeps pool' pool'') : Keeps pool pool'' :=
  ⟨h'.size.trans h.size, h'.nextFreeIndex.trans h.nextFreeIndex, fun i hi => h'.free i (h.free i hi)⟩

/-- Writing to a block takes none. -/
lemma modify (h : Keeps pool pool') (i : Ptr) (f : T → T) : Keeps pool (pool'.modify i f) := by
  refine h.trans ⟨rfl, rfl, fun j hj => ?_⟩
  by_cases hji : j = i
  · subst hji
    simpa [MemPool.modify] using hj
  · simpa [MemPool.modify, hji] using hj

/-- Releasing a block takes none. -/
lemma release (h : Keeps pool pool') (i : Ptr) : Keeps pool (pool'.release i) := by
  refine h.trans ⟨rfl, rfl, fun j hj => ?_⟩
  by_cases hji : j = i
  · subst hji
    simp [MemPool.release]
  · simpa [MemPool.release, hji] using hj

end Keeps

/-- **A pool of `numElems` blocks that has served `n` allocations**: the blocks from the next one on
were never handed out. -/
structure Served (numElems n : ℕ) (pool : MemPool T) : Prop where
  size : pool.size = numElems
  next : pool.nextFreeIndex = n
  lt : n < numElems
  untouched : ∀ i, n ≤ i → i < numElems → (pool.store i).isFree = true

namespace Served

variable {numElems n : ℕ} {pool pool' : MemPool T}

/-- A step that takes no block leaves the count. -/
lemma keeps (h : pool.Served numElems n) (hkeeps : Keeps pool pool') : pool'.Served numElems n :=
  ⟨hkeeps.size.trans h.size, hkeeps.nextFreeIndex.trans h.next, h.lt,
    fun i hi hlt => hkeeps.free i (h.untouched i hi hlt)⟩

/-- The pool at the frontier of a run, which holds all blocks in use. -/
lemma frontier (h : pool.Served numElems n) :
    (PoolRun.mk pool ((Finset.range pool.size).filter pool.InUse)).Frontier numElems where
  size := h.size
  tracks i := by
    rw [Finset.mem_filter, Finset.mem_range]
    exact ⟨fun hi => ⟨hi.1, hi⟩, fun hi => hi.2⟩
  lt := h.next ▸ h.size ▸ h.lt
  untouched i hi hlt := h.untouched i (h.next ▸ hi) (h.size ▸ hlt)

/-- **The next allocation** is served if there is another block behind it, and leaves the store
otherwise. -/
lemma safe_allocate (h : pool.Served numElems n) (object : T) :
    Safe (fun f => f = .overrun ∧ ¬ n + 1 < numElems)
      (fun r => Allocated pool r.2 object r.1 ∧ r.2.Served numElems (n + 1)) (pool.allocate object) := by
  have hallocated := MemPool.safe_allocate pool object
  by_cases hnext : n + 1 < numElems
  · have hallocate := h.frontier.allocate (by rw [h.next, h.size]; exact hnext) object
    rw [show pool.allocate object = _ from hallocate] at hallocated ⊢
    refine ⟨hallocated, h.size, congrArg Nat.succ h.next, hnext, fun i hi hlt => ?_⟩
    show (Function.update pool.store pool.nextFreeIndex _ i).isFree = true
    rw [Function.update_of_ne (by rw [h.next]; omega)]
    exact h.untouched i (by omega) hlt
  · have hlast := h.frontier.step_last (by rw [h.next, h.size]; exact hnext) object
    cases hallocate : pool.allocate object with
    | error f =>
      have hstep : (Except.error f : Except Fault (PoolRun T)) = .error .overrun := by
        rw [← hlast]
        simp only [PoolRun.step, hallocate]
        rfl
      exact ⟨Except.error.inj hstep, hnext⟩
    | ok r =>
      simp only [PoolRun.step, hallocate] at hlast
      cases hlast

end Served

/-- A new pool has supplied nothing. -/
lemma served_new [Inhabited T] {numElems : ℕ} (h : 0 < numElems) :
    (new numElems : MemPool T).Served numElems 0 :=
  ⟨rfl, rfl, h, fun _ _ _ => rfl⟩

end MemPool

/-! ## Books -/

variable {ω κ : Type}

/-- **No block is used up**, of either pool. -/
structure KeepsBlocks (b b' : LimitOrderBook ω κ) : Prop where
  orders : b.orderPool.Keeps b'.orderPool
  levels : b.ordersAtPricePool.Keeps b'.ordersAtPricePool

namespace KeepsBlocks

variable {b b' b'' : LimitOrderBook ω κ}

/-- Nothing is taken where nothing happens. -/
lemma refl (b : LimitOrderBook ω κ) : KeepsBlocks b b := ⟨.refl _, .refl _⟩

/-- Two steps that take no block take none together. -/
lemma trans (h : KeepsBlocks b b') (h' : KeepsBlocks b' b'') : KeepsBlocks b b'' :=
  ⟨h.orders.trans h'.orders, h.levels.trans h'.levels⟩

variable (h : KeepsBlocks b b')

include h

/-- Writing to a level takes no block. -/
lemma modifyLevel (a : Ptr) (f : OrdersAtPrice → OrdersAtPrice) : KeepsBlocks b (b'.modifyLevel a f) :=
  ⟨h.orders, h.levels.modify a f⟩

/-- Writing to an order takes no block. -/
lemma modifyNode (p : Ptr) (f : OrderNode ω → OrderNode ω) : KeepsBlocks b (b'.modifyNode p f) :=
  ⟨h.orders.modify p f, h.levels⟩

/-- Neither does a new best level. -/
lemma setBest (s : Side) (x : Option Ptr) : KeepsBlocks b (b'.setBest s x) := ⟨h.orders, h.levels⟩

/-- Neither does an entry of the table of levels. -/
lemma setOrdersAtPrice (price : ℤ) (a : Option Ptr) : KeepsBlocks b (b'.setOrdersAtPrice price a) :=
  ⟨h.orders, h.levels⟩

/-- Neither does the link to the next level. -/
lemma setNextEntry (a : Ptr) (x : Option Ptr) : KeepsBlocks b (b'.setNextEntry a x) :=
  h.modifyLevel a _

/-- Neither does the link to the previous level. -/
lemma setPrevEntry (a : Ptr) (x : Option Ptr) : KeepsBlocks b (b'.setPrevEntry a x) :=
  h.modifyLevel a _

/-- Neither does the first order of a level. -/
lemma setFirstOrder (a : Ptr) (x : Option Ptr) : KeepsBlocks b (b'.setFirstOrder a x) :=
  h.modifyLevel a _

/-- Neither does the link to the next order. -/
lemma setNextOrder (p : Ptr) (x : Option Ptr) : KeepsBlocks b (b'.setNextOrder p x) :=
  h.modifyNode p _

/-- Neither does the link to the previous order. -/
lemma setPrevOrder (p : Ptr) (x : Option Ptr) : KeepsBlocks b (b'.setPrevOrder p x) :=
  h.modifyNode p _

end KeepsBlocks

section Operations

variable (b : LimitOrderBook ω κ)

/-- Linking a level behind another one takes no block. -/
lemma safe_keeps_insertAfter (new target best : Ptr) :
    Safe (fun _ => True) (KeepsBlocks b) (b.insertAfter new target best) := by
  have hlinked : ∀ target next : Ptr, KeepsBlocks b
      ((((b.setPrevEntry new (some target)).setPrevEntry next (some new)).setNextEntry new
        (((b.setPrevEntry new (some target)).setPrevEntry next (some new)).level target).nextEntry).setNextEntry
          target (some new)) := fun target next =>
    ((((KeepsBlocks.refl b).setPrevEntry _ _).setPrevEntry _ _).setNextEntry _ _).setNextEntry _ _
  unfold insertAfter
  split
  · exact (safe_true _).bind fun target _ => (safe_true _).bind fun next _ => hlinked target next
  · exact (safe_true (.ok target)).bind fun target _ => (safe_true _).bind fun next _ =>
      hlinked target next

/-- Linking a level in front of another one takes no block. -/
lemma safe_keeps_insertBefore (s : Side) (price : ℤ) (new target best : Ptr) :
    Safe (fun _ => True) (KeepsBlocks b) (b.insertBefore s price new target best) := by
  unfold insertBefore
  refine (safe_true _).bind fun prev _ => ?_
  have hlinked := ((((KeepsBlocks.refl b).setPrevEntry new (b.level target).prevEntry).setNextEntry new
    (some target)).setNextEntry prev (some new)).setPrevEntry target (some new)
  simp only
  split
  · exact (hlinked.setNextEntry _ _).setBest _ _
  · exact hlinked

/-- Linking a level that was allocated takes no further block. -/
lemma safe_keeps_addOrdersAtPrice (new : Ptr) :
    Safe (fun _ => True) (KeepsBlocks b) (b.addOrdersAtPrice new) := by
  have htable := (KeepsBlocks.refl b).setOrdersAtPrice (b.level new).price (some new)
  unfold addOrdersAtPrice
  simp only
  split
  · exact ((htable.setBest _ _).setNextEntry _ _).setPrevEntry _ _
  · refine (safe_true _).bind fun r _ => ?_
    split
    · exact (safe_keeps_insertAfter _ _ _ _).mono (fun _ hf => hf) fun _ => htable.trans
    · exact (safe_keeps_insertBefore _ _ _ _ _ _).mono (fun _ hf => hf) fun _ => htable.trans

/-- Unlinking a level takes no block. -/
lemma safe_keeps_detachEntry (s : Side) (a : Ptr) :
    Safe (fun _ => True) (KeepsBlocks b) (b.detachEntry s a) := by
  unfold detachEntry
  split
  · exact (KeepsBlocks.refl b).setBest _ _
  · unfold unlinkEntry
    refine (safe_true _).bind fun prev _ => (safe_true _).bind fun next _ => ?_
    have hlinked := ((KeepsBlocks.refl b).setNextEntry prev (b.level a).nextEntry).setPrevEntry next
      ((b.setNextEntry prev (b.level a).nextEntry).level a).prevEntry
    simp only
    split
    · exact ((hlinked.setBest _ _).setNextEntry _ _).setPrevEntry _ _
    · exact (hlinked.setNextEntry _ _).setPrevEntry _ _

/-- Removing a level takes no block. -/
lemma safe_keeps_removeOrdersAtPrice (s : Side) (price : ℤ) :
    Safe (fun _ => True) (KeepsBlocks b) (b.removeOrdersAtPrice s price) := by
  unfold removeOrdersAtPrice
  refine (safe_true _).bind fun a _ => (safe_keeps_detachEntry b s a).bind fun b₁ h₁ => ?_
  refine (MemPool.safe_deallocate _ a).bind ?_
  rintro pool ⟨-, rfl⟩
  exact ⟨h₁.orders, h₁.levels.release a⟩

/-- Queueing an order takes no block. -/
lemma safe_keeps_appendOrder (a p : Ptr) :
    Safe (fun _ => True) (KeepsBlocks b) (b.appendOrder a p) := by
  unfold appendOrder
  refine (safe_true _).bind fun first _ => (safe_true _).bind fun last _ => ?_
  exact ((((KeepsBlocks.refl b).setNextOrder _ _).setPrevOrder _ _).setNextOrder _ _).setPrevOrder _ _

/-- Unlinking an order takes no block. -/
lemma safe_keeps_unlinkOrder (a : Option Ptr) (p : Ptr) :
    Safe (fun _ => True) (KeepsBlocks b) (b.unlinkOrder a p) := by
  unfold unlinkOrder
  refine (safe_true _).bind fun before _ => (safe_true _).bind fun after _ => ?_
  have hlinked : KeepsBlocks b ((b.setNextOrder before (some after)).setPrevOrder after (some before)) :=
    ((KeepsBlocks.refl b).setNextOrder _ _).setPrevOrder _ _
  refine (safe_true _).bind fun a _ => ?_
  simp only
  split
  · exact ((hlinked.setFirstOrder _ _).setNextOrder _ _).setPrevOrder _ _
  · exact (hlinked.setNextOrder _ _).setPrevOrder _ _

/-- Writing the table of orders. -/
lemma safe_keeps_setIndex [DecidableEq κ] (slot : Option κ) (p : Option Ptr) :
    Safe (fun _ => True) (KeepsBlocks b) (b.setIndex slot p) := by
  cases slot with
  | none => trivial
  | some k => exact ⟨.refl _, .refl _⟩

variable [BookOrder ω κ] [DecidableEq κ]

/-- **Removing an order** uses up no block. -/
theorem safe_keeps_removeOrder (p : Ptr) :
    Safe (fun _ => True) (KeepsBlocks b) (b.removeOrder p) := by
  have hdequeue : Safe (fun _ => True) (KeepsBlocks b) (b.dequeueOrder p) := by
    unfold dequeueOrder
    simp only
    split
    · exact safe_keeps_removeOrdersAtPrice b _ _
    · exact safe_keeps_unlinkOrder b _ _
  unfold removeOrder
  refine hdequeue.bind fun b₁ h₁ => (safe_keeps_setIndex b₁ _ _).bind fun b₂ h₂ => ?_
  refine (MemPool.safe_deallocate _ p).bind ?_
  rintro pool ⟨-, rfl⟩
  exact ⟨(h₁.trans h₂).orders.release p, (h₁.trans h₂).levels⟩

end Operations

/-! ## The blocks that were served -/

/-- **A book that has used up a block for each of some orders and levels.** -/
structure BlocksServed (b : LimitOrderBook ω κ) (orders levels : ℕ) : Prop where
  order : b.orderPool.Served meMaxOrderIds orders
  level : b.ordersAtPricePool.Served meMaxPriceLevels levels

/-- The levels that an order at a price opens: one if its bucket is empty. -/
def LimitOrderBook.levelsNeeded (b : LimitOrderBook ω κ) (price : ℤ) : ℕ :=
  if b.getOrdersAtPrice price = none then 1 else 0

namespace BlocksServed

variable {b b' : LimitOrderBook ω κ} {orders levels : ℕ} (h : BlocksServed b orders levels)

include h

/-- A step that takes no block leaves both counts. -/
lemma keeps (hkeeps : KeepsBlocks b b') : BlocksServed b' orders levels :=
  ⟨h.order.keeps hkeeps.orders, h.level.keeps hkeeps.levels⟩

variable [BookOrder ω κ] [DecidableEq κ]

/-- **Adding an order** uses up a block if it opens a level. -/
theorem safe_addOrder (p : Ptr) :
    Safe (fun _ => True)
      (fun b' => BlocksServed b' orders
        (levels + b.levelsNeeded (BookOrder.price (b.node p).order)))
      (b.addOrder p) := by
  have henqueue : Safe (fun _ => True)
      (fun b' => BlocksServed b' orders
        (levels + b.levelsNeeded (BookOrder.price (b.node p).order)))
      (b.enqueueOrder p) := by
    unfold enqueueOrder levelsNeeded
    cases b.getOrdersAtPrice (BookOrder.price (b.node p).order) with
    | some a =>
      exact (safe_keeps_appendOrder b a p).mono (fun _ hf => hf) fun _ => h.keeps
    | none =>
      have hself : KeepsBlocks b ((b.setPrevOrder p (some p)).setNextOrder p (some p)) :=
        ((KeepsBlocks.refl b).setPrevOrder _ _).setNextOrder _ _
      unfold openLevel
      refine Safe.bind (((h.keeps hself).level.safe_allocate _).mono (fun _ _ => trivial) fun _ hr => hr) ?_
      rintro ⟨new, pool⟩ ⟨-, hpool⟩
      refine (safe_keeps_addOrdersAtPrice _ new).mono (fun _ hf => hf) fun _ => ?_
      exact keeps (b := { (b.setPrevOrder p (some p)).setNextOrder p (some p) with
        ordersAtPricePool := pool }) ⟨(h.keeps hself).order, hpool⟩
  unfold LimitOrderBook.addOrder
  exact henqueue.bind fun b₁ h₁ =>
    (safe_keeps_setIndex b₁ _ _).mono (fun _ hf => hf) fun _ => h₁.keeps

end BlocksServed

end Common
