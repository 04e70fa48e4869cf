import HftSystem.Common.BookView

set_option relaxedAutoImplicit false
set_option autoImplicit false

/-!
# Which level an order queues in

What it means, in terms of the pools alone, that every order queues in a level of its own price
and side. A level is found through the bucket of a price, so an order goes to a foreign level
exactly when its bucket holds one.

## Main definitions

* `Common.Queues`, `Common.Lists` — reachability of an order from a level, and of a level from
  the best level of a side.
* `Common.AtHome` — every order is reachable from one level, of its own price and side.
* `Common.FindsOwnLevel` — the bucket of a price holds no foreign level.

## Main results

* `Common.atHome_of_valid` — in a valid view every order is at home.
* `Common.not_atHome_of_placed` — an order that is placed in a foreign level is not.
-/

namespace Common

open CircularList LimitOrderBook

variable {ω κ : Type}

/-- The order at `p` is reached from the first order of the level at `a`. -/
def Queues (b : LimitOrderBook ω κ) (a p : Ptr) : Prop :=
  b.ordersAtPricePool.InUse a ∧ ∃ first, (b.level a).firstOrder = some first ∧
    Follows (fun p => (b.node p).nextOrder) first p

/-- The level at `a` is reached from the best level of a side. -/
def Lists (b : LimitOrderBook ω κ) (s : Side) (a : Ptr) : Prop :=
  ∃ best, b.bestOrdersByPrice s = some best ∧ Follows (fun a => (b.level a).nextEntry) best a

/-- **Every order is at home**: it is reached from exactly one level, which has its price and its
side and is in the list of that side. -/
def AtHome [BookOrder ω κ] (b : LimitOrderBook ω κ) : Prop :=
  ∀ p, b.orderPool.InUse p → ∃ a, Queues b a p ∧ (∀ a', Queues b a' p → a' = a) ∧
    (b.level a).price = BookOrder.price (b.node p).order ∧
    (b.level a).side = BookOrder.side (b.node p).order ∧ Lists b (b.level a).side a

/-- The bucket of a price is empty or holds the level of that price and side. -/
def FindsOwnLevel (b : LimitOrderBook ω κ) (side : Side) (price : ℤ) : Prop :=
  ∀ a, b.getOrdersAtPrice price = some a → (b.level a).price = price ∧ (b.level a).side = side

/-- The bucket of a price, on the view. -/
lemma findsOwnLevel_iff {b : LimitOrderBook ω κ} {v : View ω} (h : Heap b v.levels) {side : Side}
    {price : ℤ} : FindsOwnLevel b side price ↔
      ∀ l ∈ v.levels, priceToIndex l.price = priceToIndex price → l.price = price ∧ l.side = side := by
  constructor
  · intro hfinds l hl he
    have := hfinds l.addr (h.bucket_of_mem hl price he)
    rwa [(h.levelAt l hl).price, (h.levelAt l hl).side] at this
  · intro hfits a ha
    obtain ⟨l, hl, rfl, hprice⟩ := (h.bucket _ _).mp ha
    rw [(h.levelAt l hl).price, (h.levelAt l hl).side]
    exact hfits l hl hprice

/-- **What a level queues**, on the view. -/
lemma queues_iff {b : LimitOrderBook ω κ} {v : View ω} (h : Heap b v.levels) {a p : Ptr} :
    Queues b a p ↔ ∃ l ∈ v.levels, l.addr = a ∧ p ∈ l.ptrs := by
  have hlevel : ∀ l ∈ v.levels, ∀ first, (b.level l.addr).firstOrder = some first →
      (Follows (fun p => (b.node p).nextOrder) first p ↔ p ∈ l.ptrs) := by
    intro l hl first hfirst
    have hat := h.levelAt l hl
    rw [hat.first] at hfirst
    obtain ⟨q, hq⟩ : ∃ q, l.ptrs = first :: q := ⟨_, List.eq_cons_of_mem_head? hfirst⟩
    have hring := hat.ring
    rw [hq] at hring ⊢
    exact hring.follows_iff
  constructor
  · rintro ⟨hinUse, first, hfirst, hfollows⟩
    obtain ⟨l, hl, rfl⟩ := mem_addrs.mp ((h.inUse a).mp hinUse)
    exact ⟨l, hl, rfl, (hlevel l hl first hfirst).mp hfollows⟩
  · rintro ⟨l, hl, rfl, hp⟩
    obtain ⟨first, q, hq⟩ := List.exists_cons_of_ne_nil (List.ne_nil_of_mem hp)
    have hfirst : (b.level l.addr).firstOrder = some first := by
      rw [(h.levelAt l hl).first, hq]
      rfl
    exact ⟨(h.inUse _).mpr (mem_addrs.mpr ⟨l, hl, rfl⟩), first, hfirst,
      (hlevel l hl first hfirst).mpr hp⟩

/-- The levels of a side are listed. -/
lemma lists_of_mem {b : LimitOrderBook ω κ} {s : Side} {ls : List (Level ω)} (h : Spine b s ls)
    {l : Level ω} (hl : l ∈ ls) : Lists b s l.addr := by
  cases ls with
  | nil => cases hl
  | cons l₀ ls =>
    exact ⟨l₀.addr, h.best, h.ring.follows_of_mem (mem_addrs.mpr ⟨l, hl, rfl⟩)⟩

/-- An order is in one level only. -/
lemma Heap.eq_of_mem_ptrs {b : LimitOrderBook ω κ} {ls : List (Level ω)} (h : Heap b ls)
    {l l' : Level ω} (hl : l ∈ ls) (hl' : l' ∈ ls) {p : Ptr} (hp : p ∈ l.ptrs) (hp' : p ∈ l'.ptrs) :
    l = l' := by
  have hptrs : ptrs ls = ls.flatMap Level.ptrs := by
    rw [ptrs, orders, List.map_flatMap]
    rfl
  have hdisj := (List.nodup_flatMap.mp (hptrs ▸ h.ptr_nodup)).2
  have : Std.Symm (Function.onFun List.Disjoint fun l : Level ω => l.ptrs) := ⟨fun _ _ hd => hd.symm⟩
  by_contra hne
  exact hdisj.forall hl hl' hne hp hp'

variable [BookOrder ω κ]

/-- **In a valid view every order is at home.** -/
theorem atHome_of_valid {b : LimitOrderBook ω κ} {v : View ω} (h : Represents b v) (hv : v.Valid) :
    AtHome b := by
  intro p hp
  have heap := h.shape.heap
  obtain ⟨x, hx, rfl⟩ := mem_ptrs.mp ((h.ledger.inUse p).mp hp)
  obtain ⟨l, hl, hxl⟩ := mem_orders.mp hx
  obtain ⟨s, hs, hls⟩ := View.mem_levels.mp hl
  obtain ⟨hside, hhome⟩ := hv.homed s hs l hls
  obtain ⟨hxs, hxp⟩ := hhome x hxl
  have hat := heap.levelAt l hl
  have hmem : x.1 ∈ l.ptrs := List.mem_map_of_mem hxl
  refine ⟨l.addr, (queues_iff heap).mpr ⟨l, hl, rfl, hmem⟩, fun a' ha' => ?_, ?_, ?_, ?_⟩
  · obtain ⟨l', hl', rfl, hmem'⟩ := (queues_iff heap).mp ha'
    rw [heap.eq_of_mem_ptrs hl' hl hmem' hmem]
  · rw [hat.price, hat.record x hxl, hxp]
  · rw [hat.side, hat.record x hxl, hxs, hside]
  · rw [hat.side, hside]
    exact lists_of_mem (h.shape.spine s hs) hls

/-- The level of an order that is at home. -/
lemma AtHome.level {b : LimitOrderBook ω κ} {v : View ω} (ha : AtHome b) (h : Represents b v)
    {l : Level ω} (hl : l ∈ v.levels) {x : Ptr × ω} (hx : x ∈ l.queue) :
    l.price = BookOrder.price x.2 ∧ l.side = BookOrder.side x.2 := by
  have heap := h.shape.heap
  have hp : b.orderPool.InUse x.1 :=
    (h.ledger.inUse _).mpr (mem_ptrs.mpr ⟨x, mem_orders.mpr ⟨l, hl, hx⟩, rfl⟩)
  obtain ⟨a, hqueues, -, hprice, hside, -⟩ := ha x.1 hp
  obtain ⟨l', hl', rfl, hmem⟩ := (queues_iff heap).mp hqueues
  obtain rfl := heap.eq_of_mem_ptrs hl' hl hmem (List.mem_map_of_mem hx)
  have hat := heap.levelAt l' hl
  rw [hat.price, hat.record x hx] at hprice
  rw [hat.side, hat.record x hx] at hside
  exact ⟨hprice, hside⟩

/-- **An order that is placed in a foreign level is not at home.** -/
theorem not_atHome_of_placed {b b' : LimitOrderBook ω κ} {v v' : View ω} {p : Ptr} {x : ω}
    (h : Represents b v) (hplaced : Placed v p x v') (h' : Represents b' v')
    (hforeign : ¬ FindsOwnLevel b (BookOrder.side x) (BookOrder.price x)) : ¬ AtHome b' := by
  intro ha
  refine hforeign ((findsOwnLevel_iff h.shape.heap).mpr fun m hm he => ?_)
  cases hplaced with
  | @append s l l₁ l₂ hs hv hl =>
    have hmem : l ∈ v.levels := View.mem_levels_of_side (s := s) (by simp [hv])
    obtain rfl := h.shape.heap.eq_of_bucket hm hmem (he.trans hl.symm)
    refine ha.level h' (l := { m with queue := m.queue ++ [(p, x)] }) ?_ (x := (p, x)) (by simp)
    exact View.mem_levels_of_side (s := s) (by simp)
  | openLevel a hempty => exact absurd he (hempty m hm)

end Common
