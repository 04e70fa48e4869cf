import Mathlib.Data.Finset.Card
import Mathlib.Data.Finset.Range
import HftSystem.Lib.Ring
import HftSystem.Common.LimitOrderBook

set_option relaxedAutoImplicit false
set_option autoImplicit false

/-!
# The list of price levels of one side

The price levels of a side form a circular list that starts at the best level. `Spine` states
this for a list of levels, and the two edits of the list, `addOrdersAtPrice` and the unlinking
in `removeOrdersAtPrice`, are specified against it. The insertion loop of `addOrdersAtPrice`
ends at the first level that does not come before the new one, or back at the best level.

## Main definitions

* `Common.Level` — a price level: its address, side and price, and the orders queued in it.
* `Common.Spine` — the levels of a side, as the list the pool holds.
* `Common.insertLevel` — where a new level belongs.
* `Common.Gap` — the two levels of the circle between which a new one goes.
* `Common.LinkFrame` — what an edit of the list leaves alone.

## Main results

* `Common.findTarget_eq` — the search terminates and finds the place of the new level.
* `Common.addOrdersAtPrice_spec`, `Common.unlinkEntry_spec` — the two edits.
* `Common.walk_ring` — a loop around a circle terminates and visits it.
-/

namespace Common

open CircularList LimitOrderBook

variable {ω κ : Type}

/-- A price level of the book and the orders queued in it, first in first out, with their
addresses. -/
structure Level (ω : Type) where
  addr : Ptr
  side : Side
  price : ℤ
  queue : List (Ptr × ω)

/-- The addresses of the orders of a level. -/
def Level.ptrs (l : Level ω) : List Ptr := l.queue.map Prod.fst

/-- The addresses of a list of levels. -/
def addrs (ls : List (Level ω)) : List Ptr := ls.map Level.addr

/-- No levels have no addresses. -/
@[simp] lemma addrs_nil : addrs ([] : List (Level ω)) = [] := rfl

/-- The address of the first level comes first. -/
@[simp] lemma addrs_cons (l : Level ω) (ls : List (Level ω)) :
    addrs (l :: ls) = l.addr :: addrs ls := rfl

/-- The addresses of two lists of levels. -/
@[simp] lemma addrs_append (ls ls' : List (Level ω)) : addrs (ls ++ ls') = addrs ls ++ addrs ls' :=
  List.map_append

/-- An address is that of some level. -/
lemma mem_addrs {a : Ptr} {ls : List (Level ω)} : a ∈ addrs ls ↔ ∃ l ∈ ls, l.addr = a :=
  List.mem_map

/-- The levels of a side are the circular list that starts at the best level. -/
structure Spine (b : LimitOrderBook ω κ) (side : Side) (ls : List (Level ω)) : Prop where
  best : b.bestOrdersByPrice side = (addrs ls).head?
  ring : Ring (fun a => (b.level a).nextEntry) (fun a => (b.level a).prevEntry) (addrs ls)

/-- The place of a new level: behind the levels that are better. -/
def insertLevel (new : Level ω) (ls : List (Level ω)) : List (Level ω) :=
  ls.takeWhile (fun l => addAfter new.side new.price l.price) ++
    new :: ls.dropWhile (fun l => addAfter new.side new.price l.price)

/-- `b'` differs from `b` only in the links of the levels in `touched`, in the table of price
levels and in the best level of `side`. -/
structure LinkFrame (touched : List Ptr) (side : Side) (b b' : LimitOrderBook ω κ) : Prop where
  orderPool : b'.orderPool = b.orderPool
  orderIndex : b'.orderIndex = b.orderIndex
  inUse : b'.ordersAtPricePool.InUse = b.ordersAtPricePool.InUse
  fields : ∀ a, (b'.level a).side = (b.level a).side ∧ (b'.level a).price = (b.level a).price ∧
    (b'.level a).firstOrder = (b.level a).firstOrder
  links : ∀ a ∉ touched, (b'.level a).nextEntry = (b.level a).nextEntry ∧
    (b'.level a).prevEntry = (b.level a).prevEntry
  best : ∀ s, s.IsBookSide → s ≠ side → b'.bestOrdersByPrice s = b.bestOrdersByPrice s

/-! ## Walking along a circle -/

/-- The pointer chase along the rest of a circle visits it and stops in front of its start. -/
lemma walk_of_isChain {next prev : Ptr → Option Ptr} {a : Ptr} {l : List Ptr} {x : Ptr} {fuel : ℕ}
    (h : (x :: l ++ [a]).IsChain (Linked next prev)) (ha : a ∉ x :: l)
    (hfuel : (x :: l).length < fuel) : walk next a fuel x = .ok (x :: l) := by
  induction l generalizing x fuel with
  | nil =>
    obtain ⟨fuel, rfl⟩ : ∃ n, fuel = n + 2 := ⟨fuel - 2, by simp at hfuel; omega⟩
    have hx : x ≠ a := fun he => ha (he ▸ List.mem_singleton.mpr rfl)
    have hnext : next x = some a := (List.IsChain.rel_head? h rfl).1
    simp only [walk, if_neg hx, hnext, deref_some, Fallible.ok_bind, if_true]
    rfl
  | cons y l ih =>
    obtain ⟨fuel, rfl⟩ : ∃ n, fuel = n + 1 := ⟨fuel - 1, by simp at hfuel; omega⟩
    have hx : x ≠ a := fun he => ha (he ▸ List.mem_cons_self ..)
    have htail := ih h.tail (fun hy => ha (List.mem_cons_of_mem _ hy)) (by simpa using hfuel)
    have hnext : next x = some y := (List.IsChain.rel_head? h rfl).1
    rw [walk, if_neg hx, hnext, deref_some, Fallible.ok_bind, htail]
    rfl

/-- **Walking around a circle** visits every node behind the first one. -/
lemma walk_ring {next prev : Ptr → Option Ptr} {a : Ptr} {l : List Ptr} {fuel : ℕ}
    (h : Ring next prev (a :: l)) (hnd : (a :: l).Nodup) (hfuel : l.length < fuel) :
    ∃ x, next a = some x ∧ walk next a fuel x = .ok l := by
  cases l with
  | nil =>
    obtain ⟨fuel, rfl⟩ : ∃ n, fuel = n + 1 := ⟨fuel - 1, by simp at hfuel; omega⟩
    exact ⟨a, (ring_singleton.mp h).1, by simp [walk]⟩
  | cons x l =>
    exact ⟨x, (List.IsChain.rel_head? h rfl).1,
      walk_of_isChain (List.IsChain.tail h) (List.nodup_cons.mp hnd).1 hfuel⟩

/-! ## The order of prices -/

/-- Better prices are those the new level goes behind. -/
lemma addAfter_eq_isBetter (side : Side) (p q : ℤ) : addAfter side p q = isBetter side q p := by
  cases side <;> simp [addAfter, isBetter]

/-- On a book side one of two different prices is better. -/
lemma isBetter_of_ne {side : Side} (hs : side.IsBookSide) {p q : ℤ} (h : p ≠ q)
    (hb : isBetter side q p = false) : isBetter side p q = true := by
  rcases hs with rfl | rfl <;> simp [isBetter] at hb ⊢ <;> omega

/-- Of two prices one is better at most. -/
lemma isBetter_asymm {side : Side} {p q : ℤ} (h : isBetter side p q = true) :
    isBetter side q p = false := by
  cases side <;> simp [isBetter] at h ⊢ <;> omega

/-- A better price is a different one. -/
lemma ne_of_isBetter {side : Side} {p q : ℤ} (h : isBetter side p q = true) : p ≠ q := by
  rintro rfl
  simp [isBetter_asymm h] at h

/-- The levels a new one goes behind are none exactly when it is better than the best. -/
lemma better_iff_takeWhile_nil {side : Side} {price : ℤ} {l₀ : Level ω} {ls : List (Level ω)}
    (hside : side.IsBookSide) (hne : l₀.price ≠ price) :
    isBetter side price l₀.price = true ↔
      (l₀ :: ls).takeWhile (fun l => addAfter side price l.price) = [] := by
  simp only [List.takeWhile_cons, addAfter_eq_isBetter]
  cases h : isBetter side l₀.price price with
  | true => simp [isBetter_asymm h]
  | false => simp [isBetter_of_ne hside hne.symm h]

/-! ## The best level of a side -/

/-- The best level that was set. -/
@[simp] lemma best_setBest_self (b : LimitOrderBook ω κ) (side : Side) (best : Option Ptr) :
    (b.setBest side best).bestOrdersByPrice side = best := by
  by_cases h : side = .buy <;> simp [bestOrdersByPrice, h]

/-- The best level of the other side. -/
lemma best_setBest_of_ne (b : LimitOrderBook ω κ) {side s : Side} (best : Option Ptr)
    (hside : side.IsBookSide) (hs : s.IsBookSide) (h : s ≠ side) :
    (b.setBest side best).bestOrdersByPrice s = b.bestOrdersByPrice s := by
  rcases hside with rfl | rfl <;> rcases hs with rfl | rfl <;>
    simp_all [bestOrdersByPrice]

/-- A new best level does not change the levels. -/
@[simp] lemma level_setBest (b : LimitOrderBook ω κ) (side : Side) (best : Option Ptr) (a : Ptr) :
    (b.setBest side best).level a = b.level a := rfl

/-- Neither does an entry of the table of levels. -/
@[simp] lemma level_setOrdersAtPrice (b : LimitOrderBook ω κ) (price : ℤ) (x : Option Ptr)
    (a : Ptr) : (b.setOrdersAtPrice price x).level a = b.level a := rfl

/-! ## The search -/

section Search

variable {b : LimitOrderBook ω κ} (side : Side) (price : ℤ)

/-- A loop whose flag is cleared stops at once. -/
lemma advanceTarget_false (best target : Ptr) (fuel : ℕ) :
    b.advanceTarget side price best (fuel + 1) false target = .ok (false, target) := by
  simp [advanceTarget]

/-- **The loop of the search.** Started behind the levels `l₀ :: done`, all passed, it stops
at the first level of `rest` that does not come before the new one, or back at the best level.

**Proof sketch.** Induction on `rest`. At the best level the loop is over. A level that
comes before the new one hands over to its successor, which is the next level of `rest` or the
best level; any other level clears the flag and ends the loop one iteration later. -/
lemma advanceTarget_eq {l₀ : Level ω} (done : List (Level ω)) {rest : List (Level ω)}
    (hr : Ring (fun a => (b.level a).nextEntry) (fun a => (b.level a).prevEntry)
      (addrs (l₀ :: done ++ rest)))
    (hd : (addrs (l₀ :: done ++ rest)).Nodup) (hp : ∀ l ∈ rest, (b.level l.addr).price = l.price)
    (fuel : ℕ) (hf : rest.length + 2 ≤ fuel) :
    b.advanceTarget side price l₀.addr fuel true ((addrs rest).headD l₀.addr) =
      .ok ((rest.dropWhile fun l => addAfter side price l.price).isEmpty,
        (addrs (rest.dropWhile fun l => addAfter side price l.price)).headD l₀.addr) := by
  induction rest generalizing done fuel with
  | nil =>
    obtain ⟨fuel, rfl⟩ : ∃ n, fuel = n + 1 := ⟨fuel - 1, by simp at hf; omega⟩
    simp [advanceTarget]
  | cons l rest ih =>
    obtain ⟨fuel, rfl⟩ : ∃ n, fuel = n + 2 := ⟨fuel - 2, by simp at hf; omega⟩
    have hne : l.addr ≠ l₀.addr := by
      rintro he
      simp [he] at hd
    have hnext : (b.level l.addr).nextEntry = some ((addrs rest).headD l₀.addr) := by
      have : Ring (fun a => (b.level a).nextEntry) (fun a => (b.level a).prevEntry)
          (l₀.addr :: addrs done ++ l.addr :: addrs rest) := by simpa using hr
      exact this.next_mem
    have hprice := hp l (List.mem_cons_self ..)
    unfold advanceTarget
    by_cases hafter : addAfter side price l.price
    · have ih' := ih (done ++ [l]) (by simpa using hr) (by simpa using hd)
        (fun l' hl' => hp l' (List.mem_cons_of_mem _ hl')) (fuel + 1)
        (by simp at hf; omega)
      simpa [hne, hprice, hafter, hnext] using ih'
    · simp [hne, hprice, hafter, advanceTarget_false]

/-- **The search terminates and finds the place of the new level**: the first level that does
not come before it, or the best level again when there is none. -/
lemma findTarget_eq {l₀ : Level ω} {ls : List (Level ω)}
    (hr : Ring (fun a => (b.level a).nextEntry) (fun a => (b.level a).prevEntry)
      (addrs (l₀ :: ls)))
    (hd : (addrs (l₀ :: ls)).Nodup) (hp : ∀ l ∈ l₀ :: ls, (b.level l.addr).price = l.price)
    (hsize : ls.length + 1 ≤ b.ordersAtPricePool.size) :
    b.findTarget side price l₀.addr =
      .ok (((l₀ :: ls).dropWhile fun l => addAfter side price l.price).isEmpty,
        (addrs ((l₀ :: ls).dropWhile fun l => addAfter side price l.price)).headD l₀.addr) := by
  have hp₀ := hp l₀ (List.mem_cons_self ..)
  unfold findTarget
  by_cases h₀ : addAfter side price l₀.price
  · have hnext : (b.level l₀.addr).nextEntry = some ((addrs ls).headD l₀.addr) := hr.next_head
    have hadv := advanceTarget_eq side price [] hr hd
      (fun l hl => hp l (List.mem_cons_of_mem _ hl)) (b.ordersAtPricePool.size + 1)
      (by omega)
    cases ls with
    | nil => simpa [hp₀, h₀, hnext] using hadv
    | cons l ls =>
      have hp₁ := hp l (by simp)
      by_cases h₁ : addAfter side price l.price
      · simpa [hp₀, h₀, hnext, hp₁, h₁] using hadv
      · simp [hp₀, h₀, hnext, hp₁, h₁, advanceTarget_false]
  · simp [hp₀, h₀, advanceTarget_false]

end Search

/-! ## Linking a level in -/

/-- Level `x` has been linked in between `z` and `a`. -/
structure LinkedIn (b b' : LimitOrderBook ω κ) (z x a : Ptr) : Prop where
  next_z : (b'.level z).nextEntry = some x
  next_x : (b'.level x).nextEntry = some a
  prev_x : (b'.level x).prevEntry = some z
  prev_a : (b'.level a).prevEntry = some x
  next_other : ∀ y, y ≠ z → y ≠ x → (b'.level y).nextEntry = (b.level y).nextEntry
  prev_other : ∀ y, y ≠ a → y ≠ x → (b'.level y).prevEntry = (b.level y).prevEntry

/-- Level `x` can be linked in between the last level `z` of a circle and its head `a`. -/
structure Gap (b : LimitOrderBook ω κ) (z x a : Ptr) : Prop where
  next : (b.level z).nextEntry = some a
  prev : (b.level a).prevEntry = some z
  ne_last : x ≠ z
  ne_head : x ≠ a
  alone : (b.level a).nextEntry = some a → z = a

section Insert

variable {b : LimitOrderBook ω κ} {x z a : Ptr} {r : List Ptr}

/-- A circle can be cut open in front of its head. -/
lemma exists_gap
    (hr : Ring (fun c => (b.level c).nextEntry) (fun c => (b.level c).prevEntry) (a :: r))
    (hd : (a :: r).Nodup) (hx : x ∉ a :: r) :
    ∃ z, (a :: r).getLast? = some z ∧ [z, x, a] ⊆ x :: a :: r ∧ Gap b z x a := by
  have hz : (a :: r).getLast? = some ((a :: r).getLast (List.cons_ne_nil a r)) :=
    List.getLast?_eq_some_getLast (List.cons_ne_nil a r)
  generalize (a :: r).getLast (List.cons_ne_nil a r) = z at hz
  have hmem := List.mem_of_getLast? hz
  obtain ⟨hnext, hprev⟩ := hr.prev_head hz
  refine ⟨z, hz, ?_, hnext, hprev, fun h => hx (h ▸ hmem), fun h => hx (h ▸ List.mem_cons_self ..),
    fun h => ?_⟩
  · intro c hc
    simp only [List.mem_cons, List.not_mem_nil, or_false] at hc
    rcases hc with rfl | rfl | rfl
    · exact List.mem_cons_of_mem _ hmem
    · exact List.mem_cons_self ..
    · exact List.mem_cons_of_mem _ (List.mem_cons_self ..)
  · have hnil : r = [] := by
      simpa using (Ring.next_self_iff (show Ring _ _ ([] ++ a :: r) from hr) hd).mp h
    simpa [hnil] using hz.symm

/-- "add new_orders_at_price after target" at the end of the list: the last level is `z` and
the best level `a` comes behind it. -/
lemma insertAfter_spec (side : Side) (h : Gap b z x a) :
    ∃ b', b.insertAfter x a a = .ok b' ∧ LinkedIn b b' z x a ∧
      LinkFrame [z, x, a] side b b' ∧ b'.bestOrdersByPrice side = b.bestOrdersByPrice side ∧
      b'.priceOrdersAtPrice = b.priceOrdersAtPrice := by
  refine ⟨(((b.setPrevEntry x (some z)).setPrevEntry a (some x)).setNextEntry x (some a)).setNextEntry
    z (some x), ?_, ?_, ?_, rfl, rfl⟩
  · simp [insertAfter, h.prev, h.next, pure, Except.pure]
  · constructor <;>
      simp +contextual [h.ne_head, h.ne_head.symm, h.ne_last, h.ne_last.symm]
  · exact ⟨rfl, rfl, by simp [setPrevEntry, setNextEntry], by simp, by simp +contextual,
      fun _ _ _ => rfl⟩

/-- "add new_orders_at_price before target", where `z` comes before the target `a`. A new best
level is inserted before the old one. The assignment of `target->next_entry_` in that case
changes nothing.

**Proof sketch.** The four writes put the new level between its neighbours, and they leave all other
links alone. If the new level is the best one, then the old best level is its successor; the last
assignment writes to a link that is right already, and the best level of the side moves. Otherwise
these four writes are all. -/
lemma insertBefore_spec (side : Side) (price : ℤ) (best : Ptr) (h : Gap b z x a)
    (hside : side.IsBookSide)
    (hbest : isBetter side price (b.level best).price = true → a = best) (hxbest : x ≠ best) :
    ∃ b', b.insertBefore side price x a best = .ok b' ∧ LinkedIn b b' z x a ∧
      LinkFrame [z, x, a] side b b' ∧
      b'.bestOrdersByPrice side =
        (if isBetter side price (b.level best).price then some x else b.bestOrdersByPrice side) ∧
      b'.priceOrdersAtPrice = b.priceOrdersAtPrice := by
  set b₁ := (((b.setPrevEntry x (some z)).setNextEntry x (some a)).setNextEntry z
    (some x)).setPrevEntry a (some x) with hb₁
  have hlinked : LinkedIn b b₁ z x a := by
    constructor <;>
      simp +contextual [hb₁, h.ne_head, h.ne_head.symm, h.ne_last, h.ne_last.symm]
  have hframe : LinkFrame [z, x, a] side b b₁ :=
    ⟨rfl, rfl, by simp [hb₁, setPrevEntry, setNextEntry], by simp [hb₁],
      by simp +contextual [hb₁], fun _ _ _ => rfl⟩
  by_cases hb : isBetter side price (b.level best).price
  · obtain rfl := hbest hb
    have hnext : (if (b₁.level a).nextEntry = some a then some x else (b₁.level a).nextEntry) =
        (b₁.level a).nextEntry := by
      split
      · by_cases haz : a = z
        · rw [haz, hlinked.next_z]
        · rw [hlinked.next_other a haz h.ne_head.symm] at *
          exact absurd (h.alone ‹_›).symm haz
      · rfl
    have hsame : ∀ c, (b₁.setNextEntry a (b₁.level a).nextEntry).level c = b₁.level c := by
      intro c
      by_cases hc : c = a <;> simp [hc]
    refine ⟨(b₁.setNextEntry a (b₁.level a).nextEntry).setBest side (some x), ?_, ?_, ?_, ?_, rfl⟩
    · rw [← hnext]
      simp [insertBefore, h.prev, h.ne_head.symm, hb, hb₁, pure, Except.pure]
    · exact ⟨by simpa [hsame] using hlinked.next_z, by simpa [hsame] using hlinked.next_x,
        by simpa [hsame] using hlinked.prev_x, by simpa [hsame] using hlinked.prev_a,
        by simpa [hsame] using hlinked.next_other, by simpa [hsame] using hlinked.prev_other⟩
    · exact ⟨rfl, rfl, by simp [hb₁, setPrevEntry, setNextEntry],
        by simpa [hsame] using hframe.fields, by simpa [hsame] using hframe.links,
        fun s hs hne => best_setBest_of_ne _ _ hside hs hne⟩
    · simp [hb]
  · refine ⟨b₁, ?_, hlinked, hframe, by simp [hb]; rfl, rfl⟩
    simp [insertBefore, h.prev, h.ne_head.symm, hxbest.symm, hb, hb₁, pure, Except.pure]

/-- A level linked in before the head of a circle is its last level. -/
lemma LinkedIn.ring {b' : LimitOrderBook ω κ} {l : List Ptr} (h : LinkedIn b b' z x a)
    (hr : Ring (fun c => (b.level c).nextEntry) (fun c => (b.level c).prevEntry) (a :: l))
    (hz : (a :: l).getLast? = some z) (hd : (a :: l).Nodup) (hx : x ∉ a :: l) :
    Ring (fun c => (b'.level c).nextEntry) (fun c => (b'.level c).prevEntry) (a :: l ++ [x]) := by
  have hne : ∀ y ∈ a :: l, y ≠ x := fun y hy he => hx (he ▸ hy)
  refine hr.push hd hz h.next_z h.next_x h.prev_x h.prev_a
    (fun y hy hyz => h.next_other y hyz (hne y hy)) fun y hy => ?_
  refine h.prev_other y ?_ (hne y (List.mem_cons_of_mem _ hy))
  rintro rfl
  exact (List.nodup_cons.mp hd).1 hy

/-- Frames compose. -/
lemma LinkFrame.trans {side : Side} {b' b'' : LimitOrderBook ω κ} {t t' : List Ptr}
    (h : LinkFrame [] side b b') (ht : t ⊆ t') (h' : LinkFrame t side b' b'') :
    LinkFrame t' side b b'' where
  orderPool := h'.orderPool.trans h.orderPool
  orderIndex := h'.orderIndex.trans h.orderIndex
  inUse := h'.inUse.trans h.inUse
  fields c := ⟨(h'.fields c).1.trans (h.fields c).1, (h'.fields c).2.1.trans (h.fields c).2.1,
    (h'.fields c).2.2.trans (h.fields c).2.2⟩
  links c hc :=
    have hc' := h'.links c fun hct => hc (ht hct)
    have hc'' := h.links c List.not_mem_nil
    ⟨hc'.1.trans hc''.1, hc'.2.trans hc''.2⟩
  best s hs hne := (h'.best s hs hne).trans (h.best s hs hne)

/-- The table of price levels is no link. -/
lemma linkFrame_setOrdersAtPrice (b : LimitOrderBook ω κ) (side : Side) (price : ℤ)
    (level : Option Ptr) : LinkFrame [] side b (b.setOrdersAtPrice price level) :=
  ⟨rfl, rfl, rfl, fun _ => ⟨rfl, rfl, rfl⟩, fun _ _ => ⟨rfl, rfl⟩, fun _ _ _ => rfl⟩

/-- The first level of a side. -/
def LimitOrderBook.setFirst (b : LimitOrderBook ω κ) (side : Side) (x : Ptr) : LimitOrderBook ω κ :=
  ((b.setBest side (some x)).setNextEntry x (some x)).setPrevEntry x (some x)

/-- The first level of a side is its list. -/
lemma spine_setFirst (b : LimitOrderBook ω κ) {side : Side} (new : Level ω) :
    Spine (b.setFirst side new.addr) side [new] where
  best := best_setBest_self b side (some new.addr)
  ring := by simp [setFirst, Linked]

/-- Only the links of the first level are set. -/
lemma linkFrame_setFirst (b : LimitOrderBook ω κ) {side : Side} (hside : side.IsBookSide) (x : Ptr) :
    LinkFrame [x] side b (b.setFirst side x) :=
  ⟨rfl, rfl, by simp [setFirst, setNextEntry, setPrevEntry], by simp [setFirst],
    by simp +contextual [setFirst], fun s hs hne => best_setBest_of_ne b _ hside hs hne⟩

end Insert

/-- **Opening a level.** `addOrdersAtPrice` terminates and puts the new level at its place in
the list of its side and into the table.

**Proof sketch.** The search splits the list into the levels `l₁` that are better and the rest
`l₂`, and returns the head `a` of the circle `l₂ ++ l₁`. Both ways of linking in put the new
level between the last level of that circle and `a`; cutting the circle open again gives
`l₁ ++ new :: l₂`. The new level becomes the best one exactly when `l₁` is empty. -/
theorem addOrdersAtPrice_spec {b : LimitOrderBook ω κ} (new : Level ω) {ls : List (Level ω)}
    (hside : new.side.IsBookSide) (hs : Spine b new.side ls) (hd : (addrs (new :: ls)).Nodup)
    (hp : ∀ l ∈ ls, (b.level l.addr).price = l.price)
    (hnew : (b.level new.addr).side = new.side ∧ (b.level new.addr).price = new.price)
    (hne : ∀ l ∈ ls, l.price ≠ new.price) (hsize : ls.length ≤ b.ordersAtPricePool.size) :
    ∃ b', b.addOrdersAtPrice new.addr = .ok b' ∧ Spine b' new.side (insertLevel new ls) ∧
      LinkFrame (addrs (new :: ls)) new.side b b' ∧
      b'.priceOrdersAtPrice =
        Function.update b.priceOrdersAtPrice (priceToIndex new.price) (some new.addr) := by
  set b₁ := b.setOrdersAtPrice new.price (some new.addr) with hb₁
  have hlevel : ∀ c, b₁.level c = b.level c := fun _ => rfl
  have hframe₁ : LinkFrame [] new.side b b₁ := linkFrame_setOrdersAtPrice ..
  unfold addOrdersAtPrice
  simp only [hnew.1, hnew.2, ← hb₁]
  have hbest₁ : b₁.bestOrdersByPrice new.side = (addrs ls).head? := hs.best
  rw [hbest₁]
  cases ls with
  | nil =>
    exact ⟨b₁.setFirst new.side new.addr, rfl, spine_setFirst b₁ new,
      hframe₁.trans (List.Subset.refl _) (linkFrame_setFirst b₁ hside new.addr), rfl⟩
  | cons l₀ ls =>
    set P := fun l : Level ω => addAfter new.side new.price l.price with hP
    have hfind := findTarget_eq (b := b₁) new.side new.price hs.ring
      (List.nodup_cons.mp hd).2 hp hsize
    simp only [addrs_cons, List.head?_cons, hfind, Fallible.ok_bind]
    have hsplit : (l₀ :: ls).takeWhile P ++ (l₀ :: ls).dropWhile P = l₀ :: ls :=
      List.takeWhile_append_dropWhile
    -- the circle, cut open in front of the new level
    set l₁ := (l₀ :: ls).takeWhile P
    set l₂ := (l₀ :: ls).dropWhile P with hl₂
    have hcut : Ring (fun c => (b₁.level c).nextEntry) (fun c => (b₁.level c).prevEntry)
        (addrs l₂ ++ addrs l₁) := by
      have := hs.ring
      rw [← hsplit, addrs_append] at this
      exact this.rotate
    have hperm : (addrs l₂ ++ addrs l₁).Perm (addrs (l₀ :: ls)) := by
      rw [← hsplit, addrs_append]
      exact List.perm_append_comm
    have hcutd : (addrs l₂ ++ addrs l₁).Nodup := hperm.nodup_iff.mpr (List.nodup_cons.mp hd).2
    have hx : new.addr ∉ addrs l₂ ++ addrs l₁ := fun h =>
      (List.nodup_cons.mp hd).1 (hperm.mem_iff.mp h)
    obtain ⟨a, r, har⟩ : ∃ a r, addrs l₂ ++ addrs l₁ = a :: r := by
      refine List.exists_cons_of_ne_nil fun h => ?_
      simp [h] at hperm
    rw [har] at hcut hcutd hx hperm
    obtain ⟨z, hz, hsub, hgap⟩ := exists_gap hcut hcutd hx
    have htouched : [z, new.addr, a] ⊆ addrs (new :: l₀ :: ls) :=
      List.Subset.trans hsub (List.cons_subset_cons _ hperm.subset)
    have hring : ∀ b', LinkedIn b₁ b' z new.addr a →
        Ring (fun c => (b'.level c).nextEntry) (fun c => (b'.level c).prevEntry)
          (addrs (insertLevel new (l₀ :: ls))) := by
      intro b' hlinked
      have h := hlinked.ring hcut hz hcutd hx
      rw [← har, List.append_assoc] at h
      simpa [insertLevel] using h.rotate
    cases hl : l₂ with
    | nil =>
      have hl₁ : l₁ = l₀ :: ls := by rw [← hsplit, hl, List.append_nil]
      obtain rfl : a = l₀.addr := by
        rw [hl, hl₁] at har
        exact (List.cons.inj har).1.symm
      obtain ⟨b', hb', hlinked, hframe, hbest, htable⟩ :=
        insertAfter_spec new.side hgap
      refine ⟨b', by simpa using hb', ⟨?_, hring b' hlinked⟩, hframe₁.trans htouched hframe, htable⟩
      rw [hbest, hbest₁]
      change _ = (addrs (l₁ ++ new :: l₂)).head?
      simp [hl₁]
    | cons t l₂' =>
      obtain rfl : a = t.addr := by
        rw [hl] at har
        exact (List.cons.inj har).1.symm
      have hp₀ := hp l₀ (List.mem_cons_self ..)
      have hfirst : isBetter new.side new.price (b₁.level l₀.addr).price = true ↔ l₁ = [] := by
        rw [hlevel, hp₀]
        exact better_iff_takeWhile_nil hside (hne l₀ (List.mem_cons_self ..))
      obtain ⟨b', hb', hlinked, hframe, hbest, htable⟩ :=
        insertBefore_spec new.side new.price l₀.addr hgap hside (fun h => by
            have hl₂' : l₂ = l₀ :: ls := by rw [← hsplit, hfirst.mp h, List.nil_append]
            rw [hl] at hl₂'
            rw [(List.cons.inj hl₂').1])
          (fun h => hx (h ▸ hperm.mem_iff.mpr (List.mem_cons_self ..)))
      refine ⟨b', by simpa using hb', ⟨?_, hring b' hlinked⟩, hframe₁.trans htouched hframe, htable⟩
      rw [hbest, hbest₁]
      change _ = (addrs (l₁ ++ new :: l₂)).head?
      cases hl₁ : l₁ with
      | nil => simp [hfirst.mpr hl₁]
      | cons m l₁' =>
        have hml : m = l₀ := by
          rw [hl₁] at hsplit
          exact (List.cons.inj hsplit).1
        have hnot : ¬ isBetter new.side new.price (b₁.level l₀.addr).price = true := by
          simp [hfirst, hl₁]
        simp [hnot, hml]

/-- No comparison holds for a side that is neither of the two. -/
lemma isBetter_other {side : Side} (hside : ¬ side.IsBookSide) (p q : ℤ) :
    isBetter side p q = false := by
  cases side <;> simp_all [isBetter, Side.IsBookSide]

/-- **Opening a level whose side names neither list.** It is put into the list of the asks, where
no comparison stops it from becoming the last level.

**Proof sketch.** The search returns the best level at once. The new level is linked in before it,
which is behind the last one, and does not become the best. -/
theorem addOrdersAtPrice_other {b : LimitOrderBook ω κ} (new : Level ω) {ls : List (Level ω)}
    (hside : ¬ new.side.IsBookSide) (hs : Spine b .sell ls) (hd : (addrs (new :: ls)).Nodup)
    (hnew : (b.level new.addr).side = new.side ∧ (b.level new.addr).price = new.price) :
    ∃ b', b.addOrdersAtPrice new.addr = .ok b' ∧ Spine b' .sell (ls ++ [new]) ∧
      LinkFrame (addrs (new :: ls)) .sell b b' ∧
      b'.priceOrdersAtPrice =
        Function.update b.priceOrdersAtPrice (priceToIndex new.price) (some new.addr) := by
  set b₁ := b.setOrdersAtPrice new.price (some new.addr) with hb₁
  have hbuy : new.side ≠ .buy := fun he => hside (.inl he)
  have hframe₁ : LinkFrame [] .sell b b₁ := linkFrame_setOrdersAtPrice ..
  have hbest₁ : b₁.bestOrdersByPrice .sell = (addrs ls).head? := hs.best
  have hasks : b₁.bestOrdersByPrice new.side = (addrs ls).head? := by
    rw [← hbest₁]
    simp [bestOrdersByPrice, hbuy]
  unfold addOrdersAtPrice
  simp only [hnew.1, hnew.2, ← hb₁, hasks]
  cases ls with
  | nil =>
    have hset : b₁.setBest new.side (some new.addr) = b₁.setBest .sell (some new.addr) := by
      simp [setBest, hbuy]
    refine ⟨b₁.setFirst .sell new.addr, ?_, spine_setFirst b₁ new,
      hframe₁.trans (List.Subset.refl _) (linkFrame_setFirst b₁ (.inr rfl) new.addr), rfl⟩
    unfold setFirst
    rw [← hset]
    rfl
  | cons l₀ ls =>
    have hafter : ∀ q, addAfter new.side new.price q = false := fun q => by
      rw [addAfter_eq_isBetter]
      exact isBetter_other hside _ _
    have hfind : b₁.findTarget new.side new.price l₀.addr = .ok (false, l₀.addr) := by
      unfold findTarget
      simp [hafter, advanceTarget_false]
    have hring : Ring (fun c => (b₁.level c).nextEntry) (fun c => (b₁.level c).prevEntry)
      (l₀.addr :: addrs ls) := hs.ring
    have hnd := (List.nodup_cons.mp hd).2
    have hx : new.addr ∉ l₀.addr :: addrs ls := (List.nodup_cons.mp hd).1
    obtain ⟨z, hz, htouched, hgap⟩ := exists_gap hring hnd hx
    -- a comparison that fails for a side that names neither list also fails for a sell at the best
    have hsell : b₁.insertBefore new.side new.price new.addr l₀.addr l₀.addr =
        b₁.insertBefore .sell (b₁.level l₀.addr).price new.addr l₀.addr l₀.addr := by
      have hsell : new.side ≠ .sell := fun he => hside (.inr he)
      simp [insertBefore, hgap.prev, hgap.ne_head.symm, isBetter, hbuy, hsell, pure, Except.pure]
    obtain ⟨b', hb', hlinked, hframe, hbest, htable⟩ :=
      insertBefore_spec .sell (b₁.level l₀.addr).price l₀.addr hgap (.inr rfl) (fun _ => rfl)
        hgap.ne_head
    refine ⟨b', ?_, ⟨?_, ?_⟩, hframe₁.trans htouched hframe, htable⟩
    · simp only [addrs_cons, List.head?_cons, hfind, Fallible.ok_bind, hsell, hb']
      rfl
    · rw [hbest, hbest₁]
      simp [isBetter]
    · simpa using hlinked.ring hring hz hnd hx

/-- **Taking a level out** of a list of at least two levels.

**Proof sketch.** `Ring.remove` unlinks the level from the circle. The best level moves to the next
one exactly when the level was the best. -/
theorem unlinkEntry_spec {b : LimitOrderBook ω κ} {x : Level ω} {l₁ l₂ : List (Level ω)}
    {side : Side} (hside : side.IsBookSide) (hs : Spine b side (l₁ ++ x :: l₂))
    (hd : (addrs (l₁ ++ x :: l₂)).Nodup) (hne : l₁ ++ l₂ ≠ []) :
    ∃ b', b.unlinkEntry side x.addr = .ok b' ∧ Spine b' side (l₁ ++ l₂) ∧
      LinkFrame (addrs (l₁ ++ x :: l₂)) side b b' ∧
      b'.priceOrdersAtPrice = b.priceOrdersAtPrice := by
  have hids : addrs (l₁ ++ x :: l₂) = addrs l₁ ++ x.addr :: addrs l₂ := by simp
  have hring := hs.ring
  rw [hids] at hring hd
  obtain ⟨z, a, hxa, hzx, hz, ha, hfirst, hremove⟩ := hring.remove hd (by
    rw [← addrs_append]
    simpa [addrs] using hne)
  have hx : x.addr ∉ addrs l₁ ++ addrs l₂ := (List.nodup_middle.mp hd).notMem
  have hmem : ∀ y ∈ addrs l₁ ++ addrs l₂, y ≠ x.addr := fun y hy he => hx (he ▸ hy)
  set best' := if some x.addr = b.bestOrdersByPrice side then some a else b.bestOrdersByPrice side
    with hbest'
  have hbest : best' = (addrs (l₁ ++ l₂)).head? := by
    rw [hbest', hs.best]
    cases l₁ with
    | nil =>
      have : (addrs l₂).head? = some a := hfirst rfl
      simp [this]
    | cons m l₁ =>
      have hmx : x.addr ≠ m.addr := (hmem m.addr (by simp)).symm
      simp [hmx]
  set b₁ := (b.setNextEntry z (some a)).setPrevEntry a (some z) with hb₁
  set b₂ := if some x.addr = b.bestOrdersByPrice side then b₁.setBest side (some a) else b₁ with hb₂
  have hlevel₂ : ∀ c, b₂.level c = b₁.level c := by
    intro c
    rw [hb₂]
    split <;> rfl
  have hbest₂ : b₂.bestOrdersByPrice side = best' := by
    rw [hb₂, hbest']
    split
    · exact best_setBest_self b₁ side (some a)
    · rfl
  refine ⟨(b₂.setNextEntry x.addr none).setPrevEntry x.addr none, ?_, ⟨hbest₂.trans hbest, ?_⟩, ?_, ?_⟩
  · simp only [unlinkEntry, hzx, deref_some, Fallible.ok_bind, level_setNextEntry, hxa,
      level_setPrevEntry, ite_self]
    rfl
  · rw [addrs_append]
    refine hremove _ _ ?_ ?_ (fun y hy hyz => ?_) fun y hy hya => ?_
    · simp [hlevel₂, hb₁, hmem z hz]
    · simp [hlevel₂, hb₁, hmem a ha]
    · simp [hlevel₂, hb₁, hmem y hy, hyz]
    · simp [hlevel₂, hb₁, hmem y hy, hya]
  · refine ⟨?_, ?_, ?_, fun c => ?_, fun c hc => ?_, fun s hs hne => ?_⟩
    · rw [hb₂]; split <;> rfl
    · rw [hb₂]; split <;> rfl
    · rw [hb₂]; split <;> simp [hb₁, setNextEntry, setPrevEntry]
    · simp [hlevel₂, hb₁]
    · have hne' : ∀ y ∈ x.addr :: (addrs l₁ ++ addrs l₂), c ≠ y := by
        rintro y hy rfl
        rw [hids] at hc
        exact hc (List.perm_middle.mem_iff.mpr hy)
      have hcz := hne' z (List.mem_cons_of_mem _ hz)
      have hca := hne' a (List.mem_cons_of_mem _ ha)
      simp [hlevel₂, hb₁, hne' x.addr (List.mem_cons_self ..), hca, hcz]
    · change b₂.bestOrdersByPrice s = _
      rw [hb₂]
      split
      · exact best_setBest_of_ne b₁ _ hside hs hne
      · rfl
  · rw [hb₂]; split <;> rfl

end Common
