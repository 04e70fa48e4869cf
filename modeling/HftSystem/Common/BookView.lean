import HftSystem.Lib.PriceTime
import HftSystem.Common.BookOps

set_option relaxedAutoImplicit false
set_option autoImplicit false

/-!
# Valid views and their contents

A view is valid when each side lists non-empty levels in strict price order and every order is
in the level of its own side and price. The contents of a side are its levels without the
addresses, which is what the price-time library speaks about; each operation of the book is
the operation of the library on the contents.

## Main definitions

* `Common.View.Valid` — sorted sides of non-empty levels, every order at home in its level.
* `Common.View.Fits` — the bucket of an order holds no foreign level.
* `Common.View.contents` — a side without the addresses.
* `Common.SortedLists` — the lists of levels as a reader follows them are sorted.

## Main results

* `Common.Placed.contents` — adding an order is an insertion by price and time.
* `Common.View.Valid.remove`, `Common.View.Valid.modify` — removing and changing an order.
* `Common.Queued.sorted_iff` — when the lists are sorted behind an order of any side byte.
-/

namespace Common

open LimitOrderBook PriceTime Fallible

variable {ω κ : Type} [BookOrder ω κ]

omit [BookOrder ω κ] in
/-- Prices of a book side are in priority order. -/
lemma priority_isBetter {s : Side} (hs : s.IsBookSide) : Priority (isBetter s) where
  asymm _ _ := isBetter_asymm
  trans _ _ _ h h' := by
    rcases hs with rfl | rfl <;> simp [isBetter] at h h' ⊢ <;> omega
  total _ _ h hb := isBetter_of_ne hs h.symm hb

/-- A valid view. -/
structure View.Valid (v : View ω) : Prop where
  sorted : ∀ s, s.IsBookSide → ((v.side s).map Level.price).Pairwise fun p q => isBetter s p q = true
  nonempty : ∀ l ∈ v.levels, l.queue ≠ []
  homed : ∀ s, s.IsBookSide → ∀ l ∈ v.side s, l.side = s ∧
    ∀ x ∈ l.queue, BookOrder.side x.2 = s ∧ BookOrder.price x.2 = l.price

/-- The level in the bucket of an order, if there is one, has its price and its side. -/
def View.Fits (v : View ω) (x : ω) : Prop :=
  ∀ l ∈ v.levels, priceToIndex l.price = priceToIndex (BookOrder.price x) →
    l.price = BookOrder.price x ∧ l.side = BookOrder.side x

/-- The price and the records of a level. -/
def Level.contents (l : Level ω) : ℤ × List ω := (l.price, l.queue.map Prod.snd)

/-- A side of a view, without the addresses. -/
def View.contents (v : View ω) (s : Side) : List (ℤ × List ω) := (v.side s).map Level.contents

/-- The empty view is valid. -/
lemma View.valid_empty : ({} : View ω).Valid where
  sorted s _ := by by_cases h : s = .buy <;> simp [View.side, h]
  nonempty := by simp [View.levels]
  homed s _ := by by_cases h : s = .buy <;> simp [View.side, h]

/-- Replacing a side of a valid view. -/
lemma View.Valid.set {v : View ω} {s : Side} {ls : List (Level ω)} (h : v.Valid)
    (hs : s.IsBookSide) (hsorted : (ls.map Level.price).Pairwise fun p q => isBetter s p q = true)
    (hne : ∀ l ∈ ls, l.queue ≠ [])
    (hhomed : ∀ l ∈ ls, l.side = s ∧
      ∀ x ∈ l.queue, BookOrder.side x.2 = s ∧ BookOrder.price x.2 = l.price) :
    (v.set s ls).Valid where
  sorted s' hs' := by
    by_cases he : s' = s
    · rw [he, View.side_set_self]
      exact hsorted
    · rw [View.side_set_of_ne _ _ hs hs' he]
      exact h.sorted s' hs'
  nonempty l hl := by
    obtain ⟨s', hs', hl⟩ := View.mem_levels.mp hl
    by_cases he : s' = s
    · rw [he, View.side_set_self] at hl
      exact hne l hl
    · rw [View.side_set_of_ne _ _ hs hs' he] at hl
      exact h.nonempty l (View.mem_levels_of_side hl)
  homed s' hs' l hl := by
    by_cases he : s' = s
    · rw [he, View.side_set_self] at hl
      exact he ▸ hhomed l hl
    · rw [View.side_set_of_ne _ _ hs hs' he] at hl
      exact h.homed s' hs' l hl

/-- The contents of a valid side are sorted. -/
lemma View.Valid.sorted_contents {v : View ω} (h : v.Valid) {s : Side} (hs : s.IsBookSide) :
    Sorted (isBetter s) (v.contents s) := by
  have := h.sorted s hs
  rw [List.pairwise_map] at this
  exact List.pairwise_map.mpr this

omit [BookOrder ω κ] in
/-- The contents of a side, split at one order. -/
lemma contents_split {v : View ω} {s : Side} {l : Level ω} {l₁ l₂ : List (Level ω)}
    {q₁ q₂ : List (Ptr × ω)} {x : Ptr × ω} (hv : v.side s = l₁ ++ l :: l₂)
    (hq : l.queue = q₁ ++ x :: q₂) :
    v.contents s = l₁.map Level.contents ++
      (l.price, q₁.map Prod.snd ++ x.2 :: q₂.map Prod.snd) :: l₂.map Level.contents := by
  simp [View.contents, hv, Level.contents, hq]

omit [BookOrder ω κ] in
/-- One order of the contents of a side, in the view. -/
lemma exists_of_contents {v : View ω} {s : Side} {c₁ c₂ : List (ℤ × List ω)} {p : ℤ}
    {a₁ a₂ : List ω} {o : ω} (hc : v.contents s = c₁ ++ (p, a₁ ++ o :: a₂) :: c₂) :
    ∃ (l : Level ω) (l₁ l₂ : List (Level ω)) (q₁ q₂ : List (Ptr × ω)) (x : Ptr × ω),
      v.side s = l₁ ++ l :: l₂ ∧ l.queue = q₁ ++ x :: q₂ ∧ x.2 = o ∧ l.price = p ∧
      l₁.map Level.contents = c₁ ∧ l₂.map Level.contents = c₂ ∧ q₁.map Prod.snd = a₁ ∧
      q₂.map Prod.snd = a₂ := by
  obtain ⟨l₁, m, hv, rfl, hm⟩ := List.map_eq_append_iff.mp hc
  obtain ⟨l, l₂, rfl, hl, rfl⟩ := List.map_eq_cons_iff.mp hm
  obtain ⟨rfl, hq⟩ := Prod.mk.inj hl
  obtain ⟨q₁, r, hqueue, rfl, hr⟩ := List.map_eq_append_iff.mp hq
  obtain ⟨x, q₂, rfl, rfl, rfl⟩ := List.map_eq_cons_iff.mp hr
  exact ⟨l, l₁, l₂, q₁, q₂, x, hv, hqueue, rfl, rfl, rfl, rfl, rfl, rfl⟩

omit [BookOrder ω κ] in
/-- The orders listed by a part of the contents. -/
lemma mem_listed_contents {ls : List (Level ω)} {o : ω} :
    o ∈ listed (ls.map Level.contents) ↔ ∃ x ∈ orders ls, x.2 = o := by
  induction ls with
  | nil => simp
  | cons l ls ih => simp [ih, Level.contents, or_and_right, exists_or]

omit [BookOrder ω κ] in
/-- The contents of the side that was set. -/
lemma View.contents_set_self (v : View ω) (s : Side) (ls : List (Level ω)) :
    (v.set s ls).contents s = ls.map Level.contents := by
  rw [View.contents, View.side_set_self]

omit [BookOrder ω κ] in
/-- The contents of what is left of a level. -/
lemma Level.contents_withQueue (l : Level ω) (q : List (Ptr × ω)) (ls : List (Level ω)) :
    (l.withQueue q ++ ls).map Level.contents =
      consLevel l.price (q.map Prod.snd) (ls.map Level.contents) := by
  cases q <;> rfl

/-- **Removing an order** keeps a view valid. -/
lemma View.Valid.remove {v : View ω} {s : Side} {l : Level ω} {l₁ l₂ : List (Level ω)}
    {q : List (Ptr × ω)} (h : v.Valid) (hs : s.IsBookSide) (hv : v.side s = l₁ ++ l :: l₂)
    (hq : q ⊆ l.queue) : (v.set s (l₁ ++ (l.withQueue q ++ l₂))).Valid := by
  have hsub : ∀ m ∈ l₁ ++ (l.withQueue q ++ l₂), m ∈ v.side s ∨ m = { l with queue := q } ∧ q ≠ [] := by
    intro m hm
    rw [hv]
    cases q with
    | nil =>
      simp only [Level.withQueue, List.nil_append, List.mem_append] at hm
      exact .inl (by simp; tauto)
    | cons y q =>
      simp only [Level.withQueue, List.mem_append, List.mem_singleton] at hm
      simp
      tauto
  refine h.set hs ?_ (fun m hm => ?_) fun m hm => ?_
  · have hsorted := h.sorted s hs
    rw [hv] at hsorted
    refine hsorted.sublist ?_
    rw [List.map_append, List.map_append, List.map_append, List.map_cons]
    refine List.Sublist.append_left ?_ _
    cases q with
    | nil => exact List.sublist_cons_self _ _
    | cons y q => exact List.Sublist.refl _
  · rcases hsub m hm with hm | ⟨rfl, hne⟩
    · exact h.nonempty m (View.mem_levels_of_side hm)
    · exact hne
  · rcases hsub m hm with hm | ⟨rfl, -⟩
    · exact h.homed s hs m hm
    · obtain ⟨hside, hx⟩ := h.homed s hs l (by simp [hv])
      exact ⟨hside, fun x hxq => hx x (hq hxq)⟩

/-- **Changing an order** keeps a view valid if its side and price stay. -/
lemma View.Valid.modify {v : View ω} {s : Side} {l : Level ω} {l₁ l₂ : List (Level ω)}
    {q₁ q₂ : List (Ptr × ω)} {x y : Ptr × ω} (h : v.Valid) (hs : s.IsBookSide)
    (hv : v.side s = l₁ ++ l :: l₂) (hq : l.queue = q₁ ++ x :: q₂)
    (hside : BookOrder.side y.2 = BookOrder.side x.2)
    (hprice : BookOrder.price y.2 = BookOrder.price x.2) :
    (v.set s (l₁ ++ { l with queue := q₁ ++ y :: q₂ } :: l₂)).Valid := by
  have hmem : ∀ m ∈ l₁ ++ { l with queue := q₁ ++ y :: q₂ } :: l₂,
      m ∈ v.side s ∨ m = { l with queue := q₁ ++ y :: q₂ } := by
    intro m hm
    rw [hv]
    simp only [List.mem_append, List.mem_cons] at hm ⊢
    tauto
  refine h.set hs ?_ (fun m hm => ?_) fun m hm => ?_
  · have hsorted := h.sorted s hs
    rw [hv] at hsorted
    simpa using hsorted
  · rcases hmem m hm with hm | rfl
    · exact h.nonempty m (View.mem_levels_of_side hm)
    · simp
  · rcases hmem m hm with hm | rfl
    · exact h.homed s hs m hm
    · obtain ⟨hls, hx⟩ := h.homed s hs l (by simp [hv])
      refine ⟨hls, fun z hz => ?_⟩
      rcases List.mem_append.mp hz with hz | hz
      · exact hx z (by simp [hq, hz])
      · rcases List.mem_cons.mp hz with rfl | hz
        · rw [hside, hprice]
          exact hx x (by simp [hq])
        · exact hx z (by simp [hq, hz])

omit [BookOrder ω κ] in
/-- The contents of a side with a new level. -/
lemma contents_insertLevel (s : Side) (price : ℤ) (new : Level ω) (ls : List (Level ω))
    (hs : new.side = s) (hprice : new.price = price) :
    (insertLevel new ls).map Level.contents =
      (ls.map Level.contents).takeWhile (fun l => isBetter s l.1 price) ++
        new.contents :: (ls.map Level.contents).dropWhile fun l => isBetter s l.1 price := by
  subst hs hprice
  have hcomp : (fun l : Level ω => addAfter new.side new.price l.price) =
      (fun c : ℤ × List ω => isBetter new.side c.1 new.price) ∘ Level.contents := by
    funext l
    exact addAfter_eq_isBetter _ _ _
  rw [insertLevel, hcomp, List.map_append, List.map_cons, List.takeWhile_map, List.dropWhile_map]

/-- **Adding an order is an insertion by price and time**, if no foreign level is in its bucket.
The other side is not touched.

**Proof sketch.** Where the order joins a level, all levels in front have a better price, so the
insertion by price and time passes them (`insertOrder_append`) and stops at the level. Where it opens
one, no level has its price, and the new level stands where `insertLevel` puts it. The view stays valid
in both cases: the list is sorted, no queue is empty, and every order stands under its own side and
price. -/
theorem Placed.contents {v v' : View ω} {p : Ptr} {x : ω} (h : Placed v p x v') (hv : v.Valid)
    (hs : (BookOrder.side x).IsBookSide) (hfits : v.Fits x) :
    v'.Valid ∧
      v'.contents (BookOrder.side x) = insertOrder (isBetter (BookOrder.side x))
        (BookOrder.price x) x (v.contents (BookOrder.side x)) ∧
      ∀ s, s.IsBookSide → s ≠ BookOrder.side x → v'.side s = v.side s := by
  have hprio := priority_isBetter hs
  cases h with
  | @append s l l₁ l₂ hs' hside hl =>
    have hmem : l ∈ v.side s := by simp [hside]
    obtain ⟨hprice, hls⟩ := hfits l (View.mem_levels_of_side hmem) hl
    obtain rfl : s = BookOrder.side x := (hv.homed s hs' l hmem).1.symm.trans hls
    refine ⟨hv.set hs ?_ (fun m hm => ?_) fun m hm => ?_, ?_, fun s' hs' hne =>
      View.side_set_of_ne _ _ hs hs' hne⟩
    · have := hv.sorted _ hs
      rw [hside] at this
      simpa using this
    · rcases List.mem_append.mp hm with hm | hm
      · exact hv.nonempty m (View.mem_levels_of_side (by rw [hside]; exact List.mem_append_left _ hm))
      · rcases List.mem_cons.mp hm with rfl | hm
        · simp
        · exact hv.nonempty m (View.mem_levels_of_side (by rw [hside]; simp [hm]))
    · rcases List.mem_append.mp hm with hm | hm
      · exact hv.homed _ hs m (by simp [hside, hm])
      · rcases List.mem_cons.mp hm with rfl | hm
        · obtain ⟨hls, hx⟩ := hv.homed _ hs l hmem
          refine ⟨hls, fun y hy => ?_⟩
          rcases List.mem_append.mp hy with hy | hy
          · exact hx y hy
          · obtain rfl := List.mem_singleton.mp hy
            exact ⟨rfl, hprice.symm⟩
        · exact hv.homed _ hs m (by simp [hside, hm])
    · have hsorted := hv.sorted_contents hs
      have hc : v.contents (BookOrder.side x) =
          l₁.map Level.contents ++ (BookOrder.price x, l.queue.map Prod.snd) :: l₂.map Level.contents := by
        rw [View.contents, hside, List.map_append, List.map_cons, Level.contents, hprice]
      rw [hc] at hsorted ⊢
      rw [View.contents_set_self, insertOrder_append, insertOrder, if_pos rfl]
      · simp [Level.contents, hprice]
      · intro m hm
        have := (List.pairwise_append.mp hsorted).2.2 m hm _ (List.mem_cons_self ..)
        exact ⟨hprio.ne this, this⟩
  | openLevel a hempty =>
    set new : Level ω := ⟨a, BookOrder.side x, BookOrder.price x, [(p, x)]⟩ with hnew
    have hperm : (insertLevel new (v.side (BookOrder.side x))).Perm (new :: v.side (BookOrder.side x)) := by
      rw [insertLevel]
      refine List.perm_middle.trans ?_
      rw [List.takeWhile_append_dropWhile]
    have hcontents : (insertLevel new (v.side (BookOrder.side x))).map Level.contents =
        insertOrder (isBetter (BookOrder.side x)) (BookOrder.price x) x
          (v.contents (BookOrder.side x)) := by
      rw [insertOrder_open, contents_insertLevel (BookOrder.side x) (BookOrder.price x) new _ rfl rfl]
      · rfl
      · intro c hc he
        obtain ⟨l, hl, rfl⟩ := List.mem_map.mp hc
        exact hempty l (View.mem_levels_of_side hl) (congrArg priceToIndex he)
    refine ⟨hv.set hs ?_ (fun m hm => ?_) fun m hm => ?_, ?_, fun s' hs' hne =>
      View.side_set_of_ne _ _ hs hs' hne⟩
    · have hsorted := (hv.sorted_contents hs).insertOrder hprio (p := BookOrder.price x) (x := x)
      rw [← hcontents] at hsorted
      exact List.pairwise_map.mpr (List.pairwise_map.mp hsorted)
    · rcases List.mem_cons.mp (hperm.mem_iff.mp hm) with rfl | hm
      · simp [hnew]
      · exact hv.nonempty m (View.mem_levels_of_side hm)
    · rcases List.mem_cons.mp (hperm.mem_iff.mp hm) with rfl | hm
      · simp [hnew]
      · exact hv.homed _ hs m hm
    · rw [View.contents_set_self, hcontents]

/-! ## Sorted lists -/

omit [BookOrder ω κ] in
/-- **The lists of price levels are sorted**: following either of them from its best level leads
back there, through prices that are each better than all later ones. -/
def SortedLists (b : LimitOrderBook ω κ) : Prop :=
  ∀ s : Side, s.IsBookSide →
    Safe (fun _ => False) (List.Pairwise fun p q => isBetter s p q = true) (b.levelPrices s)

omit [BookOrder ω κ] in
/-- The lists of a book are sorted where the view is. -/
lemma sortedLists_iff {b : LimitOrderBook ω κ} {v : View ω} (h : Shape b v) : SortedLists b ↔
    ∀ s : Side, s.IsBookSide →
      ((v.side s).map Level.price).Pairwise fun p q => isBetter s p q = true := by
  unfold SortedLists
  refine forall_congr' fun s => forall_congr' fun hs => ?_
  rw [h.levelPrices_eq hs]
  exact safe_ok

/-- Whatever is queued, the lists stay sorted, unless a level was opened behind the asks.

**Proof sketch.** By the way in which the order was queued. Appending it changes no price, and opening
a level by price keeps the side sorted (`Placed.contents`). A level behind the asks keeps them sorted
exactly if its price is above all of theirs. -/
theorem Queued.sorted_iff {v v' : View ω} {p : Ptr} {x : ω} (h : Queued v p x v') (hv : v.Valid) :
    (∀ s : Side, s.IsBookSide →
      ((v'.side s).map Level.price).Pairwise fun p q => isBetter s p q = true) ↔
      (BookOrder.side x).IsBookSide ∨
        (∃ l ∈ v.levels, priceToIndex l.price = priceToIndex (BookOrder.price x)) ∨
        ∀ l ∈ v.side .sell, l.price < BookOrder.price x := by
  cases h with
  | @append s l l₁ l₂ hs hside hl =>
    have hmem : l ∈ v.levels := View.mem_levels_of_side (s := s) (by simp [hside])
    refine iff_of_true (fun s' hs' => ?_) (.inr (.inl ⟨l, hmem, hl⟩))
    have hprices : ((v.set s (l₁ ++ { l with queue := l.queue ++ [(p, x)] } :: l₂)).side s').map
        Level.price = (v.side s').map Level.price := by
      by_cases he : s' = s
      · rw [he, View.side_set_self, hside]
        simp
      · rw [View.side_set_of_ne _ _ hs hs' he]
    rw [hprices]
    exact hv.sorted s' hs'
  | insert a hside hempty =>
    refine iff_of_true ?_ (.inl hside)
    have hfits : v.Fits x := fun l hl he => absurd he (hempty l hl)
    exact ((Placed.openLevel a hempty).contents hv hside hfits).1.sorted
  | last a hside hempty =>
    have hno : ¬ ∃ l ∈ v.levels, priceToIndex l.price = priceToIndex (BookOrder.price x) := by
      rintro ⟨l, hl, he⟩
      exact hempty l hl he
    rw [or_iff_right hside, or_iff_right hno]
    constructor
    · intro hsorted l hl
      have hasks := hsorted .sell (.inr rfl)
      rw [View.side_set_self, List.map_append, List.pairwise_append] at hasks
      have hlt := hasks.2.2 l.price (List.mem_map_of_mem hl) (BookOrder.price x) (by simp)
      simpa [isBetter] using hlt
    · intro hlt s hs
      by_cases he : s = .sell
      · rw [he, View.side_set_self, List.map_append, List.pairwise_append]
        refine ⟨hv.sorted .sell (.inr rfl), by simp, fun q hq r hr => ?_⟩
        obtain ⟨l, hl, rfl⟩ := List.mem_map.mp hq
        obtain rfl : r = BookOrder.price x := by simpa using hr
        simpa [isBetter] using hlt l hl
      · rw [View.side_set_of_ne _ _ (.inr rfl) hs he]
        exact hv.sorted s hs

end Common
