import HftSystem.Common.LimitOrderBook

set_option relaxedAutoImplicit false
set_option autoImplicit false

/-!
# What the pointers of a book lead to

A property of order records that holds wherever a pointer of the book leads. Every operation of
the book only copies pointers that it has read, so it keeps such a property whatever the lists look
like; in particular also where orders queue in a foreign level.

## Main definitions

* `Common.Pointees` — every pointer to an order leads to a record with the property.

## Main results

* `Common.safe_pointees_addOrder`, `Common.safe_pointees_removeOrder` — the operations keep it.
-/

namespace Common

open LimitOrderBook Fallible

variable {ω κ : Type} {P : ω → Prop}

/-- **Every pointer to an order leads to a record with the property.** -/
structure Pointees (P : ω → Prop) (b : LimitOrderBook ω κ) : Prop where
  first : ∀ a p, (b.level a).firstOrder = some p → P (b.node p).order
  prev : ∀ q p, (b.node q).prevOrder = some p → P (b.node p).order
  next : ∀ q p, (b.node q).nextOrder = some p → P (b.node p).order
  index : ∀ k p, b.orderIndex k = some p → P (b.node p).order

namespace Pointees

variable {b b' : LimitOrderBook ω κ}

/-- Only the pointers and the records matter. -/
lemma congr (h : Pointees P b)
    (hfirst : ∀ a, (b'.level a).firstOrder = (b.level a).firstOrder)
    (hnode : ∀ p, b'.node p = b.node p) (hindex : b'.orderIndex = b.orderIndex) : Pointees P b' where
  first a p ha := by
    rw [hfirst] at ha
    rw [hnode]
    exact h.first a p ha
  prev q p hq := by
    rw [hnode] at hq ⊢
    exact h.prev q p hq
  next q p hq := by
    rw [hnode] at hq ⊢
    exact h.next q p hq
  index k p hk := by
    rw [hindex] at hk
    rw [hnode]
    exact h.index k p hk

/-- A pointer may be written if it leads to a record with the property. -/
lemma setFirstOrder (h : Pointees P b) (a : Ptr) {x : Option Ptr}
    (hx : ∀ p ∈ x, P (b.node p).order) : Pointees P (b.setFirstOrder a x) where
  first c p hc := by
    rw [level_setFirstOrder] at hc
    simp only at hc
    split_ifs at hc
    · exact hx p hc
    · exact h.first c p hc
  prev := h.prev
  next := h.next
  index := h.index

/-- The link to the previous order may lead to an order with `P`. -/
lemma setPrevOrder (h : Pointees P b) (q : Ptr) {x : Option Ptr}
    (hx : ∀ p ∈ x, P (b.node p).order) : Pointees P (b.setPrevOrder q x) where
  first c p hc := by simpa using h.first c p hc
  prev c p hc := by
    rw [node_setPrevOrder] at hc ⊢
    simp only at hc ⊢
    split_ifs at hc
    · exact hx p hc
    · exact h.prev c p hc
  next c p hc := by
    rw [node_setPrevOrder] at hc ⊢
    exact h.next c p hc
  index k p hk := by simpa using h.index k p hk

/-- So may the link to the next order. -/
lemma setNextOrder (h : Pointees P b) (q : Ptr) {x : Option Ptr}
    (hx : ∀ p ∈ x, P (b.node p).order) : Pointees P (b.setNextOrder q x) where
  first c p hc := by simpa using h.first c p hc
  prev c p hc := by
    rw [node_setNextOrder] at hc ⊢
    exact h.prev c p hc
  next c p hc := by
    rw [node_setNextOrder] at hc ⊢
    simp only at hc ⊢
    split_ifs at hc
    · exact hx p hc
    · exact h.next c p hc
  index k p hk := by simpa using h.index k p hk

/-- A record may be changed if it keeps the property. -/
lemma modifyOrder (h : Pointees P b) (q : Ptr) {f : ω → ω} (hf : ∀ o, P o → P (f o)) :
    Pointees P (b.modifyOrder q f) := by
  have hkeep : ∀ p, P (b.node p).order → P ((b.modifyOrder q f).node p).order := by
    intro p hp
    rw [node_modifyOrder]
    simp only
    split_ifs
    · exact hf _ hp
    · exact hp
  refine ⟨fun a p ha => hkeep p (h.first a p ha), fun c p hc => hkeep p (h.prev c p ?_),
    fun c p hc => hkeep p (h.next c p ?_), fun k p hk => hkeep p (h.index k p hk)⟩
  · rwa [node_modifyOrder] at hc
  · rwa [node_modifyOrder] at hc

/-- Following a pointer leads to a record with the property. -/
lemma safe_deref {x : Option Ptr} (hx : ∀ p, x = some p → P (b.node p).order) :
    Safe (fun _ => True) (fun p => P (b.node p).order) (deref x) := by
  cases x with
  | none => trivial
  | some p => exact hx p rfl

end Pointees

/-! ## The operations -/

section Operations

variable {b : LimitOrderBook ω κ}

/-- A computation of which nothing is asked. -/
lemma safe_true {ε α : Type} (x : Except ε α) : Safe (fun _ => True) (fun _ => True) x := by
  cases x <;> trivial

/-- An edit that writes to the links between levels at most, and to where the sides begin. -/
structure EntriesOnly (b b' : LimitOrderBook ω κ) : Prop where
  orderPool : b'.orderPool = b.orderPool
  orderIndex : b'.orderIndex = b.orderIndex
  first : ∀ a, (b'.level a).firstOrder = (b.level a).firstOrder

namespace EntriesOnly

variable {b' : LimitOrderBook ω κ} (h : EntriesOnly b b')

include h

/-- The link to the next level is one between levels. -/
lemma setNextEntry (a : Ptr) (x : Option Ptr) : EntriesOnly b (b'.setNextEntry a x) :=
  ⟨h.orderPool, h.orderIndex, fun c => by simpa using h.first c⟩

/-- So is the link to the previous level. -/
lemma setPrevEntry (a : Ptr) (x : Option Ptr) : EntriesOnly b (b'.setPrevEntry a x) :=
  ⟨h.orderPool, h.orderIndex, fun c => by simpa using h.first c⟩

/-- So is the pointer to the best level. -/
lemma setBest (s : Side) (x : Option Ptr) : EntriesOnly b (b'.setBest s x) :=
  ⟨h.orderPool, h.orderIndex, h.first⟩

/-- So is an entry of the table of levels. -/
lemma setOrdersAtPrice (price : ℤ) (a : Option Ptr) : EntriesOnly b (b'.setOrdersAtPrice price a) :=
  ⟨h.orderPool, h.orderIndex, h.first⟩

/-- Links between levels do not matter to the orders. -/
lemma pointees (hb : Pointees P b) : Pointees P b' :=
  hb.congr h.first (fun p => by simp only [node, h.orderPool]) h.orderIndex

end EntriesOnly

/-- Nothing is written. -/
lemma EntriesOnly.refl (b : LimitOrderBook ω κ) : EntriesOnly b b := ⟨rfl, rfl, fun _ => rfl⟩

section Entries

variable {b₀ : LimitOrderBook ω κ} (h : EntriesOnly b₀ b)

include h

/-- Linking a level behind another one writes links between levels. -/
lemma safe_entries_insertAfter (new target best : Ptr) :
    Safe (fun _ => True) (EntriesOnly b₀) (b.insertAfter new target best) := by
  unfold insertAfter
  split
  · exact (safe_true _).bind fun target _ => (safe_true _).bind fun next _ =>
      (((h.setPrevEntry _ _).setPrevEntry _ _).setNextEntry _ _).setNextEntry _ _
  · exact (safe_true (.ok target)).bind fun target _ => (safe_true _).bind fun next _ =>
      (((h.setPrevEntry _ _).setPrevEntry _ _).setNextEntry _ _).setNextEntry _ _

/-- So does linking it in front of another one. -/
lemma safe_entries_insertBefore (s : Side) (price : ℤ) (new target best : Ptr) :
    Safe (fun _ => True) (EntriesOnly b₀) (b.insertBefore s price new target best) := by
  unfold insertBefore
  refine (safe_true _).bind fun prev _ => ?_
  have hlinked := (((h.setPrevEntry new (b.level target).prevEntry).setNextEntry new
    (some target)).setNextEntry prev (some new)).setPrevEntry target (some new)
  simp only
  split
  · exact (hlinked.setNextEntry _ _).setBest _ _
  · exact hlinked

/-- So does linking it in its place. -/
lemma safe_entries_addOrdersAtPrice (new : Ptr) :
    Safe (fun _ => True) (EntriesOnly b₀) (b.addOrdersAtPrice new) := by
  have htable := h.setOrdersAtPrice (b.level new).price (some new)
  unfold addOrdersAtPrice
  simp only
  split
  · exact ((htable.setBest _ _).setNextEntry _ _).setPrevEntry _ _
  · refine (safe_true _).bind fun r _ => ?_
    split
    · exact safe_entries_insertAfter htable _ _ _
    · exact safe_entries_insertBefore htable _ _ _ _ _

/-- So does unlinking it. -/
lemma safe_entries_detachEntry (s : Side) (a : Ptr) :
    Safe (fun _ => True) (EntriesOnly b₀) (b.detachEntry s a) := by
  unfold detachEntry
  split
  · exact h.setBest _ _
  · unfold unlinkEntry
    refine (safe_true _).bind fun prev _ => (safe_true _).bind fun next _ => ?_
    have hlinked := (h.setNextEntry prev (b.level a).nextEntry).setPrevEntry next
      ((b.setNextEntry prev (b.level a).nextEntry).level a).prevEntry
    simp only
    split
    · exact ((hlinked.setBest _ _).setNextEntry _ _).setPrevEntry _ _
    · exact (hlinked.setNextEntry _ _).setPrevEntry _ _

/-- So does removing it. -/
lemma safe_entries_removeOrdersAtPrice (s : Side) (price : ℤ) :
    Safe (fun _ => True) (EntriesOnly b₀) (b.removeOrdersAtPrice s price) := by
  unfold removeOrdersAtPrice
  refine (safe_true _).bind fun a _ => (safe_entries_detachEntry h s a).bind fun b₁ h₁ => ?_
  refine (MemPool.safe_deallocate _ a).bind ?_
  rintro pool ⟨-, rfl⟩
  refine ⟨h₁.orderPool, h₁.orderIndex, fun c => ?_⟩
  rw [← h₁.first c]
  simp only [level, MemPool.get_release]
  rfl

end Entries

/-- Queueing an order with `P` keeps the pointers. -/
lemma safe_pointees_appendOrder (h : Pointees P b) {a p : Ptr} (hp : P (b.node p).order) :
    Safe (fun _ => True) (fun b' => Pointees P b' ∧ P (b'.node p).order) (b.appendOrder a p) := by
  unfold appendOrder
  refine (Pointees.safe_deref (h.first a)).bind fun first hfirst => ?_
  refine (Pointees.safe_deref (h.prev first)).bind fun last hlast => ?_
  refine ⟨Pointees.setPrevOrder (Pointees.setNextOrder (Pointees.setPrevOrder (h.setNextOrder _ ?_) _
    fun q hq => ?_) _ ?_) _ ?_, ?_⟩
  · simpa using hp
  · simpa using h.prev first q (by simpa using hq)
  · simpa using hfirst
  · simpa using hp
  · simpa using hp

/-- Unlinking an order keeps the pointers. -/
lemma safe_pointees_unlinkOrder (h : Pointees P b) (a : Option Ptr) (p : Ptr) :
    Safe (fun _ => True) (Pointees P) (b.unlinkOrder a p) := by
  have hnone : ∀ (b : LimitOrderBook ω κ), ∀ q ∈ (none : Option Ptr), P (b.node q).order := by
    intro b q hq
    cases hq
  unfold unlinkOrder
  refine (Pointees.safe_deref (h.prev p)).bind fun before hbefore => ?_
  refine (Pointees.safe_deref (h.next p)).bind fun after hafter => ?_
  have hlinked : Pointees P ((b.setNextOrder before (some after)).setPrevOrder after (some before)) := by
    refine (h.setNextOrder _ ?_).setPrevOrder _ ?_
    · simpa using hafter
    · simpa using hbefore
  refine (safe_true _).bind fun a _ => ?_
  simp only
  split
  · refine Pointees.setPrevOrder (Pointees.setNextOrder (hlinked.setFirstOrder _ ?_) _ ?_) _ ?_
    · simpa using hafter
    · exact hnone _
    · exact hnone _
  · exact (hlinked.setNextOrder _ (hnone _)).setPrevOrder _ (hnone _)

variable [BookOrder ω κ]

/-- Opening a level for an order with `P` keeps the pointers. -/
lemma safe_pointees_openLevel (h : Pointees P b) {p : Ptr} (hp : P (b.node p).order) :
    Safe (fun _ => True) (fun b' => Pointees P b' ∧ P (b'.node p).order) (b.openLevel p) := by
  set b₁ := (b.setPrevOrder p (some p)).setNextOrder p (some p) with hb₁
  have hself : Pointees P b₁ := by
    refine (h.setPrevOrder _ ?_).setNextOrder _ ?_
    · simpa using hp
    · simpa using hp
  have hp₁ : P (b₁.node p).order := by simpa [hb₁] using hp
  unfold openLevel
  refine ((MemPool.safe_allocate _ _).mono (fun _ _ => trivial) fun _ hr => hr).bind fun r hal => ?_
  set b₂ : LimitOrderBook ω κ := { b₁ with ordersAtPricePool := r.2 } with hb₂
  -- the new level points to the order
  have hnew : Pointees P b₂ := by
    refine ⟨fun a q hq => ?_, hself.prev, hself.next, hself.index⟩
    simp only [hb₂, level, hal.get, Function.update_apply] at hq
    split_ifs at hq
    · obtain rfl : p = q := Option.some_inj.mp hq
      exact hp₁
    · exact hself.first a q hq
  refine (safe_entries_addOrdersAtPrice (EntriesOnly.refl b₂) r.1).mono (fun _ hf => hf) fun b₃ h₃ => ?_
  refine ⟨h₃.pointees hnew, ?_⟩
  simp only [node, h₃.orderPool]
  exact hp₁

/-- **Adding an order** that has the property. -/
theorem safe_pointees_addOrder [DecidableEq κ] (h : Pointees P b) {p : Ptr}
    (hp : P (b.node p).order) : Safe (fun _ => True) (Pointees P) (b.addOrder p) := by
  unfold addOrder
  have henqueue : Safe (fun _ => True) (fun b' => Pointees P b' ∧ P (b'.node p).order)
      (b.enqueueOrder p) := by
    unfold enqueueOrder
    split
    · exact safe_pointees_openLevel h hp
    · exact safe_pointees_appendOrder h hp
  refine henqueue.bind ?_
  rintro b₁ ⟨h₁, hp₁⟩
  unfold setIndex
  split
  · refine ⟨h₁.first, h₁.prev, h₁.next, fun k q hq => ?_⟩
    simp only [Function.update_apply] at hq
    split_ifs at hq
    · obtain rfl : p = q := Option.some_inj.mp hq
      exact hp₁
    · exact h₁.index k q hq
  · trivial

/-- **Removing an order.** -/
theorem safe_pointees_removeOrder [DecidableEq κ] (h : Pointees P b) (p : Ptr) :
    Safe (fun _ => True) (Pointees P) (b.removeOrder p) := by
  unfold removeOrder
  have hdequeue : Safe (fun _ => True) (Pointees P) (b.dequeueOrder p) := by
    unfold dequeueOrder
    simp only
    split
    · exact (safe_entries_removeOrdersAtPrice (EntriesOnly.refl b) _ _).mono (fun _ hf => hf)
        fun _ hb => hb.pointees h
    · exact safe_pointees_unlinkOrder h _ _
  refine hdequeue.bind fun b₁ h₁ => ?_
  have hindex : Safe (fun _ => True) (Pointees P) (b₁.setIndex (BookOrder.slot (b.node p).order) none) := by
    unfold setIndex
    split
    · next k _ =>
      refine ⟨h₁.first, h₁.prev, h₁.next, fun k' q hq => ?_⟩
      simp only [Function.update_apply] at hq
      split_ifs at hq
      exact h₁.index k' q hq
    · trivial
  refine hindex.bind fun b₂ h₂ => (MemPool.safe_deallocate _ p).bind ?_
  rintro pool ⟨-, rfl⟩
  exact h₂.congr (fun _ => rfl) (fun q => by simp only [node, MemPool.get_release]) rfl

end Operations

end Common
