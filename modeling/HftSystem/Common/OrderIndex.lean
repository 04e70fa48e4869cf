import HftSystem.Common.BookPointers

set_option relaxedAutoImplicit false
set_option autoImplicit false

/-!
# The table of orders

The table is written where an order is added and where one is removed, and nowhere else. So it
finds exactly the blocks of the pool that are in use, whatever the lists look like, as long as no
order is added over an entry that is taken.

## Main definitions

* `Common.LinksOnly` — an edit of the lists alone.
* `Common.Entered` — what is written when an order is added.
* `Common.Indexed` — the table finds exactly the orders whose blocks are in use.

## Main results

* `Common.Indexed.safe_removeOrder` — removing an order keeps it.
* `Common.safe_entered_addOrder` — what adding an order writes.
* `Common.Indexed.place`, `Common.Indexed.lost_of_taken` — adding at a free and at a taken entry.
-/

namespace Common

open LimitOrderBook Fallible

variable {ω κ : Type}

/-! ## Edits of the lists -/

/-- An edit that writes to the lists and the levels at most. -/
structure LinksOnly (b b' : LimitOrderBook ω κ) : Prop where
  inUse : b'.orderPool.InUse = b.orderPool.InUse
  orderIndex : b'.orderIndex = b.orderIndex
  order : ∀ p, (b'.node p).order = (b.node p).order

namespace LinksOnly

variable {b b' b'' : LimitOrderBook ω κ}

/-- Nothing is written. -/
lemma refl (b : LimitOrderBook ω κ) : LinksOnly b b := ⟨rfl, rfl, fun _ => rfl⟩

/-- Two such edits in a row are one. -/
lemma trans (h : LinksOnly b b') (h' : LinksOnly b' b'') : LinksOnly b b'' :=
  ⟨h'.inUse.trans h.inUse, h'.orderIndex.trans h.orderIndex, fun p => (h'.order p).trans (h.order p)⟩

/-- Writing the first order of a level is such an edit. -/
lemma setFirstOrder (h : LinksOnly b b') (a : Ptr) (x : Option Ptr) :
    LinksOnly b (b'.setFirstOrder a x) := ⟨h.inUse, h.orderIndex, h.order⟩

/-- So is writing the link to the next order. -/
lemma setNextOrder (h : LinksOnly b b') (p : Ptr) (x : Option Ptr) :
    LinksOnly b (b'.setNextOrder p x) := by
  refine ⟨?_, h.orderIndex, fun q => ?_⟩
  · rw [← h.inUse]
    exact MemPool.inUse_modify _ _ _
  · rw [node_setNextOrder]
    exact h.order q

/-- So is writing the link to the previous order. -/
lemma setPrevOrder (h : LinksOnly b b') (p : Ptr) (x : Option Ptr) :
    LinksOnly b (b'.setPrevOrder p x) := by
  refine ⟨?_, h.orderIndex, fun q => ?_⟩
  · rw [← h.inUse]
    exact MemPool.inUse_modify _ _ _
  · rw [node_setPrevOrder]
    exact h.order q

end LinksOnly

/-- The links between levels are links. -/
lemma EntriesOnly.linksOnly {b b' : LimitOrderBook ω κ} (h : EntriesOnly b b') : LinksOnly b b' :=
  ⟨by rw [h.orderPool], h.orderIndex, fun p => by simp only [node, h.orderPool]⟩

section Operations

variable (b : LimitOrderBook ω κ)

/-- So is queueing an order in a level. -/
lemma safe_links_appendOrder (a p : Ptr) :
    Safe (fun _ => True) (LinksOnly b) (b.appendOrder a p) := by
  unfold appendOrder
  refine (safe_true _).bind fun first _ => (safe_true _).bind fun last _ => ?_
  exact ((((LinksOnly.refl b).setNextOrder _ _).setPrevOrder _ _).setNextOrder _ _).setPrevOrder _ _

/-- So is unlinking it. -/
lemma safe_links_unlinkOrder (a : Option Ptr) (p : Ptr) :
    Safe (fun _ => True) (LinksOnly b) (b.unlinkOrder a p) := by
  unfold unlinkOrder
  refine (safe_true _).bind fun before _ => (safe_true _).bind fun after _ => ?_
  have hlinked : LinksOnly b ((b.setNextOrder before (some after)).setPrevOrder after (some before)) :=
    ((LinksOnly.refl b).setNextOrder _ _).setPrevOrder _ _
  refine (safe_true _).bind fun a _ => ?_
  simp only
  split
  · exact ((hlinked.setFirstOrder _ _).setNextOrder _ _).setPrevOrder _ _
  · exact (hlinked.setNextOrder _ _).setPrevOrder _ _

variable [BookOrder ω κ]

/-- So is opening a level for it. -/
lemma safe_links_openLevel (p : Ptr) : Safe (fun _ => True) (LinksOnly b) (b.openLevel p) := by
  unfold openLevel
  have hself : LinksOnly b ((b.setPrevOrder p (some p)).setNextOrder p (some p)) :=
    ((LinksOnly.refl b).setPrevOrder _ _).setNextOrder _ _
  refine (safe_true _).bind fun r _ => ?_
  refine (safe_entries_addOrdersAtPrice (EntriesOnly.refl _) r.1).mono (fun _ hf => hf) ?_
  intro b' hb'
  have hlevel : LinksOnly b
      { (b.setPrevOrder p (some p)).setNextOrder p (some p) with ordersAtPricePool := r.2 } :=
    ⟨hself.inUse, hself.orderIndex, hself.order⟩
  exact hlevel.trans hb'.linksOnly

/-- So is queueing it in its level, which may be a new one. -/
lemma safe_links_enqueueOrder (p : Ptr) :
    Safe (fun _ => True) (LinksOnly b) (b.enqueueOrder p) := by
  unfold enqueueOrder
  split
  · exact safe_links_openLevel b p
  · exact safe_links_appendOrder b _ p

/-- So is taking it out of its level, which may be the end of the level. -/
lemma safe_links_dequeueOrder (p : Ptr) :
    Safe (fun _ => True) (LinksOnly b) (b.dequeueOrder p) := by
  unfold dequeueOrder
  simp only
  split
  · exact (safe_entries_removeOrdersAtPrice (EntriesOnly.refl b) _ _).mono (fun _ hf => hf)
      fun _ hb => hb.linksOnly
  · exact safe_links_unlinkOrder b _ p

end Operations

/-! ## Entering an order -/

/-- What is written when an order is put into a fresh block and added: the block is in use, the
entry of the order leads to it, and nothing else changes. -/
structure Entered [BookOrder ω κ] [DecidableEq κ] (b : LimitOrderBook ω κ) (p : Ptr) (record : ω) (k : κ)
    (b' : LimitOrderBook ω κ) : Prop where
  fresh : ¬ b.orderPool.InUse p
  slot : BookOrder.slot record = some k
  inUse : ∀ q, b'.orderPool.InUse q ↔ q = p ∨ b.orderPool.InUse q
  orderIndex : b'.orderIndex = Function.update b.orderIndex k (some p)
  order : ∀ q, (b'.node q).order = if q = p then record else (b.node q).order

/-- **Adding an order** that was put into a fresh block. -/
theorem safe_entered_addOrder [BookOrder ω κ] [DecidableEq κ] (b : LimitOrderBook ω κ) {record : ω} {p : Ptr}
    {pool : MemPool (OrderNode ω)}
    (hal : MemPool.Allocated b.orderPool pool { order := record } p) :
    Safe (fun _ => True) (fun b' => ∃ k, Entered b p record k b')
      (LimitOrderBook.addOrder { b with orderPool := pool } p) := by
  have hnode : ∀ q, (LimitOrderBook.node { b with orderPool := pool } q).order =
      if q = p then record else (b.node q).order := by
    intro q
    simp only [node, hal.get, Function.update_apply]
    split_ifs <;> rfl
  unfold LimitOrderBook.addOrder
  refine (safe_links_enqueueOrder _ p).bind fun b₁ h₁ => ?_
  rw [hnode p, if_pos rfl]
  cases hslot : BookOrder.slot record with
  | none => trivial
  | some k =>
    refine ⟨k, hal.fresh, hslot, fun q => ?_, ?_, fun q => (h₁.order q).trans (hnode q)⟩
    · show b₁.orderPool.InUse q ↔ _
      rw [h₁.inUse]
      exact hal.inUse q
    · show Function.update b₁.orderIndex k (some p) = _
      rw [h₁.orderIndex]

/-! ## The table -/

/-- **The table finds exactly the orders that rest**: those whose blocks are in use. -/
structure Indexed [BookOrder ω κ] (b : LimitOrderBook ω κ) : Prop where
  index : ∀ k p, b.orderIndex k = some p ↔
    b.orderPool.InUse p ∧ BookOrder.slot (b.node p).order = some k
  slot : ∀ p, b.orderPool.InUse p → BookOrder.slot (b.node p).order ≠ none

namespace Indexed

variable [BookOrder ω κ] {b b' : LimitOrderBook ω κ}

/-- Only the table, the blocks in use and the entries of their orders matter. -/
lemma congr (h : Indexed b) (hindex : b'.orderIndex = b.orderIndex)
    (hinUse : b'.orderPool.InUse = b.orderPool.InUse)
    (hslot : ∀ p, BookOrder.slot (b'.node p).order = BookOrder.slot (b.node p).order) :
    Indexed b' where
  index k p := by
    rw [hindex, hinUse, hslot]
    exact h.index k p
  slot p hp := by
    rw [hslot]
    rw [hinUse] at hp
    exact h.slot p hp

/-- Two orders that rest have two entries. -/
lemma slot_inj (h : Indexed b) {p q : Ptr} (hp : b.orderPool.InUse p) (hq : b.orderPool.InUse q)
    (heq : BookOrder.slot (b.node p).order = BookOrder.slot (b.node q).order) : p = q := by
  obtain ⟨k, hk⟩ := Option.ne_none_iff_exists'.mp (h.slot p hp)
  have hfound : b.orderIndex k = some p := (h.index k p).mpr ⟨hp, hk⟩
  have hfound' : b.orderIndex k = some q := (h.index k q).mpr ⟨hq, heq ▸ hk⟩
  exact Option.some_inj.mp (hfound.symm.trans hfound')

variable [DecidableEq κ]

/-- **Removing an order** clears its entry.

**Proof sketch.** Taking the order off its queue changes links only, so records and table stay. Then
the entry of the order is cleared and its block released. No other order in use has the key of that
entry (`Indexed.slot_inj`), so every other entry still leads to its order. -/
theorem safe_removeOrder (h : Indexed b) (p : Ptr) :
    Safe (fun _ => True) Indexed (b.removeOrder p) := by
  unfold removeOrder
  refine (safe_links_dequeueOrder b p).bind fun b₁ h₁ => ?_
  have hidx : Safe (fun _ => True)
      (fun b₂ => ∃ k, BookOrder.slot (b.node p).order = some k ∧
        b₂ = { b₁ with orderIndex := Function.update b₁.orderIndex k none })
      (b₁.setIndex (BookOrder.slot (b.node p).order) none) := by
    cases hslot : BookOrder.slot (b.node p).order with
    | none => trivial
    | some k => exact ⟨k, rfl, rfl⟩
  refine hidx.bind ?_
  rintro _ ⟨k, hk, rfl⟩
  -- the pool checks that the block is in use
  refine (MemPool.safe_deallocate _ p).bind ?_
  rintro pool ⟨hp, rfl⟩
  have hp' : b.orderPool.InUse p := by
    rw [← h₁.inUse]
    exact hp
  refine ⟨fun k' q => ?_, fun q hq => ?_⟩
  · simp only [node, MemPool.get_release, MemPool.inUse_release, Function.update_apply,
      h₁.orderIndex]
    rw [h₁.inUse, ← node, h₁.order]
    by_cases hk' : k' = k
    · subst hk'
      rw [if_pos rfl]
      constructor
      · intro hnone
        cases hnone
      · rintro ⟨⟨hq, huse⟩, hqk⟩
        exact absurd (h.slot_inj huse hp' (hqk.trans hk.symm)) hq
    · rw [if_neg hk', h.index]
      constructor
      · rintro ⟨huse, hqk⟩
        refine ⟨⟨?_, huse⟩, hqk⟩
        rintro rfl
        exact hk' (Option.some_inj.mp (hqk.symm.trans hk))
      · rintro ⟨⟨-, huse⟩, hqk⟩
        exact ⟨huse, hqk⟩
  · simp only [MemPool.inUse_release, h₁.inUse] at hq
    simp only [node, MemPool.get_release]
    rw [← node, h₁.order]
    exact h.slot q hq.2

/-- **An order is added at a free entry.**

**Proof sketch.** The new order has a block that no other order uses, and its entry was empty, so no
order in use has its key. Hence its entry leads to it alone, and every other entry leads where it led
before. -/
theorem place (h : Indexed b) {p : Ptr} {record : ω} {k : κ} (hb' : Entered b p record k b')
    (hfree : b.orderIndex k = none) : Indexed b' := by
  have hnot : ∀ q, b.orderPool.InUse q → BookOrder.slot (b.node q).order ≠ some k := by
    intro q hq hqk
    rw [(h.index k q).mpr ⟨hq, hqk⟩] at hfree
    cases hfree
  refine ⟨fun k' q => ?_, fun q hq => ?_⟩
  · rw [hb'.orderIndex, hb'.inUse, hb'.order, Function.update_apply]
    by_cases hq : q = p
    · subst hq
      rw [if_pos rfl, hb'.slot]
      constructor
      · intro hfound
        refine ⟨.inl rfl, ?_⟩
        split_ifs at hfound with hk
        · rw [hk]
        · exact absurd ((h.index k' q).mp hfound).1 hb'.fresh
      · rintro ⟨-, hk⟩
        obtain rfl := Option.some_inj.mp hk
        rw [if_pos rfl]
    · rw [if_neg hq]
      by_cases hk : k' = k
      · subst hk
        rw [if_pos rfl]
        constructor
        · intro hfound
          exact absurd (Option.some_inj.mp hfound).symm hq
        · rintro ⟨huse, hqk⟩
          exact absurd hqk (hnot q (huse.resolve_left hq))
      · rw [if_neg hk, h.index]
        constructor
        · rintro ⟨huse, hqk⟩
          exact ⟨.inr huse, hqk⟩
        · rintro ⟨huse, hqk⟩
          exact ⟨huse.resolve_left hq, hqk⟩
  · rw [hb'.order]
    split_ifs with hqp
    · rw [hb'.slot]
      exact Option.some_ne_none k
    · exact h.slot q (((hb'.inUse q).mp hq).resolve_left hqp)

/-- **An order is added at an entry that is taken**: the table no longer finds the order that was
there, which rests all the same. -/
theorem lost_of_taken (h : Indexed b) {p q : Ptr} {record : ω} {k : κ}
    (hb' : Entered b p record k b') (htaken : b.orderIndex k = some q) :
    b'.orderPool.InUse q ∧ BookOrder.slot (b'.node q).order = some k ∧ b'.orderIndex k ≠ some q := by
  obtain ⟨huse, hqk⟩ := (h.index k q).mp htaken
  have hqp : q ≠ p := by
    rintro rfl
    exact hb'.fresh huse
  refine ⟨(hb'.inUse q).mpr (.inr huse), ?_, ?_⟩
  · rw [hb'.order, if_neg hqp]
    exact hqk
  · rw [hb'.orderIndex, Function.update_self]
    intro hfound
    exact hqp (Option.some_inj.mp hfound).symm

end Indexed

end Common
