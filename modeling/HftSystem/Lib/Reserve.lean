import Mathlib.Tactic.Lemma
import Mathlib.Algebra.Order.Group.Abs

set_option relaxedAutoImplicit false
set_option autoImplicit false

/-!
# A value between limits that moves by reserved amounts

A value may move up and down by amounts that are reserved before they are used. What is reserved in
one direction does not count on what is reserved in the other: the value stays within its limit
whichever of the reserved moves are made, and in whatever order.

## Main definitions

* `Reserve.Covered` — the limit holds also after all the reserved moves of one direction.

## Main results

* `Reserve.Covered.reserveUp`, `Reserve.Covered.release`, `Reserve.Covered.moveUp` — the rules, of
  which the first and the last have a counterpart for the other direction.
* `Reserve.Covered.abs_add_sub_le` — the limit after any of the reserved moves.
-/

namespace Reserve

variable {α : Type*} [AddCommGroup α] [LinearOrder α] [IsOrderedAddMonoid α]
  {limit value up down up' down' amount : α}

/-- The value stays within the limit when it moves up by all that is reserved upwards, and when it
moves down by all that is reserved downwards. -/
structure Covered (limit value up down : α) : Prop where
  up_nonneg : 0 ≤ up
  down_nonneg : 0 ≤ down
  le : value + up ≤ limit
  ge : -limit ≤ value - down

/-- The value as seen in a mirror. -/
lemma Covered.mirror (h : Covered limit value up down) : Covered limit (-value) down up where
  up_nonneg := h.down_nonneg
  down_nonneg := h.up_nonneg
  le := by
    have hge := neg_le_neg h.ge
    rwa [neg_neg, neg_sub, sub_eq_neg_add] at hge
  ge := by
    have hle := neg_le_neg h.le
    rwa [neg_add, ← sub_eq_add_neg] at hle

/-- Nothing is reserved. -/
lemma covered_zero (h : 0 ≤ limit) : Covered limit 0 0 0 where
  up_nonneg := le_rfl
  down_nonneg := le_rfl
  le := by rwa [add_zero]
  ge := by rwa [sub_zero, neg_nonpos]

/-- **An amount is reserved upwards** when nothing else is, after a check of the value alone. -/
lemma Covered.reserveUp (h : Covered limit value 0 down) (hamount : 0 ≤ amount)
    (hcheck : |value + amount| ≤ limit) : Covered limit value amount down where
  up_nonneg := hamount
  down_nonneg := h.down_nonneg
  le := (abs_le.mp hcheck).2
  ge := h.ge

/-- **An amount is reserved downwards.** -/
lemma Covered.reserveDown (h : Covered limit value up 0) (hamount : 0 ≤ amount)
    (hcheck : |value - amount| ≤ limit) : Covered limit value up amount := by
  have hmirror : Covered limit (-value) amount up := by
    refine h.mirror.reserveUp hamount ?_
    rwa [← abs_neg, neg_add, neg_neg, ← sub_eq_add_neg]
  simpa only [neg_neg] using hmirror.mirror

/-- **Reserved amounts are given up.** -/
lemma Covered.release (h : Covered limit value up down) (hup : up' ≤ up) (hup' : 0 ≤ up')
    (hdown : down' ≤ down) (hdown' : 0 ≤ down') : Covered limit value up' down' where
  up_nonneg := hup'
  down_nonneg := hdown'
  le := (add_le_add_right hup value).trans h.le
  ge := h.ge.trans (sub_le_sub_left hdown value)

/-- **The value moves up** by an amount that was reserved. -/
lemma Covered.moveUp (h : Covered limit value (amount + up) down) (hamount : 0 ≤ amount)
    (hup : 0 ≤ up) : Covered limit (value + amount) up down where
  up_nonneg := hup
  down_nonneg := h.down_nonneg
  le := by
    rw [add_assoc]
    exact h.le
  ge := h.ge.trans (sub_le_sub_right (le_add_of_nonneg_right hamount) down)

/-- **The value moves down** by an amount that was reserved. -/
lemma Covered.moveDown (h : Covered limit value up (amount + down)) (hamount : 0 ≤ amount)
    (hdown : 0 ≤ down) : Covered limit (value - amount) up down := by
  have hmirror := (h.mirror.moveUp hamount hdown).mirror
  rwa [neg_add, neg_neg, ← sub_eq_add_neg] at hmirror

/-- **The limit holds after any of the reserved moves.** -/
lemma Covered.abs_add_sub_le (h : Covered limit value up down) (hup : up' ≤ up) (hup' : 0 ≤ up')
    (hdown : down' ≤ down) (hdown' : 0 ≤ down') : |value + up' - down'| ≤ limit := by
  have hreleased := h.release hup hup' hdown hdown'
  refine abs_le.mpr ⟨?_, ?_⟩
  · exact hreleased.ge.trans (sub_le_sub_right (le_add_of_nonneg_right hup') down')
  · exact (sub_le_self _ hdown').trans hreleased.le

/-- The value itself is within the limit. -/
lemma Covered.abs_le (h : Covered limit value up down) : |value| ≤ limit := by
  have hnone := h.abs_add_sub_le h.up_nonneg le_rfl h.down_nonneg le_rfl
  rwa [add_zero, sub_zero] at hnone

end Reserve
