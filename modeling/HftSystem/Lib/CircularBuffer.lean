import Mathlib.Data.List.Basic
import Mathlib.Data.Nat.ModEq
import Mathlib.Tactic.Lemma

set_option relaxedAutoImplicit false
set_option autoImplicit false

/-!
# Circular buffers

A list of slots that is filled around its end: position `i` of the stream of all elements ever stored has
slot `i` modulo the number of slots.

## Main definitions

* `CircularBuffer.Holds` — the slots from a position on hold a list.

## Main results

* `CircularBuffer.slot_eq_iff` — positions less than a round apart have slots of their own.
* `CircularBuffer.Holds.set_next` — storing behind a list that leaves a slot free keeps the list.
* `CircularBuffer.Holds.concat`, `CircularBuffer.Holds.tail` — the list grows and shrinks.
-/

namespace CircularBuffer

variable {α : Type*}

/-- Positions less than a round apart have slots of their own. -/
lemma slot_eq_iff {n start i j : ℕ} (hi : i < n) (hj : j < n) :
    (start + i) % n = (start + j) % n ↔ i = j := by
  refine ⟨fun h => ?_, fun h => by rw [h]⟩
  exact Nat.ModEq.eq_of_lt_of_lt (Nat.ModEq.add_left_cancel' start h) hi hj

/-- The slots from the position `start` on hold the list. -/
def Holds (store : List α) (start : ℕ) (xs : List α) : Prop :=
  ∀ i (hi : i < xs.length), store[(start + i) % store.length]? = some xs[i]

variable {store : List α} {start : ℕ} {xs : List α} {x : α}

/-- Every store holds nothing. -/
@[simp] lemma holds_nil : Holds store start [] := fun _ hi => absurd hi (Nat.not_lt_zero _)

/-- The first element of the list. -/
lemma Holds.head (h : Holds store start (x :: xs)) : store[start % store.length]? = some x :=
  h 0 (Nat.succ_pos _)

/-- The list without its first element. -/
lemma Holds.tail (h : Holds store start (x :: xs)) : Holds store (start + 1) xs := by
  intro i hi
  rw [Nat.add_right_comm]
  exact h (i + 1) (Nat.succ_lt_succ hi)

/-- **The list grows** by what is in the slot behind it. -/
lemma Holds.concat (h : Holds store start xs)
    (hx : store[(start + xs.length) % store.length]? = some x) : Holds store start (xs ++ [x]) := by
  intro i hi
  rcases Nat.lt_or_ge i xs.length with hlt | hge
  · rw [List.getElem_append_left hlt]
    exact h i hlt
  · obtain rfl : i = xs.length := by
      rw [List.length_append, List.length_singleton] at hi
      omega
    rw [List.getElem_concat_length rfl]
    exact hx

/-- **Storing behind a list that leaves a slot free** keeps the list. -/
lemma Holds.set_next (h : Holds store start xs) (hroom : xs.length < store.length) (x : α) :
    Holds (store.set ((start + xs.length) % store.length) x) start xs := by
  intro i hi
  rw [List.length_set, List.getElem?_set_ne]
  · exact h i hi
  · exact fun hslot => hi.ne' ((slot_eq_iff hroom (hi.trans hroom)).mp hslot)

end CircularBuffer
