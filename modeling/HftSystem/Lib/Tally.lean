import Mathlib.Algebra.BigOperators.Pi
import Mathlib.Algebra.Order.BigOperators.Group.List

set_option relaxedAutoImplicit false
set_option autoImplicit false

/-!
# Sums by key

A list of entries, each of which counts for a key with an amount. `Tally.tally` is the sum of the
amounts of every key, as a function of the key, so that a law about all keys is one equation of
functions.

## Main definitions

* `Tally.tally` — the sums by key.

## Main results

* `Tally.tally_append`, `Tally.tally_perm` — how the sums compose.
* `Tally.tally_nonneg` — sums of what is not negative.
* `Tally.sum_tally` — the sums of all keys add up to the sum of all amounts.
-/

namespace Tally

section Tally

variable {α κ M : Type*} [DecidableEq κ] [AddCommMonoid M] (key : α → κ) (amount : α → M)

/-- **The sum of the amounts of each key.** -/
def tally (l : List α) : κ → M := (l.map fun a => Pi.single (key a) (amount a)).sum

/-- Nothing counts nothing. -/
@[simp] lemma tally_nil : tally key amount [] = 0 := rfl

/-- The first entry counts for its key. -/
lemma tally_cons (a : α) (l : List α) :
    tally key amount (a :: l) = Pi.single (key a) (amount a) + tally key amount l := by
  rw [tally, List.map_cons, List.sum_cons]
  rfl

/-- Two lists count together. -/
lemma tally_append (l l' : List α) :
    tally key amount (l ++ l') = tally key amount l + tally key amount l' := by
  rw [tally, List.map_append, List.sum_append]
  rfl

/-- A single entry counts for its key only. -/
lemma tally_singleton (a : α) : tally key amount [a] = Pi.single (key a) (amount a) := by
  rw [tally_cons, tally_nil, add_zero]

/-- The order of the entries does not matter. -/
lemma tally_perm {l l' : List α} (h : l.Perm l') : tally key amount l = tally key amount l' :=
  (h.map _).sum_eq

/-- Entries without an amount do not count. -/
lemma tally_eq_zero {l : List α} (h : ∀ a ∈ l, amount a = 0) : tally key amount l = 0 := by
  induction l with
  | nil => rfl
  | cons a l ih =>
    rw [tally_cons, h a List.mem_cons_self, Pi.single_zero, zero_add]
    exact ih fun b hb => h b (List.mem_cons_of_mem _ hb)

/-- The sum of one key. -/
lemma tally_apply (l : List α) (k : κ) :
    tally key amount l k = ((l.filter fun a => key a = k).map amount).sum := by
  induction l with
  | nil => rfl
  | cons a l ih =>
    rw [tally_cons, Pi.add_apply, ih]
    by_cases hk : key a = k
    · rw [List.filter_cons_of_pos (by simpa using hk), List.map_cons, List.sum_cons, ← hk,
        Pi.single_eq_same]
    · rw [List.filter_cons_of_neg (by simpa using hk), Pi.single_eq_of_ne (Ne.symm hk), zero_add]

/-- A key that no entry counts for. -/
lemma tally_of_ne {l : List α} {k : κ} (h : ∀ a ∈ l, key a ≠ k) : tally key amount l k = 0 := by
  have hnone : (l.filter fun a => key a = k) = [] := by
    simpa [List.filter_eq_nil_iff] using h
  rw [tally_apply, hnone, List.map_nil, List.sum_nil]

/-- **The sums of all keys** add up to the sum of all amounts. -/
lemma sum_tally {l : List α} {s : Finset κ} (h : ∀ a ∈ l, key a ∈ s) :
    ∑ k ∈ s, tally key amount l k = (l.map amount).sum := by
  induction l with
  | nil => exact Finset.sum_const_zero
  | cons a l ih =>
    have hrest := ih fun b hb => h b (List.mem_cons_of_mem _ hb)
    have hone : ∑ k ∈ s, (Pi.single (key a) (amount a) : κ → M) k = amount a := by
      rw [Finset.sum_pi_single']
      exact if_pos (h a List.mem_cons_self)
    simp only [tally_cons, Pi.add_apply, Finset.sum_add_distrib]
    rw [hone, hrest, List.map_cons, List.sum_cons]

end Tally

/-- **Amounts that are not negative** have sums that are not negative. -/
lemma tally_nonneg {α κ M : Type*} [DecidableEq κ] [AddCommMonoid M] [PartialOrder M]
    [IsOrderedAddMonoid M] (key : α → κ) {amount : α → M} {l : List α} (h : ∀ a ∈ l, 0 ≤ amount a)
    (k : κ) : 0 ≤ tally key amount l k := by
  rw [tally_apply]
  refine List.sum_nonneg fun x hx => ?_
  obtain ⟨a, ha, rfl⟩ := List.mem_map.mp hx
  exact h a (List.mem_of_mem_filter ha)

end Tally
