import Mathlib.Tactic.Lemma
import Mathlib.Data.List.Sort
import Mathlib.Data.List.Pairwise
import Mathlib.Logic.Function.Basic

set_option relaxedAutoImplicit false
set_option autoImplicit false

/-!
# Sorting by a key without stability

A sort that compares keys only may put elements with equal keys into any order. `IsSort` is what
such a sort promises: a permutation whose keys do not decrease. The order in a part of the list is
kept by every such sort exactly when the list leaves no choice there.

## Main definitions

* `KeySort.IsSort` — the promise.

## Main results

* `KeySort.filter_eq_of_forced` — what the list forces is kept.
* `KeySort.exists_isSort_swap` — two tied elements can be swapped.
-/

namespace KeySort

variable {α τ : Type*} [LinearOrder τ] (key : α → τ)

/-- The keys do not decrease. -/
def Sorted (l : List α) : Prop := l.Pairwise fun a b => key a ≤ key b

/-- The function sorts by the key. -/
structure IsSort (sort : List α → List α) : Prop where
  perm : ∀ l, (sort l).Perm l
  sorted : ∀ l, Sorted key (sort l)

variable {key}

/-- A sort may return any sorted permutation of one list. -/
lemma IsSort.update [DecidableEq (List α)] {sort : List α → List α} (h : IsSort key sort)
    {l l' : List α} (hperm : l'.Perm l) (hsorted : Sorted key l') :
    IsSort key (Function.update sort l l') where
  perm k := by
    by_cases hk : k = l
    · subst hk
      rwa [Function.update_self]
    · rw [Function.update_of_ne hk]
      exact h.perm k
  sorted k := by
    by_cases hk : k = l
    · subst hk
      rwa [Function.update_self]
    · rw [Function.update_of_ne hk]
      exact h.sorted k

/-- Insertion sort is a sort, also of the reversed list, where it reverses ties. -/
lemma isSort_insertionSort_reverse :
    IsSort key fun l => l.reverse.insertionSort fun a b => key a ≤ key b where
  perm l := (List.perm_insertionSort _ _).trans l.reverse_perm
  sorted l := by
    have : Std.Total fun a b => key a ≤ key b := ⟨fun a b => le_total (key a) (key b)⟩
    have : IsTrans α fun a b => key a ≤ key b := ⟨fun _ _ _ => le_trans⟩
    exact List.pairwise_insertionSort _ _

/-- **What the list forces is kept**: among elements of strictly increasing keys, equal elements
apart, a sorted permutation has no choice. -/
theorem filter_eq_of_forced {p : α → Bool} {l l' : List α} (hperm : l'.Perm l)
    (hsorted : Sorted key l')
    (hforced : (l.filter p).Pairwise fun a b => key a < key b ∨ a = b) :
    l'.filter p = l.filter p := by
  have hsorted' : Sorted key (l.filter p) := hforced.imp fun h => by
    rcases h with h | rfl
    · exact h.le
    · exact le_rfl
  have htie : ∀ a ∈ l.filter p, ∀ b ∈ l.filter p, key a = key b → a = b := by
    have : Std.Symm fun a b : α => key a = key b → a = b := ⟨fun _ _ h heq => (h heq.symm).symm⟩
    intro a ha b hb
    refine List.Pairwise.forall_of_forall (R := fun a b => key a = key b → a = b)
      (fun _ _ _ => rfl) (hforced.imp fun h heq => ?_) ha hb
    rcases h with h | h
    · exact absurd heq h.ne
    · exact h
  refine List.Perm.eq_of_pairwise (fun a b ha hb hab hba => ?_) (hsorted.filter p) hsorted'
    (hperm.filter p)
  exact htie a ((hperm.filter p).mem_iff.mp ha) b hb (le_antisymm hab hba)

/-- The two elements of a sublist split the list. -/
lemma exists_split {a b : α} {l : List α} (h : [a, b].Sublist l) :
    ∃ l₁ l₂ l₃, l = l₁ ++ a :: (l₂ ++ b :: l₃) := by
  obtain ⟨r₁, r₂, rfl, ha, hb⟩ := List.cons_sublist_iff.mp h
  obtain ⟨s₁, t₁, rfl⟩ := List.append_of_mem ha
  obtain ⟨s₂, t₂, rfl⟩ := List.append_of_mem (List.singleton_sublist.mp hb)
  exact ⟨s₁, t₁ ++ s₂, t₂, by simp⟩

/-- Two elements with the same key may change places in a sorted list. -/
lemma Sorted.swap {a b : α} {l₁ l₂ l₃ : List α} (h : Sorted key (l₁ ++ a :: (l₂ ++ b :: l₃)))
    (heq : key a = key b) : Sorted key (l₁ ++ b :: (l₂ ++ a :: l₃)) := by
  have hkeys : (l₁ ++ b :: (l₂ ++ a :: l₃)).map key = (l₁ ++ a :: (l₂ ++ b :: l₃)).map key := by
    simp [heq]
  unfold Sorted at h ⊢
  rw [← List.pairwise_map (R := (· ≤ ·))] at h ⊢
  rwa [hkeys]

/-- The same elements. -/
lemma perm_swap (a b : α) (l₁ l₂ l₃ : List α) :
    (l₁ ++ b :: (l₂ ++ a :: l₃)).Perm (l₁ ++ a :: (l₂ ++ b :: l₃)) := by
  classical
  rw [List.perm_iff_count]
  intro x
  simp only [List.count_append, List.count_cons]
  omega

/-- **Two tied elements can be swapped** by a sort of the same list. -/
theorem exists_isSort_swap {a b : α} {l l₁ l₂ l₃ : List α}
    (hperm : (l₁ ++ a :: (l₂ ++ b :: l₃)).Perm l) (hsorted : Sorted key (l₁ ++ a :: (l₂ ++ b :: l₃)))
    (heq : key a = key b) : ∃ sort, IsSort key sort ∧ sort l = l₁ ++ b :: (l₂ ++ a :: l₃) := by
  classical
  exact ⟨_, isSort_insertionSort_reverse.update
    ((perm_swap a b l₁ l₂ l₃).trans hperm) (hsorted.swap heq), Function.update_self ..⟩

end KeySort
