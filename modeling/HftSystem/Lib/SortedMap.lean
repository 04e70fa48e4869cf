import Mathlib.Data.List.Nodup
import Mathlib.Order.Lattice
import Mathlib.Tactic.SplitIfs
import Mathlib.Tactic.Lemma

set_option relaxedAutoImplicit false
set_option autoImplicit false

/-!
# Sorted maps

Finite maps from a linear order, as lists of entries in strictly increasing order of their keys.
An array of nullable pointers that is read from front to back is such a map, and so is a
balanced search tree.

## Main definitions

* `SortedMap` with `find?`, `insert`, `erase`, `mapValues` and `values`.

## Main results

* `SortedMap.find?_eq_some`, `SortedMap.find?_insert`, `SortedMap.find?_erase` — lookup.
* `SortedMap.entries_insert_of_lt`, `SortedMap.entries_insert_of_mem` — an insertion appends an
  entry or changes one in place.
-/

universe u v w

/-- No entries. -/
lemma SortedMap.sorted_nil {κ : Type u} [LinearOrder κ] {α : Type v} :
    ([] : List (κ × α)).Pairwise fun x y => x.1 < y.1 := List.Pairwise.nil

/-- A finite map whose entries are in strictly increasing order of their keys. -/
@[ext] structure SortedMap (κ : Type u) [LinearOrder κ] (α : Type v) where
  entries : List (κ × α) := []
  sorted : entries.Pairwise fun x y => x.1 < y.1 := by exact SortedMap.sorted_nil

namespace SortedMap

variable {κ : Type u} [LinearOrder κ] {α : Type v} {β : Type w}

/-- Maps are equal if their entries are. -/
instance [DecidableEq α] : DecidableEq (SortedMap κ α) := fun _ _ =>
  decidable_of_iff _ SortedMap.ext_iff.symm

/-- The value of a key. -/
def find? (m : SortedMap κ α) (k : κ) : Option α := m.entries.lookup k

/-- The values in the order of their keys. -/
def values (m : SortedMap κ α) : List α := m.entries.map Prod.snd

/-- Insertion into the list of entries: an entry of the same key is replaced. -/
def insertEntry (k : κ) (a : α) : List (κ × α) → List (κ × α)
  | [] => [(k, a)]
  | (j, b) :: es =>
    if k < j then (k, a) :: (j, b) :: es
    else if k = j then (k, a) :: es
    else (j, b) :: insertEntry k a es

/-- The entries after an insertion. -/
lemma mem_insertEntry {k : κ} {a : α} {es : List (κ × α)} {e : κ × α}
    (h : e ∈ insertEntry k a es) : e = (k, a) ∨ e ∈ es := by
  induction es with
  | nil => exact .inl (List.mem_singleton.mp h)
  | cons d es ih =>
    obtain ⟨j, b⟩ := d
    rw [insertEntry] at h
    split_ifs at h
    · exact List.mem_cons.mp h
    · rcases List.mem_cons.mp h with h | h
      · exact .inl h
      · exact .inr (List.mem_cons_of_mem _ h)
    · rcases List.mem_cons.mp h with rfl | h
      · exact .inr (List.mem_cons_self ..)
      · exact (ih h).imp_right (List.mem_cons_of_mem _)

/-- An insertion keeps the entries in order. -/
lemma sorted_insertEntry (k : κ) (a : α) {es : List (κ × α)}
    (h : es.Pairwise fun x y => x.1 < y.1) :
    (insertEntry k a es).Pairwise fun x y => x.1 < y.1 := by
  induction es with
  | nil => exact List.pairwise_singleton _ _
  | cons d es ih =>
    obtain ⟨j, b⟩ := d
    obtain ⟨hhead, htail⟩ := List.pairwise_cons.mp h
    rw [insertEntry]
    split_ifs with hlt heq
    · refine List.pairwise_cons.mpr ⟨fun e he => ?_, h⟩
      rcases List.mem_cons.mp he with rfl | he
      · exact hlt
      · exact lt_trans hlt (hhead e he)
    · exact List.pairwise_cons.mpr ⟨fun e he => heq ▸ hhead e he, htail⟩
    · refine List.pairwise_cons.mpr ⟨fun e he => ?_, ih htail⟩
      rcases mem_insertEntry he with rfl | he
      · exact lt_of_le_of_ne (not_lt.mp hlt) (Ne.symm heq)
      · exact hhead e he

/-- Set the value of a key. -/
def insert (m : SortedMap κ α) (k : κ) (a : α) : SortedMap κ α :=
  ⟨insertEntry k a m.entries, sorted_insertEntry k a m.sorted⟩

/-- Remove a key. -/
def erase (m : SortedMap κ α) (k : κ) : SortedMap κ α :=
  ⟨m.entries.filter fun e => e.1 ≠ k, m.sorted.filter _⟩

/-- Apply a function to every value. -/
def mapValues (f : α → β) (m : SortedMap κ α) : SortedMap κ β :=
  ⟨m.entries.map fun e => (e.1, f e.2), m.sorted.map _ fun _ _ h => h⟩

/-- The mapped values. -/
@[simp] lemma values_mapValues (f : α → β) (m : SortedMap κ α) :
    (m.mapValues f).values = m.values.map f := by
  simp [values, mapValues]

/-- The entries that an erasure leaves. -/
@[simp] lemma entries_erase (m : SortedMap κ α) (k : κ) :
    (m.erase k).entries = m.entries.filter fun e => e.1 ≠ k := rfl

/-! ## Lookup -/

/-- A key occurs once among the entries. -/
lemma eq_of_mem {m : SortedMap κ α} {k : κ} {a b : α} (ha : (k, a) ∈ m.entries)
    (hb : (k, b) ∈ m.entries) : a = b := by
  have hnd : (m.entries.map Prod.fst).Nodup :=
    List.pairwise_map.mpr (m.sorted.imp fun h => ne_of_lt h)
  exact congrArg Prod.snd (List.inj_on_of_nodup_map hnd ha hb rfl)

/-- **Lookup finds the entries.** -/
lemma find?_eq_some {m : SortedMap κ α} {k : κ} {a : α} :
    m.find? k = some a ↔ (k, a) ∈ m.entries := by
  have hsome : ∀ (es : List (κ × α)) (b : α), es.lookup k = some b → (k, b) ∈ es := by
    intro es b h
    induction es with
    | nil => cases h
    | cons e es ih =>
      by_cases he : k = e.1
      · rw [List.lookup_cons, beq_iff_eq.mpr he] at h
        cases h
        exact he ▸ List.mem_cons_self ..
      · rw [List.lookup_cons, beq_eq_false_iff_ne.mpr he] at h
        exact List.mem_cons_of_mem _ (ih h)
  refine ⟨hsome _ a, fun h => ?_⟩
  cases hfind : m.find? k with
  | some b => rw [eq_of_mem h (hsome _ b hfind)]
  | none =>
    have hne := List.lookup_eq_none_iff.mp hfind _ h
    simp at hne

/-- A key without an entry. -/
lemma find?_eq_none {m : SortedMap κ α} {k : κ} :
    m.find? k = none ↔ ∀ e ∈ m.entries, e.1 ≠ k := by
  rw [Option.eq_none_iff_forall_ne_some]
  refine ⟨fun h e he hk => h e.2 (find?_eq_some.mpr (hk ▸ he)), fun h a ha => ?_⟩
  exact h _ (find?_eq_some.mp ha) rfl

/-- What was inserted is there. -/
lemma mem_insert_self (m : SortedMap κ α) (k : κ) (a : α) : (k, a) ∈ (m.insert k a).entries := by
  change (k, a) ∈ insertEntry k a m.entries
  induction m.entries with
  | nil => exact List.mem_singleton.mpr rfl
  | cons d es ih =>
    simp only [insertEntry]
    split_ifs
    · exact List.mem_cons_self ..
    · exact List.mem_cons_self ..
    · exact List.mem_cons_of_mem _ ih

/-- An insertion leaves the other keys alone. -/
lemma mem_insert_of_ne {m : SortedMap κ α} {k : κ} {a : α} {e : κ × α} (hne : e.1 ≠ k) :
    e ∈ (m.insert k a).entries ↔ e ∈ m.entries := by
  have hne' : e ≠ (k, a) := fun he => hne (congrArg Prod.fst he)
  refine ⟨fun h => (mem_insertEntry h).resolve_left hne', fun h => ?_⟩
  change e ∈ insertEntry k a m.entries
  generalize m.entries = es at h
  induction es with
  | nil => cases h
  | cons d es ih =>
    simp only [insertEntry]
    split_ifs with hlt heq
    · exact List.mem_cons_of_mem _ h
    · rcases List.mem_cons.mp h with rfl | h
      · exact absurd heq.symm hne
      · exact List.mem_cons_of_mem _ h
    · rcases List.mem_cons.mp h with rfl | h
      · exact List.mem_cons_self ..
      · exact List.mem_cons_of_mem _ (ih h)

/-! ## Edits -/

/-- **Inserting the largest key appends an entry.** -/
lemma entries_insert_of_lt {m : SortedMap κ α} {k : κ} (h : ∀ e ∈ m.entries, e.1 < k) (a : α) :
    (m.insert k a).entries = m.entries ++ [(k, a)] := by
  change insertEntry k a m.entries = _
  generalize m.entries = es at h
  induction es with
  | nil => rfl
  | cons d es ih =>
    have hd := h d (List.mem_cons_self ..)
    simp only [insertEntry, if_neg (not_lt.mpr hd.le), if_neg (ne_of_gt hd), List.cons_append]
    rw [ih fun e he => h e (List.mem_cons_of_mem _ he)]

/-- **Setting the value of a key that has one changes the entry in place.** -/
lemma entries_insert_of_mem {m : SortedMap κ α} {k : κ} {b : α} (h : (k, b) ∈ m.entries) (a : α) :
    (m.insert k a).entries = m.entries.map fun e => if e.1 = k then (k, a) else e := by
  have hsorted := m.sorted
  change insertEntry k a m.entries = _
  generalize m.entries = es at h hsorted
  induction es with
  | nil => cases h
  | cons d es ih =>
    obtain ⟨j, c⟩ := d
    obtain ⟨hhead, htail⟩ := List.pairwise_cons.mp hsorted
    have hge : ¬ k < j := by
      rcases List.mem_cons.mp h with he | h
      · rw [(Prod.mk.inj he).1]
        exact lt_irrefl _
      · exact (hhead _ h).not_gt
    by_cases hk : k = j
    · subst hk
      have hrest : (es.map fun e => if e.1 = k then (k, a) else e) = es := by
        conv_rhs => rw [← List.map_id es]
        exact List.map_congr_left fun e he => if_neg (hhead e he).ne'
      simp [insertEntry, hrest]
    · have hmem : (k, b) ∈ es := (List.mem_cons.mp h).resolve_left fun he => hk (Prod.mk.inj he).1
      simp only [insertEntry, if_neg hge, if_neg hk, List.map_cons, if_neg (Ne.symm hk)]
      rw [ih hmem htail]

/-- Applying a function to the values commutes with an insertion. -/
lemma mapValues_insert (f : α → β) (m : SortedMap κ α) (k : κ) (a : α) :
    (m.insert k a).mapValues f = (m.mapValues f).insert k (f a) := by
  refine SortedMap.ext ?_
  simp only [mapValues, insert]
  induction m.entries with
  | nil => rfl
  | cons d es ih =>
    simp only [insertEntry, List.map_cons]
    split_ifs
    · rfl
    · rfl
    · rw [List.map_cons, ih]

/-- Applying a function to the values commutes with removing a key. -/
lemma mapValues_erase (f : α → β) (m : SortedMap κ α) (k : κ) :
    (m.erase k).mapValues f = (m.mapValues f).erase k := by
  refine SortedMap.ext ?_
  simp only [mapValues, erase, List.filter_map]
  rfl

/-- Functions that agree on the values. -/
lemma mapValues_congr {f g : α → β} {m : SortedMap κ α} (h : ∀ e ∈ m.entries, f e.2 = g e.2) :
    m.mapValues f = m.mapValues g := by
  refine SortedMap.ext (List.map_congr_left fun e he => ?_)
  rw [h e he]

end SortedMap
