import HftSystem.Lib.Fallible
import HftSystem.Lib.Ring

set_option relaxedAutoImplicit false
set_option autoImplicit false

/-!
# Loops around circular lists

A loop that starts at a node of a circular list, runs its body there, and goes on along `next` until
that leads back to the start. It runs its body once at every node, and what the body reads through
the links of its node are the neighbours in the list.

## Main definitions

* `CircularList.traverse` — the loop.
* `CircularList.ringed` — the elements of a list, with their neighbours around the circle.

## Main results

* `CircularList.Ring.traverse_eq` — the loop runs over the list.
* `CircularList.Ring.ringed` — the links of a circle are the neighbours.
* `CircularList.ringed_map` — neighbours depend on the places alone.
-/

namespace CircularList

universe u v

variable {ε : Type*} {σ : Type u} {α : Type v} {β : Type*}

/-! ## The loop -/

section Traverse

variable [DecidableEq α] (next : α → Option α) (first : α) (body : σ → α → Except ε σ)
  (lost : σ → Except ε σ) (exhausted : ε)

/-- Run the body at `x` and at the nodes behind it, until `next` leads to `first`. The run ends with
`lost` where there is no next node, and with `exhausted` when the fuel is used up. -/
def traverse : ℕ → σ → α → Except ε σ
  | 0, _, _ => .error exhausted
  | fuel + 1, s, x => do
    let s ← body s x
    if next x = some first then .ok s
    else
      match next x with
      | some y => traverse fuel s y
      | none => lost s

variable {next first body lost exhausted} {prev : α → Option α}

/-- The loop along the rest of a circle. -/
lemma traverse_of_isChain {l : List α} {x : α} {fuel : ℕ} (s : σ)
    (h : (x :: l ++ [first]).IsChain (Linked next prev)) (hfirst : first ∉ l) (hfuel : l.length < fuel) :
    traverse next first body lost exhausted fuel s x = (x :: l).foldlM body s := by
  induction l generalizing x fuel s with
  | nil =>
    obtain ⟨fuel, rfl⟩ : ∃ n, fuel = n + 1 := ⟨fuel - 1, by simp at hfuel; omega⟩
    have hnext : next x = some first := (List.IsChain.rel_head? h rfl).1
    rw [traverse, List.foldlM_cons]
    simp only [hnext, if_true]
    rfl
  | cons y l ih =>
    obtain ⟨fuel, rfl⟩ : ∃ n, fuel = n + 1 := ⟨fuel - 1, by simp at hfuel; omega⟩
    have hnext : next x = some y := (List.IsChain.rel_head? h rfl).1
    have hy : y ≠ first := fun he => hfirst (he ▸ List.mem_cons_self ..)
    have htail : ∀ s, traverse next first body lost exhausted fuel s y = (y :: l).foldlM body s := by
      intro s
      apply ih s h.tail
      · exact fun hmem => hfirst (List.mem_cons_of_mem _ hmem)
      · simp at hfuel
        omega
    rw [traverse, List.foldlM_cons]
    simp only [hnext, Option.some_inj, if_neg hy, htail]

/-- **The loop runs over the list** that a circle is made of. -/
theorem Ring.traverse_eq {l : List α} {fuel : ℕ} (h : Ring next prev (first :: l))
    (hnd : (first :: l).Nodup) (hfuel : l.length < fuel) (s : σ) :
    traverse next first body lost exhausted fuel s first = (first :: l).foldlM body s :=
  traverse_of_isChain s h (List.nodup_cons.mp hnd).1 hfuel

end Traverse

/-! ## Neighbours -/

/-- The elements of a list with those before and behind them, where the list goes on with `first`. -/
def ringedFrom (first : α) : α → List α → List (α × α × α)
  | _, [] => []
  | before, x :: l => (before, x, l.headD first) :: ringedFrom first x l

/-- **The elements of a list with their neighbours** around the circle. -/
def ringed : List α → List (α × α × α)
  | [] => []
  | a :: l => ringedFrom a (l.getLastD a) (a :: l)

/-- The ring of mapped elements. -/
lemma ringedFrom_map (f : α → β) (first before : α) (l : List α) :
    ringedFrom (f first) (f before) (l.map f) =
      (ringedFrom first before l).map (Prod.map f (Prod.map f f)) := by
  induction l generalizing before with
  | nil => rfl
  | cons x l ih =>
    simp only [List.map_cons, ringedFrom, ih]
    cases l <;> rfl

/-- **Neighbours depend on the places alone.** -/
theorem ringed_map (f : α → β) (l : List α) :
    ringed (l.map f) = (ringed l).map (Prod.map f (Prod.map f f)) := by
  cases l with
  | nil => rfl
  | cons a l =>
    have hlast : (l.map f).getLastD (f a) = f (l.getLastD a) := by
      rw [List.getLastD_eq_getLast?, List.getLastD_eq_getLast?, List.getLast?_map]
      cases l.getLast? <;> rfl
    rw [List.map_cons, ringed, hlast, ← List.map_cons, ringedFrom_map, ringed]

/-- The elements of a ring, without their neighbours. -/
lemma map_ringedFrom (first before : α) (l : List α) :
    (ringedFrom first before l).map (fun e => e.2.1) = l := by
  induction l generalizing before with
  | nil => rfl
  | cons x l ih => rw [ringedFrom, List.map_cons, ih]

/-- The elements themselves. -/
@[simp] lemma map_ringed (l : List α) : (ringed l).map (fun e => e.2.1) = l := by
  cases l with
  | nil => rfl
  | cons a l => exact map_ringedFrom ..

/-- An element and its neighbours are of the list or its ends. -/
lemma mem_ringedFrom {first before : α} {l : List α} {e : α × α × α}
    (he : e ∈ ringedFrom first before l) :
    (e.1 = before ∨ e.1 ∈ l) ∧ e.2.1 ∈ l ∧ (e.2.2 = first ∨ e.2.2 ∈ l) := by
  induction l generalizing before with
  | nil => cases he
  | cons x l ih =>
    rcases List.mem_cons.mp he with rfl | he
    · refine ⟨.inl rfl, List.mem_cons_self .., ?_⟩
      cases l with
      | nil => exact .inl rfl
      | cons y l => simp
    · obtain ⟨h₁, h₂, h₃⟩ := ih he
      simp only [List.mem_cons]
      tauto

/-- The neighbours are in the list. -/
lemma mem_of_ringed {l : List α} {e : α × α × α} (he : e ∈ ringed l) :
    e.1 ∈ l ∧ e.2.1 ∈ l ∧ e.2.2 ∈ l := by
  cases l with
  | nil => cases he
  | cons a l =>
    have hlast : l.getLastD a ∈ a :: l := by
      cases l with
      | nil => simp
      | cons y l => simp [List.getLastD_eq_getLast?, List.getLast?_eq_some_getLast, List.getLast_mem]
    obtain ⟨h₁, h₂, h₃⟩ := mem_ringedFrom he
    refine ⟨h₁.elim (fun h => ?_) id, h₂, h₃.elim (fun h => ?_) id⟩
    · rw [h]
      exact hlast
    · rw [h]
      exact List.mem_cons_self ..

section Links

variable {next prev : α → Option α}

/-- An element of a chain is linked to its neighbours. -/
lemma linked_of_ringedFrom {first before : α} {l : List α}
    (h : (before :: l ++ [first]).IsChain (Linked next prev)) {e : α × α × α}
    (he : e ∈ ringedFrom first before l) : prev e.2.1 = some e.1 ∧ next e.2.1 = some e.2.2 := by
  induction l generalizing before with
  | nil => cases he
  | cons x l ih =>
    rcases List.mem_cons.mp he with rfl | he
    · refine ⟨(List.IsChain.rel_head? h rfl).2, ?_⟩
      cases l with
      | nil => exact (List.IsChain.rel_head? h.tail rfl).1
      | cons y l => exact (List.IsChain.rel_head? h.tail rfl).1
    · exact ih h.tail he

/-- **The links of a circle are the neighbours.** -/
theorem Ring.ringed {l : List α} (h : Ring next prev l) {e : α × α × α} (he : e ∈ ringed l) :
    prev e.2.1 = some e.1 ∧ next e.2.1 = some e.2.2 := by
  cases l with
  | nil => cases he
  | cons a l =>
    have hlast : (a :: l).getLast? = some (l.getLastD a) := by
      rw [List.getLast?_cons, List.getLastD_eq_getLast?]
    have hchain : (l.getLastD a :: (a :: l) ++ [a]).IsChain (Linked next prev) :=
      List.isChain_cons_cons.mpr ⟨h.prev_head hlast, h⟩
    exact linked_of_ringedFrom hchain he

end Links

/-- **A loop over a list** is one over its neighbours. -/
lemma foldl_eq_ringed {f : σ → α → σ} {g : σ → α × α × α → σ} {l : List α}
    (h : ∀ e ∈ ringed l, ∀ s, f s e.2.1 = g s e) (s : σ) : l.foldl f s = (ringed l).foldl g s := by
  calc l.foldl f s = ((ringed l).map fun e => e.2.1).foldl f s := by rw [map_ringed]
    _ = (ringed l).foldl (fun s e => f s e.2.1) s := List.foldl_map
    _ = (ringed l).foldl g s := List.foldl_ext _ _ _ fun s e he => h e he s

/-- The same for a loop that may fail. -/
lemma foldlM_eq_ringed (f : σ → α → Except ε σ) (l : List α) (s : σ) :
    l.foldlM f s = (ringed l).foldlM (fun s e => f s e.2.1) s := by
  calc l.foldlM f s = ((ringed l).map fun e => e.2.1).foldlM f s := by rw [map_ringed]
    _ = (ringed l).foldlM (fun s e => f s e.2.1) s := List.foldlM_map ..

end CircularList
