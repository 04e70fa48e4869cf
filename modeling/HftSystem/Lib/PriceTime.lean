import Mathlib.Data.List.Basic
import Mathlib.Data.List.Induction
import Mathlib.Algebra.BigOperators.Group.List.Basic
import Mathlib.Algebra.Order.Ring.Nat
import Mathlib.Tactic.Lemma
import Mathlib.Tactic.SplitIfs
import Mathlib.Tactic.Tauto

set_option relaxedAutoImplicit false
set_option autoImplicit false

/-!
# Price-time priority

The reference semantics of one side of an order book. A side is a list of levels, best price
first, and a level is a price with the queue of its orders, first in first out. An incoming
quantity sweeps the side from the front; an order is inserted behind those of its price; orders
are dropped and changed in place.

## Main definitions

* `PriceTime.sweep` — the reference matcher, with the list of its fills.
* `PriceTime.insertOrder` — where an order rests.
* `PriceTime.keepOrders`, `PriceTime.mapOrders` — dropping orders, and changing them in place.
* `PriceTime.build` — the side that a list of insertions makes.

## Main results

* `PriceTime.sweep_cons` — the sweep, one order at a time.
* `PriceTime.sweep_outcome` — what a sweep executes and where it stops.
* `PriceTime.keepOrders_insertOrder_keep` — dropping orders commutes with an insertion.
* `PriceTime.keepOrders_build`, `PriceTime.mapOrders_build` — dropping and changing orders
  commutes with building a side.
-/

namespace PriceTime

universe u v w

variable {π : Type u} {ρ : Type v} {τ : Type w}

/-- The orders of a side, best price first and first in first out within a price. -/
def listed (ls : List (π × List ρ)) : List ρ := ls.flatMap Prod.snd

/-- An empty book lists no order. -/
@[simp] lemma listed_nil : listed ([] : List (π × List ρ)) = [] := rfl

/-- The orders of the first level come first. -/
@[simp] lemma listed_cons (l : π × List ρ) (ls : List (π × List ρ)) :
    listed (l :: ls) = l.2 ++ listed ls := List.flatMap_cons

/-! ## The sweep -/

/-- One execution: the resting order before it, the quantity executed, and what is left of the
incoming quantity after it. -/
structure Fill (ρ : Type v) where
  order : ρ
  qty : ℕ
  leaves : ℕ

/-- The result of a sweep: the executions in order, the quantity left and what is left of the
orders. -/
structure Swept (ρ : Type v) (α : Type w) where
  fills : List (Fill ρ)
  leaves : ℕ
  rest : α

/-- What an execution leaves of the resting order. -/
def Fill.leftOver (qty : ρ → ℕ) (setQty : ρ → ℕ → ρ) (f : Fill ρ) : Option ρ :=
  if f.qty < qty f.order then some (setQty f.order (qty f.order - f.qty)) else none

/-- A level in front of others, unless its queue is empty. -/
def consLevel (p : π) : List ρ → List (π × List ρ) → List (π × List ρ)
  | [], ls => ls
  | x :: xs, ls => (p, x :: xs) :: ls

/-- A level without orders, which `consLevel` leaves away, lists none. -/
@[simp] lemma listed_consLevel (p : π) (xs : List ρ) (ls : List (π × List ρ)) :
    listed (consLevel p xs ls) = xs ++ listed ls := by
  cases xs <;> simp [consLevel]

section Sweep

variable (qty : ρ → ℕ) (setQty : ρ → ℕ → ρ) (crosses : π → Bool)

/-- Sweep the queue of one level. -/
def sweepQueue (leaves : ℕ) : List ρ → Swept ρ (List ρ)
  | [] => ⟨[], leaves, []⟩
  | x :: xs =>
    if leaves = 0 then ⟨[], 0, x :: xs⟩
    else if leaves < qty x then ⟨[⟨x, leaves, 0⟩], 0, setQty x (qty x - leaves) :: xs⟩
    else
      let r := sweepQueue (leaves - qty x) xs
      ⟨⟨x, qty x, leaves - qty x⟩ :: r.fills, r.leaves, r.rest⟩

/-- **The reference matcher**: sweep the levels whose price crosses, best first, until the
quantity is used up. -/
def sweep (leaves : ℕ) : List (π × List ρ) → Swept ρ (List (π × List ρ))
  | [] => ⟨[], leaves, []⟩
  | (p, xs) :: ls =>
    if leaves = 0 ∨ crosses p = false then ⟨[], leaves, (p, xs) :: ls⟩
    else
      let r := sweepQueue qty setQty leaves xs
      if r.rest = [] then
        let r' := sweep r.leaves ls
        ⟨r.fills ++ r'.fills, r'.leaves, r'.rest⟩
      else ⟨r.fills, r.leaves, (p, r.rest) :: ls⟩

variable {qty setQty crosses}

/-- No quantity executes against nothing. -/
@[simp] lemma sweep_zero (ls : List (π × List ρ)) :
    sweep qty setQty crosses 0 ls = ⟨[], 0, ls⟩ := by
  cases ls <;> simp [sweep]

/-- A sweep stops in front of a level that does not cross. -/
lemma sweep_of_not_crosses {leaves : ℕ} {p : π} {xs : List ρ} {ls : List (π × List ρ)}
    (h : crosses p = false) :
    sweep qty setQty crosses leaves ((p, xs) :: ls) = ⟨[], leaves, (p, xs) :: ls⟩ := by
  simp [sweep, h]

/-- The levels after one execution against the first order. -/
def afterFill (qty : ρ → ℕ) (setQty : ρ → ℕ → ρ) (leaves : ℕ) (p : π) (x : ρ) (xs : List ρ)
    (ls : List (π × List ρ)) : List (π × List ρ) :=
  if qty x ≤ leaves then consLevel p xs ls else (p, setQty x (qty x - leaves) :: xs) :: ls

/-- **The sweep, one order at a time.**

**Proof sketch.** If the quantity ends within the first order, this order is changed and the sweep
stops. Otherwise the first order is used up, and the sweep of the rest starts with the remaining orders
of the level, or with the next level if there are none or nothing is left. -/
lemma sweep_cons {leaves : ℕ} {p : π} {x : ρ} {xs : List ρ} {ls : List (π × List ρ)}
    (hpos : 0 < leaves) (hc : crosses p = true) :
    sweep qty setQty crosses leaves ((p, x :: xs) :: ls) =
      ⟨⟨x, min leaves (qty x), leaves - qty x⟩ ::
          (sweep qty setQty crosses (leaves - qty x) (afterFill qty setQty leaves p x xs ls)).fills,
        (sweep qty setQty crosses (leaves - qty x) (afterFill qty setQty leaves p x xs ls)).leaves,
        (sweep qty setQty crosses (leaves - qty x) (afterFill qty setQty leaves p x xs ls)).rest⟩ := by
  have hne : ¬ (leaves = 0 ∨ crosses p = false) := by
    rw [hc]
    simp
    omega
  by_cases hlt : leaves < qty x
  · have hle : ¬ qty x ≤ leaves := by omega
    have hzero : leaves - qty x = 0 := by omega
    have hmin : min leaves (qty x) = leaves := by omega
    have hq : sweepQueue qty setQty leaves (x :: xs) =
        ⟨[⟨x, leaves, 0⟩], 0, setQty x (qty x - leaves) :: xs⟩ := by
      rw [sweepQueue, if_neg (by omega), if_pos hlt]
    rw [sweep, if_neg hne]
    simp [hq, hzero, hmin, afterFill, hle]
  · have hle : qty x ≤ leaves := by omega
    have hmin : min leaves (qty x) = qty x := by omega
    have hq : sweepQueue qty setQty leaves (x :: xs) =
        ⟨⟨x, qty x, leaves - qty x⟩ :: (sweepQueue qty setQty (leaves - qty x) xs).fills,
          (sweepQueue qty setQty (leaves - qty x) xs).leaves,
          (sweepQueue qty setQty (leaves - qty x) xs).rest⟩ := by
      rw [sweepQueue, if_neg (by omega), if_neg hlt]
    rw [sweep, if_neg hne, hq, hmin, afterFill, if_pos hle]
    cases xs with
    | nil => simp [sweepQueue, consLevel]
    | cons y ys =>
      by_cases hzero : leaves - qty x = 0
      · simp [hzero, sweepQueue, consLevel]
      · have hne' : ¬ (leaves - qty x = 0 ∨ crosses p = false) := by simp [hzero, hc]
        rw [consLevel, sweep, if_neg hne']
        by_cases hr : (sweepQueue qty setQty (leaves - qty x) (y :: ys)).rest = [] <;> simp [hr]

/-- What a sweep does, in terms of the list of orders.

* The executed orders are a prefix of the list, and only the last one can be left with a
  quantity; behind it the list is unchanged.
* The quantities add up, every execution is at a price that crosses, and the sweep stops only
  for a reason. -/
structure Outcome (qty : ρ → ℕ) (setQty : ρ → ℕ → ρ) (crosses : π → Bool) (leaves : ℕ)
    (ls : List (π × List ρ)) (r : Swept ρ (List (π × List ρ))) : Prop where
  listed : ∃ tail, listed ls = r.fills.map Fill.order ++ tail ∧
    listed r.rest = r.fills.filterMap (Fill.leftOver qty setQty) ++ tail
  levels : r.rest = [] ∨ ∃ pre p xs ys post, ls = pre ++ (p, xs) :: post ∧ r.rest = (p, ys) :: post
  complete : ∀ f ∈ r.fills.dropLast, f.qty = qty f.order
  bounds : ∀ f ∈ r.fills, 0 < f.qty ∧ f.qty ≤ qty f.order
  crossed : ∀ f ∈ r.fills, ∃ l ∈ ls, f.order ∈ l.2 ∧ crosses l.1 = true
  sum : (r.fills.map Fill.qty).sum + r.leaves = leaves
  stop : r.leaves = 0 ∨ ∀ l ∈ r.rest.head?, crosses l.1 = false

/-- A sweep that executes nothing. -/
lemma outcome_nil {leaves : ℕ} {ls : List (π × List ρ)}
    (hstop : leaves = 0 ∨ ∀ l ∈ ls.head?, crosses l.1 = false) :
    Outcome qty setQty crosses leaves ls ⟨[], leaves, ls⟩ where
  listed := ⟨PriceTime.listed ls, by simp, by simp⟩
  levels := by
    cases ls with
    | nil => exact .inl rfl
    | cons l ls => exact .inr ⟨[], l.1, l.2, l.2, ls, rfl, rfl⟩
  complete := by simp
  bounds := by simp
  crossed := by simp
  sum := by simp
  stop := hstop

/-- The levels of `consLevel`. -/
lemma mem_consLevel {p : π} {xs : List ρ} {ls : List (π × List ρ)} {l : π × List ρ}
    (h : l ∈ consLevel p xs ls) : l ∈ ls ∨ l = (p, xs) ∧ xs ≠ [] := by
  cases xs with
  | nil => exact .inl h
  | cons y ys =>
    rcases List.mem_cons.mp h with rfl | h
    · exact .inr ⟨rfl, by simp⟩
    · exact .inl h

/-- A first order filled completely, followed by a sweep of the others.

**Proof sketch.** Field by field: the new execution stands in front of those of the sweep of the rest.
Where the level has no other order, `consLevel` has left it away, so the level at which the sweep of
the rest stops is one behind it. -/
lemma Outcome.fill_all {leaves : ℕ} {p : π} {x : ρ} {xs : List ρ} {ls : List (π × List ρ)}
    {r : Swept ρ (List (π × List ρ))} (hx : 0 < qty x) (hle : qty x ≤ leaves)
    (hc : crosses p = true)
    (h : Outcome qty setQty crosses (leaves - qty x) (consLevel p xs ls) r) :
    Outcome qty setQty crosses leaves ((p, x :: xs) :: ls)
      ⟨⟨x, qty x, leaves - qty x⟩ :: r.fills, r.leaves, r.rest⟩ where
  listed := by
    obtain ⟨tail, htail, hrest⟩ := h.listed
    refine ⟨tail, ?_, ?_⟩
    · rw [listed_consLevel] at htail
      simp [htail]
    · simp [Fill.leftOver, hrest]
  levels := by
    rcases h.levels with hnil | ⟨pre, q, ys, zs, post, hls, hrest⟩
    · exact .inl hnil
    · refine .inr ?_
      cases xs with
      | nil => exact ⟨(p, [x]) :: pre, q, ys, zs, post, by simpa [consLevel] using hls, hrest⟩
      | cons y xs =>
        cases pre with
        | nil =>
          obtain ⟨hl, rfl⟩ := List.cons.inj hls
          obtain ⟨rfl, -⟩ := Prod.mk.inj hl
          exact ⟨[], p, x :: y :: xs, zs, ls, rfl, hrest⟩
        | cons l pre =>
          obtain ⟨-, rfl⟩ := List.cons.inj hls
          exact ⟨(p, x :: y :: xs) :: pre, q, ys, zs, post, rfl, hrest⟩
  complete f hf := by
    cases hfills : r.fills with
    | nil => simp [hfills] at hf
    | cons g gs =>
      rw [hfills, List.dropLast_cons_of_ne_nil (by simp), ← hfills] at hf
      rcases List.mem_cons.mp hf with rfl | hf
      · rfl
      · exact h.complete f hf
  bounds f hf := by
    rcases List.mem_cons.mp hf with rfl | hf
    · exact ⟨hx, Nat.le_refl _⟩
    · exact h.bounds f hf
  crossed f hf := by
    rcases List.mem_cons.mp hf with rfl | hf
    · exact ⟨(p, x :: xs), List.mem_cons_self .., List.mem_cons_self .., hc⟩
    · obtain ⟨l, hl, hfl, hcl⟩ := h.crossed f hf
      rcases mem_consLevel hl with hl | ⟨rfl, -⟩
      · exact ⟨l, List.mem_cons_of_mem _ hl, hfl, hcl⟩
      · exact ⟨(p, x :: xs), List.mem_cons_self .., List.mem_cons_of_mem _ hfl, hcl⟩
  sum := by
    have := h.sum
    simp only [List.map_cons, List.sum_cons]
    omega
  stop := h.stop

/-- A first order filled in part uses the quantity up. -/
lemma outcome_fill_part {leaves : ℕ} {p : π} {x : ρ} {xs : List ρ} {ls : List (π × List ρ)}
    (hpos : 0 < leaves) (hlt : leaves < qty x) (hc : crosses p = true) :
    Outcome qty setQty crosses leaves ((p, x :: xs) :: ls)
      ⟨[⟨x, leaves, 0⟩], 0, (p, setQty x (qty x - leaves) :: xs) :: ls⟩ where
  listed := ⟨xs ++ PriceTime.listed ls, by simp, by simp [Fill.leftOver, hlt]⟩
  levels := .inr ⟨[], p, x :: xs, _, ls, rfl, rfl⟩
  complete := by simp
  bounds f hf := by
    obtain rfl := List.mem_singleton.mp hf
    exact ⟨hpos, Nat.le_of_lt hlt⟩
  crossed f hf := by
    obtain rfl := List.mem_singleton.mp hf
    exact ⟨(p, x :: xs), List.mem_cons_self .., List.mem_cons_self .., hc⟩
  sum := by simp
  stop := .inl rfl

/-- **What a sweep does.**

**Proof sketch.** Induction on the number of orders. One execution either uses the quantity
up, and the sweep ends, or removes the first order, and the rest of the sweep is the sweep of
fewer orders. -/
theorem sweep_outcome {leaves : ℕ} {ls : List (π × List ρ)} (hne : ∀ l ∈ ls, l.2 ≠ [])
    (hpos : ∀ x ∈ listed ls, 0 < qty x) :
    Outcome qty setQty crosses leaves ls (sweep qty setQty crosses leaves ls) := by
  induction hn : (listed ls).length using Nat.strongRecOn generalizing leaves ls with
  | _ n ih =>
  by_cases hzero : leaves = 0
  · rw [hzero, sweep_zero]
    exact outcome_nil (.inl rfl)
  rcases ls with _ | ⟨⟨p, _ | ⟨x, xs⟩⟩, ls⟩
  · rw [sweep]
    exact outcome_nil (.inr (by simp))
  · exact absurd rfl (hne (p, []) (List.mem_cons_self ..))
  cases hc : crosses p with
  | false =>
    rw [sweep_of_not_crosses hc]
    exact outcome_nil (.inr (by simp [hc]))
  | true =>
    have hx : 0 < qty x := hpos x (by simp)
    rw [sweep_cons (Nat.pos_of_ne_zero hzero) hc, afterFill]
    by_cases hle : qty x ≤ leaves
    · rw [if_pos hle, show min leaves (qty x) = qty x by omega]
      refine (ih (listed (consLevel p xs ls)).length (by simp [← hn]) ?_ ?_ rfl).fill_all hx hle hc
      · intro l hl
        rcases mem_consLevel hl with hl | ⟨rfl, hxs⟩
        · exact hne l (List.mem_cons_of_mem _ hl)
        · exact hxs
      · intro y hy
        rw [listed_consLevel] at hy
        exact hpos y (by simpa using .inr (by simpa using hy))
    · rw [if_neg hle, show min leaves (qty x) = leaves by omega,
        show leaves - qty x = 0 by omega, sweep_zero]
      exact outcome_fill_part (Nat.pos_of_ne_zero hzero) (by omega) hc

end Sweep

/-! ## Inserting, dropping and changing orders -/

section Insert

variable [DecidableEq π] (before : π → π → Bool)

/-- The levels are in strict priority order. -/
def Sorted (ls : List (π × List ρ)) : Prop := ls.Pairwise fun l l' => before l.1 l'.1 = true

/-- **Where an order rests**: at the end of the queue of its price, or in a level of its own,
behind the levels that have priority over it. -/
def insertOrder (p : π) (x : ρ) : List (π × List ρ) → List (π × List ρ)
  | [] => [(p, [x])]
  | (q, xs) :: ls =>
    if q = p then (q, xs ++ [x]) :: ls
    else if before q p then (q, xs) :: insertOrder p x ls
    else (p, [x]) :: (q, xs) :: ls

/-- Drop the orders that do not satisfy `keep`, and the levels that become empty. -/
def keepOrders (keep : ρ → Bool) : List (π × List ρ) → List (π × List ρ)
  | [] => []
  | (p, xs) :: ls => consLevel p (xs.filter keep) (keepOrders keep ls)

/-- Change every order in place. -/
def mapOrders (f : ρ → τ) (ls : List (π × List ρ)) : List (π × List τ) :=
  ls.map fun l => (l.1, l.2.map f)

/-- The side made by inserting orders one after the other. -/
def build (price : ρ → π) (xs : List ρ) : List (π × List ρ) :=
  xs.foldl (fun ls x => insertOrder before (price x) x ls) []

/-- Strictly better prices come first. -/
structure Priority : Prop where
  asymm : ∀ p q, before p q = true → before q p = false
  trans : ∀ p q r, before p q = true → before q r = true → before p r = true
  total : ∀ p q, p ≠ q → before p q = false → before q p = true

variable {before}

omit [DecidableEq π] in
/-- The orders of two lists of levels are mapped apart. -/
@[simp] lemma mapOrders_append (f : ρ → τ) (l₁ l₂ : List (π × List ρ)) :
    mapOrders f (l₁ ++ l₂) = mapOrders f l₁ ++ mapOrders f l₂ := List.map_append

omit [DecidableEq π] in
/-- The orders of the first level are mapped apart. -/
@[simp] lemma mapOrders_cons (f : ρ → τ) (p : π) (xs : List ρ) (ls : List (π × List ρ)) :
    mapOrders f ((p, xs) :: ls) = (p, xs.map f) :: mapOrders f ls := rfl

omit [DecidableEq π] in
/-- Mapped orders leave a level away where the orders did. -/
@[simp] lemma mapOrders_consLevel (f : ρ → τ) (p : π) (xs : List ρ) (ls : List (π × List ρ)) :
    mapOrders f (consLevel p xs ls) = consLevel p (xs.map f) (mapOrders f ls) := by
  cases xs <;> rfl

omit [DecidableEq π] in
/-- The listed orders are mapped. -/
@[simp] lemma listed_mapOrders (f : ρ → τ) (ls : List (π × List ρ)) :
    listed (mapOrders f ls) = (listed ls).map f := by
  induction ls with
  | nil => rfl
  | cons l ls ih => simp [mapOrders, ← ih]

/-- Changing orders in place commutes with an insertion. -/
lemma mapOrders_insertOrder (f : ρ → τ) (p : π) (x : ρ) (ls : List (π × List ρ)) :
    mapOrders f (insertOrder before p x ls) = insertOrder before p (f x) (mapOrders f ls) := by
  induction ls with
  | nil => rfl
  | cons l ls ih =>
    obtain ⟨q, xs⟩ := l
    by_cases hq : q = p
    · simp [insertOrder, mapOrders, hq]
    · by_cases hb : before q p
      · simp [insertOrder, mapOrders, hq, hb] at ih ⊢
        exact ih
      · simp [insertOrder, mapOrders, hq, hb]

/-- There is a level at the price of an order that is inserted. -/
lemma exists_level_insertOrder (p : π) (x : ρ) (ls : List (π × List ρ)) :
    ∃ l ∈ insertOrder before p x ls, l.1 = p := by
  induction ls with
  | nil => exact ⟨(p, [x]), List.mem_singleton.mpr rfl, rfl⟩
  | cons m ls ih =>
    obtain ⟨q, xs⟩ := m
    rw [insertOrder]
    split_ifs with hq hb
    · exact ⟨_, List.mem_cons_self .., hq⟩
    · obtain ⟨l, hl, hprice⟩ := ih
      exact ⟨l, List.mem_cons_of_mem _ hl, hprice⟩
    · exact ⟨_, List.mem_cons_self .., rfl⟩

/-- An insertion adds no level that the order is not in. -/
lemma mem_insertOrder {p : π} {x : ρ} {ls : List (π × List ρ)} {l : π × List ρ}
    (h : l ∈ insertOrder before p x ls) : l ∈ ls ∨ l.1 = p ∧ x ∈ l.2 := by
  induction ls with
  | nil =>
    obtain rfl := List.mem_singleton.mp h
    exact .inr ⟨rfl, List.mem_singleton.mpr rfl⟩
  | cons m ls ih =>
    obtain ⟨q, xs⟩ := m
    by_cases hq : q = p
    · simp only [insertOrder, hq, if_true, List.mem_cons] at h ⊢
      rcases h with rfl | h
      · exact .inr ⟨rfl, by simp⟩
      · exact .inl (.inr h)
    · by_cases hb : before q p
      · simp only [insertOrder, hq, hb, if_true, if_false, List.mem_cons] at h ⊢
        rcases h with rfl | h
        · exact .inl (.inl rfl)
        · exact (ih h).imp_left .inr
      · rw [insertOrder, if_neg hq, if_neg hb] at h
        rcases List.mem_cons.mp h with rfl | h
        · exact .inr ⟨rfl, by simp⟩
        · exact .inl h

/-- An order that has priority over all levels opens the first level. -/
lemma insertOrder_front {p : π} {x : ρ} {ls : List (π × List ρ)}
    (h : ∀ l ∈ ls, l.1 ≠ p ∧ before l.1 p = false) :
    insertOrder before p x ls = (p, [x]) :: ls := by
  cases ls with
  | nil => rfl
  | cons l ls =>
    obtain ⟨hne, hb⟩ := h l (List.mem_cons_self ..)
    obtain ⟨q, xs⟩ := l
    rw [insertOrder, if_neg hne, if_neg (by simp [hb])]

/-- An order passes the levels that have priority over it. -/
lemma insertOrder_append {p : π} {x : ρ} {l₁ l₂ : List (π × List ρ)}
    (h : ∀ l ∈ l₁, l.1 ≠ p ∧ before l.1 p = true) :
    insertOrder before p x (l₁ ++ l₂) = l₁ ++ insertOrder before p x l₂ := by
  induction l₁ with
  | nil => rfl
  | cons l ls ih =>
    obtain ⟨hne, hb⟩ := h l (List.mem_cons_self ..)
    obtain ⟨q, xs⟩ := l
    rw [List.cons_append, insertOrder, if_neg hne, if_pos hb,
      ih fun m hm => h m (List.mem_cons_of_mem _ hm), List.cons_append]

/-- An order whose price has no level opens one. -/
lemma insertOrder_open {p : π} {x : ρ} {ls : List (π × List ρ)} (h : ∀ l ∈ ls, l.1 ≠ p) :
    insertOrder before p x ls = ls.takeWhile (fun l => before l.1 p) ++
      (p, [x]) :: ls.dropWhile (fun l => before l.1 p) := by
  induction ls with
  | nil => rfl
  | cons l ls ih =>
    obtain ⟨q, xs⟩ := l
    have hq : q ≠ p := h (q, xs) (List.mem_cons_self ..)
    by_cases hb : before q p
    · simp [insertOrder, hq, hb, ih fun m hm => h m (List.mem_cons_of_mem _ hm)]
    · simp [insertOrder, hq, hb]

omit [DecidableEq π] in
/-- Levels of different priority have different prices. -/
lemma Priority.ne (hb : Priority before) {p q : π} (h : before p q = true) : p ≠ q := by
  rintro rfl
  simp [hb.asymm p p h] at h

/-- An insertion keeps the levels sorted. -/
lemma Sorted.insertOrder (hb : Priority before) {p : π} {x : ρ} {ls : List (π × List ρ)}
    (h : Sorted before ls) : Sorted before (insertOrder before p x ls) := by
  induction ls with
  | nil => exact List.pairwise_singleton _ _
  | cons l ls ih =>
    obtain ⟨q, xs⟩ := l
    obtain ⟨hhead, htail⟩ := List.pairwise_cons.mp h
    by_cases hq : q = p
    · rw [PriceTime.insertOrder, if_pos hq]
      exact List.pairwise_cons.mpr ⟨hhead, htail⟩
    · by_cases hbq : before q p
      · rw [PriceTime.insertOrder, if_neg hq, if_pos hbq]
        refine List.pairwise_cons.mpr ⟨fun m hm => ?_, ih htail⟩
        rcases mem_insertOrder hm with hm | ⟨hm, -⟩
        · exact hhead m hm
        · exact hm ▸ hbq
      · have hpq : before p q = true := hb.total q p hq (by simpa using hbq)
        rw [PriceTime.insertOrder, if_neg hq, if_neg hbq]
        refine List.pairwise_cons.mpr ⟨fun m hm => ?_, h⟩
        rcases List.mem_cons.mp hm with rfl | hm
        · exact hpq
        · exact hb.trans p q m.1 hpq (hhead m hm)

omit [DecidableEq π] in
/-- Dropping orders leaves levels that were there before. -/
lemma mem_keepOrders {keep : ρ → Bool} {ls : List (π × List ρ)} {l : π × List ρ}
    (h : l ∈ keepOrders keep ls) : ∃ m ∈ ls, m.1 = l.1 := by
  induction ls with
  | nil => simp [keepOrders] at h
  | cons m ls ih =>
    obtain ⟨q, xs⟩ := m
    rcases mem_consLevel h with h | ⟨rfl, -⟩
    · obtain ⟨m, hm, hml⟩ := ih h
      exact ⟨m, List.mem_cons_of_mem _ hm, hml⟩
    · exact ⟨(q, xs), List.mem_cons_self .., rfl⟩

/-- Inserting an order and dropping it again changes nothing. -/
lemma keepOrders_insertOrder_drop {keep : ρ → Bool} {p : π} {x : ρ} (hx : keep x = false)
    (ls : List (π × List ρ)) :
    keepOrders keep (insertOrder before p x ls) = keepOrders keep ls := by
  induction ls with
  | nil => simp [insertOrder, keepOrders, hx, consLevel]
  | cons l ls ih =>
    obtain ⟨q, xs⟩ := l
    by_cases hq : q = p
    · simp [insertOrder, keepOrders, hq, hx]
    · by_cases hb : before q p
      · simp [insertOrder, keepOrders, hq, hb, ih]
      · simp [insertOrder, keepOrders, hq, hb, hx, consLevel]

/-- **Dropping orders commutes with inserting one that is kept**, in a sorted side.

**Proof sketch.** By induction on the levels. At the price of the order its level may be dropped
without it, and then the order opens a new level there, in front of the ones behind it, which are all
worse (`insertOrder_front`). At a better price the insertion goes on, and at a worse price the order
opens a level in front. -/
lemma keepOrders_insertOrder_keep (hb : Priority before) {keep : ρ → Bool} {p : π} {x : ρ}
    (hx : keep x = true) {ls : List (π × List ρ)} (h : Sorted before ls) :
    keepOrders keep (insertOrder before p x ls) =
      insertOrder before p x (keepOrders keep ls) := by
  induction ls with
  | nil => simp [insertOrder, keepOrders, hx, consLevel]
  | cons l ls ih =>
    obtain ⟨q, xs⟩ := l
    obtain ⟨hhead, htail⟩ := List.pairwise_cons.mp h
    by_cases hq : q = p
    · subst hq
      have hbehind : ∀ l ∈ keepOrders keep ls, l.1 ≠ q ∧ before l.1 q = false := by
        intro l hl
        obtain ⟨m, hm, hml⟩ := mem_keepOrders hl
        have := hhead m hm
        rw [hml] at this
        exact ⟨(hb.ne this).symm, hb.asymm _ _ this⟩
      cases hxs : xs.filter keep with
      | nil => simp [insertOrder, keepOrders, hxs, hx, consLevel, insertOrder_front hbehind]
      | cons y ys => simp [insertOrder, keepOrders, hxs, hx, consLevel]
    · by_cases hbq : before q p
      · cases hxs : xs.filter keep with
        | nil => simp [insertOrder, keepOrders, hq, hbq, hxs, consLevel, ih htail]
        | cons y ys => simp [insertOrder, keepOrders, hq, hbq, hxs, consLevel, ih htail]
      · have hbehind : ∀ l ∈ keepOrders keep ((q, xs) :: ls), l.1 ≠ p ∧ before l.1 p = false := by
          intro l hl
          obtain ⟨m, hm, hml⟩ := mem_keepOrders hl
          rw [← hml]
          rcases List.mem_cons.mp hm with rfl | hm
          · exact ⟨hq, by simpa using hbq⟩
          · have hqm := hhead m hm
            refine ⟨fun he => hbq (he ▸ hqm), ?_⟩
            by_contra hmp
            exact hbq (hb.trans _ _ _ hqm (by simpa using hmp))
        rw [insertOrder_front hbehind, insertOrder, if_neg hq, if_neg hbq, keepOrders]
        simp [hx, consLevel]

omit [DecidableEq π] in
/-- The orders of two lists of levels are kept apart. -/
lemma keepOrders_append (keep : ρ → Bool) (l₁ l₂ : List (π × List ρ)) :
    keepOrders keep (l₁ ++ l₂) = keepOrders keep l₁ ++ keepOrders keep l₂ := by
  induction l₁ with
  | nil => rfl
  | cons l ls ih =>
    obtain ⟨q, xs⟩ := l
    simp only [List.cons_append, keepOrders, ih]
    cases xs.filter keep <;> rfl

omit [DecidableEq π] in
/-- The orders that are kept. -/
lemma listed_keepOrders (keep : ρ → Bool) (ls : List (π × List ρ)) :
    listed (keepOrders keep ls) = (listed ls).filter keep := by
  induction ls with
  | nil => rfl
  | cons l ls ih => rw [keepOrders, listed_consLevel, ih, listed_cons, List.filter_append]

omit [DecidableEq π] in
/-- Dropping orders that are all kept changes nothing. -/
lemma keepOrders_of_forall {keep : ρ → Bool} {ls : List (π × List ρ)} (hne : ∀ l ∈ ls, l.2 ≠ [])
    (h : ∀ x ∈ listed ls, keep x = true) : keepOrders keep ls = ls := by
  induction ls with
  | nil => rfl
  | cons l ls ih =>
    obtain ⟨q, xs⟩ := l
    have hxs : xs.filter keep = xs := List.filter_eq_self.mpr fun x hx => h x (by simp [hx])
    rw [keepOrders, hxs, ih (fun m hm => hne m (List.mem_cons_of_mem _ hm))
      fun x hx => h x (by simp [hx])]
    cases xs with
    | nil => exact absurd rfl (hne (q, []) (List.mem_cons_self ..))
    | cons y ys => rfl

omit [DecidableEq π] in
/-- **Dropping one order.** -/
lemma keepOrders_split {keep : ρ → Bool} {l₁ l₂ : List (π × List ρ)} {p : π} {q₁ q₂ : List ρ}
    {x : ρ} (hne : ∀ l ∈ l₁ ++ l₂, l.2 ≠ []) (hx : keep x = false)
    (h : ∀ y ∈ listed l₁ ++ (q₁ ++ q₂) ++ listed l₂, keep y = true) :
    keepOrders keep (l₁ ++ (p, q₁ ++ x :: q₂) :: l₂) = l₁ ++ consLevel p (q₁ ++ q₂) l₂ := by
  simp only [List.mem_append] at hne h
  have hq : (q₁ ++ x :: q₂).filter keep = q₁ ++ q₂ := by
    rw [List.filter_append, List.filter_cons_of_neg (by simp [hx]),
      List.filter_eq_self.mpr fun y hy => h y (.inl (.inr (.inl hy))),
      List.filter_eq_self.mpr fun y hy => h y (.inl (.inr (.inr hy)))]
  rw [keepOrders_append, keepOrders_of_forall (fun l hl => hne l (.inl hl))
    (fun y hy => h y (.inl (.inl hy))), keepOrders, hq,
    keepOrders_of_forall (fun l hl => hne l (.inr hl)) (fun y hy => h y (.inr hy))]

omit [DecidableEq π] in
/-- Changing orders in place changes nothing when each of them stays. -/
lemma mapOrders_of_forall {f : ρ → ρ} {ls : List (π × List ρ)} (h : ∀ x ∈ listed ls, f x = x) :
    mapOrders f ls = ls := by
  induction ls with
  | nil => rfl
  | cons l ls ih =>
    have hl : l.2.map f = l.2 := by
      simpa using List.map_congr_left fun x hx => h x (by simp [hx])
    have hls : mapOrders f ls = ls := ih fun x hx => h x (by simp [hx])
    rw [mapOrders, List.map_cons, hl]
    exact congrArg _ hls

omit [DecidableEq π] in
/-- **Changing one order.** -/
lemma mapOrders_split {f : ρ → ρ} {l₁ l₂ : List (π × List ρ)} {p : π} {q₁ q₂ : List ρ} {x : ρ}
    (h : ∀ y ∈ listed l₁ ++ (q₁ ++ q₂) ++ listed l₂, f y = y) :
    mapOrders f (l₁ ++ (p, q₁ ++ x :: q₂) :: l₂) = l₁ ++ (p, q₁ ++ f x :: q₂) :: l₂ := by
  simp only [List.mem_append] at h
  have h₁ : mapOrders f l₁ = l₁ := mapOrders_of_forall fun y hy => h y (.inl (.inl hy))
  have h₂ : mapOrders f l₂ = l₂ := mapOrders_of_forall fun y hy => h y (.inr hy)
  have hq₁ : q₁.map f = q₁ := by
    simpa using List.map_congr_left fun y hy => h y (.inl (.inr (.inl hy)))
  have hq₂ : q₂.map f = q₂ := by
    simpa using List.map_congr_left fun y hy => h y (.inl (.inr (.inr hy)))
  have happend : mapOrders f (l₁ ++ (p, q₁ ++ x :: q₂) :: l₂) =
      mapOrders f l₁ ++ (p, (q₁ ++ x :: q₂).map f) :: mapOrders f l₂ := by
    simp [mapOrders]
  rw [happend, h₁, h₂, List.map_append, List.map_cons, hq₁, hq₂]

/-! ## Building a side -/

section Build

variable {price : ρ → π}

/-- The last order is inserted last. -/
lemma build_append_singleton (xs : List ρ) (x : ρ) :
    build before price (xs ++ [x]) = insertOrder before (price x) x (build before price xs) := by
  simp [build]

/-- A side that was built is sorted. -/
lemma sorted_build (hb : Priority before) (xs : List ρ) : Sorted before (build before price xs) := by
  induction xs using List.reverseRecOn with
  | nil => exact List.Pairwise.nil
  | append_singleton xs x ih =>
    rw [build_append_singleton]
    exact ih.insertOrder hb

/-- The orders of a side after an insertion. -/
lemma mem_listed_insertOrder {p : π} {x y : ρ} {ls : List (π × List ρ)} :
    y ∈ listed (insertOrder before p x ls) ↔ y = x ∨ y ∈ listed ls := by
  induction ls with
  | nil => simp [insertOrder]
  | cons l ls ih =>
    obtain ⟨q, xs⟩ := l
    simp only [insertOrder]
    split_ifs
    · simp only [listed_cons, List.mem_append, List.mem_singleton]
      tauto
    · simp only [listed_cons, List.mem_append, ih]
      tauto
    · simp

/-- The orders of a side after an insertion, with their multiplicities. -/
lemma listed_insertOrder_perm (p : π) (x : ρ) (ls : List (π × List ρ)) :
    (listed (insertOrder before p x ls)).Perm (x :: listed ls) := by
  induction ls with
  | nil => exact List.Perm.refl _
  | cons l ls ih =>
    obtain ⟨q, xs⟩ := l
    simp only [insertOrder]
    split_ifs
    · rw [listed_cons, listed_cons, List.append_assoc, List.singleton_append]
      exact List.perm_middle
    · rw [listed_cons, listed_cons]
      exact (ih.append_left xs).trans List.perm_middle
    · exact List.Perm.refl _

/-- No level of a side that was built is empty. -/
lemma nonempty_of_mem_build {xs : List ρ} {l : π × List ρ} (h : l ∈ build before price xs) :
    l.2 ≠ [] := by
  induction xs using List.reverseRecOn with
  | nil => cases h
  | append_singleton xs x ih =>
    rw [build_append_singleton] at h
    rcases mem_insertOrder h with h | ⟨-, hx⟩
    · exact ih h
    · exact List.ne_nil_of_mem hx

/-- A side that was built lists what was inserted. -/
lemma listed_build_perm (xs : List ρ) : (listed (build before price xs)).Perm xs := by
  induction xs using List.reverseRecOn with
  | nil => exact List.Perm.refl _
  | append_singleton xs x ih =>
    rw [build_append_singleton]
    exact ((listed_insertOrder_perm _ _ _).trans (ih.cons x)).trans
      (List.perm_append_singleton x xs).symm

/-- The orders of a side that was built. -/
lemma mem_listed_build {xs : List ρ} {x : ρ} : x ∈ listed (build before price xs) ↔ x ∈ xs := by
  induction xs using List.reverseRecOn with
  | nil => exact Iff.rfl
  | append_singleton xs y ih =>
    rw [build_append_singleton, mem_listed_insertOrder, ih, List.mem_append, List.mem_singleton,
      or_comm]

/-- **Dropping orders from a side leaves what inserting the others makes.** -/
theorem keepOrders_build (hb : Priority before) (keep : ρ → Bool) (xs : List ρ) :
    keepOrders keep (build before price xs) = build before price (xs.filter keep) := by
  induction xs using List.reverseRecOn with
  | nil => rfl
  | append_singleton xs x ih =>
    rw [build_append_singleton, List.filter_append]
    cases hx : keep x with
    | true =>
      rw [keepOrders_insertOrder_keep hb hx (sorted_build hb xs), ih, List.filter_singleton, hx,
        cond_true, build_append_singleton]
    | false =>
      rw [keepOrders_insertOrder_drop hx, ih, List.filter_singleton, hx, cond_false,
        List.append_nil]

/-- **Changing orders of a side leaves what inserting the changed orders makes.** -/
theorem mapOrders_build {f : ρ → ρ} (hf : ∀ x, price (f x) = price x) (xs : List ρ) :
    mapOrders f (build before price xs) = build before price (xs.map f) := by
  induction xs using List.reverseRecOn with
  | nil => rfl
  | append_singleton xs x ih =>
    rw [build_append_singleton, mapOrders_insertOrder, ih, List.map_append, List.map_singleton,
      build_append_singleton, hf]

/-- The prices of a side after an insertion. -/
lemma mem_prices_insertOrder {p q : π} {x : ρ} {ls : List (π × List ρ)} :
    q ∈ (insertOrder before p x ls).map Prod.fst ↔ q = p ∨ q ∈ ls.map Prod.fst := by
  induction ls with
  | nil => simp [insertOrder]
  | cons l ls ih =>
    obtain ⟨r, xs⟩ := l
    simp only [insertOrder]
    split_ifs with hr hb
    · subst hr
      simp
    · simp only [List.map_cons, List.mem_cons, ih]
      tauto
    · simp

/-- The prices of a side that was built. -/
lemma mem_prices_build {xs : List ρ} {q : π} :
    q ∈ (build before price xs).map Prod.fst ↔ ∃ x ∈ xs, price x = q := by
  induction xs using List.reverseRecOn with
  | nil => simp [build]
  | append_singleton xs x ih =>
    rw [build_append_singleton, mem_prices_insertOrder, ih]
    simp only [List.mem_append, List.mem_singleton]
    constructor
    · rintro (rfl | ⟨y, hy, hq⟩)
      · exact ⟨x, .inr rfl, rfl⟩
      · exact ⟨y, .inl hy, hq⟩
    · rintro ⟨y, hy | rfl, hq⟩
      · exact .inr ⟨y, hy, hq⟩
      · exact .inl hq.symm

end Build

end Insert

end PriceTime
