import Mathlib.Data.List.Chain
import Mathlib.Data.List.Nodup
import Mathlib.Logic.Function.Basic
import Mathlib.Logic.Relation
import Mathlib.Tactic.Lemma

set_option relaxedAutoImplicit false
set_option autoImplicit false

/-!
# Circular doubly linked lists over link functions

An intrusive circular list is a pair of nullable link functions `next` and `prev` on the
nodes. `Ring next prev l` says that the nodes of `l`, in this order, form one circle: each
node's `next` is the following node, the last node's `next` is the first one, and `prev` is
the inverse. The edits of such a list are proved at a distinguished position, linking a node in
before the head and unlinking the last node; `Ring.rotate` moves any position there.

## Main definitions

* `CircularList.Linked`, `CircularList.Ring` — one edge of a circle, and a whole circle.
* `CircularList.Follows` — reachability along `next`.

## Main results

* `CircularList.Ring.rotate` — a circle may be cut open anywhere.
* `CircularList.Ring.push`, `CircularList.Ring.remove` — linking in and unlinking one node.
* `CircularList.Ring.follows_iff` — what is reachable from the head is what is listed.
-/

namespace CircularList

variable {α : Type*} {next prev next' prev' : α → Option α}

/-- One edge of a circular list: `y` follows `x` and `x` precedes `y`. -/
def Linked (next prev : α → Option α) (x y : α) : Prop :=
  next x = some y ∧ prev y = some x

/-- The nodes of the list form one circle of `next` links with `prev` as inverse. -/
def Ring (next prev : α → Option α) : List α → Prop
  | [] => True
  | a :: l => (a :: l ++ [a]).IsChain (Linked next prev)

/-- A ring of one is linked to itself. -/
@[simp] lemma ring_singleton {a : α} : Ring next prev [a] ↔ Linked next prev a a := by
  simp [Ring]

/-- Appending a node at the end of an open circle splits off its two edges. -/
lemma ring_cons_append_singleton {a x : α} {l : List α} :
    Ring next prev (a :: l ++ [x]) ↔
      (a :: l ++ [x]).IsChain (Linked next prev) ∧ Linked next prev x a := by
  change ((a :: l ++ [x]) ++ [a]).IsChain (Linked next prev) ↔ _
  rw [List.append_assoc, List.singleton_append, List.isChain_split]
  simp

/-- The first node may be moved to the end. -/
lemma Ring.rotate_one {a : α} {l : List α} (h : Ring next prev (a :: l)) :
    Ring next prev (l ++ [a]) := by
  cases l with
  | nil => exact h
  | cons b l =>
    change (a :: ((b :: l) ++ [a])).IsChain (Linked next prev) at h
    rw [ring_cons_append_singleton]
    exact ⟨h.tail, h.rel_head? rfl⟩

/-- **A circle may be cut open anywhere.** -/
lemma Ring.rotate : ∀ {l₁ l₂ : List α}, Ring next prev (l₁ ++ l₂) → Ring next prev (l₂ ++ l₁)
  | [], l₂, h => by simpa using h
  | a :: l₁, l₂, h => by
    have h₁ : Ring next prev (l₁ ++ (l₂ ++ [a])) := by
      simpa using h.rotate_one
    simpa using h₁.rotate

/-- A circle only depends on the links of its own nodes. -/
lemma Ring.congr {l : List α} (h : Ring next prev l)
    (hl : ∀ x ∈ l, next' x = next x ∧ prev' x = prev x) : Ring next' prev' l := by
  cases l with
  | nil => trivial
  | cons a l =>
    refine List.IsChain.imp_of_mem_imp ?_ h
    intro x y hx hy hxy
    have mem : ∀ z ∈ a :: l ++ [a], z ∈ a :: l := by
      intro z hz
      simpa [or_comm] using hz
    exact ⟨(hl x (mem x hx)).1.trans hxy.1, (hl y (mem y hy)).2.trans hxy.2⟩

/-- In a circle the node after `x` is its `next`, and `prev` leads back. -/
lemma Ring.linked {l₁ l₂ : List α} {x y : α} (h : Ring next prev (l₁ ++ x :: y :: l₂)) :
    Linked next prev x y := by
  have h₁ : Ring next prev (x :: y :: (l₂ ++ l₁)) := by simpa using h.rotate
  exact List.IsChain.rel_head? h₁ rfl

/-- The last node of a circle is linked to the first. -/
lemma Ring.linked_last {l : List α} {a x : α} (h : Ring next prev (a :: l ++ [x])) :
    Linked next prev x a := (ring_cons_append_singleton.mp h).2

/-- The head of a circle is preceded by its last node. -/
lemma Ring.prev_head {l : List α} {a z : α} (h : Ring next prev (a :: l))
    (hz : (a :: l).getLast? = some z) : Linked next prev z a := by
  rcases List.eq_nil_or_concat l with rfl | ⟨l, x, rfl⟩
  · obtain rfl : a = z := by simpa using hz
    simpa using h
  · rw [List.concat_eq_append, ← List.cons_append] at h hz
    obtain rfl : x = z := Option.some_inj.mp (List.getLast?_concat.symm.trans hz)
    exact h.linked_last

/-- Every node of a circle has a predecessor and a successor, both in the circle. -/
lemma Ring.exists_linked {l₁ l₂ : List α} {x : α} (h : Ring next prev (l₁ ++ x :: l₂)) :
    ∃ y z, (x :: (l₂ ++ l₁)).getLast? = some y ∧ (l₂ ++ l₁ ++ [x]).head? = some z ∧
      Linked next prev y x ∧ Linked next prev x z := by
  have h₁ : Ring next prev (x :: (l₂ ++ l₁)) := by simpa using h.rotate
  have hz : (l₂ ++ l₁ ++ [x]).head? = some ((l₂ ++ l₁ ++ [x]).head (by simp)) :=
    List.head?_eq_some_head _
  refine ⟨_, _, List.getLast?_eq_some_getLast (by simp), hz,
    h₁.prev_head (List.getLast?_eq_some_getLast _), List.IsChain.rel_head? h₁ hz⟩

/-- The head of a circle is followed by the second node, or by itself. -/
lemma Ring.next_head {a : α} {l : List α} (h : Ring next prev (a :: l)) :
    next a = some (l.headD a) := by
  cases l with
  | nil => exact (ring_singleton.mp h).1
  | cons b l => exact (List.IsChain.rel_head? h rfl).1

/-- A later node of a circle is followed by the node behind it, or by the head. -/
lemma Ring.next_mem {a x : α} {l₁ l₂ : List α} (h : Ring next prev (a :: l₁ ++ x :: l₂)) :
    next x = some (l₂.headD a) := by
  have h₁ : Ring next prev (x :: (l₂ ++ a :: l₁)) := by simpa using h.rotate
  have h₂ := h₁.next_head
  cases l₂ <;> exact h₂

/-- A node of a repetition-free circle precedes itself only when it is alone. -/
lemma Ring.prev_self_iff {l₁ l₂ : List α} {x : α} (h : Ring next prev (l₁ ++ x :: l₂))
    (hd : (l₁ ++ x :: l₂).Nodup) : prev x = some x ↔ l₁ ++ l₂ = [] := by
  have hx : x ∉ l₂ ++ l₁ := by
    have := (List.perm_middle.nodup_iff.mp hd)
    simpa [or_comm] using (List.nodup_cons.mp this).1
  have h₁ : Ring next prev (x :: (l₂ ++ l₁)) := by simpa using h.rotate
  have hp := (h₁.prev_head (List.getLast?_eq_some_getLast (by simp))).2
  rw [hp, Option.some_inj]
  constructor
  · intro he
    by_contra hne
    have hne' : l₂ ++ l₁ ≠ [] := by simpa [and_comm] using hne
    rw [List.getLast_cons hne'] at he
    exact hx (he ▸ List.getLast_mem hne')
  · intro he
    have he' : l₂ ++ l₁ = [] := by simpa [and_comm] using he
    simp [he']

/-- A node of a repetition-free circle follows itself only when it is alone. -/
lemma Ring.next_self_iff {l₁ l₂ : List α} {x : α} (h : Ring next prev (l₁ ++ x :: l₂))
    (hd : (l₁ ++ x :: l₂).Nodup) : next x = some x ↔ l₁ ++ l₂ = [] := by
  have hx : x ∉ l₂ ++ l₁ := by
    have := (List.perm_middle.nodup_iff.mp hd)
    simpa [or_comm] using (List.nodup_cons.mp this).1
  have h₁ : Ring next prev (x :: (l₂ ++ l₁)) := by simpa using h.rotate
  cases hl : l₂ ++ l₁ with
  | nil =>
    rw [hl] at h₁
    have he : l₁ ++ l₂ = [] := by simpa [and_comm] using hl
    simpa [he] using (ring_singleton.mp h₁).1
  | cons z l =>
    rw [hl] at h₁ hx
    have hn : next x = some z := (List.IsChain.rel_head? h₁ rfl).1
    have hne : l₁ ++ l₂ ≠ [] := by
      intro he
      have : l₂ ++ l₁ = [] := by simpa [and_comm] using he
      simp [this] at hl
    simp only [hn, Option.some_inj, hne, iff_false]
    rintro rfl
    simp at hx

/-- **Linking a node in before the head.** With `z` the last node of the circle `a :: l`,
setting `z.next = x`, `x.next = a`, `x.prev = z` and `a.prev = x` puts `x` at the end.

**Proof sketch.** An edge of the old circle between two of the listed nodes does not start at
`z`, whose old `next` is `a`, so it survives. The two new edges are given. -/
lemma Ring.push {a x z : α} {l : List α} (h : Ring next prev (a :: l)) (hd : (a :: l).Nodup)
    (hz : (a :: l).getLast? = some z) (hnz : next' z = some x) (hnx : next' x = some a)
    (hpx : prev' x = some z) (hpa : prev' a = some x)
    (hn : ∀ y ∈ a :: l, y ≠ z → next' y = next y) (hp : ∀ y ∈ l, prev' y = prev y) :
    Ring next' prev' (a :: l ++ [x]) := by
  rw [ring_cons_append_singleton]
  refine ⟨List.isChain_append.mpr ⟨?_, List.isChain_singleton x, ?_⟩, hnx, hpa⟩
  · have hchain : (a :: l).IsChain (Linked next prev) := List.IsChain.left_of_append h
    refine hchain.imp_of_mem_tail_imp fun u v hu hv huv => ⟨?_, (hp v hv).trans huv.2⟩
    rw [hn u hu ?_, huv.1]
    rintro rfl
    have : v = a := Option.some_inj.mp (huv.1.symm.trans (h.prev_head hz).1)
    exact (List.nodup_cons.mp hd).1 (this ▸ hv)
  · intro u hu v hv
    rw [hz, Option.mem_some_iff] at hu
    simp only [List.head?_cons, Option.mem_some_iff] at hv
    subst hu hv
    exact ⟨hnz, hpx⟩

/-- **Unlinking the last node.** With `z` the node before the last node `x`, setting
`z.next = a` and `a.prev = z` leaves the circle without `x`.

**Proof sketch.** An edge between two of the remaining nodes does not start at `z`, whose old
`next` is `x`, so it survives. The closing edge is given. -/
lemma Ring.pop {a x z : α} {l : List α} (h : Ring next prev (a :: l ++ [x]))
    (hd : (a :: l ++ [x]).Nodup) (hz : (a :: l).getLast? = some z)
    (hnz : next' z = some a) (hpa : prev' a = some z)
    (hn : ∀ y ∈ a :: l, y ≠ z → next' y = next y) (hp : ∀ y ∈ l, prev' y = prev y) :
    Ring next' prev' (a :: l) := by
  have hx : x ∉ a :: l := fun hx => (List.nodup_append.mp hd).2.2 x hx x (by simp) rfl
  have hopen := (ring_cons_append_singleton.mp h).1
  obtain ⟨hchain, -, hlast⟩ := List.isChain_append.mp hopen
  refine List.isChain_append.mpr ⟨?_, List.isChain_singleton a, ?_⟩
  · refine hchain.imp_of_mem_tail_imp fun u v hu hv huv => ⟨?_, (hp v hv).trans huv.2⟩
    rw [hn u hu ?_, huv.1]
    rintro rfl
    have : v = x := Option.some_inj.mp (huv.1.symm.trans (hlast u hz x rfl).1)
    exact hx (this ▸ List.mem_of_mem_tail hv)
  · intro u hu v hv
    rw [hz, Option.mem_some_iff] at hu
    simp only [List.head?_cons, Option.mem_some_iff] at hv
    subst hu hv
    exact ⟨hnz, hpa⟩

/-- **Unlinking any node** of a circle of at least two: its neighbours `z` and `a` are linked to each
other, and the links between the other nodes stay as they are.

**Proof sketch.** Cut open behind the node, the circle ends with it, and `Ring.pop` applies. -/
theorem Ring.remove {l₁ l₂ : List α} {x : α} (h : Ring next prev (l₁ ++ x :: l₂))
    (hd : (l₁ ++ x :: l₂).Nodup) (hne : l₁ ++ l₂ ≠ []) :
    ∃ z a, next x = some a ∧ prev x = some z ∧ z ∈ l₁ ++ l₂ ∧ a ∈ l₁ ++ l₂ ∧
      (l₁ = [] → l₂.head? = some a) ∧
      ∀ next' prev' : α → Option α, next' z = some a → prev' a = some z →
        (∀ y ∈ l₁ ++ l₂, y ≠ z → next' y = next y) → (∀ y ∈ l₁ ++ l₂, y ≠ a → prev' y = prev y) →
          Ring next' prev' (l₁ ++ l₂) := by
  have hcut : Ring next prev (l₂ ++ l₁ ++ [x]) := by
    have hr : Ring next prev ((l₁ ++ [x]) ++ l₂) := by simpa using h
    simpa using hr.rotate
  have hperm : (l₂ ++ l₁ ++ [x]).Perm (l₁ ++ x :: l₂) :=
    (List.perm_append_singleton _ _).trans ((List.perm_append_comm.cons _).trans
      List.perm_middle.symm)
  have hcutd := hperm.nodup_iff.mpr hd
  have hmem : ∀ y, y ∈ l₂ ++ l₁ ↔ y ∈ l₁ ++ l₂ := fun y => List.perm_append_comm.mem_iff
  have hhead : l₁ = [] → l₂ = l₂ ++ l₁ := fun he => by rw [he, List.append_nil]
  have hback : ∀ next' prev' : α → Option α, Ring next' prev' (l₂ ++ l₁) →
      Ring next' prev' (l₁ ++ l₂) := fun _ _ => Ring.rotate
  obtain ⟨a, r, har⟩ : ∃ a r, l₂ ++ l₁ = a :: r :=
    List.exists_cons_of_ne_nil fun he => hne (by simpa [and_comm] using he)
  rw [har] at hcut hcutd hmem hhead hback
  have hz : (a :: r).getLast? = some ((a :: r).getLast (List.cons_ne_nil a r)) :=
    List.getLast?_eq_some_getLast (List.cons_ne_nil a r)
  generalize (a :: r).getLast (List.cons_ne_nil a r) = z at hz
  have hprev : prev x = some z := by
    have hr : Ring next prev (x :: a :: r) := by simpa using hcut.rotate
    exact (hr.prev_head (by simpa [List.getLast?_cons_cons] using hz)).2
  refine ⟨z, a, hcut.linked_last.1, hprev, (hmem z).mp (List.mem_of_getLast? hz),
    (hmem a).mp (List.mem_cons_self ..), fun he => by rw [hhead he]; rfl, ?_⟩
  intro next' prev' hnz hpa hn hp
  refine hback _ _ (hcut.pop hcutd hz hnz hpa (fun y hy => hn y ((hmem y).mp hy)) fun y hy => ?_)
  refine hp y ((hmem y).mp (List.mem_cons_of_mem _ hy)) ?_
  rintro rfl
  simp at hcutd
  exact hcutd.1.1 hy

/-! ## Reachability -/

/-- `y` is reached from `x` by following `next` some number of times. -/
def Follows (next : α → Option α) : α → α → Prop :=
  Relation.ReflTransGen fun x y => next x = some y

/-- Following `next` never leaves a circle. -/
lemma Ring.mem_of_follows {l : List α} {x y : α} (h : Ring next prev l) (hx : x ∈ l)
    (hxy : Follows next x y) : y ∈ l := by
  induction hxy with
  | refl => exact hx
  | @tail y z _ hyz ih =>
    obtain ⟨l₁, l₂, rfl⟩ := List.append_of_mem ih
    obtain ⟨-, w, -, hmem, -, hw⟩ := h.exists_linked
    have hwz : w = z := Option.some_inj.mp (hw.1.symm.trans hyz)
    subst hwz
    have := List.mem_of_mem_head? hmem
    simp only [List.mem_append, List.mem_cons, List.not_mem_nil, or_false] at this ⊢
    tauto

/-- Every node of a circle is reached from its head. -/
lemma Ring.follows_of_mem {a y : α} {l : List α} (h : Ring next prev (a :: l))
    (hy : y ∈ a :: l) : Follows next a y := by
  obtain ⟨l₁, l₂, hl⟩ := List.append_of_mem hy
  induction l₁ using List.reverseRecOn generalizing y l₂ with
  | nil =>
    obtain rfl : a = y := (List.cons.inj hl).1
    exact .refl
  | append_singleton l₁ x ih =>
    have hx : a :: l = l₁ ++ x :: (y :: l₂) := by simpa using hl
    refine (ih (y := x) (hx ▸ by simp) _ hx).tail ?_
    rw [hx] at h
    exact h.linked.1

/-- **What is reachable from the head of a circle is what the circle lists.** -/
lemma Ring.follows_iff {a y : α} {l : List α} (h : Ring next prev (a :: l)) :
    Follows next a y ↔ y ∈ a :: l :=
  ⟨h.mem_of_follows (List.mem_cons_self ..), h.follows_of_mem⟩

end CircularList
