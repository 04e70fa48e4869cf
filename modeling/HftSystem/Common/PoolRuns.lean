import Mathlib.Data.Finset.Card
import HftSystem.Common.MemPool

set_option relaxedAutoImplicit false
set_option autoImplicit false

/-!
# Runs of the memory pool

Any sequence of `allocate` and `deallocate`. A block in use is never handed out, whatever the sequence.
But `next_free_index_` only moves forward: the test for the end of the store stands behind the loop that
runs into it, and a block that was deallocated lies behind the index. So a pool of `n` blocks serves
`n - 1` allocations, and the next one leaves the store.

## Main definitions

* `Common.PoolRun` — a pool with the handles that it has handed out and not taken back.
* `Common.PoolRun.Tracks` — the blocks in use are these handles.
* `Common.PoolRun.NextIsFree` — `next_free_index_` is the index of a free block.

## Main results

* `Common.PoolRun.neverAliases` — no live block is handed out, and a second deallocation is caught.
* `Common.PoolRun.available_iff` — the runs in which the pool stays available.
-/

namespace Common

open Fallible

/-- A call. -/
inductive PoolCall (T : Type)
  | allocate (object : T)
  | deallocate (elem : Ptr)
  deriving DecidableEq

/-- A pool, with the handles that are allocated and not yet deallocated. -/
structure PoolRun (T : Type) where
  pool : MemPool T
  live : Finset Ptr := ∅

namespace PoolRun

variable {T : Type}

/-- A new pool. -/
def start [Inhabited T] (numElems : ℕ) : PoolRun T := { pool := .new numElems }

/-- The next call. -/
def step (s : PoolRun T) : PoolCall T → Except Fault (PoolRun T)
  | .allocate object => do
    let (elem, pool) ← s.pool.allocate object
    return { pool, live := insert elem s.live }
  | .deallocate elem => do
    let pool ← s.pool.deallocate elem
    return { pool, live := s.live.erase elem }

/-! ## Live blocks -/

/-- **The blocks in use are the live handles.** -/
def Tracks (s : PoolRun T) : Prop := ∀ i, s.pool.InUse i ↔ i ∈ s.live

/-- An allocation that completes hands out a block that is not live, and changes no other block. -/
def HandsOutFresh (s : PoolRun T) (call : PoolCall T) : Prop :=
  ∀ object elem pool, call = .allocate object → s.pool.allocate object = .ok (elem, pool) →
    elem ∉ s.live ∧ ∀ i, i ≠ elem → pool.store i = s.pool.store i

/-- The call does not hand out the block. -/
def DoesNotReturn (elem : Ptr) (s : PoolRun T) (call : PoolCall T) : Prop :=
  ∀ object pool, call = .allocate object → s.pool.allocate object ≠ .ok (elem, pool)

variable {s : PoolRun T}

/-- The blocks are tracked from the start. -/
lemma tracks_start [Inhabited T] (numElems : ℕ) : (start numElems : PoolRun T).Tracks := fun i =>
  iff_of_false (MemPool.not_inUse_new _ i) (Finset.notMem_empty i)

/-- What an allocation writes. -/
lemma safe_allocate_store (pool : MemPool T) (object : T) :
    Safe NoFreshBlock (fun r => r.2.store = Function.update pool.store r.1 { object, isFree := false })
      (pool.allocate object) := by
  unfold MemPool.allocate
  refine (MemPool.safe_block fun _ => .inl rfl).bind ?_
  rintro block -
  refine Safe.bind (safe_ASSERT fun _ => .inr (.inr ⟨_, rfl⟩)) fun _ _ => ?_
  refine Safe.bind (MemPool.safe_updateNextFreeIndex _) ?_
  rintro pool' ⟨hstore, -⟩
  exact hstore

/-- A completed allocation. -/
lemma Tracks.allocate (h : s.Tracks) (object : T) :
    Safe NoFreshBlock (fun s' => s'.Tracks ∧ s'.pool.size = s.pool.size) (s.step (.allocate object)) := by
  refine (MemPool.safe_allocate s.pool object).bind ?_
  rintro ⟨elem, pool⟩ hal
  refine ⟨fun i => ?_, hal.size⟩
  show pool.InUse i ↔ i ∈ insert elem s.live
  rw [hal.inUse, h i, Finset.mem_insert]

/-- A completed deallocation, which was of a live handle. -/
lemma Tracks.deallocate (h : s.Tracks) (elem : Ptr) :
    Safe (fun _ => True)
      (fun s' => s'.Tracks ∧ s'.pool.size = s.pool.size ∧ elem < s'.pool.size ∧ elem ∉ s'.live)
      (s.step (.deallocate elem)) := by
  refine (MemPool.safe_deallocate s.pool elem).bind ?_
  rintro pool ⟨hinUse, rfl⟩
  refine ⟨fun i => ?_, rfl, hinUse.1, Finset.notMem_erase elem s.live⟩
  show (s.pool.release elem).InUse i ↔ i ∈ s.live.erase elem
  rw [MemPool.inUse_release, h i, Finset.mem_erase]

/-- A completed call. -/
lemma Tracks.step (h : s.Tracks) {call : PoolCall T} {s' : PoolRun T} (hs' : s.step call = .ok s') :
    s'.Tracks ∧ s'.pool.size = s.pool.size := by
  cases call with
  | allocate object => exact (h.allocate object).of_eq_ok hs'
  | deallocate elem =>
    obtain ⟨htracks, hsize, -⟩ := (h.deallocate elem).of_eq_ok hs'
    exact ⟨htracks, hsize⟩

/-- A block that is not in use. -/
lemma Tracks.handsOutFresh (h : s.Tracks) (call : PoolCall T) : s.HandsOutFresh call := by
  rintro object elem pool - hal
  have hfresh := (MemPool.safe_allocate s.pool object).of_eq_ok hal
  have hstore := (safe_allocate_store s.pool object).of_eq_ok hal
  refine ⟨fun hlive => hfresh.fresh ((h elem).mpr hlive), fun i hi => ?_⟩
  rw [show pool.store = _ from hstore, Function.update_of_ne hi]

/-- A handle that is not live stays so, until it is handed out. -/
lemma notMem_step {elem : Ptr} (helem : elem ∉ s.live) {call : PoolCall T}
    (hreturn : s.DoesNotReturn elem call) {s' : PoolRun T} (hs' : s.step call = .ok s') :
    elem ∉ s'.live := by
  cases call with
  | allocate object =>
    obtain ⟨⟨i, pool⟩, hal, hs'⟩ := bind_eq_ok.mp hs'
    cases hs'
    rw [Finset.mem_insert, not_or]
    refine ⟨?_, helem⟩
    rintro rfl
    exact hreturn object pool rfl hal
  | deallocate i =>
    obtain ⟨pool, -, hs'⟩ := bind_eq_ok.mp hs'
    cases hs'
    exact fun hmem => helem (Finset.mem_of_mem_erase hmem)

/-- Deallocating a block of the pool that is not live is caught. -/
lemma Tracks.deallocate_eq_error (h : s.Tracks) {elem : Ptr} (hsize : elem < s.pool.size)
    (helem : elem ∉ s.live) :
    s.pool.deallocate elem = .error (.assert (MemPool.expectedInUseMsg elem)) := by
  have hfree : (s.pool.store elem).isFree ≠ false := fun hused => helem ((h elem).mp ⟨hsize, hused⟩)
  unfold MemPool.deallocate
  rw [ASSERT_of_true hsize, ok_bind, ASSERT, if_neg hfree]
  rfl

/-- **A live block is never handed out.** In every state that a run reaches the blocks in use are the
live handles, every allocation that completes hands out a handle that is not live and changes no other
block, and a second deallocation of a handle without an allocation of it in between fails. -/
theorem neverAliases [Inhabited T] (numElems : ℕ) (calls : List (PoolCall T)) :
    Always step Tracks (start numElems) calls ∧
      Meets step HandsOutFresh (start numElems) calls ∧
      ∀ elem between s s' t, calls.foldlM step (start numElems) = .ok s →
        s.step (.deallocate elem) = .ok s' → Meets step (DoesNotReturn elem) s' between →
        between.foldlM step s' = .ok t →
        t.step (.deallocate elem) = .error (.assert (MemPool.expectedInUseMsg elem)) := by
  have hstart := tracks_start (T := T) numElems
  have htracks : Always step Tracks (start numElems) calls :=
    always_of_step (fun s call s' hs _ hs' => (hs.step hs').1) (fun _ => id) hstart meets_true
  refine ⟨htracks, htracks.meets.mono fun s call hs => hs.handsOutFresh call, ?_⟩
  intro elem between s s' t hs hs' hbetween ht
  have hs : s.Tracks := htracks.last hs
  obtain ⟨hs', -, hlt, helem⟩ := (hs.deallocate elem).of_eq_ok hs'
  -- the handle stays out of the live ones until it is handed out
  have hstep : ∀ (s : PoolRun T) call s', s.Tracks ∧ elem < s.pool.size ∧ elem ∉ s.live →
      s.DoesNotReturn elem call → s.step call = .ok s' → s'.Tracks ∧ elem < s'.pool.size ∧ elem ∉ s'.live := by
    rintro s call s' ⟨hs, hlt, helem⟩ hreturn hs'
    obtain ⟨htracks, hsize⟩ := hs.step hs'
    exact ⟨htracks, hsize ▸ hlt, notMem_step helem hreturn hs'⟩
  obtain ⟨ht, hlt, helem⟩ := inv_of_foldlM hstep ⟨hs', hlt, helem⟩ hbetween ht
  show (t.pool.deallocate elem >>= _) = _
  rw [ht.deallocate_eq_error hlt helem]
  rfl

/-- A block is deallocated twice, with an allocation of another block in between. -/
theorem neverAliases_twice :
    ∃ t, [PoolCall.allocate 7, .deallocate 0, .allocate 8].foldlM step (start 3 : PoolRun ℕ) = .ok t ∧
      t.step (.deallocate 0) = .error (.assert (MemPool.expectedInUseMsg 0)) := by
  refine ⟨_, rfl, (neverAliases 3 [.allocate 7]).2.2 0 [.allocate 8] _ _ _ rfl rfl ⟨?_, fun _ _ => trivial⟩ rfl⟩
  rintro object pool hcall hal
  cases hcall
  have hother : Except.ok (ε := Fault) (1, _) = .ok (0, pool) := hal
  cases hother

/-! ## Availability -/

/-- **The next block is free**, and it is a block of the pool. -/
def NextIsFree (s : PoolRun T) : Prop :=
  s.pool.nextFreeIndex < s.pool.size ∧ (s.pool.store s.pool.nextFreeIndex).isFree = true

/-- A deallocation is of a live handle. -/
def DeallocatesLive (s : PoolRun T) : PoolCall T → Prop
  | .allocate _ => True
  | .deallocate elem => elem ∈ s.live

/-- **An allocation leaves a block that is not live.** -/
def LeavesBlock (numElems : ℕ) (s : PoolRun T) : PoolCall T → Prop
  | .allocate _ => s.live.card + 1 ≤ numElems - 1
  | .deallocate _ => True

/-- Whether a call gives back a live block can be evaluated. -/
instance decidableDeallocatesLive (s : PoolRun T) : ∀ call, Decidable (s.DeallocatesLive call)
  | .allocate _ => .isTrue trivial
  | .deallocate _ => inferInstanceAs (Decidable (_ ∈ _))

/-- Whether a call leaves a block can be evaluated. -/
instance decidableLeavesBlock (numElems : ℕ) (s : PoolRun T) : ∀ call, Decidable (LeavesBlock numElems s call)
  | .allocate _ => inferInstanceAs (Decidable (_ ≤ _))
  | .deallocate _ => .isTrue trivial

/-- The number of allocations. -/
def allocations : List (PoolCall T) → ℕ
  | [] => 0
  | .allocate _ :: calls => allocations calls + 1
  | .deallocate _ :: calls => allocations calls

/-- **The blocks from the next one on were never handed out.** -/
structure Frontier (numElems : ℕ) (s : PoolRun T) : Prop where
  size : s.pool.size = numElems
  tracks : s.Tracks
  lt : s.pool.nextFreeIndex < s.pool.size
  untouched : ∀ i, s.pool.nextFreeIndex ≤ i → i < s.pool.size → (s.pool.store i).isFree = true

variable {numElems : ℕ}

/-- The blocks behind the next one are free at the start. -/
lemma frontier_start [Inhabited T] (hnumElems : 0 < numElems) :
    (start numElems : PoolRun T).Frontier numElems :=
  ⟨rfl, tracks_start numElems, hnumElems, fun _ _ _ => rfl⟩

/-- The next block is free where those behind the last allocation are. -/
lemma Frontier.nextIsFree (h : s.Frontier numElems) : s.NextIsFree := ⟨h.lt, h.untouched _ le_rfl h.lt⟩

/-- Behind the last block the scan leaves the store. -/
lemma Frontier.step_last (h : s.Frontier numElems) (hlast : ¬ s.pool.nextFreeIndex + 1 < s.pool.size)
    (object : T) : s.step (.allocate object) = .error .overrun := by
  have hlt := h.lt
  have hfuel : s.pool.size - s.pool.nextFreeIndex = 1 := by omega
  unfold PoolRun.step MemPool.allocate MemPool.updateNextFreeIndex
  simp only [MemPool.block, if_pos h.lt, ok_bind, ASSERT_of_true h.nextIsFree.2, hfuel, MemPool.scan,
    Function.update_self, Bool.false_eq_true, if_false]
  rfl

/-- An allocation moves the index by one block, if there is one. -/
lemma Frontier.allocate (h : s.Frontier numElems) (hnext : s.pool.nextFreeIndex + 1 < s.pool.size)
    (object : T) :
    s.pool.allocate object = .ok (s.pool.nextFreeIndex,
      { s.pool with
        store := Function.update s.pool.store s.pool.nextFreeIndex { object, isFree := false }
        nextFreeIndex := s.pool.nextFreeIndex + 1 }) := by
  have hfree : (Function.update s.pool.store s.pool.nextFreeIndex { object, isFree := false }
      (s.pool.nextFreeIndex + 1)).isFree = true := by
    rw [Function.update_of_ne (Nat.succ_ne_self _)]
    exact h.untouched _ (Nat.le_succ _) hnext
  have hwrap : (if s.pool.nextFreeIndex + 1 = s.pool.size then 0 else s.pool.nextFreeIndex + 1) =
      s.pool.nextFreeIndex + 1 := if_neg hnext.ne
  obtain ⟨rest, hrest⟩ := Nat.exists_eq_add_of_lt hnext
  have hfuel : s.pool.size - s.pool.nextFreeIndex = rest + 1 + 1 := by omega
  unfold MemPool.allocate MemPool.updateNextFreeIndex
  -- the block itself is passed, the one behind it is free
  simp only [MemPool.block, if_pos h.lt, ok_bind, ASSERT_of_true h.nextIsFree.2, hfuel, MemPool.scan,
    Function.update_self, Bool.false_eq_true, if_false, hfree, if_true, hwrap,
    ASSERT_of_true (Nat.succ_ne_self _).symm]
  rfl

/-- The state after an allocation. -/
lemma Frontier.step_allocate (h : s.Frontier numElems)
    (hnext : s.pool.nextFreeIndex + 1 < s.pool.size) (object : T) :
    ∃ s', s.step (.allocate object) = .ok s' ∧ s'.Frontier numElems ∧
      s'.pool.nextFreeIndex = s.pool.nextFreeIndex + 1 := by
  have hstep : s.step (.allocate object) = _ := congrArg (· >>= _) (h.allocate hnext object)
  obtain ⟨htracks, -⟩ := h.tracks.step hstep
  refine ⟨_, hstep, ⟨h.size, htracks, hnext, fun i hi hlt => ?_⟩, rfl⟩
  have hi : s.pool.nextFreeIndex + 1 ≤ i := hi
  show (Function.update s.pool.store s.pool.nextFreeIndex _ i).isFree = true
  rw [Function.update_of_ne (by omega)]
  exact h.untouched i (by omega) hlt

/-- The state after a deallocation: the index stays, and the block lies behind it. -/
lemma Frontier.step_deallocate (h : s.Frontier numElems) {elem : Ptr} (helem : elem ∈ s.live) :
    ∃ s', s.step (.deallocate elem) = .ok s' ∧ s'.Frontier numElems ∧
      s'.pool.nextFreeIndex = s.pool.nextFreeIndex := by
  have hinUse : s.pool.InUse elem := (h.tracks elem).mpr helem
  have hstep : s.step (.deallocate elem) = _ := congrArg (· >>= _) (MemPool.deallocate_eq hinUse)
  obtain ⟨htracks, -⟩ := h.tracks.step hstep
  refine ⟨_, hstep, ⟨h.size, htracks, h.lt, fun i hi hlt => ?_⟩, rfl⟩
  show (Function.update s.pool.store elem _ i).isFree = true
  by_cases hi' : i = elem
  · rw [hi', Function.update_self]
  · rw [Function.update_of_ne hi']
    exact h.untouched i hi hlt

/-- A call that completes. -/
lemma Frontier.step (h : s.Frontier numElems) {call : PoolCall T} (hlive : s.DeallocatesLive call)
    {s' : PoolRun T} (hs' : s.step call = .ok s') : s'.Frontier numElems := by
  cases call with
  | allocate object =>
    by_cases hnext : s.pool.nextFreeIndex + 1 < s.pool.size
    · obtain ⟨t, ht, hfrontier, -⟩ := h.step_allocate hnext object
      cases ht.symm.trans hs'
      exact hfrontier
    · cases (h.step_last hnext object).symm.trans hs'
  | deallocate elem =>
    obtain ⟨t, ht, hfrontier, -⟩ := h.step_deallocate hlive
    cases ht.symm.trans hs'
    exact hfrontier

/-- **A run uses a block for each of its allocations**, and leaves the store when there is none left. -/
lemma Frontier.run {calls : List (PoolCall T)} (h : s.Frontier numElems)
    (hlive : Meets PoolRun.step DeallocatesLive s calls) :
    Safe (fun e => e = .overrun ∧ ¬ s.pool.nextFreeIndex + allocations calls < numElems)
      (fun _ => s.pool.nextFreeIndex + allocations calls < numElems) (calls.foldlM PoolRun.step s) := by
  induction calls generalizing s with
  | nil => exact h.size ▸ h.lt
  | cons call calls ih =>
    rw [List.foldlM_cons]
    cases call with
    | allocate object =>
      by_cases hnext : s.pool.nextFreeIndex + 1 < s.pool.size
      · obtain ⟨s', hs', hfrontier, hindex⟩ := h.step_allocate hnext object
        have hcount : s'.pool.nextFreeIndex + allocations calls =
            s.pool.nextFreeIndex + allocations (.allocate object :: calls) := by
          rw [hindex, allocations]
          omega
        rw [hs', ok_bind, ← hcount]
        exact ih hfrontier (hlive.2 s' hs')
      · rw [h.step_last hnext object]
        refine ⟨rfl, fun hlt => hnext ?_⟩
        rw [allocations] at hlt
        rw [h.size]
        omega
    | deallocate elem =>
      obtain ⟨s', hs', hfrontier, hindex⟩ := h.step_deallocate hlive.1
      have hcount : s'.pool.nextFreeIndex + allocations calls =
          s.pool.nextFreeIndex + allocations (.deallocate elem :: calls) := by
        rw [hindex, allocations]
      rw [hs', ok_bind, ← hcount]
      exact ih hfrontier (hlive.2 s' hs')

/-- **The runs in which the pool stays available.** Let every deallocation be of a live handle. A run
completes, with a free next block in all of its states, exactly if it has fewer allocations than the pool
has blocks, however many of them are deallocated in between. Any other run leaves the store. -/
theorem available_iff [Inhabited T] (hnumElems : 0 < numElems) {calls : List (PoolCall T)}
    (hlive : Meets step DeallocatesLive (start numElems) calls) :
    ((∃ s, calls.foldlM step (start numElems) = .ok s) ∧ Always step NextIsFree (start numElems) calls ↔
        allocations calls < numElems) ∧
      (calls.foldlM step (start numElems) = .error .overrun ↔ numElems ≤ allocations calls) := by
  have hstart : (start numElems : PoolRun T).Frontier numElems := frontier_start hnumElems
  have hfree : Always step NextIsFree (start numElems) calls :=
    always_of_step (fun s call s' hs hcall hs' => hs.step hcall hs') (fun s hs => hs.nextIsFree) hstart hlive
  have hrun := hstart.run hlive
  have hzero : (start numElems : PoolRun T).pool.nextFreeIndex + allocations calls = allocations calls :=
    Nat.zero_add _
  rw [hzero] at hrun
  obtain ⟨hreturns, hfails⟩ := hrun.exact fun _ => id
  rw [← Nat.not_lt, and_iff_left hfree]
  exact ⟨hreturns, hfails⟩

/-- Two allocations from three blocks, with a deallocation in between. -/
theorem available_iff_of_three :
    ((∃ s, [PoolCall.allocate 7, .deallocate 0, .allocate 8].foldlM step (start 3 : PoolRun ℕ) = .ok s) ∧
        Always step NextIsFree (start 3 : PoolRun ℕ) [.allocate 7, .deallocate 0, .allocate 8] ↔
        allocations [PoolCall.allocate 7, .deallocate 0, .allocate 8] < 3) ∧
      ([PoolCall.allocate 7, .deallocate 0, .allocate 8].foldlM step (start 3 : PoolRun ℕ) = .error .overrun ↔
        3 ≤ allocations [PoolCall.allocate 7, .deallocate 0, .allocate 8]) :=
  available_iff (by decide) (by decide)

/-- **The pool runs out of blocks while all of them are free**: of its two blocks one is live at most. -/
theorem unavailable_while_free :
    Meets step DeallocatesLive (start 2 : PoolRun ℕ) [.allocate 7, .deallocate 0, .allocate 8] ∧
      Meets step (LeavesBlock 2) (start 2 : PoolRun ℕ) [.allocate 7, .deallocate 0, .allocate 8] ∧
      [PoolCall.allocate 7, .deallocate 0, .allocate 8].foldlM step (start 2 : PoolRun ℕ) =
        .error .overrun :=
  ⟨by decide, by decide, rfl⟩

end PoolRun

end Common
