import Mathlib.Logic.Function.Basic
import HftSystem.Lib.Fallible
import HftSystem.Common.Types

set_option relaxedAutoImplicit false
set_option autoImplicit false

/-!
# The memory pool

`utils/mem_pool.h`: a vector of blocks with a free flag each, and the index of the block the
next allocation hands out. A deallocated block keeps its object, as in the source, where
nothing is destroyed.

## Main definitions

* `Common.MemPool` with `allocate`, `deallocate` and the scan `updateNextFreeIndex`.
* `Common.MemPool.InUse` — the blocks that are handed out.
* `Common.NoFreshBlock` — the failures of a pool that has no fresh block to supply.

## Main results

* `Common.MemPool.safe_allocate` — an allocation returns a block that was not in use, or the
  pool has no fresh block.
* `Common.MemPool.deallocate_eq` — deallocating a block in use succeeds.
* `Common.MemPool.allocate_isOk_iff` — the pools that can supply a block.
-/

namespace Common

open Fallible

/-- `MemPool::ObjectBlock`. -/
structure ObjectBlock (T : Type) where
  object : T
  isFree : Bool := true

/-- `MemPool`: the vector `store_` of `size` blocks, and `next_free_index_`. -/
structure MemPool (T : Type) where
  size : ℕ
  store : ℕ → ObjectBlock T
  nextFreeIndex : ℕ := 0

namespace MemPool

variable {T : Type}

/-- The constructor: `numElems` free blocks. -/
def new [Inhabited T] (numElems : ℕ) : MemPool T :=
  { size := numElems, store := fun _ => { object := default } }

/-- The object in a block. -/
def get (pool : MemPool T) (i : Ptr) : T := (pool.store i).object

/-- Write to the object in a block through a pointer. -/
def modify (pool : MemPool T) (i : Ptr) (f : T → T) : MemPool T :=
  { pool with
    store := Function.update pool.store i { pool.store i with object := f (pool.store i).object } }

/-- The block is handed out: it lies in the store and its `is_free_` is false. -/
def InUse (pool : MemPool T) (i : Ptr) : Prop := i < pool.size ∧ (pool.store i).isFree = false

/-- Whether a block is in use can be evaluated. -/
instance (pool : MemPool T) (i : Ptr) : Decidable (pool.InUse i) :=
  inferInstanceAs (Decidable (_ ∧ _))

/-- `store_[i]`. -/
def block (pool : MemPool T) (i : ℕ) : Except Fault (ObjectBlock T) :=
  if i < pool.size then .ok (pool.store i) else .error .overrun

/-- `while (!store_[next_free_index_].is_free_) ++next_free_index_;` with `fuel` blocks left to
look at: the read of the block after the last one is out of bounds. -/
def scan (pool : MemPool T) : ℕ → ℕ → Except Fault ℕ
  | 0, _ => .error .overrun
  | fuel + 1, i => if (pool.store i).isFree then .ok i else scan pool fuel (i + 1)

/-- The text of the assertion in `updateNextFreeIndex`. -/
def outOfSpaceMsg : String := "Memory Pool out of space."

/-- The text of the assertion in `allocate`. -/
def expectedFreeMsg (i : ℕ) : String := "Expected free ObjectBlock at index " ++ toString i

/-- The text of the first assertion of `deallocate`. -/
def foreignMsg : String := "Element being deallocated does not belong to this Memory pool."

/-- The text of the second assertion of `deallocate`, with the index it prints. -/
def expectedInUseMsg (i : ℕ) : String := "Expected in-use ObjectBlock at index: " ++ toString i

/-- `MemPool::updateNextFreeIndex`. -/
def updateNextFreeIndex (pool : MemPool T) : Except Fault (MemPool T) := do
  let initialFreeIndex := pool.nextFreeIndex
  let i ← pool.scan (pool.size - pool.nextFreeIndex) pool.nextFreeIndex
  let i := if i = pool.size then 0 else i
  ASSERT (initialFreeIndex ≠ i) outOfSpaceMsg
  return { pool with nextFreeIndex := i }

/-- `MemPool::allocate`: the object is constructed in the block at `next_free_index_`. -/
def allocate (pool : MemPool T) (object : T) : Except Fault (Ptr × MemPool T) := do
  let i := pool.nextFreeIndex
  let objBlock ← pool.block i
  ASSERT (objBlock.isFree = true) (expectedFreeMsg i)
  let pool ← updateNextFreeIndex
    { pool with store := Function.update pool.store i { object, isFree := false } }
  return (i, pool)

/-- `MemPool::deallocate`. -/
def deallocate (pool : MemPool T) (i : Ptr) : Except Fault (MemPool T) := do
  ASSERT (i < pool.size) foreignMsg
  ASSERT ((pool.store i).isFree = false) (expectedInUseMsg i)
  return { pool with store := Function.update pool.store i { pool.store i with isFree := true } }

end MemPool

/-- The failures of `MemPool::allocate`: the pool does not supply a fresh block. -/
def NoFreshBlock (f : Fault) : Prop :=
  f = .overrun ∨ f = .assert MemPool.outOfSpaceMsg ∨ ∃ i, f = .assert (MemPool.expectedFreeMsg i)

namespace MemPool

variable {T : Type}

/-- Writing to a block changes what it holds. -/
@[simp] lemma get_modify (pool : MemPool T) (i : Ptr) (f : T → T) :
    (pool.modify i f).get = Function.update pool.get i (f (pool.get i)) := by
  funext j
  by_cases h : j = i
  · subst h; simp [get, modify]
  · simp [get, modify, h]

/-- Writing to a block does not change which blocks are in use. -/
@[simp] lemma inUse_modify (pool : MemPool T) (i : Ptr) (f : T → T) :
    (pool.modify i f).InUse = pool.InUse := by
  funext j
  by_cases h : j = i
  · subst h; simp [InUse, modify]
  · simp [InUse, modify, h]

/-- No block of a new pool is in use. -/
@[simp] lemma not_inUse_new [Inhabited T] (n : ℕ) (i : Ptr) : ¬ (new n : MemPool T).InUse i := by
  simp [InUse, new]

/-- What an allocation does to the pool: block `i` was free and now holds the object, and
nothing else changes. -/
structure Allocated (pool pool' : MemPool T) (object : T) (i : Ptr) : Prop where
  fresh : ¬ pool.InUse i
  inUse : ∀ j, pool'.InUse j ↔ j = i ∨ pool.InUse j
  get : pool'.get = Function.update pool.get i object
  size : pool'.size = pool.size

/-- A block read is in bounds or overruns the store. -/
lemma safe_block {allow : Fault → Prop} {pool : MemPool T} {i : ℕ}
    (h : pool.size ≤ i → allow .overrun) :
    Safe allow (fun b => i < pool.size ∧ b = pool.store i) (pool.block i) := by
  unfold block
  split
  · exact ⟨‹_›, rfl⟩
  · exact h (Nat.le_of_not_lt ‹_›)

/-- The scan fails only by leaving the store. -/
lemma safe_scan (pool : MemPool T) (fuel i : ℕ) :
    Safe (fun f => f = .overrun) (fun _ => True) (pool.scan fuel i) := by
  induction fuel generalizing i with
  | zero => exact rfl
  | succ fuel ih =>
    simp only [scan]
    split
    · trivial
    · exact ih (i + 1)

/-- The scan changes nothing but the next free index, or the pool has no free block left. -/
lemma safe_updateNextFreeIndex (pool : MemPool T) :
    Safe NoFreshBlock (fun pool' => pool'.store = pool.store ∧ pool'.size = pool.size)
      pool.updateNextFreeIndex := by
  refine Safe.bind ((safe_scan pool _ _).mono (fun f hf => Or.inl hf) fun _ h => h) ?_
  intro i _
  refine Safe.bind (safe_ASSERT fun _ => Or.inr (Or.inl rfl)) fun _ _ => ?_
  exact ⟨rfl, rfl⟩

/-- **An allocation returns a block that was not in use**, or the pool has no fresh block. -/
theorem safe_allocate (pool : MemPool T) (object : T) :
    Safe NoFreshBlock (fun r => Allocated pool r.2 object r.1) (pool.allocate object) := by
  unfold allocate
  refine Safe.bind (safe_block fun _ => Or.inl rfl) ?_
  rintro _ ⟨hsize, rfl⟩
  refine Safe.bind (safe_ASSERT fun _ => Or.inr (Or.inr ⟨_, rfl⟩)) fun _ hfree => ?_
  refine Safe.bind (safe_updateNextFreeIndex _) ?_
  rintro pool' ⟨hstore, hsz⟩
  refine ⟨by simp [InUse, hfree], fun j => ?_, ?_, hsz⟩
  · simp only [InUse, hstore, hsz, Function.update_apply]
    by_cases hj : j = pool.nextFreeIndex
    · simp [hj, hsize]
    · simp [hj]
  · funext j
    simp only [MemPool.get, hstore, Function.update_apply]
    split <;> rfl

/-- A new pool of at least two blocks hands out its first block. -/
lemma allocate_new [Inhabited T] {n : ℕ} (h : 2 ≤ n) (x : T) :
    (new n : MemPool T).allocate x = .ok (0,
      { size := n
        store := Function.update (new n : MemPool T).store 0 { object := x, isFree := false }
        nextFreeIndex := 1 }) := by
  obtain ⟨m, rfl⟩ : ∃ m, n = m + 2 := ⟨n - 2, by omega⟩
  simp [allocate, new, block, updateNextFreeIndex, scan, ASSERT]

/-- The pool after a successful deallocation. -/
def release (pool : MemPool T) (i : Ptr) : MemPool T :=
  { pool with store := Function.update pool.store i { pool.store i with isFree := true } }

/-- **Deallocating a block in use succeeds.** -/
theorem deallocate_eq {pool : MemPool T} {i : Ptr} (h : pool.InUse i) :
    pool.deallocate i = .ok (pool.release i) := by
  simp only [deallocate, ASSERT, h.1, h.2, if_true]
  rfl

/-- A deallocation that does not fail is of a block in use. -/
theorem safe_deallocate (pool : MemPool T) (i : Ptr) :
    Safe (fun _ => True) (fun pool' => pool.InUse i ∧ pool' = pool.release i)
      (pool.deallocate i) := by
  have hassert : ∀ (cond : Prop) [Decidable cond] (msg : String),
      Safe (fun _ => True) (fun _ => cond) (ASSERT cond msg) := fun cond _ msg =>
    safe_ASSERT fun _ => trivial
  unfold deallocate
  refine (hassert _ _).bind fun _ hsize => (hassert _ _).bind fun _ hused => ?_
  exact ⟨⟨hsize, hused⟩, rfl⟩

/-- The blocks in use after one was released. -/
@[simp] lemma inUse_release (pool : MemPool T) (i j : Ptr) :
    (pool.release i).InUse j ↔ j ≠ i ∧ pool.InUse j := by
  by_cases h : j = i
  · subst h; simp [InUse, release]
  · simp [InUse, release, h]

/-- Releasing a block does not change what the blocks hold. -/
@[simp] lemma get_release (pool : MemPool T) (i : Ptr) : (pool.release i).get = pool.get := by
  funext j
  by_cases h : j = i
  · subst h; simp [get, release]
  · simp [get, release, h]

/-! ## Pools that can supply a block -/

/-- The next block is free, and so is one behind it: what an allocation needs. -/
def HasFresh (pool : MemPool T) : Prop :=
  pool.nextFreeIndex < pool.size ∧ (pool.store pool.nextFreeIndex).isFree = true ∧
    ∃ j, pool.nextFreeIndex < j ∧ j < pool.size ∧ (pool.store j).isFree = true

/-- The scan finds a free block if there is one. -/
lemma scan_spec (pool : MemPool T) (fuel i : ℕ) :
    Safe (fun _ => ∀ j, i ≤ j → j < i + fuel → (pool.store j).isFree = false)
      (fun j => i ≤ j ∧ j < i + fuel ∧ (pool.store j).isFree = true) (pool.scan fuel i) := by
  induction fuel generalizing i with
  | zero =>
    intro j hj hlt
    omega
  | succ fuel ih =>
    unfold scan
    split
    · next hfree => exact ⟨le_rfl, by omega, hfree⟩
    · next hused =>
      refine (ih (i + 1)).mono (fun _ hnone j hj hlt => ?_) ?_
      · rcases Nat.lt_or_eq_of_le hj with hij | rfl
        · exact hnone j hij (by omega)
        · exact Bool.eq_false_iff.mpr hused
      · rintro j ⟨hj, hlt, hfree⟩
        exact ⟨by omega, by omega, hfree⟩

/-- **The pools that can supply a block.** The search for the next free block must end before the
end of the store.

**Proof sketch.** The scan goes over the store in which the block is taken already (`scan_spec`). If
the allocation returns, the scan has found another free block, which lies behind the next one. If there
is such a block, the scan ends at the first one, which is not the block that was taken and lies in
front of the end. -/
theorem allocate_isOk_iff (pool : MemPool T) (object : T) :
    (∃ r, pool.allocate object = .ok r) ↔ pool.HasFresh := by
  set i := pool.nextFreeIndex with hi
  set pool' : MemPool T :=
    { pool with store := Function.update pool.store i { object, isFree := false } } with hpool'
  have hstore : ∀ j, (pool'.store j).isFree = true ↔ j ≠ i ∧ (pool.store j).isFree = true := by
    intro j
    by_cases hj : j = i <;> simp [hpool', hj]
  have hscan := pool'.scan_spec (pool.size - i) i
  constructor
  · rintro ⟨r, hr⟩
    obtain ⟨block, hblock, hr⟩ := bind_eq_ok.mp hr
    obtain ⟨u, hassert, hr⟩ := bind_eq_ok.mp hr
    obtain ⟨next, hnext, -⟩ := bind_eq_ok.mp hr
    obtain ⟨j, hj, -⟩ := bind_eq_ok.mp hnext
    have hsize : i < pool.size ∧ block = pool.store i := by
      unfold MemPool.block at hblock
      split at hblock
      · next hlt => exact ⟨hlt, (Except.ok.inj hblock).symm⟩
      · cases hblock
    obtain ⟨hlt, rfl⟩ := hsize
    have hfree : (pool.store i).isFree = true := by
      unfold ASSERT at hassert
      split at hassert
      · next h => exact h
      · cases hassert
    obtain ⟨hij, hjlt, hjfree⟩ := hscan.of_eq_ok hj
    obtain ⟨hne, hjfree⟩ := (hstore j).mp hjfree
    exact ⟨hlt, hfree, j, by omega, by omega, hjfree⟩
  · rintro ⟨hlt, hfree, j, hij, hjlt, hjfree⟩
    cases hs : pool'.scan (pool.size - i) i with
    | error e =>
      rw [hs] at hscan
      have hused := hscan j (by omega) (by omega)
      rw [(hstore j).mpr ⟨by omega, hjfree⟩] at hused
      cases hused
    | ok k =>
      rw [hs] at hscan
      obtain ⟨hik, hklt, hkfree⟩ := hscan
      have hne := ((hstore k).mp hkfree).1
      have hk : (if k = pool.size then 0 else k) = k := if_neg (by omega)
      have hupdate : pool'.updateNextFreeIndex = .ok { pool' with nextFreeIndex := k } := by
        refine bind_eq_ok.mpr ⟨k, hs, ?_⟩
        show (ASSERT (i ≠ if k = pool.size then 0 else k) outOfSpaceMsg >>= _) = _
        rw [hk, ASSERT_of_true hne.symm]
        rfl
      exact ⟨_, bind_eq_ok.mpr ⟨pool.store i, if_pos hlt, bind_eq_ok.mpr
        ⟨(), ASSERT_of_true hfree _, bind_eq_ok.mpr ⟨_, hupdate, rfl⟩⟩⟩⟩

/-- A pool that can supply a block supplies one. -/
lemma safe_allocate_of_hasFresh {pool : MemPool T} (h : pool.HasFresh) (object : T) :
    Safe (fun _ => False) (fun r => Allocated pool r.2 object r.1) (pool.allocate object) := by
  obtain ⟨r, hr⟩ := (pool.allocate_isOk_iff object).mpr h
  have hal := safe_allocate pool object
  rw [hr] at hal ⊢
  exact hal

end MemPool

end Common
