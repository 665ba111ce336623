import BcAllocators.Pool.Failures

/-!
# Reuse of large blocks

`allocate_large` looks at one block of the large pool, the one on top. When that
block is large enough the request takes it; otherwise the block goes back and the
request takes fresh space from the region. A block below the top is not looked at,
whatever its size.

So an allocation of more than the largest class moves the bump pointer, or fails,
exactly when the large pool is empty or its top block is too small
(`large_reuse_iff`). In `twoReleased` the block that would serve the request lies
under one that does not (`large_reuse_misses`).
-/

set_option autoImplicit false

namespace BcAllocators

open Machine

variable {core : BcCore} {platform : Platform} {w : World} {spans : List Span}
variable {held free : PoolKind → List Nat} {size total : Nat}

/-- The total size that a large block records covers header and request, rounded
to pages. -/
def FitsLarge (platform : Platform) (m : Memory) (size block : Nat) : Prop :=
  roundUp (largeMetaSize + size) platform.pageSize ≤ metaTotalSize m block

/-- An allocation has advanced the bump pointer, or returned false. -/
def TakesFresh (w : World) (result : World × PtrResult) : Prop :=
  w.ctx.region.bump < result.1.ctx.region.bump ∨ result.2.ok = false

/-! ## `allocate_large` -/

/-- A top block that is large enough is handed out. -/
theorem PoolHeap.allocateLarge_top {a : Nat} {rest : List Nat}
    (heap : PoolHeap platform w spans held free) (first : free .large = a :: rest)
    (rounded : largeTotal core w.ctx size = some total) (fits : total ≤ metaTotalSize w.mem a) :
    allocateLarge core w size =
      ({ (popFree w .large).1 with mem := storeWord w.mem a size }, a + largeMetaSize) := by
  obtain ⟨same, nonnull, _⟩ := heap.popped first
  unfold allocateLarge
  rw [rounded]
  dsimp only
  rw [if_pos nonnull, same, popFree_mem, if_pos (show metaTotalSize w.mem a ≥ total from fits)]

/-- When no top block is large enough the region is asked. -/
theorem PoolHeap.allocateLarge_fresh (heap : PoolHeap platform w spans held free)
    (rounded : largeTotal core w.ctx size = some total)
    (unfit : ∀ top ∈ (free .large).head?, ¬ total ≤ metaTotalSize w.mem top) :
    ∃ w', SameButLists w w' ∧ (∃ free', PoolHeap platform w' spans held free') ∧
      allocateLarge core w size = bumpAllocateLarge w' total size := by
  unfold allocateLarge
  rw [rounded]
  dsimp only
  cases list : free .large with
  | nil =>
      refine ⟨w, .refl w, ⟨free, heap⟩, ?_⟩
      rw [heap.pop_nil list, if_neg (by simp)]
  | cons a rest =>
      obtain ⟨same, nonnull, _⟩ := heap.popped list
      have small : ¬ total ≤ metaTotalSize w.mem a := unfit a (by rw [list, List.head?_cons]; rfl)
      refine ⟨_, .popPush w .large a, (heap.pushBack list).heap, ?_⟩
      rw [if_pos nonnull, same, popFree_mem,
        if_neg (show ¬ metaTotalSize w.mem a ≥ total from small)]

/-- Space from the region moves the bump pointer. -/
theorem bumpAllocateLarge_fresh (heap : PoolHeap platform w spans held free) (size : Nat)
    (pos : 0 < total) (noWrap : w.ctx.region.bump + total < 2 ^ 64) :
    w.ctx.region.bump < (bumpAllocateLarge w total size).1.ctx.region.bump ∨
      (bumpAllocateLarge w total size).2 = NULL := by
  by_cases room : w.ctx.region.bump + total ≤ w.ctx.region.totalSize
  · left
    rw [bumpAllocateLarge_room heap room]
    exact Nat.lt_add_of_pos_right pos
  · right
    rw [bumpAllocateLarge_full (by rw [wadd_of_lt noWrap]; omega)]

/-! ## Allocations above the largest class -/

/-- A large request is a call of `allocate_large`, tracked when it succeeds. -/
theorem poolAllocate_large (core : BcCore) (w : World) (large : maxClassSize < size) :
    poolAllocate core w size =
      if (allocateLarge core w size).2 = NULL then ((allocateLarge core w size).1, .failed)
      else
        ({ (allocateLarge core w size).1 with
            ctx := trackAlloc (allocateLarge core w size).1.ctx size },
          ⟨true, (allocateLarge core w size).2⟩) := by
  have nonzero : size ≠ 0 := by omega
  unfold poolAllocate
  rw [if_neg nonzero, (sizeClassForSize_none core).mpr large]

/-- A top block that is large enough serves the request, and the bump pointer stays. -/
theorem PoolHeap.poolAllocate_top {a : Nat} {rest : List Nat}
    (heap : PoolHeap platform w spans held free) (first : free .large = a :: rest)
    (large : maxClassSize < size) (within : size ≤ w.ctx.region.totalSize)
    (fits : FitsLarge platform w.mem size a) :
    (poolAllocate core w size).2 = ⟨true, a + largeMetaSize⟩ ∧
      (poolAllocate core w size).1.ctx.region = w.ctx.region := by
  have rounded := largeTotal_within core heap.geometry within
  have user : a + largeMetaSize ≠ NULL := by
    unfold largeMetaSize NULL
    omega
  rw [poolAllocate_large core w large, heap.allocateLarge_top first rounded fits, if_neg user]
  refine ⟨rfl, ?_⟩
  rw [trackAlloc_region]
  exact Context.setFreeList_region _ _ _

/-- Without such a block the request takes fresh space or fails. -/
theorem PoolHeap.poolAllocate_fresh (heap : PoolHeap platform w spans held free)
    (large : maxClassSize < size) (within : size ≤ w.ctx.region.totalSize)
    (unfit : ∀ top ∈ (free .large).head?, ¬ FitsLarge platform w.mem size top) :
    TakesFresh w (poolAllocate core w size) := by
  have rounded := largeTotal_within core heap.geometry within
  obtain ⟨w', same, ⟨free', heap'⟩, asked⟩ := heap.allocateLarge_fresh rounded unfit
  have enough : largeMetaSize + size ≤ roundUp (largeMetaSize + size) platform.pageSize :=
    le_roundUp platform.pageSize_pos
  have pos : 0 < roundUp (largeMetaSize + size) platform.pageSize := by omega
  have noWrap := largeTotal_no_wrap core heap within rounded
  rw [← same.region] at noWrap
  unfold TakesFresh
  rw [poolAllocate_large core w large, asked, ← same.region]
  rcases bumpAllocateLarge_fresh heap' size pos noWrap with moved | null
  · left
    split
    · exact moved
    · simpa using moved
  · right
    rw [if_pos null]
    rfl

/-- **Large blocks are reused from the top.** In every reachable state, an allocation
of more than the largest class and at most the region advances the bump pointer or
returns false exactly when the large pool is empty or its top block is too small. A
top block that is large enough is handed out. -/
theorem large_reuse_iff (core : BcCore) (platform : Platform) {s : PoolState}
    (reachable : (poolSystem core platform).Reachable s) {size : Nat}
    (large : maxClassSize < size) (within : size ≤ s.world.ctx.region.totalSize) :
    ∃ blocks, s.world.ctx.largePool.Holds s.world.mem blocks ∧
      (TakesFresh s.world (poolAllocate core s.world size) ↔
        ∀ top ∈ blocks.head?, ¬ FitsLarge platform s.world.mem size top) ∧
      ∀ top ∈ blocks.head?, FitsLarge platform s.world.mem size top →
        (poolAllocate core s.world size).2 = ⟨true, top + largeMetaSize⟩ ∧
          (poolAllocate core s.world size).1.ctx.region.bump = s.world.ctx.region.bump := by
  obtain ⟨free, heap⟩ := (PoolInv.reachable reachable).heap
  have served : ∀ top ∈ (free .large).head?, FitsLarge platform s.world.mem size top →
      (poolAllocate core s.world size).2 = ⟨true, top + largeMetaSize⟩ ∧
        (poolAllocate core s.world size).1.ctx.region.bump = s.world.ctx.region.bump := by
    intro top first fits
    obtain ⟨rest, list⟩ := List.head?_eq_some_iff.mp first
    obtain ⟨result, region⟩ := heap.poolAllocate_top list large within fits
    exact ⟨result, by rw [region]⟩
  refine ⟨free .large, heap.lists .large, ⟨?_, ?_⟩, served⟩
  · intro fresh top first fits
    obtain ⟨result, bump⟩ := served top first fits
    rcases fresh with moved | failed
    · omega
    · rw [result] at failed
      simp at failed
  · exact heap.poolAllocate_fresh large within

/-! ## A block under the top -/

/-- A fresh context with a region of 32 MiB. -/
def thirtyTwoMiB : PoolState where
  world :=
    { ctx := initContext BcCore.reference Platform.x86 ⟨33554432, true, 1, 7⟩ 4096 1048576 8192
        33554432 8192 4096
      mem := fillBytes (fillBytes (fillBytes (fun _ => 0) 4096 4096 0) 1048576 33554432 0)
        8192 8192 0
      kernel :=
        { mapped := [⟨8192, 8192⟩, ⟨1048576, 33554432⟩, ⟨4096, 4096⟩]
          mapLog := [⟨8192, 8192⟩, ⟨1048576, 33554432⟩, ⟨4096, 4096⟩]
          unmapLog := [] } }
  live := []
  spans := []

theorem thirtyTwoMiB_start :
    (poolSystem BcCore.reference Platform.x86).Start thirtyTwoMiB := by
  refine ⟨some ⟨33554432, true, 1, 7⟩, ⟨[], [], []⟩, fun _ => 0,
    ⟨some 4096, some 1048576, some 8192⟩, ?_, rfl, by decide, rfl, rfl⟩
  rintro c ⟨rfl⟩
  decide

/-- Blocks of 8 MiB and of 5 MiB have been allocated. -/
def twoLarge : PoolState :=
  ((thirtyTwoMiB.perform BcCore.reference (.allocate 8388608)).1.perform BcCore.reference
    (.allocate 5242880)).1

/-- The block of 8 MiB has been released, and then the one of 5 MiB. -/
def twoReleased : PoolState :=
  ((twoLarge.perform BcCore.reference (.free 1048592)).1.perform BcCore.reference
    (.free 9441296)).1

theorem twoReleased_reachable :
    (poolSystem BcCore.reference Platform.x86).Reachable twoReleased := by
  apply reachable_perform
  · apply reachable_perform
    · apply reachable_perform
      · apply reachable_perform _ (.start thirtyTwoMiB_start)
        exact show (8388608 : Nat) ≤ 33554432 by decide
      · exact show (5242880 : Nat) ≤ _ by decide +kernel
    · exact Or.inr (Or.inr ⟨⟨1048592, 8388608⟩, by decide +kernel, rfl⟩)
  · exact Or.inr (Or.inr ⟨⟨9441296, 5242880⟩, by decide +kernel, rfl⟩)

theorem twoReleased_total : twoReleased.world.ctx.region.totalSize = 33554432 := by
  decide +kernel

/-- The released block of 8 MiB lies under the one of 5 MiB. -/
theorem twoReleased_magazine :
    twoReleased.world.ctx.largePool.magazine = [9441280, 1048576] := by
  decide +kernel

theorem large_reuse_iff_twoReleased :
    ∃ blocks, twoReleased.world.ctx.largePool.Holds twoReleased.world.mem blocks ∧
      (TakesFresh twoReleased.world (poolAllocate BcCore.reference twoReleased.world 8388608) ↔
        ∀ top ∈ blocks.head?, ¬ FitsLarge Platform.x86 twoReleased.world.mem 8388608 top) ∧
      ∀ top ∈ blocks.head?, FitsLarge Platform.x86 twoReleased.world.mem 8388608 top →
        (poolAllocate BcCore.reference twoReleased.world 8388608).2 =
            ⟨true, top + largeMetaSize⟩ ∧
          (poolAllocate BcCore.reference twoReleased.world 8388608).1.ctx.region.bump =
            twoReleased.world.ctx.region.bump :=
  large_reuse_iff BcCore.reference Platform.x86 twoReleased_reachable (by decide)
    (by rw [twoReleased_total]; decide)

/-- An allocation of 8 MiB then takes fresh space, though a block for it is in the
large pool. -/
theorem large_reuse_misses :
    (poolSystem BcCore.reference Platform.x86).Reachable twoReleased ∧
      maxClassSize < 8388608 ∧ 8388608 ≤ twoReleased.world.ctx.region.totalSize ∧
      ∃ blocks, twoReleased.world.ctx.largePool.Holds twoReleased.world.mem blocks ∧
        (∃ block ∈ blocks, FitsLarge Platform.x86 twoReleased.world.mem 8388608 block) ∧
        TakesFresh twoReleased.world
          (poolAllocate BcCore.reference twoReleased.world 8388608) := by
  refine ⟨twoReleased_reachable, by decide, by rw [twoReleased_total]; decide, ?_⟩
  obtain ⟨free, heap⟩ := (PoolInv.reachable twoReleased_reachable).heap
  have holds : twoReleased.world.ctx.largePool.Holds twoReleased.world.mem (free .large) :=
    heap.lists .large
  obtain ⟨chain, split, _⟩ := holds.split
  rw [twoReleased_magazine] at split
  refine ⟨free .large, holds, ⟨1048576, ?_, ?_⟩, Or.inl ?_⟩
  · rw [split]
    simp
  · exact show (8392704 : Nat) ≤ metaTotalSize twoReleased.world.mem 1048576 by decide +kernel
  · decide +kernel

end BcAllocators
