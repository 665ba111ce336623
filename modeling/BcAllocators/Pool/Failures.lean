import BcAllocators.Pool.Oversize

/-!
# Failed calls

A call of the pool that returns false has no effect. Its exits are many: a null
size, an overflow of the header or of the rounding, a class or a large request
that the region has no room for, and a move whose allocation failed. One of them
comes after a step that did something, for `allocate_large` pops a block, finds
it too small and pushes it back; the push goes to the magazine, where the pop
has made room, and so writes no memory.

`SameButLists` says that two worlds differ in the arrangement of their free
lists alone. Each failed function of the source leaves such a world
(`poolAllocate_failed`, `poolReallocate_failed`), and the heap invariant adds
that the lists hold the same blocks (`failed_call_changes_nothing`).
-/

set_option autoImplicit false

namespace BcAllocators

open Machine

variable {core : BcCore} {platform : Platform} {w w' w'' : World} {spans : List Span}
variable {held free free' : PoolKind → List Nat} {kind : PoolKind} {s : PoolState} {size : Nat}

/-! ## Worlds that differ in their free lists -/

/-- The worlds are the same but for their free lists. -/
def SameButLists (w w' : World) : Prop :=
  ∃ pools largePool,
    w' = { w with ctx := { w.ctx with pools := pools, largePool := largePool } }

namespace SameButLists

theorem refl (w : World) : SameButLists w w := ⟨w.ctx.pools, w.ctx.largePool, rfl⟩

theorem trans (first : SameButLists w w') (second : SameButLists w' w'') :
    SameButLists w w'' := by
  obtain ⟨_, _, rfl⟩ := first
  obtain ⟨pools, largePool, rfl⟩ := second
  exact ⟨pools, largePool, rfl⟩

theorem region (same : SameButLists w w') : w'.ctx.region = w.ctx.region := by
  obtain ⟨_, _, rfl⟩ := same
  rfl

theorem pop (w : World) (kind : PoolKind) : SameButLists w (popFree w kind).1 := by
  cases kind with
  | sized cls => exact ⟨_, _, rfl⟩
  | large => exact ⟨_, _, rfl⟩

/-- A push that finds room in the magazine writes no memory. -/
theorem push (room : (w.ctx.freeList kind).magCount < magSize) (ptr : Nat) :
    SameButLists w (pushFree w kind ptr) := by
  have memory : (freeListPush (w.ctx.freeList kind) w.mem ptr).2 = w.mem := by
    unfold freeListPush
    rw [dif_pos room]
  cases kind with
  | sized cls =>
      refine ⟨(pushFree w (.sized cls) ptr).ctx.pools, w.ctx.largePool, ?_⟩
      simp only [pushFree, memory, Context.setFreeList]
  | large =>
      refine ⟨w.ctx.pools, (pushFree w .large ptr).ctx.largePool, ?_⟩
      simp only [pushFree, memory, Context.setFreeList]

/-- A block popped and pushed back. -/
theorem popPush (w : World) (kind : PoolKind) (ptr : Nat) :
    SameButLists w (pushFree (popFree w kind).1 kind ptr) := by
  refine (pop w kind).trans (push ?_ ptr)
  unfold popFree
  rw [Context.freeList_setFreeList]
  exact freeListPop_room _ _

end SameButLists

/-! ## The failing branches -/

/-- A failed `bump_raw` leaves the context as it is. -/
theorem bumpRaw_failed {ctx : Context} {bytes : Nat} (base : 0 < ctx.region.base)
    (failed : (bumpRaw ctx bytes).2 = NULL) : (bumpRaw ctx bytes).1 = ctx := by
  by_cases room : wadd ctx.region.bump bytes ≤ ctx.region.totalSize
  · rw [bumpRaw_room room] at failed
    unfold NULL at failed
    dsimp only at failed
    omega
  · rw [bumpRaw_full (Nat.lt_of_not_le room)]

theorem bumpAllocateClass_failed {cls : Nat} (base : 0 < w.ctx.region.base)
    (failed : (bumpAllocateClass core w cls).2 = NULL) :
    (bumpAllocateClass core w cls).1 = w := by
  unfold bumpAllocateClass at failed ⊢
  cases rounded : classBumpSize core w.ctx cls with
  | none => rfl
  | some bumpSize =>
      rw [rounded] at failed
      dsimp only at failed ⊢
      by_cases null : (bumpRaw w.ctx bumpSize).2 = NULL
      · rw [if_pos null, bumpRaw_failed base null]
      · rw [if_neg null] at failed
        exact absurd failed null

theorem bumpAllocateLarge_failed {total : Nat} (base : 0 < w.ctx.region.base)
    (failed : (bumpAllocateLarge w total size).2 = NULL) :
    (bumpAllocateLarge w total size).1 = w := by
  unfold bumpAllocateLarge at failed ⊢
  dsimp only at failed ⊢
  by_cases null : (bumpRaw w.ctx total).2 = NULL
  · rw [if_pos null, bumpRaw_failed base null]
  · rw [if_neg null] at failed
    unfold NULL largeMetaSize at failed
    dsimp only at failed
    omega

/-- A failed `allocate_large` has at most put back the block that it popped. -/
theorem allocateLarge_failed (base : 0 < w.ctx.region.base)
    (failed : (allocateLarge core w size).2 = NULL) :
    SameButLists w (allocateLarge core w size).1 := by
  unfold allocateLarge at failed ⊢
  cases rounded : largeTotal core w.ctx size with
  | none => exact .refl w
  | some total =>
      rw [rounded] at failed
      dsimp only at failed ⊢
      by_cases some : (popFree w .large).2 ≠ NULL
      · rw [if_pos some] at failed ⊢
        split
        · next fits =>
            rw [if_pos fits] at failed
            unfold NULL largeMetaSize at failed
            dsimp only at failed
            omega
        · next small =>
            rw [if_neg small] at failed
            have back := SameButLists.popPush w .large (popFree w .large).2
            rw [bumpAllocateLarge_failed (back.region.symm ▸ base) failed]
            exact back
      · rw [if_neg some] at failed ⊢
        have popped := SameButLists.pop w .large
        rw [bumpAllocateLarge_failed (popped.region.symm ▸ base) failed]
        exact popped

/-- **A failed `bc_allocators_pool_allocate`** gives null and has changed the
arrangement of the free lists at most. -/
theorem poolAllocate_failed (base : 0 < w.ctx.region.base)
    (failed : (poolAllocate core w size).2.ok = false) :
    (poolAllocate core w size).2 = .failed ∧ SameButLists w (poolAllocate core w size).1 := by
  unfold poolAllocate at failed ⊢
  by_cases zero : size = 0
  · rw [if_pos zero]
    exact ⟨rfl, .refl w⟩
  rw [if_neg zero] at failed ⊢
  cases classified : sizeClassForSize core size with
  | none =>
      rw [classified] at failed
      dsimp only at failed ⊢
      by_cases null : (allocateLarge core w size).2 = NULL
      · rw [if_pos null]
        exact ⟨rfl, allocateLarge_failed base null⟩
      · rw [if_neg null] at failed
        simp at failed
  | some cls =>
      rw [classified] at failed
      dsimp only at failed ⊢
      have popped := SameButLists.pop w (.sized cls)
      by_cases some : (popFree w (.sized cls)).2 ≠ NULL
      · rw [if_pos some] at failed
        simp at failed
      rw [if_neg some] at failed ⊢
      by_cases null : (bumpAllocateClass core (popFree w (.sized cls)).1 cls).2 = NULL
      · rw [if_pos null, bumpAllocateClass_failed (popped.region.symm ▸ base) null]
        exact ⟨rfl, popped⟩
      · rw [if_neg null] at failed
        simp at failed

/-- The last stage fails only when its allocation does. -/
theorem reallocateMove_failed {ptr usable : Nat} (base : 0 < w.ctx.region.base)
    (failed : (reallocateMove core w ptr usable size).2.ok = false) :
    (reallocateMove core w ptr usable size).2 = .failed ∧
      SameButLists w (reallocateMove core w ptr usable size).1 := by
  unfold reallocateMove at failed ⊢
  dsimp only at failed ⊢
  by_cases refused : (poolAllocate core w size).2.ok = false
  · rw [if_pos refused]
    exact ⟨rfl, (poolAllocate_failed base refused).2⟩
  · rw [if_neg refused] at failed
    simp at failed

/-- **A failed `bc_allocators_pool_reallocate`** gives null and has changed the
arrangement of the free lists at most. -/
theorem poolReallocate_failed {ptr : Nat} (base : 0 < w.ctx.region.base)
    (failed : (poolReallocate core w ptr size).2.ok = false) :
    (poolReallocate core w ptr size).2 = .failed ∧
      SameButLists w (poolReallocate core w ptr size).1 := by
  have moved : ∀ usable, (reallocateMove core w ptr usable size).2.ok = false →
      (reallocateMove core w ptr usable size).2 = .failed ∧
        SameButLists w (reallocateMove core w ptr usable size).1 :=
    fun _ => reallocateMove_failed base
  unfold poolReallocate at failed ⊢
  by_cases zero : size = 0
  · rw [if_pos zero]
    exact ⟨rfl, .refl w⟩
  rw [if_neg zero] at failed ⊢
  by_cases null : ptr = NULL
  · rw [if_pos null] at failed ⊢
    exact poolAllocate_failed base failed
  rw [if_neg null] at failed ⊢
  dsimp only at failed ⊢
  by_cases small : (getUsableSize w.ctx w.mem ptr).2 = false
  · rw [if_pos small] at failed ⊢
    cases classified : sizeClassForSize core size with
    | none =>
        rw [classified] at failed
        exact moved _ failed
    | some newCls =>
        rw [classified] at failed
        dsimp only at failed ⊢
        by_cases same : pageClassOf w.ctx ptr = UInt8.ofNat newCls
        · rw [if_pos same] at failed
          simp at failed
        · rw [if_neg same] at failed ⊢
          exact moved _ failed
  · rw [if_neg small] at failed ⊢
    cases classified : sizeClassForSize core size with
    | some newCls =>
        rw [classified] at failed
        exact moved _ failed
    | none =>
        rw [classified] at failed
        dsimp only at failed ⊢
        cases rounded : largeTotal core w.ctx size with
        | none => exact ⟨rfl, .refl w⟩
        | some newTotal =>
            rw [rounded] at failed
            dsimp only at failed ⊢
            by_cases fits : newTotal ≤ metaTotalSize w.mem (ptr - largeMetaSize)
            · rw [if_pos fits] at failed
              simp at failed
            · rw [if_neg fits] at failed ⊢
              exact moved _ failed

/-! ## The blocks in the lists -/

/-- The free blocks of a kind, before and after, when the same blocks are held. -/
theorem PoolHeap.free_perm (heap : PoolHeap platform w spans held free)
    (heap' : PoolHeap platform w' spans held free')
    (region : w'.ctx.region = w.ctx.region) (kind : PoolKind) :
    (free' kind).Perm (free kind) := by
  have after := heap'.partition kind
  rw [region] at after
  exact (List.perm_append_left_iff _).mp (after.trans (heap.partition kind).symm)

/-- What a failed call leaves: the live blocks, and a world that is the same but
for its free lists, memory, region and counters included. Each free list has the
blocks that it had, large ones with the size that they record. -/
structure Untouched (s s' : PoolState) : Prop where
  live : s'.live = s.live
  world : SameButLists s.world s'.world
  free : ∃ free free' : PoolKind → List Nat,
    (∀ kind, (s.world.ctx.freeList kind).Holds s.world.mem (free kind)) ∧
    (∀ kind, (s'.world.ctx.freeList kind).Holds s'.world.mem (free' kind)) ∧
    ∀ kind, ((free' kind).map (blockExtent s'.world.mem kind)).Perm
      ((free kind).map (blockExtent s.world.mem kind))

/-- A refused call leaves the state untouched. -/
theorem Refused.untouched {others : List LiveBlock}
    (heap : PoolHeap platform s.world s.spans (heldBlocks core s.live) free)
    (refused : Refused platform s.world s.spans (heldBlocks core s.live) w')
    (same : SameButLists s.world w') :
    Untouched s (s.answered core others size (w', .failed)).1 := by
  obtain ⟨free', heap'⟩ := refused.heap
  refine ⟨rfl, same, free, free', heap.lists, heap'.lists, fun kind => ?_⟩
  change ((free' kind).map (blockExtent w'.mem kind)).Perm _
  rw [refused.mem]
  exact (heap.free_perm heap' refused.region kind).map _

/-! ## Every failed call -/

/-- A failed call that asks for a size gives null and has changed the arrangement
of the free lists at most. -/
theorem AsksFor.failed_same {call : PoolCall} (asks : AsksFor s size call)
    (base : 0 < s.world.ctx.region.base) (failed : (s.perform core call).2.ok = false) :
    (s.perform core call).2 = .failed ∧ SameButLists s.world (s.perform core call).1.world := by
  cases asks with
  | allocate => exact poolAllocate_failed base failed
  | reallocateNull => exact poolReallocate_failed base failed
  | reallocate live => exact poolReallocate_failed base failed

/-- The sum of a failed call with the bump pointer did not wrap. -/
theorem PoolInv.failed_no_wrap (inv : PoolInv core platform s) (word : size < 2 ^ 64)
    {call : PoolCall} (asks : AsksFor s size call)
    (failed : (s.perform core call).2.ok = false) :
    ∀ total, largeTotal core s.world.ctx size = some total →
      s.world.ctx.region.bump + total < 2 ^ 64 := by
  intro total rounded
  obtain ⟨free, heap⟩ := inv.heap
  by_cases within : size ≤ s.world.ctx.region.totalSize
  · exact largeTotal_no_wrap core heap within rounded
  · by_contra wraps
    obtain ⟨rfl, small⟩ := (largeTotal_eq_some heap.geometry word).mp rounded
    have granted := inv.wraps_granted (Nat.lt_of_not_le within) word
      ⟨small, Nat.le_of_not_lt wraps⟩ asks
    rw [failed] at granted
    exact absurd granted (by simp)

/-- **Failed pool calls change nothing.** In every reachable state, an allocation
or a reallocation of null or of a live block for any size that returns false
gives null and leaves the state untouched. -/
theorem failed_call_changes_nothing (core : BcCore) (platform : Platform) {s : PoolState}
    (reachable : (poolSystem core platform).Reachable s) {size : Nat} (word : size < 2 ^ 64)
    {call : PoolCall} (asks : AsksFor s size call)
    (failed : (s.perform core call).2.ok = false) :
    (s.perform core call).2 = .failed ∧ Untouched s (s.perform core call).1 := by
  have inv := PoolInv.reachable reachable
  obtain ⟨free, heap⟩ := inv.heap
  obtain ⟨null, same⟩ := asks.failed_same heap.geometry.base_pos failed
  refine ⟨null, ?_⟩
  rcases inv.asked_outcome word (inv.failed_no_wrap word asks failed) asks with
    ⟨w', others, performed, refused⟩ | ⟨granted, _⟩
  · rw [performed] at same ⊢
    exact refused.untouched heap same
  · rw [failed] at granted
    exact absurd granted (by simp)

/-- The small context with its whole region in one live block. -/
def wholeRegion : PoolState := (sixteenPages.perform BcCore.reference (.allocate 65536)).1

theorem wholeRegion_reachable : (poolSystem BcCore.reference Platform.x86).Reachable wholeRegion :=
  reachable_perform (.allocate 65536) (.start sixteenPages_start)
    (show (65536 : Nat) ≤ 65536 by decide)

/-- A reallocation for which the region has no room left. -/
theorem failed_call_changes_nothing_wholeRegion :
    (wholeRegion.perform BcCore.reference (.reallocate 65536 24)).2 = .failed ∧
      Untouched wholeRegion (wholeRegion.perform BcCore.reference (.reallocate 65536 24)).1 :=
  failed_call_changes_nothing BcCore.reference Platform.x86 wholeRegion_reachable
    (show (24 : Nat) < 2 ^ 64 by decide)
    (.reallocate ⟨⟨65536, 65536⟩, by decide, rfl⟩) (by decide)

end BcAllocators
