import BcAllocators.Pool.Client

/-!
# The territory of the pool

The pool writes to its region and nowhere else: links of free blocks, headers of
large blocks, and the copies of a reallocation. The memory of its clients outside
the region is out of its reach (`poolAllocate_territory`,
`poolReallocate_territory`, `poolFree_territory`).
-/

set_option autoImplicit false

namespace BcAllocators

open Machine

variable {core : BcCore} {platform : Platform} {w w' w'' : World} {spans : List Span}
variable {held free : PoolKind → List Nat} {kind : PoolKind} {size total block : Nat}

/-- The addresses of the region. -/
def Region.addresses (region : Region) : Set Nat :=
  Set.Ico region.base (region.base + region.totalSize)

/-- Regions with the same addresses have the same size. -/
theorem Region.totalSize_eq {region region' : Region}
    (same : region'.addresses = region.addresses) : region'.totalSize = region.totalSize := by
  have count : ∀ r : Region, r.addresses.ncard = r.totalSize := by
    intro r
    unfold Region.addresses
    rw [← Finset.coe_Ico, Set.ncard_coe_finset, Nat.card_Ico, Nat.add_sub_cancel_left]
  rw [← count region, ← same, count region']

/-- Regions with the same addresses are at the same place. -/
theorem Region.base_eq {region region' : Region} (pos : 0 < region.totalSize)
    (same : region'.addresses = region.addresses) : region'.base = region.base := by
  have total := Region.totalSize_eq same
  have first : ∀ r : Region, 0 < r.totalSize → r.base ∈ r.addresses :=
    fun r some => ⟨Nat.le_refl _, Nat.lt_add_of_pos_right some⟩
  exact Nat.le_antisymm (same ▸ first region pos).1 (same ▸ first region' (total ▸ pos)).1

/-- Only the region may have changed, and it is where it was. -/
structure StaysInside (w w' : World) : Prop where
  region : w'.ctx.region.addresses = w.ctx.region.addresses
  changes : ChangesOnly w.ctx.region.addresses w.mem w'.mem

namespace StaysInside

theorem refl (w : World) : StaysInside w w := ⟨rfl, ChangesOnly.refl _ _⟩

theorem trans (first : StaysInside w w') (second : StaysInside w' w'') : StaysInside w w'' :=
  ⟨second.region.trans first.region, first.changes.trans (first.region ▸ second.changes)⟩

/-- A step of the pool whose writes lie in the region. -/
theorem of_update {change : Tally → Tally} (update : PoolUpdate change w w')
    (changes : ChangesOnly w.ctx.region.addresses w.mem w'.mem) : StaysInside w w' := by
  refine ⟨?_, changes⟩
  unfold Region.addresses
  rw [update.base, update.totalSize]

/-- A step of the pool that writes nothing. -/
theorem of_same {change : Tally → Tally} (update : PoolUpdate change w w')
    (same : w'.mem = w.mem) : StaysInside w w' :=
  of_update update (same ▸ ChangesOnly.refl _ _)

end StaysInside

/-! ## Where the pool writes -/

/-- The blocks of the pool lie in its region. -/
theorem PoolHeap.block_territory (heap : PoolHeap platform w spans held free)
    (owned : Owns held free kind block) :
    (blockExtent w.mem kind block).bytes ⊆ w.ctx.region.addresses := by
  intro a inside
  obtain ⟨above, below, _⟩ := heap.block_bounds owned
  have top := heap.bump_le
  have lower := inside.1
  have upper := inside.2
  rw [blockExtent_start] at lower
  exact ⟨by omega, by omega⟩

theorem PoolHeap.writable_territory (heap : PoolHeap platform w spans held free)
    (inHeld : block ∈ held kind) : writable w.mem kind block ⊆ w.ctx.region.addresses :=
  fun _ inside => heap.block_territory (List.mem_append_left _ inHeld) inside.1

/-- A span carved in the region lies in it. -/
theorem carved_territory {top : Nat} (room : w.ctx.region.bump + top ≤ w.ctx.region.totalSize) :
    Set.Ico (w.ctx.region.base + w.ctx.region.bump)
      (w.ctx.region.base + w.ctx.region.bump + top) ⊆ w.ctx.region.addresses := by
  intro a inside
  rw [Set.mem_Ico] at inside
  exact ⟨by omega, by omega⟩

theorem bumpAllocateLarge_territory (heap : PoolHeap platform w spans held free)
    (header : largeMetaSize ≤ total) (noWrap : w.ctx.region.bump + total < 2 ^ 64) :
    StaysInside w (bumpAllocateLarge w total size).1 := by
  by_cases room : w.ctx.region.bump + total ≤ w.ctx.region.totalSize
  · rw [bumpAllocateLarge_room heap room]
    exact .of_update (carveLarge_update w total size)
      ((carveLarge_changes w size header).mono (carved_territory room))
  · rw [bumpAllocateLarge_full (by rw [wadd_of_lt noWrap]; omega)]
    exact .refl w

theorem allocateLarge_territory (heap : PoolHeap platform w spans held free)
    (word : size < 2 ^ 64) (noWrap : ∀ total, largeTotal core w.ctx size = some total →
      w.ctx.region.bump + total < 2 ^ 64) : StaysInside w (allocateLarge core w size).1 := by
  unfold allocateLarge
  cases rounded : largeTotal core w.ctx size with
  | none => exact .refl w
  | some total =>
      obtain ⟨exact, _⟩ := (largeTotal_eq_some heap.geometry word).mp rounded
      have enough : largeMetaSize + size ≤ total := exact ▸ le_roundUp platform.pageSize_pos
      have header : largeMetaSize ≤ total := (Nat.le_add_right _ _).trans enough
      dsimp only
      cases list : free .large with
      | nil =>
          rw [heap.pop_nil list, if_neg (by simp)]
          exact bumpAllocateLarge_territory heap header (noWrap total rounded)
      | cons a rest =>
          obtain ⟨same, nonnull, free', popped⟩ := heap.popped list
          rw [if_pos nonnull, same]
          split
          · have inHeld : a ∈ Function.update held .large (a :: held .large) .large := by simp
            have written := (changesOnly_storeWord (popFree w .large).1.mem a size).mono
              ((popped.link_writable inHeld).trans (popped.writable_territory inHeld))
            have first : StaysInside w (popFree w .large).1 :=
              .of_same (PoolUpdate.pop w .large) rfl
            exact first.trans (.of_update (PoolUpdate.memory _ _) written)
          · have refused := heap.pushBack list
            obtain ⟨_, heap'⟩ := refused.heap
            have first : StaysInside w (pushFree (popFree w .large).1 .large a) :=
              .of_same refused.update refused.mem
            exact first.trans (bumpAllocateLarge_territory heap' header
              (refused.region ▸ noWrap total rounded))

/-! ## The functions of the interface -/

/-- **An allocation writes to the region only.** -/
theorem poolAllocate_territory (core : BcCore) (heap : PoolHeap platform w spans held free)
    (word : size < 2 ^ 64) (noWrap : ∀ total, largeTotal core w.ctx size = some total →
      w.ctx.region.bump + total < 2 ^ 64) : StaysInside w (poolAllocate core w size).1 := by
  have tracked : ∀ (w' : World) (bytes : Nat), StaysInside w w' →
      StaysInside w { w' with ctx := trackAlloc w'.ctx bytes } :=
    fun w' bytes first => first.trans (.of_same (PoolUpdate.trackAlloc w' bytes) rfl)
  unfold poolAllocate
  by_cases zero : size = 0
  · rw [if_pos zero]
    exact .refl w
  rw [if_neg zero]
  cases classified : sizeClassForSize core size with
  | none =>
      have large := allocateLarge_territory heap word noWrap
      dsimp only
      split
      · exact large
      · exact tracked _ _ large
  | some cls =>
      obtain ⟨valid, _⟩ := sizeClassForSize_valid classified
      have popped : StaysInside w (popFree w (.sized cls)).1 :=
        .of_same (PoolUpdate.pop w (.sized cls)) rfl
      dsimp only
      cases list : free (.sized cls) with
      | nil =>
          rw [heap.pop_nil list, if_neg (by simp)]
          dsimp only
          by_cases room : w.ctx.region.bump + classSpan platform cls ≤ w.ctx.region.totalSize
          · have carved : StaysInside w (bumpAllocateClass core w cls).1 :=
              .of_update (bumpAllocateClass_update core heap valid room)
                ((bumpAllocateClass_changes core heap valid room).mono (carved_territory room))
            split
            · exact carved
            · exact tracked _ _ carved
          · rw [bumpAllocateClass_full heap valid (by omega), if_pos rfl]
            exact .refl w
      | cons a rest =>
          obtain ⟨_, nonnull, _⟩ := heap.popped list
          rw [if_pos nonnull]
          exact tracked _ _ popped

/-- **A release writes to the region only.** -/
theorem poolFree_territory {rest : List Nat} (heap : PoolHeap platform w spans held free)
    (split : (held kind).Perm (block :: rest)) :
    StaysInside w (poolFree w (block + kind.header)) := by
  have inHeld : block ∈ held kind := split.mem_iff.mpr List.mem_cons_self
  have owned : PoolHeap.Owns held free kind block := List.mem_append_left _ inHeld
  have link := (heap.link_writable inHeld).trans (heap.writable_territory inHeld)
  refine .of_update (poolFree_released heap split).update ?_
  unfold poolFree
  rw [if_neg (by rw [heap.user_inRegion owned]; simp), heap.user_class owned]
  dsimp only
  cases kind with
  | sized cls =>
      have valid := heap.block_kind owned
      rw [tag_sized valid, if_pos valid]
      exact (FreeList.push_changesOnly _ _ block).mono link
  | large =>
      rw [if_neg tag_large, if_pos (show PoolKind.large.tag = pageClassLarge from rfl)]
      unfold freeLarge
      dsimp only [PoolKind.header]
      rw [Nat.add_sub_cancel]
      exact ((changesOnly_storeWord w.mem block 0).mono link).trans
        ((FreeList.push_changesOnly _ _ block).mono link)

theorem reallocateMove_territory {rest : List Nat} (heap : PoolHeap platform w spans held free)
    (split : (held kind).Perm (block :: rest)) (word : size < 2 ^ 64)
    (noWrap : ∀ total, largeTotal core w.ctx size = some total →
      w.ctx.region.bump + total < 2 ^ 64) (usable : Nat) :
    StaysInside w (reallocateMove core w (block + kind.header) usable size).1 := by
  have allocated := poolAllocate_territory core heap word noWrap
  unfold reallocateMove
  rcases poolAllocate_outcome core heap word noWrap with
    ⟨w₁, same, _⟩ | ⟨w₁, newBlock, _, same, granted, _⟩
  · rw [same] at allocated ⊢
    exact allocated
  rw [same] at allocated ⊢
  dsimp only at allocated ⊢
  rw [if_neg (by simp)]
  have short : (if usable < size then usable else size) ≤ size := by
    split <;> omega
  have frame := (core.copy_frame w₁.mem (newBlock + (requestKind core size).header)
    (block + kind.header) (if usable < size then usable else size)).mono
    (Set.Ico_subset_Ico_right (Nat.add_le_add_left short _))
  obtain ⟨free₁, heap₁⟩ := granted.heap
  have copied : Set.Ico (newBlock + (requestKind core size).header)
      (newBlock + (requestKind core size).header + size) ⊆ w₁.ctx.region.addresses := by
    intro a inside
    have fits := granted.fits
    have inHeld : newBlock ∈ Function.update held (requestKind core size)
        (newBlock :: held (requestKind core size)) (requestKind core size) := by simp
    rw [Set.mem_Ico] at inside
    refine heap₁.block_territory (List.mem_append_left _ inHeld) (Extent.mem_bytes.mpr ?_)
    rw [blockExtent_start]
    omega
  obtain ⟨_, filled⟩ := (granted.fill heap frame).heap
  obtain ⟨rest', split', _⟩ := swapHeld held split
  exact (allocated.trans (.of_update (PoolUpdate.memory w₁ _) (frame.mono copied))).trans
    (poolFree_territory filled split')

/-- **A reallocation writes to the region only.** -/
theorem poolReallocate_territory (core : BcCore) {rest : List Nat}
    (heap : PoolHeap platform w spans held free) (split : (held kind).Perm (block :: rest))
    (word : size < 2 ^ 64) (noWrap : ∀ total, largeTotal core w.ctx size = some total →
      w.ctx.region.bump + total < 2 ^ 64) :
    StaysInside w (poolReallocate core w (block + kind.header) size).1 := by
  have moved := @reallocateMove_territory core _ _ _ _ _ _ _ _ _ heap split word noWrap
  have inHeld : block ∈ held kind := split.mem_iff.mpr List.mem_cons_self
  have owned : PoolHeap.Owns held free kind block := List.mem_append_left _ inHeld
  have nonnull : block + kind.header ≠ NULL := by
    have := (heap.block_address owned).1
    unfold NULL
    omega
  unfold poolReallocate
  by_cases zero : size = 0
  · rw [if_pos zero]
    exact .refl w
  rw [if_neg zero, if_neg nonnull, heap.getUsableSize_eq owned]
  dsimp only
  cases kind with
  | sized cls =>
      rw [if_pos (by simp)]
      split
      · split
        · exact .refl w
        · exact moved _
      · exact moved _
  | large =>
      rw [if_neg (by simp)]
      split
      · exact moved _
      · split
        · exact .refl w
        · split
          · rw [show block + PoolKind.large.header - largeMetaSize = block from
              Nat.add_sub_cancel block largeMetaSize]
            have written := (changesOnly_storeWord w.mem block size).mono
              ((heap.link_writable inHeld).trans (heap.writable_territory inHeld))
            have tracked : StaysInside w
                { w with ctx := trackResize w.ctx (userSize w.mem block) size } :=
              .of_same (PoolUpdate.trackResize w _ _) rfl
            exact tracked.trans (.of_update (PoolUpdate.memory _ _) (tracked.region ▸ written))
          · exact moved _

end BcAllocators
