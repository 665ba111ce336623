import BcAllocators.Shared.Frames

/-!
# The pool in two worlds

Two worlds may have the same pool and differ in everything else: in the arenas, in
what the kernel has mapped, and in every byte outside the region (`Beside`). The
functions of the pool read nothing else than the pool, so they return the same in both
worlds and leave the two pools the same again (`poolAllocate_beside`,
`poolReallocate_beside`, `poolFree_beside`).
-/

set_option autoImplicit false

namespace BcAllocators

open Machine

/-- What the pool of a world does not touch. -/
structure Surroundings where
  arenaCache : ArenaCache
  arenaTally : ArenaTally
  kernel : Kernel

/-- The pool of a context among other arenas. -/
def Context.among (ctx : Context) (x : Surroundings) : Context :=
  { ctx with
    arenaCache := x.arenaCache, arenaCreateCount := x.arenaTally.created,
    arenaDestroyCount := x.arenaTally.destroyed, arenaTotalBytes := x.arenaTally.total,
    totalMappedBytes := x.arenaTally.mapped, peakMappedBytes := x.arenaTally.peak }

/-- The pool of a world in other surroundings, with another memory. -/
def World.among (w : World) (x : Surroundings) (n : Memory) : World :=
  ⟨w.ctx.among x, n, x.kernel⟩

/-- **A world with the same pool**: the fields of the pool are the same, and so are the
bytes of the region. -/
inductive Beside (x : Surroundings) (w : World) : World → Prop where
  | intro (n : Memory) (alike : ∀ p ∈ w.ctx.region.addresses, n p = w.mem p) :
      Beside x w (w.among x n)

/-- Two calls return the same and leave worlds with the same pool. -/
structure BesideResult {β : Type} (x : Surroundings) (r q : World × β) : Prop where
  result : q.2 = r.2
  world : Beside x r.1 q.1

variable {core : BcCore} {platform : Platform} {w v : World} {x : Surroundings}
variable {spans : List Span} {held free : PoolKind → List Nat} {kind : PoolKind}
variable {block size : Nat}

@[simp] theorem World.among_freeList (w : World) (x : Surroundings) (n : Memory)
    (kind : PoolKind) : (w.among x n).ctx.freeList kind = w.ctx.freeList kind := by
  cases kind <;> rfl

theorem Context.among_setFreeList (ctx : Context) (x : Surroundings) (kind : PoolKind)
    (fl : FreeList) : (ctx.among x).setFreeList kind fl = (ctx.setFreeList kind fl).among x := by
  cases kind <;> rfl

namespace Beside

/-- The heap of a pool is the heap of a pool beside it. -/
theorem heap (beside : Beside x w v) (heap : PoolHeap platform w spans held free) :
    PoolHeap platform v spans held free := by
  cases beside with
  | intro n alike => exact heap.congr rfl rfl rfl (World.among_freeList w x n) alike

theorem ctx (beside : Beside x w v) : v.ctx = w.ctx.among x := by
  cases beside with
  | intro n alike => rfl

/-- A word in the region is the same beside. -/
theorem word (beside : Beside x w v) {a : Nat}
    (inside : Set.Ico a (a + 8) ⊆ w.ctx.region.addresses) :
    loadWord v.mem a = loadWord w.mem a := by
  cases beside with
  | intro n alike => exact loadWord_congr fun p lower upper => alike p (inside ⟨lower, upper⟩)

/-- Equal stores leave the pools the same. -/
theorem store (beside : Beside x w v) (a value : Nat) :
    Beside x { w with mem := storeWord w.mem a value }
      { v with mem := storeWord v.mem a value } := by
  cases beside with
  | intro n alike =>
      refine .intro (storeWord n a value) fun p inside => ?_
      simp only [storeWord]
      split
      · rfl
      · exact alike p inside

/-- A change of the context that does not look at the arenas. -/
theorem context (beside : Beside x w v) {ctx : Context}
    (region : ctx.region.addresses = w.ctx.region.addresses) :
    Beside x { w with ctx := ctx } { v with ctx := ctx.among x } := by
  cases beside with
  | intro n alike => exact .intro n fun p inside => alike p (region ▸ inside)

end Beside

/-- The first two words of a block lie in the region. -/
theorem PoolHeap.word_territory (heap : PoolHeap platform w spans held free)
    (owned : Owns held free kind block) {offset : Nat} (small : offset ≤ 8) :
    Set.Ico (block + offset) (block + offset + 8) ⊆ w.ctx.region.addresses := by
  intro p inside
  have enough := (heap.block_bounds owned).2.2
  rw [Set.mem_Ico] at inside
  refine heap.block_territory owned (Extent.mem_bytes.mpr ?_)
  rw [blockExtent_start]
  omega

/-! ## Free lists -/

/-- Pop reads the links of the blocks of a list. -/
theorem FreeList.Holds.pop_congr {m n : Memory} {fl : FreeList} {blocks : List Nat}
    (holds : fl.Holds m blocks) (same : ∀ a ∈ blocks, loadWord n a = loadWord m a) :
    freeListPop fl n = freeListPop fl m := by
  obtain ⟨chain, rfl, linked⟩ := holds.split
  unfold freeListPop
  split
  · rfl
  · split
    · next nonnull =>
        obtain ⟨rest, rfl, _⟩ := linked.exists_cons nonnull
        rw [same _ (List.mem_append_right _ List.mem_cons_self)]
    · rfl

/-- **Pop does alike in worlds with the same pool.** -/
theorem popFree_beside (kind : PoolKind) (beside : Beside x w v)
    (heap : PoolHeap platform w spans held free) :
    BesideResult x (popFree w kind) (popFree v kind) := by
  have same : freeListPop (w.ctx.freeList kind) v.mem = freeListPop (w.ctx.freeList kind) w.mem :=
    (heap.lists kind).pop_congr fun a inFree =>
      beside.word (heap.word_territory (List.mem_append_right _ inFree) (Nat.zero_le 8))
  have region : ∀ fl, (w.ctx.setFreeList kind fl).region.addresses = w.ctx.region.addresses :=
    fun fl => congrArg Region.addresses (Context.setFreeList_region _ _ _)
  have list : v.ctx.freeList kind = w.ctx.freeList kind := by
    cases beside with
    | intro n alike => exact World.among_freeList w x n kind
  unfold popFree
  rw [list, same]
  refine ⟨rfl, ?_⟩
  dsimp only
  rw [beside.ctx, Context.among_setFreeList]
  exact beside.context (region _)

/-- **Push does alike in worlds with the same pool.** -/
theorem pushFree_beside (beside : Beside x w v) (kind : PoolKind) (ptr : Nat) :
    Beside x (pushFree w kind ptr) (pushFree v kind ptr) := by
  have region : ∀ fl, (w.ctx.setFreeList kind fl).region.addresses = w.ctx.region.addresses :=
    fun fl => congrArg Region.addresses (Context.setFreeList_region _ _ _)
  have list : v.ctx.freeList kind = w.ctx.freeList kind := by
    cases beside with
    | intro n alike => exact World.among_freeList w x n kind
  unfold pushFree freeListPush
  rw [list]
  split
  · dsimp only
    rw [beside.ctx, Context.among_setFreeList]
    exact beside.context (region _)
  · dsimp only
    rw [beside.ctx, Context.among_setFreeList]
    exact (beside.store ptr _).context (region _)

theorem pushAll_beside (kind : PoolKind) (blocks : List Nat) :
    ∀ {w v : World}, Beside x w v →
      Beside x (blocks.foldl (fun w a => pushFree w kind a) w)
        (blocks.foldl (fun w a => pushFree w kind a) v) := by
  induction blocks with
  | nil => exact id
  | cons a rest ih => exact fun beside => ih (pushFree_beside beside kind a)

/-! ## Carving -/

theorem bumpAllocateClass_beside (core : BcCore) {cls : Nat} (beside : Beside x w v)
    (heap : PoolHeap platform w spans held free) (valid : cls < numClasses) :
    BesideResult x (bumpAllocateClass core w cls) (bumpAllocateClass core v cls) := by
  have heap' := beside.heap heap
  have context := beside.ctx
  by_cases room : w.ctx.region.bump + classSpan platform cls ≤ w.ctx.region.totalSize
  · rw [bumpAllocateClass_room heap valid room,
      bumpAllocateClass_room heap' valid (by rw [context]; exact room)]
    have blocks : laterBlocks platform v cls = laterBlocks platform w cls := by
      rw [laterBlocks, context]
      rfl
    have carved : Beside x (carveClass platform w cls) (carveClass platform v cls) := by
      cases beside with
      | intro n alike => exact .intro n alike
    rw [blocks]
    refine ⟨?_, pushAll_beside _ _ carved⟩
    rw [context]
    rfl
  · have full : w.ctx.region.totalSize < w.ctx.region.bump + classSpan platform cls := by omega
    rw [bumpAllocateClass_full heap valid full,
      bumpAllocateClass_full heap' valid (by rw [context]; exact full)]
    exact ⟨rfl, beside⟩

theorem bumpAllocateLarge_beside {total : Nat} (beside : Beside x w v)
    (heap : PoolHeap platform w spans held free) (size : Nat)
    (noWrap : w.ctx.region.bump + total < 2 ^ 64) :
    BesideResult x (bumpAllocateLarge w total size) (bumpAllocateLarge v total size) := by
  have heap' := beside.heap heap
  have context := beside.ctx
  by_cases room : w.ctx.region.bump + total ≤ w.ctx.region.totalSize
  · rw [bumpAllocateLarge_room heap room,
      bumpAllocateLarge_room heap' (by rw [context]; exact room)]
    refine ⟨by rw [context]; rfl, ?_⟩
    -- the header of the new block is stored, and then the context changes
    have stored := (beside.store (w.ctx.region.base + w.ctx.region.bump + 8) total).store
      (w.ctx.region.base + w.ctx.region.bump) size
    have region : (carveLarge w total size).ctx.region.addresses = w.ctx.region.addresses := rfl
    have carved := stored.context region
    cases beside with
    | intro n alike => exact carved
  · have full : w.ctx.region.totalSize < wadd w.ctx.region.bump total := by
      rw [wadd_of_lt noWrap]
      omega
    rw [bumpAllocateLarge_full full, bumpAllocateLarge_full (by rw [context]; exact full)]
    exact ⟨rfl, beside⟩

theorem null_eq : ¬ NULL ≠ NULL := fun different => different rfl

/-- **`allocate_large` does alike in worlds with the same pool.** -/
theorem allocateLarge_beside (core : BcCore) (beside : Beside x w v)
    (heap : PoolHeap platform w spans held free)
    (noWrap : ∀ total, largeTotal core w.ctx size = some total →
      w.ctx.region.bump + total < 2 ^ 64) :
    BesideResult x (allocateLarge core w size) (allocateLarge core v size) := by
  have totals : largeTotal core v.ctx size = largeTotal core w.ctx size := by
    rw [beside.ctx]
    rfl
  unfold allocateLarge
  rw [totals]
  cases rounded : largeTotal core w.ctx size with
  | none => exact ⟨rfl, beside⟩
  | some total =>
      dsimp only
      cases list : free .large with
      | nil =>
          rw [heap.pop_nil list, (beside.heap heap).pop_nil list, if_neg null_eq, if_neg null_eq]
          exact bumpAllocateLarge_beside beside heap size (noWrap total rounded)
      | cons a rest =>
          obtain ⟨same, nonnull, free', popped⟩ := heap.popped list
          obtain ⟨result, after⟩ := popFree_beside .large beside heap
          have inHeld : a ∈ Function.update held .large (a :: held .large) .large := by simp
          have recorded : metaTotalSize (popFree v .large).1.mem a =
              metaTotalSize (popFree w .large).1.mem a :=
            after.word (popped.word_territory (List.mem_append_left _ inHeld) (Nat.le_refl 8))
          rw [result, if_pos nonnull, if_pos nonnull, same, recorded]
          split
          · exact ⟨rfl, after.store a size⟩
          · have refused := heap.pushBack list
            obtain ⟨_, heap'⟩ := refused.heap
            exact bumpAllocateLarge_beside (pushFree_beside after .large a) heap' size
              (refused.region ▸ noWrap total rounded)

/-! ## Allocation and release -/

theorem trackAlloc_among (ctx : Context) (x : Surroundings) (bytes : Nat) :
    trackAlloc (ctx.among x) bytes = (trackAlloc ctx bytes).among x := by
  unfold trackAlloc
  split
  · next enabled => exact (if_pos enabled).symm ▸ rfl
  · next disabled => exact (if_neg disabled).symm ▸ rfl

theorem trackFree_among (ctx : Context) (x : Surroundings) (bytes : Nat) :
    trackFree (ctx.among x) bytes = (trackFree ctx bytes).among x := by
  unfold trackFree
  split
  · next enabled => exact (if_pos enabled).symm ▸ rfl
  · next disabled => exact (if_neg disabled).symm ▸ rfl

theorem trackResize_among (ctx : Context) (x : Surroundings) (oldSize newSize : Nat) :
    trackResize (ctx.among x) oldSize newSize = (trackResize ctx oldSize newSize).among x := by
  unfold trackResize
  split
  · next enabled => exact (if_pos enabled).symm ▸ rfl
  · next disabled => exact (if_neg disabled).symm ▸ rfl

theorem Beside.trackAlloc (beside : Beside x w v) (bytes : Nat) :
    Beside x { w with ctx := trackAlloc w.ctx bytes }
      { v with ctx := BcAllocators.trackAlloc v.ctx bytes } := by
  rw [beside.ctx, trackAlloc_among]
  exact beside.context (congrArg Region.addresses (trackAlloc_region _ _))

theorem Beside.trackFree (beside : Beside x w v) (bytes : Nat) :
    Beside x { w with ctx := trackFree w.ctx bytes }
      { v with ctx := BcAllocators.trackFree v.ctx bytes } := by
  rw [beside.ctx, trackFree_among]
  exact beside.context (congrArg Region.addresses (trackFree_region _ _))

/-- **An allocation does alike in worlds with the same pool.** -/
theorem poolAllocate_beside (core : BcCore) (beside : Beside x w v)
    (heap : PoolHeap platform w spans held free)
    (noWrap : ∀ total, largeTotal core w.ctx size = some total →
      w.ctx.region.bump + total < 2 ^ 64) :
    BesideResult x (poolAllocate core w size) (poolAllocate core v size) := by
  unfold poolAllocate
  by_cases zero : size = 0
  · rw [if_pos zero, if_pos zero]
    exact ⟨rfl, beside⟩
  rw [if_neg zero, if_neg zero]
  cases classified : sizeClassForSize core size with
  | none =>
      obtain ⟨result, after⟩ := allocateLarge_beside core beside heap noWrap
      dsimp only
      rw [result]
      split
      · exact ⟨rfl, after⟩
      · exact ⟨rfl, after.trackAlloc size⟩
  | some cls =>
      obtain ⟨valid, _⟩ := sizeClassForSize_valid classified
      obtain ⟨result, after⟩ := popFree_beside (.sized cls) beside heap
      dsimp only
      cases list : free (.sized cls) with
      | nil =>
          obtain ⟨carved, fresh⟩ := bumpAllocateClass_beside core beside heap valid
          rw [heap.pop_nil list, (beside.heap heap).pop_nil list, if_neg null_eq, if_neg null_eq]
          dsimp only
          rw [carved]
          split
          · exact ⟨rfl, fresh⟩
          · exact ⟨rfl, fresh.trackAlloc _⟩
      | cons a rest =>
          obtain ⟨same, nonnull, _⟩ := heap.popped list
          rw [result, if_pos nonnull, if_pos nonnull]
          exact ⟨rfl, after.trackAlloc _⟩

/-- **A release does alike in worlds with the same pool.** -/
theorem poolFree_beside {rest : List Nat} (beside : Beside x w v)
    (heap : PoolHeap platform w spans held free) (split : (held kind).Perm (block :: rest)) :
    Beside x (poolFree w (block + kind.header)) (poolFree v (block + kind.header)) := by
  have heap' := beside.heap heap
  have inHeld : block ∈ held kind := split.mem_iff.mpr List.mem_cons_self
  have owned : PoolHeap.Owns held free kind block := List.mem_append_left _ inHeld
  have here : ¬ ptrInRegion w.ctx (block + kind.header) = false := by
    rw [heap.user_inRegion owned]
    simp
  have there : ¬ ptrInRegion v.ctx (block + kind.header) = false := by
    rw [heap'.user_inRegion owned]
    simp
  unfold poolFree
  rw [if_neg here, if_neg there, heap.user_class owned, heap'.user_class owned]
  dsimp only
  cases kind with
  | sized cls =>
      have valid := heap.block_kind owned
      rw [tag_sized valid, if_pos valid, if_pos valid]
      exact (pushFree_beside beside _ _).trackFree _
  | large =>
      rw [if_neg tag_large, if_pos (show PoolKind.large.tag = pageClassLarge from rfl),
        if_neg tag_large, if_pos (show PoolKind.large.tag = pageClassLarge from rfl)]
      have recorded : userSize v.mem block = userSize w.mem block :=
        beside.word (heap.word_territory owned (Nat.zero_le 8))
      unfold freeLarge
      dsimp only [PoolKind.header]
      rw [Nat.add_sub_cancel, recorded]
      exact (pushFree_beside (beside.store block 0) .large block).trackFree _

/-! ## Reallocation -/

theorem Beside.trackResize (beside : Beside x w v) (oldSize newSize : Nat) :
    Beside x { w with ctx := trackResize w.ctx oldSize newSize }
      { v with ctx := BcAllocators.trackResize v.ctx oldSize newSize } := by
  have region : (BcAllocators.trackResize w.ctx oldSize newSize).region = w.ctx.region := by
    unfold BcAllocators.trackResize
    split <;> rfl
  rw [beside.ctx, trackResize_among]
  exact beside.context (congrArg Region.addresses region)

/-- The copy of a block into a granted one is the same in both worlds: both sources are
the old block, and nothing else of the region changes. -/
theorem Beside.copy (core : BcCore) {w₁ v₁ : World} {newKind : PoolKind} {newBlock count : Nat}
    (beside : Beside x w v) (after : Beside x w₁ v₁) (heap : PoolHeap platform w spans held free)
    (inHeld : block ∈ held kind)
    (granted : Granted platform w spans held newKind size w₁ newBlock)
    (granted' : Granted platform v spans held newKind size v₁ newBlock)
    (inside : kind.header + count ≤ (blockExtent w.mem kind block).size) (short : count ≤ size) :
    Beside x
      { w₁ with mem := core.copy w₁.mem (newBlock + newKind.header) (block + kind.header) count }
      { v₁ with
        mem := core.copy v₁.mem (newBlock + newKind.header) (block + kind.header) count } := by
  have heap' := beside.heap heap
  have owned : PoolHeap.Owns held free kind block := List.mem_append_left _ inHeld
  have room := heap.held_room kind block inHeld
  -- the old block has the same extent in both worlds
  have extent : blockExtent v.mem kind block = blockExtent w.mem kind block := by
    cases kind with
    | sized cls => rfl
    | large =>
        exact congrArg (Extent.mk block) (beside.word (heap.word_territory owned (Nat.le_refl 8)))
  have bounds : block ≤ block + kind.header ∧
      block + kind.header + count ≤ (blockExtent w.mem kind block).stop := by
    unfold Extent.stop
    rw [blockExtent_start]
    omega
  have source : ∀ i < count, v.mem (block + kind.header + i) = w.mem (block + kind.header + i) := by
    intro i within
    cases beside with
    | intro n alike =>
        refine alike _ (heap.block_territory owned (Extent.mem_bytes.mpr ?_))
        rw [blockExtent_start]
        omega
  cases after with
  | intro n alike =>
      refine .intro _ fun p inRegion => ?_
      by_cases written : p ∈ Set.Ico (newBlock + newKind.header) (newBlock + newKind.header + count)
      · obtain ⟨i, rfl⟩ := Nat.exists_eq_add_of_le written.1
        have within : i < count := by
          have upper := written.2
          omega
        have left : core.copy _ _ _ _ _ = _ := granted.copied heap inHeld bounds short within
        have right : core.copy _ _ _ _ _ = _ :=
          granted'.copied heap' inHeld (extent ▸ bounds) short within
        exact right.trans ((source i within).trans left.symm)
      · exact (core.copy_frame _ _ _ _ p written).trans
          ((alike p inRegion).trans (core.copy_frame _ _ _ _ p written).symm)

/-- **The last stage of a reallocation does alike in worlds with the same pool.** -/
theorem reallocateMove_beside {rest : List Nat} (beside : Beside x w v)
    (heap : PoolHeap platform w spans held free) (split : (held kind).Perm (block :: rest))
    (bounded : kind.header + kind.charge (userSize w.mem block) ≤
      (blockExtent w.mem kind block).size)
    (word : size < 2 ^ 64)
    (noWrap : ∀ total, largeTotal core w.ctx size = some total →
      w.ctx.region.bump + total < 2 ^ 64) :
    BesideResult x
      (reallocateMove core w (block + kind.header) (kind.charge (userSize w.mem block)) size)
      (reallocateMove core v (block + kind.header) (kind.charge (userSize w.mem block)) size) := by
  have heap' := beside.heap heap
  have context := beside.ctx
  have inHeld : block ∈ held kind := split.mem_iff.mpr List.mem_cons_self
  have noWrap' : ∀ total, largeTotal core v.ctx size = some total →
      v.ctx.region.bump + total < 2 ^ 64 := by
    rw [context]
    exact noWrap
  obtain ⟨result, after⟩ := poolAllocate_beside core beside heap noWrap
  unfold reallocateMove
  rcases poolAllocate_outcome core heap word noWrap with
    ⟨w₁, same, _⟩ | ⟨w₁, newBlock, _, same, granted, _⟩
  · rw [same] at result after ⊢
    dsimp only at result after ⊢
    have refused : PtrResult.failed.ok = false := rfl
    rw [result, if_pos refused, if_pos refused]
    exact ⟨rfl, after⟩
  rcases poolAllocate_outcome core heap' word noWrap' with
    ⟨v₁, same', _⟩ | ⟨v₁, newBlock', _, same', granted', _⟩
  · rw [same, same'] at result
    simp [PtrResult.failed] at result
  rw [same, same'] at result after
  simp only [PtrResult.mk.injEq, true_and, Nat.add_right_cancel_iff] at result
  subst result
  rw [same, same']
  have accepted : ¬ (true = false) := by simp
  dsimp only
  rw [if_neg accepted, if_neg accepted]
  refine ⟨rfl, ?_⟩
  have short : (if kind.charge (userSize w.mem block) < size
      then kind.charge (userSize w.mem block) else size) ≤
        min (kind.charge (userSize w.mem block)) size := by
    split <;> omega
  have inside : kind.header + (if kind.charge (userSize w.mem block) < size
      then kind.charge (userSize w.mem block) else size) ≤
        (blockExtent w.mem kind block).size := by
    omega
  have copied := Beside.copy core beside after heap inHeld granted granted' inside
    (short.trans (Nat.min_le_right _ _))
  have frame := (core.copy_frame w₁.mem (newBlock' + (requestKind core size).header)
    (block + kind.header) (if kind.charge (userSize w.mem block) < size
      then kind.charge (userSize w.mem block) else size)).mono
    (Set.Ico_subset_Ico_right (Nat.add_le_add_left (short.trans (Nat.min_le_right _ _)) _))
  obtain ⟨_, filled⟩ := (granted.fill heap frame).heap
  obtain ⟨rest', split', _⟩ := swapHeld held split
  exact poolFree_beside copied filled split'

/-- **A reallocation does alike in worlds with the same pool.** -/
theorem poolReallocate_beside (core : BcCore) {rest : List Nat} (beside : Beside x w v)
    (heap : PoolHeap platform w spans held free) (split : (held kind).Perm (block :: rest))
    (bounded : kind.header + kind.charge (userSize w.mem block) ≤
      (blockExtent w.mem kind block).size)
    (word : size < 2 ^ 64)
    (noWrap : ∀ total, largeTotal core w.ctx size = some total →
      w.ctx.region.bump + total < 2 ^ 64) :
    BesideResult x (poolReallocate core w (block + kind.header) size)
      (poolReallocate core v (block + kind.header) size) := by
  have moved := reallocateMove_beside beside heap split bounded word noWrap
  have heap' := beside.heap heap
  have inHeld : block ∈ held kind := split.mem_iff.mpr List.mem_cons_self
  have owned : PoolHeap.Owns held free kind block := List.mem_append_left _ inHeld
  have nonnull : block + kind.header ≠ NULL := by
    have := (heap.block_address owned).1
    unfold NULL
    omega
  have recorded : userSize v.mem block = userSize w.mem block :=
    beside.word (heap.word_territory owned (Nat.zero_le 8))
  have total : metaTotalSize v.mem block = metaTotalSize w.mem block :=
    beside.word (heap.word_territory owned (Nat.le_refl 8))
  have totals : largeTotal core v.ctx size = largeTotal core w.ctx size := by
    rw [beside.ctx]
    rfl
  unfold poolReallocate
  by_cases zero : size = 0
  · rw [if_pos zero, if_pos zero]
    exact ⟨rfl, beside⟩
  rw [if_neg zero, if_neg nonnull, if_neg zero, if_neg nonnull, heap.getUsableSize_eq owned,
    heap'.getUsableSize_eq owned, recorded, totals]
  dsimp only
  cases kind with
  | sized cls =>
      have small : decide (PoolKind.sized cls = .large) = false := by simp
      rw [if_pos small, if_pos small, heap.user_class owned, heap'.user_class owned]
      cases sizeClassForSize core size with
      | none => exact moved
      | some newCls =>
          dsimp only
          split
          · exact ⟨rfl, beside⟩
          · exact moved
  | large =>
      have big : ¬ decide (PoolKind.large = .large) = false := by simp
      rw [if_neg big, if_neg big]
      cases sizeClassForSize core size with
      | some newCls => exact moved
      | none =>
          cases largeTotal core w.ctx size with
          | none => exact ⟨rfl, beside⟩
          | some newTotal =>
              dsimp only
              rw [show block + PoolKind.large.header - largeMetaSize = block from
                Nat.add_sub_cancel block largeMetaSize, total, recorded]
              split
              · exact ⟨rfl, (beside.trackResize _ _).store block size⟩
              · exact moved

end BcAllocators
