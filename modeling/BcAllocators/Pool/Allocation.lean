import BcAllocators.Pool.Carving

/-!
# Allocation, release and reallocation

The outcomes of the functions of the interface. An allocation either is refused
and moves no block, or grants one held block of the kind that the request asks
for. A release puts a held block back. A reallocation is refused, keeps the
block in its place, or grants a new one with the bytes of the old one and
releases that.
-/

set_option autoImplicit false

namespace BcAllocators

open Machine

variable {core : BcCore} {platform : Platform} {w w' : World} {spans : List Span}
variable {held free : PoolKind → List Nat} {kind : PoolKind} {size block : Nat}

/-! ## Refusals -/

/-- No block has moved and no byte has changed. -/
structure Refused (platform : Platform) (w : World) (spans : List Span)
    (held : PoolKind → List Nat) (w' : World) : Prop where
  heap : ∃ free, PoolHeap platform w' spans held free
  mem : w'.mem = w.mem
  region : w'.ctx.region = w.ctx.region
  update : PoolUpdate id w w'

theorem PoolHeap.refused (heap : PoolHeap platform w spans held free) :
    Refused platform w spans held w :=
  ⟨⟨free, heap⟩, rfl, rfl, PoolUpdate.refl w⟩

/-- A block granted after a step that moved nothing is granted at once. -/
theorem Refused.granted {w'' : World} (refused : Refused platform w spans held w')
    (granted : Granted platform w' spans held kind size w'' block) :
    Granted platform w spans held kind size w'' block where
  heap := by simpa only [carvedSpan, refused.region] using granted.heap
  kept := refused.mem ▸ granted.kept
  fits := granted.fits
  recorded := granted.recorded

/-! ## Blocks from the free lists -/

/-- A popped block, still as its last holder left it. -/
theorem PoolHeap.popped {a : Nat} {rest : List Nat} (heap : PoolHeap platform w spans held free)
    (first : free kind = a :: rest) : (popFree w kind).2 = a ∧ (popFree w kind).2 ≠ NULL ∧
      ∃ free', PoolHeap platform (popFree w kind).1
        (spans ++ carvedSpan kind w.ctx (popFree w kind).1.ctx)
        (Function.update held kind (a :: held kind)) free' := by
  have owned : Owns held free kind a :=
    List.mem_append_right _ (first ▸ List.mem_cons_self)
  obtain ⟨same, popped⟩ := heap.pop_cons first
  have region : (popFree w kind).1.ctx.region = w.ctx.region := Context.setFreeList_region _ _ _
  refine ⟨same, same ▸ Nat.ne_of_gt (heap.block_address owned).1,
    Function.update free kind rest, ?_⟩
  rwa [carvedSpan_same (by rw [region]), List.append_nil]

/-- After a pop the magazine has room. -/
theorem freeListPop_room (fl : FreeList) (m : Memory) :
    (freeListPop fl m).1.magCount < magSize := by
  have le := fl.magCount_le
  have some : 0 < magSize := by decide
  unfold freeListPop
  split
  · dsimp only
    omega
  · split <;> (dsimp only; omega)

/-- **A block that is popped and pushed back leaves no trace** but its place in
the list. -/
theorem PoolHeap.pushBack {a : Nat} {rest : List Nat} (heap : PoolHeap platform w spans held free)
    (first : free kind = a :: rest) :
    Refused platform w spans held (pushFree (popFree w kind).1 kind a) := by
  obtain ⟨_, popped⟩ := heap.pop_cons first
  obtain ⟨blocks, _, pushed⟩ := popped.push (by rw [Function.update_self])
  rw [Function.update_idem, Function.update_eq_self] at pushed
  have room := freeListPop_room (w.ctx.freeList kind) w.mem
  refine ⟨⟨_, pushed⟩, ?_, ?_, (PoolUpdate.pop w kind).idThen (PoolUpdate.push _ kind a)⟩
  · rw [pushFree_mem, popFree_mem]
    unfold popFree freeListPush
    rw [Context.freeList_setFreeList, dif_pos room]
  · exact (Context.setFreeList_region _ _ _).trans (Context.setFreeList_region _ _ _)

/-! ## `allocate_large` -/

/-- The outcomes of `allocate_large`: a refusal, or a large block. -/
def LargeOutcome (platform : Platform) (w : World) (spans : List Span)
    (held : PoolKind → List Nat) (size : Nat) (result : World × Nat) : Prop :=
  (∃ w', result = (w', NULL) ∧ Refused platform w spans held w') ∨
  (∃ w' block, result = (w', block + largeMetaSize) ∧
    Granted platform w spans held .large size w' block ∧ PoolUpdate id w w')

theorem Refused.largeOutcome {result : World × Nat} (refused : Refused platform w spans held w')
    (outcome : LargeOutcome platform w' spans held size result) :
    LargeOutcome platform w spans held size result := by
  rcases outcome with ⟨w'', same, again⟩ | ⟨w'', block, same, granted, update⟩
  · exact Or.inl ⟨w'', same, again.heap, again.mem.trans refused.mem,
      again.region.trans refused.region, refused.update.idThen again.update⟩
  · exact Or.inr ⟨w'', block, same, refused.granted granted, refused.update.idThen update⟩

theorem bumpAllocateLarge_outcome {total : Nat} (heap : PoolHeap platform w spans held free)
    (large : maxClassSize < size) (word : size < 2 ^ 64)
    (rounded : total = roundUp (largeMetaSize + size) platform.pageSize)
    (noWrap : w.ctx.region.bump + total < 2 ^ 64) :
    LargeOutcome platform w spans held size (bumpAllocateLarge w total size) := by
  by_cases room : w.ctx.region.bump + total ≤ w.ctx.region.totalSize
  · rw [bumpAllocateLarge_room heap room]
    exact Or.inr ⟨_, _, rfl, carveLarge_granted heap large word rounded room,
      carveLarge_update w total size⟩
  · rw [bumpAllocateLarge_full (by rw [wadd_of_lt noWrap]; omega)]
    exact Or.inl ⟨w, rfl, heap.refused⟩

/-- The block on top of the large pool serves a request that fits. -/
theorem PoolHeap.reuseLarge {a : Nat} {rest : List Nat} (heap : PoolHeap platform w spans held free)
    (first : free .large = a :: rest) (word : size < 2 ^ 64)
    (fits : largeMetaSize + size ≤ metaTotalSize w.mem a) :
    Granted platform w spans held .large size
      { (popFree w .large).1 with mem := storeWord w.mem a size } a := by
  obtain ⟨_, _, free', popped⟩ := heap.popped first
  have inHeld : a ∈ Function.update held .large (a :: held .large) .large := by simp
  have changes := (changesOnly_storeWord (popFree w .large).1.mem a size).mono
    (popped.link_writable inHeld)
  have total : metaTotalSize (storeWord w.mem a size) a = metaTotalSize w.mem a :=
    loadWord_storeWord_of_apart (Or.inl (Nat.le_refl _))
  refine ⟨⟨free', popped.write inHeld changes⟩, ?_, ?_, fun _ => loadWord_storeWord_of_lt word⟩
  · intro other b inOther c inside
    refine changes c fun member => ?_
    exact (heap.held_apart_free inOther (first ▸ List.mem_cons_self)).disjoint inside member.1
  · rw [blockExtent, total]
    exact fits

/-- **`allocate_large` is refused or grants a large block.** -/
theorem allocateLarge_outcome (heap : PoolHeap platform w spans held free)
    (large : maxClassSize < size) (word : size < 2 ^ 64)
    (noWrap : ∀ total, largeTotal core w.ctx size = some total →
      w.ctx.region.bump + total < 2 ^ 64) :
    LargeOutcome platform w spans held size (allocateLarge core w size) := by
  unfold allocateLarge
  cases rounded : largeTotal core w.ctx size with
  | none => exact Or.inl ⟨w, rfl, heap.refused⟩
  | some total =>
      obtain ⟨exact, _⟩ := (largeTotal_eq_some heap.geometry word).mp rounded
      have enough : largeMetaSize + size ≤ total := exact ▸ le_roundUp platform.pageSize_pos
      dsimp only
      cases list : free .large with
      | nil =>
          rw [heap.pop_nil list, if_neg (by simp)]
          exact bumpAllocateLarge_outcome heap large word exact (noWrap total rounded)
      | cons a rest =>
          obtain ⟨same, nonnull, _⟩ := heap.popped list
          rw [if_pos nonnull, same]
          split
          · next fits =>
              exact Or.inr ⟨_, a, rfl, heap.reuseLarge list word (enough.trans fits),
                (PoolUpdate.pop w .large).idThen (PoolUpdate.memory _ _)⟩
          · have refused := heap.pushBack list
            obtain ⟨_, heap'⟩ := refused.heap
            exact refused.largeOutcome (bumpAllocateLarge_outcome heap' large word exact
              (refused.region ▸ noWrap total rounded))

/-! ## Allocation -/

/-- The bytes charged for a request. -/
def PoolKind.charge : PoolKind → Nat → Nat
  | .sized cls, _ => classSize cls
  | .large, size => size

@[simp] theorem trackAlloc_region (ctx : Context) (bytes : Nat) :
    (trackAlloc ctx bytes).region = ctx.region := by
  unfold trackAlloc
  split <;> rfl

theorem Granted.trackAlloc (granted : Granted platform w spans held kind size w' block)
    (bytes : Nat) :
    Granted platform w spans held kind size { w' with ctx := trackAlloc w'.ctx bytes } block where
  heap := by
    obtain ⟨free, heap⟩ := granted.heap
    refine ⟨free, ?_⟩
    simpa only [carvedSpan, trackAlloc_region] using heap.trackAlloc bytes
  kept := granted.kept
  fits := granted.fits
  recorded := granted.recorded

/-- A granted block has an address, and so has its user. -/
theorem Granted.ne_null (granted : Granted platform w spans held kind size w' block) (n : Nat) :
    block + n ≠ NULL := by
  obtain ⟨free, heap⟩ := granted.heap
  have inHeld : block ∈ Function.update held kind (block :: held kind) kind := by simp
  have := (heap.block_address (List.mem_append_left _ inHeld)).1
  unfold NULL
  omega

/-- The outcomes of an allocation: a refusal, or a block of the kind that the
size asks for. -/
def AllocateOutcome (core : BcCore) (platform : Platform) (w : World) (spans : List Span)
    (held : PoolKind → List Nat) (size : Nat) (result : World × PtrResult) : Prop :=
  (∃ w', result = (w', .failed) ∧ Refused platform w spans held w') ∨
  (∃ w' block, 0 < size ∧ result = (w', ⟨true, block + (requestKind core size).header⟩) ∧
    Granted platform w spans held (requestKind core size) size w' block ∧
    PoolUpdate (Tally.alloc ((requestKind core size).charge size)) w w')

/-- A granted block is tracked and its address handed to the user. -/
theorem AllocateOutcome.grant (some : 0 < size) (asked : requestKind core size = kind)
    (granted : Granted platform w spans held kind size w' block) (update : PoolUpdate id w w') :
    AllocateOutcome core platform w spans held size
      ({ w' with ctx := BcAllocators.trackAlloc w'.ctx (kind.charge size) },
        ⟨true, block + kind.header⟩) := by
  subst asked
  exact Or.inr ⟨_, block, some, rfl, granted.trackAlloc _, update.idThen (.trackAlloc w' _)⟩

/-- **An allocation is refused or grants a block.** -/
theorem poolAllocate_outcome (core : BcCore) (heap : PoolHeap platform w spans held free)
    (word : size < 2 ^ 64)
    (noWrap : ∀ total, largeTotal core w.ctx size = some total →
      w.ctx.region.bump + total < 2 ^ 64) :
    AllocateOutcome core platform w spans held size (poolAllocate core w size) := by
  unfold poolAllocate
  by_cases zero : size = 0
  · rw [if_pos zero]
    exact Or.inl ⟨w, rfl, heap.refused⟩
  rw [if_neg zero]
  have some : 0 < size := by omega
  cases classified : sizeClassForSize core size with
  | none =>
      have large := (sizeClassForSize_none core).mp classified
      have asked := (requestKind_eq_large core).mpr large
      dsimp only
      rcases allocateLarge_outcome heap large word noWrap with
        ⟨w', same, refused⟩ | ⟨w', block, same, granted, update⟩
      · rw [same, if_pos rfl]
        exact Or.inl ⟨w', rfl, refused⟩
      · rw [same, if_neg (granted.ne_null _)]
        exact .grant some asked granted update
  | some cls =>
      obtain ⟨valid, enough⟩ := sizeClassForSize_valid classified
      have asked := requestKind_eq_sized.mpr classified
      dsimp only
      cases list : free (.sized cls) with
      | nil =>
          rw [heap.pop_nil list, if_neg (by simp)]
          by_cases room : w.ctx.region.bump + classSpan platform cls ≤ w.ctx.region.totalSize
          · have granted := bumpAllocateClass_granted core heap valid enough room
            have address : (bumpAllocateClass core w cls).2 =
                w.ctx.region.base + w.ctx.region.bump := by
              rw [bumpAllocateClass_room heap valid room]
            dsimp only
            rw [address, if_neg (show ¬ w.ctx.region.base + w.ctx.region.bump = NULL from
              granted.ne_null 0)]
            exact .grant some asked granted (bumpAllocateClass_update core heap valid room)
          · rw [bumpAllocateClass_full heap valid (by omega)]
            dsimp only
            rw [if_pos rfl]
            exact Or.inl ⟨w, rfl, heap.refused⟩
      | cons a rest =>
          obtain ⟨same, nonnull, free', popped⟩ := heap.popped list
          rw [if_pos nonnull, same]
          have granted : Granted platform w spans held (.sized cls) size
              (popFree w (.sized cls)).1 a :=
            ⟨⟨free', popped⟩, fun _ _ _ _ _ => rfl,
              by simpa [PoolKind.header, blockExtent] using enough, fun large => by simp at large⟩
          exact .grant some asked granted (PoolUpdate.pop w _)

end BcAllocators
