import BcAllocators.Pool.Client

/-!
# Requests beyond the region

A request above the size of the region cannot be served. Most such requests are
refused: a size class is never large enough, the header and the rounding are
added with checks, and a free large block is never large enough either. The last
sum, of the bump pointer and the rounded size in `bump_raw`, is not checked. When
it wraps it is small, passes the limit, and the request is granted with the bump
pointer moved backwards (`allocateLarge_wraps`).

`oversizeRefused_iff` says exactly when: the rounded size is a word, but its
sum with the bump pointer is not.
-/

set_option autoImplicit false

namespace BcAllocators

open Machine

variable {core : BcCore} {platform : Platform} {w : World} {spans : List Span} {s : PoolState}
variable {held free : PoolKind → List Nat} {size : Nat}

/-- The rounded size of the request is a word, and its sum with the bump pointer
is not. -/
def BumpWraps (platform : Platform) (ctx : Context) (size : Nat) : Prop :=
  roundUp (largeMetaSize + size) platform.pageSize < 2 ^ 64 ∧
    2 ^ 64 ≤ ctx.region.bump + roundUp (largeMetaSize + size) platform.pageSize

instance (platform : Platform) (ctx : Context) (size : Nat) :
    Decidable (BumpWraps platform ctx size) := inferInstanceAs (Decidable (_ ∧ _))

/-- A call was refused: it returned false and null, and left the bump pointer,
the page-class map and the live blocks as they were. -/
def RefusedCall (core : BcCore) (s : PoolState) (call : PoolCall) : Prop :=
  (s.perform core call).2 = .failed ∧
    (s.perform core call).1.world.ctx.region.bump = s.world.ctx.region.bump ∧
    (s.perform core call).1.world.ctx.region.pageClass = s.world.ctx.region.pageClass ∧
    (s.perform core call).1.live = s.live ∧
    ∀ b ∈ s.live, ∀ a ∈ (blockExtent s.world.mem (b.kind core) (b.block core)).bytes,
      (s.perform core call).1.world.mem a = s.world.mem a

/-- The calls that ask for a size. -/
inductive AsksFor (s : PoolState) (size : Nat) : PoolCall → Prop where
  | allocate : AsksFor s size (.allocate size)
  | reallocateNull : AsksFor s size (.reallocate NULL size)
  | reallocate {ptr : Nat} : s.Live ptr → AsksFor s size (.reallocate ptr size)

/-! ## Nothing is large enough -/

/-- A block has at most the size of the region. -/
theorem PoolHeap.block_le_total (heap : PoolHeap platform w spans held free) {kind : PoolKind}
    {a : Nat} (owned : Owns held free kind a) :
    (blockExtent w.mem kind a).size ≤ w.ctx.region.totalSize := by
  obtain ⟨above, below, _⟩ := heap.block_bounds owned
  have top := heap.bump_le
  unfold Extent.stop at below
  rw [blockExtent_start] at below
  omega

/-- No block is granted for a request beyond the region. -/
theorem Granted.size_le {w' : World} {kind : PoolKind} {block : Nat}
    (granted : Granted platform w spans held kind size w' block) :
    size ≤ w'.ctx.region.totalSize := by
  obtain ⟨free, heap⟩ := granted.heap
  have owned : PoolHeap.Owns (Function.update held kind (block :: held kind)) free kind block :=
    List.mem_append_left _ (by simp)
  have := heap.block_le_total owned
  have := granted.fits
  omega

theorem Refused.call {w' : World} {call : PoolCall} {others : List LiveBlock}
    (refused : Refused platform s.world s.spans (heldBlocks core s.live) w')
    (same : s.perform core call = s.answered core others size (w', .failed)) :
    RefusedCall core s call := by
  unfold RefusedCall
  rw [same]
  refine ⟨rfl, congrArg Region.bump refused.region, congrArg Region.pageClass refused.region, rfl,
    fun _ _ a _ => congrFun refused.mem a⟩

/-- A call that asks for a size is refused, or returns true and the size is not
beyond the region, as long as its sum with the bump pointer does not wrap. -/
theorem PoolInv.asked_outcome (inv : PoolInv core platform s) (word : size < 2 ^ 64)
    (noWrap : ∀ total, largeTotal core s.world.ctx size = some total →
      s.world.ctx.region.bump + total < 2 ^ 64) {call : PoolCall} (asks : AsksFor s size call) :
    (∃ w' others, s.perform core call = s.answered core others size (w', .failed) ∧
      Refused platform s.world s.spans (heldBlocks core s.live) w') ∨
    ((s.perform core call).2.ok = true ∧ size ≤ s.world.ctx.region.totalSize) := by
  obtain ⟨free, heap⟩ := inv.heap
  have allocated : (∃ w' others,
      s.perform core (.allocate size) = s.answered core others size (w', .failed) ∧
        Refused platform s.world s.spans (heldBlocks core s.live) w') ∨
      ((s.perform core (.allocate size)).2.ok = true ∧ size ≤ s.world.ctx.region.totalSize) := by
    rcases poolAllocate_outcome core heap word noWrap with
      ⟨w', same, refused⟩ | ⟨w', block, _, same, granted, update⟩
    · exact Or.inl ⟨w', s.live, congrArg (s.answered core s.live size) same, refused⟩
    · refine Or.inr ⟨congrArg (fun result => result.2.ok) same, ?_⟩
      rw [← update.totalSize]
      exact granted.size_le
  cases asks with
  | allocate => exact allocated
  | reallocateNull =>
      rw [inv.perform_null]
      exact allocated
  | reallocate live =>
      obtain ⟨b, member, rfl⟩ := live
      rcases inv.reallocate_outcome member word noWrap with
        ⟨w', same, refused⟩ | ⟨w', newBlock, _, same, regranted⟩
      · exact Or.inl ⟨w', _, congrArg (s.answered core _ size) same, refused⟩
      · obtain ⟨_, update, _⟩ := regranted.update
        refine Or.inr ⟨congrArg (fun result => result.2.ok) same, ?_⟩
        rw [← update.totalSize]
        exact regranted.granted.size_le

/-- **A request beyond the region is refused when the sum does not wrap.** -/
theorem oversize_refused (inv : PoolInv core platform s)
    (oversize : s.world.ctx.region.totalSize < size) (word : size < 2 ^ 64)
    (exact : ¬ BumpWraps platform s.world.ctx size) {call : PoolCall}
    (asks : AsksFor s size call) : RefusedCall core s call := by
  obtain ⟨free, heap⟩ := inv.heap
  have noWrap : ∀ total, largeTotal core s.world.ctx size = some total →
      s.world.ctx.region.bump + total < 2 ^ 64 := by
    intro total rounded
    obtain ⟨rfl, small⟩ := (largeTotal_eq_some heap.geometry word).mp rounded
    unfold BumpWraps at exact
    omega
  rcases inv.asked_outcome word noWrap asks with ⟨w', others, same, refused⟩ | ⟨_, within⟩
  · exact refused.call same
  · omega

/-! ## The sum that wraps -/

/-- A wrapped sum moves the bump pointer backwards. -/
theorem bumpRaw_wraps (geometry : Geometry platform w.ctx)
    (bump_le : w.ctx.region.bump ≤ w.ctx.region.totalSize)
    (wraps : BumpWraps platform w.ctx size) :
    wadd w.ctx.region.bump (roundUp (largeMetaSize + size) platform.pageSize) <
      w.ctx.region.bump := by
  have half := geometry.total_lt
  obtain ⟨small, large⟩ := wraps
  rw [wadd_of_le (by omega) small large]
  omega

/-- What a granted request whose sum wraps leads to: a pointer behind the first free
page, and changes only to the header in front of it. -/
structure WrappedGrant (w w' : World) (userPtr : Nat) : Prop where
  pointer : userPtr = w.ctx.region.base + w.ctx.region.bump + largeMetaSize
  changes : ChangesOnly (Set.Ico (w.ctx.region.base + w.ctx.region.bump)
    (w.ctx.region.base + w.ctx.region.bump + largeMetaSize)) w.mem w'.mem

theorem WrappedGrant.ne_null {w' : World} {userPtr : Nat} (granted : WrappedGrant w w' userPtr) :
    userPtr ≠ NULL := by
  have pointer := granted.pointer
  unfold largeMetaSize at pointer
  unfold NULL
  omega

theorem bumpAllocateLarge_wraps (geometry : Geometry platform w.ctx)
    (bump_le : w.ctx.region.bump ≤ w.ctx.region.totalSize)
    (wraps : BumpWraps platform w.ctx size) :
    WrappedGrant w
      (bumpAllocateLarge w (roundUp (largeMetaSize + size) platform.pageSize) size).1
      (bumpAllocateLarge w (roundUp (largeMetaSize + size) platform.pageSize) size).2 := by
  have backwards := bumpRaw_wraps geometry bump_le wraps
  have base := geometry.base_pos
  unfold bumpAllocateLarge
  rw [bumpRaw_room (by omega)]
  dsimp only
  rw [if_neg (show ¬ w.ctx.region.base + w.ctx.region.bump = NULL by unfold NULL; omega)]
  refine ⟨rfl, ?_⟩
  unfold largeMetaSize
  refine ((changesOnly_storeWord _ _ _).mono ?_).trans ((changesOnly_storeWord _ _ _).mono ?_) <;>
  · intro a inside
    rw [Set.mem_Ico] at inside ⊢
    omega

/-- **A request whose sum wraps is granted.** -/
theorem allocateLarge_wraps (heap : PoolHeap platform w spans held free)
    (oversize : w.ctx.region.totalSize < size) (word : size < 2 ^ 64)
    (wraps : BumpWraps platform w.ctx size) :
    WrappedGrant w (allocateLarge core w size).1 (allocateLarge core w size).2 := by
  have rounded : largeTotal core w.ctx size =
      some (roundUp (largeMetaSize + size) platform.pageSize) :=
    (largeTotal_eq_some heap.geometry word).mpr ⟨rfl, wraps.1⟩
  unfold allocateLarge
  rw [rounded]
  dsimp only
  cases list : free .large with
  | nil =>
      rw [heap.pop_nil list, if_neg (by simp)]
      exact bumpAllocateLarge_wraps heap.geometry heap.bump_le wraps
  | cons a rest =>
      -- the block on top of the large pool is too small and goes back
      obtain ⟨same, nonnull, _⟩ := heap.popped list
      have owned : PoolHeap.Owns held free .large a :=
        List.mem_append_right _ (list ▸ List.mem_cons_self)
      have small := heap.block_le_total owned
      rw [blockExtent] at small
      have enough : largeMetaSize + size ≤ roundUp (largeMetaSize + size) platform.pageSize :=
        le_roundUp platform.pageSize_pos
      rw [if_pos nonnull, same, if_neg (by rw [popFree_mem]; dsimp only at small; omega)]
      have refused := heap.pushBack list
      obtain ⟨free', heap'⟩ := refused.heap
      have granted := bumpAllocateLarge_wraps heap'.geometry heap'.bump_le
        (show BumpWraps platform _ size by
          unfold BumpWraps
          rw [refused.region]
          exact wraps)
      obtain ⟨pointer, changes⟩ := granted
      rw [refused.region] at pointer changes
      rw [refused.mem] at changes
      exact ⟨pointer, changes⟩

/-- Only a large request can wrap the sum. -/
theorem BumpWraps.large (geometry : Geometry platform w.ctx)
    (bump_le : w.ctx.region.bump ≤ w.ctx.region.totalSize)
    (wraps : BumpWraps platform w.ctx size) : maxClassSize < size := by
  have half := geometry.total_add_page_le
  have below : roundUp (largeMetaSize + size) platform.pageSize <
      largeMetaSize + size + platform.pageSize := roundUp_lt platform.pageSize_pos
  have above := wraps.2
  unfold maxClassSize
  unfold largeMetaSize at *
  omega

theorem poolAllocate_wraps (heap : PoolHeap platform w spans held free)
    (oversize : w.ctx.region.totalSize < size) (word : size < 2 ^ 64)
    (wraps : BumpWraps platform w.ctx size) :
    (poolAllocate core w size).2.ok = true ∧
      WrappedGrant w (poolAllocate core w size).1 (poolAllocate core w size).2.out := by
  have large := wraps.large heap.geometry heap.bump_le
  have granted : WrappedGrant w (allocateLarge core w size).1 (allocateLarge core w size).2 :=
    allocateLarge_wraps heap oversize word wraps
  unfold poolAllocate
  rw [if_neg (by omega), (sizeClassForSize_none core).mpr large]
  dsimp only
  rw [if_neg granted.ne_null]
  exact ⟨rfl, granted.pointer, granted.changes⟩

/-- A reallocation beyond the region always tries to move the block. -/
theorem poolReallocate_wraps (core : BcCore) {kind : PoolKind} {block : Nat}
    (heap : PoolHeap platform w spans held free) (inHeld : block ∈ held kind)
    (oversize : w.ctx.region.totalSize < size) (word : size < 2 ^ 64)
    (wraps : BumpWraps platform w.ctx size) :
    (poolReallocate core w (block + kind.header) size).2.ok = true := by
  have owned : PoolHeap.Owns held free kind block := List.mem_append_left _ inHeld
  have large := wraps.large heap.geometry heap.bump_le
  have moved : ∀ usable, (reallocateMove core w (block + kind.header) usable size).2.ok = true := by
    intro usable
    unfold reallocateMove
    dsimp only
    rw [(poolAllocate_wraps heap oversize word wraps).1, if_neg (by simp)]
  have nonnull : block + kind.header ≠ NULL := by
    have := (heap.block_address owned).1
    unfold NULL
    omega
  unfold poolReallocate
  rw [if_neg (by omega), if_neg nonnull, heap.getUsableSize_eq owned,
    (sizeClassForSize_none core).mpr large]
  dsimp only
  cases kind with
  | sized cls =>
      rw [if_pos (by simp)]
      exact moved _
  | large =>
      have rounded : largeTotal core w.ctx size =
          some (roundUp (largeMetaSize + size) platform.pageSize) :=
        (largeTotal_eq_some heap.geometry word).mpr ⟨rfl, wraps.1⟩
      have small := heap.block_le_total owned
      rw [blockExtent] at small
      have enough : largeMetaSize + size ≤ roundUp (largeMetaSize + size) platform.pageSize :=
        le_roundUp platform.pageSize_pos
      rw [if_neg (by simp), rounded, show block + PoolKind.large.header - largeMetaSize = block from
        Nat.add_sub_cancel block largeMetaSize]
      dsimp only at small ⊢
      rw [if_neg (by omega)]
      exact moved _

/-- **A call whose sum wraps returns true.** -/
theorem PoolInv.wraps_granted (inv : PoolInv core platform s)
    (oversize : s.world.ctx.region.totalSize < size) (word : size < 2 ^ 64)
    (wraps : BumpWraps platform s.world.ctx size) {call : PoolCall} (asks : AsksFor s size call) :
    (s.perform core call).2.ok = true := by
  obtain ⟨free, heap⟩ := inv.heap
  have allocated : (s.perform core (.allocate size)).2.ok = true :=
    (poolAllocate_wraps heap oversize word wraps).1
  cases asks with
  | allocate => exact allocated
  | reallocateNull =>
      rw [inv.perform_null]
      exact allocated
  | reallocate live =>
      obtain ⟨b, member, rfl⟩ := live
      have moved := poolReallocate_wraps core heap (heldBlocks_of_mem core member) oversize word
        wraps
      rwa [(inv.placed b member).pointer] at moved

/-- Each call that asks for more than the region is refused exactly when the sum
does not wrap. -/
theorem refusedCall_iff (inv : PoolInv core platform s)
    (oversize : s.world.ctx.region.totalSize < size) (word : size < 2 ^ 64) {call : PoolCall}
    (asks : AsksFor s size call) :
    RefusedCall core s call ↔ ¬ BumpWraps platform s.world.ctx size := by
  refine ⟨fun refused wraps => ?_, fun exact => oversize_refused inv oversize word exact asks⟩
  have failed := congrArg PtrResult.ok refused.1
  rw [inv.wraps_granted oversize word wraps asks] at failed
  simp [PtrResult.failed] at failed

/-- A size beyond the region is refused by every call that asks for it, and no
sum of the large path wraps to a value that passes the limit. -/
structure OversizeRefused (core : BcCore) (s : PoolState) (size : Nat) : Prop where
  refused : ∀ call, AsksFor s size call → RefusedCall core s call
  rounded : ∀ total, largeTotal core s.world.ctx size = some total → largeMetaSize + size ≤ total
  bumped : ∀ total, largeTotal core s.world.ctx size = some total →
    s.world.ctx.region.totalSize < wadd s.world.ctx.region.bump total

/-- **Exactly when a size beyond the region is refused**, in every reachable
state. -/
theorem oversizeRefused_iff (core : BcCore) (platform : Platform) {s : PoolState}
    (reachable : (poolSystem core platform).Reachable s) {size : Nat}
    (oversize : s.world.ctx.region.totalSize < size) (word : size < 2 ^ 64) :
    OversizeRefused core s size ↔ ¬ BumpWraps platform s.world.ctx size := by
  have inv := PoolInv.reachable reachable
  constructor
  · intro refused
    exact (refusedCall_iff inv oversize word .allocate).mp (refused.refused _ .allocate)
  · intro exact
    obtain ⟨free, heap⟩ := inv.heap
    have enough : largeMetaSize + size ≤ roundUp (largeMetaSize + size) platform.pageSize :=
      le_roundUp platform.pageSize_pos
    refine ⟨fun call asks => (refusedCall_iff inv oversize word asks).mpr exact,
      fun total rounded => ?_, fun total rounded => ?_⟩
    · obtain ⟨rfl, _⟩ := (largeTotal_eq_some heap.geometry word).mp rounded
      exact enough
    · obtain ⟨rfl, small⟩ := (largeTotal_eq_some heap.geometry word).mp rounded
      have sum : s.world.ctx.region.bump +
          roundUp (largeMetaSize + size) platform.pageSize < 2 ^ 64 := by
        unfold BumpWraps at exact
        omega
      rw [wadd_of_lt sum]
      omega

/-- The small context with two pages carved for blocks of 4096 bytes. -/
def twoPages : PoolState :=
  ((sixteenPages.perform BcCore.reference (.allocate 4096)).1.perform BcCore.reference
    (.allocate 4096)).1

theorem twoPages_reachable : (poolSystem BcCore.reference Platform.x86).Reachable twoPages :=
  reachable_perform (.allocate 4096)
    (reachable_perform (.allocate 4096) (.start sixteenPages_start)
      (show (4096 : Nat) ≤ 65536 by decide))
    (show (4096 : Nat) ≤ 65536 by decide)

/-- At `SIZE_MAX` the header does not fit and the request is refused. -/
theorem oversizeRefused_iff_max :
    OversizeRefused BcCore.reference twoPages (2 ^ 64 - 1) ↔
      ¬ BumpWraps Platform.x86 twoPages.world.ctx (2 ^ 64 - 1) :=
  oversizeRefused_iff BcCore.reference Platform.x86 twoPages_reachable (by decide) (by decide)

/-- **A request of nearly `2 ^ 64` bytes is granted** when two pages are carved:
the rounded size is `2 ^ 64 - 4096`, and its sum with the bump pointer wraps to
4096. -/
theorem oversize_granted :
    (poolSystem BcCore.reference Platform.x86).Reachable twoPages ∧
      twoPages.world.ctx.region.totalSize < 2 ^ 64 - 4112 ∧
      (twoPages.perform BcCore.reference (.allocate (2 ^ 64 - 4112))).2 = ⟨true, 73744⟩ ∧
      ¬ OversizeRefused BcCore.reference twoPages (2 ^ 64 - 4112) := by
  have granted : (twoPages.perform BcCore.reference (.allocate (2 ^ 64 - 4112))).2 =
      ⟨true, 73744⟩ := by decide
  refine ⟨twoPages_reachable, by decide, granted, fun refused => ?_⟩
  have failed := (refused.refused _ .allocate).1
  rw [granted] at failed
  exact absurd failed (by decide)

end BcAllocators
