import BcAllocators.Arena.Client

/-!
# Requests that succeed and requests that fail

An allocation that fails leaves its arena as it was, unless it has linked a new
chunk before it failed. That happens when the sum of size and alignment wraps:
the chunk is sized for the wrapped sum, and the request does not fit in it
(`failedCleanly_iff`). When the sum does not wrap the new chunk always serves the
request, so a growable arena fails only for want of the block
(`growable_request_served`).
-/

set_option autoImplicit false

namespace BcAllocators

open Machine

variable {core : BcCore} {platform : Platform} {foreign : List Extent} {s : ArenaState}
variable {w : World} {a : ArenaView} {rest : List ArenaView}
variable {size alignment : Nat} {answer : Option Nat}

/-! ## Failed requests -/

/-- What a failed request may not change: the chain of the arena, its current
chunk, the used bytes of each chunk, the count of allocations, and the counters of
mapped bytes. -/
structure ArenaFigures where
  chain : List Nat
  currentChunk : Nat
  used : List Nat
  allocationCount : Nat
  arenaTotalBytes : Nat
  totalMappedBytes : Nat
  peakMappedBytes : Nat
deriving DecidableEq, Repr

def arenaFigures (w : World) (arena : Nat) : ArenaFigures where
  chain := arenaChain w.mem arena
  currentChunk := arenaCurrentChunk w.mem arena
  used := (arenaChain w.mem arena).map (chunkUsed w.mem)
  allocationCount := arenaAllocationCount w.mem arena
  arenaTotalBytes := w.ctx.arenaTotalBytes
  totalMappedBytes := w.ctx.totalMappedBytes
  peakMappedBytes := w.ctx.peakMappedBytes

theorem chain_of_figures {w w' : World} {arena : Nat}
    (same : arenaFigures w' arena = arenaFigures w arena) :
    arenaChain w'.mem arena = arenaChain w.mem arena := (ArenaFigures.mk.inj same).1

/-- An allocation that fails leaves the figures as they were. -/
def FailsCleanly (core : BcCore) (platform : Platform) (w : World) (arena size alignment : Nat)
    (answer : Option Nat) : Prop :=
  (arenaAllocate core platform w arena size alignment answer).2.ok = false →
    arenaFigures (arenaAllocate core platform w arena size alignment answer).1 arena =
      arenaFigures w arena

/-- A request that links a chunk and fails has a longer chain afterwards. -/
theorem ArenaHeap.chain_grown {w' : World} {block mmapSize : Nat}
    (heap : ArenaHeap platform w (a :: rest) foreign)
    (after : ArenaHeap platform w' (a.extend block mmapSize :: rest) foreign) :
    arenaChain w'.mem a.address ≠ arenaChain w.mem a.address := by
  have chain := after.arenaChain_eq List.mem_cons_self
  rw [a.extend_address, a.extend_chunks, List.map_append] at chain
  rw [chain, heap.arenaChain_eq List.mem_cons_self]
  intro same
  have lengths := congrArg List.length same
  rw [List.length_append] at lengths
  simp at lengths

/-- A request fails cleanly exactly when it does not waste a chunk. -/
theorem ArenaHeap.failsCleanly_iff (core : BcCore)
    (heap : ArenaHeap platform w (a :: rest) foreign) (sizeWord : size < 2 ^ 64)
    (alignmentWord : alignment < 2 ^ 64) :
    FailsCleanly core platform w a.address size alignment answer ↔
      ¬ Wastes platform w a.address size alignment answer := by
  have outcome := arenaAllocate_outcome core heap sizeWord alignmentWord answer
  rw [FailsCleanly]
  generalize arenaAllocate core platform w a.address size alignment answer = result at outcome ⊢
  cases outcome with
  | refused idle => exact ⟨fun _ => idle, fun _ _ => rfl⟩
  | served _ _ _ fits =>
      refine ⟨fun _ wastes => ?_, fun _ failed => ?_⟩
      · exact Nat.not_le_of_lt fits wastes.wraps
      · cases failed
  | grown _ _ _ fits =>
      refine ⟨fun _ wastes => ?_, fun _ failed => ?_⟩
      · exact Nat.not_le_of_lt fits wastes.wraps
      · cases failed
  | wasted after _ _ wastes =>
      refine ⟨fun clean _ => ?_, fun idle => absurd wastes idle⟩
      exact heap.chain_grown after (chain_of_figures (clean rfl))

/-- **Exactly when a failed allocation leaves the arena as it was**, for every
arena of a reachable state. -/
theorem failedCleanly_iff (core : BcCore) (platform : Platform) (foreign : List Extent)
    (reachable : (arenaSystem core platform foreign).Reachable s) {arena : Nat}
    (live : s.Live arena) (sizeWord : size < 2 ^ 64) (alignmentWord : alignment < 2 ^ 64)
    (answer : Option Nat) :
    FailsCleanly core platform s.world arena size alignment answer ↔
      ¬ Wastes platform s.world arena size alignment answer := by
  obtain ⟨views, heap, perm⟩ := ArenaInv.reachable reachable
  obtain ⟨h, member, rfl⟩ := live
  obtain ⟨a, rest, rfl, _, first, _⟩ := ArenaInv.split heap perm member
  exact first.failsCleanly_iff core sizeWord alignmentWord

/-- A request of more bytes than an arena can have fails cleanly when the kernel
gives nothing. -/
theorem failedCleanly_iff_oneArena :
    FailsCleanly BcCore.reference Platform.x86 oneArena.world 131072 (2 ^ 64 - 1) 1 none ↔
      ¬ Wastes Platform.x86 oneArena.world 131072 (2 ^ 64 - 1) 1 none :=
  failedCleanly_iff BcCore.reference Platform.x86 [] oneArena_reachable
    ⟨⟨131072, []⟩, by decide, rfl⟩ (by decide) (by decide) none

/-- **A failed request for `SIZE_MAX` bytes maps a chunk**: size and alignment add up
to zero, the new chunk is made for no bytes and becomes the current one. -/
theorem failed_request_wastes :
    (arenaSystem BcCore.reference Platform.x86 []).Reachable oneArena ∧
      oneArena.Live 131072 ∧
      (arenaAllocate BcCore.reference Platform.x86 oneArena.world 131072 (2 ^ 64 - 1) 1
        (some 262144)).2 = .failed ∧
      ¬ FailsCleanly BcCore.reference Platform.x86 oneArena.world 131072 (2 ^ 64 - 1) 1
        (some 262144) := by
  have failed : (arenaAllocate BcCore.reference Platform.x86 oneArena.world 131072 (2 ^ 64 - 1) 1
      (some 262144)).2 = .failed := by decide
  refine ⟨oneArena_reachable, ⟨⟨131072, []⟩, by decide, rfl⟩, failed, fun clean => ?_⟩
  have current := congrArg ArenaFigures.currentChunk (clean (by rw [failed]; rfl))
  revert current
  decide

/-! ## Requests of a growable arena -/

/-- A target above the minimum is no more than the doubled capacity. -/
theorem targetCapacity_le (lastCapacity maxChunkSize minCapacity : Nat) :
    targetCapacity lastCapacity maxChunkSize minCapacity ≤
      max minCapacity (wmul lastCapacity 2) := by
  simp only [targetCapacity]
  split_ifs <;> omega

/-- **When a new chunk has no size**: only the doubled capacity of the current chunk
can be too large, if the request itself is not. -/
theorem growMmapSize_eq_none (core : BcCore) {arena minCapacity : Nat}
    (pageSize : w.ctx.pageSize = platform.pageSize)
    (fits : roundUp (chunkHeaderAligned + minCapacity) platform.pageSize < 2 ^ 64)
    (unsized : growMmapSize core w arena minCapacity = none) :
    2 ^ 64 ≤ roundUp (chunkHeaderAligned +
      wmul (chunkCapacity w.mem (arenaCurrentChunk w.mem arena)) 2) platform.pageSize := by
  have pos := platform.pageSize_pos
  have page : platform.pageSize < 2 ^ 64 := platform.pageSize_lt.trans (by decide)
  have minWord : minCapacity < 2 ^ 64 :=
    lt_of_le_of_lt ((Nat.le_add_left _ _).trans (le_roundUp pos)) fits
  have word := targetCapacity_lt (chunkCapacity w.mem (arenaCurrentChunk w.mem arena))
    (loadWord_lt w.mem (arena + 40)) minWord
  have rounded : 2 ^ 64 ≤ roundUp (chunkHeaderAligned +
      targetCapacity (chunkCapacity w.mem (arenaCurrentChunk w.mem arena))
        (arenaMaxChunkSize w.mem arena) minCapacity) platform.pageSize := by
    rw [growMmapSize_eq core arena minCapacity pageSize] at unsized
    exact (core.padded_eq_none (by decide) word page platform.pageSize_power).mp unsized
  have target := targetCapacity_le (chunkCapacity w.mem (arenaCurrentChunk w.mem arena))
    (arenaMaxChunkSize w.mem arena) minCapacity
  rcases le_max_iff.mp target with least | double
  · exact absurd (rounded.trans (roundUp_mono pos (Nat.add_le_add_left least _)))
      (Nat.not_le_of_lt fits)
  · exact rounded.trans (roundUp_mono pos (Nat.add_le_add_left double _))

/-- A chunk in a block of less than half the address space has a capacity that can be
doubled: its growth has a size when the request itself is not too large. -/
theorem ArenaHeap.growMmapSize_of_small (core : BcCore)
    (heap : ArenaHeap platform w (a :: rest) foreign) (minCapacity : Nat)
    (fits : roundUp (chunkHeaderAligned + minCapacity) platform.pageSize < 2 ^ 64)
    (small : chunkMmapSize w.mem (arenaCurrentChunk w.mem a.address) < 2 ^ 63) :
    ∃ mmapSize, growMmapSize core w a.address minCapacity = some mmapSize := by
  by_contra none
  have unsized : growMmapSize core w a.address minCapacity = .none :=
    Option.eq_none_iff_forall_not_mem.mpr fun mmapSize sized => none ⟨mmapSize, sized⟩
  have large := growMmapSize_eq_none core heap.pageSize fits unsized
  have here := heap.here a List.mem_cons_self
  have current : arenaCurrentChunk w.mem a.address = a.last.header :=
    ArenaView.currentChunk_of_header here.header
  rw [current, (here.chunks a.last a.last_mem).mmapSize] at small
  rw [current, (here.chunks a.last a.last_mem).capacity] at large
  -- the block has whole pages, so a page is left below half the address space
  have page : a.last.mmapSize + platform.pageSize ≤ 2 ^ 63 :=
    platform.add_pageSize_le (Nat.le_refl 63)
      (heap.blockFit List.mem_cons_self a.last_mem).size_aligned small
  have capacity : a.last.capacity = a.last.mmapSize - (a.last.lead + chunkHeaderAligned) := rfl
  have below : roundUp (chunkHeaderAligned + a.last.capacity * 2) platform.pageSize <
      chunkHeaderAligned + a.last.capacity * 2 + platform.pageSize :=
    roundUp_lt platform.pageSize_pos
  unfold chunkHeaderAligned at *
  rw [wmul_of_lt (by omega)] at large
  omega

/-- The block for a new chunk is obtained: a block of its size is in the cache or
mapped. -/
def BlockObtained (core : BcCore) (platform : Platform) (w : World) (arena minCapacity : Nat)
    (answer : Option Nat) : Prop :=
  ∃ mmapSize, growMmapSize core w arena minCapacity = some mmapSize ∧
    (mapBlock platform w mmapSize answer).isSome = true

/-- The block for a new chunk was asked for and not obtained: none of its size is in
the cache, and it is not mapped. -/
def BlockRefused (core : BcCore) (platform : Platform) (w : World) (arena minCapacity : Nat)
    (answer : Option Nat) : Prop :=
  ∃ mmapSize, growMmapSize core w arena minCapacity = some mmapSize ∧
    mapBlock platform w mmapSize answer = none

/-- **A new chunk serves the request it was made for**, whatever its alignment: the
chunk has room for the padding in front of it. -/
theorem ArenaHeap.serves_after_grow (core : BcCore)
    (heap : ArenaHeap platform w (a :: rest) foreign) (sizePos : 0 < size)
    (power : alignment.isPowerOfTwo) (fits : size + alignment < 2 ^ 64)
    (obtained : BlockObtained core platform w a.address (wadd size alignment) answer) :
    ∃ w' m ptr, arenaGrow core platform w a.address (wadd size alignment) answer = (w', true) ∧
      tryAllocInChunk core w'.mem (arenaCurrentChunk w'.mem a.address) size alignment =
        (m, some ptr) := by
  obtain ⟨mmapSize, sized, some⟩ := obtained
  obtain ⟨⟨w₁, block⟩, mapped⟩ := Option.isSome_iff_exists.mp some
  have minWord := wadd_lt size alignment
  obtain ⟨w', grown, after, _, _⟩ := heap.grow core minWord sized mapped
  obtain ⟨_, _, room⟩ := growMmapSize_eq_some core heap.pageSize minWord sized
  rw [wadd_of_lt fits] at room
  have address := a.extend_address block mmapSize
  have sizeWord : size < 2 ^ 64 := lt_of_le_of_lt (Nat.le_add_right _ _) fits
  have alignmentWord : alignment < 2 ^ 64 := lt_of_le_of_lt (Nat.le_add_left _ _) fits
  rcases after.allocate_last core sizePos sizeWord alignmentWord power with
    ⟨_, m, served, _, _⟩ | ⟨tooBig, _⟩
  · rw [address] at served
    exact ⟨w', m, _, grown, served⟩
  · exact absurd (Chunk.offer_new (isPowerOfTwo_pos power) room) tooBig

/-- **Growable arenas serve every request for which there is a block.** When the
current chunk cannot serve a request and the block for a new chunk is obtained, the
second attempt succeeds. So an allocation fails only when the cache and the kernel
have no block of the size that was asked for; unless the block of the current chunk
takes half the address space, and its capacity cannot be doubled. -/
theorem growable_request_served (core : BcCore) (platform : Platform) (foreign : List Extent)
    (reachable : (arenaSystem core platform foreign).Reachable s) {arena : Nat}
    (live : s.Live arena) (growable : arenaGrowable s.world.mem arena = true)
    (sizePos : 1 ≤ size) (power : alignment.isPowerOfTwo)
    (fits : roundUp (chunkHeaderAligned + (size + alignment)) platform.pageSize < 2 ^ 64)
    (answer : Option Nat) :
    ((tryAllocInChunk core s.world.mem (arenaCurrentChunk s.world.mem arena) size
          alignment).2 = none →
      BlockObtained core platform s.world arena (wadd size alignment) answer →
      ∃ w' m ptr,
        arenaGrow core platform s.world arena (wadd size alignment) answer = (w', true) ∧
        tryAllocInChunk core w'.mem (arenaCurrentChunk w'.mem arena) size alignment =
          (m, some ptr)) ∧
    ((arenaAllocate core platform s.world arena size alignment answer).2.ok = false →
      BlockRefused core platform s.world arena (wadd size alignment) answer ∨
        2 ^ 63 ≤ chunkMmapSize s.world.mem (arenaCurrentChunk s.world.mem arena)) := by
  obtain ⟨views, heap, perm⟩ := ArenaInv.reachable reachable
  obtain ⟨h, member, rfl⟩ := live
  obtain ⟨a, rest, rfl, _, first, _⟩ := ArenaInv.split heap perm member
  have small : size + alignment < 2 ^ 64 :=
    lt_of_le_of_lt ((Nat.le_add_left _ _).trans (le_roundUp platform.pageSize_pos)) fits
  refine ⟨fun _ obtained => first.serves_after_grow core sizePos power small obtained, ?_⟩
  intro failed
  have address : (ArenaView.client a).address = a.address := rfl
  rw [address] at failed growable ⊢
  rcases Nat.lt_or_ge (chunkMmapSize s.world.mem (arenaCurrentChunk s.world.mem a.address))
    (2 ^ 63) with half | huge
  case inr => exact Or.inr huge
  obtain ⟨mmapSize, sized⟩ := first.growMmapSize_of_small core (wadd size alignment)
    (by rwa [wadd_of_lt small]) half
  refine Or.inl ⟨mmapSize, sized, ?_⟩
  by_contra mapped
  obtain ⟨w', m, ptr, grown, again⟩ := first.serves_after_grow core sizePos power small
    ⟨mmapSize, sized, Option.isSome_iff_ne_none.mpr mapped⟩
  obtain ⟨pos, single⟩ := alignment_test.mpr power
  simp only [arenaAllocate, if_neg (not_or.mpr ⟨Nat.ne_of_gt sizePos, pos⟩), if_neg single]
    at failed
  split at failed
  · cases failed
  · simp only [growable, if_neg (show ¬ (true = false) by decide), grown, again] at failed
    cases failed

/-- The growable arena serves a request of three pages, aligned to two, from a second
chunk when the kernel gives a block, and fails when the kernel gives none. -/
theorem growable_request_served_oneArena :
    (∃ w' m ptr,
        arenaGrow BcCore.reference Platform.x86 oneArena.world 131072 (wadd 12288 8192)
          (some 262144) = (w', true) ∧
        tryAllocInChunk BcCore.reference w'.mem (arenaCurrentChunk w'.mem 131072) 12288 8192 =
          (m, some ptr)) ∧
      (BlockRefused BcCore.reference Platform.x86 oneArena.world 131072 (wadd 12288 8192) none ∨
        2 ^ 63 ≤ chunkMmapSize oneArena.world.mem
          (arenaCurrentChunk oneArena.world.mem 131072)) := by
  have served := growable_request_served BcCore.reference Platform.x86 [] oneArena_reachable
    ⟨⟨131072, []⟩, by decide, rfl⟩ (by decide) (show 1 ≤ 12288 by decide)
    (show (8192 : Nat).isPowerOfTwo from ⟨13, rfl⟩) (by decide)
  exact ⟨(served (some 262144)).1 (by decide) ⟨24576, by decide, by decide⟩,
    (served none).2 (by decide)⟩

/-- The pointer is aligned. -/
example : (arenaAllocate BcCore.reference Platform.x86 oneArena.world 131072 12288 8192
    (some 262144)).2 = ⟨true, 270336⟩ := by decide

end BcAllocators
