import BcAllocators.Context

/-!
# The arena allocator

The functions of `bc_allocators_arena.c`, in the order of the source. The arena
and its chunks are structures in the memory of the world: the arena header at
the start of the first block, a chunk header behind it, and a chunk header at the
start of every other block. A field is a word at its offset.

A call that may map memory takes the answer of the kernel to that one `mmap`.
The loops follow `next` pointers; they are given as many steps as there are
addresses and have no result when that is not enough.
-/

set_option autoImplicit false

namespace BcAllocators

open Machine

def arenaHeaderAligned : Nat := 64
def chunkHeaderAligned : Nat := 64

/-! ## Fields -/

/-- `bc_allocators_arena_chunk_t` -/
def chunkNext (m : Memory) (chunk : Nat) : Nat := loadWord m chunk
def chunkMmapSize (m : Memory) (chunk : Nat) : Nat := loadWord m (chunk + 8)
def chunkCapacity (m : Memory) (chunk : Nat) : Nat := loadWord m (chunk + 16)
def chunkUsed (m : Memory) (chunk : Nat) : Nat := loadWord m (chunk + 24)
def chunkMemoryStart (m : Memory) (chunk : Nat) : Nat := loadWord m (chunk + 32)

/-- `struct bc_allocators_arena` -/
def arenaCtx (m : Memory) (arena : Nat) : Nat := loadWord m arena
def arenaFirstChunk (m : Memory) (arena : Nat) : Nat := loadWord m (arena + 8)
def arenaCurrentChunk (m : Memory) (arena : Nat) : Nat := loadWord m (arena + 16)
def arenaAllocationCount (m : Memory) (arena : Nat) : Nat := loadWord m (arena + 24)
def arenaInitialChunkSize (m : Memory) (arena : Nat) : Nat := loadWord m (arena + 32)
def arenaMaxChunkSize (m : Memory) (arena : Nat) : Nat := loadWord m (arena + 40)
def arenaGrowable (m : Memory) (arena : Nat) : Bool := decide (m (arena + 48) ≠ 0)

/-- The five assignments that set up a chunk. -/
def initChunk (m : Memory) (chunk mmapSize capacity memoryStart : Nat) : Memory :=
  let m := storeWord m chunk NULL
  let m := storeWord m (chunk + 8) mmapSize
  let m := storeWord m (chunk + 16) capacity
  let m := storeWord m (chunk + 24) 0
  storeWord m (chunk + 32) memoryStart

/-- The seven assignments that set up an arena. -/
def initArena (m : Memory) (arena ctx chunk initialChunkSize maxChunkSize : Nat)
    (growable : Bool) : Memory :=
  let m := storeWord m arena ctx
  let m := storeWord m (arena + 8) chunk
  let m := storeWord m (arena + 16) chunk
  let m := storeWord m (arena + 24) 0
  let m := storeWord m (arena + 32) initialChunkSize
  let m := storeWord m (arena + 40) maxChunkSize
  storeByte m (arena + 48) (if growable then 1 else 0)

/-! ## Blocks -/

/-- The first index of the cache with a block of the size. -/
def ArenaCache.find (cache : ArenaCache) (mmapSize : Nat) : Option (Fin cache.count) :=
  (List.finRange cache.count).find? fun i =>
    have := cache.count_le
    (cache.entries[i.val]).size = mmapSize

/-- `arena_cache[i] = arena_cache[count - 1]; count--`. -/
def ArenaCache.remove (cache : ArenaCache) (i : Fin cache.count) : ArenaCache :=
  have := cache.count_le
  have := i.isLt
  { entries := cache.entries.set i.val cache.entries[cache.count - 1]
    count := cache.count - 1
    count_le := by omega }

/-- `arena_cache[count] = (block, mmap_size); count++`. -/
def ArenaCache.add (cache : ArenaCache) (room : cache.count < arenaCacheSize) (e : Extent) :
    ArenaCache :=
  { entries := cache.entries.set cache.count e, count := cache.count + 1, count_le := room }

/-- `bc_allocators_arena_map_block`; `MADV_HUGEPAGE` changes no contents. -/
def mapBlock (platform : Platform) (w : World) (mmapSize : Nat) (answer : Option Nat) :
    Option (World × Nat) :=
  match w.ctx.arenaCache.find mmapSize with
  | some i =>
    have := w.ctx.arenaCache.count_le
    some ({ w with ctx := { w.ctx with arenaCache := w.ctx.arenaCache.remove i } },
      (w.ctx.arenaCache.entries[i.val]).start)
  | none =>
    match platformMap platform w.kernel w.mem mmapSize answer with
    | none => none
    | some (kernel, m, block) => some ({ w with mem := m, kernel := kernel }, block)

/-- `bc_allocators_arena_release_block`. -/
def releaseBlock (w : World) (block mmapSize : Nat) : World :=
  if room : w.ctx.arenaCache.count < arenaCacheSize then
    { w with ctx := { w.ctx with arenaCache := w.ctx.arenaCache.add room ⟨block, mmapSize⟩ } }
  else { w with kernel := w.kernel.unmap ⟨block, mmapSize⟩ }

/-! ## Tracking -/

/-- Charge a mapped block to the arenas. -/
def chargeMapped (ctx : Context) (mmapSize : Nat) : Context :=
  let total := wadd ctx.totalMappedBytes mmapSize
  { ctx with
    arenaTotalBytes := wadd ctx.arenaTotalBytes mmapSize
    totalMappedBytes := total
    peakMappedBytes := if total > ctx.peakMappedBytes then total else ctx.peakMappedBytes }

/-- The tracking of `bc_allocators_arena_make_first`. -/
def trackCreate (ctx : Context) (mmapSize : Nat) : Context :=
  if ctx.trackingEnabled then
    chargeMapped { ctx with arenaCreateCount := wadd ctx.arenaCreateCount 1 } mmapSize
  else ctx

/-- The tracking of `bc_allocators_arena_grow`. -/
def trackGrow (ctx : Context) (mmapSize : Nat) : Context :=
  if ctx.trackingEnabled then chargeMapped ctx mmapSize else ctx

/-- Credit a released block. -/
def creditMapped (ctx : Context) (mmapSize : Nat) : Context :=
  { ctx with
    arenaTotalBytes := wsub ctx.arenaTotalBytes mmapSize
    totalMappedBytes := wsub ctx.totalMappedBytes mmapSize }

/-- The tracking of one chunk in `bc_allocators_arena_destroy` and
`bc_allocators_arena_reset`. -/
def trackRelease (ctx : Context) (mmapSize : Nat) : Context :=
  if ctx.trackingEnabled then creditMapped ctx mmapSize else ctx

/-- The tracking of the first chunk in `bc_allocators_arena_destroy`. -/
def trackDestroy (ctx : Context) (mmapSize : Nat) : Context :=
  if ctx.trackingEnabled then
    creditMapped { ctx with arenaDestroyCount := wadd ctx.arenaDestroyCount 1 } mmapSize
  else ctx

/-! ## Creation -/

/-- The bytes that `bc_allocators_arena_make_first` maps. -/
def firstMmapSize (core : BcCore) (ctx : Context) (capacity : Nat) : Option Nat :=
  match core.safeAdd (arenaHeaderAligned + chunkHeaderAligned) capacity with
  | none => none
  | some totalRaw => core.alignUp totalRaw ctx.pageSize

/-- `bc_allocators_arena_make_first`. -/
def arenaMakeFirst (core : BcCore) (platform : Platform) (w : World)
    (capacity initialChunkSize maxChunkSize : Nat) (growable : Bool) (answer : Option Nat) :
    World × PtrResult :=
  if capacity = 0 then (w, .failed)
  else
    let overhead := arenaHeaderAligned + chunkHeaderAligned
    match firstMmapSize core w.ctx capacity with
    | none => (w, .failed)
    | some mmapSize =>
      match mapBlock platform w mmapSize answer with
      | none => (w, .failed)
      | some (w, block) =>
        let chunk := block + arenaHeaderAligned
        let m := initChunk w.mem chunk mmapSize (wsub mmapSize overhead) (block + overhead)
        let m := initArena m block w.ctx.address chunk initialChunkSize maxChunkSize growable
        ({ w with ctx := trackCreate w.ctx mmapSize, mem := m }, ⟨true, block⟩)

/-- `bc_allocators_arena_create`. -/
def arenaCreate (core : BcCore) (platform : Platform) (w : World) (capacity : Nat)
    (answer : Option Nat) : World × PtrResult :=
  arenaMakeFirst core platform w capacity capacity capacity false answer

/-- `bc_allocators_arena_create_growable`. A size that is refused at once leaves
`*out_arena` as it was; the model gives null. -/
def arenaCreateGrowable (core : BcCore) (platform : Platform) (w : World)
    (initialChunkSize maxChunkSize : Nat) (answer : Option Nat) : World × PtrResult :=
  if initialChunkSize = 0 then (w, .failed)
  else if maxChunkSize ≠ 0 ∧ maxChunkSize < initialChunkSize then (w, .failed)
  else
    arenaMakeFirst core platform w initialChunkSize initialChunkSize maxChunkSize true answer

/-! ## Growth -/

/-- The capacity that `bc_allocators_arena_grow` aims at. -/
def targetCapacity (lastCapacity maxChunkSize minCapacity : Nat) : Nat :=
  let target := wmul lastCapacity 2
  let target := if target < minCapacity then minCapacity else target
  let target := if maxChunkSize ≠ 0 ∧ target > maxChunkSize then maxChunkSize else target
  if target < minCapacity then minCapacity else target

/-- The bytes that `bc_allocators_arena_grow` maps. -/
def growMmapSize (core : BcCore) (w : World) (arena minCapacity : Nat) : Option Nat :=
  let lastCapacity := chunkCapacity w.mem (arenaCurrentChunk w.mem arena)
  let target := targetCapacity lastCapacity (arenaMaxChunkSize w.mem arena) minCapacity
  match core.safeAdd chunkHeaderAligned target with
  | none => none
  | some totalRaw => core.alignUp totalRaw w.ctx.pageSize

/-- `bc_allocators_arena_grow`. -/
def arenaGrow (core : BcCore) (platform : Platform) (w : World) (arena minCapacity : Nat)
    (answer : Option Nat) : World × Bool :=
  match growMmapSize core w arena minCapacity with
  | none => (w, false)
  | some mmapSize =>
    match mapBlock platform w mmapSize answer with
    | none => (w, false)
    | some (w, block) =>
      let m := initChunk w.mem block mmapSize (wsub mmapSize chunkHeaderAligned)
        (block + chunkHeaderAligned)
      let m := storeWord m (arenaCurrentChunk m arena) block
      let m := storeWord m (arena + 16) block
      ({ w with ctx := trackGrow w.ctx mmapSize, mem := m }, true)

/-! ## Destruction -/

/-- More steps than there are chunks. -/
def chainFuel : Nat := 2 ^ 64

/-- The loop of `bc_allocators_arena_destroy` and `bc_allocators_arena_reset`:
read a header, then credit and release its block. -/
def releaseChunks : Nat → World → Nat → Option World
  | 0, _, _ => none
  | fuel + 1, w, chunk =>
    if chunk = NULL then some w
    else
      let next := chunkNext w.mem chunk
      let chunkMmapSize := chunkMmapSize w.mem chunk
      let w := { w with ctx := trackRelease w.ctx chunkMmapSize }
      releaseChunks fuel (releaseBlock w chunk chunkMmapSize) next

/-- `bc_allocators_arena_destroy`. -/
def arenaDestroy (w : World) (arena : Nat) : Option World :=
  match releaseChunks chainFuel w (chunkNext w.mem (arenaFirstChunk w.mem arena)) with
  | none => none
  | some w =>
    let firstMmapSize := chunkMmapSize w.mem (arenaFirstChunk w.mem arena)
    some (releaseBlock { w with ctx := trackDestroy w.ctx firstMmapSize } arena firstMmapSize)

/-! ## Allocation -/

/-- `bc_allocators_arena_try_alloc_in_chunk`. -/
def tryAllocInChunk (core : BcCore) (m : Memory) (chunk size alignment : Nat) :
    Memory × Option Nat :=
  let baseAddress := chunkMemoryStart m chunk
  let currentAddress := wadd baseAddress (chunkUsed m chunk)
  match core.alignUp currentAddress alignment with
  | none => (m, none)
  | some alignedAddress =>
    let alignedOffset := wsub alignedAddress baseAddress
    match core.safeAdd alignedOffset size with
    | none => (m, none)
    | some stop =>
      if stop > chunkCapacity m chunk then (m, none)
      else (storeWord m (chunk + 24) stop, some (chunkMemoryStart m chunk + alignedOffset))

/-- `arena->allocation_count++`. -/
def countAllocation (m : Memory) (arena : Nat) : Memory :=
  storeWord m (arena + 24) (wadd (arenaAllocationCount m arena) 1)

/-- `bc_allocators_arena_allocate`. -/
def arenaAllocate (core : BcCore) (platform : Platform) (w : World) (arena size alignment : Nat)
    (answer : Option Nat) : World × PtrResult :=
  if size = 0 ∨ alignment = 0 then (w, .failed)
  else if alignment &&& (alignment - 1) ≠ 0 then (w, .failed)
  else
    match tryAllocInChunk core w.mem (arenaCurrentChunk w.mem arena) size alignment with
    | (m, some ptr) => ({ w with mem := countAllocation m arena }, ⟨true, ptr⟩)
    | (_, none) =>
      if arenaGrowable w.mem arena = false then (w, .failed)
      else
        match arenaGrow core platform w arena (wadd size alignment) answer with
        | (w, false) => (w, .failed)
        | (w, true) =>
          match tryAllocInChunk core w.mem (arenaCurrentChunk w.mem arena) size alignment with
          | (m, some ptr) => ({ w with mem := countAllocation m arena }, ⟨true, ptr⟩)
          | (_, none) => (w, .failed)

/-- `bc_allocators_arena_copy_string`. A failed call leaves `*out_copy` as it was;
the model gives null. -/
def arenaCopyString (core : BcCore) (platform : Platform) (w : World) (arena source : Nat)
    (answer : Option Nat) : World × PtrResult :=
  let allocSize := wadd (core.length w.mem source) 1
  match arenaAllocate core platform w arena allocSize 1 answer with
  | (w, ⟨false, _⟩) => (w, .failed)
  | (w, ⟨true, ptr⟩) => ({ w with mem := core.copy w.mem ptr source allocSize }, ⟨true, ptr⟩)

/-! ## Reset -/

/-- `bc_allocators_arena_reset`. -/
def arenaReset (w : World) (arena : Nat) : Option World :=
  match releaseChunks chainFuel w (chunkNext w.mem (arenaFirstChunk w.mem arena)) with
  | none => none
  | some w =>
    let m := storeWord w.mem (arenaFirstChunk w.mem arena) NULL
    let m := storeWord m (arenaFirstChunk m arena + 24) 0
    let m := storeWord m (arena + 16) (arenaFirstChunk m arena)
    some { w with mem := storeWord m (arena + 24) 0 }

/-- The loop of `bc_allocators_arena_reset_secure`. -/
def secureChunks (core : BcCore) (platform : Platform) : Nat → Memory → Nat → Option Memory
  | 0, _, _ => none
  | fuel + 1, m, chunk =>
    if chunk = NULL then some m
    else
      let m := core.zeroSecure m (chunkMemoryStart m chunk) (chunkUsed m chunk)
      let m := adviseDontNeed platform m (chunkMemoryStart m chunk) (chunkCapacity m chunk)
      secureChunks core platform fuel m (chunkNext m chunk)

/-- `bc_allocators_arena_reset_secure`. -/
def arenaResetSecure (core : BcCore) (platform : Platform) (w : World) (arena : Nat) :
    Option World :=
  match secureChunks core platform chainFuel w.mem (arenaFirstChunk w.mem arena) with
  | none => none
  | some m => arenaReset { w with mem := m } arena

/-- The loop of `bc_allocators_arena_release_pages`. -/
def adviseChunks (platform : Platform) : Nat → Memory → Nat → Option Memory
  | 0, _, _ => none
  | fuel + 1, m, chunk =>
    if chunk = NULL then some m
    else
      let m := adviseDontNeed platform m (chunkMemoryStart m chunk) (chunkCapacity m chunk)
      adviseChunks platform fuel m (chunkNext m chunk)

/-- `bc_allocators_arena_release_pages`. -/
def arenaReleasePages (platform : Platform) (w : World) (arena : Nat) : Option World :=
  match adviseChunks platform chainFuel w.mem (arenaFirstChunk w.mem arena) with
  | none => none
  | some m => some { w with mem := m }

/-! ## Statistics -/

/-- `bc_allocators_arena_stats_t`. -/
structure ArenaStats where
  capacity : Nat
  used : Nat
  allocationCount : Nat
  chunkCount : Nat
  totalReserved : Nat
deriving DecidableEq, Repr

/-- The loop of `bc_allocators_arena_get_stats`. -/
def sumChunks (m : Memory) : Nat → ArenaStats → Nat → Option ArenaStats
  | 0, _, _ => none
  | fuel + 1, stats, chunk =>
    if chunk = NULL then some stats
    else
      sumChunks m fuel
        { stats with
          chunkCount := wadd stats.chunkCount 1
          capacity := wadd stats.capacity (chunkCapacity m chunk)
          used := wadd stats.used (chunkUsed m chunk)
          totalReserved := wadd stats.totalReserved (chunkMmapSize m chunk) }
        (chunkNext m chunk)

/-- `bc_allocators_arena_get_stats`. -/
def arenaGetStats (m : Memory) (arena : Nat) : Option ArenaStats :=
  sumChunks m chainFuel ⟨0, 0, arenaAllocationCount m arena, 0, 0⟩ (arenaFirstChunk m arena)

end BcAllocators
