import BcAllocators.Core
import BcAllocators.Platform

/-!
# The context

A context owns three mappings: its own structure, the region that the pool
carves, and the page-class map of that region. The structure is a record here;
the bytes of the region, of the arenas and of everything the client owns are
the byte memory of the world, next to the ledger of the kernel.

The page-class map is an array of bytes of its own, never reached through a
pointer of the client, so its contents are a function of the page number.
-/

set_option autoImplicit false

namespace BcAllocators

open Machine

/-- The null pointer. -/
def NULL : Nat := 0

def numClasses : Nat := 19
def maxClassSize : Nat := 4 * 1024 * 1024
def defaultMax : Nat := 1024 * 1024 * 1024
def pageClassUnassigned : UInt8 := 0xFF
def pageClassLarge : UInt8 := 0xFE
def largeMetaSize : Nat := 16
def magSize : Nat := 14
def arenaCacheSize : Nat := 4

/-- `sizeof(struct bc_allocators_context)`: 45 cache lines. -/
def sizeofContext : Nat := 2880

/-- `bc_allocators_free_list_t`: the magazine and the head of the intrusive
overflow list. -/
structure FreeList where
  mag : Vector Nat magSize
  magCount : Nat
  head : Nat
  magCount_le : magCount ≤ magSize

/-- `bc_allocators_region_t`, with the contents of the page-class map. -/
structure Region where
  base : Nat
  totalSize : Nat
  pageClassSize : Nat
  bump : Nat
  pageClassBase : Nat
  pageClass : Nat → UInt8

/-- The cache of released arena blocks: `arena_cache` and `arena_cache_count`. -/
structure ArenaCache where
  entries : Vector Extent arenaCacheSize
  count : Nat
  count_le : count ≤ arenaCacheSize

/-- `struct bc_allocators_context`, with the address it was mapped at. -/
structure Context where
  address : Nat
  pageSize : Nat
  pageShift : Nat
  cacheLineSize : Nat
  trackingEnabled : Bool
  region : Region
  contextMmapSize : Nat
  pools : Nat → FreeList
  largePool : FreeList
  maxPoolMemory : Nat
  poolAllocCount : Nat
  poolFreeCount : Nat
  poolActiveBytes : Nat
  arenaCreateCount : Nat
  arenaDestroyCount : Nat
  arenaTotalBytes : Nat
  totalMappedBytes : Nat
  peakMappedBytes : Nat
  leakCallback : Nat
  leakCallbackArgument : Nat
  arenaCache : ArenaCache

/-- What the functions of the library read and write. -/
structure World where
  ctx : Context
  mem : Memory
  kernel : Kernel

/-- The value returned by a `bool` function and the value of its `out_ptr`. -/
structure PtrResult where
  ok : Bool
  out : Nat
deriving DecidableEq, Repr

/-- `return false` with `*out_ptr` null. -/
def PtrResult.failed : PtrResult := ⟨false, NULL⟩

/-! ## Zero-filled structures -/

/-- A free list in a fresh mapping. -/
def FreeList.empty : FreeList where
  mag := Vector.replicate magSize 0
  magCount := 0
  head := NULL
  magCount_le := Nat.zero_le _

/-- An arena cache in a fresh mapping. -/
def ArenaCache.empty : ArenaCache where
  entries := Vector.replicate arenaCacheSize ⟨0, 0⟩
  count := 0
  count_le := Nat.zero_le _

/-! ## Creation -/

/-- `bc_allocators_context_config_t`. -/
structure ContextConfig where
  maxPoolMemory : Nat
  trackingEnabled : Bool
  leakCallback : Nat
  leakCallbackArgument : Nat

/-- The configuration in force, with the defaults of a missing one. -/
def ContextConfig.effective : Option ContextConfig → ContextConfig
  | some config =>
      { config with
        maxPoolMemory := if config.maxPoolMemory = 0 then defaultMax else config.maxPoolMemory }
  | none =>
      { maxPoolMemory := defaultMax, trackingEnabled := true, leakCallback := NULL,
        leakCallbackArgument := NULL }

/-- The answers of the kernel to the three `mmap` calls of a creation. -/
structure CreateAnswers where
  context : Option Nat
  region : Option Nat
  pageClass : Option Nat

/-- The fields written once all three mappings are there. The free lists'
`mag_count` and the arena cache are not written: they are zero because the
mapping is. -/
def initContext (core : BcCore) (platform : Platform) (config : ContextConfig)
    (address base pageClassBase alignedMax pageClassSize contextAllocSize : Nat) : Context where
  address := address
  pageSize := platform.pageSize
  pageShift := core.ctzU64 platform.pageSize
  cacheLineSize := platform.cacheLineSize
  trackingEnabled := config.trackingEnabled
  region :=
    { base := base, totalSize := alignedMax, pageClassSize := pageClassSize, bump := 0,
      pageClassBase := pageClassBase, pageClass := fun _ => pageClassUnassigned }
  contextMmapSize := contextAllocSize
  pools := fun _ => FreeList.empty
  largePool := FreeList.empty
  maxPoolMemory := alignedMax
  poolAllocCount := 0
  poolFreeCount := 0
  poolActiveBytes := 0
  arenaCreateCount := 0
  arenaDestroyCount := 0
  arenaTotalBytes := 0
  totalMappedBytes := 0
  peakMappedBytes := 0
  leakCallback := config.leakCallback
  leakCallbackArgument := config.leakCallbackArgument
  arenaCache := ArenaCache.empty

/-- `bc_allocators_context_create`: the ledger and the memory afterwards, and
the context when the call returns true. -/
def contextCreate (core : BcCore) (platform : Platform) (config : Option ContextConfig)
    (kernel : Kernel) (m : Memory) (answers : CreateAnswers) :
    Kernel × Memory × Option Context :=
  let config := ContextConfig.effective config
  match core.alignUp config.maxPoolMemory platform.pageSize with
  | none => (kernel, m, none)
  | some alignedMax =>
    let numPages := alignedMax / platform.pageSize
    match core.alignUp numPages platform.pageSize with
    | none => (kernel, m, none)
    | some pageClassSize =>
      match core.alignUp sizeofContext platform.pageSize with
      | none => (kernel, m, none)
      | some contextAllocSize =>
        match platformMap platform kernel m contextAllocSize answers.context with
        | none => (kernel, m, none)
        | some (kernel, m, address) =>
          match platformMap platform kernel m alignedMax answers.region with
          | none => (kernel.unmap ⟨address, contextAllocSize⟩, m, none)
          | some (kernel, m, base) =>
            match platformMap platform kernel m pageClassSize answers.pageClass with
            | none =>
              ((kernel.unmap ⟨base, alignedMax⟩).unmap ⟨address, contextAllocSize⟩, m, none)
            | some (kernel, m, pageClassBase) =>
              (kernel, m, some (initContext core platform config address base pageClassBase
                alignedMax pageClassSize contextAllocSize))

/-! ## Destruction -/

/-- A call of the leak callback. -/
structure LeakReport where
  message : String
  userArgument : Nat
deriving DecidableEq, Repr

def poolLeakMessage : String := "bc-allocators: pool leak detected"
def arenaLeakMessage : String := "bc-allocators: arena leak detected"

/-- The entries of the arena cache below `arena_cache_count`. -/
def ArenaCache.blocks (cache : ArenaCache) : List Extent := cache.entries.toList.take cache.count

/-- The calls of the leak callback made by `bc_allocators_context_destroy`. -/
def leakReports (ctx : Context) : List LeakReport :=
  if ctx.trackingEnabled = true ∧ ctx.leakCallback ≠ NULL then
    (if ctx.poolAllocCount ≠ ctx.poolFreeCount then
      [⟨poolLeakMessage, ctx.leakCallbackArgument⟩] else []) ++
    (if ctx.arenaCreateCount ≠ ctx.arenaDestroyCount then
      [⟨arenaLeakMessage, ctx.leakCallbackArgument⟩] else [])
  else []

/-- `bc_allocators_context_destroy`: the leak reports, and the ledger after the
cached blocks, the page-class map, the region and the context are unmapped. -/
def contextDestroy (w : World) : List LeakReport × Kernel :=
  let kernel := w.ctx.arenaCache.blocks.foldl Kernel.unmap w.kernel
  let kernel := kernel.unmap ⟨w.ctx.region.pageClassBase, w.ctx.region.pageClassSize⟩
  let kernel := kernel.unmap ⟨w.ctx.region.base, w.ctx.region.totalSize⟩
  (leakReports w.ctx, kernel.unmap ⟨w.ctx.address, w.ctx.contextMmapSize⟩)

/-! ## Statistics -/

/-- `bc_allocators_stats_t`. -/
structure Stats where
  poolAllocCount : Nat
  poolFreeCount : Nat
  poolActiveBytes : Nat
  arenaCreateCount : Nat
  arenaDestroyCount : Nat
  arenaActiveCount : Nat
  arenaTotalBytes : Nat
  totalMappedBytes : Nat
  peakMappedBytes : Nat
deriving DecidableEq, Repr

/-- `bc_allocators_context_get_stats`. -/
def contextGetStats (ctx : Context) : Stats :=
  if ctx.trackingEnabled then
    { poolAllocCount := ctx.poolAllocCount
      poolFreeCount := ctx.poolFreeCount
      poolActiveBytes := ctx.poolActiveBytes
      arenaCreateCount := ctx.arenaCreateCount
      arenaDestroyCount := ctx.arenaDestroyCount
      arenaActiveCount :=
        if ctx.arenaDestroyCount ≤ ctx.arenaCreateCount then
          ctx.arenaCreateCount - ctx.arenaDestroyCount else 0
      arenaTotalBytes := ctx.arenaTotalBytes
      totalMappedBytes := ctx.totalMappedBytes
      peakMappedBytes := ctx.peakMappedBytes }
  else
    ⟨0, 0, 0, 0, 0, 0, 0, 0, 0⟩

/-! ## Safe arithmetic -/

/-- `bc_allocators_compute_alloc_size`: the whole pages of an array. -/
def computeAllocSize (core : BcCore) (ctx : Context) (elementSize count : Nat) : Option Nat :=
  if elementSize = 0 ∨ count = 0 then none
  else
    match core.safeMultiply elementSize count with
    | none => none
    | some product => core.alignUp product ctx.pageSize

end BcAllocators
