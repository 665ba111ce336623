import BcAllocators.Context

/-!
# The pool allocator

The functions of `bc_allocators_pool.c`, in the order of the source. Arithmetic
on `size_t` wraps (`wadd`, `wsub`); arithmetic on pointers does not, since a
pointer never leaves its object. A pointer that may be null is an address, null
being zero, and a call with an output parameter returns the boolean and the
value of the parameter.
-/

set_option autoImplicit false

namespace BcAllocators

open Machine

/-- `bc_allocators_class_sizes`. -/
def classSizes : List Nat :=
  [16, 32, 64, 128, 256, 512, 1024, 2048, 4096, 8192, 16384, 32768, 65536, 131072, 262144, 524288,
    1048576, 2097152, 4194304]

def classSize (cls : Nat) : Nat := classSizes.getD cls 0

/-- `size_class_for_size`, with `none` for `-1`. -/
def sizeClassForSize (core : BcCore) (size : Nat) : Option Nat :=
  if size > maxClassSize then none
  else if size ≤ 16 then some 0
  else
    let bits := 64 - core.clzU64 (size - 1)
    some (bits - 4)

/-! ## Free lists -/

/-- `free_list_push`: the memory is written only when the magazine is full. -/
def freeListPush (fl : FreeList) (m : Memory) (ptr : Nat) : FreeList × Memory :=
  if room : fl.magCount < magSize then
    ({ fl with mag := fl.mag.set fl.magCount ptr, magCount := fl.magCount + 1,
               magCount_le := room }, m)
  else ({ fl with head := ptr }, storeWord m ptr fl.head)

/-- `free_list_pop`: null when the list is empty. -/
def freeListPop (fl : FreeList) (m : Memory) : FreeList × Nat :=
  if some : 0 < fl.magCount then
    have within : fl.magCount - 1 < magSize := by have := fl.magCount_le; omega
    ({ fl with magCount := fl.magCount - 1, magCount_le := Nat.le_of_lt within },
      fl.mag[fl.magCount - 1])
  else if fl.head ≠ NULL then ({ fl with head := loadWord m fl.head }, fl.head)
  else (fl, fl.head)

/-- What a free list holds: the blocks of a size class, or large blocks. -/
inductive PoolKind where
  | sized (cls : Nat)
  | large
deriving DecidableEq, Repr

/-- `&ctx->pools[cls]` or `&ctx->large_pool`. -/
def Context.freeList (ctx : Context) : PoolKind → FreeList
  | .sized cls => ctx.pools cls
  | .large => ctx.largePool

def Context.setFreeList (ctx : Context) : PoolKind → FreeList → Context
  | .sized cls, fl => { ctx with pools := Function.update ctx.pools cls fl }
  | .large, fl => { ctx with largePool := fl }

/-- `free_list_push` on a list of the context. -/
def pushFree (w : World) (kind : PoolKind) (ptr : Nat) : World :=
  let pushed := freeListPush (w.ctx.freeList kind) w.mem ptr
  { w with ctx := w.ctx.setFreeList kind pushed.1, mem := pushed.2 }

/-- `free_list_pop` on a list of the context. -/
def popFree (w : World) (kind : PoolKind) : World × Nat :=
  let popped := freeListPop (w.ctx.freeList kind) w.mem
  ({ w with ctx := w.ctx.setFreeList kind popped.1 }, popped.2)

/-! ## Carving -/

/-- The loop of `tag_page_class` over `count` pages. -/
def tagPages (pageClass : Nat → UInt8) (value : UInt8) : Nat → Nat → Nat → UInt8
  | _, 0 => pageClass
  | p, count + 1 => tagPages (Function.update pageClass p value) value (p + 1) count

/-- `tag_page_class`. -/
def tagPageClass (ctx : Context) (offset sizeBytes : Nat) (value : UInt8) : Context :=
  let startPage := offset >>> ctx.pageShift
  let endPage := wsub (wadd offset sizeBytes) 1 >>> ctx.pageShift
  { ctx with region := { ctx.region with
      pageClass := tagPages ctx.region.pageClass value startPage (endPage + 1 - startPage) } }

/-- `bump_raw`. -/
def bumpRaw (ctx : Context) (bytesNeeded : Nat) : Context × Nat :=
  let oldBump := ctx.region.bump
  if wadd oldBump bytesNeeded > ctx.region.totalSize then (ctx, NULL)
  else
    ({ ctx with region := { ctx.region with bump := wadd oldBump bytesNeeded } },
      ctx.region.base + oldBump)

/-- The bytes that `bump_allocate_class` asks for. -/
def classBumpSize (core : BcCore) (ctx : Context) (cls : Nat) : Option Nat :=
  let blockSize := classSize cls
  if blockSize < ctx.pageSize then some ctx.pageSize else core.alignUp blockSize ctx.pageSize

/-- The loop of `bump_allocate_class`: push the blocks with the given indices. -/
def pushBlocks (cls pageBase blockSize : Nat) (w : World) (indices : List Nat) : World :=
  indices.foldl (fun w i => pushFree w (.sized cls) (pageBase + i * blockSize)) w

/-- `bump_allocate_class`. -/
def bumpAllocateClass (core : BcCore) (w : World) (cls : Nat) : World × Nat :=
  let blockSize := classSize cls
  match classBumpSize core w.ctx cls with
  | none => (w, NULL)
  | some bumpSize =>
    let (ctx, pageBase) := bumpRaw w.ctx bumpSize
    if pageBase = NULL then ({ w with ctx := ctx }, NULL)
    else
      let offset := wsub pageBase ctx.region.base
      let ctx := tagPageClass ctx offset bumpSize (UInt8.ofNat cls)
      let numBlocks := bumpSize / blockSize
      (pushBlocks cls pageBase blockSize { w with ctx := ctx } (List.range' 1 (numBlocks - 1)),
        pageBase)

/-! ## Large blocks -/

/-- `meta->user_size`, the first word of a large block. -/
def userSize (m : Memory) (block : Nat) : Nat := loadWord m block

/-- `meta->total_size`, the second word of a large block. -/
def metaTotalSize (m : Memory) (block : Nat) : Nat := loadWord m (block + 8)

/-- The bytes that `allocate_large` asks for: header and request, rounded to
pages. -/
def largeTotal (core : BcCore) (ctx : Context) (size : Nat) : Option Nat :=
  match core.safeAdd largeMetaSize size with
  | none => none
  | some totalRaw => core.alignUp totalRaw ctx.pageSize

/-- `allocate_large` from the region. -/
def bumpAllocateLarge (w : World) (totalAligned size : Nat) : World × Nat :=
  let (ctx, block) := bumpRaw w.ctx totalAligned
  if block = NULL then ({ w with ctx := ctx }, NULL)
  else
    let offset := wsub block ctx.region.base
    let ctx := tagPageClass ctx offset totalAligned pageClassLarge
    ({ w with ctx := ctx, mem := storeWord (storeWord w.mem (block + 8) totalAligned) block size },
      block + largeMetaSize)

/-- `allocate_large`: the block on top of the large pool when it is large
enough, and otherwise a fresh one. -/
def allocateLarge (core : BcCore) (w : World) (size : Nat) : World × Nat :=
  match largeTotal core w.ctx size with
  | none => (w, NULL)
  | some totalAligned =>
    let (w, block) := popFree w .large
    if block ≠ NULL then
      if metaTotalSize w.mem block ≥ totalAligned then
        ({ w with mem := storeWord w.mem block size }, block + largeMetaSize)
      else bumpAllocateLarge (pushFree w .large block) totalAligned size
    else bumpAllocateLarge w totalAligned size

/-- `free_large`. -/
def freeLarge (w : World) (userPtr : Nat) : World :=
  let block := userPtr - largeMetaSize
  pushFree { w with mem := storeWord w.mem block 0 } .large block

/-! ## Tracking -/

/-- `track_alloc`. -/
def trackAlloc (ctx : Context) (bytes : Nat) : Context :=
  if ctx.trackingEnabled then
    { ctx with poolAllocCount := wadd ctx.poolAllocCount 1,
               poolActiveBytes := wadd ctx.poolActiveBytes bytes }
  else ctx

/-- `track_free`. -/
def trackFree (ctx : Context) (bytes : Nat) : Context :=
  if ctx.trackingEnabled then
    { ctx with poolFreeCount := wadd ctx.poolFreeCount 1,
               poolActiveBytes := wsub ctx.poolActiveBytes bytes }
  else ctx

/-! ## The interface -/

/-- `ptr_in_region`. -/
def ptrInRegion (ctx : Context) (ptr : Nat) : Bool :=
  decide (ctx.region.base ≤ ptr ∧ ptr < ctx.region.base + ctx.region.totalSize)

/-- `ctx->region.page_class` at the page of a pointer. -/
def pageClassOf (ctx : Context) (ptr : Nat) : UInt8 :=
  ctx.region.pageClass (wsub ptr ctx.region.base >>> ctx.pageShift)

/-- `get_usable_size`, with `*is_large`. -/
def getUsableSize (ctx : Context) (m : Memory) (ptr : Nat) : Nat × Bool :=
  let cls := pageClassOf ctx ptr
  if cls.toNat < numClasses then (classSize cls.toNat, false)
  else (userSize m (ptr - largeMetaSize), true)

/-- `bc_allocators_pool_allocate`. -/
def poolAllocate (core : BcCore) (w : World) (size : Nat) : World × PtrResult :=
  if size = 0 then (w, .failed)
  else
    match sizeClassForSize core size with
    | none =>
      let (w, userPtr) := allocateLarge core w size
      if userPtr = NULL then (w, .failed)
      else ({ w with ctx := trackAlloc w.ctx size }, ⟨true, userPtr⟩)
    | some cls =>
      let (w, block) := popFree w (.sized cls)
      if block ≠ NULL then ({ w with ctx := trackAlloc w.ctx (classSize cls) }, ⟨true, block⟩)
      else
        let (w, block) := bumpAllocateClass core w cls
        if block = NULL then (w, .failed)
        else ({ w with ctx := trackAlloc w.ctx (classSize cls) }, ⟨true, block⟩)

/-- `bc_allocators_pool_free`. -/
def poolFree (w : World) (ptr : Nat) : World :=
  if ptrInRegion w.ctx ptr = false then w
  else
    let cls := pageClassOf w.ctx ptr
    if cls.toNat < numClasses then
      let w := pushFree w (.sized cls.toNat) ptr
      { w with ctx := trackFree w.ctx (classSize cls.toNat) }
    else if cls = pageClassLarge then
      let size := userSize w.mem (ptr - largeMetaSize)
      let w := freeLarge w ptr
      { w with ctx := trackFree w.ctx size }
    else w

/-- The last stage of `bc_allocators_pool_reallocate`: a new block, the bytes
copied, the old block freed. -/
def reallocateMove (core : BcCore) (w : World) (ptr oldUsable newSize : Nat) :
    World × PtrResult :=
  let (w, allocated) := poolAllocate core w newSize
  if allocated.ok = false then (w, .failed)
  else
    let copySize := if oldUsable < newSize then oldUsable else newSize
    let w := { w with mem := core.copy w.mem allocated.out ptr copySize }
    (poolFree w ptr, ⟨true, allocated.out⟩)

/-- Accounting of a large block that keeps its place. -/
def trackResize (ctx : Context) (oldSize newSize : Nat) : Context :=
  if ctx.trackingEnabled then
    { ctx with poolActiveBytes := wadd (wsub ctx.poolActiveBytes oldSize) newSize }
  else ctx

/-- `bc_allocators_pool_reallocate`. -/
def poolReallocate (core : BcCore) (w : World) (ptr newSize : Nat) : World × PtrResult :=
  if newSize = 0 then (w, .failed)
  else if ptr = NULL then poolAllocate core w newSize
  else
    let (oldUsable, oldIsLarge) := getUsableSize w.ctx w.mem ptr
    if oldIsLarge = false then
      match sizeClassForSize core newSize with
      | some newCls =>
        if pageClassOf w.ctx ptr = UInt8.ofNat newCls then (w, ⟨true, ptr⟩)
        else reallocateMove core w ptr oldUsable newSize
      | none => reallocateMove core w ptr oldUsable newSize
    else
      match sizeClassForSize core newSize with
      | some _ => reallocateMove core w ptr oldUsable newSize
      | none =>
        let oldBlock := ptr - largeMetaSize
        let oldTotal := metaTotalSize w.mem oldBlock
        match largeTotal core w.ctx newSize with
        | none => (w, .failed)
        | some newTotal =>
          if newTotal ≤ oldTotal then
            let oldUserSize := userSize w.mem oldBlock
            ({ w with ctx := trackResize w.ctx oldUserSize newSize,
                      mem := storeWord w.mem oldBlock newSize }, ⟨true, ptr⟩)
          else reallocateMove core w ptr oldUsable newSize

end BcAllocators
