import BcAllocators.Pool.Interface

/-!
# The slab allocator

The functions of `bc_allocators_slab.c`, in the order of the source, over the
functions of the pool. The slab and its pages are structures in blocks of the
pool: a field is a word at its offset, and the free list is threaded through the
first words of the free objects.

Arithmetic on `size_t` wraps, and so does the address of a slot, since nothing
says that it stays in its object. The loop over the slots reads the two sizes of
the slab once: its stores are of pointers and do not change a `size_t`.
-/

set_option autoImplicit false

namespace BcAllocators

open Machine

/-- `sizeof(struct bc_allocators_slab)` -/
def sizeofSlab : Nat := 56

/-- `sizeof(bc_allocators_slab_page_t)` -/
def sizeofSlabPage : Nat := 16

/-! ## Fields -/

/-- `bc_allocators_slab_page_t` -/
def pageObjects (m : Memory) (page : Nat) : Nat := loadWord m page
def pageNext (m : Memory) (page : Nat) : Nat := loadWord m (page + 8)

/-- `struct bc_allocators_slab` -/
def slabMemory (m : Memory) (slab : Nat) : Nat := loadWord m slab
def slabObjectSize (m : Memory) (slab : Nat) : Nat := loadWord m (slab + 8)
def slabObjectsPerSlab (m : Memory) (slab : Nat) : Nat := loadWord m (slab + 16)
def slabFreeListHead (m : Memory) (slab : Nat) : Nat := loadWord m (slab + 24)
def slabPages (m : Memory) (slab : Nat) : Nat := loadWord m (slab + 32)
def slabCount (m : Memory) (slab : Nat) : Nat := loadWord m (slab + 40)
def slabUsedObjects (m : Memory) (slab : Nat) : Nat := loadWord m (slab + 48)

/-- The seven assignments that set up a slab. -/
def initSlab (m : Memory) (slab memory objectSize objectsPerSlab : Nat) : Memory :=
  let m := storeWord m slab memory
  let m := storeWord m (slab + 8) objectSize
  let m := storeWord m (slab + 16) objectsPerSlab
  let m := storeWord m (slab + 24) NULL
  let m := storeWord m (slab + 32) NULL
  let m := storeWord m (slab + 40) 0
  storeWord m (slab + 48) 0

/-! ## The free list -/

/-- `bc_allocators_free_list_push`. -/
def listPush (m : Memory) (head block : Nat) : Memory :=
  storeWord (storeWord m block (loadWord m head)) head block

/-- `bc_allocators_free_list_pop`. -/
def listPop (m : Memory) (head : Nat) : Memory × Nat :=
  let block := loadWord m head
  if block ≠ NULL then (storeWord m head (loadWord m block), block) else (m, block)

/-- `(unsigned char*)objects_ptr + slot_index * slab->object_size`. -/
def slotAddress (objects objectSize index : Nat) : Nat := wadd objects (wmul index objectSize)

/-- The loop of `allocate_new_page`: push the slots with the given indices. -/
def pushSlots (m : Memory) (head objects objectSize : Nat) (indices : List Nat) : Memory :=
  indices.foldl (fun m i => listPush m head (slotAddress objects objectSize i)) m

/-! ## Pages -/

/-- The assignments of `allocate_new_page` once both blocks are there. -/
def linkPage (m : Memory) (slab page objects : Nat) : Memory :=
  let m := storeWord m page objects
  let m := storeWord m (page + 8) (slabPages m slab)
  let m := storeWord m (slab + 32) page
  storeWord m (slab + 40) (wadd (slabCount m slab) 1)

/-- The pushes of `allocate_new_page`. -/
def fillPage (m : Memory) (slab objects : Nat) : Memory :=
  let m := listPush m (slab + 24) objects
  pushSlots m (slab + 24) objects (slabObjectSize m slab)
    (List.range' 1 (slabObjectsPerSlab m slab - 1))

section Interface

variable {σ : Type} (pool : PoolApi σ)

/-- `allocate_new_page`. -/
def allocateNewPage (s : σ) (slab : Nat) : σ × Bool :=
  let (s, page) := pool.allocate s sizeofSlabPage
  if page.ok = false then (s, false)
  else
    let m := pool.memory s
    let (s, objects) := pool.allocate s (wmul (slabObjectsPerSlab m slab) (slabObjectSize m slab))
    if objects.ok = false then (pool.free s page.out, false)
    else
      let m := linkPage (pool.memory s) slab page.out objects.out
      (pool.setMemory s (fillPage m slab objects.out), true)

/-! ## The interface -/

/-- `bc_allocators_slab_create`. -/
def slabCreate (s : σ) (memory objectSize objectsPerSlab : Nat) : σ × PtrResult :=
  if objectSize < 8 ∨ objectsPerSlab = 0 then (s, .failed)
  else
    let (s, slab) := pool.allocate s sizeofSlab
    if slab.ok = false then (s, .failed)
    else
      let s := pool.setMemory s
        (initSlab (pool.memory s) slab.out memory objectSize objectsPerSlab)
      let (s, added) := allocateNewPage pool s slab.out
      if added = false then (pool.free s slab.out, .failed)
      else (s, ⟨true, slab.out⟩)

/-- The loop of `bc_allocators_slab_destroy`, given as many steps as there are
addresses; it has no result when that is not enough. -/
def destroyPages : Nat → σ → Nat → Option σ
  | 0, _, _ => none
  | fuel + 1, s, page =>
    if page = NULL then some s
    else
      let m := pool.memory s
      destroyPages fuel (pool.free (pool.free s (pageObjects m page)) page) (pageNext m page)

/-- `bc_allocators_slab_destroy`. -/
def slabDestroy (s : σ) (slab : Nat) : Option σ :=
  match destroyPages pool (2 ^ 64) s (slabPages (pool.memory s) slab) with
  | none => none
  | some s => some (pool.free s slab)

/-- `bc_allocators_slab_allocate`. -/
def slabAllocate (s : σ) (slab : Nat) : σ × PtrResult :=
  let (s, ready) :=
    if slabFreeListHead (pool.memory s) slab = NULL then allocateNewPage pool s slab else (s, true)
  if ready = false then (s, .failed)
  else
    let (m, block) := listPop (pool.memory s) (slab + 24)
    (pool.setMemory s (storeWord m (slab + 48) (wadd (slabUsedObjects m slab) 1)), ⟨true, block⟩)

/-- `bc_allocators_slab_free`. -/
def slabFree (s : σ) (slab ptr : Nat) : σ :=
  let m := listPush (pool.memory s) (slab + 24) ptr
  pool.setMemory s (storeWord m (slab + 48) (wsub (slabUsedObjects m slab) 1))

end Interface

/-- `bc_allocators_slab_stats_t`. -/
structure SlabStats where
  objectSize : Nat
  objectsPerSlab : Nat
  slabCount : Nat
  totalObjects : Nat
  usedObjects : Nat
  freeObjects : Nat
deriving DecidableEq, Repr

/-- `bc_allocators_slab_get_stats`. -/
def slabGetStats (m : Memory) (slab : Nat) : SlabStats :=
  let totalObjects := wmul (slabCount m slab) (slabObjectsPerSlab m slab)
  { objectSize := slabObjectSize m slab
    objectsPerSlab := slabObjectsPerSlab m slab
    slabCount := slabCount m slab
    totalObjects := totalObjects
    usedObjects := slabUsedObjects m slab
    freeObjects := wsub totalObjects (slabUsedObjects m slab) }

end BcAllocators
