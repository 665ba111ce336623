import BcAllocators.Lib.ByteHeap
import BcAllocators.Lib.Parties
import BcAllocators.Slab.Client
import BcAllocators.Slab.Frames
import BcAllocators.TypedArray.Refinement

/-!
# What a user keeps in the pool

A user of the pool has a block of its own, a slab or a typed array there, and makes the
calls that go with it (`UserTurn`). What it has is worth what the user can read of it
(`Tenant.store`): the bytes of the block, the live objects of the slab, the elements of
the array. An abstract user has that only, and no memory (`StoreTurn`).

What a user has stands on blocks of the pool, and is worth the same as long as these
blocks keep their bytes, whatever else becomes of the pool (`Tenant.stays`).
-/

set_option autoImplicit false

namespace BcAllocators

open Machine

variable {σ : Type} {core : BcCore} {pool : PoolApi σ} {view : PoolView σ} {s s' : σ}

/-! ## Users -/

/-- What a user keeps in the pool, as far as the user knows it. -/
inductive Tenant where
  | vacant
  | block (ptr size : Nat)
  | slab (address objectSize objectsPerSlab : Nat) (live : List Nat)
  | array (elementSize : Nat) (arr : TypedArray)

/-- A call of a user, with what it returned. -/
inductive UserEvent where
  | allocate (size : Nat) (result : PtrResult)
  | reallocate (newSize : Nat) (result : PtrResult)
  | free
  | write (offset : Nat) (bytes : List UInt8)
  | createSlab (objectSize objectsPerSlab : Nat) (result : PtrResult)
  | allocateObject (result : PtrResult)
  | freeObject (ptr : Nat)
  | writeObject (address : Nat) (bytes : List UInt8)
  | destroySlab
  | declareArray (elementSize : Nat)
  | array {elementSize : Nat} (event : ListEvent elementSize)
  | dropArray

/-- **The calls of a correct user**: it asks for blocks, slabs and arrays when it has
nothing, and uses what it has. -/
inductive UserTurn (core : BcCore) (pool : PoolApi σ) (view : PoolView σ) :
    σ → Tenant → UserEvent → σ → Tenant → Prop where
  | allocate {s s' : σ} {size : Nat} {result : PtrResult} (word : size < 2 ^ 64)
      (called : pool.allocate s size = (s', result)) :
      UserTurn core pool view s .vacant (.allocate size result) s'
        (if result.ok then .block result.out size else .vacant)
  | reallocate {s s' : σ} {ptr size newSize : Nat} {result : PtrResult}
      (word : newSize < 2 ^ 64) (called : pool.reallocate s ptr newSize = (s', result)) :
      UserTurn core pool view s (.block ptr size) (.reallocate newSize result) s'
        (if result.ok then .block result.out newSize else .block ptr size)
  | free {s : σ} {ptr size : Nat} :
      UserTurn core pool view s (.block ptr size) .free (pool.free s ptr) .vacant
  | write {s : σ} {ptr size offset : Nat} {bytes : List UInt8}
      (inside : offset + bytes.length ≤ size) :
      UserTurn core pool view s (.block ptr size) (.write offset bytes)
        (pool.setMemory s (storeBytes (pool.memory s) (ptr + offset) bytes)) (.block ptr size)
  | createSlab {s s' : σ} {memory objectSize objectsPerSlab : Nat} {result : PtrResult}
      (fits : objectsPerSlab * objectSize < 2 ^ 64)
      (called : slabCreate pool s memory objectSize objectsPerSlab = (s', result)) :
      UserTurn core pool view s .vacant (.createSlab objectSize objectsPerSlab result) s'
        (if result.ok then .slab result.out objectSize objectsPerSlab [] else .vacant)
  | allocateObject {s s' : σ} {slab objectSize objectsPerSlab : Nat} {live : List Nat}
      {result : PtrResult} (called : slabAllocate pool s slab = (s', result)) :
      UserTurn core pool view s (.slab slab objectSize objectsPerSlab live)
        (.allocateObject result) s'
        (.slab slab objectSize objectsPerSlab
          (if result.ok then result.out :: live else live))
  | freeObject {s : σ} {slab objectSize objectsPerSlab ptr : Nat} {live : List Nat}
      (member : ptr ∈ live) :
      UserTurn core pool view s (.slab slab objectSize objectsPerSlab live) (.freeObject ptr)
        (slabFree pool s slab ptr) (.slab slab objectSize objectsPerSlab (live.erase ptr))
  | writeObject {s : σ} {slab objectSize objectsPerSlab ptr address : Nat} {live : List Nat}
      {bytes : List UInt8} (member : ptr ∈ live) (lower : ptr ≤ address)
      (upper : address + bytes.length ≤ ptr + objectSize) :
      UserTurn core pool view s (.slab slab objectSize objectsPerSlab live)
        (.writeObject address bytes)
        (pool.setMemory s (storeBytes (pool.memory s) address bytes))
        (.slab slab objectSize objectsPerSlab live)
  | destroySlab {s s' : σ} {slab objectSize objectsPerSlab : Nat} {live : List Nat}
      (called : slabDestroy pool s slab = some s') :
      UserTurn core pool view s (.slab slab objectSize objectsPerSlab live) .destroySlab s' .vacant
  | declareArray {s : σ} {elementSize : Nat} (pos : 0 < elementSize)
      (word : elementSize < 2 ^ 64) :
      UserTurn core pool view s .vacant (.declareArray elementSize) s (.array elementSize .empty)
  | array {s s' : σ} {elementSize : Nat} {arr arr' : TypedArray}
      {event : ListEvent elementSize} (own : event.op ≠ .neighbour)
      (step : (arraySystem core pool view elementSize).Next ⟨s, arr⟩ event ⟨s', arr'⟩) :
      UserTurn core pool view s (.array elementSize arr) (.array event) s'
        (.array elementSize arr')
  | dropArray {s : σ} {elementSize : Nat} :
      UserTurn core pool view s (.array elementSize .empty) .dropArray s .vacant

/-! ## Stores -/

/-- What a user can read of what it has. -/
inductive Store where
  | vacant
  | block (bytes : List UInt8)
  | objects (objectSize : Nat) (heap : ByteHeap)
  | list (elementSize : Nat) (elements : List (Element elementSize))

/-- The objects of a slab. -/
def objectExtents (objectSize : Nat) (live : List Nat) : List Extent :=
  live.map fun a => ⟨a, objectSize⟩

def Tenant.store (pool : PoolApi σ) (s : σ) : Tenant → Store
  | .vacant => .vacant
  | .block ptr size => .block (loadBytes (pool.memory s) ptr size)
  | .slab _ objectSize _ live =>
      .objects objectSize (ByteHeap.contents (pool.memory s) (objectExtents objectSize live))
  | .array elementSize arr => .list elementSize (arrayElements pool elementSize ⟨s, arr⟩)

/-- **The calls of an abstract user**, which shares no memory with anybody. -/
inductive StoreTurn : Store → UserEvent → Store → Prop where
  | allocateRefused {size : Nat} : StoreTurn .vacant (.allocate size .failed) .vacant
  | allocate {size ptr : Nat} {bytes : List UInt8} (length : bytes.length = size) :
      StoreTurn .vacant (.allocate size ⟨true, ptr⟩) (.block bytes)
  | reallocateRefused {bytes : List UInt8} {newSize : Nat} :
      StoreTurn (.block bytes) (.reallocate newSize .failed) (.block bytes)
  | reallocate {old new : List UInt8} {newSize ptr : Nat} (length : new.length = newSize)
      (common : new.take (min old.length newSize) = old.take (min old.length newSize)) :
      StoreTurn (.block old) (.reallocate newSize ⟨true, ptr⟩) (.block new)
  | free {bytes : List UInt8} : StoreTurn (.block bytes) .free .vacant
  | write {old bytes : List UInt8} {offset : Nat} (inside : offset + bytes.length ≤ old.length) :
      StoreTurn (.block old) (.write offset bytes) (.block (ByteHeap.splice old offset bytes))
  | createSlabRefused {objectSize objectsPerSlab : Nat} :
      StoreTurn .vacant (.createSlab objectSize objectsPerSlab .failed) .vacant
  | createSlab {objectSize objectsPerSlab slab : Nat} :
      StoreTurn .vacant (.createSlab objectSize objectsPerSlab ⟨true, slab⟩)
        (.objects objectSize .empty)
  | allocateObjectRefused {objectSize : Nat} {heap : ByteHeap} :
      StoreTurn (.objects objectSize heap) (.allocateObject .failed) (.objects objectSize heap)
  | allocateObject {objectSize ptr : Nat} {heap heap' : ByteHeap}
      (allocates : heap.Allocates objectSize ptr heap') :
      StoreTurn (.objects objectSize heap) (.allocateObject ⟨true, ptr⟩)
        (.objects objectSize heap')
  | freeObject {objectSize ptr : Nat} {heap heap' : ByteHeap} (frees : heap.Frees ptr heap') :
      StoreTurn (.objects objectSize heap) (.freeObject ptr) (.objects objectSize heap')
  | writeObject {objectSize address : Nat} {bytes : List UInt8} {heap heap' : ByteHeap}
      (writes : heap.Writes address bytes heap') :
      StoreTurn (.objects objectSize heap) (.writeObject address bytes)
        (.objects objectSize heap')
  | destroySlab {objectSize : Nat} {heap : ByteHeap} :
      StoreTurn (.objects objectSize heap) .destroySlab .vacant
  | declareArray {elementSize : Nat} :
      StoreTurn .vacant (.declareArray elementSize) (.list elementSize [])
  | array {elementSize : Nat} {elements : List (Element elementSize)}
      {event : ListEvent elementSize} :
      StoreTurn (.list elementSize elements) (.array event)
        (.list elementSize (event.apply elements))
  | dropArray {elementSize : Nat} : StoreTurn (.list elementSize []) .dropArray .vacant

/-! ## Blocks -/

/-- What a user has stands on these blocks of the pool. -/
def Tenant.Stands (pool : PoolApi σ) (s : σ) : Tenant → Multiset Grant → Prop
  | .vacant, own => own = 0
  | .block ptr size, own => ∃ g : Grant, own = {g} ∧ g.ptr = ptr ∧ g.requested = size
  | .slab address objectSize objectsPerSlab live, own => ∃ v : SlabView, own = v.grants ∧
      v.address = address ∧ v.objectSize = objectSize ∧ v.objectsPerSlab = objectsPerSlab ∧
      v.live = live ∧ SlabShape (pool.memory s) v ∧ SlabLayout v
  | .array elementSize arr, own => 0 < elementSize ∧ elementSize < 2 ^ 64 ∧
      arr.length ≤ arr.capacity ∧ (own = 0 ∧ arr.data = NULL ∧ arr.capacity = 0 ∨
        ∃ g : Grant, own = {g} ∧ arr.Holds elementSize g)

/-- Between two states the bytes of some blocks, and those outside the pool, are the
same. -/
def BlocksKept (pool : PoolApi σ) (view : PoolView σ) (own : Multiset Grant) (s s' : σ) : Prop :=
  ∀ a, (a ∉ view.territory ∨ ∃ g ∈ own, a ∈ g.extent.bytes) → pool.memory s' a = pool.memory s a

theorem Keeps.blocks {gs : List Grant} (keeps : Keeps pool view gs s s') :
    BlocksKept pool view gs s s' := keeps

theorem BlocksKept.block {own : Multiset Grant} (kept : BlocksKept pool view own s s') {g : Grant}
    (member : g ∈ own) : ∀ a ∈ g.extent.bytes, pool.memory s' a = pool.memory s a :=
  fun a inside => kept a (Or.inr ⟨g, member, inside⟩)

/-- The array that stands on blocks of a state. -/
theorem Tenant.arrayInv {elementSize : Nat} {arr : TypedArray} {own : Multiset Grant}
    (sound : view.Sound s) (among : own ≤ (view.grants s : Multiset Grant))
    (stands : Tenant.Stands pool s (.array elementSize arr) own) :
    ArrayInv view elementSize ⟨s, arr⟩ := by
  obtain ⟨_, _, within, empty | ⟨g, rfl, holds⟩⟩ := stands
  · exact ⟨sound, within, Or.inl empty.2⟩
  · refine ⟨sound, within, Or.inr ⟨g, ?_, holds⟩⟩
    exact Multiset.mem_coe.mp (Multiset.singleton_le.mp among)

/-- The objects of a slab lie in its blocks. -/
theorem SlabLayout.objectExtents_inside {v : SlabView} (layout : SlabLayout v) {e : Extent}
    (member : e ∈ objectExtents v.objectSize v.live) {a : Nat} (inside : a ∈ e.bytes) :
    ∃ g ∈ v.grants, a ∈ g.extent.bytes := by
  obtain ⟨b, live, rfl⟩ := List.mem_map.mp member
  exact layout.object_inside live inside

/-- **What a user has stays as it is** as long as its blocks keep their bytes. -/
theorem Tenant.stays (contract : PoolContract pool view) {own : Multiset Grant} {x : Tenant}
    (sound : view.Sound s) (sound' : view.Sound s')
    (among : own ≤ (view.grants s : Multiset Grant))
    (among' : own ≤ (view.grants s' : Multiset Grant)) (stands : x.Stands pool s own)
    (kept : BlocksKept pool view own s s') :
    x.Stands pool s' own ∧ x.store pool s' = x.store pool s := by
  cases x with
  | vacant => exact ⟨stands, rfl⟩
  | block ptr size =>
      refine ⟨stands, congrArg Store.block (loadBytes_congr fun b lower upper => ?_)⟩
      obtain ⟨g, rfl, rfl, rfl⟩ := stands
      have held : g ∈ view.grants s := Multiset.mem_coe.mp (Multiset.singleton_le.mp among)
      have enough := (contract.bounds sound g held).2.2.1
      exact kept.block (Multiset.mem_singleton_self g) b
        ⟨lower, lt_of_lt_of_le upper (Nat.add_le_add_left enough g.ptr)⟩
  | slab address objectSize objectsPerSlab live =>
      obtain ⟨v, rfl, rfl, rfl, rfl, rfl, shape, layout⟩ := stands
      have shape' := shape.congr fun a reads => by
        obtain ⟨g, member, inside⟩ := layout.reads_inside reads
        exact kept.block (Multiset.mem_coe.mpr member) a inside
      refine ⟨⟨v, rfl, rfl, rfl, rfl, rfl, shape', layout⟩, congrArg (Store.objects v.objectSize)
        (ByteHeap.contents_congr fun e member a inside => ?_)⟩
      obtain ⟨g, inGrants, within⟩ := layout.objectExtents_inside member inside
      exact kept.block (Multiset.mem_coe.mpr inGrants) a within
  | array elementSize arr =>
      have inv := Tenant.arrayInv sound among stands
      have stands' : Tenant.Stands pool s' (.array elementSize arr) own := stands
      have inv' := Tenant.arrayInv sound' among' stands'
      refine ⟨stands, congrArg (Store.list elementSize) ?_⟩
      refine inv.elements_congr contract inv' rfl fun i small => ?_
      have within := Nat.mul_le_mul_right elementSize inv.length_le
      obtain ⟨_, _, _, ⟨_, _, nothing⟩ | ⟨g, rfl, holds⟩⟩ := stands
      · rw [nothing] at within
        omega
      · obtain ⟨h, held, holds', inside⟩ := inv.byte_own contract (lt_of_lt_of_le small within)
        have mine : g ∈ view.grants s := Multiset.mem_coe.mp (Multiset.singleton_le.mp among)
        obtain rfl := contract.ptr_injective sound mine held (holds.ptr.trans holds'.ptr.symm)
        exact kept.block (Multiset.mem_singleton_self g) _ inside

/-- **Users divide the blocks of the pool.** -/
def poolTenure (contract : PoolContract pool view) : Tenure σ Grant Tenant Store where
  Sound := view.Sound
  held s := view.grants s
  Stands s x own := x.Stands pool s own
  value s x := x.store pool s
  Kept := BlocksKept pool view
  kept_mono fewer kept a spared :=
    kept a (spared.imp id fun ⟨g, member, inside⟩ =>
      ⟨g, Multiset.mem_of_le fewer member, inside⟩)
  stays := Tenant.stays contract

end BcAllocators
