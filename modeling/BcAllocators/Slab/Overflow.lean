import BcAllocators.Slab.FirstPage

/-!
# Slots and the size of their block

The block for the objects of a page is requested with the product of the number
of objects and their size, computed without a check, and the loop over the slots
uses the two factors. So the slots lie in the block exactly when the product is no
larger than the region (`slab_slots_inside_iff`). A larger product is refused, unless
it wraps to a request that the pool can serve, or the sum of the request and the bump
pointer wraps in `bump_raw`, and the pool grants what it does not have
(`wrapped_product`).
-/

set_option autoImplicit false

namespace BcAllocators

open Machine

variable {block : Extent} {objectSize objectsPerSlab : Nat}

/-! ## Slots of a block -/

/-- The slots that the loop makes of a block lie inside it. -/
def SlotsInside (block : Extent) (objectSize count : Nat) : Prop :=
  ∀ i < count, block.start ≤ slotAddress block.start objectSize i ∧
    slotAddress block.start objectSize i + objectSize ≤ block.stop

/-- A slot that starts in the block is where the product says. -/
theorem slotAddress_of_le {i : Nat} (stop : block.stop < 2 ^ 64)
    (starts : i * objectSize ≤ block.size) :
    slotAddress block.start objectSize i = block.start + i * objectSize := by
  unfold Extent.stop at stop
  unfold slotAddress
  rw [wmul_of_lt (by omega), wadd_of_lt (by omega)]

/-- The slots lie in a block that has room for the product. -/
theorem slotsInside_of_le (stop : block.stop < 2 ^ 64)
    (room : objectsPerSlab * objectSize ≤ block.size) :
    SlotsInside block objectSize objectsPerSlab := by
  intro i small
  have next := Nat.mul_le_mul_right objectSize (Nat.succ_le_of_lt small)
  rw [Nat.succ_mul] at next
  rw [slotAddress_of_le stop (by omega)]
  refine ⟨Nat.le_add_right _ _, ?_⟩
  unfold Extent.stop
  omega

/-- **A block smaller than the product has a slot that sticks out.** -/
theorem not_slotsInside (stop : block.stop < 2 ^ 64)
    (short : block.size < objectsPerSlab * objectSize) :
    ¬ SlotsInside block objectSize objectsPerSlab := by
  intro inside
  have ends : ∃ i, block.size < (i + 1) * objectSize :=
    ⟨objectsPerSlab, by rw [Nat.succ_mul]; omega⟩
  -- the first slot that ends behind the block starts in it
  let i := Nat.find ends
  have out : block.size < (i + 1) * objectSize := Nat.find_spec ends
  have starts : i * objectSize ≤ block.size := by
    cases first : i with
    | zero =>
        rw [Nat.zero_mul]
        exact Nat.zero_le _
    | succ j => exact Nat.not_lt.mp (Nat.find_min ends (show j < i by omega))
  have counted : i < objectsPerSlab := by
    by_contra beyond
    have least := Nat.mul_le_mul_right objectSize (Nat.not_lt.mp beyond)
    omega
  have within := (inside i counted).2
  rw [slotAddress_of_le stop starts] at within
  rw [Nat.succ_mul] at out
  unfold Extent.stop at within
  omega

/-! ## Every page -/

/-- A call of others asks for no more than the region. -/
def SlabRun.AsksWithin (t : SlabRun ClientPool) : SlabCall → Prop
  | .neighbour (.allocate size) => size ≤ t.pool.state.world.ctx.region.totalSize
  | .neighbour (.reallocate _ newSize) => newSize ≤ t.pool.state.world.ctx.region.totalSize
  | _ => True

/-- Correct clients of a new slab, in the pool of a context. -/
def slabClients (core : BcCore) (platform : Platform) (s : PoolState)
    (objectSize objectsPerSlab : Nat) : System (SlabRun ClientPool) SlabEvent where
  Start t := ∃ memory,
    (slabCreate (clientApi core) ⟨s, true⟩ memory objectSize objectsPerSlab).2.ok = true ∧
    t = .created (clientView core platform s.world.ctx.region.addresses (s.books core)) ⟨s, true⟩
      (slabCreate (clientApi core) ⟨s, true⟩ memory objectSize objectsPerSlab)
  Next t event t' := t.AsksWithin event.call ∧
    t.Allows (clientView core platform s.world.ctx.region.addresses (s.books core)) objectSize
      event.call ∧
    t.perform (clientApi core)
      (clientView core platform s.world.ctx.region.addresses (s.books core)) event.call =
        (t', event.result)

section Runs

variable {core : BcCore} {platform : Platform} {s : PoolState}

/-- The requests for a page keep the pool faithful. -/
theorem allocateNewPage_faithful {addresses : Set Nat} {books : Option Balance} {c : ClientPool}
    {slab : Nat} (sound : ClientSound core platform addresses books c.state)
    (faithful : c.faithful = true)
    (within : ∀ c', Keeps (clientApi core) (clientView core platform addresses books)
        (c.state.grants core) c c' →
      wmul (slabObjectsPerSlab c'.state.world.mem slab) (slabObjectSize c'.state.world.mem slab) ≤
        c.state.world.ctx.region.totalSize) :
    (allocateNewPage (clientApi core) c slab).1.faithful = true := by
  have trusted := sound.ask_faithful faithful (show sizeofSlabPage < 2 ^ 64 by decide)
    (sound.small_exact (by decide))
  obtain ⟨sound', keeps, _⟩ := (pool_contract core platform addresses books).allocate sound
    (show sizeofSlabPage < 2 ^ 64 by decide) trusted
  have same := Region.totalSize_eq (ClientSound.home sound' |>.trans sound.home.symm)
  have second : ((clientApi core).allocate ((clientApi core).allocate c sizeofSlabPage).1
      (wmul (slabObjectsPerSlab ((clientApi core).memory
          ((clientApi core).allocate c sizeofSlabPage).1) slab)
        (slabObjectSize ((clientApi core).memory
          ((clientApi core).allocate c sizeofSlabPage).1) slab))).1.faithful = true := by
    refine Bool.and_eq_true_iff.mpr ⟨trusted, keepsWithin_of_le ?_ _⟩
    rw [same]
    exact within _ keeps
  unfold allocateNewPage
  dsimp only
  split
  · exact trusted
  · split
    · exact second
    · exact second

/-- A run goes on only while the pool keeps its contract. -/
theorem SlabRun.reachable_trusted {σ : Type} {pool : PoolApi σ} {view : PoolView σ}
    {t : SlabRun σ} (reachable : (slabSystem pool view objectSize objectsPerSlab).Reachable t) :
    view.Trusted t.pool := by
  obtain ⟨first, labels, ⟨_, _, _, trusted, _⟩, run⟩ := reachable
  cases run with
  | nil => exact trusted
  | snoc _ step => exact step.1

/-- An allocation relies on the pool only for a page. -/
theorem slabAllocate_trusted {σ : Type} {pool : PoolApi σ} {view : PoolView σ} {s : σ} {slab : Nat}
    (contract : PoolContract pool view) (trusted : view.Trusted s)
    (page : view.Trusted (allocateNewPage pool s slab).1) :
    view.Trusted (slabAllocate pool s slab).1 := by
  unfold slabAllocate
  dsimp only
  by_cases empty : slabFreeListHead (pool.memory s) slab = NULL
  · rw [if_pos empty]
    split
    · exact page
    · exact contract.trusted_setMemory.mpr page
  · rw [if_neg empty, if_neg Bool.noConfusion]
    exact contract.trusted_setMemory.mpr trusted

/-- What a call relies on: an allocation on the page it may add, and a call of another
on itself. -/
theorem SlabRun.perform_trusted {σ : Type} {pool : PoolApi σ} {view : PoolView σ}
    {t : SlabRun σ} {call : SlabCall} (contract : PoolContract pool view)
    (trusted : view.Trusted t.pool)
    (page : view.Trusted (allocateNewPage pool t.pool t.slab).1)
    (others : ∀ c, call = .neighbour c → view.Trusted (pool.neighbour t.pool c)) :
    view.Trusted (t.perform pool view call).1.pool := by
  cases call with
  | allocate =>
      change view.Trusted (slabAllocate pool t.pool t.slab).1
      exact slabAllocate_trusted contract trusted page
  | free ptr =>
      change view.Trusted (slabFree pool t.pool t.slab ptr)
      unfold slabFree
      exact contract.trusted_setMemory.mpr trusted
  | write address bytes =>
      change view.Trusted (pool.setMemory t.pool (storeBytes (pool.memory t.pool) address bytes))
      exact contract.trusted_setMemory.mpr trusted
  | neighbour c => exact others c rfl

/-- The calls of a slab whose product is within the region keep the pool faithful, and so
do those of others who ask for no more than the region. -/
theorem SlabRun.Shows.perform_faithful {addresses : Set Nat} {books : Option Balance}
    {t : SlabRun ClientPool} {v : SlabView} {others : List Grant} {call : SlabCall}
    (shows : t.Shows (clientApi core) (clientView core platform addresses books) objectSize
      objectsPerSlab v others)
    (faithful : t.pool.faithful = true)
    (within : objectsPerSlab * objectSize ≤ t.pool.state.world.ctx.region.totalSize)
    (asks : t.AsksWithin call) :
    (t.perform (clientApi core) (clientView core platform addresses books) call).1.pool.faithful =
      true := by
  have sound : ClientSound core platform addresses books t.pool.state := shows.inv.sound
  have half := sound.inv.total_lt
  refine SlabRun.perform_trusted (pool_contract core platform addresses books) faithful ?_ ?_
  · refine allocateNewPage_faithful sound faithful fun c' keeps => ?_
    have shape : SlabShape c'.state.world.mem v := shows.inv.shape_kept keeps
    rw [← shows.address, shape.objectSize, shape.objectsPerSlab, shows.objectSize,
      shows.objectsPerSlab, wmul_of_lt (by omega)]
    exact within
  · rintro call rfl
    cases call with
    | allocate size => exact Bool.and_eq_true_iff.mpr ⟨faithful, keepsWithin_of_le asks _⟩
    | reallocate ptr newSize =>
        exact Bool.and_eq_true_iff.mpr ⟨faithful, keepsWithin_of_le asks _⟩
    | free ptr => exact faithful
    | write address bytes => exact faithful

/-- **Runs with a product within the region are runs of a faithful pool.** -/
theorem slabClients_reachable {t : SlabRun ClientPool}
    (sound : ClientSound core platform s.world.ctx.region.addresses (s.books core) s)
    (sizeWord : objectSize < 2 ^ 64) (countWord : objectsPerSlab < 2 ^ 64)
    (within : objectsPerSlab * objectSize ≤ s.world.ctx.region.totalSize)
    (reachable : (slabClients core platform s objectSize objectsPerSlab).Reachable t) :
    (slabSystem (clientApi core)
      (clientView core platform s.world.ctx.region.addresses (s.books core)) objectSize
      objectsPerSlab).Reachable t := by
  have half := sound.inv.total_lt
  have contract := pool_contract core platform s.world.ctx.region.addresses (s.books core)
  refine reachable.invariant ?_ ?_
  · rintro t ⟨memory, ok, rfl⟩
    obtain ⟨trusted, _⟩ := slabCreate_firstPage sound sizeWord countWord ok
    exact SlabRun.reachable_created sound memory
      (trusted (by rw [wmul_of_lt (by omega)]; exact within)) ok
  · rintro t t' ⟨call, result⟩ before ⟨asks, allowed, performed⟩
    obtain ⟨v, others, shows⟩ := SlabRun.shows_of_reachable contract (by omega) before
    have faithful : t.pool.faithful = true := SlabRun.reachable_trusted before
    have here : ClientSound core platform s.world.ctx.region.addresses (s.books core)
        t.pool.state := shows.inv.sound
    have total := Region.totalSize_eq here.home
    have after := shows.perform_faithful faithful (by rwa [total]) asks
    rw [performed] at after
    exact before.next ⟨after, allowed, performed⟩

end Runs

/-- **The slots of a slab lie in their blocks exactly when the product of the sizes is
within the region.** From every reachable state of the pool: a creation that succeeds has
the slots of its first page in the block that it was granted, as far as that is memory of
the region, and requested the product, if and only if the product is no larger than the
region; and then every page of every later state has, as long as the others ask for no more
than the region. -/
theorem slab_slots_inside_iff (core : BcCore) (platform : Platform) {s : PoolState}
    (reachable : (poolSystem core platform).Reachable s) (sizeWord : objectSize < 2 ^ 64)
    (countWord : objectsPerSlab < 2 ^ 64) :
    (∀ memory,
      (slabCreate (clientApi core) ⟨s, true⟩ memory objectSize objectsPerSlab).2.ok = true →
      ∃ objects, FirstPage core s memory objectSize objectsPerSlab objects ∧
        (SlotsInside (objects.within s.world.ctx.region) objectSize objectsPerSlab ∧
            objects.requested = objectsPerSlab * objectSize ↔
          objectsPerSlab * objectSize ≤ s.world.ctx.region.totalSize)) ∧
    (objectsPerSlab * objectSize ≤ s.world.ctx.region.totalSize →
      ∀ t, (slabClients core platform s objectSize objectsPerSlab).Reachable t →
        ∃ v, v.address = t.slab ∧ SlabShape ((clientApi core).memory t.pool) v ∧
          ∀ p ∈ v.pages, p.objects ∈ t.taken ∧
            SlotsInside (p.objects.within s.world.ctx.region) objectSize objectsPerSlab ∧
            p.objects.requested = objectsPerSlab * objectSize) := by
  have sound := ClientSound.reachable reachable
  have half := sound.inv.total_lt
  have contract := pool_contract core platform s.world.ctx.region.addresses (s.books core)
  constructor
  · intro memory ok
    obtain ⟨_, objects, before, after, first, handed⟩ :=
      slabCreate_firstPage sound sizeWord countWord ok
    refine ⟨objects, first, fun ⟨inside, _⟩ => ?_, fun within => ?_⟩
    · -- a block in the region is smaller than a product beyond it
      by_contra beyond
      refine not_slotsInside handed.stop ?_ inside
      have above := handed.above
      unfold Grant.within
      dsimp only
      omega
    · have product : wmul objectsPerSlab objectSize = objectsPerSlab * objectSize :=
        wmul_of_lt (by omega)
      have room := handed.inside
      rw [product] at room
      exact ⟨slotsInside_of_le handed.stop (room within), first.requested.trans product⟩
  · intro within t inUse
    obtain ⟨v, others, shows⟩ := SlabRun.shows_of_reachable contract (by omega)
      (slabClients_reachable sound sizeWord countWord within inUse)
    refine ⟨v, shows.address, shows.inv.shape, fun p member => ?_⟩
    have layout := shows.inv.layout
    have own := SlabLayout.mem_grants_objects member
    have requested := layout.requested p member
    have room := layout.objects p member
    rw [shows.objectSize, shows.objectsPerSlab] at requested room
    obtain ⟨_, pos, least, _, stop, territory⟩ :=
      contract.bounds shows.inv.sound p.objects (shows.inv.mem_grants own)
    rw [Grant.within_eq (by omega) territory]
    exact ⟨shows.taken.mem_iff.mp own, slotsInside_of_le stop room, requested⟩

/-- The small slab after a call. -/
def smallCall (t : SlabRun ClientPool) (call : SlabCall) : SlabRun ClientPool :=
  (t.perform (clientApi BcCore.reference) smallView call).1

theorem smallCall_reachable {t : SlabRun ClientPool} (call : SlabCall)
    (asks : t.AsksWithin call) (allowed : t.Allows smallView 1024 call)
    (reachable :
      (slabClients BcCore.reference Platform.x86 sixteenPages 1024 2).Reachable t) :
    (slabClients BcCore.reference Platform.x86 sixteenPages 1024 2).Reachable
      (smallCall t call) :=
  reachable.next
    (show (slabClients BcCore.reference Platform.x86 sixteenPages 1024 2).Next t
        ⟨call, (t.perform (clientApi BcCore.reference) smallView call).2⟩ (smallCall t call) from
      ⟨asks, allowed, rfl⟩)

/-- The small slab once others have taken a block and three objects are live, the last of
them on a second page. -/
def threeObjects : SlabRun ClientPool :=
  smallCall (smallCall (smallCall (smallCall twoObjects (.neighbour (.allocate 3000))) .allocate)
    .allocate) .allocate

theorem threeObjects_reachable :
    (slabClients BcCore.reference Platform.x86 sixteenPages 1024 2).Reachable threeObjects := by
  have created : (slabClients BcCore.reference Platform.x86 sixteenPages 1024 2).Reachable
      twoObjects := .start ⟨8192, by decide +kernel, rfl⟩
  refine smallCall_reachable .allocate trivial trivial (smallCall_reachable .allocate trivial
    trivial (smallCall_reachable .allocate trivial trivial
      (smallCall_reachable (.neighbour (.allocate 3000)) ?_ ?_ created)))
  · have room : 3000 ≤ twoObjects.pool.state.world.ctx.region.totalSize := by decide +kernel
    exact room
  · exact show (3000 : Nat) < 2 ^ 64 by decide

theorem slab_slots_inside_iff_threeObjects :
    (∃ objects, FirstPage BcCore.reference sixteenPages 8192 1024 2 objects ∧
      (SlotsInside (objects.within sixteenPages.world.ctx.region) 1024 2 ∧
          objects.requested = 2 * 1024 ↔
        2 * 1024 ≤ sixteenPages.world.ctx.region.totalSize)) ∧
    ∃ v, v.address = threeObjects.slab ∧
      SlabShape ((clientApi BcCore.reference).memory threeObjects.pool) v ∧
      ∀ p ∈ v.pages, p.objects ∈ threeObjects.taken ∧
        SlotsInside (p.objects.within sixteenPages.world.ctx.region) 1024 2 ∧
        p.objects.requested = 2 * 1024 := by
  obtain ⟨create, run⟩ := slab_slots_inside_iff BcCore.reference Platform.x86
    (System.Reachable.start sixteenPages_start) (show 1024 < 2 ^ 64 by decide)
    (show 2 < 2 ^ 64 by decide)
  exact ⟨create 8192 (by decide +kernel), run (by decide) threeObjects threeObjects_reachable⟩

/-- Three objects live, on two pages. -/
example : threeObjects.live.length = 3 ∧
    slabCount threeObjects.pool.state.world.mem threeObjects.slab = 2 := by decide +kernel

/-- **A slab of two objects of `2 ^ 64 - 2056` bytes is created**: the product wraps to a
request for `2 ^ 64 - 4112` bytes, whose sum with the bump pointer wraps too and which the
pool grants. The stores of the loop stay in the region, and the second slot begins 2056
bytes in front of the block. -/
theorem wrapped_product :
    (slabCreate (clientApi BcCore.reference) ⟨sixteenPages, true⟩ 8192 (2 ^ 64 - 2056) 2).2.ok =
        true ∧
      ∃ objects, FirstPage BcCore.reference sixteenPages 8192 (2 ^ 64 - 2056) 2 objects ∧
        objects.ptr = 73744 ∧ objects.requested = 2 ^ 64 - 4112 ∧
        (∀ i < 2, Set.Ico (slotAddress objects.ptr (2 ^ 64 - 2056) i)
            (slotAddress objects.ptr (2 ^ 64 - 2056) i + 8) ⊆
          sixteenPages.world.ctx.region.addresses) ∧
        slotAddress objects.ptr (2 ^ 64 - 2056) 1 = objects.ptr - 2056 ∧
        ¬ SlotsInside (objects.within sixteenPages.world.ctx.region) (2 ^ 64 - 2056) 2 ∧
        objects.requested ≠ 2 * (2 ^ 64 - 2056) := by
  have sound := ClientSound.start sixteenPages_start
  have ok : (slabCreate (clientApi BcCore.reference) ⟨sixteenPages, true⟩ 8192 (2 ^ 64 - 2056)
      2).2.ok = true := by decide +kernel
  obtain ⟨_, objects, before, after, first, handed⟩ :=
    slabCreate_firstPage sound (by decide) (by decide) ok
  have requested : objects.requested = 2 ^ 64 - 4112 := first.requested.trans (by decide)
  have pointer : objects.ptr = 73744 := by
    obtain ⟨c₁, header, page, before, after, result, begun, requests, _⟩ := first.filled
    have granted := congrArg (fun r => r.2.out) requests.granted
    rw [requested] at granted
    obtain rfl := congrArg Prod.fst begun
    obtain rfl := congrArg (fun r => r.2.out) begun
    obtain rfl := congrArg Prod.fst requests.begins
    exact granted.symm.trans (by decide +kernel)
  refine ⟨ok, objects, first, pointer, requested, ?_, by rw [pointer]; decide, ?_, ?_⟩
  · intro i small a inside
    unfold Region.addresses
    rw [pointer, Set.mem_Ico] at inside
    rw [Set.mem_Ico]
    have slots : ∀ i < 2, 65536 ≤ slotAddress 73744 (2 ^ 64 - 2056) i ∧
        slotAddress 73744 (2 ^ 64 - 2056) i + 8 ≤ 65536 + 65536 := by decide
    obtain ⟨above, below⟩ := slots i small
    exact ⟨above.trans inside.1, lt_of_lt_of_le inside.2 below⟩
  · refine not_slotsInside handed.stop ?_
    refine lt_of_le_of_lt (Nat.min_le_right _ _) ?_
    rw [pointer]
    decide
  · rw [requested]
    decide

end BcAllocators
