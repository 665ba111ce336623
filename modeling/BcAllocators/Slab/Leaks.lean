import BcAllocators.Slab.Client

/-!
# A slab leaks nothing

Whatever calls of the pool fail, a slab that cannot be created leaves the pool as
it was, and an object that cannot be allocated leaves the slab as it was. When a
slab is destroyed, each block that it ever took from the pool goes back once, and
no other, whether or not objects are live (`slab_leaks_nothing`).
-/

set_option autoImplicit false

namespace BcAllocators

open Machine

section Any

variable {σ : Type} {pool : PoolApi σ} {view : PoolView σ} {s s' : σ} {v : SlabView}
variable {others : List Grant} {objectSize objectsPerSlab memory : Nat} {t : SlabRun σ}

/-- A creation that fails takes nothing. -/
theorem slabCreate_failed (contract : PoolContract pool view) (sound : view.Sound s)
    (fits : objectsPerSlab * objectSize < 2 ^ 64)
    (failed : slabCreate pool s memory objectSize objectsPerSlab = (s', .failed))
    (trusted : view.Trusted s') : NothingTaken pool view s s' := by
  have kept : view.Trusted (slabCreate pool s memory objectSize objectsPerSlab).1 := by
    rwa [failed]
  rcases slabCreate_spec contract sound fits kept with ⟨_, nothing⟩ | ⟨v, result, _⟩
  · rwa [failed] at nothing
  · rw [failed] at result
    cases result

/-- An allocation that fails takes nothing. -/
theorem slabAllocate_failed (contract : PoolContract pool view)
    (inv : SlabInv pool view s v others)
    (failed : slabAllocate pool s v.address = (s', .failed)) (trusted : view.Trusted s') :
    NothingTaken pool view s s' := by
  have kept : view.Trusted (slabAllocate pool s v.address).1 := by rwa [failed]
  have outcome := slabAllocate_spec contract inv kept
  rw [failed] at outcome
  cases outcome with
  | refused _ _ nothing => exact nothing
  | reused result _ _ => cases result
  | added _ result _ _ => cases result

/-- A destruction releases the blocks of a slab, each once, and leaves the others
of the pool. -/
structure ReturnsTaken (pool : PoolApi σ) (view : PoolView σ) (t : SlabRun σ)
    (freed : List Nat) (rest : List Grant) : Prop where
  held : (view.grants t.pool).Perm (t.taken ++ rest)
  destroy : slabDestroy pool t.pool t.slab = some (freed.foldl pool.free t.pool)
  taken : freed.Perm (t.taken.map Grant.ptr)
  once : freed.Nodup
  left : (view.grants (freed.foldl pool.free t.pool)).Perm rest

/-- Pointers of distinct blocks are distinct. -/
theorem PoolContract.ptrs_nodup (contract : PoolContract pool view) (sound : view.Sound s) :
    ((view.grants s).map Grant.ptr).Nodup :=
  (contract.grants_nodup sound).map_on fun _ hg _ hh same =>
    contract.ptr_injective sound hg hh same

/-- **A destruction returns what was taken.** -/
theorem SlabRun.Shows.destroy (contract : PoolContract pool view)
    (shows : t.Shows pool view objectSize objectsPerSlab v others) :
    ReturnsTaken pool view t v.freed others := by
  obtain ⟨destroyed, freed, _, left, _⟩ := slabDestroy_spec contract shows.inv
  have taken := freed.trans (shows.taken.map Grant.ptr)
  have held := shows.inv.held.trans (shows.taken.append_right others)
  constructor
  case held => exact held
  case destroy => exact shows.address ▸ destroyed
  case taken => exact taken
  case left => exact left
  case once =>
    have all := (held.map Grant.ptr).nodup_iff.mp (contract.ptrs_nodup shows.inv.sound)
    rw [List.map_append] at all
    exact taken.nodup_iff.mpr (List.nodup_append.mp all).1

end Any

/-! ## The pool of the repository -/

section Pool

variable {core : BcCore} {platform : Platform} {s s' : PoolState}

/-- The live blocks of the pool, and what its statistics say of them, are the same. -/
structure SameBlocks (core : BcCore) (s s' : PoolState) : Prop where
  live : s'.live = s.live
  grants : s'.grants core = s.grants core
  counts : wsub (contextGetStats s'.world.ctx).poolAllocCount
      (contextGetStats s'.world.ctx).poolFreeCount =
    wsub (contextGetStats s.world.ctx).poolAllocCount (contextGetStats s.world.ctx).poolFreeCount
  activeBytes : (contextGetStats s'.world.ctx).poolActiveBytes =
    (contextGetStats s.world.ctx).poolActiveBytes

/-- The live blocks are what their users know of them. -/
theorem live_of_grants (s : PoolState) :
    (s.grants core).map (fun g => (⟨g.ptr, g.requested⟩ : LiveBlock)) = s.live := by
  unfold PoolState.grants
  rw [List.map_map]
  exact List.map_id _

/-- Sound states with the same blocks report the same. -/
theorem ClientSound.sameBlocks {region : Set Nat} {books : Option Balance}
    (sound : ClientSound core platform region books s)
    (sound' : ClientSound core platform region books s')
    (same : s'.grants core = s.grants core) : SameBlocks core s s' := by
  have live : s'.live = s.live := by
    rw [← @live_of_grants core s', same, live_of_grants]
  obtain ⟨counts, activeBytes⟩ :=
    PoolState.figures_eq sound.booked sound'.booked (.of_eq live)
  exact ⟨live, same, counts, activeBytes⟩

/-- A slab is unchanged: its blocks, every byte of them, and what they represent. -/
structure SlabUnchanged (core : BcCore) (t : SlabRun (FaultyPool ClientPool))
    (after : FaultyPool ClientPool) : Prop where
  blocks : SameBlocks core t.pool.pool.state after.pool.state
  bytes : ∀ g ∈ t.taken, ∀ a ∈ g.extent.bytes,
    (faultyPool core).memory after a = (faultyPool core).memory t.pool a
  slab : ∃ v, v.address = t.slab ∧ v.grants.Perm t.taken ∧ v.live.Perm t.live ∧
    SlabShape ((faultyPool core).memory t.pool) v ∧ SlabShape ((faultyPool core).memory after) v

/-- **A slab leaks nothing.** From any reachable state of the pool, whichever of
its allocations fail and as long as it refuses requests beyond its region: a
creation that fails leaves the live blocks, the active bytes and the difference of
the counts as they were; an allocation that fails leaves the slab and the live
blocks as they were; and a destruction releases exactly the blocks that the slab
has taken, each once. -/
theorem slab_leaks_nothing (core : BcCore) (platform : Platform)
    (reachable : (poolSystem core platform).Reachable s) {objectSize objectsPerSlab : Nat}
    (fits : objectsPerSlab * objectSize < 2 ^ 64) :
    (∀ faults memory after,
      slabCreate (faultyPool core) ⟨⟨s, true⟩, faults⟩ memory objectSize objectsPerSlab =
          (after, .failed) →
        after.pool.faithful = true → SameBlocks core s after.pool.state) ∧
    ∀ t, (slabSystem (faultyPool core) (faultyView core platform s) objectSize
        objectsPerSlab).Reachable t →
      (∀ after, slabAllocate (faultyPool core) t.pool t.slab = (after, .failed) →
        after.pool.faithful = true → SlabUnchanged core t after) ∧
      ∃ freed rest, ReturnsTaken (faultyPool core) (faultyView core platform s) t freed rest := by
  have contract := faulty_contract core platform s
  have sound := ClientSound.reachable reachable
  constructor
  · intro faults memory after failed trusted
    have start : (faultyView core platform s).Sound ⟨⟨s, true⟩, faults⟩ := sound
    have nothing := slabCreate_failed contract start fits failed trusted
    exact sound.sameBlocks nothing.sound nothing.grants
  · intro t inUse
    obtain ⟨v, others, shows⟩ := SlabRun.shows_of_reachable contract fits inUse
    refine ⟨fun after failed trusted => ?_, v.freed, others, shows.destroy contract⟩
    have inv := shows.inv
    have before : ClientSound core platform s.world.ctx.region.addresses (s.books core)
        t.pool.pool.state := inv.sound
    rw [← shows.address] at failed
    have nothing := slabAllocate_failed contract inv failed trusted
    have after := nothing.slab inv
    refine ⟨before.sameBlocks nothing.sound nothing.grants, fun g member => ?_, v, ?_⟩
    · exact nothing.keeps.block (inv.mem_grants (shows.taken.mem_iff.mpr member))
    · exact ⟨shows.address, shows.taken, shows.live, inv.shape, after.shape⟩

end Pool

theorem eq_of_failed {σ : Type} {result : σ × PtrResult} (failed : result.2 = .failed) :
    result = (result.1, .failed) := Prod.ext rfl failed

/-- The pool of sixteen pages, whose fourth allocation will fail. -/
def fourthFails : FaultyPool ClientPool := ⟨⟨sixteenPages, true⟩, [false, false, false, true]⟩

/-- A new slab with one object on a page, in that pool. -/
def oneSlot : SlabRun (FaultyPool ClientPool) :=
  .created (faultyView BcCore.reference Platform.x86 sixteenPages) fourthFails
    (slabCreate (faultyPool BcCore.reference) fourthFails 8192 1024 1)

/-- The slab once its object is live, so that the next allocation needs a page. -/
def fullSlab : SlabRun (FaultyPool ClientPool) :=
  (oneSlot.perform (faultyPool BcCore.reference)
    (faultyView BcCore.reference Platform.x86 sixteenPages) .allocate).1

theorem fullSlab_reachable :
    (slabSystem (faultyPool BcCore.reference)
      (faultyView BcCore.reference Platform.x86 sixteenPages) 1024 1).Reachable fullSlab := by
  have trusted : (faultyView BcCore.reference Platform.x86 sixteenPages).Trusted fullSlab.pool :=
    faulty_trusted.mpr (by decide +kernel)
  have created : (faultyView BcCore.reference Platform.x86 sixteenPages).Trusted
      (slabCreate (faultyPool BcCore.reference) fourthFails 8192 1024 1).1 :=
    faulty_trusted.mpr (by decide +kernel)
  have sound : (faultyView BcCore.reference Platform.x86 sixteenPages).Sound fourthFails :=
    ClientSound.start sixteenPages_start
  have first : (slabSystem (faultyPool BcCore.reference)
      (faultyView BcCore.reference Platform.x86 sixteenPages) 1024 1).Reachable oneSlot :=
    SlabRun.reachable_created sound 8192 created (by decide +kernel)
  exact SlabRun.reachable_perform first .allocate rfl trusted trivial

theorem slab_leaks_nothing_fullSlab :
    SameBlocks BcCore.reference sixteenPages (slabCreate (faultyPool BcCore.reference)
        ⟨⟨sixteenPages, true⟩, [false, true]⟩ 8192 1024 1).1.pool.state ∧
      SlabUnchanged BcCore.reference fullSlab
        (slabAllocate (faultyPool BcCore.reference) fullSlab.pool fullSlab.slab).1 ∧
      ∃ freed rest, ReturnsTaken (faultyPool BcCore.reference)
        (faultyView BcCore.reference Platform.x86 sixteenPages) fullSlab freed rest := by
  obtain ⟨create, run⟩ := slab_leaks_nothing BcCore.reference Platform.x86
    (System.Reachable.start sixteenPages_start) (show 1 * 1024 < 2 ^ 64 by decide)
  obtain ⟨allocate, destroy⟩ := run fullSlab fullSlab_reachable
  have failed : (slabCreate (faultyPool BcCore.reference) ⟨⟨sixteenPages, true⟩, [false, true]⟩
      8192 1024 1).2 = .failed := by decide +kernel
  have failed' : (slabAllocate (faultyPool BcCore.reference) fullSlab.pool fullSlab.slab).2 =
      .failed := by decide +kernel
  exact ⟨create _ 8192 _ (eq_of_failed failed) (by decide +kernel),
    allocate _ (eq_of_failed failed') (by decide +kernel), destroy⟩

end BcAllocators
