import BcAllocators.Pool.Contract

/-!
# Blocks that the pool hands out

The block for a request, whether or not the pool should have refused it. A request whose
sum in `bump_raw` does not wrap is served as the contract says (`ClientSound.took`,
`ClientSound.handed_honest`). One whose sum wraps gets a pointer behind the bump pointer,
with nothing but the rest of the region behind it (`ClientSound.handed_wraps`). Either way
the blocks of others keep their bytes.
-/

set_option autoImplicit false

namespace BcAllocators

open Machine

variable {core : BcCore} {platform : Platform} {c c' : ClientPool} {region : Region}
variable {books : Option Balance} {size ptr : Nat}

/-- The part of a block that is memory of the region. -/
def Grant.within (g : Grant) (region : Region) : Extent :=
  ⟨g.ptr, min g.usable (region.base + region.totalSize - g.ptr)⟩

/-- A block in the region is all there. -/
theorem Grant.within_eq {g : Grant} (pos : 0 < g.usable)
    (inside : g.extent.bytes ⊆ region.addresses) : g.within region = g.extent := by
  have last : g.ptr + (g.usable - 1) ∈ region.addresses := by
    refine inside (Extent.mem_bytes.mpr ?_)
    unfold Grant.extent
    dsimp only
    omega
  unfold Region.addresses at last
  rw [Set.mem_Ico] at last
  unfold Grant.within Grant.extent
  rw [Nat.min_eq_left (by omega)]

/-- A request of at most the largest class does not wrap the sum in `bump_raw`. -/
theorem ClientSound.small_exact {addresses : Set Nat}
    (sound : ClientSound core platform addresses books c.state) (small : size ≤ maxClassSize) :
    ¬ BumpWraps platform c.state.world.ctx size := by
  obtain ⟨free, heap⟩ := sound.inv.heap
  exact fun wraps => Nat.not_lt.mpr small (wraps.large heap.geometry heap.bump_le)

/-- A request whose sum does not wrap keeps the pool faithful. -/
theorem ClientSound.ask_faithful {addresses : Set Nat}
    (sound : ClientSound core platform addresses books c.state) (faithful : c.faithful = true)
    (word : size < 2 ^ 64) (exact : ¬ BumpWraps platform c.state.world.ctx size) :
    ((clientApi core).allocate c size).1.faithful = true :=
  Bool.and_eq_true_iff.mpr ⟨faithful, sound.inv.keepsWithin_of_exact word exact .allocate⟩

/-- A write to memory does not concern the pool. -/
theorem faithful_setMemory (core : BcCore) (c : ClientPool) (m : Memory) :
    ((clientApi core).setMemory c m).faithful = c.faithful := rfl

/-- A block of a client has room for a word, and ends below the bump pointer. -/
theorem PoolInv.grant_below {s : PoolState} (inv : PoolInv core platform s) {g : Grant}
    (held : g ∈ s.grants core) :
    8 ≤ g.usable ∧ g.extent.stop ≤ s.world.ctx.region.base + s.world.ctx.region.bump := by
  obtain ⟨b, member, rfl⟩ := mem_grants.mp held
  obtain ⟨free, heap⟩ := inv.heap
  have owned : PoolHeap.Owns (heldBlocks core s.live) free (b.kind core) (b.block core) :=
    List.mem_append_left _ (heldBlocks_of_mem core member)
  have placed := inv.placed b member
  have pointer := placed.pointer
  have fits := placed.fits
  obtain ⟨_, below, room⟩ := heap.block_bounds owned
  unfold Extent.stop at below
  rw [blockExtent_start] at below
  have header : 8 ≤ (blockExtent s.world.mem (b.kind core) (b.block core)).size -
      (b.kind core).header := by
    cases shape : b.kind core with
    | sized cls =>
        rw [shape] at room
        exact (show 8 ≤ 16 by decide).trans room
    | large =>
        have large : maxClassSize < b.requested := (requestKind_eq_large core).mp shape
        unfold maxClassSize at large
        rw [shape] at fits
        omega
  unfold LiveBlock.grant Grant.extent Extent.stop LiveBlock.payload
  dsimp only
  omega

/-- A block that the pool hands out for a request of some bytes, in a region: the blocks
of others keep their bytes and are apart from it, and a request that is not beyond the
region has its block there. -/
structure Handed (core : BcCore) (region : Region) (c : ClientPool) (size : Nat)
    (c' : ClientPool) (g : Grant) : Prop where
  member : g ∈ c'.state.grants core
  requested : g.requested = size
  kept : ∀ h ∈ c.state.grants core, ∀ a ∈ h.extent.bytes,
    c'.state.world.mem a = c.state.world.mem a
  apart : ∀ h ∈ c.state.grants core, h.extent.stop ≤ g.ptr ∨ g.ptr + 8 ≤ h.ptr
  above : region.base ≤ g.ptr
  stop : (g.within region).stop < 2 ^ 64
  inside : size ≤ region.totalSize → size ≤ (g.within region).size

/-- A block that keeps the contract is handed out. -/
theorem ClientSound.handed_honest (region : Region)
    (sound : ClientSound core platform region.addresses books c.state) (word : size < 2 ^ 64)
    (faithful : ((clientApi core).allocate c size).1.faithful = true)
    (granted : (clientApi core).allocate c size = (c', ⟨true, ptr⟩)) :
    ∃ g, g.ptr = ptr ∧ Handed core region c size c' g := by
  have contract := pool_contract core platform region.addresses books
  obtain ⟨sound', keeps, outcome⟩ := contract.allocate sound word faithful
  rw [granted] at sound' keeps outcome
  rcases outcome with ⟨failed, _⟩ | ⟨g, answer, requested, more⟩
  · cases failed
  have pointer : g.ptr = ptr := (congrArg PtrResult.out answer).symm
  have held : g ∈ (clientView core platform region.addresses books).grants c' := by
    rw [more]
    exact List.mem_cons_self
  have client : ClientSound core platform region.addresses books c'.state := sound'
  obtain ⟨_, _, room, _, stop, territory⟩ := contract.bounds sound' g held
  obtain ⟨wide, _⟩ := client.inv.grant_below held
  have whole : g.within region = g.extent := Grant.within_eq (by omega) territory
  refine ⟨g, pointer, held, requested, fun h inHeld => keeps.block inHeld, fun h inHeld => ?_,
    ?_, ?_, fun _ => ?_⟩
  · have pairwise := contract.apart sound'
    rw [more, List.map_cons] at pairwise
    have apart := (List.pairwise_cons.mp pairwise).1 _ (List.mem_map_of_mem inHeld)
    unfold Extent.Apart Extent.stop Grant.extent at *
    dsimp only at *
    omega
  · have first : g.ptr ∈ g.extent.bytes := Extent.mem_bytes.mpr (by
      unfold Grant.extent
      dsimp only
      omega)
    exact (territory first).1
  · rwa [whole]
  · rw [whole, ← requested]
    exact room

/-- A block that the pool should have refused is handed out all the same: it begins
behind the bump pointer, and the blocks of others end in front of it. -/
theorem ClientSound.handed_wraps (region : Region)
    (sound : ClientSound core platform region.addresses books c.state)
    (same : c.state.world.ctx.region.base = region.base ∧
      c.state.world.ctx.region.totalSize = region.totalSize)
    (oversize : region.totalSize < size) (word : size < 2 ^ 64)
    (wraps : BumpWraps platform c.state.world.ctx size)
    (granted : (clientApi core).allocate c size = (c', ⟨true, ptr⟩)) :
    ∃ g, g.ptr = ptr ∧ Handed core region c size c' g := by
  obtain ⟨free, heap⟩ := sound.inv.heap
  have handed : (poolAllocate core c.state.world size).2.ok = true ∧
      WrappedGrant c.state.world (poolAllocate core c.state.world size).1
        (poolAllocate core c.state.world size).2.out :=
    poolAllocate_wraps heap (by rwa [same.2]) word wraps
  obtain ⟨ok, pointer, changes⟩ := handed
  have state : (poolAllocate core c.state.world size).1 = c'.state.world :=
    congrArg (fun r => r.1.state.world) granted
  have answer : (poolAllocate core c.state.world size).2.out = ptr :=
    congrArg (fun r => r.2.out) granted
  have live : c'.state.live = ⟨ptr, size⟩ :: c.state.live := by
    have after : (c.state.perform core (.allocate size)).1.live = c'.state.live :=
      congrArg (fun r => r.1.state.live) granted
    rw [← after]
    change (if (poolAllocate core c.state.world size).2.ok = true then _ else _) = _
    rw [if_pos ok, answer]
  rw [state] at changes
  rw [answer] at pointer
  have bump := heap.bump_le
  have top : c.state.world.ctx.region.base + c.state.world.ctx.region.totalSize +
      platform.pageSize ≤ 2 ^ 64 :=
    platform.add_pageSize_le (by decide)
      (Nat.dvd_add heap.geometry.base_aligned heap.geometry.total_aligned) heap.geometry.region_lt
  have page := platform.pageSize_ge
  unfold largeMetaSize at pointer changes
  refine ⟨LiveBlock.grant core c'.state.world.mem ⟨ptr, size⟩, rfl, ?_, rfl, fun h inHeld => ?_,
    fun h inHeld => ?_, ?_, ?_, fun within => absurd within (Nat.not_le.mpr oversize)⟩
  · exact mem_grants.mpr ⟨⟨ptr, size⟩, live ▸ List.mem_cons_self, rfl⟩
  · have below := (sound.inv.grant_below inHeld).2
    refine fun a inside => changes a fun written => ?_
    rw [Extent.mem_bytes] at inside
    exact Nat.not_lt.mpr written.1 (lt_of_lt_of_le inside.2 below)
  · have below := (sound.inv.grant_below inHeld).2
    change h.extent.stop ≤ ptr ∨ _
    omega
  · change region.base ≤ ptr
    omega
  · unfold Grant.within Extent.stop LiveBlock.grant
    dsimp only
    omega

/-- The block that the pool hands out, whether or not it should have refused. -/
theorem ClientSound.handed (sound : ClientSound core platform region.addresses books c.state)
    (faithful : c.faithful = true) (pos : 0 < region.totalSize) (word : size < 2 ^ 64)
    (granted : (clientApi core).allocate c size = (c', ⟨true, ptr⟩)) :
    ∃ g, g.ptr = ptr ∧ Handed core region c size c' g := by
  have same : c.state.world.ctx.region.base = region.base ∧
      c.state.world.ctx.region.totalSize = region.totalSize :=
    ⟨Region.base_eq pos sound.home, Region.totalSize_eq sound.home⟩
  by_cases wraps : BumpWraps platform c.state.world.ctx size
  case neg =>
    exact sound.handed_honest region word (sound.ask_faithful faithful word wraps) granted
  rcases Nat.lt_or_ge region.totalSize size with oversize | within
  · exact sound.handed_wraps region same oversize word wraps granted
  · refine sound.handed_honest region word (Bool.and_eq_true_iff.mpr ⟨faithful, ?_⟩) granted
    exact keepsWithin_of_le (by rwa [same.2]) _

/-- A block that was taken by a client of a faithful pool. -/
structure Took (core : BcCore) (platform : Platform) (addresses : Set Nat)
    (books : Option Balance) (c : ClientPool) (size : Nat) (c' : ClientPool) (g : Grant) :
    Prop where
  sound : ClientSound core platform addresses books c'.state
  faithful : c'.faithful = true
  requested : g.requested = size
  grants : c'.state.grants core = g :: c.state.grants core
  keeps : Keeps (clientApi core) (clientView core platform addresses books)
    (c.state.grants core) c c'

/-- A small request that is answered takes a block. -/
theorem ClientSound.took {addresses : Set Nat} {books : Option Balance} {c c' : ClientPool}
    {size ptr : Nat} (sound : ClientSound core platform addresses books c.state)
    (faithful : c.faithful = true) (small : size ≤ maxClassSize)
    (granted : (clientApi core).allocate c size = (c', ⟨true, ptr⟩)) :
    ∃ g, g.ptr = ptr ∧ Took core platform addresses books c size c' g := by
  have word : size < 2 ^ 64 := lt_of_le_of_lt small (by decide)
  have trusted := sound.ask_faithful faithful word (sound.small_exact small)
  obtain ⟨sound', keeps, outcome⟩ :=
    (pool_contract core platform addresses books).allocate sound word trusted
  rw [granted] at trusted sound' keeps outcome
  rcases outcome with ⟨failed, _⟩ | ⟨g, answer, requested, grants⟩
  · cases failed
  · exact ⟨g, (congrArg PtrResult.out answer).symm, sound', trusted, requested, grants, keeps⟩

end BcAllocators
