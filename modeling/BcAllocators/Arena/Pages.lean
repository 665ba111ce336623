import BcAllocators.Arena.Client

/-!
# Releasing pages

`release_pages` gives advice about the payload of each chunk. A payload starts
behind the headers of its block, inside a page, and the advice is refused; so the
call discards nothing and changes nothing. The headers are unharmed, but the whole
pages of a payload, which are those behind the first page of its block, are not
released. So the call does what it is for exactly when there are none, that is, when
every block is one page long (`releasesPages_iff`).
-/

set_option autoImplicit false

namespace BcAllocators

open Machine

variable {core : BcCore} {platform : Platform} {foreign : List Extent} {s : ArenaState}
variable {w w' : World} {a : ArenaView} {views rest : List ArenaView} {arena : Nat}

/-- The advice of `bc_allocators_arena_release_pages`. -/
def arenaReleaseAdvice (platform : Platform) (w : World) (arena : Nat) : Option (List Extent) :=
  releaseAdvice platform chainFuel w.mem (arenaFirstChunk w.mem arena)

/-- A byte that some advice discards. -/
def Discarded (platform : Platform) (advice : List Extent) (p : Nat) : Prop :=
  ∃ e ∈ advice, p ∈ (adviseDiscards platform e.start e.size).bytes

/-- What releasing pages is for: the whole pages of each payload are discarded, the
headers are as before, and so is everything outside the payloads. -/
structure ReleasesPages (platform : Platform) (w : World) (arena : Nat) (w' : World)
    (advice : List Extent) : Prop where
  returned : arenaReleasePages platform w arena = some w'
  advised : arenaReleaseAdvice platform w arena = some advice
  discarded : ∀ c ∈ arenaChain w.mem arena, ∀ page, platform.pageSize ∣ page →
    chunkMemoryStart w.mem c ≤ page →
    page + platform.pageSize ≤ chunkMemoryStart w.mem c + chunkCapacity w.mem c →
    ∀ p ∈ Set.Ico page (page + platform.pageSize), Discarded platform advice p
  arenaHeader : ∀ p ∈ (arenaZone arena).bytes, w'.mem p = w.mem p
  chunkHeaders : ∀ c ∈ arenaChain w.mem arena, ∀ p ∈ Extent.bytes ⟨c, chunkHeaderAligned⟩,
    w'.mem p = w.mem p
  elsewhere : ChangesOnly {p | ∃ c ∈ arenaChain w.mem arena, p ∈ Set.Ico
    (chunkMemoryStart w.mem c) (chunkMemoryStart w.mem c + chunkCapacity w.mem c)} w.mem w'.mem
  context : w'.ctx = w.ctx ∧ w'.kernel = w.kernel

/-- Every block of the arena is one page long. -/
def OnePageBlocks (platform : Platform) (m : Memory) (arena : Nat) : Prop :=
  ∀ c ∈ arenaChain m arena, chunkMmapSize m c = platform.pageSize

/-! ## What the advice does -/

/-- The call is its advice, given range by range. -/
theorem arenaReleasePages_eq (platform : Platform) (w : World) (arena : Nat) :
    arenaReleasePages platform w arena =
      (arenaReleaseAdvice platform w arena).map fun advice =>
        { w with mem := adviseAll platform w.mem advice } := by
  rw [arenaReleasePages, arenaReleaseAdvice, adviseChunks_eq]
  cases releaseAdvice platform chainFuel w.mem (arenaFirstChunk w.mem arena) <;> rfl

/-- **Memory after some advice**: what was discarded reads as zeros, and the rest is as
before. -/
theorem adviseAll_spec (platform : Platform) (advice : List Extent) (m : Memory) (p : Nat) :
    (Discarded platform advice p → adviseAll platform m advice p = 0) ∧
      (¬ Discarded platform advice p → adviseAll platform m advice p = m p) := by
  induction advice generalizing m with
  | nil => exact ⟨fun ⟨e, member, _⟩ => absurd member List.not_mem_nil, fun _ => rfl⟩
  | cons e rest ih =>
      obtain ⟨zero, same⟩ := ih (adviseDontNeed platform m e.start e.size)
      have split : Discarded platform (e :: rest) p ↔
          p ∈ (adviseDiscards platform e.start e.size).bytes ∨ Discarded platform rest p := by
        simp only [Discarded, List.exists_mem_cons_iff]
      rw [split]
      rw [show adviseAll platform m (e :: rest) p =
        adviseAll platform (adviseDontNeed platform m e.start e.size) rest p from rfl]
      by_cases later : Discarded platform rest p
      · exact ⟨fun _ => zero later, fun neither => absurd (Or.inr later) neither⟩
      rw [same later, adviseDontNeed_eq]
      refine ⟨fun discarded => ?_, fun neither => ?_⟩
      · exact if_pos (discarded.resolve_right later)
      · exact if_neg fun inside => neither (Or.inl inside)

/-- The whole pages that are released read as zeros afterwards. -/
theorem ReleasesPages.zero {advice : List Extent}
    (releases : ReleasesPages platform w arena w' advice) {c page : Nat}
    (member : c ∈ arenaChain w.mem arena) (aligned : platform.pageSize ∣ page)
    (above : chunkMemoryStart w.mem c ≤ page)
    (below : page + platform.pageSize ≤ chunkMemoryStart w.mem c + chunkCapacity w.mem c) :
    ∀ p ∈ Set.Ico page (page + platform.pageSize), w'.mem p = 0 := by
  intro p inside
  have returned := releases.returned
  rw [arenaReleasePages_eq, releases.advised, Option.map_some] at returned
  obtain rfl := Option.some.inj returned
  exact (adviseAll_spec platform advice w.mem p).1
    (releases.discarded c member page aligned above below p inside)

/-! ## Whole pages of a payload -/

/-- A page in a payload lies behind the first page of the block. -/
theorem Chunk.page_behind (c : Chunk) {page : Nat} (block : platform.pageSize ∣ c.block)
    (aligned : platform.pageSize ∣ page) (above : c.start ≤ page) :
    c.block + platform.pageSize ≤ page := by
  have higher : c.block < page :=
    lt_of_lt_of_le (Nat.lt_of_lt_of_le (Nat.lt_add_of_pos_right (by decide))
      (Nat.add_le_add_right (Nat.le_add_right c.block c.lead) chunkHeaderAligned)) above
  obtain ⟨i, rfl⟩ := aligned
  obtain ⟨j, below⟩ := block
  rw [below] at higher ⊢
  have next : j + 1 ≤ i := Nat.lt_of_mul_lt_mul_left higher
  calc platform.pageSize * j + platform.pageSize = platform.pageSize * (j + 1) := rfl
    _ ≤ platform.pageSize * i := Nat.mul_le_mul_left _ next

/-- An address behind the first page of a block of whole pages lies in a whole page of
the payload. -/
theorem Chunk.page_of_behind (c : Chunk) {p : Nat} (block : platform.pageSize ∣ c.block)
    (size : platform.pageSize ∣ c.mmapSize) (lead : c.lead = 0 ∨ c.lead = arenaHeaderAligned)
    (behind : c.block + platform.pageSize ≤ p) (inside : p < c.stop) :
    ∃ page, platform.pageSize ∣ page ∧ c.start ≤ page ∧ page + platform.pageSize ≤ c.stop ∧
      p ∈ Set.Ico page (page + platform.pageSize) := by
  have pos := platform.pageSize_pos
  have headers : c.start ≤ c.block + platform.pageSize := by
    have page := platform.pageSize_ge
    simp only [Chunk.start, arenaHeaderAligned, chunkHeaderAligned] at *
    omega
  have split := Nat.div_add_mod p platform.pageSize
  have small := Nat.mod_lt p pos
  obtain ⟨i, start⟩ := Nat.dvd_add block (Nat.dvd_refl platform.pageSize)
  obtain ⟨j, stop⟩ := Nat.dvd_add block size
  have first : i ≤ p / platform.pageSize :=
    (Nat.le_div_iff_mul_le pos).mpr (by rwa [Nat.mul_comm, ← start])
  have last : p / platform.pageSize + 1 ≤ j := by
    refine Nat.succ_le_of_lt ((Nat.div_lt_iff_lt_mul pos).mpr ?_)
    rwa [Nat.mul_comm, ← stop]
  refine ⟨platform.pageSize * (p / platform.pageSize), Nat.dvd_mul_right _ _, ?_, ?_, ?_, ?_⟩
  · exact headers.trans (start ▸ Nat.mul_le_mul_left _ first)
  · rw [Chunk.stop, stop]
    exact Nat.mul_le_mul_left _ last
  · exact Nat.mul_div_le p platform.pageSize
  · omega

/-- A block of whole pages has a whole page of payload exactly when it is longer than
one page. -/
theorem Chunk.whole_page_iff (c : Chunk) (block : platform.pageSize ∣ c.block)
    (size : platform.pageSize ∣ c.mmapSize) (pos : 0 < c.mmapSize)
    (lead : c.lead = 0 ∨ c.lead = arenaHeaderAligned) :
    (∃ page, platform.pageSize ∣ page ∧ c.start ≤ page ∧ page + platform.pageSize ≤ c.stop) ↔
      c.mmapSize ≠ platform.pageSize := by
  constructor
  · rintro ⟨page, aligned, above, below⟩ one
    have behind := c.page_behind block aligned above
    have positive := platform.pageSize_pos
    rw [Chunk.stop, one] at below
    omega
  · intro longer
    have least := Nat.le_of_dvd pos size
    have more : c.block + platform.pageSize < c.stop :=
      Nat.add_lt_add_left (lt_of_le_of_ne least (Ne.symm longer)) c.block
    obtain ⟨page, aligned, above, below, _⟩ :=
      c.page_of_behind block size lead (Nat.le_refl _) more
    exact ⟨page, aligned, above, below⟩

/-! ## Every reachable arena -/

/-- **Releasing pages discards nothing and changes nothing.** -/
theorem ArenaHeap.releases_nothing (heap : ArenaHeap platform w (a :: rest) foreign) :
    arenaReleasePages platform w a.address = some w ∧
      ∃ advice, arenaReleaseAdvice platform w a.address = some advice ∧
        ∀ p, ¬ Discarded platform advice p := by
  obtain ⟨linked, walked⟩ := heap.walked
  refine ⟨arenaReleasePages_outcome heap, _, releaseAdvice_spec heap.length_lt linked walked, ?_⟩
  rintro p ⟨e, member, inside⟩
  obtain ⟨c, inChunks, rfl⟩ := List.mem_map.mp member
  obtain ⟨_, _, block, lead⟩ := walked c inChunks
  have none : (adviseDiscards platform c.content.start c.content.size).bytes = ∅ :=
    adviseDiscards_unaligned (payload_unaligned c block lead)
  rw [none] at inside
  exact inside

/-- **Exactly when releasing pages does what it is for**, for every arena of a
reachable state. -/
theorem releasesPages_iff (core : BcCore) (platform : Platform) (foreign : List Extent)
    (reachable : (arenaSystem core platform foreign).Reachable s) {arena : Nat}
    (live : s.Live arena) :
    (∃ w' advice, ReleasesPages platform s.world arena w' advice) ↔
      OnePageBlocks platform s.world.mem arena := by
  obtain ⟨views, heap, perm⟩ := ArenaInv.reachable reachable
  obtain ⟨h, member, rfl⟩ := live
  obtain ⟨a, rest, rfl, _, first, _⟩ := ArenaInv.split heap perm member
  obtain ⟨released, advice, advised, nothing⟩ := first.releases_nothing
  have chain : arenaChain s.world.mem a.client.address = a.chunks.map Chunk.header :=
    first.arenaChain_eq List.mem_cons_self
  have shape := first.shape a List.mem_cons_self
  -- the fields of a chunk, and when its payload has a whole page
  have fields : ∀ c ∈ a.chunks, chunkMemoryStart s.world.mem c.header = c.start ∧
      c.start + chunkCapacity s.world.mem c.header = c.stop ∧
      chunkMmapSize s.world.mem c.header = c.mmapSize ∧
      ((∃ page, platform.pageSize ∣ page ∧ c.start ≤ page ∧ page + platform.pageSize ≤ c.stop) ↔
        c.mmapSize ≠ platform.pageSize) := by
    intro c inChunks
    have here := (first.here a List.mem_cons_self).chunks c inChunks
    have fit := first.blockFit List.mem_cons_self inChunks
    have walked := first.walked.2 c inChunks
    refine ⟨here.memoryStart, ?_, here.mmapSize,
      c.whole_page_iff walked.block fit.size_aligned fit.size_pos walked.lead⟩
    rw [here.capacity]
    exact (shape.fit c inChunks).start_add_capacity
  rw [OnePageBlocks, chain, List.forall_mem_map]
  constructor
  · rintro ⟨w', advice', releases⟩ c inChunks
    obtain rfl : advice = advice' := Option.some.inj (advised.symm.trans releases.advised)
    obtain ⟨start, stop, size, whole⟩ := fields c inChunks
    rw [size]
    by_contra longer
    obtain ⟨page, aligned, above, below⟩ := whole.mpr longer
    refine nothing page (releases.discarded c.header ?_ page aligned ?_ ?_ page ?_)
    · rw [chain]
      exact List.mem_map_of_mem inChunks
    · rwa [start]
    · rwa [start, stop]
    · exact ⟨Nat.le_refl _, Nat.lt_add_of_pos_right platform.pageSize_pos⟩
  · intro onePage
    refine ⟨s.world, advice, released, advised, ?_, fun _ _ => rfl, fun _ _ _ _ => rfl,
      ChangesOnly.refl _ _, rfl, rfl⟩
    intro p inChain page aligned above below
    rw [chain] at inChain
    obtain ⟨c, inChunks, rfl⟩ := List.mem_map.mp inChain
    obtain ⟨start, stop, size, whole⟩ := fields c inChunks
    rw [start] at above below
    rw [stop] at below
    exact absurd (size.symm.trans (onePage c inChunks)) (whole.mp ⟨page, aligned, above, below⟩)

/-! ## A page that is not released -/

/-- The small context with a fixed arena of two pages. -/
def twoPageArena : ArenaState :=
  (smallContext.created (arenaCreate BcCore.reference Platform.x86 smallContext.world 4096
    (some 131072))).1

/-- The arena with an allocation of 8000 bytes. -/
def twoPageAllocation : ArenaState :=
  (twoPageArena.allocated 131072 8000 1 (arenaAllocate BcCore.reference Platform.x86
    twoPageArena.world 131072 8000 1 none)).1

/-- The allocation with a byte at the start of the second page. -/
def filledArena (byte : UInt8) : ArenaState :=
  twoPageAllocation.after
    { twoPageAllocation.world with mem := storeBytes twoPageAllocation.world.mem 135168 [byte] }
    twoPageAllocation.arenas

theorem twoPageAllocation_reachable :
    (arenaSystem BcCore.reference Platform.x86 []).Reachable twoPageAllocation := by
  have created := (System.Reachable.start smallContext_start).next
    (show (arenaSystem BcCore.reference Platform.x86 []).Next smallContext
        ⟨.create 4096 (some 131072), _⟩ twoPageArena from
      ⟨show (4096 : Nat) < 2 ^ 64 by decide, rfl⟩)
  exact created.next
    (show (arenaSystem BcCore.reference Platform.x86 []).Next twoPageArena
        ⟨.allocate 131072 8000 1 none, _⟩ twoPageAllocation from
      ⟨⟨⟨⟨131072, []⟩, by decide, rfl⟩, by decide, by decide⟩, rfl⟩)

theorem filledArena_next (byte : UInt8) :
    (arenaSystem BcCore.reference Platform.x86 []).Next twoPageAllocation
      ⟨.write 135168 [byte], ⟨true, NULL⟩⟩ (filledArena byte) :=
  ⟨⟨⟨131072, [⟨131200, 8000, 1⟩]⟩, by decide, ⟨131200, 8000, 1⟩, by decide, by decide,
    show 135168 + 1 ≤ 131200 + 8000 by decide⟩, rfl⟩

theorem filledArena_reachable (byte : UInt8) :
    (arenaSystem BcCore.reference Platform.x86 []).Reachable (filledArena byte) :=
  twoPageAllocation_reachable.next (filledArena_next byte)

theorem filledArena_live (byte : UInt8) : (filledArena byte).Live 131072 :=
  ⟨⟨131072, [⟨131200, 8000, 1⟩]⟩, show _ ∈ twoPageAllocation.arenas by decide, rfl⟩

/-- The pages of an arena with a block of two pages are not released, those of an arena
with a block of one page are: it has none behind the first. -/
theorem releasesPages_iff_filledArena :
    ((∃ w' advice, ReleasesPages Platform.x86 (filledArena 170).world 131072 w' advice) ↔
        OnePageBlocks Platform.x86 (filledArena 170).world.mem 131072) ∧
      ((∃ w' advice, ReleasesPages Platform.x86 oneArena.world 131072 w' advice) ↔
        OnePageBlocks Platform.x86 oneArena.world.mem 131072) :=
  ⟨releasesPages_iff BcCore.reference Platform.x86 [] (filledArena_reachable 170)
      (filledArena_live 170),
    releasesPages_iff BcCore.reference Platform.x86 [] oneArena_reachable
      ⟨⟨131072, []⟩, by decide, rfl⟩⟩

/-- **The second page of a payload keeps its contents**: it is not among the pages that
the advice discards. -/
theorem second_page_kept :
    (arenaSystem BcCore.reference Platform.x86 []).Reachable (filledArena 170) ∧
      (filledArena 170).Live 131072 ∧
      (arenaReleasePages Platform.x86 (filledArena 170).world 131072).map
        (fun w => w.mem 135168) = some 170 ∧
      ¬ ∃ w' advice, ReleasesPages Platform.x86 (filledArena 170).world 131072 w' advice := by
  have kept : (arenaReleasePages Platform.x86 (filledArena 170).world 131072).map
      (fun w => w.mem 135168) = some 170 := by decide
  refine ⟨filledArena_reachable 170, filledArena_live 170, kept, ?_⟩
  rintro ⟨w', advice, releases⟩
  rw [releases.returned] at kept
  have zero := releases.zero (c := 131136) (by decide)
    (show Platform.x86.pageSize ∣ 135168 by decide) (by decide) (by decide) 135168
    ⟨by decide, by decide⟩
  rw [Option.map_some, zero] at kept
  revert kept
  decide

end BcAllocators
