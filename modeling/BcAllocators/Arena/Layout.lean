import BcAllocators.Arena.Client

/-!
# Where arenas keep their allocations

In every reachable state the chunks of each live arena form a chain that ends in
the current chunk, each chunk ends with its block, and the allocations of all
arenas lie in the used parts of payloads, aligned, apart from each other and from
every header (`arena_layout`). Blocks travel between arenas through the cache,
but a block is in one place at a time, so the chunks of all arenas are apart.
-/

set_option autoImplicit false

namespace BcAllocators

open Machine

/-- **The layout of the live arenas**, in terms of the fields of their headers. -/
structure Layout (w : World) (arenas : List LiveArena) : Prop where
  /-- The chain from `first_chunk` is finite. -/
  linked : ∀ h ∈ arenas, Linked (chunkNext w.mem) (arenaFirstChunk w.mem h.address)
    (arenaChain w.mem h.address)
  /-- It has no cycle. -/
  acyclic : ∀ h ∈ arenas, (arenaChain w.mem h.address).Nodup
  /-- It ends in `current_chunk`. -/
  last : ∀ h ∈ arenas,
    (arenaChain w.mem h.address).getLast? = some (arenaCurrentChunk w.mem h.address)
  /-- The used bytes of a chunk are within its capacity. -/
  used_le : ∀ h ∈ arenas, ∀ c ∈ arenaChain w.mem h.address,
    chunkUsed w.mem c ≤ chunkCapacity w.mem c
  /-- The capacity reaches to the end of the block, which is mapped. -/
  capacity : ∀ h ∈ arenas, ∀ c ∈ arenaChain w.mem h.address,
    chunkBlock w.mem h.address c ∈ w.kernel.mapped ∧
      chunkMemoryStart w.mem c + chunkCapacity w.mem c = (chunkBlock w.mem h.address c).stop
  /-- Allocations are aligned as requested. -/
  aligned : ∀ h ∈ arenas, ∀ x ∈ h.allocs, x.alignment ∣ x.ptr
  /-- Allocations lie in the used part of one chunk's payload. -/
  inside : ∀ h ∈ arenas, ∀ x ∈ h.allocs, ∃ c ∈ arenaChain w.mem h.address,
    chunkMemoryStart w.mem c ≤ x.ptr ∧
      x.extent.stop ≤ chunkMemoryStart w.mem c + chunkUsed w.mem c
  /-- Allocations are apart, within and across arenas. -/
  apart : ((arenas.flatMap LiveArena.allocs).map Alloc.extent).Pairwise Extent.Apart
  /-- Allocations are apart from all headers. -/
  headers : ∀ h ∈ arenas, ∀ x ∈ h.allocs, ∀ g ∈ arenas, x.extent.Apart (arenaZone g.address) ∧
    ∀ c ∈ arenaChain w.mem g.address, x.extent.Apart ⟨c, chunkHeaderAligned⟩

variable {core : BcCore} {platform : Platform} {w : World} {views : List ArenaView}
variable {foreign : List Extent} {a b : ArenaView}

/-! ## Blocks of all arenas -/

/-- The chunks of two arenas of a heap are the same or lie in blocks apart. -/
theorem ArenaHeap.chunk_apart (heap : ArenaHeap platform w views foreign) (inViews : a ∈ views)
    (inViews' : b ∈ views) {c d : Chunk} (inChunks : c ∈ a.chunks) (inChunks' : d ∈ b.chunks) :
    (a = b ∧ c = d) ∨ c.extent.Apart d.extent := by
  have symmetric : Std.Symm fun c d : Chunk => c.extent.Apart d.extent :=
    ⟨fun _ _ apart => apart.symm⟩
  by_cases same : a = b
  · subst same
    by_cases equal : c = d
    · exact Or.inl ⟨rfl, equal⟩
    · exact Or.inr ((List.pairwise_map.mp (heap.shape a inViews).apart).forall inChunks inChunks'
        equal)
  · obtain ⟨rest, split⟩ := exists_split inViews
    have inRest : b ∈ rest := by
      rcases List.mem_cons.mp (split.mem_iff.mp inViews') with equal | inRest
      · exact absurd equal.symm same
      · exact inRest
    exact Or.inr ((heap.perm split.symm).apart_rest _ (List.mem_map_of_mem inChunks) _
      (List.mem_flatMap.mpr ⟨b, inRest, List.mem_map_of_mem inChunks'⟩))

/-- What a chunk holds is apart from the headers of every arena. -/
theorem ArenaHeap.holds_apart (heap : ArenaHeap platform w views foreign) (inViews : a ∈ views)
    (inViews' : b ∈ views) {c : Chunk} (inChunks : c ∈ a.chunks) {x : Alloc} (holds : c.Holds x) :
    x.extent.Apart b.zone ∧ ∀ d ∈ b.chunks, x.extent.Apart d.zone := by
  have payload := holds.inside ((heap.shape a inViews).fit c inChunks)
  constructor
  · rcases heap.chunk_apart inViews inViews' inChunks b.first_mem with ⟨rfl, rfl⟩ | apart
    · right
      have lead := (heap.shape a inViews).first_lead
      have above := holds.1
      simp only [ArenaView.zone, arenaZone, Extent.stop, ArenaView.address, Chunk.start, lead,
        Alloc.extent] at *
      omega
    · exact apart.mono payload (heap.shape b inViews').zone_inside
  · intro d inChunks'
    rcases heap.chunk_apart inViews inViews' inChunks inChunks' with ⟨_, rfl⟩ | apart
    · exact Or.inr holds.1
    · exact apart.mono payload ((heap.shape b inViews').fit d inChunks').zone_inside

/-- Allocations of arenas whose blocks are apart are apart. -/
theorem allocs_apart (shape : ∀ a ∈ views, a.Shape) (sound : ∀ a ∈ views, a.Sound)
    (apart : (arenaBlocks views).Pairwise Extent.Apart) :
    ((views.flatMap ArenaView.allocs).map Alloc.extent).Pairwise Extent.Apart := by
  induction views with
  | nil => exact List.Pairwise.nil
  | cons a rest ih =>
      obtain ⟨_, inRest, across⟩ := List.pairwise_append.mp apart
      rw [List.flatMap_cons, List.map_append]
      refine List.pairwise_append.mpr ⟨(sound a List.mem_cons_self).apart, ?_, ?_⟩
      · exact ih (fun b member => shape b (List.mem_cons_of_mem a member))
          (fun b member => sound b (List.mem_cons_of_mem a member)) inRest
      · intro e inFirst f inOthers
        obtain ⟨x, inAllocs, rfl⟩ := List.mem_map.mp inFirst
        obtain ⟨y, others, rfl⟩ := List.mem_map.mp inOthers
        obtain ⟨b, member, inAllocs'⟩ := List.mem_flatMap.mp others
        have inViews := List.mem_cons_of_mem a member
        obtain ⟨c, inChunks, holds⟩ := (sound a List.mem_cons_self).inside x inAllocs
        obtain ⟨d, inChunks', holds'⟩ := (sound b inViews).inside y inAllocs'
        refine (across c.extent (List.mem_map_of_mem inChunks) d.extent ?_).mono
          (holds.inside ((shape a List.mem_cons_self).fit c inChunks))
          (holds'.inside ((shape b inViews).fit d inChunks'))
        exact List.mem_flatMap.mpr ⟨b, member, List.mem_map_of_mem inChunks'⟩

/-! ## The layout -/

/-- **The arenas of a heap are laid out**, for a client that knows them. -/
theorem ArenaHeap.layout (heap : ArenaHeap platform w views foreign) {arenas : List LiveArena}
    (perm : arenas.Perm (views.map ArenaView.client)) : Layout w arenas := by
  -- a chunk of the chain in memory is one of the view
  have chunk : ∀ a ∈ views, ∀ p ∈ arenaChain w.mem a.address, ∃ c ∈ a.chunks, c.header = p := by
    intro a inViews p member
    rw [heap.arenaChain_eq inViews] at member
    exact List.mem_map.mp member
  constructor
  case linked =>
    simp only [perm.mem_iff, List.forall_mem_map]
    intro a inViews
    have here := heap.here a inViews
    have first : arenaFirstChunk w.mem a.address = a.first.header :=
      ArenaView.firstChunk_of_header here.header
    have chain := here.chain
    rwa [← heap.arenaChain_eq inViews, ← first] at chain
  case acyclic =>
    simp only [perm.mem_iff, List.forall_mem_map]
    intro a inViews
    have nodup := (heap.here a inViews).chain.nodup
    rwa [← heap.arenaChain_eq inViews] at nodup
  case last =>
    simp only [perm.mem_iff, List.forall_mem_map]
    intro a inViews
    have current : arenaCurrentChunk w.mem a.address = a.last.header :=
      ArenaView.currentChunk_of_header (heap.here a inViews).header
    change (arenaChain w.mem a.address).getLast? = some (arenaCurrentChunk w.mem a.address)
    rw [heap.arenaChain_eq inViews, current, ArenaView.chunks, List.map_append]
    exact List.getLast?_concat
  case used_le =>
    simp only [perm.mem_iff, List.forall_mem_map]
    intro a inViews p inChain
    obtain ⟨c, inChunks, rfl⟩ := chunk a inViews p inChain
    have here := (heap.here a inViews).chunks c inChunks
    rw [here.used, here.capacity]
    exact ((heap.shape a inViews).fit c inChunks).used
  case capacity =>
    simp only [perm.mem_iff, List.forall_mem_map]
    intro a inViews p inChain
    obtain ⟨c, inChunks, rfl⟩ := chunk a inViews p inChain
    have here := (heap.here a inViews).chunks c inChunks
    have block := heap.chunkBlock_eq inViews inChunks
    change chunkBlock w.mem a.address c.header ∈ _ ∧
      _ = (chunkBlock w.mem a.address c.header).stop
    rw [block, here.memoryStart, here.capacity]
    refine ⟨heap.ledger.mapped.mem_iff.mpr ?_,
      ((heap.shape a inViews).fit c inChunks).start_add_capacity⟩
    refine List.mem_append_left _ (List.mem_append_left _ (List.mem_append_left _ ?_))
    exact List.mem_flatMap.mpr ⟨a, inViews, List.mem_map_of_mem inChunks⟩
  case aligned =>
    simp only [perm.mem_iff, List.forall_mem_map]
    intro a inViews x inAllocs
    exact (heap.sound a inViews).aligned x inAllocs
  case inside =>
    simp only [perm.mem_iff, List.forall_mem_map]
    intro a inViews x inAllocs
    obtain ⟨c, inChunks, holds⟩ := (heap.sound a inViews).inside x inAllocs
    have here := (heap.here a inViews).chunks c inChunks
    refine ⟨c.header, ?_, ?_⟩
    · change c.header ∈ arenaChain w.mem a.address
      rw [heap.arenaChain_eq inViews]
      exact List.mem_map_of_mem inChunks
    · rw [here.memoryStart, here.used]
      exact holds
  case apart =>
    have pairwise := allocs_apart heap.shape heap.sound heap.apart
    refine (((perm.flatMap_right LiveArena.allocs).map Alloc.extent).pairwise_iff
      (fun apart => apart.symm)).mpr ?_
    rwa [List.flatMap_map]
  case headers =>
    simp only [perm.mem_iff, List.forall_mem_map]
    intro a inViews x inAllocs b inViews'
    obtain ⟨c, inChunks, holds⟩ := (heap.sound a inViews).inside x inAllocs
    obtain ⟨zone, zones⟩ := heap.holds_apart inViews inViews' inChunks holds
    refine ⟨zone, fun p inChain => ?_⟩
    obtain ⟨d, inChunks', rfl⟩ := chunk b inViews' p inChain
    exact zones d inChunks'

/-- **Arena layout.** In every reachable state the live arenas are laid out. -/
theorem arena_layout (core : BcCore) (platform : Platform) (foreign : List Extent)
    {s : ArenaState} (reachable : (arenaSystem core platform foreign).Reachable s) :
    Layout s.world s.arenas := by
  obtain ⟨views, heap, perm⟩ := ArenaInv.reachable reachable
  exact heap.layout perm

/-- The layout of a grown arena beside a fixed one. -/
theorem arena_layout_twoArenas : Layout twoArenas.world twoArenas.arenas :=
  arena_layout BcCore.reference Platform.x86 [] twoArenas_reachable

example : twoArenas.arenas = [⟨393216, [⟨393344, 100, 8⟩]⟩,
    ⟨131072, [⟨262208, 5000, 1⟩, ⟨131200, 24, 16⟩]⟩] := by
  decide +kernel

end BcAllocators
