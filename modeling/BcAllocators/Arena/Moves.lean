import BcAllocators.Arena.Views

/-!
# The moves of an arena

An arena changes in four ways: it is set up in a block (`ArenaView.fresh`), its
last chunk serves an allocation (`ArenaView.serve`), a chunk is linked behind
the last one (`ArenaView.extend`), and it is reset to its first chunk
(`ArenaView.reset`). The stores that the code makes for each of them carry a
representation to that of the changed view, and touch nothing but headers.
-/

set_option autoImplicit false

namespace BcAllocators

open Machine

variable {m m' : Memory} {ctx : Nat}

/-! ## Chunk headers -/

namespace Chunk

variable {c : Chunk}

/-- Setting up a chunk writes its header only. -/
theorem initChunk_changesOnly (m : Memory) (c : Chunk) (mmapSize capacity memoryStart : Nat) :
    ChangesOnly c.zone.bytes m (initChunk m c.header mmapSize capacity memoryStart) := by
  have field : ∀ (m : Memory) (v k : Nat), k + 8 ≤ 64 →
      ChangesOnly c.zone.bytes m (storeWord m (c.header + k) v) :=
    fun m v _ small => store_changesOnly m c v small
  simp only [initChunk]
  exact ((((field m NULL 0 (by decide)).trans (field _ _ 8 (by decide))).trans
    (field _ _ 16 (by decide))).trans (field _ _ 24 (by decide))).trans (field _ _ 32 (by decide))

/-- A chunk that has been set up is not linked. -/
theorem initChunk_next (m : Memory) (c : Chunk) (mmapSize capacity memoryStart : Nat) :
    chunkNext (initChunk m c.header mmapSize capacity memoryStart) c.header = NULL := by
  have past : ∀ (m : Memory) (v k : Nat), 8 ≤ k →
      loadWord (storeWord m (c.header + k) v) c.header = loadWord m c.header :=
    fun m v k above => loadWord_storeWord_of_apart (by omega)
  simp only [chunkNext, initChunk]
  rw [past _ _ _ (by decide), past _ _ _ (by decide), past _ _ _ (by decide),
    past _ _ _ (by decide)]
  exact loadWord_storeWord_of_lt (by decide)

/-- **A chunk that has been set up is represented.** -/
theorem initChunk_at (m : Memory) (fit : c.Fit) (unused : c.used = 0) (word : c.stop < 2 ^ 64) :
    c.At (initChunk m c.header c.mmapSize c.capacity c.start) := by
  have past : ∀ (m : Memory) (v j k : Nat), j + 8 ≤ k ∨ k + 8 ≤ j →
      loadWord (storeWord m (c.header + j) v) (c.header + k) = loadWord m (c.header + k) :=
    fun m v j k apart => loadWord_storeWord_of_apart (by omega)
  have headers := fit.headers
  have small : c.mmapSize < 2 ^ 64 ∧ c.capacity < 2 ^ 64 ∧ c.start < 2 ^ 64 := by
    simp only [stop, capacity, start] at *
    omega
  constructor
  · simp only [chunkMmapSize, initChunk]
    rw [past _ _ _ _ (by decide), past _ _ _ _ (by decide), past _ _ _ _ (by decide)]
    exact loadWord_storeWord_of_lt small.1
  · simp only [chunkCapacity, initChunk]
    rw [past _ _ _ _ (by decide), past _ _ _ _ (by decide)]
    exact loadWord_storeWord_of_lt small.2.1
  · simp only [chunkUsed, initChunk]
    rw [past _ _ _ _ (by decide), unused]
    exact loadWord_storeWord_of_lt (by decide)
  · simp only [chunkMemoryStart, initChunk]
    exact loadWord_storeWord_of_lt small.2.2

/-- `chunk->used = used`. -/
theorem At.setUsed (here : c.At m) {used : Nat} (word : used < 2 ^ 64) :
    ({ c with used := used } : Chunk).At (storeWord m (c.header + 24) used) := by
  have past : ∀ k, k + 8 ≤ 24 ∨ 32 ≤ k →
      loadWord (storeWord m (c.header + 24) used) (c.header + k) = loadWord m (c.header + k) :=
    fun k apart => loadWord_storeWord_of_apart (by omega)
  exact ⟨(past 8 (by decide)).trans here.mmapSize, (past 16 (by decide)).trans here.capacity,
    loadWord_storeWord_of_lt word, (past 32 (by decide)).trans here.memoryStart⟩

/-- `chunk->next = next`. -/
theorem At.setNext (here : c.At m) (next : Nat) : c.At (storeWord m c.header next) := by
  have past : ∀ k, 8 ≤ k →
      loadWord (storeWord m c.header next) (c.header + k) = loadWord m (c.header + k) :=
    fun k above => loadWord_storeWord_of_apart (by omega)
  exact ⟨(past 8 (by decide)).trans here.mmapSize, (past 16 (by decide)).trans here.capacity,
    (past 24 (by decide)).trans here.used, (past 32 (by decide)).trans here.memoryStart⟩

theorem Fit.zone_subset (fit : c.Fit) : c.zone.bytes ⊆ c.extent.bytes := by
  intro b inside
  have bounds := fit.zone_inside
  rw [Extent.mem_bytes] at inside
  exact Extent.mem_bytes.mpr ⟨bounds.1.trans inside.1, lt_of_lt_of_le inside.2 bounds.2⟩

/-- The bytes in front of the payload lie in the block. -/
theorem Fit.mem_extent (fit : c.Fit) {b : Nat} (lower : c.block ≤ b) (upper : b < c.start) :
    b ∈ c.extent.bytes :=
  Extent.mem_bytes.mpr ⟨lower, lt_of_lt_of_le upper fit.zone_inside.2⟩

/-- Bytes outside a zone keep what they are when only the zone changes. -/
theorem same_of_apart {e : Extent} (changes : ChangesOnly e.bytes m m')
    (apart : e.Apart c.zone) : ∀ b ∈ c.zone.bytes, m' b = m b :=
  fun b inside => changes b (apart.symm.disjoint inside)

end Chunk

/-- Setting up an arena writes its header only. -/
theorem initArena_changesOnly (m : Memory)
    (arena ctx chunk initialChunkSize maxChunkSize : Nat) (growable : Bool) :
    ChangesOnly (arenaZone arena).bytes m
      (initArena m arena ctx chunk initialChunkSize maxChunkSize growable) := by
  have field : ∀ (m : Memory) (v k : Nat), k + 8 ≤ 64 →
      ChangesOnly (arenaZone arena).bytes m (storeWord m (arena + k) v) :=
    fun m v _ small => arenaStore_changesOnly m arena v small
  have last : ∀ (m : Memory) (v : UInt8),
      ChangesOnly (arenaZone arena).bytes m (storeByte m (arena + 48) v) := by
    intro m v
    refine (changesOnly_storeByte m _ v).mono ?_
    rintro b ⟨rfl⟩
    exact Extent.mem_bytes.mpr ⟨by simp [arenaZone], by simp [arenaZone, arenaHeaderAligned]⟩
  simp only [initArena]
  exact ((((((field m ctx 0 (by decide)).trans (field _ _ 8 (by decide))).trans
    (field _ _ 16 (by decide))).trans (field _ _ 24 (by decide))).trans
    (field _ _ 32 (by decide))).trans (field _ _ 40 (by decide))).trans (last _ _)

theorem countAllocation_changesOnly (m : Memory) (arena : Nat) :
    ChangesOnly (arenaZone arena).bytes m (countAllocation m arena) :=
  arenaStore_changesOnly m arena _ (show 24 + 8 ≤ 64 by decide)

namespace ArenaView

variable {a : ArenaView} {c : Chunk}

/-! ## Changed views -/

/-- An arena set up in a block. -/
def fresh (block mmapSize initialChunkSize maxChunkSize : Nat) (growable : Bool) : ArenaView where
  front := []
  last := ⟨block, arenaHeaderAligned, mmapSize, 0⟩
  allocs := []
  count := 0
  initialChunkSize := initialChunkSize
  maxChunkSize := maxChunkSize
  growable := growable

/-- An allocation in the last chunk. -/
def serve (a : ArenaView) (x : Alloc) : ArenaView :=
  { a with
    last := { a.last with used := x.ptr + x.size - a.last.start }
    allocs := x :: a.allocs
    count := wadd a.count 1 }

/-- A chunk behind the last one. -/
def extend (a : ArenaView) (block mmapSize : Nat) : ArenaView :=
  { a with front := a.chunks, last := ⟨block, 0, mmapSize, 0⟩ }

/-- The first chunk alone, with nothing in it. -/
def reset (a : ArenaView) : ArenaView :=
  { a with front := [], last := { a.first with used := 0 }, allocs := [], count := 0 }

section serve

variable (a : ArenaView) (x : Alloc)

/-- An allocation keeps the first block and where every header is. -/
theorem serve_first : (a.serve x).address = a.address ∧
    (a.serve x).first.header = a.first.header := by
  cases front : a.front with
  | nil => simp [serve, address, first, front, Chunk.header]
  | cons c rest => simp [serve, address, first, front, Chunk.header]

theorem serve_headers : (a.serve x).chunks.map Chunk.header = a.chunks.map Chunk.header := by
  simp [serve, chunks, Chunk.header]

theorem serve_blocks : (a.serve x).blocks = a.blocks := by
  simp [serve, blocks, chunks, Chunk.extent]

end serve

section extend

variable (a : ArenaView) (block mmapSize : Nat)

theorem extend_first : (a.extend block mmapSize).first = a.first := by
  simp [extend, first, chunks_eq]

theorem extend_address : (a.extend block mmapSize).address = a.address := by
  rw [address, extend_first, address]

theorem extend_chunks :
    (a.extend block mmapSize).chunks = a.chunks ++ [⟨block, 0, mmapSize, 0⟩] := rfl

theorem extend_blocks : (a.extend block mmapSize).blocks = a.blocks ++ [⟨block, mmapSize⟩] := by
  simp [blocks, extend_chunks, Chunk.extent]

theorem extend_grown :
    (a.extend block mmapSize).grown = a.grown ++ [⟨block, 0, mmapSize, 0⟩] := by
  rw [grown, extend_chunks, chunks_eq, grown]
  rfl

end extend

theorem reset_address (a : ArenaView) : a.reset.address = a.address := rfl

theorem blocks_eq (a : ArenaView) : a.blocks = a.first.extent :: a.grown.map Chunk.extent := by
  rw [blocks, chunks_eq, List.map_cons]

/-! ## The shape of a changed view -/

theorem Shape.serve (shape : a.Shape) {x : Alloc} (within : x.extent.stop ≤ a.last.stop) :
    (a.serve x).Shape := by
  have lastFit := shape.fit a.last a.last_mem
  have newFit : (a.serve x).last.Fit := by
    refine ⟨lastFit.headers, ?_⟩
    have headers := lastFit.headers
    simp only [ArenaView.serve, Chunk.capacity, Chunk.start, Chunk.stop, Alloc.extent,
      Extent.stop] at *
    omega
  refine ⟨?_, fun c member => ?_, fun c member => ?_, (serve_blocks a x).symm ▸ shape.apart⟩
  · have lead := shape.first_lead
    cases front : a.front with
    | nil => simpa [ArenaView.serve, first, front] using lead
    | cons c rest => simpa [ArenaView.serve, first, front] using lead
  · cases front : a.front with
    | nil => simp [ArenaView.serve, grown, chunks, front] at member
    | cons d rest =>
        have leads := shape.grown_lead
        simp only [ArenaView.serve, grown, chunks, front, List.cons_append, List.tail_cons,
          List.mem_append, List.mem_singleton] at leads member
        rcases member with inRest | rfl
        · exact leads c (Or.inl inRest)
        · exact leads a.last (Or.inr rfl)
  · rcases mem_chunks.mp member with inFront | rfl
    · exact shape.fit c (mem_chunks.mpr (Or.inl inFront))
    · exact newFit

theorem Shape.extend (shape : a.Shape) {block mmapSize : Nat} (room : chunkHeaderAligned ≤ mmapSize)
    (apart : ∀ e ∈ a.blocks, e.Apart ⟨block, mmapSize⟩) : (a.extend block mmapSize).Shape := by
  constructor
  · rw [extend_first]
    exact shape.first_lead
  · intro c member
    rw [extend_grown, List.mem_append, List.mem_singleton] at member
    rcases member with inGrown | rfl
    · exact shape.grown_lead c inGrown
    · rfl
  · intro c member
    rw [extend_chunks, List.mem_append, List.mem_singleton] at member
    rcases member with inChunks | rfl
    · exact shape.fit c inChunks
    · exact ⟨by simpa using room, Nat.zero_le _⟩
  · rw [extend_blocks]
    refine List.pairwise_append.mpr ⟨shape.apart, List.pairwise_singleton _ _, fun e member => ?_⟩
    intro f single
    rw [List.mem_singleton] at single
    exact single ▸ apart e member

theorem Shape.reset (shape : a.Shape) : a.reset.Shape := by
  refine ⟨shape.first_lead, by simp [ArenaView.reset, grown, chunks], fun c member => ?_,
    List.pairwise_singleton _ _⟩
  have only : c = { a.first with used := 0 } := by
    simpa [ArenaView.reset, chunks] using member
  rw [only]
  exact ⟨(shape.fit a.first a.first_mem).headers, Nat.zero_le _⟩

theorem shape_fresh (block initialChunkSize maxChunkSize : Nat) (growable : Bool) {mmapSize : Nat}
    (room : arenaHeaderAligned + chunkHeaderAligned ≤ mmapSize) :
    (fresh block mmapSize initialChunkSize maxChunkSize growable).Shape := by
  refine ⟨rfl, by simp [fresh, grown, chunks], fun c member => ?_, List.pairwise_singleton _ _⟩
  have only : c = ⟨block, arenaHeaderAligned, mmapSize, 0⟩ := by
    simpa [fresh, chunks] using member
  rw [only]
  exact ⟨room, Nat.zero_le _⟩

/-! ## What the stores do -/

/-- The bytes that the headers of an arena take up, each block up to its payload. -/
def headerBytes (a : ArenaView) : Set Nat := {b | ∃ c ∈ a.chunks, c.block ≤ b ∧ b < c.start}

theorem zone_subset_headerBytes (shape : a.Shape) : a.zone.bytes ⊆ a.headerBytes := by
  intro b inside
  refine ⟨a.first, a.first_mem, (Extent.mem_bytes.mp inside).1, ?_⟩
  have upper := (Extent.mem_bytes.mp inside).2
  have lead := shape.first_lead
  simp only [zone, arenaZone, address, Chunk.start, arenaHeaderAligned] at *
  omega

theorem chunkZone_subset_headerBytes (member : c ∈ a.chunks) : c.zone.bytes ⊆ a.headerBytes := by
  intro b inside
  obtain ⟨lower, upper⟩ := Extent.mem_bytes.mp inside
  refine ⟨c, member, ?_, ?_⟩
  · exact (Nat.le_add_right _ _).trans lower
  · exact upper

/-- The header of an arena that only the last chunk has changed for. -/
theorem header_store (here : a.At m ctx) (shape : a.Shape) (member : c ∈ a.chunks)
    (changes : ChangesOnly c.zone.bytes m m') :
    arenaHeader m' a.address = a.header ctx :=
  (arenaHeader_congr fun b inside => changes b
    ((shape.zone_apart member).disjoint inside)).trans here.header

/-- Chunks other than the last are apart from it, header by header. -/
theorem front_store (here : a.At m ctx) (shape : a.Shape)
    (changes : ChangesOnly a.last.zone.bytes m m') (member : c ∈ a.front) :
    c.At m' ∧ chunkNext m' c.header = chunkNext m c.header := by
  have inChunks : c ∈ a.chunks := mem_chunks.mpr (Or.inl member)
  have apart := Chunk.zone_apart (shape.fit c inChunks) (shape.fit a.last a.last_mem)
    (shape.front_apart member)
  have same := Chunk.same_of_apart changes apart.symm
  exact ⟨(here.chunks c inChunks).congr same, Chunk.next_congr same⟩

/-- **Counting an allocation in the last chunk** gives the arena with it served. -/
theorem At.serve (here : a.At m ctx) (shape : a.Shape) {x : Alloc} {used : Nat}
    (last : used = x.ptr + x.size - a.last.start) (word : used < 2 ^ 64) :
    (a.serve x).At
      (countAllocation (storeWord m (a.last.header + 24) used) a.address) ctx := by
  have changes := Chunk.store_changesOnly m a.last used (show 24 + 8 ≤ 64 by decide)
  have header := header_store here shape a.last_mem changes
  have count := count_of_header header
  obtain ⟨address, firstHeader⟩ := serve_first a x
  -- the count lies in the arena header, apart from the chunk headers
  have counted : ∀ c ∈ a.chunks, ∀ b ∈ c.zone.bytes,
      countAllocation (storeWord m (a.last.header + 24) used) a.address b =
        storeWord m (a.last.header + 24) used b := fun c member =>
    Chunk.same_of_apart (countAllocation_changesOnly _ a.address) (shape.zone_apart member)
  constructor
  · rw [address, countAllocation, count,
      arenaHeader_setCount _ _ (wadd_lt _ _), header]
    simp only [ArenaView.header, firstHeader]
    rfl
  · intro c member
    rcases mem_chunks.mp member with inFront | rfl
    · exact (front_store here shape changes inFront).1.congr
        (counted c (mem_chunks.mpr (Or.inl inFront)))
    · have updated := (here.chunks a.last a.last_mem).setUsed word
      rw [last] at updated counted ⊢
      exact updated.congr (counted a.last a.last_mem)
  · rw [serve_headers, firstHeader]
    refine here.chain.congr fun p member => ?_
    obtain ⟨c, inChunks, rfl⟩ := List.mem_map.mp member
    refine (Chunk.next_congr (counted c inChunks)).trans ?_
    rcases mem_chunks.mp inChunks with inFront | rfl
    · exact (front_store here shape changes inFront).2
    · exact loadWord_storeWord_of_apart (by omega)

/-- **Linking a chunk behind the last one** gives the extended arena. -/
theorem At.extend {m₁ : Memory} (before : a.At m₁ ctx) (shape : a.Shape) {block mmapSize : Nat}
    (room : chunkHeaderAligned ≤ mmapSize) (nonnull : block ≠ 0) (word : block < 2 ^ 64)
    (apart : ∀ e ∈ a.blocks, e.Apart ⟨block, mmapSize⟩)
    (created : (⟨block, 0, mmapSize, 0⟩ : Chunk).At m₁)
    (unlinked : chunkNext m₁ block = NULL) :
    (a.extend block mmapSize).At
      (storeWord (storeWord m₁ (arenaCurrentChunk m₁ a.address) block) (a.address + 16) block)
      ctx := by
  have extended := shape.extend room apart
  have newMember : (⟨block, 0, mmapSize, 0⟩ : Chunk) ∈ (a.extend block mmapSize).chunks :=
    last_mem _
  have oldMember : ∀ c ∈ a.chunks, c ∈ (a.extend block mmapSize).chunks :=
    fun c member => List.mem_append_left _ member
  have newFit := extended.fit _ newMember
  have apartZone : ∀ c ∈ a.chunks, (Chunk.zone ⟨block, 0, mmapSize, 0⟩).Apart c.zone :=
    fun c member => (Chunk.zone_apart (shape.fit c member) newFit
      (apart _ (List.mem_map_of_mem member))).symm
  have current : arenaCurrentChunk m₁ a.address = a.last.header :=
    currentChunk_of_header before.header
  rw [current]
  have linked : ChangesOnly a.last.zone.bytes m₁ (storeWord m₁ a.last.header block) :=
    Chunk.store_changesOnly m₁ a.last block (show 0 + 8 ≤ 64 by decide)
  have set : ChangesOnly (arenaZone a.address).bytes (storeWord m₁ a.last.header block)
      (storeWord (storeWord m₁ a.last.header block) (a.address + 16) block) :=
    arenaStore_changesOnly _ a.address block (show 16 + 8 ≤ 64 by decide)
  have address : (a.extend block mmapSize).address = a.address := a.extend_address block mmapSize
  have kept : ∀ c ∈ (a.extend block mmapSize).chunks, ∀ b ∈ c.zone.bytes,
      storeWord (storeWord m₁ a.last.header block) (a.address + 16) block b =
        storeWord m₁ a.last.header block b := fun c member => by
    have zoneApart := extended.zone_apart member
    rw [zone, address] at zoneApart
    exact Chunk.same_of_apart set zoneApart
  have newKept : ∀ b ∈ (Chunk.zone ⟨block, 0, mmapSize, 0⟩).bytes,
      storeWord m₁ a.last.header block b = m₁ b :=
    Chunk.same_of_apart linked (apartZone a.last a.last_mem).symm
  constructor
  · rw [address, arenaHeader_setCurrent _ _ word, header_store before shape a.last_mem linked]
    simp only [ArenaView.header, extend_first]
    rfl
  · intro c member
    refine Chunk.At.congr ?_ (kept c member)
    rw [extend_chunks, List.mem_append, List.mem_singleton] at member
    rcases member with inChunks | rfl
    · rcases mem_chunks.mp inChunks with inFront | rfl
      · exact (front_store before shape linked inFront).1
      · exact (before.chunks a.last a.last_mem).setNext block
    · exact created.congr newKept
  · have nodes : (a.extend block mmapSize).chunks.map Chunk.header =
        a.front.map Chunk.header ++ [a.last.header] ++ [block] := by
      rw [extend_chunks, ArenaView.chunks, List.map_append, List.map_append]
      rfl
    rw [nodes, extend_first]
    have chain := before.chain
    rw [ArenaView.chunks, List.map_append, List.map_singleton] at chain
    refine chain.snoc (fun p member => ?_) ?_ nonnull ?_
    · obtain ⟨c, inFront, rfl⟩ := List.mem_map.mp member
      refine (Chunk.next_congr (kept c ?_)).trans (front_store before shape linked inFront).2
      exact oldMember c (mem_chunks.mpr (Or.inl inFront))
    · refine (Chunk.next_congr (kept a.last (oldMember _ a.last_mem))).trans ?_
      exact loadWord_storeWord_of_lt word
    · refine (Chunk.next_congr (kept _ newMember)).trans ?_
      exact (Chunk.next_congr newKept).trans unlinked

/-- The stores of a reset, when `first_chunk` is `first`. -/
def resetStores (m : Memory) (arena first : Nat) : Memory :=
  storeWord (storeWord (storeWord (storeWord m first NULL) (first + 24) 0) (arena + 16) first)
    (arena + 24) 0

/-- A reset writes the two headers of the first block. -/
theorem resetStores_changesOnly (m : Memory) (shape : a.Shape) :
    ChangesOnly a.headerBytes m (resetStores m a.address a.first.header) := by
  have chunk : ∀ (m : Memory) (v k : Nat), k + 8 ≤ 64 →
      ChangesOnly a.headerBytes m (storeWord m (a.first.header + k) v) := fun m v _ small =>
    (Chunk.store_changesOnly m a.first v small).mono (chunkZone_subset_headerBytes a.first_mem)
  have arena : ∀ (m : Memory) (v k : Nat), k + 8 ≤ 64 →
      ChangesOnly a.headerBytes m (storeWord m (a.address + k) v) := fun m v _ small =>
    (arenaStore_changesOnly m a.address v small).mono (zone_subset_headerBytes shape)
  exact (((chunk m NULL 0 (by decide)).trans (chunk _ 0 24 (by decide))).trans
    (arena _ _ 16 (by decide))).trans (arena _ 0 24 (by decide))

/-- **The stores of a reset** give the arena reset to its first chunk. -/
theorem At.reset (here : a.At m ctx) (shape : a.Shape) (word : a.first.header < 2 ^ 64)
    (nonnull : a.first.header ≠ 0) :
    a.reset.At (resetStores m a.address a.first.header) ctx := by
  have first := (here.chunks a.first a.first_mem).setNext NULL
  have unlinked := Chunk.store_changesOnly m a.first NULL (show 0 + 8 ≤ 64 by decide)
  have emptied := Chunk.store_changesOnly (storeWord m a.first.header NULL) a.first 0
    (show 24 + 8 ≤ 64 by decide)
  have header := header_store here shape a.first_mem (unlinked.trans emptied)
  have set : ∀ (m : Memory) (v k : Nat), k + 8 ≤ 64 → ∀ b ∈ a.first.zone.bytes,
      storeWord m (a.address + k) v b = m b := fun m v k small =>
    Chunk.same_of_apart (arenaStore_changesOnly m a.address v small) (shape.zone_apart a.first_mem)
  constructor
  · rw [reset_address, resetStores, arenaHeader_setCount _ _ (by decide),
      arenaHeader_setCurrent _ _ word]
    refine (congrArg (fun h : ArenaHeader =>
      { h with currentChunk := a.first.header, allocationCount := 0 }) header).trans ?_
    rfl
  · intro c member
    obtain rfl : c = { a.first with used := 0 } := by
      simpa [ArenaView.reset, ArenaView.chunks] using member
    exact ((first.setUsed (show 0 < 2 ^ 64 by decide)).congr (set _ _ 16 (by decide))).congr
      (set _ _ 24 (by decide))
  · refine ⟨rfl, nonnull, ?_⟩
    refine (Chunk.next_congr (set _ _ 24 (by decide))).trans ?_
    refine (Chunk.next_congr (set _ _ 16 (by decide))).trans ?_
    refine (loadWord_storeWord_of_apart (by omega)).trans ?_
    exact loadWord_storeWord_of_lt (show NULL < 2 ^ 64 by decide)

/-- The code reads `first_chunk` again before each store; it is always the same. -/
theorem At.reset_reads (here : a.At m ctx) (shape : a.Shape) :
    arenaFirstChunk m a.address = a.first.header ∧
      arenaFirstChunk (storeWord m a.first.header NULL) a.address = a.first.header ∧
      arenaFirstChunk (storeWord (storeWord m a.first.header NULL) (a.first.header + 24) 0)
        a.address = a.first.header := by
  have unlinked := Chunk.store_changesOnly m a.first NULL (show 0 + 8 ≤ 64 by decide)
  have emptied := Chunk.store_changesOnly (storeWord m a.first.header NULL) a.first 0
    (show 24 + 8 ≤ 64 by decide)
  exact ⟨firstChunk_of_header here.header,
    firstChunk_of_header (header_store here shape a.first_mem unlinked),
    firstChunk_of_header (header_store here shape a.first_mem (unlinked.trans emptied))⟩

/-- **The stores of a creation** give a new arena. -/
theorem at_fresh {m₁ : Memory} {block mmapSize initialChunkSize maxChunkSize : Nat}
    (growable : Bool) (room : arenaHeaderAligned + chunkHeaderAligned ≤ mmapSize)
    (word : block + mmapSize < 2 ^ 64) (ctxWord : ctx < 2 ^ 64)
    (sizes : initialChunkSize < 2 ^ 64 ∧ maxChunkSize < 2 ^ 64)
    (created : (⟨block, arenaHeaderAligned, mmapSize, 0⟩ : Chunk).At m₁)
    (unlinked : chunkNext m₁ (block + arenaHeaderAligned) = NULL) :
    (fresh block mmapSize initialChunkSize maxChunkSize growable).At
      (initArena m₁ block ctx (block + arenaHeaderAligned) initialChunkSize maxChunkSize growable)
      ctx := by
  have chunkWord : block + arenaHeaderAligned < 2 ^ 64 := by omega
  have kept := Chunk.same_of_apart
    (initArena_changesOnly m₁ block ctx (block + arenaHeaderAligned) initialChunkSize
      maxChunkSize growable)
    ((shape_fresh block initialChunkSize maxChunkSize growable room).zone_apart
      (last_mem (fresh block mmapSize initialChunkSize maxChunkSize growable)))
  constructor
  · exact arenaHeader_initArena m₁ growable ⟨ctxWord, chunkWord, sizes⟩
  · intro c member
    obtain rfl : c = ⟨block, arenaHeaderAligned, mmapSize, 0⟩ := by
      simpa [fresh, ArenaView.chunks] using member
    exact created.congr kept
  · refine ⟨rfl, ?_, (Chunk.next_congr kept).trans unlinked⟩
    simp [fresh, Chunk.header, arenaHeaderAligned]

end ArenaView

end BcAllocators
