import BcAllocators.Lib.Links
import BcAllocators.Arena.Ledger

/-!
# Arenas and their representation

An arena is seen as its chunks, oldest first, with what was allocated since the
last reset. `ArenaView.At` says that a memory represents such a view: the fields
of the arena header and of the chunk headers have the values that the view gives
them, and the chunks are linked in order.

The representation reads the headers only, and these lie in front of the
payloads (`ArenaView.At.congr`). The three ways in which the functions of the
arena write headers carry a representation to that of the changed view: an
allocation in the last chunk, a new chunk behind it, and a reset to the first
chunk.
-/

set_option autoImplicit false

namespace BcAllocators

open Machine

/-! ## Chunks -/

/-- A chunk: its block, the bytes in front of its header, and the used bytes of
its payload. -/
structure Chunk where
  block : Nat
  lead : Nat
  mmapSize : Nat
  used : Nat
deriving DecidableEq, Repr

namespace Chunk

def extent (c : Chunk) : Extent := ⟨c.block, c.mmapSize⟩
def header (c : Chunk) : Nat := c.block + c.lead
def start (c : Chunk) : Nat := c.block + c.lead + chunkHeaderAligned
def stop (c : Chunk) : Nat := c.block + c.mmapSize
def capacity (c : Chunk) : Nat := c.mmapSize - (c.lead + chunkHeaderAligned)

/-- The bytes of the chunk header. -/
def zone (c : Chunk) : Extent := ⟨c.block + c.lead, chunkHeaderAligned⟩

/-- The headers fit in the block, and the used bytes in the payload. -/
structure Fit (c : Chunk) : Prop where
  headers : c.lead + chunkHeaderAligned ≤ c.mmapSize
  used : c.used ≤ c.capacity

/-- The header of the chunk holds its fields. -/
structure At (m : Memory) (c : Chunk) : Prop where
  mmapSize : chunkMmapSize m c.header = c.mmapSize
  capacity : chunkCapacity m c.header = c.capacity
  used : chunkUsed m c.header = c.used
  memoryStart : chunkMemoryStart m c.header = c.start

variable {m m' : Memory} {c d : Chunk}

/-- A header reads its own bytes. -/
theorem At.congr (here : c.At m) (same : ∀ b ∈ c.zone.bytes, m' b = m b) : c.At m' := by
  have word : ∀ k, k + 8 ≤ 64 → loadWord m' (c.header + k) = loadWord m (c.header + k) := by
    intro k small
    refine loadWord_congr fun b lower upper => same b (Extent.mem_bytes.mpr ?_)
    simp only [zone, header, chunkHeaderAligned] at *
    omega
  exact ⟨(word 8 (by decide)).trans here.mmapSize, (word 16 (by decide)).trans here.capacity,
    (word 24 (by decide)).trans here.used, (word 32 (by decide)).trans here.memoryStart⟩

theorem next_congr (same : ∀ b ∈ c.zone.bytes, m' b = m b) :
    chunkNext m' c.header = chunkNext m c.header := by
  refine loadWord_congr fun b lower upper => same b (Extent.mem_bytes.mpr ?_)
  simp only [zone, header, chunkHeaderAligned] at *
  omega

/-- The header lies in the block. -/
theorem Fit.zone_inside (fit : c.Fit) :
    c.extent.start ≤ c.zone.start ∧ c.zone.stop ≤ c.extent.stop := by
  have := fit.headers
  simp only [extent, zone, Extent.stop] at *
  omega

/-- Headers of blocks that are apart are apart. -/
theorem zone_apart (hc : c.Fit) (hd : d.Fit) (apart : c.extent.Apart d.extent) :
    c.zone.Apart d.zone :=
  apart.mono hc.zone_inside hd.zone_inside

/-- A store to a field of a header changes the bytes of the header only. -/
theorem store_changesOnly (m : Memory) (c : Chunk) (v : Nat) {k : Nat} (small : k + 8 ≤ 64) :
    ChangesOnly c.zone.bytes m (storeWord m (c.header + k) v) := by
  refine (changesOnly_storeWord m _ v).mono fun b member => Extent.mem_bytes.mpr ?_
  simp only [Set.mem_Ico, header, zone, chunkHeaderAligned] at *
  omega

end Chunk

/-! ## Arena headers -/

/-- The fields of `struct bc_allocators_arena`. -/
structure ArenaHeader where
  ctx : Nat
  firstChunk : Nat
  currentChunk : Nat
  allocationCount : Nat
  initialChunkSize : Nat
  maxChunkSize : Nat
  growable : Bool
deriving DecidableEq, Repr

/-- The fields as they are in a memory. -/
def arenaHeader (m : Memory) (arena : Nat) : ArenaHeader where
  ctx := arenaCtx m arena
  firstChunk := arenaFirstChunk m arena
  currentChunk := arenaCurrentChunk m arena
  allocationCount := arenaAllocationCount m arena
  initialChunkSize := arenaInitialChunkSize m arena
  maxChunkSize := arenaMaxChunkSize m arena
  growable := arenaGrowable m arena

/-- The bytes of an arena header. -/
def arenaZone (arena : Nat) : Extent := ⟨arena, arenaHeaderAligned⟩

theorem arenaHeader_congr {m m' : Memory} {arena : Nat}
    (same : ∀ b ∈ (arenaZone arena).bytes, m' b = m b) :
    arenaHeader m' arena = arenaHeader m arena := by
  have byte : ∀ k < 64, m' (arena + k) = m (arena + k) := by
    intro k small
    refine same _ (Extent.mem_bytes.mpr ?_)
    simp only [arenaZone, arenaHeaderAligned]
    omega
  have word : ∀ k, k + 8 ≤ 64 → loadWord m' (arena + k) = loadWord m (arena + k) := by
    intro k small
    refine loadWord_congr fun b lower upper => ?_
    obtain ⟨offset, rfl⟩ := Nat.exists_eq_add_of_le (show arena ≤ b by omega)
    exact byte offset (by omega)
  have ctx := word 0 (by decide)
  simp only [arenaHeader, arenaCtx, arenaFirstChunk, arenaCurrentChunk, arenaAllocationCount,
    arenaInitialChunkSize, arenaMaxChunkSize, arenaGrowable, ArenaHeader.mk.injEq]
  exact ⟨ctx, word 8 (by decide), word 16 (by decide), word 24 (by decide), word 32 (by decide),
    word 40 (by decide), by rw [byte 48 (by decide)]⟩

/-- A store to a field of the arena header changes its bytes only. -/
theorem arenaStore_changesOnly (m : Memory) (arena v : Nat) {k : Nat} (small : k + 8 ≤ 64) :
    ChangesOnly (arenaZone arena).bytes m (storeWord m (arena + k) v) := by
  refine (changesOnly_storeWord m _ v).mono fun b member => Extent.mem_bytes.mpr ?_
  simp only [Set.mem_Ico, arenaZone, arenaHeaderAligned] at *
  omega

/-- `arena->current_chunk = chunk`. -/
theorem arenaHeader_setCurrent (m : Memory) (arena : Nat) {chunk : Nat} (word : chunk < 2 ^ 64) :
    arenaHeader (storeWord m (arena + 16) chunk) arena =
      { arenaHeader m arena with currentChunk := chunk } := by
  have other : ∀ k, k + 8 ≤ 16 ∨ 24 ≤ k → loadWord (storeWord m (arena + 16) chunk) (arena + k) =
      loadWord m (arena + k) := fun k apart => loadWord_storeWord_of_apart (by omega)
  have ctx := other 0 (by decide)
  simp only [arenaHeader, arenaCtx, arenaFirstChunk, arenaCurrentChunk, arenaAllocationCount,
    arenaInitialChunkSize, arenaMaxChunkSize, arenaGrowable, ArenaHeader.mk.injEq]
  exact ⟨ctx, other 8 (by decide), loadWord_storeWord_of_lt word, other 24 (by decide),
    other 32 (by decide), other 40 (by decide), by rw [storeWord_of_not_mem (by omega)]⟩

/-- `arena->allocation_count = count`. -/
theorem arenaHeader_setCount (m : Memory) (arena : Nat) {count : Nat} (word : count < 2 ^ 64) :
    arenaHeader (storeWord m (arena + 24) count) arena =
      { arenaHeader m arena with allocationCount := count } := by
  have other : ∀ k, k + 8 ≤ 24 ∨ 32 ≤ k → loadWord (storeWord m (arena + 24) count) (arena + k) =
      loadWord m (arena + k) := fun k apart => loadWord_storeWord_of_apart (by omega)
  have ctx := other 0 (by decide)
  simp only [arenaHeader, arenaCtx, arenaFirstChunk, arenaCurrentChunk, arenaAllocationCount,
    arenaInitialChunkSize, arenaMaxChunkSize, arenaGrowable, ArenaHeader.mk.injEq]
  exact ⟨ctx, other 8 (by decide), other 16 (by decide), loadWord_storeWord_of_lt word,
    other 32 (by decide), other 40 (by decide), by rw [storeWord_of_not_mem (by omega)]⟩

/-- A new arena header. -/
theorem arenaHeader_initArena (m : Memory) {arena ctx chunk initialChunkSize maxChunkSize : Nat}
    (growable : Bool) (words : ctx < 2 ^ 64 ∧ chunk < 2 ^ 64 ∧ initialChunkSize < 2 ^ 64 ∧
      maxChunkSize < 2 ^ 64) :
    arenaHeader (initArena m arena ctx chunk initialChunkSize maxChunkSize growable) arena =
      ⟨ctx, chunk, chunk, 0, initialChunkSize, maxChunkSize, growable⟩ := by
  obtain ⟨ctxWord, chunkWord, initialWord, maxWord⟩ := words
  -- the byte of `growable` lies behind the words
  have byte : ∀ (m : Memory) (v : UInt8) k, k + 8 ≤ 48 →
      loadWord (storeByte m (arena + 48) v) (arena + k) = loadWord m (arena + k) := by
    intro m v k small
    refine loadWord_congr fun b lower upper => Function.update_of_ne ?_ _ _
    omega
  have past : ∀ (m : Memory) (v j k : Nat), j + 8 ≤ k ∨ k + 8 ≤ j →
      loadWord (storeWord m (arena + j) v) (arena + k) = loadWord m (arena + k) :=
    fun m v j k apart => loadWord_storeWord_of_apart (by omega)
  simp only [arenaHeader, arenaCtx, arenaFirstChunk, arenaCurrentChunk, arenaAllocationCount,
    arenaInitialChunkSize, arenaMaxChunkSize, arenaGrowable, ArenaHeader.mk.injEq, initArena]
  refine ⟨?_, ?_, ?_, ?_, ?_, ?_, ?_⟩
  · change loadWord _ (arena + 0) = ctx
    rw [byte _ _ _ (by decide), past _ _ _ _ (by decide), past _ _ _ _ (by decide),
      past _ _ _ _ (by decide), past _ _ _ _ (by decide), past _ _ _ _ (by decide)]
    exact loadWord_storeWord_of_lt ctxWord
  · rw [byte _ _ _ (by decide), past _ _ _ _ (by decide), past _ _ _ _ (by decide),
      past _ _ _ _ (by decide), past _ _ _ _ (by decide)]
    exact loadWord_storeWord_of_lt chunkWord
  · rw [byte _ _ _ (by decide), past _ _ _ _ (by decide), past _ _ _ _ (by decide),
      past _ _ _ _ (by decide)]
    exact loadWord_storeWord_of_lt chunkWord
  · rw [byte _ _ _ (by decide), past _ _ _ _ (by decide), past _ _ _ _ (by decide)]
    exact loadWord_storeWord_of_lt (by decide)
  · rw [byte _ _ _ (by decide), past _ _ _ _ (by decide)]
    exact loadWord_storeWord_of_lt initialWord
  · rw [byte _ _ _ (by decide)]
    exact loadWord_storeWord_of_lt maxWord
  · cases growable <;> simp [storeByte]

/-! ## Arenas -/

/-- An allocation in an arena. -/
structure Alloc where
  ptr : Nat
  size : Nat
  alignment : Nat
deriving DecidableEq, Repr

def Alloc.extent (x : Alloc) : Extent := ⟨x.ptr, x.size⟩

/-- An arena: the chunks before the last, the last one, the allocations since the
last reset, the latest first, and the other fields of its header. -/
structure ArenaView where
  front : List Chunk
  last : Chunk
  allocs : List Alloc
  count : Nat
  initialChunkSize : Nat
  maxChunkSize : Nat
  growable : Bool

namespace ArenaView

def chunks (a : ArenaView) : List Chunk := a.front ++ [a.last]
def first (a : ArenaView) : Chunk := a.front.headD a.last
def grown (a : ArenaView) : List Chunk := a.chunks.tail
def address (a : ArenaView) : Nat := a.first.block
def blocks (a : ArenaView) : List Extent := a.chunks.map Chunk.extent

/-- The bytes of the arena header. -/
def zone (a : ArenaView) : Extent := arenaZone a.address

variable {m m' : Memory} {a : ArenaView} {ctx : Nat} {c : Chunk}

theorem chunks_eq (a : ArenaView) : a.chunks = a.first :: a.grown := by
  cases front : a.front with
  | nil => simp [chunks, first, grown, front]
  | cons c rest => simp [chunks, first, grown, front]

theorem first_mem (a : ArenaView) : a.first ∈ a.chunks := by
  rw [chunks_eq]
  exact List.mem_cons_self

theorem last_mem (a : ArenaView) : a.last ∈ a.chunks := List.mem_append_right _ (by simp)

theorem mem_chunks : c ∈ a.chunks ↔ c ∈ a.front ∨ c = a.last := by
  simp [chunks]

/-- The fields of the arena header. -/
def header (a : ArenaView) (ctx : Nat) : ArenaHeader where
  ctx := ctx
  firstChunk := a.first.header
  currentChunk := a.last.header
  allocationCount := a.count
  initialChunkSize := a.initialChunkSize
  maxChunkSize := a.maxChunkSize
  growable := a.growable

/-- The headers have their places, and everything fits. -/
structure Shape (a : ArenaView) : Prop where
  first_lead : a.first.lead = arenaHeaderAligned
  grown_lead : ∀ c ∈ a.grown, c.lead = 0
  fit : ∀ c ∈ a.chunks, c.Fit
  apart : a.blocks.Pairwise Extent.Apart

/-- The memory represents the arena. -/
structure At (m : Memory) (ctx : Nat) (a : ArenaView) : Prop where
  header : arenaHeader m a.address = a.header ctx
  chunks : ∀ c ∈ a.chunks, c.At m
  chain : Linked (chunkNext m) a.first.header (a.chunks.map Chunk.header)

/-! ## Fields of a represented arena -/

section fields

variable {arena : Nat} {h : ArenaHeader} (header : arenaHeader m arena = h)

include header

theorem firstChunk_of_header : arenaFirstChunk m arena = h.firstChunk := by
  rw [← header]
  rfl

theorem currentChunk_of_header : arenaCurrentChunk m arena = h.currentChunk := by
  rw [← header]
  rfl

theorem count_of_header : arenaAllocationCount m arena = h.allocationCount := by
  rw [← header]
  rfl

theorem maxChunkSize_of_header : arenaMaxChunkSize m arena = h.maxChunkSize := by
  rw [← header]
  rfl

end fields

/-! ## Where the headers are -/

theorem Shape.front_apart (shape : a.Shape) (member : c ∈ a.front) :
    c.extent.Apart a.last.extent := by
  have apart := shape.apart
  simp only [blocks, ArenaView.chunks, List.map_append, List.map_cons, List.map_nil] at apart
  exact (List.pairwise_append.mp apart).2.2 _ (List.mem_map_of_mem member) _ (by simp)

/-- The arena header lies in the first block. -/
theorem Shape.zone_inside (shape : a.Shape) :
    a.first.extent.start ≤ a.zone.start ∧ a.zone.stop ≤ a.first.extent.stop := by
  have headers := (shape.fit a.first a.first_mem).headers
  have lead := shape.first_lead
  simp only [zone, arenaZone, address, Chunk.extent, Extent.stop, arenaHeaderAligned] at *
  omega

/-- The arena header is apart from the chunk headers. -/
theorem Shape.zone_apart (shape : a.Shape) (member : c ∈ a.chunks) : a.zone.Apart c.zone := by
  have fit := shape.fit c member
  have apart := shape.apart
  rw [blocks, chunks_eq, List.map_cons, List.pairwise_cons] at apart
  rw [chunks_eq] at member
  rcases List.mem_cons.mp member with rfl | inGrown
  · left
    simp only [zone, arenaZone, address, Chunk.zone, Extent.stop, shape.first_lead]
    exact Nat.le_refl _
  · exact (apart.1 _ (List.mem_map_of_mem inGrown)).mono shape.zone_inside fit.zone_inside

/-- **The representation reads the headers only**: the bytes of each block in front
of the payload. -/
theorem At.congr (here : a.At m ctx) (shape : a.Shape)
    (same : ∀ c ∈ a.chunks, ∀ b, c.block ≤ b → b < c.start → m' b = m b) : a.At m' ctx := by
  have zone : ∀ b ∈ (arenaZone a.address).bytes, m' b = m b := by
    intro b inside
    have lead := shape.first_lead
    rw [Extent.mem_bytes] at inside
    refine same a.first a.first_mem b inside.1 ?_
    simp only [Chunk.start, arenaZone, address, lead, arenaHeaderAligned] at *
    omega
  have header : ∀ c ∈ a.chunks, ∀ b ∈ c.zone.bytes, m' b = m b := by
    intro c member b inside
    rw [Extent.mem_bytes] at inside
    simp only [Chunk.zone] at inside
    exact same c member b (by omega) (by simp only [Chunk.start]; omega)
  refine ⟨(arenaHeader_congr zone).trans here.header,
    fun c member => (here.chunks c member).congr (header c member), ?_⟩
  refine here.chain.congr fun p member => ?_
  obtain ⟨c, inChunks, rfl⟩ := List.mem_map.mp member
  exact Chunk.next_congr (header c inChunks)

end ArenaView

end BcAllocators
