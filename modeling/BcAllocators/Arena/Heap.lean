import BcAllocators.Arena.Chunks

/-!
# The arenas of a context

`ArenaHeap` ties the arenas of a context together: each is represented in memory
and has sound contents, and their blocks are those that the ledger gives to
arenas, so blocks of different arenas are apart, and apart from the cache.

Every function of the arenas moves from one such heap to another. A function
writes into the blocks of its own arena and into a block that it has just
obtained, which is why the other arenas stay represented (`ArenaView.At.frame`).
-/

set_option autoImplicit false

namespace BcAllocators

open Machine

variable {core : BcCore} {platform : Platform} {w w' : World} {m m' : Memory}
variable {a : ArenaView} {views rest : List ArenaView} {foreign : List Extent}

/-- The addresses of some extents. -/
def blockBytes (blocks : List Extent) : Set Nat := {b | ∃ e ∈ blocks, b ∈ e.bytes}

/-- The blocks of some arenas. -/
def arenaBlocks (views : List ArenaView) : List Extent := views.flatMap ArenaView.blocks

/-- **The arenas of a context.** -/
structure ArenaHeap (platform : Platform) (w : World) (views : List ArenaView)
    (foreign : List Extent) : Prop where
  pageSize : w.ctx.pageSize = platform.pageSize
  address : w.ctx.address < 2 ^ 64
  ledger : Ledger platform w (arenaBlocks views) w.ctx.ownBlocks foreign
  shape : ∀ a ∈ views, a.Shape
  here : ∀ a ∈ views, a.At w.mem w.ctx.address
  sound : ∀ a ∈ views, a.Sound

/-! ## Frames -/

namespace ArenaView

variable {ctx : Nat} {blocks : List Extent}

theorem mem_blockBytes {c : Chunk} (shape : a.Shape) (member : c ∈ a.chunks) {b : Nat}
    (lower : c.block ≤ b) (upper : b < c.start) : b ∈ blockBytes a.blocks :=
  ⟨c.extent, List.mem_map_of_mem member, (shape.fit c member).mem_extent lower upper⟩

theorem headerBytes_subset (shape : a.Shape) : a.headerBytes ⊆ blockBytes a.blocks := by
  rintro b ⟨c, member, lower, upper⟩
  exact mem_blockBytes shape member lower upper

/-- Extents that are apart from some blocks share no address with them. -/
theorem not_mem_blockBytes {e : Extent} (apart : ∀ f ∈ blocks, e.Apart f) {b : Nat}
    (inside : b ∈ e.bytes) : b ∉ blockBytes blocks := by
  rintro ⟨f, member, again⟩
  exact (apart f member).disjoint inside again

/-- **An arena stays represented when only blocks apart from its own change.** -/
theorem At.frame (here : a.At m ctx) (shape : a.Shape)
    (changes : ChangesOnly (blockBytes blocks) m m')
    (apart : ∀ e ∈ a.blocks, ∀ f ∈ blocks, e.Apart f) : a.At m' ctx := by
  refine here.congr shape fun c member b lower upper => changes b ?_
  exact not_mem_blockBytes (apart c.extent (List.mem_map_of_mem member))
    ((shape.fit c member).mem_extent lower upper)

end ArenaView

/-! ## Places of blocks -/

namespace ArenaHeap

/-- The order of the arenas does not matter. -/
theorem perm (heap : ArenaHeap platform w views foreign) (same : rest.Perm views) :
    ArenaHeap platform w rest foreign where
  pageSize := heap.pageSize
  address := heap.address
  ledger := heap.ledger.perm (same.flatMap_right _)
  shape a member := heap.shape a (same.mem_iff.mp member)
  here a member := heap.here a (same.mem_iff.mp member)
  sound a member := heap.sound a (same.mem_iff.mp member)

theorem apart (heap : ArenaHeap platform w views foreign) :
    (arenaBlocks views).Pairwise Extent.Apart :=
  (List.pairwise_append.mp (List.pairwise_append.mp heap.ledger.apart).1).1

/-- Blocks of the first arena are apart from those of the others. -/
theorem apart_rest (heap : ArenaHeap platform w (a :: rest) foreign) :
    ∀ e ∈ a.blocks, ∀ f ∈ arenaBlocks rest, e.Apart f :=
  (List.pairwise_append.mp heap.apart).2.2

theorem blockFit (heap : ArenaHeap platform w views foreign) (member : a ∈ views) {c : Chunk}
    (inChunks : c ∈ a.chunks) : BlockFit platform c.extent :=
  heap.ledger.fit _ (List.mem_append_left _
    (List.mem_flatMap.mpr ⟨a, member, List.mem_map_of_mem inChunks⟩))

theorem stop_lt (heap : ArenaHeap platform w views foreign) (member : a ∈ views) {c : Chunk}
    (inChunks : c ∈ a.chunks) : c.stop < 2 ^ 64 :=
  (heap.blockFit member inChunks).stop_lt

/-- **The blocks of all arenas fit in the address space.** -/
theorem sum_size_lt (heap : ArenaHeap platform w views foreign) :
    ((arenaBlocks views).map Extent.size).sum < 2 ^ 64 := by
  have inside : ∀ e ∈ arenaBlocks views, 1 ≤ e.start ∧ e.stop ≤ 2 ^ 64 := by
    intro e member
    have fit := heap.ledger.fit e (List.mem_append_left _ member)
    exact ⟨fit.start_pos, fit.stop_lt.le⟩
  have total := Extent.sum_size_le heap.apart inside
  omega

/-- An arena has fewer chunks than a walk has steps. -/
theorem length_lt (heap : ArenaHeap platform w (a :: rest) foreign) :
    a.chunks.length < chainFuel := by
  have total := heap.sum_size_lt
  have one : ∀ n ∈ a.blocks.map Extent.size, 1 ≤ n := by
    intro n member
    obtain ⟨e, inBlocks, rfl⟩ := List.mem_map.mp member
    exact (heap.ledger.fit e (List.mem_append_left _ (List.mem_append_left _ inBlocks))).size_pos
  have count := List.card_nsmul_le_sum _ 1 one
  simp only [arenaBlocks, List.flatMap_cons, List.map_append, List.sum_append, ArenaView.blocks,
    List.length_map, smul_eq_mul, Nat.mul_one] at total count
  simp only [chainFuel]
  omega

/-- The arenas other than the first are still represented when the blocks of the
first change. -/
theorem here_rest (heap : ArenaHeap platform w (a :: rest) foreign)
    (changes : ChangesOnly (blockBytes a.blocks) w.mem m) :
    ∀ b ∈ rest, b.At m w.ctx.address := by
  intro b member
  refine (heap.here b (List.mem_cons_of_mem a member)).frame
    (heap.shape b (List.mem_cons_of_mem a member)) changes fun e inBlocks f inFirst => ?_
  exact (heap.apart_rest f inFirst e (List.mem_flatMap.mpr ⟨b, member, inBlocks⟩)).symm

section change

variable {change : ArenaTally → ArenaTally} (heap : ArenaHeap platform w views foreign)
  (update : ArenaUpdate change w.ctx w'.ctx) (kept : rest ⊆ views)
  (others : ∀ b ∈ rest, b.At w'.mem w.ctx.address)

include heap update kept others

/-- The arenas that a call leaves. -/
theorem leave (ledger : Ledger platform w' (arenaBlocks rest) w.ctx.ownBlocks foreign) :
    ArenaHeap platform w' rest foreign := by
  obtain ⟨pageSize, address, _, _, own⟩ := update.fixed
  constructor
  · exact pageSize.trans heap.pageSize
  · exact address ▸ heap.address
  · rwa [own]
  · exact fun b member => heap.shape b (kept member)
  · rwa [address]
  · exact fun b member => heap.sound b (kept member)

/-- The arenas that a call leaves, and the one that it makes or changes. -/
theorem join (ledger : Ledger platform w' (arenaBlocks (a :: rest)) w.ctx.ownBlocks foreign)
    (shape : a.Shape) (here : a.At w'.mem w.ctx.address) (sound : a.Sound) :
    ArenaHeap platform w' (a :: rest) foreign := by
  obtain ⟨pageSize, address, _, _, own⟩ := update.fixed
  constructor
  · exact pageSize.trans heap.pageSize
  · exact address ▸ heap.address
  · rwa [own]
  · exact List.forall_mem_cons.mpr ⟨shape, fun b member => heap.shape b (kept member)⟩
  · rw [address]
    exact List.forall_mem_cons.mpr ⟨here, others⟩
  · exact List.forall_mem_cons.mpr ⟨sound, fun b member => heap.sound b (kept member)⟩

end change

/-- Another view of the first arena, on the same blocks. -/
theorem changeFirst (heap : ArenaHeap platform w (a :: rest) foreign) {a' : ArenaView}
    (blocks : a'.blocks = a.blocks) (shape : a'.Shape) (sound : a'.Sound)
    (here : a'.At m w.ctx.address) (changes : ChangesOnly (blockBytes a.blocks) w.mem m) :
    ArenaHeap platform { w with mem := m } (a' :: rest) foreign where
  pageSize := heap.pageSize
  address := heap.address
  ledger := by
    have same : arenaBlocks (a' :: rest) = arenaBlocks (a :: rest) := by
      simp only [arenaBlocks, List.flatMap_cons, blocks]
    rw [same]
    exact heap.ledger.congr rfl rfl
  shape := List.forall_mem_cons.mpr
    ⟨shape, fun b member => heap.shape b (List.mem_cons_of_mem a member)⟩
  here := List.forall_mem_cons.mpr ⟨here, heap.here_rest changes⟩
  sound := List.forall_mem_cons.mpr
    ⟨sound, fun b member => heap.sound b (List.mem_cons_of_mem a member)⟩

/-! ## Serving -/

/-- **The last chunk of an arena serves a request.** -/
theorem serve (heap : ArenaHeap platform w (a :: rest) foreign) {x : Alloc}
    (size : 0 < x.size) (aligns : 0 < x.alignment) (offered : x.ptr = a.last.offer x.alignment)
    (within : x.extent.stop ≤ a.last.stop) {m : Memory}
    (stored : m = countAllocation (storeWord w.mem (a.last.header + 24)
      (x.ptr + x.size - a.last.start)) a.address) :
    ArenaHeap platform { w with mem := m } (a.serve x :: rest) foreign ∧
      ChangesOnly a.headerBytes w.mem m := by
  have shape := heap.shape a List.mem_cons_self
  have stop := heap.stop_lt List.mem_cons_self a.last_mem
  have word : x.ptr + x.size - a.last.start < 2 ^ 64 :=
    lt_of_le_of_lt (Nat.sub_le _ _) (lt_of_le_of_lt within stop)
  have changes : ChangesOnly a.headerBytes w.mem m := by
    have used := Chunk.store_changesOnly w.mem a.last (x.ptr + x.size - a.last.start)
      (show 24 + 8 ≤ 64 by decide)
    rw [stored]
    exact (used.mono (ArenaView.chunkZone_subset_headerBytes a.last_mem)).trans
      ((countAllocation_changesOnly _ a.address).mono (ArenaView.zone_subset_headerBytes shape))
  refine ⟨heap.changeFirst (ArenaView.serve_blocks a x) (shape.serve within)
    ((heap.sound a List.mem_cons_self).serve shape size aligns offered within) ?_
    (changes.mono (ArenaView.headerBytes_subset shape)), changes⟩
  rw [stored]
  exact (heap.here a List.mem_cons_self).serve shape rfl word

/-! ## New blocks -/

/-- A mapped block joins the blocks of the arenas, in a context where only the
cache has changed. -/
theorem map (heap : ArenaHeap platform w views foreign) {mmapSize block : Nat}
    {answer : Option Nat} (whole : platform.pageSize ∣ mmapSize)
    (mapped : mapBlock platform w mmapSize answer = some (w', block)) :
    Ledger platform w' (⟨block, mmapSize⟩ :: arenaBlocks views) w.ctx.ownBlocks foreign ∧
      ArenaUpdate id w.ctx w'.ctx ∧
      ChangesOnly (Extent.bytes ⟨block, mmapSize⟩) w.mem w'.mem ∧
      (∀ e ∈ arenaBlocks views, e.Apart ⟨block, mmapSize⟩) ∧
      BlockFit platform ⟨block, mmapSize⟩ := by
  obtain ⟨ledger, ⟨cache, same⟩, changes⟩ := heap.ledger.map whole mapped
  have update : ArenaUpdate id w.ctx w'.ctx := same ▸ ArenaUpdate.cache w.ctx cache
  refine ⟨ledger, update, changes, fun e member => ?_, ledger.fit _ List.mem_cons_self⟩
  have apart := (List.pairwise_append.mp (List.pairwise_append.mp ledger.apart).1).1
  exact ((List.pairwise_cons.mp apart).1 e member).symm

/-- The block that a call would get, if it asked for one of a size: a cached one,
or one that the kernel grants. -/
def BlockAvailable (platform : Platform) (w : World) (mmapSize : Nat) (answer : Option Nat) :
    Prop :=
  (∃ e ∈ w.ctx.arenaCache.blocks, e.size = mmapSize) ∨
    ∃ block, w.kernel.grant platform mmapSize answer = some block

theorem mapBlock_isSome_iff {mmapSize : Nat} {answer : Option Nat} :
    (mapBlock platform w mmapSize answer).isSome = true ↔
      BlockAvailable platform w mmapSize answer := by
  simp only [BlockAvailable, ← ArenaCache.find_isSome_iff, mapBlock, platformMap]
  cases w.ctx.arenaCache.find mmapSize with
  | some i => simp
  | none =>
      cases w.kernel.grant platform mmapSize answer with
      | none => simp
      | some block => simp

/-- **A chunk is linked behind the last one of an arena.** -/
theorem grow (core : BcCore) (heap : ArenaHeap platform w (a :: rest) foreign)
    {minCapacity mmapSize block : Nat} {answer : Option Nat} {w₁ : World}
    (minWord : minCapacity < 2 ^ 64)
    (sized : growMmapSize core w a.address minCapacity = some mmapSize)
    (mapped : mapBlock platform w mmapSize answer = some (w₁, block)) :
    ∃ w', arenaGrow core platform w a.address minCapacity answer = (w', true) ∧
      ArenaHeap platform w' (a.extend block mmapSize :: rest) foreign ∧
      ArenaUpdate (ArenaTally.charge mmapSize) w.ctx w'.ctx ∧
      ChangesOnly (a.headerBytes ∪ Extent.bytes ⟨block, mmapSize⟩) w.mem w'.mem := by
  obtain ⟨whole, sizeWord, room⟩ := growMmapSize_eq_some core heap.pageSize minWord sized
  obtain ⟨ledger, mapUpdate, changes, apart, blockFit⟩ := heap.map whole mapped
  have shape := heap.shape a List.mem_cons_self
  have header : chunkHeaderAligned ≤ mmapSize := (Nat.le_add_right _ _).trans room
  have apartFirst : ∀ e ∈ a.blocks, e.Apart ⟨block, mmapSize⟩ :=
    fun e member => apart e (List.mem_append_left _ member)
  -- the header of the new chunk
  let new : Chunk := ⟨block, 0, mmapSize, 0⟩
  let m₁ := initChunk w₁.mem block mmapSize (wsub mmapSize chunkHeaderAligned)
    (block + chunkHeaderAligned)
  have newFit : new.Fit := ⟨by rw [Nat.zero_add]; exact header, Nat.zero_le _⟩
  have capacity : wsub mmapSize chunkHeaderAligned = new.capacity := by
    rw [wsub_of_le header sizeWord, Chunk.capacity, Nat.zero_add]
  have created : new.At m₁ := by
    simp only [m₁, capacity]
    exact Chunk.initChunk_at w₁.mem newFit rfl blockFit.stop_lt
  have unlinked : chunkNext m₁ block = NULL := Chunk.initChunk_next w₁.mem new _ _ _
  have prepared : ChangesOnly (Extent.bytes ⟨block, mmapSize⟩) w.mem m₁ :=
    changes.trans ((Chunk.initChunk_changesOnly w₁.mem new _ _ _).mono newFit.zone_subset)
  have before : a.At m₁ w.ctx.address :=
    (heap.here a List.mem_cons_self).congr shape fun c member b lower upper =>
      prepared b ((apartFirst _ (List.mem_map_of_mem member)).disjoint
        ((shape.fit c member).mem_extent lower upper))
  -- the links to it
  let m₂ := storeWord (storeWord m₁ (arenaCurrentChunk m₁ a.address) block) (a.address + 16) block
  have blockWord : block < 2 ^ 64 := lt_of_le_of_lt (Nat.le_add_right _ _) blockFit.stop_lt
  have extended : (a.extend block mmapSize).At m₂ w.ctx.address :=
    before.extend shape header (Nat.ne_of_gt blockFit.start_pos) blockWord apartFirst created
      unlinked
  have linked : ChangesOnly a.headerBytes m₁ m₂ := by
    have current : arenaCurrentChunk m₁ a.address = a.last.header :=
      ArenaView.currentChunk_of_header before.header
    simp only [m₂, current]
    exact ((Chunk.store_changesOnly m₁ a.last block (show 0 + 8 ≤ 64 by decide)).mono
      (ArenaView.chunkZone_subset_headerBytes a.last_mem)).trans
      ((arenaStore_changesOnly _ a.address block (show 16 + 8 ≤ 64 by decide)).mono
        (ArenaView.zone_subset_headerBytes shape))
  have total : ChangesOnly (a.headerBytes ∪ Extent.bytes ⟨block, mmapSize⟩) w.mem m₂ :=
    (prepared.mono Set.subset_union_right).trans (linked.mono Set.subset_union_left)
  have framed : ChangesOnly (blockBytes (⟨block, mmapSize⟩ :: a.blocks)) w.mem m₂ := by
    refine total.mono (Set.union_subset ?_ ?_)
    · intro b inside
      obtain ⟨e, member, within⟩ := ArenaView.headerBytes_subset shape inside
      exact ⟨e, List.mem_cons_of_mem _ member, within⟩
    · intro b inside
      exact ⟨_, List.mem_cons_self, inside⟩
  have update := mapUpdate.idThen (ArenaUpdate.trackGrow w₁.ctx mmapSize)
  refine ⟨⟨trackGrow w₁.ctx mmapSize, m₂, w₁.kernel⟩, ?_, ?_, update, total⟩
  · simp only [arenaGrow, sized, mapped]
    rfl
  · refine heap.join update (List.subset_cons_self a rest) (fun b member => ?_) ?_
      (shape.extend header apartFirst) extended
      ((heap.sound a List.mem_cons_self).extend block mmapSize)
    · refine (heap.here b (List.mem_cons_of_mem a member)).frame
        (heap.shape b (List.mem_cons_of_mem a member)) framed fun e inBlocks f among => ?_
      have inRest : e ∈ arenaBlocks rest := List.mem_flatMap.mpr ⟨b, member, inBlocks⟩
      rcases List.mem_cons.mp among with rfl | inFirst
      · exact apart e (List.mem_append_right _ inRest)
      · exact (heap.apart_rest f inFirst e inRest).symm
    · have moved : Ledger platform ⟨trackGrow w₁.ctx mmapSize, m₂, w₁.kernel⟩
          (⟨block, mmapSize⟩ :: arenaBlocks (a :: rest)) w.ctx.ownBlocks foreign :=
        ledger.congr rfl (trackGrow_arenaCache w₁.ctx mmapSize)
      refine moved.perm ?_
      simp only [arenaBlocks, List.flatMap_cons, ArenaView.extend_blocks]
      exact (List.perm_append_singleton _ _).append_right _

end ArenaHeap

end BcAllocators
