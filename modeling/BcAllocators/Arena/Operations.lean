import BcAllocators.Arena.Heap

/-!
# The outcomes of the arena functions

What each function of the arenas does to a context's arenas. A creation or an
allocation has several outcomes, one constructor each; among those of an
allocation is the one in which a new chunk is linked and the request fails
nevertheless (`ArenaAllocateOutcome.wasted`). A reset and a destruction always return.
-/

set_option autoImplicit false

namespace BcAllocators

open Machine

variable {core : BcCore} {platform : Platform} {w w' : World} {m : Memory}
variable {a : ArenaView} {views rest : List ArenaView} {foreign : List Extent}

/-! ## Creation -/

/-- The outcomes of a creation. -/
inductive ArenaCreateOutcome (platform : Platform) (w : World) (views : List ArenaView)
    (foreign : List Extent) (capacity initialChunkSize maxChunkSize : Nat) (growable : Bool) :
    World × PtrResult → Prop where
  | refused : ArenaCreateOutcome platform w views foreign capacity initialChunkSize maxChunkSize
      growable (w, .failed)
  | created {w' : World} {block mmapSize : Nat}
      (heap : ArenaHeap platform w'
        (ArenaView.fresh block mmapSize initialChunkSize maxChunkSize growable :: views) foreign)
      (update : ArenaUpdate (ArenaTally.create mmapSize) w.ctx w'.ctx)
      (changes : ChangesOnly (Extent.bytes ⟨block, mmapSize⟩) w.mem w'.mem)
      (room : arenaHeaderAligned + chunkHeaderAligned + capacity ≤ mmapSize) :
      ArenaCreateOutcome platform w views foreign capacity initialChunkSize maxChunkSize growable
        (w', ⟨true, block⟩)

/-- **The block of a first chunk**: whole pages, with room for both headers and
the capacity asked for. -/
theorem firstMmapSize_eq_some (core : BcCore) {ctx : Context} {capacity mmapSize : Nat}
    (pageSize : ctx.pageSize = platform.pageSize) (word : capacity < 2 ^ 64)
    (sized : firstMmapSize core ctx capacity = some mmapSize) :
    platform.pageSize ∣ mmapSize ∧ mmapSize < 2 ^ 64 ∧
      arenaHeaderAligned + chunkHeaderAligned + capacity ≤ mmapSize := by
  have page : platform.pageSize < 2 ^ 64 := platform.pageSize_lt.trans (by decide)
  have padded : firstMmapSize core ctx capacity =
      (core.safeAdd (arenaHeaderAligned + chunkHeaderAligned) capacity).bind
        fun raw => core.alignUp raw platform.pageSize := by
    simp only [firstMmapSize, pageSize]
    cases core.safeAdd (arenaHeaderAligned + chunkHeaderAligned) capacity <;> rfl
  rw [padded, core.padded_eq_some (by decide) word page platform.pageSize_power] at sized
  obtain ⟨rfl, fits⟩ := sized
  exact ⟨dvd_roundUp _ _, fits, le_roundUp platform.pageSize_pos⟩

/-- **An arena is set up in a mapped block.** -/
theorem ArenaHeap.create (core : BcCore) (heap : ArenaHeap platform w views foreign)
    {capacity initialChunkSize maxChunkSize mmapSize block : Nat} {growable : Bool}
    {answer : Option Nat} {w₁ : World} (nonzero : capacity ≠ 0) (word : capacity < 2 ^ 64)
    (sizes : initialChunkSize < 2 ^ 64 ∧ maxChunkSize < 2 ^ 64)
    (sized : firstMmapSize core w.ctx capacity = some mmapSize)
    (mapped : mapBlock platform w mmapSize answer = some (w₁, block)) :
    ArenaCreateOutcome platform w views foreign capacity initialChunkSize maxChunkSize growable
      (arenaMakeFirst core platform w capacity initialChunkSize maxChunkSize growable answer) := by
  obtain ⟨whole, sizeWord, room⟩ := firstMmapSize_eq_some core heap.pageSize word sized
  obtain ⟨ledger, mapUpdate, changes, apart, blockFit⟩ := heap.map whole mapped
  have headers : arenaHeaderAligned + chunkHeaderAligned ≤ mmapSize :=
    (Nat.le_add_right _ _).trans room
  have shape := ArenaView.shape_fresh block initialChunkSize maxChunkSize growable headers
  -- the chunk header, and the arena header in front of it
  let new : Chunk := ⟨block, arenaHeaderAligned, mmapSize, 0⟩
  let m₁ := initChunk w₁.mem new.header mmapSize
    (wsub mmapSize (arenaHeaderAligned + chunkHeaderAligned)) new.start
  let m₂ := initArena m₁ block w₁.ctx.address new.header initialChunkSize maxChunkSize growable
  have newFit : new.Fit := ⟨headers, Nat.zero_le _⟩
  have newCapacity : wsub mmapSize (arenaHeaderAligned + chunkHeaderAligned) = new.capacity :=
    wsub_of_le headers sizeWord
  have created : new.At m₁ := by
    simp only [m₁, newCapacity]
    exact Chunk.initChunk_at w₁.mem newFit rfl blockFit.stop_lt
  have unlinked : chunkNext m₁ new.header = NULL := Chunk.initChunk_next w₁.mem new _ _ _
  have update := mapUpdate.idThen (ArenaUpdate.trackCreate w₁.ctx mmapSize)
  have sameAddress : w₁.ctx.address = w.ctx.address := mapUpdate.fixed.2.1
  have here : (ArenaView.fresh block mmapSize initialChunkSize maxChunkSize growable).At m₂
      w.ctx.address := by
    simp only [m₂, sameAddress]
    exact ArenaView.at_fresh growable headers blockFit.stop_lt heap.address sizes created unlinked
  have total : ChangesOnly (Extent.bytes ⟨block, mmapSize⟩) w.mem m₂ := by
    refine (changes.trans ((Chunk.initChunk_changesOnly w₁.mem new _ _ _).mono
      newFit.zone_subset)).trans ((initArena_changesOnly m₁ block _ _ _ _ _).mono ?_)
    intro b inside
    obtain ⟨lower, upper⟩ := Extent.mem_bytes.mp inside
    have zone := shape.zone_inside
    exact Extent.mem_bytes.mpr ⟨lower, lt_of_lt_of_le upper zone.2⟩
  have result : arenaMakeFirst core platform w capacity initialChunkSize maxChunkSize growable
      answer = (⟨trackCreate w₁.ctx mmapSize, m₂, w₁.kernel⟩, ⟨true, block⟩) := by
    simp only [arenaMakeFirst, if_neg nonzero, sized, mapped]
    rfl
  have moved : Ledger platform ⟨trackCreate w₁.ctx mmapSize, m₂, w₁.kernel⟩
      (⟨block, mmapSize⟩ :: arenaBlocks views) w.ctx.ownBlocks foreign :=
    ledger.congr rfl (trackCreate_arenaCache w₁.ctx mmapSize)
  rw [result]
  refine .created (heap.join update (List.Subset.refl views) (fun b member => ?_) moved shape here
    (ArenaView.sound_fresh _ _ _ _ _)) update total room
  refine (heap.here b member).congr (heap.shape b member) fun c inChunks x lower upper => ?_
  refine total x ((apart c.extent ?_).disjoint
    (((heap.shape b member).fit c inChunks).mem_extent lower upper))
  exact List.mem_flatMap.mpr ⟨b, member, List.mem_map_of_mem inChunks⟩

/-- **The outcome of a creation.** -/
theorem arenaMakeFirst_outcome (core : BcCore) (heap : ArenaHeap platform w views foreign)
    {capacity initialChunkSize maxChunkSize : Nat} (growable : Bool) (answer : Option Nat)
    (word : capacity < 2 ^ 64) (sizes : initialChunkSize < 2 ^ 64 ∧ maxChunkSize < 2 ^ 64) :
    ArenaCreateOutcome platform w views foreign capacity initialChunkSize maxChunkSize growable
      (arenaMakeFirst core platform w capacity initialChunkSize maxChunkSize growable answer) := by
  by_cases zero : capacity = 0
  · rw [arenaMakeFirst, if_pos zero]
    exact .refused
  cases sized : firstMmapSize core w.ctx capacity with
  | none =>
      simp only [arenaMakeFirst, if_neg zero, sized]
      exact .refused
  | some mmapSize =>
      cases mapped : mapBlock platform w mmapSize answer with
      | none =>
          simp only [arenaMakeFirst, if_neg zero, sized, mapped]
          exact .refused
      | some got => exact heap.create core zero word sizes sized mapped

/-- **The outcome of creating a growable arena.** -/
theorem arenaCreateGrowable_outcome (core : BcCore) (heap : ArenaHeap platform w views foreign)
    {initialChunkSize maxChunkSize : Nat} (answer : Option Nat)
    (sizes : initialChunkSize < 2 ^ 64 ∧ maxChunkSize < 2 ^ 64) :
    ArenaCreateOutcome platform w views foreign initialChunkSize initialChunkSize maxChunkSize
      true (arenaCreateGrowable core platform w initialChunkSize maxChunkSize answer) := by
  simp only [arenaCreateGrowable]
  split_ifs
  · exact .refused
  · exact .refused
  · exact arenaMakeFirst_outcome core heap true answer sizes.1 sizes

/-! ## Allocation -/

/-- The request makes a growable arena link a chunk and fails all the same: the
sum of its size and alignment wraps, and a block for the wrapped sum is there. -/
structure Wastes (platform : Platform) (w : World) (arena size alignment : Nat)
    (answer : Option Nat) : Prop where
  growable : arenaGrowable w.mem arena = true
  size_pos : size ≠ 0
  power : alignment.isPowerOfTwo
  wraps : 2 ^ 64 ≤ size + alignment
  /-- The capacity of the current chunk and the limit give the size of the block. -/
  available : ∃ mmapSize, mmapSize = roundUp (chunkHeaderAligned +
      targetCapacity (chunkCapacity w.mem (arenaCurrentChunk w.mem arena))
        (arenaMaxChunkSize w.mem arena) (wadd size alignment)) platform.pageSize ∧
    mmapSize < 2 ^ 64 ∧ ArenaHeap.BlockAvailable platform w mmapSize answer

/-- The outcomes of an allocation from the first of some arenas, which may write
some bytes at the pointer it returns. -/
inductive ArenaAllocateOutcome (core : BcCore) (platform : Platform) (w : World) (a : ArenaView)
    (rest : List ArenaView) (foreign : List Extent) (size alignment : Nat)
    (answer : Option Nat) (writes : Nat → Set Nat) : World × PtrResult → Prop where
  | refused (idle : ¬ Wastes platform w a.address size alignment answer) :
      ArenaAllocateOutcome core platform w a rest foreign size alignment answer writes
        (w, .failed)
  | served {w' : World} {ptr : Nat}
      (heap : ArenaHeap platform w' (a.serve ⟨ptr, size, alignment⟩ :: rest) foreign)
      (update : w'.ctx = w.ctx)
      (changes : ChangesOnly (a.headerBytes ∪ writes ptr) w.mem w'.mem)
      (fits : size + alignment < 2 ^ 64) :
      ArenaAllocateOutcome core platform w a rest foreign size alignment answer writes
        (w', ⟨true, ptr⟩)
  | grown {w' : World} {block mmapSize ptr : Nat}
      (heap : ArenaHeap platform w'
        ((a.extend block mmapSize).serve ⟨ptr, size, alignment⟩ :: rest) foreign)
      (update : ArenaUpdate (ArenaTally.charge mmapSize) w.ctx w'.ctx)
      (changes : ChangesOnly (a.headerBytes ∪ Extent.bytes ⟨block, mmapSize⟩ ∪ writes ptr)
        w.mem w'.mem)
      (fits : size + alignment < 2 ^ 64) :
      ArenaAllocateOutcome core platform w a rest foreign size alignment answer writes
        (w', ⟨true, ptr⟩)
  | wasted {w' : World} {block mmapSize : Nat}
      (heap : ArenaHeap platform w' (a.extend block mmapSize :: rest) foreign)
      (update : ArenaUpdate (ArenaTally.charge mmapSize) w.ctx w'.ctx)
      (changes : ChangesOnly (a.headerBytes ∪ Extent.bytes ⟨block, mmapSize⟩) w.mem w'.mem)
      (wastes : Wastes platform w a.address size alignment answer) :
      ArenaAllocateOutcome core platform w a rest foreign size alignment answer writes
        (w', .failed)

/-- A chunk never offers an address below the alignment. -/
theorem Chunk.alignment_le_offer (c : Chunk) {alignment : Nat} (pos : 0 < alignment) :
    alignment ≤ c.offer alignment := by
  have start : 0 < c.start := Nat.lt_of_lt_of_le (by decide) (Nat.le_add_left chunkHeaderAligned _)
  have above : c.start + c.used ≤ c.offer alignment := le_roundUp pos
  exact Nat.le_of_dvd (by omega) (dvd_roundUp _ _)

/-- A new chunk serves the request that it was made for. -/
theorem Chunk.offer_new {block mmapSize size alignment : Nat} (pos : 0 < alignment)
    (room : chunkHeaderAligned + (size + alignment) ≤ mmapSize) :
    (⟨block, 0, mmapSize, 0⟩ : Chunk).offer alignment + size ≤
      (⟨block, 0, mmapSize, 0⟩ : Chunk).stop := by
  have below : (⟨block, 0, mmapSize, 0⟩ : Chunk).offer alignment <
      block + 0 + chunkHeaderAligned + 0 + alignment := roundUp_lt pos
  simp only [Chunk.stop]
  omega

/-- The headers of an extended arena are the old ones and that of the new chunk. -/
theorem ArenaView.extend_headerBytes (a : ArenaView) {block mmapSize : Nat}
    (room : chunkHeaderAligned ≤ mmapSize) :
    (a.extend block mmapSize).headerBytes ⊆
      a.headerBytes ∪ Extent.bytes ⟨block, mmapSize⟩ := by
  rintro b ⟨c, member, lower, upper⟩
  rw [extend_chunks, List.mem_append, List.mem_singleton] at member
  rcases member with inChunks | rfl
  · exact Or.inl ⟨c, inChunks, lower, upper⟩
  · exact Or.inr (Extent.mem_bytes.mpr ⟨lower, lt_of_lt_of_le upper (Nat.add_le_add_left room _)⟩)

/-- The last chunk of an arena serves a request that fits in it. -/
theorem ArenaHeap.allocate_last (core : BcCore) (heap : ArenaHeap platform w (a :: rest) foreign)
    {size alignment : Nat} (sizePos : 0 < size) (sizeWord : size < 2 ^ 64)
    (alignmentWord : alignment < 2 ^ 64) (power : alignment.isPowerOfTwo) :
    (a.last.offer alignment + size ≤ a.last.stop ∧ ∃ m,
      tryAllocInChunk core w.mem (arenaCurrentChunk w.mem a.address) size alignment =
        (m, some (a.last.offer alignment)) ∧
      ArenaHeap platform { w with mem := countAllocation m a.address }
        (a.serve ⟨a.last.offer alignment, size, alignment⟩ :: rest) foreign ∧
      ChangesOnly a.headerBytes w.mem (countAllocation m a.address)) ∨
    (¬ a.last.offer alignment + size ≤ a.last.stop ∧
      tryAllocInChunk core w.mem (arenaCurrentChunk w.mem a.address) size alignment =
        (w.mem, none)) := by
  have here := heap.here a List.mem_cons_self
  have current : arenaCurrentChunk w.mem a.address = a.last.header :=
    ArenaView.currentChunk_of_header here.header
  have served := tryAllocInChunk_eq core (here.chunks a.last a.last_mem)
    ((heap.shape a List.mem_cons_self).fit a.last a.last_mem)
    (heap.stop_lt List.mem_cons_self a.last_mem) sizeWord alignmentWord power
  rw [current]
  by_cases fits : a.last.offer alignment + size ≤ a.last.stop
  · rw [if_pos fits] at served
    obtain ⟨after, changes⟩ := heap.serve
      (show 0 < (⟨a.last.offer alignment, size, alignment⟩ : Alloc).size from sizePos)
      (isPowerOfTwo_pos power) rfl fits rfl
    exact Or.inl ⟨fits, _, served, after, changes⟩
  · rw [if_neg fits] at served
    exact Or.inr ⟨fits, served⟩

/-- **The outcome of an allocation.** -/
theorem arenaAllocate_outcome (core : BcCore) (heap : ArenaHeap platform w (a :: rest) foreign)
    {size alignment : Nat} (sizeWord : size < 2 ^ 64) (alignmentWord : alignment < 2 ^ 64)
    (answer : Option Nat) :
    ArenaAllocateOutcome core platform w a rest foreign size alignment answer (fun _ => ∅)
      (arenaAllocate core platform w a.address size alignment answer) := by
  simp only [arenaAllocate]
  by_cases zero : size = 0 ∨ alignment = 0
  · rw [if_pos zero]
    refine .refused fun wastes => ?_
    rcases zero with none | none
    · exact wastes.size_pos none
    · exact Nat.ne_of_gt (isPowerOfTwo_pos wastes.power) none
  rw [if_neg zero]
  obtain ⟨sizePos, alignmentPos⟩ := not_or.mp zero
  by_cases odd : alignment &&& (alignment - 1) ≠ 0
  · rw [if_pos odd]
    exact .refused fun wastes => (alignment_test.mpr wastes.power).2 odd
  rw [if_neg odd]
  have power := alignment_test.mp ⟨alignmentPos, odd⟩
  have pos := isPowerOfTwo_pos power
  rcases heap.allocate_last core (Nat.pos_of_ne_zero sizePos) sizeWord alignmentWord power with
    ⟨fits, m, served, after, changes⟩ | ⟨_, full⟩
  · simp only [served]
    have least := a.last.alignment_le_offer pos
    have stop := heap.stop_lt List.mem_cons_self a.last_mem
    exact .served after rfl (changes.mono Set.subset_union_left) (by omega)
  simp only [full]
  by_cases fixed : arenaGrowable w.mem a.address = false
  · rw [if_pos fixed]
    refine .refused fun wastes => ?_
    rw [wastes.growable] at fixed
    cases fixed
  rw [if_neg fixed]
  have sizes : ∀ mmapSize,
      growMmapSize core w a.address (wadd size alignment) = some mmapSize ↔ _ :=
    fun _ => growMmapSize_eq_some_iff core heap.pageSize (wadd_lt size alignment)
  cases sized : growMmapSize core w a.address (wadd size alignment) with
  | none =>
      simp only [arenaGrow, sized]
      refine .refused fun wastes => ?_
      obtain ⟨mmapSize, rounded, small, _⟩ := wastes.available
      rw [(sizes mmapSize).mpr ⟨rounded, small⟩] at sized
      cases sized
  | some mmapSize =>
      cases mapped : mapBlock platform w mmapSize answer with
      | none =>
          simp only [arenaGrow, sized, mapped]
          refine .refused fun wastes => ?_
          obtain ⟨again, rounded, small, available⟩ := wastes.available
          have same := (sizes again).mpr ⟨rounded, small⟩
          obtain rfl : mmapSize = again := Option.some.inj (sized.symm.trans same)
          rw [← ArenaHeap.mapBlock_isSome_iff, mapped] at available
          cases available
      | some got =>
          obtain ⟨w₁, block⟩ := got
          obtain ⟨w', grown, after, update, changes⟩ :=
            heap.grow core (wadd_lt size alignment) sized mapped
          have address := a.extend_address block mmapSize
          simp only [grown]
          obtain ⟨_, _, room⟩ :=
            growMmapSize_eq_some core heap.pageSize (wadd_lt size alignment) sized
          rcases after.allocate_last core (Nat.pos_of_ne_zero sizePos) sizeWord alignmentWord
            power with
            ⟨fits, m, served, again, more⟩ | ⟨tooBig, full⟩
          · rw [address] at served again more
            simp only [served]
            have least := Chunk.alignment_le_offer ⟨block, 0, mmapSize, 0⟩ pos
            have stop := after.stop_lt List.mem_cons_self (a.extend block mmapSize).last_mem
            have bound := Nat.lt_of_le_of_lt fits stop
            have total := changes.trans (more.mono
              (a.extend_headerBytes ((Nat.le_add_right _ _).trans room)))
            exact .grown again update (total.mono Set.subset_union_left)
              (lt_of_le_of_lt ((Nat.add_comm size alignment).le.trans
                (Nat.add_le_add_right least size)) bound)
          · rw [address] at full
            simp only [full]
            -- a request whose sum does not wrap would have been served
            have wraps : 2 ^ 64 ≤ size + alignment := by
              by_contra small
              rw [wadd_of_lt (Nat.lt_of_not_le small)] at room
              exact tooBig (Chunk.offer_new pos room)
            exact .wasted after update changes
              { growable := Bool.of_not_eq_false fixed, size_pos := sizePos, power := power,
                wraps := wraps,
                available := by
                  obtain ⟨rounded, small⟩ := (sizes mmapSize).mp sized
                  exact ⟨mmapSize, rounded, small,
                    ArenaHeap.mapBlock_isSome_iff.mp (by rw [mapped]; rfl)⟩ }

/-! ## Payloads -/

/-- What an arena holds lies in the used parts of its payloads. -/
theorem ArenaView.Sound.mem_usedPayloads (sound : a.Sound) {x : Alloc} (member : x ∈ a.allocs) :
    x.extent.bytes ⊆ usedPayloads a.chunks := by
  intro b inside
  obtain ⟨c, inChunks, holds⟩ := sound.inside x member
  exact ⟨c, inChunks, holds.1.trans (Extent.mem_bytes.mp inside).1,
    lt_of_lt_of_le (Extent.mem_bytes.mp inside).2 holds.2⟩

theorem ArenaView.usedPayloads_subset (shape : a.Shape) :
    usedPayloads a.chunks ⊆ blockBytes a.blocks := by
  rintro b ⟨c, member, lower, upper⟩
  exact ⟨c.extent, List.mem_map_of_mem member, (shape.fit c member).mem_extent_of_used lower upper⟩

/-- **The used bytes of an arena may change at will.** -/
theorem ArenaHeap.payload (heap : ArenaHeap platform w (a :: rest) foreign)
    (changes : ChangesOnly (usedPayloads a.chunks) w.mem m) :
    ArenaHeap platform { w with mem := m } (a :: rest) foreign := by
  have shape := heap.shape a List.mem_cons_self
  refine heap.changeFirst rfl shape (heap.sound a List.mem_cons_self) ?_
    (changes.mono (ArenaView.usedPayloads_subset shape))
  refine (heap.here a List.mem_cons_self).congr shape fun c member b lower upper => ?_
  exact changes b (usedPayloads_not_header shape.fit shape.apart member lower upper)

/-- **The outcome of copying a string.** -/
theorem arenaCopyString_outcome (core : BcCore) (heap : ArenaHeap platform w (a :: rest) foreign)
    (source : Nat) (answer : Option Nat) :
    ArenaAllocateOutcome core platform w a rest foreign (wadd (core.length w.mem source) 1) 1
      answer (fun ptr => Set.Ico ptr (ptr + wadd (core.length w.mem source) 1))
      (arenaCopyString core platform w a.address source answer) := by
  have sizeWord := wadd_lt (core.length w.mem source) 1
  simp only [arenaCopyString]
  generalize wadd (core.length w.mem source) 1 = size at sizeWord ⊢
  generalize result : arenaAllocate core platform w a.address size 1 answer = allocated
  have outcome := arenaAllocate_outcome core heap sizeWord (show 1 < 2 ^ 64 by decide) answer
  rw [result] at outcome
  -- the copy goes to the allocation just made
  have copied : ∀ {w' : World} {b : ArenaView} {ptr : Nat},
      ArenaHeap platform w' (b.serve ⟨ptr, size, 1⟩ :: rest) foreign →
      ArenaHeap platform { w' with mem := core.copy w'.mem ptr source size }
        (b.serve ⟨ptr, size, 1⟩ :: rest) foreign := by
    intro w' b ptr after
    refine after.payload ((core.copy_frame w'.mem ptr source size).mono ?_)
    exact (after.sound _ List.mem_cons_self).mem_usedPayloads
      (x := ⟨ptr, size, 1⟩) List.mem_cons_self
  cases outcome with
  | refused idle => exact .refused idle
  | served after update changes fits =>
      refine .served (copied after) update ?_ fits
      exact (changes.mono (Set.union_subset_union_right _ (Set.empty_subset _))).trans
        ((core.copy_frame _ _ source size).mono Set.subset_union_right)
  | grown after update changes fits =>
      refine .grown (copied after) update ?_ fits
      exact (changes.mono (Set.union_subset_union_right _ (Set.empty_subset _))).trans
        ((core.copy_frame _ _ source size).mono Set.subset_union_right)
  | wasted after update changes wastes => exact .wasted after update changes wastes

/-! ## Giving chunks up -/

/-- The chunks behind the first, as a chain. -/
theorem ArenaView.At.grown_chain {ctx : Nat} (here : a.At m ctx) :
    Linked (chunkNext m) (chunkNext m (arenaFirstChunk m a.address))
      (a.grown.map Chunk.header) := by
  have chain := here.chain
  rw [a.chunks_eq, List.map_cons] at chain
  have first : arenaFirstChunk m a.address = a.first.header :=
    ArenaView.firstChunk_of_header here.header
  rw [first]
  exact chain.2.2

theorem ArenaView.mem_of_mem_grown {c : Chunk} (member : c ∈ a.grown) : c ∈ a.chunks :=
  List.mem_of_mem_tail member

/-- **The chunks behind the first are released.** -/
theorem ArenaHeap.releaseGrown (heap : ArenaHeap platform w (a :: rest) foreign) :
    ∃ w', releaseChunks chainFuel w (chunkNext w.mem (arenaFirstChunk w.mem a.address)) = some w' ∧
      w'.mem = w.mem ∧
      Ledger platform w' (a.first.extent :: arenaBlocks rest) w.ctx.ownBlocks foreign ∧
      ArenaUpdate (ArenaTally.creditAll (a.grown.map Chunk.mmapSize)) w.ctx w'.ctx := by
  have here := heap.here a List.mem_cons_self
  have shape := heap.shape a List.mem_cons_self
  have enough : a.grown.length < chainFuel :=
    lt_of_le_of_lt (by simp [ArenaView.grown]) heap.length_lt
  have ledger : Ledger platform w
      (a.grown.map Chunk.extent ++ (a.first.extent :: arenaBlocks rest)) w.ctx.ownBlocks
      foreign := by
    refine heap.ledger.perm ?_
    simp only [arenaBlocks, List.flatMap_cons, ArenaView.blocks_eq, List.cons_append]
    exact List.perm_middle
  refine releaseChunks_spec enough here.grown_chain (fun c member => ?_) ledger
  exact ⟨shape.grown_lead c member, here.chunks c (ArenaView.mem_of_mem_grown member)⟩

/-- The header of the first chunk is at a word, and not at null. -/
theorem ArenaHeap.first_header (heap : ArenaHeap platform w (a :: rest) foreign) :
    a.first.header < 2 ^ 64 ∧ a.first.header ≠ 0 := by
  have fit := heap.blockFit List.mem_cons_self a.first_mem
  have stop := fit.stop_lt
  have start := fit.start_pos
  have headers := ((heap.shape a List.mem_cons_self).fit a.first a.first_mem).headers
  simp only [Chunk.extent, Extent.stop, Chunk.header] at *
  omega

/-- **The outcome of a reset.** -/
theorem arenaReset_outcome (heap : ArenaHeap platform w (a :: rest) foreign) :
    ∃ w', arenaReset w a.address = some w' ∧ ArenaHeap platform w' (a.reset :: rest) foreign ∧
      ArenaUpdate (ArenaTally.creditAll (a.grown.map Chunk.mmapSize)) w.ctx w'.ctx ∧
      ChangesOnly a.headerBytes w.mem w'.mem := by
  have here := heap.here a List.mem_cons_self
  have shape := heap.shape a List.mem_cons_self
  obtain ⟨w₁, released, mem, ledger, update⟩ := heap.releaseGrown
  obtain ⟨first, second, third⟩ := here.reset_reads shape
  obtain ⟨word, nonnull⟩ := heap.first_header
  have changes := ArenaView.resetStores_changesOnly w.mem shape
  refine ⟨{ w₁ with mem := ArenaView.resetStores w.mem a.address a.first.header }, ?_, ?_, update,
    changes⟩
  · rw [arenaReset, released]
    simp only [mem, first, second, third]
    rfl
  · have others := heap.here_rest (changes.mono (ArenaView.headerBytes_subset shape))
    exact heap.join update (List.subset_cons_self a rest) others (ledger.congr rfl rfl)
      shape.reset (here.reset shape word nonnull) a.sound_reset

/-- The chunks of an arena are ready for the walks over payloads. -/
theorem ArenaHeap.walked (heap : ArenaHeap platform w (a :: rest) foreign) :
    Linked (chunkNext w.mem) (arenaFirstChunk w.mem a.address) (a.chunks.map Chunk.header) ∧
      ∀ c ∈ a.chunks, c.Walked platform w.mem := by
  have here := heap.here a List.mem_cons_self
  have shape := heap.shape a List.mem_cons_self
  have first : arenaFirstChunk w.mem a.address = a.first.header :=
    ArenaView.firstChunk_of_header here.header
  refine ⟨first ▸ here.chain, fun c member => ?_⟩
  refine ⟨here.chunks c member, shape.fit c member,
    (heap.blockFit List.mem_cons_self member).start_aligned, ?_⟩
  rw [a.chunks_eq] at member
  rcases List.mem_cons.mp member with rfl | inGrown
  · exact Or.inr shape.first_lead
  · exact Or.inl (shape.grown_lead c inGrown)

/-- **The outcome of a secure reset.** -/
theorem arenaResetSecure_outcome (core : BcCore)
    (heap : ArenaHeap platform w (a :: rest) foreign) :
    ∃ w', arenaResetSecure core platform w a.address = some w' ∧
      ArenaHeap platform w' (a.reset :: rest) foreign ∧
      ArenaUpdate (ArenaTally.creditAll (a.grown.map Chunk.mmapSize)) w.ctx w'.ctx ∧
      ChangesOnly (a.headerBytes ∪ usedPayloads a.chunks) w.mem w'.mem := by
  obtain ⟨linked, walked⟩ := heap.walked
  obtain ⟨m, secured, erased, _⟩ := secureChunks_spec core heap.length_lt linked walked
    (heap.shape a List.mem_cons_self).apart
  obtain ⟨w', reset, after, update, changes⟩ := arenaReset_outcome (heap.payload erased)
  refine ⟨w', ?_, after, update, ?_⟩
  · rw [arenaResetSecure, secured]
    exact reset
  · exact (erased.mono Set.subset_union_right).trans (changes.mono Set.subset_union_left)

/-- **Releasing pages does nothing.** -/
theorem arenaReleasePages_outcome (heap : ArenaHeap platform w (a :: rest) foreign) :
    arenaReleasePages platform w a.address = some w := by
  obtain ⟨linked, walked⟩ := heap.walked
  rw [arenaReleasePages, adviseChunks_spec heap.length_lt linked walked]

/-- **The outcome of a destruction.** -/
theorem arenaDestroy_outcome (heap : ArenaHeap platform w (a :: rest) foreign) :
    ∃ w', arenaDestroy w a.address = some w' ∧ ArenaHeap platform w' rest foreign ∧
      ArenaUpdate (ArenaTally.destroy a.first.mmapSize ∘
        ArenaTally.creditAll (a.grown.map Chunk.mmapSize)) w.ctx w'.ctx ∧
      w'.mem = w.mem := by
  have here := heap.here a List.mem_cons_self
  obtain ⟨w₁, released, mem, ledger, update⟩ := heap.releaseGrown
  have first : arenaFirstChunk w.mem a.address = a.first.header :=
    ArenaView.firstChunk_of_header here.header
  have size : chunkMmapSize w₁.mem (arenaFirstChunk w₁.mem a.address) = a.first.mmapSize := by
    rw [mem, first]
    exact (here.chunks a.first a.first_mem).mmapSize
  let w₂ : World := { w₁ with ctx := trackDestroy w₁.ctx a.first.mmapSize }
  have tracked : Ledger platform w₂ (a.first.extent :: arenaBlocks rest) w.ctx.ownBlocks foreign :=
    ledger.congr rfl (trackDestroy_arenaCache w₁.ctx a.first.mmapSize)
  have destroyed := (ArenaUpdate.trackDestroy w₁.ctx a.first.mmapSize).thenId
    (ArenaUpdate.releaseBlock w₂ a.address a.first.mmapSize)
  have updates := update.trans destroyed
  have same : (releaseBlock w₂ a.address a.first.mmapSize).mem = w.mem :=
    (releaseBlock_mem _ _ _).trans mem
  refine ⟨releaseBlock w₂ a.address a.first.mmapSize, ?_, ?_, updates, same⟩
  · rw [arenaDestroy, released]
    simp only [size]
    rfl
  · refine heap.leave updates (List.subset_cons_self a rest) (fun b member => ?_)
      (tracked.release (.refl _))
    rw [same]
    exact heap.here b (List.mem_cons_of_mem a member)

/-- **The statistics of an arena** are the sums over its chunks. -/
theorem arenaGetStats_outcome (heap : ArenaHeap platform w (a :: rest) foreign) :
    arenaGetStats w.mem a.address = some (chunkFigures a.count a.chunks) := by
  have here := heap.here a List.mem_cons_self
  have count : arenaAllocationCount w.mem a.address = a.count :=
    ArenaView.count_of_header here.header
  have bytes := heap.sum_size_lt
  have length := heap.length_lt
  simp only [arenaBlocks, List.flatMap_cons, List.map_append, List.sum_append, ArenaView.blocks,
    List.map_map] at bytes
  have reserved : (a.chunks.map Chunk.mmapSize).sum < 2 ^ 64 :=
    lt_of_le_of_lt (Nat.le_add_right _ _) bytes
  have capacity : (a.chunks.map Chunk.capacity).sum ≤ (a.chunks.map Chunk.mmapSize).sum :=
    List.sum_le_sum fun c _ => Nat.sub_le _ _
  have used : (a.chunks.map Chunk.used).sum ≤ (a.chunks.map Chunk.capacity).sum :=
    List.sum_le_sum fun c member => ((heap.shape a List.mem_cons_self).fit c member).used
  have word : (chunkFigures a.count a.chunks).Word :=
    ⟨lt_of_le_of_lt capacity reserved, lt_of_le_of_lt (used.trans capacity) reserved, length,
      reserved⟩
  rw [arenaGetStats, count]
  have summed := sumChunks_spec length heap.walked.1 here.chunks
    (show (chunkFigures a.count ([] ++ a.chunks)).Word from word)
  exact summed

/-- A write inside an allocation. -/
theorem ArenaHeap.write (heap : ArenaHeap platform w (a :: rest) foreign) {x : Alloc}
    (member : x ∈ a.allocs) (changes : ChangesOnly x.extent.bytes w.mem m) :
    ArenaHeap platform { w with mem := m } (a :: rest) foreign :=
  heap.payload (changes.mono ((heap.sound a List.mem_cons_self).mem_usedPayloads member))

end BcAllocators
