import BcAllocators.Lib.Parallel
import BcAllocators.Arena.Operations

/-!
# Arena functions in two worlds

Two worlds that differ in memory only, and represent the same arenas, are twins. The
functions of the arenas read nothing but headers, so in twins they return the same
values and do the same to context and kernel, and their stores to memory are the
same: where the memories agreed, they agree afterwards (`TwinResult`).
-/

set_option autoImplicit false

namespace BcAllocators

open Machine

variable {core : BcCore} {platform : Platform} {foreign : List Extent} {w : World}
variable {m n : Memory} {a : ArenaView} {views rest : List ArenaView} {answer : Option Nat}

/-- The result of a call in the world with another memory: the same, up to memory. -/
def TwinResult {β : Type} (w : World) (n : Memory) (r q : World × β) : Prop :=
  ∃ n', q = ({ r.1 with mem := n' }, r.2) ∧ Follows w.mem r.1.mem n n'

theorem TwinResult.same {β : Type} (w : World) (n : Memory) (b : β) :
    TwinResult w n (w, b) ({ w with mem := n }, b) := ⟨n, rfl, Follows.refl _ _⟩

/-! ## Blocks -/

theorem releaseBlock_twin (w : World) (n : Memory) (block mmapSize : Nat) :
    releaseBlock { w with mem := n } block mmapSize =
      { releaseBlock w block mmapSize with mem := n } := by
  simp only [releaseBlock]
  split <;> rfl

theorem mapBlock_twin_none {mmapSize : Nat} (n : Memory)
    (mapped : mapBlock platform w mmapSize answer = none) :
    mapBlock platform { w with mem := n } mmapSize answer = none := by
  simp only [mapBlock, platformMap] at mapped ⊢
  cases found : w.ctx.arenaCache.find mmapSize with
  | some i => simp [found] at mapped
  | none =>
      cases granted : w.kernel.grant platform mmapSize answer with
      | some block => simp [found, granted] at mapped
      | none => rfl

theorem mapBlock_twin_some {mmapSize block : Nat} {w₁ : World} (n : Memory)
    (mapped : mapBlock platform w mmapSize answer = some (w₁, block)) :
    ∃ n', mapBlock platform { w with mem := n } mmapSize answer =
      some ({ w₁ with mem := n' }, block) ∧ Follows w.mem w₁.mem n n' := by
  simp only [mapBlock, platformMap] at mapped ⊢
  cases found : w.ctx.arenaCache.find mmapSize with
  | some i =>
      simp only [found, Option.some.injEq, Prod.mk.injEq] at mapped
      obtain ⟨rfl, rfl⟩ := mapped
      exact ⟨n, rfl, Follows.refl _ _⟩
  | none =>
      cases granted : w.kernel.grant platform mmapSize answer with
      | none => simp [found, granted] at mapped
      | some start =>
          simp only [found, granted, Option.some.injEq, Prod.mk.injEq] at mapped
          obtain ⟨rfl, rfl⟩ := mapped
          exact ⟨_, rfl, Follows.fillBytes _ _ _ _ _⟩

/-! ## Headers -/

theorem initChunk_follows (m n : Memory) (chunk mmapSize capacity memoryStart : Nat) :
    Follows m (initChunk m chunk mmapSize capacity memoryStart) n
      (initChunk n chunk mmapSize capacity memoryStart) := by
  simp only [initChunk]
  exact ((((Follows.storeWord _ _ _ _).trans (Follows.storeWord _ _ _ _)).trans
    (Follows.storeWord _ _ _ _)).trans (Follows.storeWord _ _ _ _)).trans
    (Follows.storeWord _ _ _ _)

theorem initArena_follows (m n : Memory)
    (arena ctx chunk initialChunkSize maxChunkSize : Nat) (growable : Bool) :
    Follows m (initArena m arena ctx chunk initialChunkSize maxChunkSize growable) n
      (initArena n arena ctx chunk initialChunkSize maxChunkSize growable) := by
  simp only [initArena]
  exact ((((((Follows.storeWord _ _ _ _).trans (Follows.storeWord _ _ _ _)).trans
    (Follows.storeWord _ _ _ _)).trans (Follows.storeWord _ _ _ _)).trans
    (Follows.storeWord _ _ _ _)).trans (Follows.storeWord _ _ _ _)).trans
    (Follows.storeByte _ _ _ _)

/-- The header of an arena is the same in both memories of twins. -/
theorem ArenaView.At.header_twin {ctx : Nat} (left : a.At m ctx) (right : a.At n ctx) :
    arenaHeader n a.address = arenaHeader m a.address :=
  right.header.trans left.header.symm

/-! ## Creation and growth -/

theorem arenaMakeFirst_twin (core : BcCore) (platform : Platform) (w : World) (n : Memory)
    (capacity initialChunkSize maxChunkSize : Nat) (growable : Bool) (answer : Option Nat) :
    TwinResult w n
      (arenaMakeFirst core platform w capacity initialChunkSize maxChunkSize growable answer)
      (arenaMakeFirst core platform { w with mem := n } capacity initialChunkSize maxChunkSize
        growable answer) := by
  simp only [arenaMakeFirst]
  by_cases zero : capacity = 0
  · simp only [if_pos zero]
    exact TwinResult.same w n _
  simp only [if_neg zero]
  cases sized : firstMmapSize core w.ctx capacity with
  | none => exact TwinResult.same w n _
  | some mmapSize =>
      cases mapped : mapBlock platform w mmapSize answer with
      | none =>
          simp only [mapped, mapBlock_twin_none n mapped]
          exact TwinResult.same w n _
      | some got =>
          obtain ⟨w₁, block⟩ := got
          obtain ⟨n₁, again, follows⟩ := mapBlock_twin_some n mapped
          simp only [mapped, again]
          exact ⟨_, rfl, (follows.trans (initChunk_follows _ _ _ _ _ _)).trans
            (initArena_follows _ _ _ _ _ _ _ _)⟩

theorem arenaCreateGrowable_twin (core : BcCore) (platform : Platform) (w : World) (n : Memory)
    (initialChunkSize maxChunkSize : Nat) (answer : Option Nat) :
    TwinResult w n (arenaCreateGrowable core platform w initialChunkSize maxChunkSize answer)
      (arenaCreateGrowable core platform { w with mem := n } initialChunkSize maxChunkSize
        answer) := by
  simp only [arenaCreateGrowable]
  split_ifs
  · exact TwinResult.same w n _
  · exact TwinResult.same w n _
  · exact arenaMakeFirst_twin core platform w n _ _ _ _ _

/-- The size of a new chunk depends on headers only. -/
theorem growMmapSize_twin {arena minCapacity : Nat}
    (header : arenaHeader n arena = arenaHeader w.mem arena)
    (capacity : chunkCapacity n (arenaCurrentChunk w.mem arena) =
      chunkCapacity w.mem (arenaCurrentChunk w.mem arena)) :
    growMmapSize core { w with mem := n } arena minCapacity =
      growMmapSize core w arena minCapacity := by
  have current : arenaCurrentChunk n arena = arenaCurrentChunk w.mem arena :=
    congrArg ArenaHeader.currentChunk header
  have maxSize : arenaMaxChunkSize n arena = arenaMaxChunkSize w.mem arena :=
    congrArg ArenaHeader.maxChunkSize header
  simp only [growMmapSize, current, maxSize, capacity]

theorem arenaGrow_twin (core : BcCore) (platform : Platform) {arena : Nat} (minCapacity : Nat)
    (answer : Option Nat)
    (header : arenaHeader n arena = arenaHeader w.mem arena)
    (capacity : chunkCapacity n (arenaCurrentChunk w.mem arena) =
      chunkCapacity w.mem (arenaCurrentChunk w.mem arena)) :
    TwinResult w n (arenaGrow core platform w arena minCapacity answer)
      (arenaGrow core platform { w with mem := n } arena minCapacity answer) := by
  have current : arenaCurrentChunk n arena = arenaCurrentChunk w.mem arena :=
    congrArg ArenaHeader.currentChunk header
  simp only [arenaGrow, growMmapSize_twin header capacity]
  cases sized : growMmapSize core w arena minCapacity with
  | none => exact TwinResult.same w n _
  | some mmapSize =>
      cases mapped : mapBlock platform w mmapSize answer with
      | none =>
          simp only [mapped, mapBlock_twin_none n mapped]
          exact TwinResult.same w n _
      | some got =>
          obtain ⟨w₁, block⟩ := got
          obtain ⟨n₁, again, follows⟩ := mapBlock_twin_some n mapped
          have prepared := follows.trans (initChunk_follows w₁.mem n₁ block mmapSize
            (wsub mmapSize chunkHeaderAligned) (block + chunkHeaderAligned))
          -- the current chunk is read after the new header has been written
          have last : arenaCurrentChunk (initChunk n₁ block mmapSize
              (wsub mmapSize chunkHeaderAligned) (block + chunkHeaderAligned)) arena =
            arenaCurrentChunk (initChunk w₁.mem block mmapSize
              (wsub mmapSize chunkHeaderAligned) (block + chunkHeaderAligned)) arena :=
            prepared.word current
          simp only [mapped, again, last]
          exact ⟨_, rfl, (prepared.trans (Follows.storeWord _ _ _ _)).trans
            (Follows.storeWord _ _ _ _)⟩

/-! ## Allocation -/

theorem countAllocation_follows {m' n' : Memory} {arena : Nat} (follows : Follows m m' n n')
    (header : arenaHeader n arena = arenaHeader m arena) :
    Follows m (countAllocation m' arena) n (countAllocation n' arena) := by
  have count : arenaAllocationCount n' arena = arenaAllocationCount m' arena :=
    follows.word (congrArg ArenaHeader.allocationCount header)
  simp only [countAllocation, count]
  exact follows.trans (Follows.storeWord _ _ _ _)

/-- The last chunk serves a request in both worlds, or in neither. -/
theorem tryAllocInChunk_twin (core : BcCore)
    (left : ArenaHeap platform w (a :: rest) foreign)
    (right : ArenaHeap platform { w with mem := n } (a :: rest) foreign) {size alignment : Nat}
    (sizeWord : size < 2 ^ 64) (alignmentWord : alignment < 2 ^ 64)
    (power : alignment.isPowerOfTwo) :
    (∃ m' n' ptr, tryAllocInChunk core w.mem (arenaCurrentChunk w.mem a.address) size alignment =
        (m', some ptr) ∧
      tryAllocInChunk core n (arenaCurrentChunk n a.address) size alignment = (n', some ptr) ∧
      Follows w.mem (countAllocation m' a.address) n (countAllocation n' a.address)) ∨
    (tryAllocInChunk core w.mem (arenaCurrentChunk w.mem a.address) size alignment =
        (w.mem, none) ∧
      tryAllocInChunk core n (arenaCurrentChunk n a.address) size alignment = (n, none)) := by
  have hereLeft := left.here a List.mem_cons_self
  have hereRight := right.here a List.mem_cons_self
  have currentLeft : arenaCurrentChunk w.mem a.address = a.last.header :=
    ArenaView.currentChunk_of_header hereLeft.header
  have currentRight : arenaCurrentChunk n a.address = a.last.header :=
    ArenaView.currentChunk_of_header hereRight.header
  have fit := (left.shape a List.mem_cons_self).fit a.last a.last_mem
  have stop := left.stop_lt List.mem_cons_self a.last_mem
  rw [currentLeft, currentRight,
    tryAllocInChunk_eq core (hereLeft.chunks a.last a.last_mem) fit stop sizeWord alignmentWord
      power,
    tryAllocInChunk_eq core (hereRight.chunks a.last a.last_mem) fit stop sizeWord alignmentWord
      power]
  split
  · exact Or.inl ⟨_, _, _, rfl, rfl, countAllocation_follows (Follows.storeWord _ _ _ _)
      (hereLeft.header_twin hereRight)⟩
  · exact Or.inr ⟨rfl, rfl⟩

/-- **An allocation does alike in twins.** -/
theorem arenaAllocate_twin (core : BcCore) (left : ArenaHeap platform w (a :: rest) foreign)
    (right : ArenaHeap platform { w with mem := n } (a :: rest) foreign) {size alignment : Nat}
    (sizeWord : size < 2 ^ 64) (alignmentWord : alignment < 2 ^ 64) (answer : Option Nat) :
    TwinResult w n (arenaAllocate core platform w a.address size alignment answer)
      (arenaAllocate core platform { w with mem := n } a.address size alignment answer) := by
  have hereLeft := left.here a List.mem_cons_self
  have hereRight := right.here a List.mem_cons_self
  have header := hereLeft.header_twin hereRight
  have growable : arenaGrowable n a.address = arenaGrowable w.mem a.address :=
    congrArg ArenaHeader.growable header
  have current : arenaCurrentChunk w.mem a.address = a.last.header :=
    ArenaView.currentChunk_of_header hereLeft.header
  have capacity : chunkCapacity n (arenaCurrentChunk w.mem a.address) =
      chunkCapacity w.mem (arenaCurrentChunk w.mem a.address) := by
    rw [current]
    exact (hereRight.chunks a.last a.last_mem).capacity.trans
      (hereLeft.chunks a.last a.last_mem).capacity.symm
  simp only [arenaAllocate]
  by_cases zero : size = 0 ∨ alignment = 0
  · simp only [if_pos zero]
    exact TwinResult.same w n _
  simp only [if_neg zero]
  by_cases odd : alignment &&& (alignment - 1) ≠ 0
  · simp only [if_pos odd]
    exact TwinResult.same w n _
  simp only [if_neg odd]
  have power := alignment_test.mp ⟨(not_or.mp zero).2, odd⟩
  rcases tryAllocInChunk_twin core left right sizeWord alignmentWord power with
    ⟨m', n', ptr, served, again, follows⟩ | ⟨full, again⟩
  · simp only [served, again]
    exact ⟨_, rfl, follows⟩
  simp only [full, again, growable]
  by_cases fixed : arenaGrowable w.mem a.address = false
  · simp only [if_pos fixed]
    exact TwinResult.same w n _
  simp only [if_neg fixed]
  cases sized : growMmapSize core w a.address (wadd size alignment) with
  | none =>
      have sized' := (growMmapSize_twin header capacity).trans sized
      simp only [arenaGrow, sized, sized']
      exact TwinResult.same w n _
  | some mmapSize =>
      have sized' := (growMmapSize_twin header capacity).trans sized
      cases mapped : mapBlock platform w mmapSize answer with
      | none =>
          simp only [arenaGrow, sized, sized', mapped, mapBlock_twin_none n mapped]
          exact TwinResult.same w n _
      | some got =>
          obtain ⟨w₁, block⟩ := got
          obtain ⟨n₁, mapped', _⟩ := mapBlock_twin_some n mapped
          have minWord := wadd_lt size alignment
          -- both worlds link the same chunk
          obtain ⟨w', grown, afterLeft, _, _⟩ := left.grow core minWord sized mapped
          obtain ⟨v', grown', afterRight, _, _⟩ := right.grow core minWord sized' mapped'
          obtain ⟨n', same, follows⟩ :=
            arenaGrow_twin core platform (wadd size alignment) answer header capacity
          rw [grown, grown', Prod.mk.injEq] at same
          obtain ⟨rfl, _⟩ := same
          rw [grown] at follows
          have address := a.extend_address block mmapSize
          simp only [grown, grown']
          rcases tryAllocInChunk_twin core afterLeft afterRight sizeWord alignmentWord power with
            ⟨m₂, n₂, ptr, served, again, more⟩ | ⟨full, again⟩
          · rw [address] at served again more
            simp only [served, again]
            exact ⟨_, rfl, follows.trans more⟩
          · rw [address] at full again
            simp only [full, again]
            exact ⟨n', rfl, follows⟩

/-- **Copying a string does alike in twins**, but for the bytes that are copied. -/
theorem arenaCopyString_twin (core : BcCore) (left : ArenaHeap platform w (a :: rest) foreign)
    (right : ArenaHeap platform { w with mem := n } (a :: rest) foreign) {source source' : Nat}
    (lengths : core.length n source' = core.length w.mem source) (answer : Option Nat) :
    let r := arenaCopyString core platform w a.address source answer
    ∃ n', arenaCopyString core platform { w with mem := n } a.address source' answer =
        ({ r.1 with mem := n' }, r.2) ∧
      ∀ p, (r.2.ok = true →
          p ∉ Set.Ico r.2.out (r.2.out + wadd (core.length w.mem source) 1)) →
        w.mem p = n p → r.1.mem p = n' p := by
  have sizeWord := wadd_lt (core.length w.mem source) 1
  simp only [arenaCopyString, lengths]
  generalize wadd (core.length w.mem source) 1 = size at sizeWord ⊢
  obtain ⟨n₁, same, follows⟩ := arenaAllocate_twin core left right sizeWord
    (show 1 < 2 ^ 64 by decide) answer
  rw [same]
  generalize arenaAllocate core platform w a.address size 1 answer = allocated at follows ⊢
  obtain ⟨w', ok, ptr⟩ := allocated
  cases ok with
  | false => exact ⟨n₁, rfl, fun p _ agree => follows p agree⟩
  | true =>
      refine ⟨_, rfl, ?_⟩
      intro p outside agree
      exact Follows.agree_outside (core.copy_frame _ _ _ _) (core.copy_frame _ _ _ _)
        (outside rfl) (follows p agree)

/-! ## Reset -/

/-- **Releasing a chain does alike in twins.** -/
theorem releaseChunks_twin {chunks : List Chunk} : ∀ {fuel p : Nat} {w w' : World},
    Linked (chunkNext w.mem) p (chunks.map Chunk.header) →
    (∀ c ∈ chunks, c.At w.mem ∧ c.At n ∧ chunkNext n c.header = chunkNext w.mem c.header) →
    releaseChunks fuel w p = some w' →
    releaseChunks fuel { w with mem := n } p = some { w' with mem := n } := by
  induction chunks with
  | nil =>
      intro fuel p w w' linked _ released
      have null : p = NULL := linked
      cases fuel with
      | zero => cases released
      | succ fuel =>
          rw [releaseChunks, if_pos null] at released ⊢
          cases released
          rfl
  | cons c chunks ih =>
      intro fuel p w w' linked here released
      obtain ⟨rfl, nonnull, tail⟩ := linked
      cases fuel with
      | zero => cases released
      | succ fuel =>
          obtain ⟨left, right, next⟩ := here c List.mem_cons_self
          rw [releaseChunks, if_neg (show c.header ≠ NULL from nonnull)] at released ⊢
          simp only [left.mmapSize, right.mmapSize, next] at released ⊢
          rw [releaseBlock_twin { w with ctx := trackRelease w.ctx c.mmapSize } n]
          refine ih ?_ ?_ released
          · rw [releaseBlock_mem]
            exact tail
          · rw [releaseBlock_mem]
            exact fun d member => here d (List.mem_cons_of_mem c member)

/-- **A reset does alike in twins.** -/
theorem arenaReset_twin {w' : World} (left : ArenaHeap platform w (a :: rest) foreign)
    (right : ArenaHeap platform { w with mem := n } (a :: rest) foreign)
    (reset : arenaReset w a.address = some w') :
    ∃ n', arenaReset { w with mem := n } a.address = some { w' with mem := n' } ∧
      Follows w.mem w'.mem n n' := by
  have hereLeft := left.here a List.mem_cons_self
  have hereRight := right.here a List.mem_cons_self
  have shape := left.shape a List.mem_cons_self
  have links := hereLeft.chain.next_eq hereRight.chain
  have firstLeft : arenaFirstChunk w.mem a.address = a.first.header :=
    ArenaView.firstChunk_of_header hereLeft.header
  have firstRight : arenaFirstChunk n a.address = a.first.header :=
    ArenaView.firstChunk_of_header hereRight.header
  obtain ⟨w₁, released, mem, _, _⟩ := left.releaseGrown
  have next : chunkNext n a.first.header = chunkNext w.mem a.first.header :=
    links a.first.header (List.mem_map_of_mem a.first_mem)
  have again : releaseChunks chainFuel { w with mem := n }
      (chunkNext n (arenaFirstChunk n a.address)) = some { w₁ with mem := n } := by
    rw [firstRight, next, ← firstLeft]
    refine releaseChunks_twin hereLeft.grown_chain ?_ released
    intro c member
    have inChunks := ArenaView.mem_of_mem_grown member
    exact ⟨hereLeft.chunks c inChunks, hereRight.chunks c inChunks,
      links c.header (List.mem_map_of_mem inChunks)⟩
  obtain ⟨first, second, third⟩ := hereLeft.reset_reads shape
  obtain ⟨first', second', third'⟩ := hereRight.reset_reads shape
  rw [arenaReset, released] at reset
  simp only [mem, first, second, third, Option.some.injEq] at reset
  subst reset
  refine ⟨_, ?_, (((Follows.storeWord _ _ _ _).trans (Follows.storeWord _ _ _ _)).trans
    (Follows.storeWord _ _ _ _)).trans (Follows.storeWord _ _ _ _)⟩
  rw [arenaReset, again]
  simp only [first', second', third']

end BcAllocators
