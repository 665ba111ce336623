import BcAllocators.Arena.Contents

/-!
# The functions on chunks

What the loops and helpers of the arena do to a world in which the chunks are
represented: when a chunk serves a request (`tryAllocInChunk_eq`), how large a
new chunk is (`growMmapSize_eq_some`), and what a walk along the chain releases,
erases, advises or sums. A walk ends because the chain does, and chunks that are
apart are fewer than the steps it is given.

The tally is what the tracking keeps of all this, and `ArenaUpdate` says that
nothing else of the context changes.
-/

set_option autoImplicit false

namespace BcAllocators

open Machine

/-! ## What arenas change in the context -/

/-- The figures of the tracking of arenas. -/
structure ArenaTally where
  created : Nat
  destroyed : Nat
  total : Nat
  mapped : Nat
  peak : Nat
deriving DecidableEq, Repr

def Context.arenaTally (ctx : Context) : ArenaTally :=
  ⟨ctx.arenaCreateCount, ctx.arenaDestroyCount, ctx.arenaTotalBytes, ctx.totalMappedBytes,
    ctx.peakMappedBytes⟩

namespace ArenaTally

/-- The tally after a block has joined an arena. -/
def charge (bytes : Nat) (tally : ArenaTally) : ArenaTally :=
  { tally with
    total := wadd tally.total bytes
    mapped := wadd tally.mapped bytes
    peak := if wadd tally.mapped bytes > tally.peak then wadd tally.mapped bytes else tally.peak }

/-- The tally after a block has left an arena. -/
def credit (tally : ArenaTally) (bytes : Nat) : ArenaTally :=
  { tally with total := wsub tally.total bytes, mapped := wsub tally.mapped bytes }

/-- The tally after a creation. -/
def create (bytes : Nat) (tally : ArenaTally) : ArenaTally :=
  { tally with created := wadd tally.created 1 }.charge bytes

/-- The tally after blocks have left an arena, one after the other. -/
def creditAll (sizes : List Nat) (tally : ArenaTally) : ArenaTally := sizes.foldl credit tally

/-- The tally after an arena has been given up with its first block. -/
def destroy (bytes : Nat) (tally : ArenaTally) : ArenaTally :=
  { tally with destroyed := wadd tally.destroyed 1 }.credit bytes

end ArenaTally

/-- Only the arena cache and the tally have changed, the tally as given when
tracking is enabled. -/
def ArenaUpdate (change : ArenaTally → ArenaTally) (ctx ctx' : Context) : Prop :=
  ∃ cache tally,
    (ctx.trackingEnabled = true → tally = change ctx.arenaTally) ∧
    ctx' = { ctx with
      arenaCache := cache, arenaCreateCount := tally.created,
      arenaDestroyCount := tally.destroyed, arenaTotalBytes := tally.total,
      totalMappedBytes := tally.mapped, peakMappedBytes := tally.peak }

/-- The mappings of a context that are its own. -/
def Context.ownBlocks (ctx : Context) : List Extent :=
  [⟨ctx.region.pageClassBase, ctx.region.pageClassSize⟩,
    ⟨ctx.region.base, ctx.region.totalSize⟩, ⟨ctx.address, ctx.contextMmapSize⟩]

namespace ArenaUpdate

variable {change change' : ArenaTally → ArenaTally} {ctx ctx' ctx'' : Context}

theorem refl (ctx : Context) : ArenaUpdate id ctx ctx := ⟨_, ctx.arenaTally, fun _ => rfl, rfl⟩

theorem trans (first : ArenaUpdate change ctx ctx') (second : ArenaUpdate change' ctx' ctx'') :
    ArenaUpdate (change' ∘ change) ctx ctx'' := by
  obtain ⟨_, tally, changed, rfl⟩ := first
  obtain ⟨_, tally', changed', rfl⟩ := second
  refine ⟨_, tally', fun enabled => ?_, rfl⟩
  rw [changed' enabled, Function.comp_apply, ← changed enabled]
  rfl

/-- A step without tracking before another step. -/
theorem idThen (first : ArenaUpdate id ctx ctx') (second : ArenaUpdate change ctx' ctx'') :
    ArenaUpdate change ctx ctx'' := first.trans second

/-- A step without tracking after another step. -/
theorem thenId (first : ArenaUpdate change ctx ctx') (second : ArenaUpdate id ctx' ctx'') :
    ArenaUpdate change ctx ctx'' := first.trans second

theorem cache (ctx : Context) (cache : ArenaCache) :
    ArenaUpdate id ctx { ctx with arenaCache := cache } :=
  ⟨cache, ctx.arenaTally, fun _ => rfl, rfl⟩

/-- What creation has fixed stays. -/
theorem fixed (update : ArenaUpdate change ctx ctx') :
    ctx'.pageSize = ctx.pageSize ∧ ctx'.address = ctx.address ∧
      ctx'.trackingEnabled = ctx.trackingEnabled ∧ ctx'.leakCallback = ctx.leakCallback ∧
      ctx'.ownBlocks = ctx.ownBlocks := by
  obtain ⟨_, _, _, rfl⟩ := update
  exact ⟨rfl, rfl, rfl, rfl, rfl⟩

/-- The tally of a context with tracking. -/
theorem tally (update : ArenaUpdate change ctx ctx') (enabled : ctx.trackingEnabled = true) :
    ctx'.arenaTally = change ctx.arenaTally := by
  obtain ⟨_, tally, changed, rfl⟩ := update
  exact changed enabled

/-- A tracking function changes the tally alone. -/
theorem track (tally : ArenaTally)
    (enabled : ctx.trackingEnabled = true → tally = change ctx.arenaTally)
    (same : ctx' = { ctx with
      arenaCreateCount := tally.created, arenaDestroyCount := tally.destroyed,
      arenaTotalBytes := tally.total, totalMappedBytes := tally.mapped,
      peakMappedBytes := tally.peak }) : ArenaUpdate change ctx ctx' :=
  ⟨ctx.arenaCache, tally, enabled, same⟩

theorem trackCreate (ctx : Context) (mmapSize : Nat) :
    ArenaUpdate (ArenaTally.create mmapSize) ctx (trackCreate ctx mmapSize) := by
  simp only [BcAllocators.trackCreate]
  split
  · exact track (ctx.arenaTally.create mmapSize) (fun _ => rfl) rfl
  · next disabled => exact track ctx.arenaTally (fun enabled => absurd enabled disabled) rfl

theorem trackGrow (ctx : Context) (mmapSize : Nat) :
    ArenaUpdate (ArenaTally.charge mmapSize) ctx (trackGrow ctx mmapSize) := by
  simp only [BcAllocators.trackGrow]
  split
  · exact track (ctx.arenaTally.charge mmapSize) (fun _ => rfl) rfl
  · next disabled => exact track ctx.arenaTally (fun enabled => absurd enabled disabled) rfl

theorem trackRelease (ctx : Context) (mmapSize : Nat) :
    ArenaUpdate (ArenaTally.credit · mmapSize) ctx (trackRelease ctx mmapSize) := by
  simp only [BcAllocators.trackRelease]
  split
  · exact track (ctx.arenaTally.credit mmapSize) (fun _ => rfl) rfl
  · next disabled => exact track ctx.arenaTally (fun enabled => absurd enabled disabled) rfl

theorem trackDestroy (ctx : Context) (mmapSize : Nat) :
    ArenaUpdate (ArenaTally.destroy mmapSize) ctx (trackDestroy ctx mmapSize) := by
  simp only [BcAllocators.trackDestroy]
  split
  · exact track (ctx.arenaTally.destroy mmapSize) (fun _ => rfl) rfl
  · next disabled => exact track ctx.arenaTally (fun enabled => absurd enabled disabled) rfl

/-- A released block is no matter of the tally. -/
theorem releaseBlock (w : World) (block mmapSize : Nat) :
    ArenaUpdate id w.ctx (releaseBlock w block mmapSize).ctx := by
  simp only [BcAllocators.releaseBlock]
  split
  · exact ArenaUpdate.cache _ _
  · exact ArenaUpdate.refl _

end ArenaUpdate

@[simp] theorem releaseBlock_mem (w : World) (block mmapSize : Nat) :
    (releaseBlock w block mmapSize).mem = w.mem := by
  simp only [releaseBlock]
  split <;> rfl

@[simp] theorem trackRelease_arenaCache (ctx : Context) (mmapSize : Nat) :
    (trackRelease ctx mmapSize).arenaCache = ctx.arenaCache := by
  simp only [trackRelease]
  split <;> rfl

@[simp] theorem trackDestroy_arenaCache (ctx : Context) (mmapSize : Nat) :
    (trackDestroy ctx mmapSize).arenaCache = ctx.arenaCache := by
  simp only [trackDestroy]
  split <;> rfl

@[simp] theorem trackGrow_arenaCache (ctx : Context) (mmapSize : Nat) :
    (trackGrow ctx mmapSize).arenaCache = ctx.arenaCache := by
  simp only [trackGrow]
  split <;> rfl

@[simp] theorem trackCreate_arenaCache (ctx : Context) (mmapSize : Nat) :
    (trackCreate ctx mmapSize).arenaCache = ctx.arenaCache := by
  simp only [trackCreate]
  split <;> rfl

/-! ## Requests -/

variable {core : BcCore} {platform : Platform} {m m' : Memory} {c : Chunk}

/-- The test of an alignment for being a power of two. -/
theorem alignment_test {alignment : Nat} :
    ¬ alignment = 0 ∧ ¬ alignment &&& (alignment - 1) ≠ 0 ↔ alignment.isPowerOfTwo := by
  rw [← Nat.ne_zero_and_sub_one_eq_zero_iff_isPowerOfTwo, ne_eq, ne_eq, not_not]

/-- **A chunk serves a request** when it fits behind the first aligned address. -/
theorem tryAllocInChunk_eq (core : BcCore) (here : c.At m) (fit : c.Fit) (stop : c.stop < 2 ^ 64)
    {size alignment : Nat} (sizeWord : size < 2 ^ 64) (alignmentWord : alignment < 2 ^ 64)
    (power : alignment.isPowerOfTwo) :
    tryAllocInChunk core m c.header size alignment =
      if c.offer alignment + size ≤ c.stop then
        (storeWord m (c.header + 24) (c.offer alignment + size - c.start),
          some (c.offer alignment))
      else (m, none) := by
  have whole := fit.start_add_capacity
  have used := fit.used
  have above : c.start + c.used ≤ c.offer alignment := le_roundUp (isPowerOfTwo_pos power)
  have current : c.start + c.used < 2 ^ 64 := by omega
  have aligned : core.alignUp (c.start + c.used) alignment =
      if c.offer alignment < 2 ^ 64 then some (c.offer alignment) else none :=
    core.alignUp_eq current alignmentWord power
  simp only [tryAllocInChunk, here.memoryStart, here.used, here.capacity]
  rw [wadd_of_lt current, aligned]
  by_cases small : c.offer alignment < 2 ^ 64
  · rw [if_pos small]
    dsimp only
    rw [wsub_of_le (by omega) small, core.safeAdd_eq (by omega) sizeWord]
    by_cases sum : c.offer alignment - c.start + size < 2 ^ 64
    · rw [if_pos sum]
      dsimp only
      by_cases fits : c.offer alignment + size ≤ c.stop
      · rw [if_neg (by omega), if_pos fits]
        rw [show c.offer alignment - c.start + size = c.offer alignment + size - c.start by omega,
          show c.start + (c.offer alignment - c.start) = c.offer alignment by omega]
      · rw [if_pos (by omega), if_neg fits]
    · rw [if_neg sum, if_neg (by omega)]
  · rw [if_neg small, if_neg (by omega)]

/-! ## New chunks -/

theorem targetCapacity_lt (lastCapacity : Nat) {maxChunkSize minCapacity : Nat}
    (maxWord : maxChunkSize < 2 ^ 64) (minWord : minCapacity < 2 ^ 64) :
    targetCapacity lastCapacity maxChunkSize minCapacity < 2 ^ 64 := by
  have double := wmul_lt lastCapacity 2
  simp only [targetCapacity]
  split_ifs <;> assumption

/-- A new chunk is at least as large as the request needs. -/
theorem le_targetCapacity (lastCapacity maxChunkSize minCapacity : Nat) :
    minCapacity ≤ targetCapacity lastCapacity maxChunkSize minCapacity := by
  simp only [targetCapacity]
  split_ifs <;> omega

/-- The block of a new chunk has a size when header and target are a word in whole
pages. -/
theorem growMmapSize_eq (core : BcCore) {w : World} (arena minCapacity : Nat)
    (pageSize : w.ctx.pageSize = platform.pageSize) :
    growMmapSize core w arena minCapacity =
      (core.safeAdd chunkHeaderAligned
        (targetCapacity (chunkCapacity w.mem (arenaCurrentChunk w.mem arena))
          (arenaMaxChunkSize w.mem arena) minCapacity)).bind
        fun raw => core.alignUp raw platform.pageSize := by
  simp only [growMmapSize, pageSize]
  cases core.safeAdd chunkHeaderAligned _ <;> rfl

theorem growMmapSize_eq_some_iff (core : BcCore) {w : World} {arena minCapacity mmapSize : Nat}
    (pageSize : w.ctx.pageSize = platform.pageSize) (minWord : minCapacity < 2 ^ 64) :
    growMmapSize core w arena minCapacity = some mmapSize ↔
      mmapSize = roundUp (chunkHeaderAligned +
          targetCapacity (chunkCapacity w.mem (arenaCurrentChunk w.mem arena))
            (arenaMaxChunkSize w.mem arena) minCapacity) platform.pageSize ∧
        mmapSize < 2 ^ 64 := by
  have word := targetCapacity_lt (chunkCapacity w.mem (arenaCurrentChunk w.mem arena))
    (loadWord_lt w.mem (arena + 40)) minWord
  have page : platform.pageSize < 2 ^ 64 := platform.pageSize_lt.trans (by decide)
  rw [growMmapSize_eq core arena minCapacity pageSize]
  exact core.padded_eq_some (by decide) word page platform.pageSize_power

/-- **The block of a new chunk**: whole pages, with room for the header and the
capacity asked for. -/
theorem growMmapSize_eq_some (core : BcCore) {w : World} {arena minCapacity mmapSize : Nat}
    (pageSize : w.ctx.pageSize = platform.pageSize) (minWord : minCapacity < 2 ^ 64)
    (sized : growMmapSize core w arena minCapacity = some mmapSize) :
    platform.pageSize ∣ mmapSize ∧ mmapSize < 2 ^ 64 ∧
      chunkHeaderAligned + minCapacity ≤ mmapSize := by
  have least := le_targetCapacity (chunkCapacity w.mem (arenaCurrentChunk w.mem arena))
    (arenaMaxChunkSize w.mem arena) minCapacity
  obtain ⟨rfl, fits⟩ := (growMmapSize_eq_some_iff core pageSize minWord).mp sized
  exact ⟨dvd_roundUp _ _, fits,
    (Nat.add_le_add_left least _).trans (le_roundUp platform.pageSize_pos)⟩

/-! ## Walks along the chain -/

/-- **Releasing the chunks behind the first.** Every block of the chain leaves the
arena, and is credited. -/
theorem releaseChunks_spec {own foreign rest : List Extent} {chunks : List Chunk} :
    ∀ {fuel p : Nat} {w : World}, chunks.length < fuel →
      Linked (chunkNext w.mem) p (chunks.map Chunk.header) →
      (∀ c ∈ chunks, c.lead = 0 ∧ c.At w.mem) →
      Ledger platform w (chunks.map Chunk.extent ++ rest) own foreign →
      ∃ w', releaseChunks fuel w p = some w' ∧ w'.mem = w.mem ∧
        Ledger platform w' rest own foreign ∧
        ArenaUpdate (ArenaTally.creditAll (chunks.map Chunk.mmapSize)) w.ctx w'.ctx := by
  induction chunks with
  | nil =>
      intro fuel p w enough linked _ ledger
      obtain ⟨fuel, rfl⟩ := Nat.exists_eq_add_one_of_ne_zero (Nat.ne_zero_of_lt enough)
      have null : p = NULL := linked
      refine ⟨w, ?_, rfl, ledger, ArenaUpdate.refl w.ctx⟩
      rw [releaseChunks, if_pos null]
  | cons c chunks ih =>
      intro fuel p w enough linked here ledger
      obtain ⟨fuel, rfl⟩ := Nat.exists_eq_add_one_of_ne_zero (Nat.ne_zero_of_lt enough)
      obtain ⟨rfl, nonnull, tail⟩ := linked
      obtain ⟨lead, atHeader⟩ := here c List.mem_cons_self
      have block : c.header = c.block := by rw [Chunk.header, lead, Nat.add_zero]
      have tracked : Ledger platform { w with ctx := trackRelease w.ctx c.mmapSize }
          (c.extent :: (chunks.map Chunk.extent ++ rest)) own foreign :=
        ledger.congr rfl (trackRelease_arenaCache w.ctx c.mmapSize)
      have released : Ledger platform
          (releaseBlock { w with ctx := trackRelease w.ctx c.mmapSize } c.header c.mmapSize)
          (chunks.map Chunk.extent ++ rest) own foreign := by
        rw [block]
        exact tracked.release (.refl _)
      have update := (ArenaUpdate.trackRelease w.ctx c.mmapSize).thenId
        (ArenaUpdate.releaseBlock { w with ctx := trackRelease w.ctx c.mmapSize } c.header
          c.mmapSize)
      obtain ⟨w', result, mem, after, updates⟩ := ih (Nat.lt_of_succ_lt_succ enough)
        (by rw [releaseBlock_mem]; exact tail)
        (by rw [releaseBlock_mem]; exact fun d member => here d (List.mem_cons_of_mem c member))
        released
      refine ⟨w', ?_, mem.trans (releaseBlock_mem _ _ _), after, update.trans updates⟩
      rw [releaseChunks, if_neg (show c.header ≠ NULL from nonnull), atHeader.mmapSize]
      exact result

/-- The payload of a chunk starts behind its header, inside a page. -/
theorem payload_unaligned (c : Chunk) (block : platform.pageSize ∣ c.block)
    (lead : c.lead = 0 ∨ c.lead = arenaHeaderAligned) : c.start % platform.pageSize ≠ 0 := by
  have page := platform.pageSize_ge
  have small : c.lead + chunkHeaderAligned < platform.pageSize := by
    simp only [arenaHeaderAligned, chunkHeaderAligned] at *
    omega
  rw [Chunk.start, Nat.add_assoc, Nat.add_mod, Nat.mod_eq_zero_of_dvd block, Nat.zero_add,
    Nat.mod_mod, Nat.mod_eq_of_lt small]
  simp only [chunkHeaderAligned]
  omega

/-- Advice about a payload is refused, because it does not start at a page. -/
theorem adviseDontNeed_payload {len : Nat} (block : platform.pageSize ∣ c.block)
    (lead : c.lead = 0 ∨ c.lead = arenaHeaderAligned) :
    adviseDontNeed platform m c.start len = m :=
  adviseDontNeed_unaligned (payload_unaligned c block lead)

/-- A chunk that the advice and the erasure of payloads can be applied to. -/
structure Chunk.Walked (platform : Platform) (m : Memory) (c : Chunk) : Prop where
  here : c.At m
  fit : c.Fit
  block : platform.pageSize ∣ c.block
  lead : c.lead = 0 ∨ c.lead = arenaHeaderAligned

/-- The used parts of the payloads. -/
def usedPayloads (chunks : List Chunk) : Set Nat :=
  {b | ∃ c ∈ chunks, c.start ≤ b ∧ b < c.start + c.used}

/-- The used part of a payload lies in its block. -/
theorem Chunk.Fit.mem_extent_of_used (fit : c.Fit) {b : Nat} (lower : c.start ≤ b)
    (upper : b < c.start + c.used) : b ∈ c.extent.bytes := by
  have whole := fit.start_add_capacity
  have used := fit.used
  refine Extent.mem_bytes.mpr ⟨?_, ?_⟩
  · exact ((Nat.le_add_right _ _).trans (Nat.le_add_right _ _)).trans lower
  · change b < c.stop
    omega

/-- The used parts of the payloads are apart from the headers. -/
theorem usedPayloads_not_header {chunks : List Chunk} (fit : ∀ c ∈ chunks, c.Fit)
    (apart : (chunks.map Chunk.extent).Pairwise Extent.Apart) (member : c ∈ chunks) {b : Nat}
    (lower : c.block ≤ b) (upper : b < c.start) : b ∉ usedPayloads chunks := by
  rintro ⟨d, inChunks, above, below⟩
  by_cases same : d = c
  · rw [same] at above
    exact Nat.not_lt.mpr above upper
  · have symmetric : Std.Symm fun c d : Chunk => c.extent.Apart d.extent :=
      ⟨fun _ _ apart => apart.symm⟩
    have distinct : d.extent.Apart c.extent :=
      (List.pairwise_map.mp apart).forall inChunks member same
    exact distinct.disjoint ((fit d inChunks).mem_extent_of_used above below)
      ((fit c member).mem_extent lower upper)

/-- **Erasing and advising the payloads.** The used bytes of every chunk of the chain
are zero afterwards, and nothing else changes. -/
theorem secureChunks_spec (core : BcCore) {chunks : List Chunk} :
    ∀ {fuel p : Nat} {m : Memory}, chunks.length < fuel →
      Linked (chunkNext m) p (chunks.map Chunk.header) →
      (∀ c ∈ chunks, c.Walked platform m) →
      (chunks.map Chunk.extent).Pairwise Extent.Apart →
      ∃ m', secureChunks core platform fuel m p = some m' ∧
        ChangesOnly (usedPayloads chunks) m m' ∧ ∀ b ∈ usedPayloads chunks, m' b = 0 := by
  induction chunks with
  | nil =>
      intro fuel p m enough linked _ _
      obtain ⟨fuel, rfl⟩ := Nat.exists_eq_add_one_of_ne_zero (Nat.ne_zero_of_lt enough)
      have null : p = NULL := linked
      refine ⟨m, by rw [secureChunks, if_pos null], ChangesOnly.refl _ m, ?_⟩
      rintro b ⟨c, member, _⟩
      cases member
  | cons c chunks ih =>
      intro fuel p m enough linked walked apart
      obtain ⟨fuel, rfl⟩ := Nat.exists_eq_add_one_of_ne_zero (Nat.ne_zero_of_lt enough)
      obtain ⟨rfl, nonnull, tail⟩ := linked
      obtain ⟨here, fit, block, lead⟩ := walked c List.mem_cons_self
      have erased : ChangesOnly (usedPayloads (c :: chunks)) m (fillBytes m c.start c.used 0) :=
        (changesOnly_fillBytes m c.start c.used 0).mono fun b inside =>
          ⟨c, List.mem_cons_self, inside.1, inside.2⟩
      -- the erased bytes are apart from all headers, so the walk goes on unchanged
      have headers : ∀ d ∈ c :: chunks, ∀ b ∈ d.zone.bytes,
          fillBytes m c.start c.used 0 b = m b := fun d member b inside =>
        erased b (usedPayloads_not_header (fun e inChunks => (walked e inChunks).fit) apart
          member ((Nat.le_add_right _ _).trans (Extent.mem_bytes.mp inside).1)
          (Extent.mem_bytes.mp inside).2)
      have tail' : Linked (chunkNext (fillBytes m c.start c.used 0)) (chunkNext m c.header)
          (chunks.map Chunk.header) := by
        refine tail.congr fun q member => ?_
        obtain ⟨d, inChunks, rfl⟩ := List.mem_map.mp member
        exact Chunk.next_congr (headers d (List.mem_cons_of_mem c inChunks))
      have walked' : ∀ d ∈ chunks, d.Walked platform (fillBytes m c.start c.used 0) := by
        intro d member
        have old := walked d (List.mem_cons_of_mem c member)
        exact { old with here := old.here.congr (headers d (List.mem_cons_of_mem c member)) }
      obtain ⟨m', result, changes, zero⟩ := ih (Nat.lt_of_succ_lt_succ enough) tail' walked'
        (List.pairwise_cons.mp apart).2
      refine ⟨m', ?_, erased.trans (changes.mono ?_), ?_⟩
      · rw [secureChunks, if_neg (show c.header ≠ NULL from nonnull)]
        have first := here.congr (headers c List.mem_cons_self)
        simp only [here.memoryStart, here.used, core.zeroSecure_eq, first.memoryStart,
          adviseDontNeed_payload block lead]
        rwa [Chunk.next_congr (headers c List.mem_cons_self)]
      · rintro b ⟨d, member, inside⟩
        exact ⟨d, List.mem_cons_of_mem c member, inside⟩
      · intro b inside
        by_cases later : b ∈ usedPayloads chunks
        · exact zero b later
        · obtain ⟨d, member, used⟩ := inside
          rcases List.mem_cons.mp member with rfl | inChunks
          · exact (changes b later).trans (if_pos used)
          · exact absurd ⟨d, inChunks, used⟩ later

/-- The bytes behind the headers of a chunk. -/
def Chunk.content (c : Chunk) : Extent := ⟨c.start, c.capacity⟩

/-- The ranges that the loop of `bc_allocators_arena_release_pages` gives advice about. -/
def releaseAdvice (platform : Platform) : Nat → Memory → Nat → Option (List Extent)
  | 0, _, _ => none
  | fuel + 1, m, chunk =>
    if chunk = NULL then some []
    else
      let payload : Extent := ⟨chunkMemoryStart m chunk, chunkCapacity m chunk⟩
      let m := adviseDontNeed platform m payload.start payload.size
      (releaseAdvice platform fuel m (chunkNext m chunk)).map (payload :: ·)

/-- Advice about some ranges, one after the other. -/
def adviseAll (platform : Platform) (m : Memory) (ranges : List Extent) : Memory :=
  ranges.foldl (fun m e => adviseDontNeed platform m e.start e.size) m

/-- **The loop does nothing but give its advice.** -/
theorem adviseChunks_eq (platform : Platform) (fuel : Nat) (m : Memory) (p : Nat) :
    adviseChunks platform fuel m p =
      (releaseAdvice platform fuel m p).map (adviseAll platform m) := by
  induction fuel generalizing m p with
  | zero => rfl
  | succ fuel ih =>
      rw [adviseChunks, releaseAdvice]
      split
      · rfl
      · dsimp only
        rw [ih, Option.map_map]
        rfl

/-- The advice is about the payloads of the chunks. -/
theorem releaseAdvice_spec {chunks : List Chunk} :
    ∀ {fuel p : Nat}, chunks.length < fuel →
      Linked (chunkNext m) p (chunks.map Chunk.header) →
      (∀ c ∈ chunks, c.Walked platform m) →
      releaseAdvice platform fuel m p = some (chunks.map Chunk.content) := by
  induction chunks with
  | nil =>
      intro fuel p enough linked _
      obtain ⟨fuel, rfl⟩ := Nat.exists_eq_add_one_of_ne_zero (Nat.ne_zero_of_lt enough)
      have null : p = NULL := linked
      rw [releaseAdvice, if_pos null]
      rfl
  | cons c chunks ih =>
      intro fuel p enough linked walked
      obtain ⟨fuel, rfl⟩ := Nat.exists_eq_add_one_of_ne_zero (Nat.ne_zero_of_lt enough)
      obtain ⟨rfl, nonnull, tail⟩ := linked
      obtain ⟨here, _, block, lead⟩ := walked c List.mem_cons_self
      rw [releaseAdvice, if_neg (show c.header ≠ NULL from nonnull)]
      simp only [here.memoryStart, here.capacity, adviseDontNeed_payload block lead]
      rw [ih (Nat.lt_of_succ_lt_succ enough) tail fun d member =>
        walked d (List.mem_cons_of_mem c member)]
      rfl

/-- **Advising the payloads changes nothing**: no payload starts at a page. -/
theorem adviseAll_payloads {chunks : List Chunk} (walked : ∀ c ∈ chunks, c.Walked platform m) :
    adviseAll platform m (chunks.map Chunk.content) = m := by
  induction chunks with
  | nil => rfl
  | cons c chunks ih =>
      obtain ⟨_, _, block, lead⟩ := walked c List.mem_cons_self
      have same : adviseDontNeed platform m c.content.start c.content.size = m :=
        adviseDontNeed_payload block lead
      rw [List.map_cons, adviseAll, List.foldl_cons, same]
      exact ih fun d member => walked d (List.mem_cons_of_mem c member)

/-- The walk over the chunks ends and changes nothing. -/
theorem adviseChunks_spec {chunks : List Chunk} {fuel p : Nat} (enough : chunks.length < fuel)
    (linked : Linked (chunkNext m) p (chunks.map Chunk.header))
    (walked : ∀ c ∈ chunks, c.Walked platform m) : adviseChunks platform fuel m p = some m := by
  rw [adviseChunks_eq, releaseAdvice_spec enough linked walked, Option.map_some,
    adviseAll_payloads walked]

/-- The figures of some chunks, without wrapping. -/
def chunkFigures (count : Nat) (chunks : List Chunk) : ArenaStats where
  capacity := (chunks.map Chunk.capacity).sum
  used := (chunks.map Chunk.used).sum
  allocationCount := count
  chunkCount := chunks.length
  totalReserved := (chunks.map Chunk.mmapSize).sum

/-- The figures are words. -/
structure ArenaStats.Word (stats : ArenaStats) : Prop where
  capacity : stats.capacity < 2 ^ 64
  used : stats.used < 2 ^ 64
  chunkCount : stats.chunkCount < 2 ^ 64
  totalReserved : stats.totalReserved < 2 ^ 64

/-- **The sums over the chain** are exact when they are words. -/
theorem sumChunks_spec {count : Nat} {chunks : List Chunk} :
    ∀ {fuel p : Nat} {before : List Chunk}, chunks.length < fuel →
      Linked (chunkNext m) p (chunks.map Chunk.header) → (∀ c ∈ chunks, c.At m) →
      (chunkFigures count (before ++ chunks)).Word →
      sumChunks m fuel (chunkFigures count before) p =
        some (chunkFigures count (before ++ chunks)) := by
  induction chunks with
  | nil =>
      intro fuel p before enough linked _ _
      obtain ⟨fuel, rfl⟩ := Nat.exists_eq_add_one_of_ne_zero (Nat.ne_zero_of_lt enough)
      have null : p = NULL := linked
      rw [sumChunks, if_pos null, List.append_nil]
  | cons c chunks ih =>
      intro fuel p before enough linked here word
      obtain ⟨fuel, rfl⟩ := Nat.exists_eq_add_one_of_ne_zero (Nat.ne_zero_of_lt enough)
      obtain ⟨rfl, nonnull, tail⟩ := linked
      have atHeader := here c List.mem_cons_self
      rw [List.append_cons] at word ⊢
      have step := ih (Nat.lt_of_succ_lt_succ enough) tail
        (fun d member => here d (List.mem_cons_of_mem c member)) word
      rw [sumChunks, if_neg (show c.header ≠ NULL from nonnull), ← step, atHeader.mmapSize,
        atHeader.capacity, atHeader.used]
      obtain ⟨capacity, used, length, reserved⟩ := word
      simp only [chunkFigures, List.map_append, List.map_cons, List.map_nil, List.sum_append,
        List.sum_cons, List.sum_nil, List.length_append, List.length_cons, List.length_nil,
        Nat.add_zero, Nat.zero_add] at capacity used length reserved ⊢
      rw [wadd_of_lt (by omega), wadd_of_lt (by omega), wadd_of_lt (by omega),
        wadd_of_lt (by omega)]

end BcAllocators
