import BcAllocators.Arena.Client

/-!
# Recycled blocks

A block is mapped only when the cache has none of its size. All blocks of that size
which the context holds for arenas are then chunks of live arenas, so the mappings of a
size never outnumber the greatest number of chunks of that size that were live at once.
This holds in every run, whatever the arenas, their growth and their resets.

While the cache has room for the blocks that the calls release, no block is unmapped,
and the mappings of a size are exactly that peak (`arena_blocks_peak`). A program that
creates and destroys its arenas in cycles then maps blocks in the first cycle alone.
-/

set_option autoImplicit false

namespace BcAllocators

open Machine

variable {core : BcCore} {platform : Platform} {foreign : List Extent} {s s' t : ArenaState}
variable {w w' : World} {a : ArenaView} {views rest : List ArenaView} {kernel : Kernel}

/-! ## Acquired blocks -/

/-- A kernel has mapped at most one block more than another, of a size that the cache
does not have. -/
inductive Acquires (kernel : Kernel) (w : World) : Prop where
  | nothing (same : w.kernel = kernel) : Acquires kernel w
  | block (e : Extent) (mapped : w.kernel = kernel.map e)
      (lacking : ∀ f ∈ w.ctx.arenaCache.blocks, f.size ≠ e.size) : Acquires kernel w

/-- The rest of the world does not matter. -/
theorem Acquires.congr (acquires : Acquires kernel w) (same : w'.kernel = w.kernel)
    (cache : w'.ctx.arenaCache = w.ctx.arenaCache) : Acquires kernel w' := by
  cases acquires with
  | nothing idle => exact .nothing (same.trans idle)
  | block e mapped lacking => exact .block e (same.trans mapped) (cache ▸ lacking)

/-- **A block is mapped when the cache has none of its size.** -/
theorem mapBlock_acquires {mmapSize block : Nat} {answer : Option Nat}
    (mapped : mapBlock platform w mmapSize answer = some (w', block)) :
    Acquires w.kernel w' := by
  simp only [mapBlock] at mapped
  split at mapped
  · cases mapped
    exact .nothing rfl
  · next missing =>
      split at mapped
      · cases mapped
      · next granted =>
          cases mapped
          obtain ⟨_, _, rfl, rfl⟩ := platformMap_eq_some.mp granted
          refine .block ⟨block, mmapSize⟩ rfl fun f member same => ?_
          have found := ArenaCache.find_isSome_iff.mpr ⟨f, member, same⟩
          rw [missing] at found
          cases found

theorem arenaMakeFirst_acquires (core : BcCore) (platform : Platform) (w : World)
    (capacity initialChunkSize maxChunkSize : Nat) (growable : Bool) (answer : Option Nat) :
    Acquires w.kernel
      (arenaMakeFirst core platform w capacity initialChunkSize maxChunkSize growable answer).1 := by
  simp only [arenaMakeFirst]
  split
  · exact .nothing rfl
  split
  · exact .nothing rfl
  split
  · exact .nothing rfl
  · next mapped => exact (mapBlock_acquires mapped).congr rfl (trackCreate_arenaCache _ _)

theorem arenaCreateGrowable_acquires (core : BcCore) (platform : Platform) (w : World)
    (initialChunkSize maxChunkSize : Nat) (answer : Option Nat) :
    Acquires w.kernel
      (arenaCreateGrowable core platform w initialChunkSize maxChunkSize answer).1 := by
  simp only [arenaCreateGrowable]
  split
  · exact .nothing rfl
  split
  · exact .nothing rfl
  · exact arenaMakeFirst_acquires _ _ _ _ _ _ _ _

theorem arenaGrow_acquires (core : BcCore) (platform : Platform) (w : World)
    (arena minCapacity : Nat) (answer : Option Nat) :
    Acquires w.kernel (arenaGrow core platform w arena minCapacity answer).1 := by
  simp only [arenaGrow]
  split
  · exact .nothing rfl
  split
  · exact .nothing rfl
  · next mapped => exact (mapBlock_acquires mapped).congr rfl (trackGrow_arenaCache _ _)

theorem arenaAllocate_acquires (core : BcCore) (platform : Platform) (w : World)
    (arena size alignment : Nat) (answer : Option Nat) :
    Acquires w.kernel (arenaAllocate core platform w arena size alignment answer).1 := by
  simp only [arenaAllocate]
  split
  · exact .nothing rfl
  split
  · exact .nothing rfl
  split
  · exact .nothing rfl
  split
  · exact .nothing rfl
  have grown := arenaGrow_acquires core platform w arena (wadd size alignment) answer
  split
  · next same =>
      rw [same] at grown
      exact grown
  · next same =>
      rw [same] at grown
      split
      · exact grown.congr rfl rfl
      · exact grown

theorem arenaCopyString_acquires (core : BcCore) (platform : Platform) (w : World)
    (arena source : Nat) (answer : Option Nat) :
    Acquires w.kernel (arenaCopyString core platform w arena source answer).1 := by
  have allocated := arenaAllocate_acquires core platform w arena
    (wadd (core.length w.mem source) 1) 1 answer
  simp only [arenaCopyString]
  split
  · next same =>
      rw [same] at allocated
      exact allocated
  · next same =>
      rw [same] at allocated
      exact allocated.congr rfl rfl

/-! ## Released blocks -/

/-- A released block is unmapped at most. -/
theorem releaseBlock_mapped (w : World) (block mmapSize : Nat) :
    (releaseBlock w block mmapSize).kernel.mapped.Sublist w.kernel.mapped := by
  simp only [releaseBlock]
  split
  · exact List.Sublist.refl _
  · exact List.erase_sublist

/-- A released block goes to the cache when there is room. -/
theorem releaseBlock_room (block mmapSize : Nat) (room : w.ctx.arenaCache.count < arenaCacheSize) :
    (releaseBlock w block mmapSize).kernel = w.kernel ∧
      (releaseBlock w block mmapSize).ctx.arenaCache.count = w.ctx.arenaCache.count + 1 := by
  rw [releaseBlock, dif_pos room]
  exact ⟨rfl, rfl⟩

theorem releaseChunks_mapped {fuel : Nat} :
    ∀ {w : World} {chunk : Nat}, releaseChunks fuel w chunk = some w' →
      w'.kernel.mapped.Sublist w.kernel.mapped := by
  induction fuel with
  | zero =>
      intro w chunk released
      cases released
  | succ fuel ih =>
      intro w chunk released
      rw [releaseChunks] at released
      split at released
      · cases released
        exact List.Sublist.refl _
      · exact (ih released).trans (releaseBlock_mapped _ _ _)

/-- **Chunks that the cache has room for are all kept.** -/
theorem releaseChunks_room {chunks : List Nat} :
    ∀ {fuel chunk : Nat} {w : World}, Linked (chunkNext w.mem) chunk chunks →
      w.ctx.arenaCache.count + chunks.length ≤ arenaCacheSize →
      releaseChunks fuel w chunk = some w' →
      w'.kernel = w.kernel ∧
        w'.ctx.arenaCache.count = w.ctx.arenaCache.count + chunks.length := by
  induction chunks with
  | nil =>
      intro fuel chunk w linked _ released
      obtain rfl : chunk = NULL := linked
      cases fuel with
      | zero => cases released
      | succ fuel =>
          rw [releaseChunks, if_pos rfl] at released
          cases released
          exact ⟨rfl, rfl⟩
  | cons c chunks ih =>
      intro fuel chunk w linked room released
      obtain ⟨rfl, nonnull, tail⟩ := linked
      rw [List.length_cons] at room ⊢
      cases fuel with
      | zero => cases released
      | succ fuel =>
          rw [releaseChunks, if_neg (show chunk ≠ NULL from nonnull)] at released
          let credited : World :=
            { w with ctx := trackRelease w.ctx (chunkMmapSize w.mem chunk) }
          have cache : credited.ctx.arenaCache = w.ctx.arenaCache := trackRelease_arenaCache _ _
          obtain ⟨same, count⟩ := releaseBlock_room (w := credited) chunk
            (chunkMmapSize w.mem chunk) (by rw [cache]; omega)
          rw [cache] at count
          have mem : (releaseBlock credited chunk (chunkMmapSize w.mem chunk)).mem = w.mem :=
            releaseBlock_mem _ _ _
          obtain ⟨same', count'⟩ := ih (by rw [mem]; exact tail) (by rw [count]; omega) released
          exact ⟨same'.trans same, by rw [count', count]; omega⟩

theorem arenaReset_mapped {arena : Nat} (returns : arenaReset w arena = some w') :
    w'.kernel.mapped.Sublist w.kernel.mapped := by
  rw [arenaReset] at returns
  split at returns
  · cases returns
  · next released =>
      cases returns
      have fewer := releaseChunks_mapped released
      exact fewer

theorem arenaDestroy_mapped {arena : Nat} (returns : arenaDestroy w arena = some w') :
    w'.kernel.mapped.Sublist w.kernel.mapped := by
  rw [arenaDestroy] at returns
  split at returns
  · cases returns
  · next released =>
      cases returns
      have fewer := releaseChunks_mapped released
      exact (releaseBlock_mapped _ _ _).trans fewer

/-- A reset keeps all blocks when the cache has room for the chunks behind the first. -/
theorem ArenaHeap.reset_room (heap : ArenaHeap platform w (a :: rest) foreign)
    (room : w.ctx.arenaCache.count + a.grown.length ≤ arenaCacheSize)
    (returns : arenaReset w a.address = some w') : w'.kernel = w.kernel := by
  have linked := (heap.here a List.mem_cons_self).grown_chain
  rw [arenaReset] at returns
  split at returns
  · cases returns
  · next released =>
      cases returns
      exact (releaseChunks_room linked (by rwa [List.length_map]) released).1

/-- A destruction keeps all blocks when the cache has room for all chunks. -/
theorem ArenaHeap.destroy_room (heap : ArenaHeap platform w (a :: rest) foreign)
    (room : w.ctx.arenaCache.count + a.chunks.length ≤ arenaCacheSize)
    (returns : arenaDestroy w a.address = some w') : w'.kernel = w.kernel := by
  have linked := (heap.here a List.mem_cons_self).grown_chain
  rw [a.chunks_eq, List.length_cons] at room
  rw [arenaDestroy] at returns
  split at returns
  · cases returns
  · next w₁ released =>
      cases returns
      obtain ⟨same, count⟩ :=
        releaseChunks_room linked (by rw [List.length_map]; omega) released
      rw [List.length_map] at count
      refine (releaseBlock_room _ _ ?_).1.trans same
      rw [trackDestroy_arenaCache, count]
      omega

/-! ## Steps -/

/-- What a call does to the blocks of a world: it acquires at most one, or releases
chunks of an arena. -/
inductive ArenaTraffic (core : BcCore) (platform : Platform) (w : World) :
    ArenaCall → World → Prop where
  | acquires {call : ArenaCall} {w' : World} (acquires : Acquires w.kernel w') :
      ArenaTraffic core platform w call w'
  | reset {arena : Nat} {w' : World} (returns : arenaReset w arena = some w') :
      ArenaTraffic core platform w (.reset arena) w'
  | resetSecure {arena : Nat} {m : Memory} {w' : World}
      (secured : secureChunks core platform chainFuel w.mem (arenaFirstChunk w.mem arena) = some m)
      (returns : arenaReset { w with mem := m } arena = some w') :
      ArenaTraffic core platform w (.resetSecure arena) w'
  | destroy {arena : Nat} {w' : World} (returns : arenaDestroy w arena = some w') :
      ArenaTraffic core platform w (.destroy arena) w'

/-- **What each call does to the blocks.** -/
theorem ArenaState.perform_traffic {call : ArenaCall} {result : PtrResult}
    (performed : s.perform core platform call = some (s', result)) :
    ArenaTraffic core platform s.world call s'.world := by
  cases call with
  | create capacity answer =>
      cases performed
      exact .acquires (arenaMakeFirst_acquires _ _ _ _ _ _ _ _)
  | createGrowable initialChunkSize maxChunkSize answer =>
      cases performed
      exact .acquires (arenaCreateGrowable_acquires _ _ _ _ _ _)
  | allocate arena size alignment answer =>
      cases performed
      exact .acquires (arenaAllocate_acquires _ _ _ _ _ _ _)
  | copyString arena source answer =>
      cases performed
      exact .acquires (arenaCopyString_acquires _ _ _ _ _ _)
  | reset arena =>
      obtain ⟨w, returns, rfl⟩ := ArenaState.perform_reset performed
      exact .reset returns
  | resetSecure arena =>
      obtain ⟨w, returns, rfl⟩ := ArenaState.perform_resetSecure performed
      rw [arenaResetSecure] at returns
      split at returns
      · cases returns
      · next secured => exact .resetSecure secured returns
  | releasePages arena =>
      obtain ⟨w, returns, rfl⟩ := ArenaState.perform_releasePages performed
      rw [arenaReleasePages] at returns
      split at returns
      · cases returns
      · cases returns
        exact .acquires (.nothing rfl)
  | destroy arena =>
      obtain ⟨w, returns, rfl⟩ := ArenaState.perform_destroy performed
      exact .destroy returns
  | write address bytes =>
      cases performed
      exact .acquires (.nothing rfl)

/-- A call that acquires nothing only unmaps. -/
theorem ArenaTraffic.mapped {call : ArenaCall} (traffic : ArenaTraffic core platform w call w') :
    Acquires w.kernel w' ∨ w'.kernel.mapped.Sublist w.kernel.mapped := by
  cases traffic with
  | acquires acquires => exact Or.inl acquires
  | reset returns => exact Or.inr (arenaReset_mapped returns)
  | resetSecure secured returns =>
      have fewer := arenaReset_mapped returns
      exact Or.inr fewer
  | destroy returns => exact Or.inr (arenaDestroy_mapped returns)

/-- The blocks that a call releases. -/
def ArenaCall.releases (m : Memory) : ArenaCall → Nat
  | .reset arena => (arenaChain m arena).length - 1
  | .resetSecure arena => (arenaChain m arena).length - 1
  | .destroy arena => (arenaChain m arena).length
  | _ => 0

/-- The cache has room for the blocks that the call releases. -/
def ArenaState.HasRoom (s : ArenaState) (event : ArenaEvent) : Prop :=
  s.world.ctx.arenaCache.count + event.call.releases s.world.mem ≤ arenaCacheSize

/-- A live arena, in front of the others, with the number of its chunks. -/
theorem ArenaHeap.front (heap : ArenaHeap platform s.world views foreign)
    (perm : s.arenas.Perm (views.map ArenaView.client)) {arena : Nat} (live : s.Live arena) :
    ∃ a rest, a.address = arena ∧ ArenaHeap platform s.world (a :: rest) foreign ∧
      (arenaChain s.world.mem arena).length = a.chunks.length := by
  obtain ⟨h, member, rfl⟩ := live
  obtain ⟨a, rest, rfl, split, first, _⟩ := ArenaInv.split heap perm member
  refine ⟨a, rest, rfl, first, ?_⟩
  have chain := first.arenaChain_eq List.mem_cons_self
  rw [show a.client.address = a.address from rfl, chain, List.length_map]

/-- **Nothing is unmapped while the cache has room.** -/
theorem ArenaHeap.acquires (heap : ArenaHeap platform s.world views foreign)
    (perm : s.arenas.Perm (views.map ArenaView.client)) {event : ArenaEvent}
    (step : (arenaSystem core platform foreign).Next s event s') (room : s.HasRoom event) :
    Acquires s.world.kernel s'.world := by
  obtain ⟨call, result⟩ := event
  obtain ⟨allowed, performed⟩ := step
  unfold ArenaState.HasRoom at room
  cases ArenaState.perform_traffic performed with
  | acquires acquires => exact acquires
  | reset returns =>
      obtain ⟨a, rest, rfl, first, length⟩ := heap.front perm allowed
      refine .nothing (first.reset_room ?_ returns)
      rwa [ArenaView.grown, List.length_tail, ← length]
  | resetSecure secured returns =>
      obtain ⟨a, rest, rfl, first, length⟩ := heap.front perm allowed
      obtain ⟨linked, walked⟩ := first.walked
      obtain ⟨m, again, erased, _⟩ := secureChunks_spec core first.length_lt linked walked
        (first.shape a List.mem_cons_self).apart
      obtain rfl := Option.some.inj (again.symm.trans secured)
      refine .nothing ((first.payload erased).reset_room ?_ returns)
      rwa [ArenaView.grown, List.length_tail, ← length]
  | destroy returns =>
      obtain ⟨a, rest, rfl, first, length⟩ := heap.front perm allowed
      exact .nothing (first.destroy_room (length ▸ room) returns)

/-! ## Blocks of a size -/

/-- The blocks of a size among some. -/
def countSize (blocks : List Extent) (size : Nat) : Nat := blocks.countP fun e => e.size = size

/-- The chunks of a size in the live arenas. -/
def ArenaState.chunksOf (size : Nat) (s : ArenaState) : Nat :=
  countSize (liveBlocks s.world.mem s.arenas) size

/-- The mappings of a size. -/
def ArenaState.mappingsOf (size : Nat) (s : ArenaState) : Nat :=
  countSize s.world.kernel.mapped size

/-- The mappings of a size that arenas have no part in. -/
def ArenaState.othersOf (foreign : List Extent) (size : Nat) (s : ArenaState) : Nat :=
  countSize (s.world.ctx.ownBlocks ++ foreign) size

theorem countSize_append (blocks others : List Extent) (size : Nat) :
    countSize (blocks ++ others) size = countSize blocks size + countSize others size :=
  List.countP_append

/-- **The mappings of a size** are chunks, cached blocks or none of the arenas'. -/
theorem ArenaHeap.mappingsOf_eq (heap : ArenaHeap platform s.world views foreign)
    (perm : s.arenas.Perm (views.map ArenaView.client)) (size : Nat) :
    s.mappingsOf size = s.chunksOf size + countSize s.world.ctx.arenaCache.blocks size +
      s.othersOf foreign size := by
  have live : s.chunksOf size = countSize (arenaBlocks views) size :=
    (heap.liveBlocks_perm perm).countP_eq _
  have all : s.mappingsOf size = _ := heap.ledger.mapped.countP_eq _
  rw [all, live, ArenaState.othersOf, List.append_assoc]
  simp only [← countSize_append]
  rfl

/-- A move leaves the context's own mappings alone. -/
theorem ArenaMove.ownBlocks {views' : List ArenaView} (move : ArenaMove w views w' views') :
    w'.ctx.ownBlocks = w.ctx.ownBlocks := by
  cases move with
  | stay context => rw [context]
  | create update => exact update.fixed.2.2.2.2
  | serve _ context => rw [context]
  | grow _ update => exact update.fixed.2.2.2.2
  | growServe _ update => exact update.fixed.2.2.2.2
  | reset _ update => exact update.fixed.2.2.2.2
  | destroy _ update => exact update.fixed.2.2.2.2

/-- **A block is mapped for a chunk that no block of its size is left for.** -/
theorem Acquires.mappingsOf (acquires : Acquires s.world.kernel s'.world)
    (heap : ArenaHeap platform s'.world views foreign)
    (perm : s'.arenas.Perm (views.map ArenaView.client)) (size : Nat) :
    s'.mappingsOf size = s.mappingsOf size ∨
      s'.mappingsOf size = s'.chunksOf size + s'.othersOf foreign size := by
  cases acquires with
  | nothing same =>
      left
      rw [ArenaState.mappingsOf, same]
      rfl
  | block e mapped lacking =>
      by_cases other : e.size = size
      · right
        have none : countSize s'.world.ctx.arenaCache.blocks size = 0 := by
          refine List.countP_eq_zero.mpr fun f member => ?_
          rw [decide_eq_true_eq, ← other]
          exact lacking f member
        rw [heap.mappingsOf_eq perm, none, Nat.add_zero]
      · left
        rw [ArenaState.mappingsOf, mapped]
        exact List.countP_cons_of_neg (by simpa using other)

/-! ## The peak -/

/-- The mappings of a size are no more than the others and the peak of the chunks. -/
structure Recycled (platform : Platform) (foreign : List Extent) (size others peak : Nat)
    (t : ArenaState) : Prop where
  inv : ArenaInv platform foreign t
  same : t.othersOf foreign size = others
  enough : t.mappingsOf size ≤ others + peak

/-- **Each step keeps the mappings to the peak.** -/
theorem Recycled.step {size others peak : Nat} {event : ArenaEvent}
    (recycled : Recycled platform foreign size others peak s)
    (step : (arenaSystem core platform foreign).Next s event s') :
    Recycled platform foreign size others (max peak (s'.chunksOf size)) s' := by
  obtain ⟨views, heap, perm⟩ := recycled.inv
  obtain ⟨views', moved⟩ := ArenaInv.step_moves heap perm step
  have same : s'.othersOf foreign size = others := by
    rw [← recycled.same, ArenaState.othersOf, moved.move.ownBlocks]
    rfl
  refine ⟨⟨views', moved.heap, moved.clients⟩, same, ?_⟩
  have before := recycled.enough
  have left := Nat.le_max_left peak (s'.chunksOf size)
  have right := Nat.le_max_right peak (s'.chunksOf size)
  rcases (ArenaState.perform_traffic step.2).mapped with acquires | fewer
  · rcases acquires.mappingsOf moved.heap moved.clients size with idle | new
    · omega
    · omega
  · have less : s'.mappingsOf size ≤ s.mappingsOf size := fewer.countP_le
    omega

/-- The mappings of a size are the others and the peak of the chunks, and no block
has been unmapped. -/
structure Saturated (platform : Platform) (foreign : List Extent) (size others : Nat)
    (unmapped : List Extent) (peak : Nat) (t : ArenaState) : Prop where
  recycled : Recycled platform foreign size others peak t
  all : others + peak ≤ t.mappingsOf size
  kept : t.world.kernel.unmapLog = unmapped

/-- Correct clients whose calls release no more than the cache has room for. -/
def roomySystem (core : BcCore) (platform : Platform) (foreign : List Extent) :
    System ArenaState ArenaEvent :=
  (arenaSystem core platform foreign).restrict fun s event _ => s.HasRoom event

/-- A kernel that has mapped at most one block more has more mappings of a size. -/
theorem Acquires.mappingsOf_le (acquires : Acquires s.world.kernel s'.world) (size : Nat) :
    s.mappingsOf size ≤ s'.mappingsOf size ∧
      s'.world.kernel.unmapLog = s.world.kernel.unmapLog := by
  cases acquires with
  | nothing same =>
      rw [ArenaState.mappingsOf, ArenaState.mappingsOf, same]
      exact ⟨Nat.le_refl _, rfl⟩
  | block e mapped _ =>
      rw [ArenaState.mappingsOf, ArenaState.mappingsOf, mapped]
      exact ⟨(List.sublist_cons_self e _).countP_le, rfl⟩

/-- **Each step that the cache has room for keeps the mappings at the peak.** -/
theorem Saturated.step {size others peak : Nat} {unmapped : List Extent} {event : ArenaEvent}
    (saturated : Saturated platform foreign size others unmapped peak s)
    (step : (roomySystem core platform foreign).Next s event s') :
    Saturated platform foreign size others unmapped (max peak (s'.chunksOf size)) s' := by
  obtain ⟨next, room⟩ := step
  have recycled := saturated.recycled.step next
  obtain ⟨views, heap, perm⟩ := saturated.recycled.inv
  obtain ⟨views', heap', perm'⟩ := recycled.inv
  obtain ⟨more, kept⟩ := (heap.acquires perm next room).mappingsOf_le size
  have live := heap'.mappingsOf_eq perm' size
  rw [recycled.same] at live
  have before := saturated.all
  exact ⟨recycled, by omega, kept.trans saturated.kept⟩

/-- A fresh context has mapped nothing for arenas. -/
theorem Saturated.start (start : (arenaSystem core platform foreign).Start s) (size : Nat) :
    Saturated platform foreign size (s.mappingsOf size) s.world.kernel.unmapLog
      (s.chunksOf size) s := by
  obtain ⟨config, m, answers, word, created, arenas, _⟩ := start
  have fresh := contextCreate_some word created
  have none : s.chunksOf size = 0 := by
    rw [ArenaState.chunksOf, arenas]
    rfl
  have cache : countSize s.world.ctx.arenaCache.blocks size = 0 := by
    rw [fresh.context]
    exact congrArg (countSize · size) ArenaCache.blocks_empty
  have perm : s.arenas.Perm ([].map ArenaView.client) := List.Perm.of_eq arenas
  have all := fresh.arenaHeap.mappingsOf_eq perm size
  rw [none, cache, Nat.zero_add] at all
  rw [none]
  exact ⟨⟨⟨[], fresh.arenaHeap, perm⟩, all.symm, Nat.le_refl _⟩, Nat.le_refl _, rfl⟩

/-- The mappings of a size, in a run that the cache has room for. -/
theorem Saturated.mappings {size others peak : Nat} {unmapped : List Extent}
    (saturated : Saturated platform foreign size others unmapped peak t) :
    t.mappingsOf size = others + peak :=
  Nat.le_antisymm saturated.recycled.enough saturated.all

/-- **The mappings of a size follow the peak of the chunks.** In every run, with calls
that fail, arenas that grow and blocks of all sizes, the mappings of a size never
outnumber those of the start by more than the greatest number of chunks of that size
that were live at once. While the cache has room for what the calls release, nothing is
unmapped and they outnumber them by exactly that peak; below the peak, nothing more of
that size is mapped. -/
theorem arena_blocks_peak (core : BcCore) (platform : Platform) (foreign : List Extent)
    {s : ArenaState} (start : (arenaSystem core platform foreign).Start s) (size : Nat) :
    (∀ events t peak, (arenaSystem core platform foreign).PeakRun (ArenaState.chunksOf size) s
      events t peak → t.mappingsOf size ≤ s.mappingsOf size + peak) ∧
    ∀ events t peak, (roomySystem core platform foreign).PeakRun (ArenaState.chunksOf size) s
        events t peak →
      t.mappingsOf size = s.mappingsOf size + peak ∧
        t.world.kernel.unmapLog = s.world.kernel.unmapLog ∧
        ∀ events' t' peak', (roomySystem core platform foreign).PeakRun
            (ArenaState.chunksOf size) t events' t' peak' →
          peak' ≤ peak → t'.mappingsOf size = t.mappingsOf size := by
  have fresh := Saturated.start start size
  have saturated : ∀ {events t peak}, (roomySystem core platform foreign).PeakRun
      (ArenaState.chunksOf size) s events t peak →
      Saturated platform foreign size (s.mappingsOf size) s.world.kernel.unmapLog peak t :=
    fun run => run.invariant (fun before step => before.step step) fresh
  constructor
  · intro events t peak run
    exact (run.invariant (fun before step => Recycled.step before step) fresh.recycled).enough
  · intro events t peak run
    have here := saturated run
    refine ⟨here.mappings, here.kept, fun events' t' peak' further below => ?_⟩
    have longer := (saturated (run.append further)).mappings
    rw [Nat.max_eq_left below] at longer
    rw [longer, here.mappings]

/-- Allowed calls that a restriction permits are a run of it, with its peak. -/
theorem restricted_calls {permits : ArenaState → ArenaEvent → ArenaState → Prop}
    {count : ArenaState → Nat} {calls : List ArenaCall}
    (start : (arenaSystem core platform foreign).Start s)
    (allowed : System.AllowsAll (ArenaState.event core platform)
      (fun t call => t.Allows call ∧
        permits t (t.event core platform call).1 (t.event core platform call).2) s calls) :
    ((arenaSystem core platform foreign).restrict permits).PeakRun count s
      (System.performAll (ArenaState.event core platform) s calls).1
      (System.performAll (ArenaState.event core platform) s calls).2
      (System.peakAll (ArenaState.event core platform) count s calls) := by
  have fresh : ((arenaSystem core platform foreign).restrict permits).Start s := start
  refine .of_calls ?_ (.start fresh) allowed
  rintro t call here ⟨allows, permitted⟩
  have reachable : (arenaSystem core platform foreign).Reachable t :=
    here.invariant (fun _ start => .start start) fun before step => before.next step.1
  exact ⟨arena_event_next reachable allows, permitted⟩

instance (s : ArenaState) (event : ArenaEvent) : Decidable (s.HasRoom event) :=
  inferInstanceAs (Decidable (_ ≤ _))

/-- Two chunks of two pages are live at once, and one of them goes to the cache: two
blocks of this size have been mapped. -/
theorem arena_blocks_peak_recycledBlock :
    ((∀ events t peak, (arenaSystem BcCore.reference Platform.x86 []).PeakRun
        (ArenaState.chunksOf 8192) smallContext events t peak →
        t.mappingsOf 8192 ≤ smallContext.mappingsOf 8192 + peak) ∧
      recycledBlock.mappingsOf 8192 = smallContext.mappingsOf 8192 + 2 ∧
      recycledBlock.world.kernel.unmapLog = smallContext.world.kernel.unmapLog ∧
      ∀ events' t' peak', (roomySystem BcCore.reference Platform.x86 []).PeakRun
          (ArenaState.chunksOf 8192) recycledBlock events' t' peak' →
        peak' ≤ 2 → t'.mappingsOf 8192 = recycledBlock.mappingsOf 8192) ∧
    recycledBlock.chunksOf 8192 = 1 := by
  have allowed : System.AllowsAll (ArenaState.event BcCore.reference Platform.x86)
      (fun t call => t.Allows call ∧ t.HasRoom (t.event BcCore.reference Platform.x86 call).1)
      smallContext recyclingCalls := by decide +kernel
  have peak : System.peakAll (ArenaState.event BcCore.reference Platform.x86)
      (ArenaState.chunksOf 8192) smallContext recyclingCalls = 2 := by decide +kernel
  have run : (roomySystem BcCore.reference Platform.x86 []).PeakRun (ArenaState.chunksOf 8192)
      smallContext _ recycledBlock _ := restricted_calls smallContext_start allowed
  rw [peak] at run
  obtain ⟨all, roomy⟩ :=
    arena_blocks_peak BcCore.reference Platform.x86 [] smallContext_start 8192
  exact ⟨⟨all, roomy _ _ _ run⟩, by decide +kernel⟩

/-! ## Arenas of one size -/

/-- All chunks of the live arenas have one size, and the cache has an entry for each. -/
structure ArenaState.OneSize (size : Nat) (s : ArenaState) : Prop where
  size : ∀ e ∈ liveBlocks s.world.mem s.arenas, e.size = size
  few : (liveBlocks s.world.mem s.arenas).length ≤ arenaCacheSize

/-- Correct clients whose arenas have few chunks, all of one size. -/
def oneSizeSystem (core : BcCore) (platform : Platform) (foreign : List Extent) (size : Nat) :
    System ArenaState ArenaEvent :=
  (arenaSystem core platform foreign).restrict fun _ _ s' => s'.OneSize size

/-- The most chunks of a size when all have one. -/
def oneSizePeak (size n : Nat) : Nat := if n = size then arenaCacheSize else 0

theorem ArenaState.OneSize.chunksOf_le {size : Nat} (one : s.OneSize size) (n : Nat) :
    s.chunksOf n ≤ oneSizePeak size n := by
  unfold oneSizePeak
  split
  · exact List.countP_le_length.trans one.few
  · next other =>
      refine (List.countP_eq_zero.mpr fun e member => ?_).le
      rw [decide_eq_true_eq, one.size e member]
      exact fun same => other same.symm

/-- A kernel that has only mapped blocks since another. -/
def Kernel.Extends (later earlier : Kernel) : Prop :=
  ∃ new, later.mapped = new ++ earlier.mapped ∧ later.mapLog = new ++ earlier.mapLog ∧
    later.unmapLog = earlier.unmapLog

theorem Kernel.Extends.refl (kernel : Kernel) : kernel.Extends kernel := ⟨[], rfl, rfl, rfl⟩

/-- A step that the cache has room for only maps. -/
theorem Kernel.Extends.step (earlier : t.world.kernel.Extends kernel)
    (inv : ArenaInv platform foreign t) {event : ArenaEvent}
    (step : (roomySystem core platform foreign).Next t event s') :
    s'.world.kernel.Extends kernel := by
  obtain ⟨new, mapped, logged, kept⟩ := earlier
  obtain ⟨views, heap, perm⟩ := inv
  cases heap.acquires perm step.1 step.2 with
  | nothing same => exact ⟨new, same ▸ mapped, same ▸ logged, same ▸ kept⟩
  | block e more _ =>
      refine ⟨e :: new, ?_, ?_, ?_⟩
      · rw [more]
        exact congrArg _ mapped
      · rw [more]
        exact congrArg _ logged
      · rw [more]
        exact kept

/-- A context whose arenas have had few chunks, all of one size, since the start. -/
structure Uniform (platform : Platform) (foreign : List Extent) (size : Nat) (s t : ArenaState) :
    Prop where
  one : t.OneSize size
  recycled : ∀ n, Recycled platform foreign n (s.mappingsOf n) (oneSizePeak size n) t
  kernel : t.world.kernel.Extends s.world.kernel

/-- **The cache has an entry for each chunk and each block in it.** -/
theorem Uniform.entries {size : Nat} (uniform : Uniform platform foreign size s t) :
    t.world.ctx.arenaCache.count + (liveBlocks t.world.mem t.arenas).length ≤ arenaCacheSize := by
  obtain ⟨views, heap, perm⟩ := (uniform.recycled size).inv
  have bound : ∀ n, t.chunksOf n + countSize t.world.ctx.arenaCache.blocks n ≤
      oneSizePeak size n := by
    intro n
    have all := heap.mappingsOf_eq perm n
    have enough := (uniform.recycled n).enough
    have same := (uniform.recycled n).same
    omega
  -- a cached block of another size was once a chunk of that size
  have cached : ∀ e ∈ t.world.ctx.arenaCache.blocks, e.size = size := by
    intro e member
    by_contra other
    have few := bound e.size
    rw [oneSizePeak, if_neg other] at few
    have here : 0 < countSize t.world.ctx.arenaCache.blocks e.size :=
      List.countP_pos_iff.mpr ⟨e, member, decide_eq_true rfl⟩
    omega
  have blocks : countSize t.world.ctx.arenaCache.blocks size = t.world.ctx.arenaCache.count := by
    rw [← ArenaCache.blocks_length]
    exact List.countP_eq_length.mpr fun e member => decide_eq_true (cached e member)
  have chunks : t.chunksOf size = (liveBlocks t.world.mem t.arenas).length :=
    List.countP_eq_length.mpr fun e member => decide_eq_true (uniform.one.size e member)
  have total := bound size
  rw [oneSizePeak, if_pos rfl] at total
  omega

/-- A call releases live chunks. -/
theorem ArenaState.releases_le {call : ArenaCall} (allowed : s.Allows call) :
    call.releases s.world.mem ≤ (liveBlocks s.world.mem s.arenas).length := by
  have chunks : ∀ {arena : Nat}, s.Live arena →
      (arenaChain s.world.mem arena).length ≤ (liveBlocks s.world.mem s.arenas).length := by
    rintro arena ⟨h, member, rfl⟩
    obtain ⟨others, split⟩ := exists_split member
    have all : (liveBlocks s.world.mem s.arenas).Perm _ := split.flatMap_right _
    rw [all.length_eq, List.flatMap_cons, List.length_append, List.length_map]
    exact Nat.le_add_right _ _
  cases call with
  | reset arena => exact (Nat.sub_le _ _).trans (chunks allowed)
  | resetSecure arena => exact (Nat.sub_le _ _).trans (chunks allowed)
  | destroy arena => exact chunks allowed
  | create _ _ => exact Nat.zero_le _
  | createGrowable _ _ _ => exact Nat.zero_le _
  | allocate _ _ _ _ => exact Nat.zero_le _
  | copyString _ _ _ => exact Nat.zero_le _
  | releasePages _ => exact Nat.zero_le _
  | write _ _ => exact Nat.zero_le _

/-- **The cache has room for all that such clients release.** -/
theorem Uniform.step {size : Nat} {event : ArenaEvent}
    (uniform : Uniform platform foreign size s t)
    (step : (oneSizeSystem core platform foreign size).Next t event s') :
    (roomySystem core platform foreign).Next t event s' ∧ Uniform platform foreign size s s' := by
  obtain ⟨next, one⟩ := step
  have room : t.HasRoom event :=
    (Nat.add_le_add_left (ArenaState.releases_le next.1) _).trans uniform.entries
  refine ⟨⟨next, room⟩, one, fun n => ?_,
    uniform.kernel.step (uniform.recycled size).inv ⟨next, room⟩⟩
  obtain ⟨inv, same, enough⟩ := (uniform.recycled n).step next
  rw [Nat.max_eq_left (one.chunksOf_le n)] at enough
  exact ⟨inv, same, enough⟩

theorem Uniform.start (start : (arenaSystem core platform foreign).Start s) (size : Nat) :
    Uniform platform foreign size s s := by
  have none : liveBlocks s.world.mem s.arenas = [] := by
    obtain ⟨_, _, _, _, _, arenas, _⟩ := start
    rw [arenas]
    rfl
  have one : s.OneSize size := by
    constructor
    · rw [none]
      exact List.forall_mem_nil _
    · rw [none]
      exact Nat.zero_le _
  refine ⟨one, fun n => ?_, .refl _⟩
  have fresh := (Saturated.start start n).recycled
  exact ⟨fresh.inv, fresh.same, fresh.enough.trans (Nat.add_le_add_left (one.chunksOf_le n) _)⟩

/-- A further run only maps. -/
theorem Uniform.run {size : Nat} {events : List ArenaEvent}
    (uniform : Uniform platform foreign size s t)
    (run : (oneSizeSystem core platform foreign size).Run t events s') :
    s'.world.kernel.Extends t.world.kernel ∧ Uniform platform foreign size s s' := by
  induction run with
  | nil => exact ⟨.refl _, uniform⟩
  | snoc _ step ih =>
      obtain ⟨later, here⟩ := ih
      obtain ⟨next, after⟩ := here.step step
      exact ⟨later.step (here.recycled size).inv next, after⟩

/-- **A kernel with as many mappings of the size is as it was.** -/
theorem Uniform.kernel_eq {size : Nat} (before : Uniform platform foreign size s t)
    (after : Uniform platform foreign size s s')
    (later : s'.world.kernel.Extends t.world.kernel)
    (same : s'.mappingsOf size = t.mappingsOf size) : s'.world.kernel = t.world.kernel := by
  obtain ⟨old, earlier, _, _⟩ := before.kernel
  obtain ⟨new, mapped, logged, kept⟩ := later
  have counts : ∀ n, s'.mappingsOf n = countSize new n + t.mappingsOf n := by
    intro n
    rw [ArenaState.mappingsOf, mapped, countSize_append]
    rfl
  have least : ∀ n, s.mappingsOf n ≤ t.mappingsOf n := by
    intro n
    rw [ArenaState.mappingsOf, ArenaState.mappingsOf, earlier, countSize_append]
    exact Nat.le_add_left _ _
  obtain rfl : new = [] := by
    refine List.eq_nil_iff_forall_not_mem.mpr fun e member => ?_
    have here : 0 < countSize new e.size :=
      List.countP_pos_iff.mpr ⟨e, member, decide_eq_true rfl⟩
    have more := counts e.size
    by_cases sized : e.size = size
    · rw [sized] at more here
      omega
    · have enough := (after.recycled e.size).enough
      rw [oneSizePeak, if_neg sized] at enough
      have fewer := least e.size
      omega
  cases kernel : s'.world.kernel with
  | mk mapped' mapLog' unmapLog' =>
      rw [kernel] at mapped logged kept
      simp only [List.nil_append] at mapped logged kept
      rw [mapped, logged, kept]

/-- **Arenas of one size are recycled.** While the live arenas have at most four chunks,
all of one size, arenas may be created, filled, reset and destroyed in any order and as
often as the client likes: nothing is unmapped, the blocks mapped are as many as the
peak of the chunks, and a further run that stays below that peak makes no call of the
kernel that maps or unmaps a block. -/
theorem arena_cycles (core : BcCore) (platform : Platform) (foreign : List Extent)
    {s t : ArenaState} {events : List ArenaEvent} {size peak : Nat}
    (start : (arenaSystem core platform foreign).Start s)
    (run : (oneSizeSystem core platform foreign size).PeakRun (ArenaState.chunksOf size) s events
      t peak) :
    t.mappingsOf size = s.mappingsOf size + peak ∧
      t.world.kernel.unmapLog = s.world.kernel.unmapLog ∧
      ∀ events' t' peak', (oneSizeSystem core platform foreign size).PeakRun
          (ArenaState.chunksOf size) t events' t' peak' →
        peak' ≤ peak → t'.world.kernel = t.world.kernel := by
  have uniform := Uniform.start start size
  have roomy : ∀ {events t peak}, (oneSizeSystem core platform foreign size).PeakRun
      (ArenaState.chunksOf size) s events t peak →
      (roomySystem core platform foreign).PeakRun (ArenaState.chunksOf size) s events t peak ∧
        Uniform platform foreign size s t :=
    fun run => run.transfer (fun before step => Uniform.step before step) uniform
  have saturated : ∀ {events t peak}, (oneSizeSystem core platform foreign size).PeakRun
      (ArenaState.chunksOf size) s events t peak →
      Saturated platform foreign size (s.mappingsOf size) s.world.kernel.unmapLog peak t :=
    fun run => (roomy run).1.invariant (fun before step => Saturated.step before step)
      (Saturated.start start size)
  have here := (roomy run).2
  refine ⟨(saturated run).mappings, (saturated run).kept, fun events' t' peak' further below => ?_⟩
  have longer := run.append further
  obtain ⟨later, after⟩ := here.run further.run
  refine here.kernel_eq after later ?_
  rw [(saturated longer).mappings, (saturated run).mappings, Nat.max_eq_left below]

instance (size : Nat) (s : ArenaState) : Decidable (s.OneSize size) :=
  decidable_of_iff ((∀ e ∈ liveBlocks s.world.mem s.arenas, e.size = size) ∧
      (liveBlocks s.world.mem s.arenas).length ≤ arenaCacheSize)
    ⟨fun ⟨size, few⟩ => ⟨size, few⟩, fun one => ⟨one.size, one.few⟩⟩

/-- Three arenas of a page are made, one is reset and one destroyed, and a fourth takes
its block. -/
def cycleCalls : List ArenaCall :=
  [.createGrowable 100 0 (some 131072), .createGrowable 100 0 (some 262144),
    .createGrowable 100 0 (some 393216), .allocate 131072 24 16 none, .reset 131072,
    .destroy 262144, .createGrowable 100 0 none]

/-- The small context after these calls. -/
def cycledArenas : ArenaState :=
  (System.performAll (ArenaState.event BcCore.reference Platform.x86) smallContext cycleCalls).2

theorem arena_cycles_cycledArenas :
    (cycledArenas.mappingsOf 4096 = smallContext.mappingsOf 4096 + 3 ∧
      cycledArenas.world.kernel.unmapLog = smallContext.world.kernel.unmapLog ∧
      ∀ events' t' peak', (oneSizeSystem BcCore.reference Platform.x86 [] 4096).PeakRun
          (ArenaState.chunksOf 4096) cycledArenas events' t' peak' →
        peak' ≤ 3 → t'.world.kernel = cycledArenas.world.kernel) ∧
    cycledArenas.arenas.map LiveArena.address = [262144, 393216, 131072] := by
  have allowed : System.AllowsAll (ArenaState.event BcCore.reference Platform.x86)
      (fun t call => t.Allows call ∧ (t.event BcCore.reference Platform.x86 call).2.OneSize 4096)
      smallContext cycleCalls := by decide +kernel
  have peak : System.peakAll (ArenaState.event BcCore.reference Platform.x86)
      (ArenaState.chunksOf 4096) smallContext cycleCalls = 3 := by decide +kernel
  have run : (oneSizeSystem BcCore.reference Platform.x86 [] 4096).PeakRun
      (ArenaState.chunksOf 4096) smallContext _ cycledArenas _ :=
    restricted_calls smallContext_start allowed
  rw [peak] at run
  exact ⟨arena_cycles BcCore.reference Platform.x86 [] smallContext_start run, by decide +kernel⟩

end BcAllocators
