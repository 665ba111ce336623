import BcAllocators.Lib.Sharing
import BcAllocators.Shared.Frames

/-!
# Clients of one context

A context serves the pool and the arenas at the same time. Its clients call both, in
any order; what they know of their own history is the union of what the two kinds of
client know (`ContextState`). The system is the pool and the arenas in turns on one
world (`contextSystem`).

Each of the two keeps its own invariant, and the other's is stable under its steps, so
both hold in every state that they reach together (`SharedInv.reachable`). Hence the
heap of the pool is well formed and the arenas are laid out, whatever the other does,
and everything that clients hold, pool blocks and allocations alike, is apart from
everything else (`shared_layout`).
-/

set_option autoImplicit false

namespace BcAllocators

open Machine

/-! ## Runs -/

/-- The world, and what the clients of the pool and of the arenas know. -/
structure ContextState where
  world : World
  live : List LiveBlock
  spans : List Span
  arenas : List LiveArena
  /-- The mapped bytes that the context counted after each call of the arenas. -/
  totals : List Nat

namespace ContextState

variable (s : ContextState)

/-- The pool of a context. -/
def pool : PoolState := ⟨s.world, s.live, s.spans⟩

/-- The arenas of a context. -/
def arena : ArenaState := ⟨s.world, s.arenas, s.totals⟩

def withPool (t : PoolState) : ContextState :=
  { s with world := t.world, live := t.live, spans := t.spans }

def withArena (t : ArenaState) : ContextState :=
  { s with world := t.world, arenas := t.arenas, totals := t.totals }

@[simp] theorem withPool_pool (t : PoolState) : (s.withPool t).pool = t := rfl

@[simp] theorem withArena_arena (t : ArenaState) : (s.withArena t).arena = t := rfl

theorem withPool_arena (t : PoolState) :
    (s.withPool t).arena = { s.arena with world := t.world } := rfl

theorem withArena_pool (t : ArenaState) :
    (s.withArena t).pool = { s.pool with world := t.world } := rfl

end ContextState

/-- A call of the pool or of an arena, with what it returned. -/
abbrev ContextEvent := PoolEvent ⊕ ArenaEvent

/-- A context that was created next to what others have mapped, with a region
smaller than half the address space. -/
def FreshContext (core : BcCore) (platform : Platform) (foreign : List Extent)
    (s : ContextState) : Prop :=
  ∃ config m answers, ContextConfig.Word config ∧
    contextCreate core platform config (Kernel.fresh foreign) m answers =
      (s.world.kernel, s.world.mem, some s.world.ctx) ∧
    s.world.ctx.region.totalSize < 2 ^ 63 ∧ s.live = [] ∧ s.spans = [] ∧ s.arenas = [] ∧
    s.totals = [s.world.ctx.totalMappedBytes]

/-- Correct clients of the pool and of the arenas of one context. -/
def contextSystem (core : BcCore) (platform : Platform) (foreign : List Extent) :
    System ContextState ContextEvent :=
  System.interleave (FreshContext core platform foreign)
    (fun s event s' => ∃ t, (poolSystem core platform).Next s.pool event t ∧ s' = s.withPool t)
    (fun s event s' =>
      ∃ t, (arenaSystem core platform foreign).Next s.arena event t ∧ s' = s.withArena t)

variable {core : BcCore} {platform : Platform} {foreign : List Extent} {s s' t : ContextState}

theorem FreshContext.pool_start (fresh : FreshContext core platform foreign s) :
    (poolSystem core platform).Start s.pool := by
  obtain ⟨config, m, answers, word, created, half, live, spans, _, _⟩ := fresh
  exact ⟨config, Kernel.fresh foreign, m, answers, word, created, half, live, spans⟩

theorem FreshContext.arena_start (fresh : FreshContext core platform foreign s) :
    (arenaSystem core platform foreign).Start s.arena := by
  obtain ⟨config, m, answers, word, created, _, _, _, arenas, totals⟩ := fresh
  exact ⟨config, m, answers, word, created, arenas, totals⟩

/-! ## Both invariants -/

/-- What a turn of the pool does to the context. -/
structure PoolTurn (s s' : ContextState) : Prop where
  arenas : s'.arenas = s.arenas
  totals : s'.totals = s.totals
  world : PoolGuarantee s.world s'.world

/-- What a turn of the arenas does to the context. -/
structure ArenaTurn (s s' : ContextState) : Prop where
  live : s'.live = s.live
  spans : s'.spans = s.spans
  world : ArenaGuarantee s.world s'.world

/-- **The invariant of a context in use.** -/
def SharedInv (core : BcCore) (platform : Platform) (foreign : List Extent)
    (s : ContextState) : Prop :=
  PoolInv core platform s.pool ∧ ArenaHistory platform foreign s.arena

theorem pool_guarantees (core : BcCore) (platform : Platform) :
    System.Guarantees
      (fun (s : ContextState) (event : PoolEvent) s' =>
        ∃ t, (poolSystem core platform).Next s.pool event t ∧ s' = s.withPool t)
      (fun s => PoolInv core platform s.pool) PoolTurn where
  keeps := by
    rintro s _ event inv ⟨t, step, rfl⟩
    exact inv.step step
  within := by
    rintro s _ event inv ⟨t, step, rfl⟩
    exact ⟨rfl, rfl, inv.guarantee step⟩

theorem arena_guarantees (core : BcCore) (platform : Platform) (foreign : List Extent) :
    System.Guarantees
      (fun (s : ContextState) (event : ArenaEvent) s' =>
        ∃ t, (arenaSystem core platform foreign).Next s.arena event t ∧ s' = s.withArena t)
      (fun s => ArenaHistory platform foreign s.arena) ArenaTurn where
  keeps := by
    rintro s _ event inv ⟨t, step, rfl⟩
    exact ⟨inv.1.step step, inv.2.step inv.1 step⟩
  within := by
    rintro s _ event inv ⟨t, step, rfl⟩
    exact ⟨rfl, rfl, inv.1.guarantee step⟩

theorem pool_stable (core : BcCore) (platform : Platform) :
    System.Stable (fun s : ContextState => PoolInv core platform s.pool) ArenaTurn := by
  rintro ⟨w, live, spans, _, _⟩ ⟨w', _, _, _, _⟩ inv ⟨rfl, rfl, other⟩
  exact inv.stable other

theorem arena_stable (platform : Platform) (foreign : List Extent) :
    System.Stable (fun s : ContextState => ArenaHistory platform foreign s.arena) PoolTurn := by
  rintro ⟨w, _, _, arenas, totals⟩ ⟨w', _, _, _, _⟩ ⟨inv, apart⟩ ⟨rfl, rfl, other⟩
  refine ⟨inv.stable other, ?_⟩
  obtain ⟨⟨_, _, _, _, _, _, _, _, same⟩, _⟩ := other
  have history : w'.kernel.mapLog = w.kernel.mapLog := congrArg (·.kernel.mapLog) same
  intro e member
  exact apart e (history ▸ member)

theorem SharedInv.start (fresh : FreshContext core platform foreign s) :
    SharedInv core platform foreign s :=
  ⟨PoolInv.start fresh.pool_start, ArenaInv.start fresh.arena_start,
    HistoryApart.start fresh.arena_start⟩

/-- **A turn of either part keeps both invariants.** -/
theorem SharedInv.step {event : ContextEvent} (inv : SharedInv core platform foreign s)
    (step : (contextSystem core platform foreign).Next s event s') :
    SharedInv core platform foreign s' :=
  System.interleave_step (pool_guarantees core platform) (arena_guarantees core platform foreign)
    (pool_stable core platform) (arena_stable platform foreign) inv step

theorem SharedInv.reachable (reachable : (contextSystem core platform foreign).Reachable s) :
    SharedInv core platform foreign s :=
  System.interleave_invariant (pool_guarantees core platform)
    (arena_guarantees core platform foreign) (pool_stable core platform)
    (arena_stable platform foreign) (fun _ fresh => SharedInv.start fresh) reachable

/-! ## Everything that clients hold -/

/-- What clients may use: the payloads of pool blocks and the allocations of arenas. -/
def ContextState.objects (core : BcCore) (s : ContextState) : List Extent :=
  (s.live.map fun b => b.payload core s.world.mem) ++
    (s.arenas.flatMap LiveArena.allocs).map Alloc.extent

/-- The payload of a live block lies in the region. -/
theorem PoolInv.payload_inside {p : PoolState} (inv : PoolInv core platform p) {b : LiveBlock}
    (member : b ∈ p.live) :
    p.world.ctx.region.base ≤ (b.payload core p.world.mem).start ∧
      (b.payload core p.world.mem).stop ≤
        p.world.ctx.region.base + p.world.ctx.region.totalSize := by
  obtain ⟨free, heap⟩ := inv.heap
  have placed := inv.placed b member
  have pointer := placed.pointer
  have fits := placed.fits
  obtain ⟨above, below, _⟩ := heap.block_bounds
    (List.mem_append_left _ (heldBlocks_of_mem core member))
  have top := heap.bump_le
  unfold Extent.stop at below
  rw [blockExtent_start] at below
  unfold LiveBlock.payload Extent.stop
  dsimp only
  omega

/-- Payloads are apart. -/
theorem PoolInv.payloads_apart {p : PoolState} (inv : PoolInv core platform p) :
    (p.live.map fun b => b.payload core p.world.mem).Pairwise Extent.Apart := by
  have apart := inv.grants_apart
  rwa [PoolState.grants, List.map_map] at apart

/-- An allocation lies in a block of an arena. -/
theorem ArenaHeap.alloc_block {w : World} {views : List ArenaView}
    (heap : ArenaHeap platform w views foreign) {arenas : List LiveArena}
    (perm : arenas.Perm (views.map ArenaView.client)) {e : Extent}
    (member : e ∈ (arenas.flatMap LiveArena.allocs).map Alloc.extent) :
    ∃ f ∈ arenaBlocks views, f.start ≤ e.start ∧ e.stop ≤ f.stop := by
  obtain ⟨x, among, rfl⟩ := List.mem_map.mp member
  obtain ⟨h, live, inAllocs⟩ := List.mem_flatMap.mp among
  obtain ⟨a, inViews, rfl⟩ := List.mem_map.mp (perm.mem_iff.mp live)
  obtain ⟨c, inChunks, holds⟩ := (heap.sound a inViews).inside x inAllocs
  exact ⟨c.extent, List.mem_flatMap.mpr ⟨a, inViews, List.mem_map_of_mem inChunks⟩,
    holds.inside ((heap.shape a inViews).fit c inChunks)⟩

/-- The blocks where objects may lie: the region, and the blocks of arenas. -/
def homes (w : World) (views : List ArenaView) : List Extent :=
  ⟨w.ctx.region.base, w.ctx.region.totalSize⟩ :: arenaBlocks views

/-- The homes of objects are apart from the structures of the context, and were mapped
for it. -/
theorem ArenaHeap.homes_apart {w : World} {views : List ArenaView}
    (heap : ArenaHeap platform w views foreign) : ∀ f ∈ homes w views,
      f.Apart ⟨w.ctx.address, w.ctx.contextMmapSize⟩ ∧
        f.Apart ⟨w.ctx.region.pageClassBase, w.ctx.region.pageClassSize⟩ ∧
        f ∈ w.kernel.mapLog := by
  obtain ⟨_, own, across⟩ := List.pairwise_append.mp heap.ledger.apart
  obtain ⟨fromPageClass, behind⟩ := List.pairwise_cons.mp own
  obtain ⟨fromRegion, _⟩ := List.pairwise_cons.mp behind
  refine List.forall_mem_cons.mpr ⟨⟨?_, ?_, ?_⟩, fun f block => ⟨?_, ?_, ?_⟩⟩
  · exact fromRegion _ List.mem_cons_self
  · exact (fromPageClass _ List.mem_cons_self).symm
  · exact heap.ledger.logged.mem_iff.mpr (List.mem_append_left _
      (List.mem_append_right _ w.ctx.region_mem_ownBlocks))
  · exact across f (List.mem_append_left _ block) _
      (List.mem_cons_of_mem _ (List.mem_cons_of_mem _ List.mem_cons_self))
  · exact across f (List.mem_append_left _ block) _ List.mem_cons_self
  · exact heap.ledger.logged.mem_iff.mpr (List.mem_append_left _
      (List.mem_append_left _ (List.mem_append_left _ block)))

/-- Each object lies in one of the homes. -/
theorem objects_home {views : List ArenaView} (pool : PoolInv core platform s.pool)
    (heap : ArenaHeap platform s.world views foreign)
    (perm : s.arenas.Perm (views.map ArenaView.client)) {e : Extent}
    (member : e ∈ s.objects core) :
    ∃ f ∈ homes s.world views, f.start ≤ e.start ∧ e.stop ≤ f.stop := by
  rcases List.mem_append.mp member with payload | alloc
  · obtain ⟨b, live, rfl⟩ := List.mem_map.mp payload
    exact ⟨_, List.mem_cons_self, pool.payload_inside live⟩
  · obtain ⟨f, among, inside⟩ := heap.alloc_block perm alloc
    exact ⟨f, List.mem_cons_of_mem _ among, inside⟩

/-- Payloads of pool blocks and allocations of arenas are apart. -/
theorem objects_pairwise {views : List ArenaView} (pool : PoolInv core platform s.pool)
    (heap : ArenaHeap platform s.world views foreign)
    (perm : s.arenas.Perm (views.map ArenaView.client)) :
    (s.objects core).Pairwise Extent.Apart := by
  refine List.pairwise_append.mpr ⟨pool.payloads_apart, (heap.layout perm).apart, ?_⟩
  intro e payload f alloc
  obtain ⟨b, live, rfl⟩ := List.mem_map.mp payload
  obtain ⟨block, among, inside⟩ := heap.alloc_block perm alloc
  exact (heap.region_apart block among).symm.mono (pool.payload_inside live) inside

/-- **The layout of a shared context.** However the calls of the pool and of the arenas
are interleaved, in every reachable state the heap of the pool is well formed with
exactly the live blocks held, the live arenas are laid out, and the payloads of all
pool blocks and the allocations of all arenas are apart from each other, from the
structures of the context and from what others have mapped. -/
theorem shared_layout (core : BcCore) (platform : Platform) (foreign : List Extent)
    (reachable : (contextSystem core platform foreign).Reachable s) :
    PoolInv core platform s.pool ∧ Layout s.world s.arenas ∧
      (s.objects core).Pairwise Extent.Apart ∧ ∀ e ∈ s.objects core,
        (∀ f ∈ foreign, e.Apart f) ∧
        e.Apart ⟨s.world.ctx.address, s.world.ctx.contextMmapSize⟩ ∧
        e.Apart ⟨s.world.ctx.region.pageClassBase, s.world.ctx.region.pageClassSize⟩ := by
  obtain ⟨pool, ⟨views, heap, perm⟩, history⟩ := SharedInv.reachable reachable
  refine ⟨pool, heap.layout perm, objects_pairwise pool heap perm, fun e member => ?_⟩
  obtain ⟨f, home, inside⟩ := objects_home pool heap perm member
  obtain ⟨context, pageClass, logged⟩ := heap.homes_apart f home
  have apart : ∀ {g : Extent}, f.Apart g → e.Apart g :=
    fun separate => separate.mono inside ⟨Nat.le_refl _, Nat.le_refl _⟩
  exact ⟨fun g others => apart (history f logged g others), apart context, apart pageClass⟩

/-! ## A small context -/

/-- A correct client may make any allowed call of the pool. -/
theorem shared_reachable_pool (call : PoolCall)
    (reachable : (contextSystem core platform foreign).Reachable s)
    (allowed : s.pool.Allows core call) :
    (contextSystem core platform foreign).Reachable
      (s.withPool (s.pool.perform core call).1) :=
  reachable.next (show (contextSystem core platform foreign).Next s
    (.inl ⟨call, (s.pool.perform core call).2⟩) _ from ⟨_, ⟨allowed, rfl⟩, rfl⟩)

/-- A correct client may make any allowed call of the arenas. -/
theorem shared_reachable_arena (call : ArenaCall) {t : ArenaState} {result : PtrResult}
    (reachable : (contextSystem core platform foreign).Reachable s)
    (allowed : s.arena.Allows call)
    (performed : s.arena.perform core platform call = some (t, result)) :
    (contextSystem core platform foreign).Reachable (s.withArena t) :=
  reachable.next (show (contextSystem core platform foreign).Next s (.inr ⟨call, result⟩) _ from
    ⟨_, ⟨allowed, performed⟩, rfl⟩)

/-- The context of sixteen pages, for clients of both kinds. -/
def sharedPages : ContextState := ⟨sixteenPages.world, [], [], [], [0]⟩

theorem sharedPages_fresh : FreshContext BcCore.reference Platform.x86 [] sharedPages := by
  refine ⟨some ⟨65536, true, 1, 7⟩, fun _ => 0, ⟨some 4096, some 65536, some 8192⟩, ?_, rfl,
    by decide, rfl, rfl, rfl, rfl⟩
  rintro c ⟨rfl⟩
  decide

/-- After an allocation of 24 bytes from the pool. -/
def sharedBlock : ContextState :=
  sharedPages.withPool (sharedPages.pool.perform BcCore.reference (.allocate 24)).1

/-- After the creation of a growable arena of 100 bytes. -/
def sharedArena : ContextState :=
  sharedBlock.withArena (sharedBlock.arena.created
    (arenaCreateGrowable BcCore.reference Platform.x86 sharedBlock.world 100 0 (some 131072))).1

/-- After an allocation of 24 bytes from the arena. -/
def sharedAllocation : ContextState :=
  sharedArena.withArena (sharedArena.arena.allocated 131072 24 16
    (arenaAllocate BcCore.reference Platform.x86 sharedArena.world 131072 24 16 none)).1

theorem sharedBlock_reachable :
    (contextSystem BcCore.reference Platform.x86 []).Reachable sharedBlock :=
  shared_reachable_pool (.allocate 24) (.start sharedPages_fresh)
    (show (24 : Nat) ≤ 65536 by decide)

theorem sharedArena_reachable :
    (contextSystem BcCore.reference Platform.x86 []).Reachable sharedArena :=
  shared_reachable_arena (.createGrowable 100 0 (some 131072)) sharedBlock_reachable
    (show (100 : Nat) < 2 ^ 64 ∧ (0 : Nat) < 2 ^ 64 by decide) rfl

theorem sharedAllocation_reachable :
    (contextSystem BcCore.reference Platform.x86 []).Reachable sharedAllocation :=
  shared_reachable_arena (.allocate 131072 24 16 none) sharedArena_reachable
    ⟨⟨⟨131072, []⟩, by decide, rfl⟩, by decide, by decide⟩ rfl

theorem shared_layout_sharedAllocation :
    PoolInv BcCore.reference Platform.x86 sharedAllocation.pool ∧
      Layout sharedAllocation.world sharedAllocation.arenas ∧
      (sharedAllocation.objects BcCore.reference).Pairwise Extent.Apart ∧
      ∀ e ∈ sharedAllocation.objects BcCore.reference,
        (∀ f ∈ ([] : List Extent), e.Apart f) ∧
        e.Apart ⟨sharedAllocation.world.ctx.address,
          sharedAllocation.world.ctx.contextMmapSize⟩ ∧
        e.Apart ⟨sharedAllocation.world.ctx.region.pageClassBase,
          sharedAllocation.world.ctx.region.pageClassSize⟩ :=
  shared_layout BcCore.reference Platform.x86 [] sharedAllocation_reachable

end BcAllocators
