import BcAllocators.Shared.Beside
import BcAllocators.Shared.Client

/-!
# The pool on its own

Follow the clients of the pool through a run of a shared context, and leave out the
calls of the arenas. What is left is a run of the pool alone, with the same results
(`shared_pool_alone`): a correct client of the pool cannot tell whether the context has
arenas. A step of the pool is repeated beside (`PoolTwin.step`), and a step of the
arenas leaves the pool beside alone (`Beside.after`).
-/

set_option autoImplicit false

namespace BcAllocators

open Machine

variable {core : BcCore} {platform : Platform} {foreign : List Extent} {w w' v : World}
variable {x : Surroundings} {s s' p p' : PoolState}

/-! ## Pools beside each other -/

/-- The surroundings of the pool of a world. -/
def World.surroundings (w : World) : Surroundings :=
  ⟨w.ctx.arenaCache, w.ctx.arenaTally, w.kernel⟩

theorem Beside.refl (w : World) : Beside w.surroundings w w := .intro w.mem fun _ _ => rfl

/-- Other surroundings differ from a world by what arenas might do. -/
theorem Beside.guarantee (beside : Beside x w v) : ArenaGuarantee w v := by
  cases beside with
  | intro n alike =>
      exact ⟨⟨fun _ => x.arenaTally, x.arenaCache, x.arenaTally, fun _ => rfl, rfl⟩, alike⟩

/-- **What arenas do does not show beside.** -/
theorem Beside.after (beside : Beside x w v) (other : ArenaGuarantee w w') : Beside x w' v := by
  cases beside with
  | intro n alike =>
      obtain ⟨⟨_, cache, tally, _, context⟩, spares⟩ := other
      have same : w.among x n = w'.among x n := by
        unfold World.among
        rw [context]
        rfl
      rw [same]
      refine .intro n fun a inside => ?_
      have before : a ∈ w.ctx.region.addresses := by
        rwa [context] at inside
      exact (alike a before).trans (spares a before).symm

/-- The same clients, in worlds with the same pool. -/
structure PoolTwin (x : Surroundings) (s p : PoolState) : Prop where
  live : p.live = s.live
  spans : p.spans = s.spans
  world : Beside x s.world p.world

theorem PoolTwin.inv (twin : PoolTwin x s p) (inv : PoolInv core platform s) :
    PoolInv core platform p := by
  obtain ⟨w, live, spans⟩ := s
  obtain ⟨v, _, _⟩ := p
  obtain ⟨rfl, rfl, beside⟩ := twin
  exact inv.stable beside.guarantee

theorem PoolTwin.region (twin : PoolTwin x s p) : p.world.ctx.region = s.world.ctx.region := by
  rw [twin.world.ctx]
  rfl

/-- The payload of a live block is the same beside. -/
theorem PoolTwin.payload (twin : PoolTwin x s p) (inv : PoolInv core platform s) {b : LiveBlock}
    (member : b ∈ s.live) : b.payload core p.world.mem = b.payload core s.world.mem := by
  obtain ⟨free, heap⟩ := inv.heap
  have owned : PoolHeap.Owns (heldBlocks core s.live) free (b.kind core) (b.block core) :=
    List.mem_append_left _ (heldBlocks_of_mem core member)
  have total : loadWord p.world.mem (b.block core + 8) = loadWord s.world.mem (b.block core + 8) :=
    twin.world.word (heap.word_territory owned (Nat.le_refl 8))
  unfold LiveBlock.payload blockExtent
  cases b.kind core with
  | sized cls => rfl
  | large => exact congrArg (fun size => (⟨b.ptr, size - _⟩ : Extent)) total

theorem PoolTwin.live_iff (twin : PoolTwin x s p) (ptr : Nat) : p.Live ptr ↔ s.Live ptr := by
  unfold PoolState.Live
  rw [twin.live]

/-- A correct client may make the same calls beside. -/
theorem PoolTwin.allows (twin : PoolTwin x s p) (inv : PoolInv core platform s)
    {call : PoolCall} (allowed : s.Allows core call) : p.Allows core call := by
  have region := twin.region
  cases call with
  | allocate size =>
      change size ≤ p.world.ctx.region.totalSize
      rw [region]
      exact allowed
  | reallocate ptr newSize =>
      refine ⟨?_, allowed.2.imp_right (twin.live_iff ptr).mpr⟩
      rw [region]
      exact allowed.1
  | free ptr =>
      have inRegion : ptrInRegion p.world.ctx ptr = ptrInRegion s.world.ctx ptr := by
        unfold ptrInRegion
        rw [region]
      exact allowed.imp_right (Or.imp (inRegion.trans ·) (twin.live_iff ptr).mpr)
  | write address bytes =>
      obtain ⟨b, member, lower, upper⟩ := allowed
      refine ⟨b, twin.live ▸ member, lower, ?_⟩
      rwa [twin.payload inv member]

/-! ## Steps -/

/-- The bookkeeping of an allocating call is the same beside. -/
theorem PoolTwin.answered (twin : PoolTwin x s p) {others others' : List LiveBlock} {size : Nat}
    {r q : World × PtrResult} (alike : BesideResult x r q) (same : others' = others) :
    (p.answered core others' size q).2 = (s.answered core others size r).2 ∧
      PoolTwin x (s.answered core others size r).1 (p.answered core others' size q).1 := by
  obtain ⟨result, beside⟩ := alike
  refine ⟨result, ?_, ?_, beside⟩
  · change (if q.2.ok then _ else p.live) = if r.2.ok then _ else s.live
    rw [result, same, twin.live]
  · change p.spans ++ carvedSpan _ p.world.ctx q.1.ctx = s.spans ++ carvedSpan _ s.world.ctx r.1.ctx
    rw [twin.spans, twin.world.ctx, beside.ctx]
    rfl

/-- **A call of the pool does alike beside.** -/
theorem PoolTwin.perform (twin : PoolTwin x s p) (inv : PoolInv core platform s)
    {call : PoolCall} (allowed : s.Allows core call) :
    (p.perform core call).2 = (s.perform core call).2 ∧
      PoolTwin x (s.perform core call).1 (p.perform core call).1 := by
  obtain ⟨free, heap⟩ := inv.heap
  have inv' := twin.inv inv
  have allowed' := twin.allows inv allowed
  have dropped : ∀ ptr, dropLive p.live ptr = dropLive s.live ptr := fun ptr => by
    rw [twin.live]
  cases call with
  | allocate size =>
      obtain ⟨_, noWrap⟩ := inv.no_wrap allowed
      exact twin.answered (poolAllocate_beside core twin.world heap noWrap) twin.live
  | reallocate ptr newSize =>
      obtain ⟨word, noWrap⟩ := inv.no_wrap allowed.1
      rcases allowed.2 with rfl | ⟨b, member, rfl⟩
      · rw [inv.perform_null, inv'.perform_null]
        exact twin.answered (poolAllocate_beside core twin.world heap noWrap) twin.live
      · have placed := inv.placed b member
        have alike := poolReallocate_beside core twin.world heap
          (heldBlocks_split core inv.nodup member).1 placed.bounded word noWrap
        rw [placed.pointer] at alike
        exact twin.answered alike (dropped b.ptr)
  | free ptr =>
      refine ⟨rfl, dropped ptr, twin.spans, ?_⟩
      change Beside x (poolFree s.world ptr) (poolFree p.world ptr)
      by_cases live : s.Live ptr
      · obtain ⟨b, member, rfl⟩ := live
        have alike := poolFree_beside twin.world heap (heldBlocks_split core inv.nodup member).1
        rwa [(inv.placed b member).pointer] at alike
      · rw [((inv.free_cases allowed).resolve_right live).1,
          ((inv'.free_cases allowed').resolve_right (mt (twin.live_iff ptr).mp live)).1]
        exact twin.world
  | write address bytes =>
      refine ⟨rfl, twin.live, twin.spans, ?_⟩
      change Beside x { s.world with mem := storeBytes s.world.mem address bytes }
        { p.world with mem := storeBytes p.world.mem address bytes }
      have beside := twin.world
      generalize p.world = v at beside
      cases beside with
      | intro n alike =>
          refine .intro (storeBytes n address bytes) fun a inside => ?_
          simp only [storeBytes]
          split
          · rfl
          · exact alike a inside

theorem PoolTwin.step (twin : PoolTwin x s p) (inv : PoolInv core platform s)
    {event : PoolEvent} (step : (poolSystem core platform).Next s event s') :
    ∃ p', (poolSystem core platform).Next p event p' ∧ PoolTwin x s' p' := by
  obtain ⟨call, result⟩ := event
  obtain ⟨allowed, performed⟩ := step
  obtain ⟨same, after⟩ := twin.perform inv allowed
  rw [performed] at same after
  exact ⟨_, ⟨twin.allows inv allowed, Prod.ext rfl same⟩, after⟩

/-! ## Runs -/

/-- A pool beside the pool of a context in use. -/
structure AlonePool (core : BcCore) (platform : Platform) (foreign : List Extent)
    (x : Surroundings) (s : ContextState) (p : PoolState) : Prop where
  inv : SharedInv core platform foreign s
  twin : PoolTwin x s.pool p

variable {c c' t : ContextState}

/-- A turn of the pool is a step of the pool beside. -/
theorem AlonePool.own (alone : AlonePool core platform foreign x c p) {event : PoolEvent}
    (step : (contextSystem core platform foreign).Next c (.inl event) c') :
    ∃ p', (poolSystem core platform).Next p event p' ∧
      AlonePool core platform foreign x c' p' := by
  have after := alone.inv.step step
  obtain ⟨q, own, rfl⟩ := step
  obtain ⟨p', beside, twin⟩ := alone.twin.step alone.inv.1 own
  exact ⟨p', beside, after, twin⟩

/-- A turn of the arenas does not show in the pool beside. -/
theorem AlonePool.others (alone : AlonePool core platform foreign x c p) {event : ArenaEvent}
    (step : (contextSystem core platform foreign).Next c (.inr event) c') :
    AlonePool core platform foreign x c' p := by
  have after := alone.inv.step step
  obtain ⟨q, turn, rfl⟩ := step
  exact ⟨after, alone.twin.live, alone.twin.spans,
    alone.twin.world.after (alone.inv.2.1.guarantee turn)⟩

/-- **The clients of the pool do not notice the arenas.** In any run of a shared
context, the calls of the pool, with what each of them returned, are a run of the pool
alone, from the same start. It ends with the same live blocks and the same carved
spans, and its world has the same pool: the same region, page classes, free lists and
statistics, and the same bytes in the region. -/
theorem shared_pool_alone (core : BcCore) (platform : Platform) (foreign : List Extent)
    {events : List ContextEvent} (fresh : FreshContext core platform foreign c)
    (run : (contextSystem core platform foreign).Run c events t) :
    (poolSystem core platform).Start c.pool ∧
      ∃ p, (poolSystem core platform).Run c.pool (System.firstLabels events) p ∧
        p.live = t.live ∧ p.spans = t.spans ∧ Beside c.world.surroundings t.world p.world := by
  have initial : AlonePool core platform foreign c.world.surroundings c c.pool :=
    ⟨SharedInv.start fresh, rfl, rfl, Beside.refl c.world⟩
  have own : ∀ {d d' : ContextState} {label : ContextEvent} {event : PoolEvent} {p : PoolState},
      AlonePool core platform foreign c.world.surroundings d p →
      (contextSystem core platform foreign).Next d label d' → label.getLeft? = some event →
      ∃ p', (poolSystem core platform).Next p event p' ∧
        AlonePool core platform foreign c.world.surroundings d' p' := by
    intro d d' label event p here step seen
    obtain rfl := Sum.getLeft?_eq_some_iff.mp seen
    exact here.own step
  have others : ∀ {d d' : ContextState} {label : ContextEvent} {p : PoolState},
      AlonePool core platform foreign c.world.surroundings d p →
      (contextSystem core platform foreign).Next d label d' → label.getLeft? = none →
      AlonePool core platform foreign c.world.surroundings d' p := by
    intro d d' label p here step seen
    obtain ⟨event, rfl⟩ := Sum.isRight_iff.mp (Sum.getLeft?_eq_none_iff.mp seen)
    exact here.others step
  obtain ⟨p, projected, _, twin⟩ := run.project (poolSystem core platform) Sum.getLeft? _ own others
    initial
  exact ⟨fresh.pool_start, p, projected, twin.live, twin.spans, twin.world⟩

/-- The calls that lead to the small context with an allocation. -/
def sharedCalls : List ContextEvent :=
  [.inl ⟨.allocate 24, (sharedPages.pool.perform BcCore.reference (.allocate 24)).2⟩,
    .inr ⟨.createGrowable 100 0 (some 131072), (sharedBlock.arena.created
      (arenaCreateGrowable BcCore.reference Platform.x86 sharedBlock.world 100 0
        (some 131072))).2⟩,
    .inr ⟨.allocate 131072 24 16 none, (sharedArena.arena.allocated 131072 24 16
      (arenaAllocate BcCore.reference Platform.x86 sharedArena.world 131072 24 16 none)).2⟩]

theorem sharedCalls_run : (contextSystem BcCore.reference Platform.x86 []).Run sharedPages
    sharedCalls sharedAllocation := by
  have block : (contextSystem BcCore.reference Platform.x86 []).Next sharedPages
      (.inl ⟨.allocate 24, _⟩) sharedBlock :=
    ⟨_, ⟨show (24 : Nat) ≤ 65536 by decide, rfl⟩, rfl⟩
  have arena : (contextSystem BcCore.reference Platform.x86 []).Next sharedBlock
      (.inr ⟨.createGrowable 100 0 (some 131072), _⟩) sharedArena :=
    ⟨_, ⟨show (100 : Nat) < 2 ^ 64 ∧ (0 : Nat) < 2 ^ 64 by decide, rfl⟩, rfl⟩
  have allocation : (contextSystem BcCore.reference Platform.x86 []).Next sharedArena
      (.inr ⟨.allocate 131072 24 16 none, _⟩) sharedAllocation :=
    ⟨_, ⟨⟨⟨⟨131072, []⟩, by decide, rfl⟩, by decide, by decide⟩, rfl⟩, rfl⟩
  exact (((System.Run.nil sharedPages).snoc block).snoc arena).snoc allocation

theorem shared_pool_alone_sharedCalls :
    (poolSystem BcCore.reference Platform.x86).Start sharedPages.pool ∧
      ∃ p, (poolSystem BcCore.reference Platform.x86).Run sharedPages.pool
          (System.firstLabels sharedCalls) p ∧
        p.live = sharedAllocation.live ∧ p.spans = sharedAllocation.spans ∧
        Beside sharedPages.world.surroundings sharedAllocation.world p.world :=
  shared_pool_alone BcCore.reference Platform.x86 [] sharedPages_fresh sharedCalls_run

end BcAllocators
