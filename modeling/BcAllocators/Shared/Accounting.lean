import BcAllocators.Arena.Accounting
import BcAllocators.Arena.Lifetime
import BcAllocators.Pool.Accounting
import BcAllocators.Shared.Projection

/-!
# The books of a shared context

One context keeps one set of figures for its pool and its arenas. The figures of each
are exact in the runs where it is alone, and neither touches the figures of the other,
so all of them are exact in any interleaving (`SharedBooks`). Hence the statistics and
the leak reports of a context tell the truth about all its clients, and when clients
have given back everything, a destruction reports nothing and leaves nothing mapped
(`shared_books`).
-/

set_option autoImplicit false

namespace BcAllocators

open Machine

variable {core : BcCore} {platform : Platform} {foreign : List Extent} {w w' : World}

/-! ## Figures of the other -/

theorem PoolGuarantee.arenaFigures (own : PoolGuarantee w w') :
    w'.ctx.trackingEnabled = w.ctx.trackingEnabled ∧ w'.ctx.arenaTally = w.ctx.arenaTally := by
  obtain ⟨⟨_, _, _, _, _, _, _, _, same⟩, _⟩ := own
  rw [same]
  exact ⟨rfl, rfl⟩

theorem ArenaGuarantee.poolFigures (own : ArenaGuarantee w w') :
    w'.ctx.trackingEnabled = w.ctx.trackingEnabled ∧ w'.ctx.tally = w.ctx.tally := by
  obtain ⟨⟨_, _, _, _, context⟩, _⟩ := own
  rw [context]
  exact ⟨rfl, rfl⟩

/-- The accounts of the pool are stable under what the arenas do. -/
theorem RunAccounted.stable {events : List PoolEvent} {p : PoolState}
    (run : RunAccounted core platform events p) (other : ArenaGuarantee p.world w') :
    RunAccounted core platform events { p with world := w' } := by
  obtain ⟨inv, enabled, accounted⟩ := run
  obtain ⟨tracking, tally⟩ := other.poolFigures
  refine ⟨inv.stable other, tracking.trans enabled, fun short => ?_⟩
  obtain ⟨⟨blocks, bytes⟩, bound⟩ := accounted short
  refine ⟨⟨?_, ?_⟩, ?_⟩ <;> dsimp only <;> rw [tally]
  · exact blocks
  · exact bytes
  · exact bound

/-- The accounts of the arenas are stable under what the pool does. -/
theorem ArenaRunAccounted.stable {events : List ArenaEvent} {a : ArenaState}
    (run : ArenaRunAccounted platform foreign events a) (other : PoolGuarantee a.world w') :
    ArenaRunAccounted platform foreign events { a with world := w' } := by
  obtain ⟨enabled, views, heap, perm, accounted⟩ := run
  obtain ⟨tracking, tally⟩ := other.arenaFigures
  refine ⟨tracking.trans enabled, views, heap.stable other, perm, fun short => ?_⟩
  dsimp only
  rw [tally]
  exact accounted short

/-! ## Every run of both -/

theorem pool_accounts (core : BcCore) (platform : Platform) :
    System.TracedGuarantees
      (fun (s : ContextState) (event : PoolEvent) s' =>
        ∃ t, (poolSystem core platform).Next s.pool event t ∧ s' = s.withPool t)
      (fun events s => RunAccounted core platform events s.pool) PoolTurn where
  keeps := by
    rintro before s _ event run ⟨t, step, rfl⟩
    exact run.step step
  within := by
    rintro before s _ event run ⟨t, step, rfl⟩
    exact ⟨rfl, rfl, run.1.guarantee step⟩

theorem arena_accounts (core : BcCore) (platform : Platform) (foreign : List Extent) :
    System.TracedGuarantees
      (fun (s : ContextState) (event : ArenaEvent) s' =>
        ∃ t, (arenaSystem core platform foreign).Next s.arena event t ∧ s' = s.withArena t)
      (fun events s => ArenaRunAccounted platform foreign events s.arena) ArenaTurn where
  keeps := by
    rintro before s _ event run ⟨t, step, rfl⟩
    exact run.step step
  within := by
    rintro before s _ event ⟨_, views, heap, perm, _⟩ ⟨t, step, rfl⟩
    exact ⟨rfl, rfl, ArenaInv.guarantee ⟨views, heap, perm⟩ step⟩

/-- **The accounts of both hold in any run of a context with tracking.** -/
theorem shared_accounts {s t : ContextState} {events : List ContextEvent}
    (fresh : FreshContext core platform foreign s) (enabled : s.world.ctx.trackingEnabled = true)
    (run : (contextSystem core platform foreign).Run s events t) :
    RunAccounted core platform (System.firstLabels events) t.pool ∧
      ArenaRunAccounted platform foreign (System.secondLabels events) t.arena := by
  refine System.interleave_traced (pool_accounts core platform)
    (arena_accounts core platform foreign) ?_ ?_ run
    ⟨RunAccounted.start fresh.pool_start enabled, ArenaRunAccounted.start fresh.arena_start enabled⟩
  · rintro before ⟨w, live, spans, _, _⟩ ⟨w', _, _, _, _⟩ accounted ⟨rfl, rfl, other⟩
    exact accounted.stable other
  · rintro before ⟨w, _, _, arenas, totals⟩ ⟨w', _, _, _, _⟩ accounted ⟨rfl, rfl, other⟩
    exact accounted.stable other

/-! ## What the context says of its clients -/

/-- The statistics of a context that are exact about its clients. -/
structure SharedBooks (core : BcCore) (s : ContextState) (stats : Stats) : Prop where
  poolBlocks : stats.poolAllocCount = stats.poolFreeCount + s.live.length
  poolBytes : stats.poolActiveBytes = chargedBytes core s.live
  arenas : stats.arenaCreateCount = stats.arenaDestroyCount + s.arenas.length
  activeArenas : stats.arenaActiveCount = s.arenas.length
  arenaBytes : stats.arenaTotalBytes = liveBytes s.world.mem s.arenas
  mapped : stats.totalMappedBytes = liveBytes s.world.mem s.arenas
  peak : stats.peakMappedBytes = s.totals.foldr max 0

/-- The reports of a destruction, for the numbers of live blocks and arenas. -/
theorem leakReports_eq {ctx : Context} {blocks arenas : Nat}
    (enabled : ctx.trackingEnabled = true) (installed : ctx.leakCallback ≠ NULL)
    (pool : ctx.poolAllocCount = ctx.poolFreeCount + blocks)
    (arena : ctx.arenaCreateCount = ctx.arenaDestroyCount + arenas) :
    leakReports ctx =
      (if blocks = 0 then [] else [⟨poolLeakMessage, ctx.leakCallbackArgument⟩]) ++
        (if arenas = 0 then [] else [⟨arenaLeakMessage, ctx.leakCallbackArgument⟩]) := by
  unfold leakReports
  rw [if_pos ⟨enabled, installed⟩, pool, arena]
  by_cases noBlocks : blocks = 0 <;> by_cases noArenas : arenas = 0 <;>
    simp [noBlocks, noArenas]

/-- **The books of a shared context.** In every run with fewer than `2 ^ 64` pool calls
and fewer than `2 ^ 64` arena calls, in any order, the statistics are exact about the
live blocks and the live arenas; a destruction with a callback reports a pool leak when
a block is live and then an arena leak when an arena is live, and nothing else; and what
is mapped after it, and was not mapped by others, are the blocks of the live arenas. -/
theorem shared_books (core : BcCore) (platform : Platform) (foreign : List Extent)
    {s t : ContextState} {events : List ContextEvent}
    (fresh : FreshContext core platform foreign s) (enabled : s.world.ctx.trackingEnabled = true)
    (run : (contextSystem core platform foreign).Run s events t)
    (fewPool : poolCalls (System.firstLabels events) < 2 ^ 64)
    (fewArena : arenaCalls (System.secondLabels events) < 2 ^ 64) :
    SharedBooks core t (contextGetStats t.world.ctx) ∧
      (t.world.ctx.leakCallback ≠ NULL → (contextDestroy t.world).1 =
        (if t.live = [] then [] else [⟨poolLeakMessage, t.world.ctx.leakCallbackArgument⟩]) ++
          (if t.arenas = [] then []
            else [⟨arenaLeakMessage, t.world.ctx.leakCallbackArgument⟩])) ∧
      Conserved (contextDestroy t.world).2 (liveBlocks t.world.mem t.arenas) foreign := by
  obtain ⟨⟨_, tracking, poolAgrees⟩, _, views, heap, perm, arenaAgrees⟩ :=
    shared_accounts fresh enabled run
  obtain ⟨⟨blocks, bytes⟩, _⟩ := poolAgrees fewPool
  obtain ⟨tallied, _, peak⟩ := arenaAgrees fewArena
  have live := heap.liveBytes_eq perm
  have length : t.arenas.length = views.length := by
    rw [← List.length_map (f := ArenaView.client)]
    exact perm.length_eq
  have arenas : t.world.ctx.arenaCreateCount =
      t.world.ctx.arenaDestroyCount + t.arenas.length := length ▸ tallied.arenas
  refine ⟨?_, fun installed => ?_, ArenaInv.destroyed ⟨views, heap, perm⟩⟩
  · rw [contextGetStats, if_pos (show t.world.ctx.trackingEnabled = true from tracking)]
    refine ⟨blocks, bytes, arenas, ?_, tallied.total.trans live.symm,
      tallied.mapped.trans live.symm, peak⟩
    dsimp only
    rw [arenas, if_pos (Nat.le_add_right _ _), Nat.add_sub_cancel_left]
  · have reports := leakReports_eq tracking installed blocks arenas
    simp only [List.length_eq_zero_iff] at reports
    exact reports

/-- The small context with a block and an arena: both leaks are reported, in this order. -/
theorem shared_books_sharedCalls :
    SharedBooks BcCore.reference sharedAllocation (contextGetStats sharedAllocation.world.ctx) ∧
      (sharedAllocation.world.ctx.leakCallback ≠ NULL →
        (contextDestroy sharedAllocation.world).1 =
          (if sharedAllocation.live = [] then []
            else [⟨poolLeakMessage, sharedAllocation.world.ctx.leakCallbackArgument⟩]) ++
            (if sharedAllocation.arenas = [] then []
              else [⟨arenaLeakMessage, sharedAllocation.world.ctx.leakCallbackArgument⟩])) ∧
      Conserved (contextDestroy sharedAllocation.world).2
        (liveBlocks sharedAllocation.world.mem sharedAllocation.arenas) [] :=
  shared_books BcCore.reference Platform.x86 [] sharedPages_fresh rfl sharedCalls_run
    (by decide) (by decide)

end BcAllocators
