import BcAllocators.Arena.Client

/-!
# The lifetime of a context

A context is created, used, and destroyed; the creation may fail at any of its
three mappings. At each moment everything that was mapped for it is in one
place: among the context's own mappings, in the chain of one live arena, in the
cache, or unmapped. `Conserved` says this of what the kernel has recorded, as two
permutations, and `mapping_conserved` proves it for every lifetime.

Places count with multiplicity, so a block that was forgotten, listed twice or
unmapped with another size would break it.
-/

set_option autoImplicit false

namespace BcAllocators

open Machine

/-! ## Lifetimes -/

inductive Lifetime where
  /-- Nothing has been asked of the kernel yet. -/
  | unborn (kernel : Kernel) (mem : Memory)
  /-- `bc_allocators_context_create` has returned false. -/
  | failed (kernel : Kernel)
  | running (s : ArenaState)
  /-- `bc_allocators_context_destroy` has returned, in the state that it was called in. -/
  | destroyed (s : ArenaState) (kernel : Kernel)

inductive LifetimeEvent where
  | create (config : Option ContextConfig) (answers : CreateAnswers)
  | call (event : ArenaEvent)
  | destroy

namespace Lifetime

/-- What a creation leads to. -/
def born : Kernel × Memory × Option Context → Lifetime
  | (kernel, _, none) => .failed kernel
  | (kernel, m, some ctx) => .running
      { world := ⟨ctx, m, kernel⟩, arenas := [], totals := [ctx.totalMappedBytes] }

/-- The events of a lifetime. -/
def Next (core : BcCore) (platform : Platform) (foreign : List Extent) :
    Lifetime → LifetimeEvent → Lifetime → Prop
  | .unborn kernel m, .create config answers, t =>
      ContextConfig.Word config ∧
        t = born (contextCreate core platform config kernel m answers)
  | .running s, .call event, t =>
      ∃ s', (arenaSystem core platform foreign).Next s event s' ∧ t = .running s'
  | .running s, .destroy, t => t = .destroyed s (contextDestroy s.world).2
  | _, _, _ => False

/-- What the kernel has recorded. -/
def kernel : Lifetime → Kernel
  | .unborn kernel _ => kernel
  | .failed kernel => kernel
  | .running s => s.world.kernel
  | .destroyed _ kernel => kernel

/-- Where mapped blocks are: the context's own mappings, the chains of the live
arenas, and the entries of the cache below its count. -/
def places : Lifetime → List Extent
  | .unborn _ _ => []
  | .failed _ => []
  | .running s => s.world.ctx.ownBlocks ++ liveBlocks s.world.mem s.arenas ++
      s.world.ctx.arenaCache.blocks
  | .destroyed s _ => liveBlocks s.world.mem s.arenas

end Lifetime

/-- Every lifetime of a context, next to what is mapped by others. -/
def lifetimeSystem (core : BcCore) (platform : Platform) (foreign : List Extent) :
    System Lifetime LifetimeEvent where
  Start t := ∃ m, t = .unborn (Kernel.fresh foreign) m
  Next := Lifetime.Next core platform foreign

/-! ## Conservation -/

/-- **Everything mapped is in one place**, and so is everything that was ever
mapped, the unmapped blocks included. -/
structure Conserved (kernel : Kernel) (places foreign : List Extent) : Prop where
  mapped : kernel.mapped.Perm (places ++ foreign)
  logged : kernel.mapLog.Perm (places ++ kernel.unmapLog)
  apart : places.Pairwise Extent.Apart

namespace Conserved

variable {kernel : Kernel} {places places' foreign blocks : List Extent} {e : Extent}

theorem perm (conserved : Conserved kernel places foreign) (same : places.Perm places') :
    Conserved kernel places' foreign where
  mapped := conserved.mapped.trans (same.append_right _)
  logged := conserved.logged.trans (same.append_right _)
  apart := (same.pairwise_iff (fun apart => apart.symm)).mp conserved.apart

/-- A block is unmapped. -/
theorem unmap (conserved : Conserved kernel (e :: places) foreign) :
    Conserved (kernel.unmap e) places foreign where
  mapped := by
    have erased := conserved.mapped.erase e
    rwa [List.cons_append, List.erase_cons_head] at erased
  logged := conserved.logged.trans List.perm_middle.symm
  apart := (List.pairwise_cons.mp conserved.apart).2

/-- Blocks are unmapped, one after the other. -/
theorem unmapAll (conserved : Conserved kernel (blocks ++ places) foreign) :
    Conserved (blocks.foldl Kernel.unmap kernel) places foreign := by
  induction blocks generalizing kernel with
  | nil => exact conserved
  | cons e rest ih => exact ih conserved.unmap

/-- **No block is unmapped more often than it was mapped.** -/
theorem unmapped_le (conserved : Conserved kernel places foreign) (e : Extent) :
    kernel.unmapLog.count e ≤ kernel.mapLog.count e := by
  rw [conserved.logged.count_eq, List.count_append]
  exact Nat.le_add_left _ _

end Conserved

variable {core : BcCore} {platform : Platform} {foreign : List Extent}

/-- The blocks of a context with arenas are in their places. -/
theorem ArenaInv.conserved {s : ArenaState} (inv : ArenaInv platform foreign s) :
    Conserved s.world.kernel (Lifetime.running s).places foreign := by
  obtain ⟨views, heap, perm⟩ := inv
  have live := heap.liveBlocks_perm perm
  have ledger := heap.ledger
  have here : Conserved s.world.kernel
      (arenaBlocks views ++ s.world.ctx.arenaCache.blocks ++ s.world.ctx.ownBlocks) foreign :=
    ⟨ledger.mapped, ledger.logged, ledger.apart⟩
  refine here.perm (List.perm_append_comm.trans ?_)
  rw [Lifetime.places, List.append_assoc]
  exact (live.symm.append_right _).append_left _

/-- A destruction unmaps the cache and the context's own mappings. -/
theorem ArenaInv.destroyed {s : ArenaState} (inv : ArenaInv platform foreign s) :
    Conserved (contextDestroy s.world).2 (liveBlocks s.world.mem s.arenas) foreign := by
  have conserved := inv.conserved
  have ordered : (Lifetime.running s).places.Perm
      (s.world.ctx.arenaCache.blocks ++
        (s.world.ctx.ownBlocks ++ liveBlocks s.world.mem s.arenas)) := List.perm_append_comm
  exact (conserved.perm ordered).unmapAll.unmapAll

/-- What holds at each moment of a lifetime. -/
def LifetimeInv (platform : Platform) (foreign : List Extent) : Lifetime → Prop
  | .unborn kernel _ => kernel = Kernel.fresh foreign
  | .failed kernel => Conserved kernel [] foreign
  | .running s => ArenaInv platform foreign s
  | .destroyed s kernel => Conserved kernel (liveBlocks s.world.mem s.arenas) foreign

theorem LifetimeInv.conserved {t : Lifetime} (inv : LifetimeInv platform foreign t) :
    Conserved t.kernel t.places foreign := by
  cases t with
  | unborn kernel m =>
      obtain rfl : kernel = Kernel.fresh foreign := inv
      exact ⟨.refl _, .refl _, List.Pairwise.nil⟩
  | failed kernel => exact inv
  | running s => exact ArenaInv.conserved inv
  | destroyed s kernel => exact inv

/-- **Each event of a lifetime keeps every block in its place.** -/
theorem LifetimeInv.step {t t' : Lifetime} {event : LifetimeEvent}
    (inv : LifetimeInv platform foreign t)
    (step : (lifetimeSystem core platform foreign).Next t event t') :
    LifetimeInv platform foreign t' := by
  cases t with
  | unborn kernel m =>
      obtain rfl : kernel = Kernel.fresh foreign := inv
      cases event with
      | create config answers =>
          obtain ⟨word, rfl⟩ := step
          generalize result : contextCreate core platform config (Kernel.fresh foreign) m answers =
            outcome
          obtain ⟨kernel, m', created⟩ := outcome
          cases created with
          | none =>
              obtain ⟨mapped, blocks, logged, unmapped⟩ := contextCreate_none result
              refine ⟨List.Perm.of_eq mapped, ?_, List.Pairwise.nil⟩
              rw [logged]
              exact unmapped.symm
          | some ctx =>
              have start : (arenaSystem core platform foreign).Start
                  { world := ⟨ctx, m', kernel⟩, arenas := [], totals := [ctx.totalMappedBytes] } :=
                ⟨config, m, answers, word, result, rfl, rfl⟩
              exact ArenaInv.start start
      | call event => exact absurd step id
      | destroy => exact absurd step id
  | failed kernel => cases event <;> exact absurd step id
  | running s =>
      cases event with
      | create config answers => exact absurd step id
      | call event =>
          obtain ⟨s', next, rfl⟩ := step
          exact ArenaInv.step inv next
      | destroy =>
          obtain rfl := step
          exact ArenaInv.destroyed inv
  | destroyed s kernel => cases event <;> exact absurd step id

theorem LifetimeInv.reachable {t : Lifetime}
    (reachable : (lifetimeSystem core platform foreign).Reachable t) :
    LifetimeInv platform foreign t := by
  refine System.Reachable.invariant ?_ (fun inv step => LifetimeInv.step inv step) reachable
  rintro _ ⟨m, rfl⟩
  rfl

/-- **Mapping conservation.** At each moment of every lifetime the blocks obtained
from the kernel are in their places; no block is unmapped more often than it was
mapped, the size included; the cache has at most four blocks; and nothing remains
mapped after a failed creation, nor after a destruction without live arenas. -/
theorem mapping_conserved (core : BcCore) (platform : Platform) (foreign : List Extent)
    {t : Lifetime} (reachable : (lifetimeSystem core platform foreign).Reachable t) :
    Conserved t.kernel t.places foreign ∧
      (∀ e, t.kernel.unmapLog.count e ≤ t.kernel.mapLog.count e) ∧
      (∀ s, t = .running s → s.world.ctx.arenaCache.blocks.length ≤ 4) ∧
      (∀ kernel, t = .failed kernel →
        kernel.mapped.Perm foreign ∧ kernel.mapLog.Perm kernel.unmapLog) ∧
      (∀ s kernel, t = .destroyed s kernel → s.arenas = [] →
        kernel.mapped.Perm foreign ∧ kernel.mapLog.Perm kernel.unmapLog) := by
  have conserved := (LifetimeInv.reachable reachable).conserved
  refine ⟨conserved, conserved.unmapped_le, fun s _ => ?_, ?_, ?_⟩
  · rw [ArenaCache.blocks_length]
    exact s.world.ctx.arenaCache.count_le
  · rintro kernel rfl
    exact ⟨conserved.mapped, conserved.logged⟩
  · rintro s kernel rfl none
    have nothing : liveBlocks s.world.mem s.arenas = [] := by
      rw [none]
      rfl
    rw [Lifetime.places, nothing] at conserved
    exact ⟨conserved.mapped, conserved.logged⟩

/-- A context may be used for any run of its arenas. -/
theorem lifetime_runs {s t : ArenaState} {events : List ArenaEvent}
    (here : (lifetimeSystem core platform foreign).Reachable (.running s))
    (run : (arenaSystem core platform foreign).Run s events t) :
    (lifetimeSystem core platform foreign).Reachable (.running t) := by
  induction run with
  | nil => exact here
  | snoc _ step ih =>
      exact ih.next (show Lifetime.Next core platform foreign _ (.call _) _ from ⟨_, step, rfl⟩)

/-! ## Four lifetimes -/

/-- A creation that cannot map its page-class map. -/
def failedCreation : Lifetime :=
  .born (contextCreate BcCore.reference Platform.x86 (some ⟨8192, true, 1, 7⟩) (Kernel.fresh [])
    (fun _ => 0) ⟨some 4096, some 65536, none⟩)

/-- A destruction while two arenas are live and a block is in the cache. -/
def recycledDestroyed : Lifetime :=
  .destroyed recycledBlock (contextDestroy recycledBlock.world).2

/-- The arenas are destroyed, and the cache is full of their blocks. -/
def emptiedArenas : ArenaState :=
  (System.performAll (ArenaState.event BcCore.reference Platform.x86) recycledBlock
    [.destroy 131072, .destroy 524288]).2

/-- A destruction without live arenas. -/
def emptiedDestroyed : Lifetime :=
  .destroyed emptiedArenas (contextDestroy emptiedArenas.world).2

theorem smallConfig_word : ContextConfig.Word (some ⟨8192, true, 1, 7⟩) := by
  rintro c ⟨rfl⟩
  decide

theorem unborn_reachable : (lifetimeSystem BcCore.reference Platform.x86 []).Reachable
    (.unborn (Kernel.fresh []) fun _ => 0) :=
  .start ⟨fun _ => 0, rfl⟩

theorem failedCreation_reachable :
    (lifetimeSystem BcCore.reference Platform.x86 []).Reachable failedCreation :=
  unborn_reachable.next (show Lifetime.Next BcCore.reference Platform.x86 [] _
    (.create (some ⟨8192, true, 1, 7⟩) ⟨some 4096, some 65536, none⟩) failedCreation from
    ⟨smallConfig_word, rfl⟩)

theorem recycledBlock_running :
    (lifetimeSystem BcCore.reference Platform.x86 []).Reachable (.running recycledBlock) := by
  have born : (lifetimeSystem BcCore.reference Platform.x86 []).Reachable
      (.running smallContext) :=
    unborn_reachable.next (show Lifetime.Next BcCore.reference Platform.x86 [] _
      (.create (some ⟨8192, true, 1, 7⟩) ⟨some 4096, some 65536, some 8192⟩)
      (.running smallContext) from ⟨smallConfig_word, rfl⟩)
  exact lifetime_runs born recycledBlock_run

theorem emptiedArenas_running :
    (lifetimeSystem BcCore.reference Platform.x86 []).Reachable (.running emptiedArenas) := by
  have allowed : System.AllowsAll (ArenaState.event BcCore.reference Platform.x86)
      ArenaState.Allows recycledBlock [.destroy 131072, .destroy 524288] := by decide +kernel
  exact lifetime_runs recycledBlock_running
    (arenaRun_calls (recycledBlock_run.reachable smallContext_start) allowed)

/-- A failed creation has given back its two mappings. A block in the cache is in its
place. A destruction leaves the blocks of the live arenas mapped, and without live arenas
nothing. -/
theorem mapping_conserved_lifetimes :
    (failedCreation.kernel.mapped.Perm [] ∧
        failedCreation.kernel.mapLog.Perm failedCreation.kernel.unmapLog ∧
        failedCreation.kernel.mapLog = [⟨65536, 8192⟩, ⟨4096, 4096⟩]) ∧
      (Conserved recycledBlock.world.kernel (Lifetime.running recycledBlock).places [] ∧
        recycledBlock.world.ctx.arenaCache.blocks = [⟨393216, 8192⟩]) ∧
      (Conserved recycledDestroyed.kernel recycledDestroyed.places [] ∧
        recycledDestroyed.places = [⟨524288, 4096⟩, ⟨131072, 4096⟩, ⟨262144, 8192⟩]) ∧
      (emptiedArenas.world.ctx.arenaCache.blocks.length ≤ 4 ∧
        emptiedArenas.world.ctx.arenaCache.blocks.length = 4) ∧
      emptiedDestroyed.kernel.mapped.Perm [] ∧
        emptiedDestroyed.kernel.mapLog.Perm emptiedDestroyed.kernel.unmapLog ∧
        ∀ e, emptiedDestroyed.kernel.unmapLog.count e ≤ emptiedDestroyed.kernel.mapLog.count e := by
  have failed : failedCreation = .failed failedCreation.kernel := rfl
  have destroyed : (lifetimeSystem BcCore.reference Platform.x86 []).Reachable
      recycledDestroyed :=
    recycledBlock_running.next
      (show Lifetime.Next BcCore.reference Platform.x86 [] _ .destroy _ from rfl)
  have emptied : (lifetimeSystem BcCore.reference Platform.x86 []).Reachable emptiedDestroyed :=
    emptiedArenas_running.next
      (show Lifetime.Next BcCore.reference Platform.x86 [] _ .destroy _ from rfl)
  have none : emptiedArenas.arenas = [] := by decide +kernel
  obtain ⟨_, _, _, unmapped, _⟩ :=
    mapping_conserved BcCore.reference Platform.x86 [] failedCreation_reachable
  obtain ⟨cached, _, _, _, _⟩ :=
    mapping_conserved BcCore.reference Platform.x86 [] recycledBlock_running
  obtain ⟨left, _, _, _, _⟩ := mapping_conserved BcCore.reference Platform.x86 [] destroyed
  obtain ⟨_, _, full, _, _⟩ :=
    mapping_conserved BcCore.reference Platform.x86 [] emptiedArenas_running
  obtain ⟨_, once, _, _, nothing⟩ := mapping_conserved BcCore.reference Platform.x86 [] emptied
  refine ⟨⟨(unmapped _ failed).1, (unmapped _ failed).2, ?_⟩, ⟨cached, ?_⟩, ⟨left, ?_⟩,
    ⟨full _ rfl, ?_⟩, (nothing _ _ rfl none).1, (nothing _ _ rfl none).2, once⟩
  all_goals decide +kernel

end BcAllocators
