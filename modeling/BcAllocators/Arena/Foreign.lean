import BcAllocators.Arena.Client

/-!
# What others have mapped

The blocks of the arenas of a context are apart from what was mapped before the
context was created (`foreign_apart`). The ledger does not say so, but it has the
history: a block of an arena, in the cache or of the context itself was mapped at
some time, and at that time it was apart from everything mapped. A call adds at most
one mapping to the history (`ArenaState.perform_mapsApart`).
-/

set_option autoImplicit false

namespace BcAllocators

open Machine

variable {core : BcCore} {platform : Platform} {foreign : List Extent} {s s' : ArenaState}
variable {w w' : World} {views : List ArenaView} {answer : Option Nat}

/-! ## The history of a call -/

/-- The history is the same, or has one mapping more, which was admissible. -/
def MapsApart (platform : Platform) (w w' : World) : Prop :=
  w'.kernel.mapLog = w.kernel.mapLog ∨
    ∃ e, w.kernel.Admissible platform e ∧ w'.kernel.mapLog = e :: w.kernel.mapLog

theorem mapBlock_mapsApart {mmapSize block : Nat} {w₁ : World}
    (mapped : mapBlock platform w mmapSize answer = some (w₁, block))
    (kernel : w'.kernel = w₁.kernel) : MapsApart platform w w' := by
  rw [MapsApart, kernel]
  simp only [mapBlock] at mapped
  split at mapped
  · simp only [Option.some.injEq, Prod.mk.injEq] at mapped
    obtain ⟨rfl, _⟩ := mapped
    exact Or.inl rfl
  · split at mapped
    · cases mapped
    · next kernel m start granted =>
        simp only [Option.some.injEq, Prod.mk.injEq] at mapped
        obtain ⟨rfl, rfl⟩ := mapped
        obtain ⟨admissible, _, rfl, rfl⟩ := platformMap_eq_some.mp granted
        exact Or.inr ⟨_, admissible, rfl⟩

section calls

variable (core : BcCore) (platform : Platform) (w : World) (answer : Option Nat)

theorem arenaMakeFirst_mapsApart (capacity initialChunkSize maxChunkSize : Nat) (growable : Bool) :
    MapsApart platform w (arenaMakeFirst core platform w capacity initialChunkSize maxChunkSize
      growable answer).1 := by
  simp only [arenaMakeFirst]
  split
  · exact Or.inl rfl
  · split
    · exact Or.inl rfl
    · split
      · exact Or.inl rfl
      · next mapped => exact mapBlock_mapsApart mapped rfl

theorem arenaGrow_mapsApart (arena minCapacity : Nat) :
    MapsApart platform w (arenaGrow core platform w arena minCapacity answer).1 := by
  simp only [arenaGrow]
  split
  · exact Or.inl rfl
  · split
    · exact Or.inl rfl
    · next mapped => exact mapBlock_mapsApart mapped rfl

theorem arenaAllocate_mapsApart (arena size alignment : Nat) :
    MapsApart platform w (arenaAllocate core platform w arena size alignment answer).1 := by
  have grow := arenaGrow_mapsApart core platform w answer arena (wadd size alignment)
  simp only [arenaAllocate]
  split_ifs
  · exact Or.inl rfl
  · exact Or.inl rfl
  · -- a fixed arena
    split <;> exact Or.inl rfl
  · split
    · exact Or.inl rfl
    · split
      · next grown =>
          rw [grown] at grow
          exact grow
      · next grown =>
          rw [grown] at grow
          split <;> exact grow

theorem arenaCopyString_mapsApart (arena source : Nat) :
    MapsApart platform w (arenaCopyString core platform w arena source answer).1 := by
  have allocate := arenaAllocate_mapsApart core platform w answer arena
    (wadd (core.length w.mem source) 1) 1
  simp only [arenaCopyString]
  split
  · next allocated =>
      rw [allocated] at allocate
      exact allocate
  · next allocated =>
      rw [allocated] at allocate
      exact allocate

end calls

/-- Releasing a block maps nothing. -/
theorem releaseBlock_mapLog (w : World) (block mmapSize : Nat) :
    (releaseBlock w block mmapSize).kernel.mapLog = w.kernel.mapLog := by
  simp only [releaseBlock]
  split <;> rfl

theorem releaseChunks_mapLog {fuel : Nat} : ∀ {w w' : World} {chunk : Nat},
    releaseChunks fuel w chunk = some w' → w'.kernel.mapLog = w.kernel.mapLog := by
  induction fuel with
  | zero =>
      intro w w' chunk released
      cases released
  | succ fuel ih =>
      intro w w' chunk released
      rw [releaseChunks] at released
      split at released
      · cases released
        rfl
      · exact (ih released).trans (releaseBlock_mapLog _ _ _)

theorem arenaReset_mapLog {arena : Nat} (reset : arenaReset w arena = some w') :
    w'.kernel.mapLog = w.kernel.mapLog := by
  rw [arenaReset] at reset
  split at reset
  · cases reset
  · next released =>
      cases reset
      have same := releaseChunks_mapLog released
      exact same

theorem arenaResetSecure_mapLog {arena : Nat}
    (reset : arenaResetSecure core platform w arena = some w') :
    w'.kernel.mapLog = w.kernel.mapLog := by
  rw [arenaResetSecure] at reset
  split at reset
  · cases reset
  · have same := arenaReset_mapLog reset
    exact same

theorem arenaDestroy_mapLog {arena : Nat} (destroyed : arenaDestroy w arena = some w') :
    w'.kernel.mapLog = w.kernel.mapLog := by
  rw [arenaDestroy] at destroyed
  split at destroyed
  · cases destroyed
  · next released =>
      cases destroyed
      have same := releaseChunks_mapLog released
      exact (releaseBlock_mapLog _ _ _).trans same

theorem arenaReleasePages_mapLog {arena : Nat}
    (advised : arenaReleasePages platform w arena = some w') :
    w'.kernel.mapLog = w.kernel.mapLog := by
  rw [arenaReleasePages] at advised
  split at advised
  · cases advised
  · cases advised
    rfl

/-- **A call maps at most one block**, apart from all that is mapped. -/
theorem ArenaState.perform_mapsApart {call : ArenaCall} {result : PtrResult}
    (performed : s.perform core platform call = some (s', result)) :
    MapsApart platform s.world s'.world := by
  cases call with
  | create capacity answer =>
      cases performed
      exact arenaMakeFirst_mapsApart _ _ _ _ _ _ _ _
  | createGrowable initialChunkSize maxChunkSize answer =>
      cases performed
      change MapsApart platform s.world (arenaCreateGrowable core platform s.world
        initialChunkSize maxChunkSize answer).1
      simp only [arenaCreateGrowable]
      split_ifs
      · exact Or.inl rfl
      · exact Or.inl rfl
      · exact arenaMakeFirst_mapsApart _ _ _ _ _ _ _ _
  | allocate arena size alignment answer =>
      cases performed
      exact arenaAllocate_mapsApart _ _ _ _ _ _ _
  | copyString arena source answer =>
      cases performed
      exact arenaCopyString_mapsApart _ _ _ _ _ _
  | reset arena =>
      obtain ⟨w', reset, rfl⟩ := ArenaState.perform_reset performed
      exact Or.inl (arenaReset_mapLog reset)
  | resetSecure arena =>
      obtain ⟨w', reset, rfl⟩ := ArenaState.perform_resetSecure performed
      exact Or.inl (arenaResetSecure_mapLog reset)
  | releasePages arena =>
      obtain ⟨w', advised, rfl⟩ := ArenaState.perform_releasePages performed
      exact Or.inl (arenaReleasePages_mapLog advised)
  | destroy arena =>
      obtain ⟨w', destroyed, rfl⟩ := ArenaState.perform_destroy performed
      exact Or.inl (arenaDestroy_mapLog destroyed)
  | write address bytes =>
      cases performed
      exact Or.inl rfl

/-! ## Every run -/

/-- Everything that was mapped for the context was apart from what others have
mapped. -/
def HistoryApart (foreign : List Extent) (w : World) : Prop :=
  ∀ e ∈ w.kernel.mapLog, ∀ f ∈ foreign, e.Apart f

theorem HistoryApart.start (start : (arenaSystem core platform foreign).Start s) :
    HistoryApart foreign s.world := by
  obtain ⟨config, m, answers, word, result, _, _⟩ := start
  have created := contextCreate_some word result
  have history : s.world.kernel.mapLog =
      [⟨s.world.ctx.region.pageClassBase, pageClassMapSize platform config⟩,
        ⟨s.world.ctx.region.base, regionSize platform config⟩,
        ⟨s.world.ctx.address, contextMapSize platform⟩] := by
    rw [created.kernel_eq]
    rfl
  obtain ⟨_, _, _, _, address⟩ := created.address
  obtain ⟨_, _, _, _, region⟩ := created.region
  obtain ⟨_, _, _, _, pageClass⟩ := created.pageClass
  intro e member f others
  rw [history] at member
  simp only [List.mem_cons, List.not_mem_nil, or_false] at member
  rcases member with rfl | rfl | rfl
  · exact pageClass f (List.mem_cons_of_mem _ (List.mem_cons_of_mem _ others))
  · exact region f (List.mem_cons_of_mem _ others)
  · exact address f others

theorem HistoryApart.step {event : ArenaEvent} (apart : HistoryApart foreign s.world)
    (inv : ArenaInv platform foreign s)
    (step : (arenaSystem core platform foreign).Next s event s') :
    HistoryApart foreign s'.world := by
  obtain ⟨views, heap, _⟩ := inv
  intro e member f others
  rcases ArenaState.perform_mapsApart step.2 with same | ⟨new, admissible, grown⟩
  · exact apart e (same ▸ member) f others
  · rw [grown] at member
    rcases List.mem_cons.mp member with rfl | old
    · obtain ⟨_, _, _, _, free⟩ := admissible
      exact free f (heap.ledger.mapped.mem_iff.mpr (List.mem_append_right _ others))
    · exact apart e old f others

def ArenaHistory (platform : Platform) (foreign : List Extent) (s : ArenaState) : Prop :=
  ArenaInv platform foreign s ∧ HistoryApart foreign s.world

/-- **The blocks of the arenas, and those of the context, are apart from what others
have mapped.** -/
theorem foreign_apart (reachable : (arenaSystem core platform foreign).Reachable s)
    (heap : ArenaHeap platform s.world views foreign) :
    ∀ e ∈ arenaBlocks views ++ s.world.ctx.ownBlocks, ∀ f ∈ foreign, e.Apart f := by
  have history : ArenaHistory platform foreign s :=
    System.Reachable.invariant (fun s start => ⟨ArenaInv.start start, HistoryApart.start start⟩)
      (fun before step => ⟨before.1.step step, before.2.step before.1 step⟩) reachable
  intro e member f others
  refine history.2 e (heap.ledger.logged.mem_iff.mpr (List.mem_append_left _ ?_)) f others
  rcases List.mem_append.mp member with inArenas | own
  · exact List.mem_append_left _ (List.mem_append_left _ inArenas)
  · exact List.mem_append_right _ own

end BcAllocators
