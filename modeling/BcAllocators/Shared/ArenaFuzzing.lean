import BcAllocators.Shared.Fuzzing
import BcAllocators.Shared.Process

/-!
# The fuzzing target of the arenas

`fuzz_bc_allocators_arena.c` reads its input three bytes at a time as calls of one arena
of a megabyte. The strings that it copies into the arena are built in a buffer on the
stack, which is memory of the process and not of the context.

Whatever the input, the turns of the target are calls of a correct client of the arena
and writes to the buffer (`fuzzArenaStep_run`), so the target is a run of a process. Its
loops end, and it leaves nothing mapped and nothing to report (`fuzz_arena_clean`).
-/

set_option autoImplicit false

namespace BcAllocators

open Machine

variable {core : BcCore} {platform : Platform} {foreign : List Extent} {s s' : ContextState}
variable {arena buffer : Nat} {w : World}

/-! ## The target -/

/-- `BC_ALLOCATORS_ARENA_SMALL_CAPACITY` -/
def arenaSmallCapacity : Nat := 1 * 1024 * 1024

/-- `sizeof(buffer)` -/
def fuzzBufferSize : Nat := 64

/-- The size that two bytes of the input ask for. -/
def fuzzArenaRequested (second third : UInt8) : Nat :=
  let requested := second.toNat <<< 3 ||| third.toNat
  if requested = 0 then 1 else requested

/-- The alignment that a byte of the input asks for. -/
def fuzzAlignment (third : UInt8) : Nat := 1 <<< (third &&& 7).toNat

/-- What the target writes to its buffer: bytes of the input from the `i`-th on, none of
them zero, and the terminator. -/
def fuzzString (data : List UInt8) (i requested : Nat) : List UInt8 :=
  let n := if requested < fuzzBufferSize - 1 then requested else fuzzBufferSize - 1
  (List.range n).map (fun k => data.getD ((i + k) % data.length) 0 ||| 1) ++ [0]

section target

variable (core : BcCore) (platform : Platform) (buffer arena : Nat) (answer : Option Nat)
  (data : List UInt8)

/-- One turn of the loop, for the three bytes from the `i`-th on. The arena is fixed, so
the kernel's answer is of no use to it. -/
def fuzzArenaStep (i : Nat) (w : World) (first second third : UInt8) : Option World :=
  let op := first &&& 7
  let requested := fuzzArenaRequested second third
  if op = 0 then
    some (arenaAllocate core platform w arena requested (fuzzAlignment third) answer).1
  else if op = 1 then
    let w := { w with mem := storeBytes w.mem buffer (fuzzString data i requested) }
    some (arenaCopyString core platform w arena buffer answer).1
  else if op = 2 then arenaReset w arena
  else if op = 3 then arenaResetSecure core platform w arena
  else if op = 4 then arenaReleasePages platform w arena
  else if op = 5 then (arenaGetStats w.mem arena).map fun _ => w
  else some w

/-- The loop over the input; one or two bytes at the end are not read. -/
def fuzzArenaLoop : Nat → World → List UInt8 → Option World
  | i, w, first :: second :: third :: rest =>
      match fuzzArenaStep core platform buffer arena answer data i w first second third with
      | none => none
      | some w => fuzzArenaLoop (i + 3) w rest
  | _, w, _ => some w

/-- The world in which the target destroys its context. -/
def fuzzArenaWorld (w : World) : Option World :=
  match arenaCreate core platform w arenaSmallCapacity answer with
  | (w, ⟨false, _⟩) => some w
  | (w, ⟨true, arena⟩) =>
    match fuzzArenaLoop core platform buffer arena answer data 0 w data with
    | none => none
    | some w => arenaDestroy w arena

end target

/-- `LLVMFuzzerTestOneInput`: the reports of leaks, and the ledger at the end, if its
loops end. -/
def fuzzArena (core : BcCore) (platform : Platform) (buffer : Nat) (kernel : Kernel) (m : Memory)
    (answers : CreateAnswers) (answer : Option Nat) (data : List UInt8) :
    Option (List LeakReport × Kernel) :=
  match contextCreate core platform none kernel m answers with
  | (kernel, _, none) => some ([], kernel)
  | (kernel, m, some ctx) =>
    (fuzzArenaWorld core platform buffer answer data ⟨ctx, m, kernel⟩).map contextDestroy

/-! ## What the target asks for -/

theorem fuzzArenaRequested_lt (second third : UInt8) : fuzzArenaRequested second third < 2 ^ 64 := by
  have high : second.toNat <<< 3 < 2 ^ 64 := by
    rw [Nat.shiftLeft_eq]
    have := second.toNat_lt
    omega
  have low : third.toNat < 2 ^ 64 := third.toNat_lt.trans (by decide)
  have both := Nat.or_lt_two_pow high low
  unfold fuzzArenaRequested
  dsimp only
  split
  · decide
  · exact both

theorem fuzzAlignment_lt (third : UInt8) : fuzzAlignment third < 2 ^ 64 := by
  have small : (third &&& 7).toNat < 64 := by
    rw [UInt8.toNat_and]
    exact Nat.lt_of_le_of_lt Nat.and_le_right (by decide)
  unfold fuzzAlignment
  rw [Nat.shiftLeft_eq, Nat.one_mul]
  exact Nat.pow_lt_pow_right (by decide) small

/-- The string and its terminator fit in the buffer. -/
theorem fuzzString_length (data : List UInt8) (i requested : Nat) :
    (fuzzString data i requested).length ≤ fuzzBufferSize := by
  unfold fuzzString fuzzBufferSize
  dsimp only
  rw [List.length_append, List.length_map, List.length_range, List.length_singleton]
  split <;> omega

/-! ## A process -/

/-- The target has one arena, and no callback. -/
structure FuzzArenaInv (core : BcCore) (platform : Platform) (foreign : List Extent) (arena : Nat)
    (s : ContextState) : Prop where
  inv : SharedInv core platform foreign s
  silent : s.world.ctx.leakCallback = NULL
  arenas : s.arenas.map LiveArena.address = [arena]

/-- The target gets from a state to a world by a run of its process. -/
def FuzzArenaReaches (core : BcCore) (platform : Platform) (foreign : List Extent) (arena : Nat)
    (s : ContextState) (w : World) : Prop :=
  ∃ labels s', (processSystem core platform foreign).Run s labels s' ∧ s'.world = w ∧
    FuzzArenaInv core platform foreign arena s'

theorem FuzzArenaInv.live (inv : FuzzArenaInv core platform foreign arena s) :
    s.arena.Live arena := by
  have member : arena ∈ s.arenas.map LiveArena.address := by
    rw [inv.arenas]
    exact List.mem_cons_self
  obtain ⟨h, live, address⟩ := List.mem_map.mp member
  exact ⟨h, live, address⟩

/-- The arena of the target is in front of no others that it knows. -/
theorem FuzzArenaInv.front (inv : FuzzArenaInv core platform foreign arena s) :
    ∃ a rest, a.address = arena ∧ ArenaHeap platform s.world (a :: rest) foreign := by
  obtain ⟨views, heap, perm⟩ := inv.inv.2.1
  obtain ⟨h, member, rfl⟩ := inv.live
  obtain ⟨a, rest, rfl, _, first, _⟩ := ArenaInv.split heap perm member
  exact ⟨a, rest, rfl, first⟩

theorem changeArena_addresses (arenas : List LiveArena) (address : Nat)
    (change : List Alloc → List Alloc) :
    (changeArena arenas address change).map LiveArena.address =
      arenas.map LiveArena.address := by
  unfold changeArena
  rw [List.map_map]
  refine List.map_congr_left fun h _ => ?_
  rw [Function.comp_apply]
  split <;> rfl

theorem FuzzArenaInv.stay (inv : FuzzArenaInv core platform foreign arena s) :
    FuzzArenaReaches core platform foreign arena s s.world :=
  ⟨[], s, .nil s, rfl, inv⟩

/-- One call of the arena. -/
theorem FuzzArenaInv.call (inv : FuzzArenaInv core platform foreign arena s) (call : ArenaCall)
    (allowed : s.arena.Allows call) {t : ArenaState} {result : PtrResult}
    (performed : s.arena.perform core platform call = some (t, result))
    (same : t.arenas.map LiveArena.address = s.arenas.map LiveArena.address) :
    FuzzArenaReaches core platform foreign arena s t.world := by
  have own : (arenaSystem core platform foreign).Next s.arena ⟨call, result⟩ t :=
    ⟨allowed, performed⟩
  have next : (contextSystem core platform foreign).Next s (.inr ⟨call, result⟩)
      (s.withArena t) := ⟨t, own, rfl⟩
  have step : (processSystem core platform foreign).Next s (.inl (.inr ⟨call, result⟩))
      (s.withArena t) := next
  obtain ⟨_, update⟩ := (inv.inv.2.1.guarantee own).update
  obtain ⟨_, _, _, callback, _⟩ := update.fixed
  exact ⟨_, _, (System.Run.nil s).snoc step, rfl, inv.inv.step next,
    callback.trans inv.silent, same.trans inv.arenas⟩

/-- A write to the buffer. -/
theorem FuzzArenaInv.write (inv : FuzzArenaInv core platform foreign arena s) {x : ForeignWrite}
    (within : x.Within foreign) :
    (processSystem core platform foreign).Next s (.inr x)
        (s.withMemory (x.apply s.world.mem)) ∧
      FuzzArenaInv core platform foreign arena (s.withMemory (x.apply s.world.mem)) :=
  ⟨⟨within, rfl⟩, SharedInv.foreign_stable inv.inv (.write (within.changes _)), inv.silent,
    inv.arenas⟩

/-- A request to the arena, by whatever call. -/
theorem FuzzArenaInv.request (inv : FuzzArenaInv core platform foreign arena s)
    (call : ArenaCall) (allowed : s.arena.Allows call) {size alignment : Nat}
    {result : World × PtrResult}
    (performed : s.arena.perform core platform call =
      some (s.arena.allocated arena size alignment result)) :
    FuzzArenaReaches core platform foreign arena s result.1 := by
  refine inv.call call allowed performed ?_
  unfold ArenaState.after
  dsimp only
  split
  · exact changeArena_addresses _ _ _
  · rfl

/-- A call that resets the arena. -/
theorem FuzzArenaInv.cleared (inv : FuzzArenaInv core platform foreign arena s)
    (call : ArenaCall) (allowed : s.arena.Allows call)
    (performed : s.arena.perform core platform call =
      some (s.arena.after w (changeArena s.arenas arena fun _ => []), ⟨true, NULL⟩)) :
    FuzzArenaReaches core platform foreign arena s w :=
  inv.call call allowed performed (changeArena_addresses s.arenas arena fun _ => [])

/-- A string is built in the buffer and copied. -/
theorem FuzzArenaInv.copyString (inv : FuzzArenaInv core platform foreign arena s)
    (room : ∃ f ∈ foreign, f.start ≤ buffer ∧ buffer + fuzzBufferSize ≤ f.stop)
    (answer : Option Nat) (data : List UInt8) (i requested : Nat) :
    FuzzArenaReaches core platform foreign arena s
      (arenaCopyString core platform
        { s.world with mem := storeBytes s.world.mem buffer (fuzzString data i requested) }
        arena buffer answer).1 := by
  obtain ⟨f, member, lower, upper⟩ := room
  have short := fuzzString_length data i requested
  have within : ForeignWrite.Within foreign ⟨buffer, fuzzString data i requested⟩ :=
    ⟨f, member, lower, (Nat.add_le_add_left short buffer).trans upper⟩
  obtain ⟨step, written⟩ := inv.write within
  have copied := written.request (.copyString arena buffer answer) written.live rfl
  obtain ⟨labels, s', run, world, inv'⟩ := copied
  exact ⟨_, s', ((System.Run.nil s).snoc step).append run, world, inv'⟩

/-- **One turn of the loop returns**, and is a run of a process. -/
theorem fuzzArenaStep_run (inv : FuzzArenaInv core platform foreign arena s)
    (room : ∃ f ∈ foreign, f.start ≤ buffer ∧ buffer + fuzzBufferSize ≤ f.stop)
    (answer : Option Nat) (data : List UInt8) (i : Nat) (first second third : UInt8) :
    ∃ w, fuzzArenaStep core platform buffer arena answer data i s.world first second third =
        some w ∧ FuzzArenaReaches core platform foreign arena s w := by
  obtain ⟨a, rest, address, heap⟩ := inv.front
  unfold fuzzArenaStep
  dsimp only
  split
  · exact ⟨_, rfl, inv.request (.allocate arena _ _ answer)
      ⟨inv.live, fuzzArenaRequested_lt second third, fuzzAlignment_lt third⟩ rfl⟩
  split
  · exact ⟨_, rfl, inv.copyString room answer data i _⟩
  split
  · obtain ⟨w, returns, _⟩ := arenaReset_outcome heap
    rw [address] at returns
    refine ⟨w, returns, inv.cleared (.reset arena) inv.live ?_⟩
    rw [ArenaState.perform, show s.arena.world = s.world from rfl, returns]
    rfl
  split
  · obtain ⟨w, returns, _⟩ := arenaResetSecure_outcome core heap
    rw [address] at returns
    refine ⟨w, returns, inv.cleared (.resetSecure arena) inv.live ?_⟩
    rw [ArenaState.perform, show s.arena.world = s.world from rfl, returns]
    rfl
  split
  · have returns := arenaReleasePages_outcome heap
    rw [address] at returns
    exact ⟨_, returns, inv.stay⟩
  split
  · have figures := arenaGetStats_outcome heap
    rw [address] at figures
    rw [figures]
    exact ⟨_, rfl, inv.stay⟩
  · exact ⟨_, rfl, inv.stay⟩

/-- **The loop ends**, and is a run of a process. -/
theorem fuzzArenaLoop_run
    (room : ∃ f ∈ foreign, f.start ≤ buffer ∧ buffer + fuzzBufferSize ≤ f.stop)
    (answer : Option Nat) (data : List UInt8) (i : Nat) (w : World) (rest : List UInt8) :
    ∀ s : ContextState, s.world = w → FuzzArenaInv core platform foreign arena s →
      ∃ w', fuzzArenaLoop core platform buffer arena answer data i w rest = some w' ∧
        FuzzArenaReaches core platform foreign arena s w' := by
  fun_induction fuzzArenaLoop core platform buffer arena answer data i w rest with
  | case1 i w first second third rest stuck =>
      rintro s rfl inv
      obtain ⟨w', returns, _⟩ := fuzzArenaStep_run inv room answer data i first second third
      rw [stuck] at returns
      cases returns
  | case2 i w first second third rest w₁ turn ih =>
      rintro s rfl inv
      obtain ⟨w', returns, labels, s', run, world, inv'⟩ :=
        fuzzArenaStep_run inv room answer data i first second third
      obtain rfl := Option.some.inj (turn.symm.trans returns)
      obtain ⟨w'', ends, labels', s'', run', world', inv''⟩ := ih s' world inv'
      exact ⟨w'', ends, labels ++ labels', s'', run.append run', world', inv''⟩
  | case3 i w rest short =>
      rintro s rfl inv
      exact ⟨_, rfl, inv.stay⟩

/-! ## The whole target -/

/-- What is left at the end of a run that has destroyed all arenas, in a context without
a callback. -/
theorem SharedInv.silent_end (inv : SharedInv core platform foreign s)
    (silent : s.world.ctx.leakCallback = NULL) (nothing : s.arenas = []) :
    (contextDestroy s.world).1 = [] ∧ (contextDestroy s.world).2.mapped.Perm foreign ∧
      (contextDestroy s.world).2.mapLog.Perm (contextDestroy s.world).2.unmapLog := by
  have conserved := inv.2.1.destroyed
  rw [show s.arena.arenas = [] from nothing] at conserved
  refine ⟨?_, conserved.mapped, conserved.logged⟩
  change leakReports s.world.ctx = []
  rw [leakReports, if_neg fun both => both.2 silent]

/-- A process that ends with its arenas destroyed, in a world. -/
structure FuzzArenaEnds (core : BcCore) (platform : Platform) (foreign : List Extent)
    (s : ContextState) (w : World) : Prop where
  run : ∃ labels t, (processSystem core platform foreign).Run s labels t ∧ t.world = w ∧
    t.arenas = []
  reports : (contextDestroy w).1 = []
  mapped : (contextDestroy w).2.mapped.Perm foreign
  logged : (contextDestroy w).2.mapLog.Perm (contextDestroy w).2.unmapLog

/-- A process that has destroyed its arenas ends. -/
theorem FuzzArenaEnds.of_run {labels : List ProcessEvent}
    (run : (processSystem core platform foreign).Run s labels s')
    (inv : SharedInv core platform foreign s') (silent : s'.world.ctx.leakCallback = NULL)
    (nothing : s'.arenas = []) : FuzzArenaEnds core platform foreign s s'.world := by
  obtain ⟨reports, mapped, logged⟩ := inv.silent_end silent nothing
  exact ⟨⟨labels, s', run, rfl, nothing⟩, reports, mapped, logged⟩

/-- **The arena of the target is destroyed.** -/
theorem FuzzArenaInv.destroyed (inv : FuzzArenaInv core platform foreign arena s) :
    ∃ w, arenaDestroy s.world arena = some w ∧ FuzzArenaEnds core platform foreign s w := by
  obtain ⟨a, rest, address, heap⟩ := inv.front
  obtain ⟨w, returns, _, update, _⟩ := arenaDestroy_outcome heap
  rw [address] at returns
  have performed : s.arena.perform core platform (.destroy arena) =
      some (s.arena.after w (dropArena s.arenas arena), ⟨true, NULL⟩) := by
    rw [ArenaState.perform, show s.arena.world = s.world from rfl, returns]
    rfl
  have next : (contextSystem core platform foreign).Next s (.inr ⟨.destroy arena, ⟨true, NULL⟩⟩)
      (s.withArena (s.arena.after w (dropArena s.arenas arena))) :=
    ⟨_, ⟨inv.live, performed⟩, rfl⟩
  have step : (processSystem core platform foreign).Next s
      (.inl (.inr ⟨.destroy arena, ⟨true, NULL⟩⟩))
      (s.withArena (s.arena.after w (dropArena s.arenas arena))) := next
  have nothing : dropArena s.arenas arena = [] := by
    refine List.filter_eq_nil_iff.mpr fun h member => ?_
    have address := List.mem_map_of_mem (f := LiveArena.address) member
    rw [inv.arenas, List.mem_singleton] at address
    simpa using address
  exact ⟨w, returns, FuzzArenaEnds.of_run ((System.Run.nil s).snoc step) (inv.inv.step next)
    (update.fixed.2.2.2.1.trans inv.silent) nothing⟩

/-- A process that gets to another one ends as that one does. -/
theorem FuzzArenaEnds.after {labels : List ProcessEvent}
    (run : (processSystem core platform foreign).Run s labels s')
    (ends : FuzzArenaEnds core platform foreign s' w) :
    FuzzArenaEnds core platform foreign s w := by
  obtain ⟨⟨labels', t, run', world, nothing⟩, reports, mapped, logged⟩ := ends
  exact ⟨⟨labels ++ labels', t, run.append run', world, nothing⟩, reports, mapped, logged⟩

/-- **The target from its context to the end** is a run of a process. -/
theorem fuzzArenaWorld_run (fresh : FreshContext core platform foreign s)
    (silent : s.world.ctx.leakCallback = NULL)
    (room : ∃ f ∈ foreign, f.start ≤ buffer ∧ buffer + fuzzBufferSize ≤ f.stop)
    (answer : Option Nat) (data : List UInt8) :
    ∃ w, fuzzArenaWorld core platform buffer answer data s.world = some w ∧
      FuzzArenaEnds core platform foreign s w := by
  have none : s.arenas = [] := by
    obtain ⟨_, _, _, _, _, _, _, _, arenas, _⟩ := fresh
    exact arenas
  have inv := SharedInv.start fresh
  generalize made : arenaCreate core platform s.world arenaSmallCapacity answer = result
  have own : (arenaSystem core platform foreign).Next s.arena
      ⟨.create arenaSmallCapacity answer, (s.arena.created result).2⟩ (s.arena.created result).1 :=
    ⟨show arenaSmallCapacity < 2 ^ 64 by decide, congrArg (some ∘ s.arena.created) made⟩
  have next : (contextSystem core platform foreign).Next s
      (.inr ⟨.create arenaSmallCapacity answer, (s.arena.created result).2⟩)
      (s.withArena (s.arena.created result).1) := ⟨_, own, rfl⟩
  have step : (processSystem core platform foreign).Next s
      (.inl (.inr ⟨.create arenaSmallCapacity answer, (s.arena.created result).2⟩))
      (s.withArena (s.arena.created result).1) := next
  have run := (System.Run.nil s).snoc step
  obtain ⟨_, update⟩ := (inv.2.1.guarantee own).update
  have callback := update.fixed.2.2.2.1.trans silent
  obtain ⟨w, ok, arena⟩ := result
  unfold fuzzArenaWorld
  rw [made]
  cases ok with
  | false => exact ⟨w, rfl, FuzzArenaEnds.of_run run (inv.step next) callback none⟩
  | true =>
      have created : FuzzArenaInv core platform foreign arena
          (s.withArena (s.arena.created (w, ⟨true, arena⟩)).1) := by
        refine ⟨inv.step next, callback, ?_⟩
        change (⟨arena, []⟩ :: s.arenas).map LiveArena.address = [arena]
        rw [none]
        rfl
      obtain ⟨w', ends, labels, s', looped, rfl, inv'⟩ :=
        fuzzArenaLoop_run room answer data 0 w data _ rfl created
      obtain ⟨w'', returns, destroyed⟩ := inv'.destroyed
      dsimp only
      rw [ends]
      exact ⟨w'', returns, (destroyed.after looped).after run⟩

/-- **The target returns, and is a correct client.** Whatever the input, the answers of
the kernel and where the buffer lies in memory that is not the context's: the loops of
the target end, its calls and its writes to the buffer are a run of a process, and its
end reports nothing, leaves mapped what others have mapped and has unmapped every block
that was mapped, once. -/
theorem fuzz_arena_clean (core : BcCore) (platform : Platform) (foreign : List Extent)
    (m : Memory) (answers : CreateAnswers) (answer : Option Nat) (data : List UInt8)
    (room : ∃ f ∈ foreign, f.start ≤ buffer ∧ buffer + fuzzBufferSize ≤ f.stop) :
    ∃ result, fuzzArena core platform buffer (Kernel.fresh foreign) m answers answer data =
        some result ∧
      result.1 = [] ∧ result.2.mapped.Perm foreign ∧ result.2.mapLog.Perm result.2.unmapLog ∧
      ∀ kernel m' ctx, contextCreate core platform none (Kernel.fresh foreign) m answers =
          (kernel, m', some ctx) →
        ∃ s labels t, FreshContext core platform foreign s ∧ s.world = ⟨ctx, m', kernel⟩ ∧
          (processSystem core platform foreign).Run s labels t ∧ t.arenas = [] ∧
          result = contextDestroy t.world := by
  unfold fuzzArena
  generalize created : contextCreate core platform none (Kernel.fresh foreign) m answers = result
  obtain ⟨kernel, m', made⟩ := result
  cases made with
  | none =>
      obtain ⟨mapped, blocks, logged, unmapped⟩ := contextCreate_none created
      refine ⟨_, rfl, rfl, List.Perm.of_eq mapped, ?_, ?_⟩
      · rw [logged]
        exact unmapped.symm
      · rintro _ _ _ ⟨⟩
  | some ctx =>
      obtain ⟨fresh, _, _, silent⟩ := fuzz_fresh created
      obtain ⟨w, returns, ⟨labels, t, run, rfl, nothing⟩, reports, mapped, logged⟩ :=
        fuzzArenaWorld_run fresh silent room answer data
      refine ⟨contextDestroy t.world, congrArg (Option.map contextDestroy) returns, reports, mapped,
        logged, ?_⟩
      rintro _ _ _ ⟨⟩
      exact ⟨_, labels, t, fresh, rfl, run, nothing, rfl⟩

/-- An input that allocates 43 bytes, copies a string of 17 and resets the arena. -/
def fuzzArenaInput : List UInt8 := [0, 5, 3, 1, 2, 1, 2, 0, 0]

/-- The target on a small input, with its buffer in a page of the process. -/
theorem fuzz_arena_clean_input :
    let answers : CreateAnswers := ⟨some 0x10000, some 0x100000, some 0x80000000⟩
    ∃ result, fuzzArena BcCore.reference Platform.x86 0x1000 (Kernel.fresh [⟨0x1000, 4096⟩])
        (fun _ => 0) answers (some 0x90000000) fuzzArenaInput = some result ∧
      result.1 = [] ∧ result.2.mapped.Perm [⟨0x1000, 4096⟩] ∧
      result.2.mapLog.Perm result.2.unmapLog ∧
      ∀ kernel m' ctx, contextCreate BcCore.reference Platform.x86 none
          (Kernel.fresh [⟨0x1000, 4096⟩]) (fun _ => 0) answers = (kernel, m', some ctx) →
        ∃ s labels t, FreshContext BcCore.reference Platform.x86 [⟨0x1000, 4096⟩] s ∧
          s.world = ⟨ctx, m', kernel⟩ ∧
          (processSystem BcCore.reference Platform.x86 [⟨0x1000, 4096⟩]).Run s labels t ∧
          t.arenas = [] ∧ result = contextDestroy t.world :=
  fuzz_arena_clean BcCore.reference Platform.x86 _ _ _ _ _
    ⟨⟨0x1000, 4096⟩, List.mem_cons_self, by decide, by decide⟩

end BcAllocators
