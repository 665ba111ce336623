import BcAllocators.Shared.Accounting

/-!
# The fuzzing target of the pool

`fuzz_bc_allocators_pool.c` reads its input three bytes at a time as calls of the pool.
It keeps a table of the live blocks, at most 128 of them, picks blocks from it by index,
and frees what is left at the end.

Whatever the input and whatever the pool answers, the target is a correct client of the
pool (`fuzzStep_run`): the entries of its table are the live blocks, each once, so what
it frees and reallocates is live. Hence all that is proved about correct clients holds
for it, and it ends with nothing live, nothing reported and nothing mapped
(`fuzz_pool_clean`).
-/

set_option autoImplicit false

namespace BcAllocators

open Machine

variable {core : BcCore} {platform : Platform} {foreign : List Extent}

/-! ## The target -/

/-- `FUZZ_MAX_LIVE` -/
def fuzzMaxLive : Nat := 128

/-- The size that two bytes of the input ask for. -/
def fuzzRequested (high low : UInt8) : Nat :=
  let requested := high.toNat <<< 4 ||| low.toNat
  let requested := if requested = 0 then 1 else requested
  if requested > 4 <<< 20 then 4 <<< 20 else requested

/-- `live[index]` and `live_sizes[index]`, below `live_count` or still zero. -/
def fuzzEntry (live : List LiveBlock) (index : Nat) : LiveBlock := live.getD index ⟨NULL, 0⟩

/-- One turn of the loop, for the three bytes that it reads. The table is the entries of
`live` and `live_sizes` below `live_count`. -/
def fuzzStep (core : BcCore) (w : World) (live : List LiveBlock) (first second third : UInt8) :
    World × List LiveBlock :=
  let op := first &&& 3
  let requested := fuzzRequested second third
  if op = 0 ∧ live.length < fuzzMaxLive then
    let answer := poolAllocate core w requested
    if answer.2.ok = true ∧ answer.2.out ≠ NULL then
      (answer.1, live ++ [⟨answer.2.out, requested⟩])
    else (answer.1, live)
  else if op = 1 ∧ 0 < live.length then
    let idx := second.toNat % live.length
    let answer := poolReallocate core w (fuzzEntry live idx).ptr requested
    if answer.2.ok = true ∧ answer.2.out ≠ NULL then
      (answer.1, live.set idx ⟨answer.2.out, requested⟩)
    else (answer.1, live)
  else if op = 2 ∧ 0 < live.length then
    let idx := second.toNat % live.length
    let last := fuzzEntry live (live.length - 1)
    (poolFree w (fuzzEntry live idx).ptr, (live.set idx last).take (live.length - 1))
  else (w, live)

/-- The loop over the input; one or two bytes at the end are not read. -/
def fuzzLoop (core : BcCore) : World → List LiveBlock → List UInt8 → World × List LiveBlock
  | w, live, first :: second :: third :: data =>
      let after := fuzzStep core w live first second third
      fuzzLoop core after.1 after.2 data
  | w, live, _ => (w, live)

/-- The loop that frees what is left. -/
def fuzzFreeAll (w : World) (live : List LiveBlock) : World :=
  live.foldl (fun w b => poolFree w b.ptr) w

/-- The world in which the target destroys its context. -/
def fuzzWorld (core : BcCore) (w : World) (data : List UInt8) : World :=
  let after := fuzzLoop core w [] data
  fuzzFreeAll after.1 after.2

/-- `LLVMFuzzerTestOneInput`: the reports of leaks, and the ledger at the end. -/
def fuzzPool (core : BcCore) (platform : Platform) (kernel : Kernel) (m : Memory)
    (answers : CreateAnswers) (data : List UInt8) : List LeakReport × Kernel :=
  match contextCreate core platform none kernel m answers with
  | (kernel, _, none) => ([], kernel)
  | (kernel, m, some ctx) => contextDestroy (fuzzWorld core ⟨ctx, m, kernel⟩ data)

/-! ## The table -/

theorem fuzzRequested_le (high low : UInt8) : fuzzRequested high low ≤ 4 <<< 20 := by
  have capped : ∀ n : Nat, (if n > 4 <<< 20 then 4 <<< 20 else n) ≤ 4 <<< 20 := by
    intro n
    split
    · exact Nat.le_refl _
    · next small => exact Nat.not_lt.mp small
  exact capped _

/-- An index below the count is one of an entry. -/
theorem fuzzEntry_eq {live : List LiveBlock} {index : Nat} (within : index < live.length) :
    fuzzEntry live index = live[index] := List.getD_eq_getElem live _ within

/-- The table is the live blocks, and has room for as many as the target keeps. -/
structure FuzzInv (core : BcCore) (platform : Platform) (s : PoolState) (live : List LiveBlock) :
    Prop where
  inv : PoolInv core platform s
  room : 4 <<< 20 ≤ s.world.ctx.region.totalSize
  table : live.Perm s.live
  bound : live.length ≤ fuzzMaxLive

/-- An entry of the table is live, and the others are the other live blocks. -/
theorem FuzzInv.entry {s : PoolState} {live : List LiveBlock} (inv : FuzzInv core platform s live)
    {index : Nat} (within : index < live.length) :
    (fuzzEntry live index) ∈ s.live ∧
      (live.eraseIdx index).Perm (dropLive s.live (fuzzEntry live index).ptr) := by
  have member : fuzzEntry live index ∈ s.live := by
    rw [fuzzEntry_eq within]
    exact inv.table.mem_iff.mp (List.getElem_mem within)
  refine ⟨member, ?_⟩
  have here := (List.getElem_cons_eraseIdx_perm within).trans
    (inv.table.trans (dropLive_perm inv.inv.nodup member))
  rw [← fuzzEntry_eq within] at here
  exact here.cons_inv

/-! ## A correct client -/

/-- The target gets from a state to a result by so many calls of a correct client. -/
def FuzzReaches (core : BcCore) (platform : Platform) (calls : Nat) (s : PoolState)
    (result : World × List LiveBlock) : Prop :=
  ∃ events s', events.length ≤ calls ∧ (poolSystem core platform).Run s events s' ∧
    s'.world = result.1 ∧ FuzzInv core platform s' result.2

variable {s : PoolState} {live live' : List LiveBlock} {result : World × List LiveBlock}

theorem FuzzInv.stay (inv : FuzzInv core platform s live) (calls : Nat) :
    FuzzReaches core platform calls s (s.world, live) :=
  ⟨[], s, Nat.zero_le _, .nil s, rfl, inv⟩

theorem FuzzReaches.trans {calls calls' : Nat} {result' : World × List LiveBlock}
    (first : FuzzReaches core platform calls s result)
    (second : ∀ s' : PoolState, s'.world = result.1 → FuzzInv core platform s' result.2 →
      FuzzReaches core platform calls' s' result') :
    FuzzReaches core platform (calls + calls') s result' := by
  obtain ⟨events, s', few, run, world, inv⟩ := first
  obtain ⟨events', s'', few', run', world', inv'⟩ := second s' world inv
  refine ⟨events ++ events', s'', ?_, run.append run', world', inv'⟩
  rw [List.length_append]
  exact Nat.add_le_add few few'

/-- One allowed call, with the table that is left. -/
theorem FuzzInv.call (inv : FuzzInv core platform s live) (call : PoolCall)
    (allowed : s.Allows core call) (table : live'.Perm (s.perform core call).1.live)
    (bound : live'.length ≤ fuzzMaxLive) :
    FuzzReaches core platform 1 s ((s.perform core call).1.world, live') := by
  have step : (poolSystem core platform).Next s ⟨call, (s.perform core call).2⟩
      (s.perform core call).1 := ⟨allowed, rfl⟩
  obtain ⟨_, update⟩ := inv.inv.update step
  refine ⟨[_], _, Nat.le_refl 1, (System.Run.nil s).snoc step, rfl, inv.inv.step step, ?_, table,
    bound⟩
  rw [update.totalSize]
  exact inv.room

/-- What the target keeps after an allocating call are the live blocks: a pointer that is
handed out is never null. -/
theorem FuzzInv.answered {others : List LiveBlock} {size : Nat} {r : World × PtrResult}
    (after : PoolInv core platform (s.answered core others size r).1)
    (taken : live'.Perm (⟨r.2.out, size⟩ :: others)) (kept : live.Perm s.live) :
    (if r.2.ok = true ∧ r.2.out ≠ NULL then live' else live).Perm
      (s.answered core others size r).1.live := by
  unfold PoolState.answered at after ⊢
  by_cases ok : r.2.ok = true
  · dsimp only at after ⊢
    rw [if_pos ok] at after ⊢
    have some : r.2.out ≠ NULL := after.null_dead ⟨r.2.out, size⟩ List.mem_cons_self
    rw [if_pos ⟨ok, some⟩]
    exact taken
  · dsimp only
    rw [if_neg ok, if_neg fun both => ok both.1]
    exact kept

/-- A branch that keeps the world moves into the table. -/
theorem keep_world {p : Prop} [Decidable p] (w : World) (live' live : List LiveBlock) :
    (if p then (w, live') else (w, live)) = (w, if p then live' else live) := by
  split <;> rfl

/-- **One turn of the loop is at most one call of a correct client.** -/
theorem fuzzStep_run (inv : FuzzInv core platform s live) (first second third : UInt8) :
    FuzzReaches core platform 1 s (fuzzStep core s.world live first second third) := by
  have requested := (fuzzRequested_le second third).trans inv.room
  have bound := inv.bound
  unfold fuzzStep
  dsimp only
  split
  · next allocates =>
      rw [keep_world]
      refine inv.call (.allocate (fuzzRequested second third)) requested ?_ ?_
      · exact FuzzInv.answered (inv.inv.allocate requested)
          (List.perm_append_comm.trans (inv.table.cons _)) inv.table
      · split
        · rw [List.length_append, List.length_singleton]
          exact allocates.2
        · exact bound
  split
  · next reallocates =>
      have within := Nat.mod_lt second.toNat reallocates.2
      obtain ⟨member, others⟩ := inv.entry within
      have pointer : (fuzzEntry live (second.toNat % live.length)).ptr = NULL ∨
          s.Live (fuzzEntry live (second.toNat % live.length)).ptr := Or.inr ⟨_, member, rfl⟩
      rw [keep_world]
      refine inv.call (.reallocate _ (fuzzRequested second third)) ⟨requested, pointer⟩ ?_ ?_
      · exact FuzzInv.answered (inv.inv.reallocate requested pointer)
          ((List.set_perm_cons_eraseIdx within _).trans (others.cons _)) inv.table
      · split
        · rw [List.length_set]
          exact bound
        · exact bound
  split
  · next frees =>
      have within := Nat.mod_lt second.toNat frees.2
      obtain ⟨member, others⟩ := inv.entry within
      have last : live.length - 1 < live.length := by omega
      refine inv.call (.free _) (Or.inr (Or.inr ⟨_, member, rfl⟩)) ?_ ?_
      · -- the last entry fills the gap
        have taken := take_set_last_perm live (show second.toNat % live.length ≤
          live.length - 1 by omega) last
        rw [Nat.sub_add_cancel frees.2, List.take_length] at taken
        rw [fuzzEntry_eq last]
        have same := (List.getElem_cons_eraseIdx_perm within).trans taken
        exact same.cons_inv.symm.trans others
      · rw [List.length_take, List.length_set]
        omega
  · exact inv.stay 1

/-- **The loop is a run of a correct client.** -/
theorem fuzzLoop_run (core : BcCore) (platform : Platform) (w : World) (live : List LiveBlock)
    (data : List UInt8) : ∀ s : PoolState, s.world = w → FuzzInv core platform s live →
      FuzzReaches core platform (data.length / 3) s (fuzzLoop core w live data) := by
  fun_induction fuzzLoop core w live data with
  | case1 w live first second third data after ih =>
      rintro s rfl inv
      obtain ⟨events, s', few, reached⟩ := (fuzzStep_run inv first second third).trans ih
      refine ⟨events, s', few.trans ?_, reached⟩
      simp only [List.length_cons]
      omega
  | case2 w live data short =>
      rintro s rfl inv
      exact inv.stay _

/-- **What is left is freed**, and nothing is live. -/
theorem fuzzFreeAll_run (core : BcCore) (platform : Platform) (w : World) (live : List LiveBlock) :
    ∀ s : PoolState, s.world = w → FuzzInv core platform s live →
      FuzzReaches core platform live.length s (fuzzFreeAll w live, []) := by
  induction live generalizing w with
  | nil =>
      rintro s rfl inv
      exact inv.stay 0
  | cons b live ih =>
      rintro s rfl inv
      have within : 0 < (b :: live).length := Nat.succ_pos _
      obtain ⟨member, others⟩ := inv.entry within
      have free := inv.call (.free b.ptr) (Or.inr (Or.inr ⟨_, member, rfl⟩)) others
        ((Nat.le_succ _).trans inv.bound)
      have rest := free.trans (ih _)
      rwa [Nat.add_comm] at rest

/-! ## The whole target -/

/-- A run of clients of the pool is one of clients of its context. -/
theorem shared_run_pool {c : ContextState} {events : List PoolEvent} {p : PoolState}
    (run : (poolSystem core platform).Run c.pool events p) :
    (contextSystem core platform foreign).Run c (events.map Sum.inl) (c.withPool p) := by
  generalize start : c.pool = s at run
  induction run with
  | nil =>
      subst start
      exact .nil c
  | snoc _ step ih =>
      rw [List.map_append, List.map_singleton]
      exact ih.snoc ⟨_, step, rfl⟩

/-- The context that the target creates. -/
theorem fuzz_fresh {m m' : Memory} {answers : CreateAnswers} {kernel : Kernel} {ctx : Context}
    (created : contextCreate core platform none (Kernel.fresh foreign) m answers =
      (kernel, m', some ctx)) :
    FreshContext core platform foreign ⟨⟨ctx, m', kernel⟩, [], [], [], [ctx.totalMappedBytes]⟩ ∧
      4 <<< 20 ≤ ctx.region.totalSize ∧ ctx.trackingEnabled = true ∧ ctx.leakCallback = NULL := by
  have word : ContextConfig.Word none := fun _ same => by cases same
  have context := (contextCreate_some word created).context
  have size : ctx.region.totalSize = roundUp defaultMax platform.pageSize :=
    congrArg (fun c : Context => c.region.totalSize) context
  have page := platform.pageSize_pos
  have lower : defaultMax ≤ roundUp defaultMax platform.pageSize := le_roundUp page
  have upper : roundUp defaultMax platform.pageSize < defaultMax + platform.pageSize :=
    roundUp_lt page
  have most : platform.pageSize ≤ 2 ^ 62 :=
    Nat.pow_le_pow_right (by decide) (Nat.le_of_lt_succ platform.lt_long)
  have default : defaultMax = 2 ^ 30 := rfl
  refine ⟨⟨none, m, answers, word, created, ?_, rfl, rfl, rfl, rfl⟩, ?_, ?_, ?_⟩
  · change ctx.region.totalSize < 2 ^ 63
    omega
  · rw [size]
    exact (by decide : 4 <<< 20 ≤ defaultMax).trans lower
  · rw [context]
    rfl
  · rw [context]
    rfl

/-- The calls of the target from a fresh context to its destruction. -/
theorem fuzzWorld_run {s : PoolState} (inv : FuzzInv core platform s []) {data : List UInt8}
    (word : data.length < 2 ^ 64) :
    ∃ events t, events.length < 2 ^ 64 ∧ (poolSystem core platform).Run s events t ∧
      t.world = fuzzWorld core s.world data ∧ t.live = [] := by
  obtain ⟨calls, s', few, loop, world, inv'⟩ := fuzzLoop_run core platform s.world [] data s rfl inv
  obtain ⟨frees, t, rest, freeing, world', after⟩ :=
    fuzzFreeAll_run core platform _ _ s' world inv'
  have bound := inv'.bound
  unfold fuzzMaxLive at bound
  refine ⟨calls ++ frees, t, ?_, loop.append freeing, world', after.table.nil_eq.symm⟩
  rw [List.length_append]
  omega

/-- A context without a callback. -/
structure SilentInv (core : BcCore) (platform : Platform) (s : PoolState) : Prop where
  inv : PoolInv core platform s
  silent : s.world.ctx.leakCallback = NULL

/-- The pool installs no callback. -/
theorem SilentInv.run {t : PoolState} {events : List PoolEvent}
    (run : (poolSystem core platform).Run s events t) (inv : SilentInv core platform s) :
    SilentInv core platform t := by
  refine run.invariant (fun {t t' event} here step => ?_) inv
  obtain ⟨_, _, _, _, _, _, _, _, same⟩ := here.inv.update step
  refine ⟨here.inv.step step, ?_⟩
  rw [same]
  exact here.silent

/-- What is left at the end of a run of pool calls that keeps nothing. -/
structure FuzzClean (core : BcCore) (foreign : List Extent) (w : World) : Prop where
  counts : w.ctx.poolAllocCount = w.ctx.poolFreeCount
  bytes : w.ctx.poolActiveBytes = 0
  reports : (contextDestroy w).1 = []
  mapped : (contextDestroy w).2.mapped.Perm foreign
  logged : (contextDestroy w).2.mapLog.Perm (contextDestroy w).2.unmapLog

/-- **A run of the pool that keeps nothing leaves nothing.** -/
theorem FuzzClean.of_run {c : ContextState} (fresh : FreshContext core platform foreign c)
    (enabled : c.world.ctx.trackingEnabled = true) (silent : c.world.ctx.leakCallback = NULL)
    {events : List PoolEvent} {t : PoolState} (few : events.length < 2 ^ 64)
    (run : (poolSystem core platform).Run c.pool events t) (nothing : t.live = []) :
    FuzzClean core foreign t.world := by
  have shared : (contextSystem core platform foreign).Run c (events.map Sum.inl) (c.withPool t) :=
    shared_run_pool run
  obtain ⟨⟨inv, tracking, accounted⟩, _⟩ := shared_accounts fresh enabled shared
  rw [System.firstLabels_map_inl] at accounted
  obtain ⟨⟨blocks, bytes⟩, _⟩ := accounted (lt_of_le_of_lt List.countP_le_length few)
  have live : (c.withPool t).pool.live = [] := nothing
  rw [live] at blocks bytes
  -- no callback is installed, and no arena was created
  have callback : t.world.ctx.leakCallback = NULL :=
    (SilentInv.run run ⟨PoolInv.start fresh.pool_start, silent⟩).silent
  have arenas : (c.withPool t).arenas = [] := by
    obtain ⟨_, _, _, _, _, _, _, _, empty, _⟩ := fresh
    exact empty
  have reachable : (contextSystem core platform foreign).Reachable (c.withPool t) :=
    ⟨c, _, fresh, shared⟩
  have conserved := ((SharedInv.reachable reachable).2.1).destroyed
  rw [show (c.withPool t).arena.arenas = [] from arenas] at conserved
  refine ⟨blocks, bytes, ?_, conserved.mapped, conserved.logged⟩
  change leakReports t.world.ctx = []
  rw [leakReports, if_neg fun both => both.2 callback]

/-- **The fuzzing target is a correct client.** Whatever the input, the answers of the
kernel and the pages of the platform: the calls of the target are a run of a correct
client of the pool. At the end nothing is live, the counts of allocations and releases
agree and no bytes are active; the destruction reports nothing and leaves mapped what
others have mapped, and every block that was mapped is unmapped once. -/
theorem fuzz_pool_clean (core : BcCore) (platform : Platform) (foreign : List Extent)
    (m : Memory) (answers : CreateAnswers) {data : List UInt8} (word : data.length < 2 ^ 64) :
    (fuzzPool core platform (Kernel.fresh foreign) m answers data).1 = [] ∧
      (fuzzPool core platform (Kernel.fresh foreign) m answers data).2.mapped.Perm foreign ∧
      (fuzzPool core platform (Kernel.fresh foreign) m answers data).2.mapLog.Perm
        (fuzzPool core platform (Kernel.fresh foreign) m answers data).2.unmapLog ∧
      ∀ kernel m' ctx, contextCreate core platform none (Kernel.fresh foreign) m answers =
          (kernel, m', some ctx) →
        ∃ events t, (poolSystem core platform).Start ⟨⟨ctx, m', kernel⟩, [], []⟩ ∧
          (poolSystem core platform).Run ⟨⟨ctx, m', kernel⟩, [], []⟩ events t ∧
          t.world = fuzzWorld core ⟨ctx, m', kernel⟩ data ∧ t.live = [] ∧
          t.world.ctx.poolAllocCount = t.world.ctx.poolFreeCount ∧
          t.world.ctx.poolActiveBytes = 0 := by
  unfold fuzzPool
  generalize created : contextCreate core platform none (Kernel.fresh foreign) m answers = result
  obtain ⟨kernel, m', made⟩ := result
  cases made with
  | none =>
      obtain ⟨mapped, blocks, logged, unmapped⟩ := contextCreate_none created
      refine ⟨rfl, List.Perm.of_eq mapped, ?_, ?_⟩
      · rw [logged]
        exact unmapped.symm
      · rintro _ _ _ ⟨⟩
  | some ctx =>
      obtain ⟨fresh, room, enabled, silent⟩ := fuzz_fresh created
      have start := fresh.pool_start
      have initial : FuzzInv core platform ⟨⟨ctx, m', kernel⟩, [], []⟩ [] :=
        ⟨PoolInv.start start, room, .refl [], Nat.zero_le _⟩
      obtain ⟨events, t, few, run, world, nothing⟩ := fuzzWorld_run initial word
      have clean := FuzzClean.of_run fresh enabled silent few run nothing
      have bytes := clean.bytes
      have counts := clean.counts
      obtain ⟨_, _, reports, mapped, logged⟩ := clean
      rw [world] at reports mapped logged
      refine ⟨reports, mapped, logged, ?_⟩
      rintro _ _ _ ⟨⟩
      exact ⟨events, t, start, run, world, nothing, counts, bytes⟩

/-- An input that allocates a block of 33 bytes, moves it to one of 514 and leaves it. -/
def fuzzInput : List UInt8 := [0, 2, 1, 1, 32, 2, 7]

/-- The target on a small input, in a process that has mapped a page for itself. -/
theorem fuzz_pool_clean_input :
    let answers : CreateAnswers := ⟨some 0x10000, some 0x100000, some 0x80000000⟩
    let target := fuzzPool BcCore.reference Platform.x86 (Kernel.fresh [⟨0x1000, 4096⟩])
      (fun _ => 0) answers fuzzInput
    target.1 = [] ∧ target.2.mapped.Perm [⟨0x1000, 4096⟩] ∧
      target.2.mapLog.Perm target.2.unmapLog ∧
      ∀ kernel m' ctx, contextCreate BcCore.reference Platform.x86 none
          (Kernel.fresh [⟨0x1000, 4096⟩]) (fun _ => 0) answers = (kernel, m', some ctx) →
        ∃ events t, (poolSystem BcCore.reference Platform.x86).Start
            ⟨⟨ctx, m', kernel⟩, [], []⟩ ∧
          (poolSystem BcCore.reference Platform.x86).Run ⟨⟨ctx, m', kernel⟩, [], []⟩ events t ∧
          t.world = fuzzWorld BcCore.reference ⟨ctx, m', kernel⟩ fuzzInput ∧ t.live = [] ∧
          t.world.ctx.poolAllocCount = t.world.ctx.poolFreeCount ∧
          t.world.ctx.poolActiveBytes = 0 :=
  fuzz_pool_clean BcCore.reference Platform.x86 _ _ _ (by decide)

end BcAllocators
