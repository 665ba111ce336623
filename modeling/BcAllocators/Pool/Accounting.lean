import BcAllocators.Pool.Client

/-!
# Accounting of the pool

With tracking enabled, the context counts allocations and releases and sums the
bytes in use. An allocation charges the class size, or the requested size of a
large block; a release credits what it finds in the page-class map and in the
header. The two agree, so the difference of the counts is the number of live
blocks and the sum is the sum of their charges (`pool_accounted`). Live blocks
are apart and lie in the region, so that sum is at most the size of the region
and never wraps; the counts do not wrap in a run of fewer than `2 ^ 64` calls.
-/

set_option autoImplicit false

namespace BcAllocators

open Machine

variable {core : BcCore} {platform : Platform} {s s' : PoolState}

/-- The bytes that a live block is charged for: the class size, or the size last
requested for a large block. -/
def LiveBlock.charge (core : BcCore) (b : LiveBlock) : Nat := (b.kind core).charge b.requested

/-- The bytes that all live blocks are charged for. -/
def chargedBytes (core : BcCore) (live : List LiveBlock) : Nat := (live.map (·.charge core)).sum

/-- The tally agrees with the live blocks. -/
structure Accounted (core : BcCore) (s : PoolState) : Prop where
  blocks : s.world.ctx.tally.allocCount = s.world.ctx.tally.freeCount + s.live.length
  bytes : s.world.ctx.tally.activeBytes = chargedBytes core s.live

/-! ## Charges -/

theorem chargedBytes_cons (b : LiveBlock) (live : List LiveBlock) :
    chargedBytes core (b :: live) = b.charge core + chargedBytes core live := by
  simp [chargedBytes]

/-- The charge of a block is what a release credits, and lies in the block. -/
theorem LiveBlock.Placed.charge_eq {m : Memory} {b : LiveBlock} (placed : b.Placed core m) :
    (b.kind core).charge (userSize m (b.block core)) = b.charge core := by
  unfold LiveBlock.charge
  cases shape : b.kind core with
  | sized cls => rfl
  | large => rw [PoolKind.charge, placed.recorded shape, PoolKind.charge]

/-- **The charges of the live blocks fit in the region.** -/
theorem PoolInv.chargedBytes_le (inv : PoolInv core platform s) :
    chargedBytes core s.live ≤ s.world.ctx.region.totalSize := by
  obtain ⟨free, heap⟩ := inv.heap
  let extent : LiveBlock → Extent := fun b =>
    blockExtent s.world.mem (b.kind core) (b.block core)
  have pairwise : (s.live.map extent).Pairwise Extent.Apart := List.pairwise_map.mpr inv.live_apart
  have inside : ∀ e ∈ s.live.map extent, s.world.ctx.region.base ≤ e.start ∧
      e.stop ≤ s.world.ctx.region.base + s.world.ctx.region.totalSize := by
    intro e member
    obtain ⟨b, inLive, rfl⟩ := List.mem_map.mp member
    obtain ⟨above, below, _⟩ := heap.block_bounds
      (List.mem_append_left _ (heldBlocks_of_mem core inLive))
    have top := heap.bump_le
    exact ⟨by rw [blockExtent_start]; exact above, below.trans (Nat.add_le_add_left top _)⟩
  have total := Extent.sum_size_le pairwise inside
  rw [Nat.add_sub_cancel_left, List.map_map] at total
  refine (List.sum_le_sum fun b member => ?_).trans total
  have placed := inv.placed b member
  have bounded := placed.bounded
  rw [placed.charge_eq] at bounded
  exact (Nat.le_add_left _ _).trans bounded

/-- A live block and the others. -/
theorem PoolInv.split_live (inv : PoolInv core platform s) {b : LiveBlock} (member : b ∈ s.live) :
    s.live.length = (dropLive s.live b.ptr).length + 1 ∧
      chargedBytes core s.live = b.charge core + chargedBytes core (dropLive s.live b.ptr) := by
  have perm := dropLive_perm inv.nodup member
  refine ⟨perm.length_eq, ?_⟩
  rw [← chargedBytes_cons]
  exact (perm.map _).sum_eq

/-! ## The tally of one call -/

/-- The calls of the pool, other than the client's own writes. -/
def PoolEvent.counted (event : PoolEvent) : Bool :=
  match event.call with
  | .write _ _ => false
  | _ => true

/-- A call counts at most one allocation, and the tally agrees afterwards. -/
def AccountsFor (core : BcCore) (s s' : PoolState) : Prop :=
  Accounted core s' ∧ s'.world.ctx.tally.allocCount ≤ s.world.ctx.tally.allocCount + 1

theorem accounts_refused {w' : World} {spans : List Span} (accounted : Accounted core s)
    (enabled : s.world.ctx.trackingEnabled = true) (update : PoolUpdate id s.world w') :
    AccountsFor core s ⟨w', s.live, spans⟩ := by
  have same : w'.ctx.tally = s.world.ctx.tally := update.tally enabled
  refine ⟨⟨?_, ?_⟩, ?_⟩ <;> dsimp only <;> rw [same]
  · exact accounted.blocks
  · exact accounted.bytes
  · exact Nat.le_succ _

theorem accounts_allocate (inv : PoolInv core platform s) (accounted : Accounted core s)
    (enabled : s.world.ctx.trackingEnabled = true)
    (room : s.world.ctx.tally.allocCount + 1 < 2 ^ 64) {size : Nat}
    (allowed : size ≤ s.world.ctx.region.totalSize) :
    AccountsFor core s (s.perform core (.allocate size)).1 := by
  have after := (inv.allocate allowed).chargedBytes_le
  have half := (inv.allocate allowed).total_lt
  unfold PoolState.perform
  dsimp only
  unfold PoolState.answered at after half ⊢
  rcases inv.allocate_outcome allowed with
    ⟨w', same, refused⟩ | ⟨w', block, _, same, granted, update⟩
  · rw [same]
    exact accounts_refused accounted enabled refused.update
  · rw [same] at after half ⊢
    have tally : w'.ctx.tally = s.world.ctx.tally.alloc _ := update.tally enabled
    dsimp only at after half ⊢
    rw [if_pos rfl, chargedBytes_cons] at after
    have blocks := accounted.blocks
    have bytes := accounted.bytes
    have charge : LiveBlock.charge core ⟨block + (requestKind core size).header, size⟩ =
        (requestKind core size).charge size := rfl
    rw [charge] at after
    unfold AccountsFor
    refine ⟨⟨?_, ?_⟩, ?_⟩ <;> dsimp only <;> rw [tally] <;> unfold Tally.alloc <;> dsimp only
    · rw [wadd_of_lt room, if_pos rfl, List.length_cons]
      omega
    · rw [if_pos rfl, chargedBytes_cons, charge, wadd_of_lt (by omega)]
      omega
    · rw [wadd_of_lt room]

theorem accounts_free (inv : PoolInv core platform s) (accounted : Accounted core s)
    (enabled : s.world.ctx.trackingEnabled = true)
    (room : s.world.ctx.tally.allocCount + 1 < 2 ^ 64) {ptr : Nat}
    (pointer : ptr = NULL ∨ ptrInRegion s.world.ctx ptr = false ∨ s.Live ptr) :
    AccountsFor core s (s.perform core (.free ptr)).1 := by
  have half := inv.total_lt
  have charged := inv.chargedBytes_le
  unfold PoolState.perform
  dsimp only
  rcases inv.free_cases pointer with ⟨nothing, dead⟩ | ⟨b, member, rfl⟩
  · rw [nothing, dead]
    exact accounts_refused accounted enabled (PoolUpdate.refl s.world)
  have tally := (inv.released member).update.tally enabled
  rw [(inv.placed b member).charge_eq] at tally
  obtain ⟨fewer, less⟩ := inv.split_live member
  have blocks := accounted.blocks
  have bytes := accounted.bytes
  unfold AccountsFor
  refine ⟨⟨?_, ?_⟩, ?_⟩ <;> dsimp only <;> rw [tally] <;> unfold Tally.free <;> dsimp only
  · rw [wadd_of_lt (by omega)]
    omega
  · rw [wsub_of_le (by omega) (by omega)]
    omega
  · omega

/-- Replacing a charge replaces it in the sum, and no step of it wraps. -/
theorem Recharge.tally {old new : Nat} {change : Tally → Tally} (recharge : Recharge old new change)
    {tally : Tally} (counts : tally.allocCount + 1 < 2 ^ 64)
    (freed : tally.freeCount < tally.allocCount) (charged : old ≤ tally.activeBytes)
    (fits : tally.activeBytes + new < 2 ^ 64) :
    (change tally).allocCount + tally.freeCount = tally.allocCount + (change tally).freeCount ∧
      (change tally).activeBytes = tally.activeBytes - old + new ∧
      (change tally).allocCount ≤ tally.allocCount + 1 := by
  cases recharge with
  | same equal =>
      refine ⟨rfl, ?_, Nat.le_succ _⟩
      simp only [id]
      omega
  | resize =>
      refine ⟨rfl, ?_, Nat.le_succ _⟩
      unfold Tally.resize
      dsimp only
      rw [wsub_of_le charged (by omega), wadd_of_lt (by omega)]
  | move =>
      unfold Tally.free Tally.alloc
      dsimp only [Function.comp_apply]
      rw [wadd_of_lt counts, wadd_of_lt (show tally.freeCount + 1 < 2 ^ 64 by omega),
        wadd_of_lt fits, wsub_of_le (by omega) fits]
      omega

theorem accounts_reallocate (inv : PoolInv core platform s) (accounted : Accounted core s)
    (enabled : s.world.ctx.trackingEnabled = true)
    (room : s.world.ctx.tally.allocCount + 1 < 2 ^ 64) {ptr newSize : Nat}
    (allowed : newSize ≤ s.world.ctx.region.totalSize) (pointer : ptr = NULL ∨ s.Live ptr) :
    AccountsFor core s (s.perform core (.reallocate ptr newSize)).1 := by
  rcases pointer with rfl | ⟨b, member, rfl⟩
  · rw [inv.perform_null]
    exact accounts_allocate inv accounted enabled room allowed
  have after := (inv.reallocate allowed (Or.inr ⟨b, member, rfl⟩)).chargedBytes_le
  have before := inv.chargedBytes_le
  have half := inv.total_lt
  obtain ⟨word, noWrap⟩ := inv.no_wrap allowed
  unfold PoolState.perform
  dsimp only
  unfold PoolState.answered at after ⊢
  rcases inv.reallocate_outcome member word noWrap with
    ⟨w', same, refused⟩ | ⟨w', newBlock, _, same, regranted⟩
  · rw [same]
    exact accounts_refused accounted enabled refused.update
  rw [same] at after ⊢
  obtain ⟨change, update, recharge⟩ := regranted.update
  have tally := update.tally enabled
  rw [(inv.placed b member).charge_eq] at recharge
  dsimp only at after ⊢
  rw [if_pos rfl, chargedBytes_cons, update.totalSize] at after
  obtain ⟨fewer, less⟩ := inv.split_live member
  have blocks := accounted.blocks
  have bytes := accounted.bytes
  have charge : LiveBlock.charge core ⟨newBlock + (requestKind core newSize).header, newSize⟩ =
      (requestKind core newSize).charge newSize := rfl
  rw [charge] at after
  obtain ⟨counts, sum, bound⟩ := recharge.tally room (by omega) (by omega) (by omega)
  unfold AccountsFor
  refine ⟨⟨?_, ?_⟩, ?_⟩ <;> dsimp only <;> rw [tally]
  · rw [if_pos rfl, List.length_cons]
    omega
  · rw [if_pos rfl, chargedBytes_cons, charge]
    omega
  · exact bound

/-- **Each call accounts for its blocks.** -/
theorem accounts_step {event : PoolEvent} (inv : PoolInv core platform s)
    (accounted : Accounted core s) (enabled : s.world.ctx.trackingEnabled = true)
    (room : s.world.ctx.tally.allocCount + 1 < 2 ^ 64)
    (step : (poolSystem core platform).Next s event s') : AccountsFor core s s' := by
  obtain ⟨call, result⟩ := event
  obtain ⟨allowed, performed⟩ := step
  obtain rfl : (s.perform core call).1 = s' := congrArg Prod.fst performed
  cases call with
  | allocate size => exact accounts_allocate inv accounted enabled room allowed
  | reallocate ptr newSize =>
      exact accounts_reallocate inv accounted enabled room allowed.1 allowed.2
  | free ptr => exact accounts_free inv accounted enabled room allowed
  | write address bytes => exact ⟨⟨accounted.blocks, accounted.bytes⟩, Nat.le_succ _⟩

/-- A client's own write leaves the context as it is. -/
theorem step_not_counted {event : PoolEvent} (own : event.counted = false)
    (step : (poolSystem core platform).Next s event s') :
    s'.world.ctx = s.world.ctx ∧ s'.live = s.live := by
  obtain ⟨call, result⟩ := event
  obtain rfl : (s.perform core call).1 = s' := congrArg Prod.fst step.2
  cases call with
  | write address bytes => exact ⟨rfl, rfl⟩
  | allocate _ => simp [PoolEvent.counted] at own
  | reallocate _ _ => simp [PoolEvent.counted] at own
  | free _ => simp [PoolEvent.counted] at own

/-! ## Every run -/

/-- The pool calls among some events. -/
def poolCalls (events : List PoolEvent) : Nat := events.countP PoolEvent.counted

theorem poolCalls_append (events : List PoolEvent) (event : PoolEvent) :
    poolCalls (events ++ [event]) = poolCalls events + if event.counted = true then 1 else 0 := by
  unfold poolCalls
  rw [List.countP_append, List.countP_singleton]

/-- The invariant of a run with tracking: as long as the counts cannot have
wrapped, they and the sum agree with the live blocks. -/
def RunAccounted (core : BcCore) (platform : Platform) (events : List PoolEvent)
    (s : PoolState) : Prop :=
  PoolInv core platform s ∧ s.world.ctx.trackingEnabled = true ∧
    (poolCalls events < 2 ^ 64 →
      Accounted core s ∧ s.world.ctx.tally.allocCount ≤ poolCalls events)

theorem RunAccounted.step {events : List PoolEvent} {event : PoolEvent}
    (run : RunAccounted core platform events s)
    (step : (poolSystem core platform).Next s event s') :
    RunAccounted core platform (events ++ [event]) s' := by
  obtain ⟨inv, enabled, accounted⟩ := run
  obtain ⟨change, update⟩ := inv.update step
  refine ⟨inv.step step, update.trackingEnabled.trans enabled, fun short => ?_⟩
  rw [poolCalls_append] at short ⊢
  cases counted : event.counted with
  | false =>
      obtain ⟨context, live⟩ := step_not_counted counted step
      rw [counted, if_neg (by simp), Nat.add_zero] at short
      obtain ⟨⟨blocks, bytes⟩, bound⟩ := accounted short
      rw [if_neg (by simp), Nat.add_zero, context]
      exact ⟨⟨by rw [context, live]; exact blocks, by rw [context, live]; exact bytes⟩, bound⟩
  | true =>
      rw [counted, if_pos rfl] at short
      obtain ⟨agrees, bound⟩ := accounted (by omega)
      rw [if_pos rfl]
      obtain ⟨after, more⟩ := accounts_step inv agrees enabled (by omega) step
      exact ⟨after, by omega⟩

theorem RunAccounted.start (start : (poolSystem core platform).Start s)
    (enabled : s.world.ctx.trackingEnabled = true) : RunAccounted core platform [] s := by
  refine ⟨PoolInv.start start, enabled, fun _ => ?_⟩
  obtain ⟨config, kernel, m, answers, word, created, _, live, _⟩ := start
  have context := (contextCreate_some word created).context
  have tally : s.world.ctx.tally = ⟨0, 0, 0⟩ := by
    rw [context]
    rfl
  refine ⟨⟨?_, ?_⟩, ?_⟩ <;> rw [tally]
  · rw [live]
    rfl
  · rw [live]
    rfl
  · exact Nat.le_refl _

/-- A destruction with tracking and a callback reports a pool leak when the two
counts differ. -/
theorem pool_leak_reported_iff {ctx : Context} (enabled : ctx.trackingEnabled = true)
    (installed : ctx.leakCallback ≠ NULL) :
    (∃ report ∈ leakReports ctx, report.message = poolLeakMessage) ↔
      ctx.poolAllocCount ≠ ctx.poolFreeCount := by
  have different : arenaLeakMessage ≠ poolLeakMessage := by decide
  unfold leakReports
  rw [if_pos ⟨enabled, installed⟩]
  by_cases pool : ctx.poolAllocCount ≠ ctx.poolFreeCount <;>
    by_cases arena : ctx.arenaCreateCount ≠ ctx.arenaDestroyCount <;>
    simp [pool, arena, different]

/-- **Pool accounting.** In every run of fewer than `2 ^ 64` pool calls on a
context with tracking, the counts differ by the number of live blocks, the sum of
active bytes is the sum of their charges, which is a word, and a destruction with
a callback reports a pool leak exactly when a block is live. -/
theorem pool_accounted (core : BcCore) (platform : Platform) {s t : PoolState}
    {events : List PoolEvent} (start : (poolSystem core platform).Start s)
    (enabled : s.world.ctx.trackingEnabled = true)
    (run : (poolSystem core platform).Run s events t) (short : poolCalls events < 2 ^ 64) :
    t.world.ctx.poolFreeCount ≤ t.world.ctx.poolAllocCount ∧
      t.world.ctx.poolAllocCount - t.world.ctx.poolFreeCount = t.live.length ∧
      t.world.ctx.poolActiveBytes = chargedBytes core t.live ∧
      chargedBytes core t.live < 2 ^ 64 ∧
      (t.world.ctx.leakCallback ≠ NULL →
        ((∃ report ∈ (contextDestroy t.world).1, report.message = poolLeakMessage) ↔
          ∃ b, b ∈ t.live)) := by
  have accounted : RunAccounted core platform events t :=
    run.traced (fun before step => before.step step) (RunAccounted.start start enabled)
  obtain ⟨inv, enabled', agrees⟩ := accounted
  obtain ⟨⟨blocks, bytes⟩, _⟩ := agrees short
  have counts : t.world.ctx.poolAllocCount = t.world.ctx.poolFreeCount + t.live.length := blocks
  have half := inv.total_lt
  have charged := inv.chargedBytes_le
  refine ⟨by omega, by omega, bytes, by omega, fun installed => ?_⟩
  rw [show (contextDestroy t.world).1 = leakReports t.world.ctx from rfl,
    pool_leak_reported_iff enabled' installed, counts, ← List.length_pos_iff_exists_mem]
  omega

/-- After two allocations and a moving reallocation, two blocks are live and charged, and
a destruction reports the leak. -/
theorem pool_accounted_movedBlock :
    (movedBlock.world.ctx.poolFreeCount ≤ movedBlock.world.ctx.poolAllocCount ∧
      movedBlock.world.ctx.poolAllocCount - movedBlock.world.ctx.poolFreeCount =
        movedBlock.live.length ∧
      movedBlock.world.ctx.poolActiveBytes = chargedBytes BcCore.reference movedBlock.live ∧
      chargedBytes BcCore.reference movedBlock.live < 2 ^ 64 ∧
      (movedBlock.world.ctx.leakCallback ≠ NULL →
        ((∃ report ∈ (contextDestroy movedBlock.world).1, report.message = poolLeakMessage) ↔
          ∃ b, b ∈ movedBlock.live))) ∧
    movedBlock.live = [⟨73728, 5000⟩, ⟨69632, 40⟩] ∧
      movedBlock.world.ctx.poolAllocCount = 3 ∧ movedBlock.world.ctx.poolFreeCount = 1 ∧
      movedBlock.world.ctx.poolActiveBytes = 8192 + 64 := by
  have allowed : System.AllowsAll (PoolState.event BcCore.reference)
      (PoolState.Allows BcCore.reference) sixteenPages movingCalls := by decide +kernel
  have short : poolCalls
      (System.performAll (PoolState.event BcCore.reference) sixteenPages movingCalls).1 <
        2 ^ 64 := by decide +kernel
  have run : (poolSystem BcCore.reference Platform.x86).Run sixteenPages _ movedBlock :=
    poolRun_calls (.start sixteenPages_start) allowed
  exact ⟨pool_accounted BcCore.reference Platform.x86 sixteenPages_start (by decide) run short,
    by decide +kernel⟩

end BcAllocators
