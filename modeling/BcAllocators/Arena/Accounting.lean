import BcAllocators.Arena.Client

/-!
# Accounting of the arenas

With tracking enabled, the context counts arenas and sums the bytes mapped for
their chunks. Charges are made when a chunk joins an arena, whether its block
comes from the kernel or from the cache, and credits when it leaves; so the sums
are those of the chunks of the live arenas, a chunk of a failed request included
(`arena_accounted`). Blocks of arenas are apart, so the sums never wrap; the
counts do not wrap in a run of fewer than `2 ^ 64` calls.
-/

set_option autoImplicit false

namespace BcAllocators

open Machine

variable {core : BcCore} {platform : Platform} {foreign : List Extent}
variable {s s' : ArenaState} {w w' : World} {views views' : List ArenaView}

/-! ## Mapped bytes -/

/-- The bytes mapped for an arena. -/
def ArenaView.mappedBytes (a : ArenaView) : Nat := (a.chunks.map Chunk.mmapSize).sum

/-- The bytes mapped for some arenas. -/
def mappedBytes (views : List ArenaView) : Nat := (views.map ArenaView.mappedBytes).sum

/-- The bytes mapped for the live arenas, as their headers say. -/
def liveBytes (m : Memory) (arenas : List LiveArena) : Nat :=
  ((liveBlocks m arenas).map Extent.size).sum

theorem mappedBytes_cons (a : ArenaView) (views : List ArenaView) :
    mappedBytes (a :: views) = a.mappedBytes + mappedBytes views := by
  simp [mappedBytes]

theorem mappedBytes_perm (same : views.Perm views') : mappedBytes views = mappedBytes views' :=
  (same.map _).sum_eq

theorem mappedBytes_eq (views : List ArenaView) :
    ((arenaBlocks views).map Extent.size).sum = mappedBytes views := by
  induction views with
  | nil => rfl
  | cons a rest ih =>
      rw [arenaBlocks, List.flatMap_cons, List.map_append, List.sum_append, mappedBytes_cons, ← ih,
        ArenaView.blocks, List.map_map]
      rfl

namespace ArenaView

variable (a : ArenaView)

theorem mappedBytes_eq_first :
    a.mappedBytes = a.first.mmapSize + (a.grown.map Chunk.mmapSize).sum := by
  rw [mappedBytes, chunks_eq, List.map_cons, List.sum_cons]

theorem mappedBytes_serve (x : Alloc) : (a.serve x).mappedBytes = a.mappedBytes := by
  simp [mappedBytes, serve, chunks]

theorem mappedBytes_extend (block mmapSize : Nat) :
    (a.extend block mmapSize).mappedBytes = a.mappedBytes + mmapSize := by
  simp [mappedBytes, extend_chunks]

theorem mappedBytes_reset : a.reset.mappedBytes = a.first.mmapSize := by
  simp [mappedBytes, reset, chunks]

theorem mappedBytes_fresh (block mmapSize initialChunkSize maxChunkSize : Nat)
    (growable : Bool) :
    (fresh block mmapSize initialChunkSize maxChunkSize growable).mappedBytes = mmapSize := by
  simp [mappedBytes, fresh, chunks]

end ArenaView

/-- **Mapped bytes never wrap.** -/
theorem ArenaHeap.mappedBytes_lt (heap : ArenaHeap platform w views foreign) :
    mappedBytes views < 2 ^ 64 :=
  mappedBytes_eq views ▸ heap.sum_size_lt

theorem ArenaHeap.liveBytes_eq (heap : ArenaHeap platform w views foreign)
    {arenas : List LiveArena} (perm : arenas.Perm (views.map ArenaView.client)) :
    liveBytes w.mem arenas = mappedBytes views := by
  rw [liveBytes, ((heap.liveBlocks_perm perm).map Extent.size).sum_eq, mappedBytes_eq]

/-! ## The tally of one move -/

/-- The tally agrees with the arenas. -/
structure Tallied (tally : ArenaTally) (views : List ArenaView) : Prop where
  arenas : tally.created = tally.destroyed + views.length
  total : tally.total = mappedBytes views
  mapped : tally.mapped = mappedBytes views
  mapped_le : tally.mapped ≤ tally.peak

/-- What a move does to a tally that agrees. -/
structure TalliedMove (before after : ArenaTally) (views' : List ArenaView) : Prop where
  tallied : Tallied after views'
  peak : after.peak = max after.mapped before.peak
  created_le : after.created ≤ before.created + 1

/-- Credits that are covered are subtractions. -/
theorem ArenaTally.creditAll_eq {sizes : List Nat} :
    ∀ {tally : ArenaTally}, tally.total = tally.mapped → tally.mapped < 2 ^ 64 →
      sizes.sum ≤ tally.mapped →
      tally.creditAll sizes = { tally with
        total := tally.mapped - sizes.sum, mapped := tally.mapped - sizes.sum } := by
  induction sizes with
  | nil =>
      intro tally same _ _
      change tally = _
      rw [List.sum_nil, Nat.sub_zero]
      cases tally
      simp_all
  | cons n sizes ih =>
      intro tally same word covered
      rw [List.sum_cons] at covered
      have credited : tally.credit n =
          { tally with total := tally.mapped - n, mapped := tally.mapped - n } := by
        rw [credit, same, wsub_of_le (by omega) word]
      have covered' : sizes.sum ≤ (tally.credit n).mapped := by
        rw [credited]
        exact Nat.le_sub_of_add_le' covered
      have step := ih (show (tally.credit n).total = (tally.credit n).mapped by rw [credited])
        (by rw [credited]; exact lt_of_le_of_lt (Nat.sub_le _ _) word) covered'
      change (tally.credit n).creditAll sizes = _
      rw [step, credited, List.sum_cons]
      simp only [Nat.sub_sub]

/-- A charge that fits is an addition. -/
theorem ArenaTally.charge_eq {tally : ArenaTally} {bytes : Nat} (same : tally.total = tally.mapped)
    (fits : tally.mapped + bytes < 2 ^ 64) :
    tally.charge bytes = { tally with
      total := tally.mapped + bytes, mapped := tally.mapped + bytes,
      peak := max (tally.mapped + bytes) tally.peak } := by
  rw [charge, same, wadd_of_lt fits]
  congr 1
  split
  · exact (max_eq_left (by omega)).symm
  · exact (max_eq_right (by omega)).symm

section moves

variable {tally : ArenaTally}

/-- A block joins an arena. -/
theorem Tallied.charge (agrees : Tallied tally views) {bytes : Nat}
    (more : mappedBytes views' = mappedBytes views + bytes) (fits : mappedBytes views' < 2 ^ 64)
    (length : views'.length = views.length) :
    TalliedMove tally (tally.charge bytes) views' := by
  have total := agrees.total
  have mapped := agrees.mapped
  rw [ArenaTally.charge_eq (total.trans mapped.symm) (by omega)]
  refine ⟨⟨?_, ?_, ?_, Nat.le_max_left _ _⟩, ?_, Nat.le_succ _⟩
  · rw [length]
    exact agrees.arenas
  · rw [mapped, more]
  · rw [mapped, more]
  · rfl

/-- An arena is created with its first block. -/
theorem Tallied.create (agrees : Tallied tally views) {bytes : Nat}
    (more : mappedBytes views' = mappedBytes views + bytes) (fits : mappedBytes views' < 2 ^ 64)
    (length : views'.length = views.length + 1) (room : tally.created + 1 < 2 ^ 64) :
    TalliedMove tally (tally.create bytes) views' := by
  have total := agrees.total
  have mapped := agrees.mapped
  have arenas := agrees.arenas
  have same : ({ tally with created := wadd tally.created 1 } : ArenaTally).total =
      ({ tally with created := wadd tally.created 1 } : ArenaTally).mapped :=
    total.trans mapped.symm
  rw [ArenaTally.create, ArenaTally.charge_eq same
    (show tally.mapped + bytes < 2 ^ 64 by omega), wadd_of_lt room]
  refine ⟨⟨?_, ?_, ?_, Nat.le_max_left _ _⟩, ?_, Nat.le_refl _⟩
  · rw [length]
    change tally.created + 1 = tally.destroyed + (views.length + 1)
    omega
  · rw [more, ← mapped]
  · rw [more, ← mapped]
  · rfl

/-- Blocks leave an arena. -/
theorem Tallied.creditAll (agrees : Tallied tally views) {sizes : List Nat}
    (fewer : mappedBytes views = mappedBytes views' + sizes.sum)
    (word : mappedBytes views < 2 ^ 64) (length : views'.length = views.length) :
    TalliedMove tally (tally.creditAll sizes) views' := by
  have total := agrees.total
  have mapped := agrees.mapped
  have bound := agrees.mapped_le
  rw [ArenaTally.creditAll_eq (total.trans mapped.symm) (mapped ▸ word) (by omega)]
  refine ⟨⟨?_, ?_, ?_, (Nat.sub_le _ _).trans bound⟩, ?_, Nat.le_succ _⟩
  · rw [length]
    exact agrees.arenas
  · change tally.mapped - sizes.sum = _
    omega
  · change tally.mapped - sizes.sum = _
    omega
  · exact (max_eq_right ((Nat.sub_le _ _).trans bound)).symm

/-- An arena is given up with all its blocks. -/
theorem Tallied.destroy (agrees : Tallied tally views) {sizes : List Nat} {bytes : Nat}
    (fewer : mappedBytes views = mappedBytes views' + bytes + sizes.sum)
    (word : mappedBytes views < 2 ^ 64) (length : views.length = views'.length + 1)
    (room : tally.created + 1 < 2 ^ 64) :
    TalliedMove tally ((ArenaTally.destroy bytes ∘ ArenaTally.creditAll sizes) tally) views' := by
  have total := agrees.total
  have mapped := agrees.mapped
  have bound := agrees.mapped_le
  have arenas := agrees.arenas
  have left : bytes ≤ tally.mapped - sizes.sum := by omega
  rw [Function.comp_apply, ArenaTally.creditAll_eq (total.trans mapped.symm) (mapped ▸ word)
    (by omega), ArenaTally.destroy, ArenaTally.credit]
  simp only [wsub_of_le left (show tally.mapped - sizes.sum < 2 ^ 64 by omega),
    wadd_of_lt (show tally.destroyed + 1 < 2 ^ 64 by omega)]
  refine ⟨⟨?_, ?_, ?_, ?_⟩, ?_, Nat.le_succ _⟩
  · change tally.created = tally.destroyed + 1 + views'.length
    omega
  · change tally.mapped - sizes.sum - bytes = _
    omega
  · change tally.mapped - sizes.sum - bytes = _
    omega
  · change tally.mapped - sizes.sum - bytes ≤ tally.peak
    omega
  · change tally.peak = max (tally.mapped - sizes.sum - bytes) tally.peak
    exact (max_eq_right (by omega)).symm

/-- A move that leaves the context alone. -/
theorem Tallied.stay (agrees : Tallied tally views) (same : mappedBytes views' = mappedBytes views)
    (length : views'.length = views.length) : TalliedMove tally tally views' where
  tallied :=
    { arenas := length ▸ agrees.arenas
      total := agrees.total.trans same.symm
      mapped := agrees.mapped.trans same.symm
      mapped_le := agrees.mapped_le }
  peak := (max_eq_right agrees.mapped_le).symm
  created_le := Nat.le_succ _

end moves

/-- **Each move keeps the tally in agreement with the arenas.** -/
theorem ArenaMove.tallied (move : ArenaMove w views w' views')
    (heap : ArenaHeap platform w views foreign) (heap' : ArenaHeap platform w' views' foreign)
    (enabled : w.ctx.trackingEnabled = true) (agrees : Tallied w.ctx.arenaTally views)
    (room : w.ctx.arenaTally.created + 1 < 2 ^ 64) :
    TalliedMove w.ctx.arenaTally w'.ctx.arenaTally views' := by
  have before := heap.mappedBytes_lt
  have after := heap'.mappedBytes_lt
  cases move with
  | stay context =>
      rw [context]
      exact agrees.stay rfl rfl
  | create update =>
      rw [update.tally enabled]
      refine agrees.create ?_ after rfl room
      rw [mappedBytes_cons, ArenaView.mappedBytes_fresh, Nat.add_comm]
  | serve split context =>
      rw [context]
      refine agrees.stay ?_ split.length_eq.symm
      rw [mappedBytes_perm split, mappedBytes_cons, mappedBytes_cons, ArenaView.mappedBytes_serve]
  | grow split update =>
      rw [update.tally enabled]
      refine agrees.charge ?_ after split.length_eq.symm
      rw [mappedBytes_perm split, mappedBytes_cons, mappedBytes_cons,
        ArenaView.mappedBytes_extend, Nat.add_right_comm]
  | growServe split update =>
      rw [update.tally enabled]
      refine agrees.charge ?_ after split.length_eq.symm
      rw [mappedBytes_perm split, mappedBytes_cons, mappedBytes_cons,
        ArenaView.mappedBytes_serve, ArenaView.mappedBytes_extend, Nat.add_right_comm]
  | reset split update =>
      rw [update.tally enabled]
      refine agrees.creditAll ?_ before split.length_eq.symm
      rw [mappedBytes_perm split, mappedBytes_cons, mappedBytes_cons,
        ArenaView.mappedBytes_reset, ArenaView.mappedBytes_eq_first]
      omega
  | destroy split update =>
      rw [update.tally enabled]
      refine agrees.destroy ?_ before split.length_eq room
      rw [mappedBytes_perm split, mappedBytes_cons, ArenaView.mappedBytes_eq_first]
      omega

/-! ## Every run -/

/-- The calls of the arenas, other than the client's own writes. -/
def ArenaEvent.counted (event : ArenaEvent) : Bool :=
  match event.call with
  | .write _ _ => false
  | _ => true

/-- The arena operations among some events. -/
def arenaCalls (events : List ArenaEvent) : Nat := events.countP ArenaEvent.counted

theorem arenaCalls_append (events : List ArenaEvent) (event : ArenaEvent) :
    arenaCalls (events ++ [event]) =
      arenaCalls events + if event.counted = true then 1 else 0 := by
  rw [arenaCalls, List.countP_append, List.countP_singleton]
  rfl

/-- A client's own write leaves the context and the arenas as they are. -/
theorem arena_step_not_counted {event : ArenaEvent}
    (heap : ArenaHeap platform s.world views foreign)
    (perm : s.arenas.Perm (views.map ArenaView.client)) (own : event.counted = false)
    (step : (arenaSystem core platform foreign).Next s event s') :
    s'.world.ctx = s.world.ctx ∧ Moved core platform foreign s views event.call s' views := by
  obtain ⟨call, result⟩ := event
  cases call with
  | write address bytes =>
      obtain rfl := congrArg Prod.fst (Option.some.inj step.2)
      exact ⟨rfl, moved_write core heap perm step.1⟩
  | create _ _ => cases own
  | createGrowable _ _ _ => cases own
  | allocate _ _ _ _ => cases own
  | copyString _ _ _ => cases own
  | reset _ => cases own
  | resetSecure _ => cases own
  | releasePages _ => cases own
  | destroy _ => cases own

/-- The invariant of a run with tracking: as long as the counts cannot have
wrapped, the tally agrees with the arenas, and the peak with the totals so far. -/
def ArenaRunAccounted (platform : Platform) (foreign : List Extent) (events : List ArenaEvent)
    (s : ArenaState) : Prop :=
  s.world.ctx.trackingEnabled = true ∧
    ∃ views, ArenaHeap platform s.world views foreign ∧
      s.arenas.Perm (views.map ArenaView.client) ∧
      (arenaCalls events < 2 ^ 64 →
        Tallied s.world.ctx.arenaTally views ∧
          s.world.ctx.arenaTally.created ≤ arenaCalls events ∧
          s.world.ctx.arenaTally.peak = s.totals.foldr max 0)

theorem ArenaRunAccounted.start (start : (arenaSystem core platform foreign).Start s)
    (enabled : s.world.ctx.trackingEnabled = true) :
    ArenaRunAccounted platform foreign [] s := by
  obtain ⟨config, m, answers, word, created, arenas, totals⟩ := start
  have context := (contextCreate_some word created).context
  have tally : s.world.ctx.arenaTally = ⟨0, 0, 0, 0, 0⟩ := by
    rw [context]
    rfl
  have mapped : s.world.ctx.totalMappedBytes = 0 := congrArg ArenaTally.mapped tally
  refine ⟨enabled, [], (contextCreate_some word created).arenaHeap, List.Perm.of_eq arenas,
    fun _ => ?_⟩
  rw [tally, totals, mapped]
  exact ⟨⟨rfl, rfl, rfl, Nat.le_refl _⟩, Nat.le_refl _, rfl⟩

/-- A move keeps the tracking. -/
theorem ArenaMove.trackingEnabled (move : ArenaMove w views w' views') :
    w'.ctx.trackingEnabled = w.ctx.trackingEnabled := by
  cases move with
  | stay context => rw [context]
  | create update => exact update.fixed.2.2.1
  | serve _ context => rw [context]
  | grow _ update => exact update.fixed.2.2.1
  | growServe _ update => exact update.fixed.2.2.1
  | reset _ update => exact update.fixed.2.2.1
  | destroy _ update => exact update.fixed.2.2.1

/-- The totals of a run, with the one that a move has added. -/
theorem Moved.peak_totals {call : ArenaCall}
    (moved : Moved core platform foreign s views call s' views') :
    s'.totals.foldr max 0 = max s'.world.ctx.arenaTally.mapped (s.totals.foldr max 0) := by
  rw [moved.totals]
  rfl

/-- **Each step of a run with tracking accounts for its arenas.** -/
theorem ArenaRunAccounted.step {events : List ArenaEvent} {event : ArenaEvent}
    (run : ArenaRunAccounted platform foreign events s)
    (step : (arenaSystem core platform foreign).Next s event s') :
    ArenaRunAccounted platform foreign (events ++ [event]) s' := by
  obtain ⟨enabled, views, heap, perm, accounted⟩ := run
  cases counted : event.counted with
  | false =>
      -- a write changes no figure and adds no call
      obtain ⟨context, moved⟩ := arena_step_not_counted heap perm counted step
      refine ⟨context ▸ enabled, views, moved.heap, moved.clients, fun short => ?_⟩
      rw [arenaCalls_append, counted, if_neg (by simp), Nat.add_zero] at short ⊢
      obtain ⟨agrees, created, peak⟩ := accounted short
      rw [moved.peak_totals, context, ← peak]
      exact ⟨agrees, created, (max_eq_right agrees.mapped_le).symm⟩
  | true =>
      obtain ⟨views', moved⟩ := ArenaInv.step_moves heap perm step
      refine ⟨moved.move.trackingEnabled.trans enabled, views', moved.heap, moved.clients,
        fun short => ?_⟩
      rw [arenaCalls_append, counted, if_pos rfl] at short ⊢
      obtain ⟨agrees, created, peak⟩ := accounted (by omega)
      obtain ⟨tallied, higher, more⟩ :=
        moved.move.tallied heap moved.heap enabled agrees (by omega)
      refine ⟨tallied, by omega, ?_⟩
      rw [moved.peak_totals, higher, peak]

/-- A destruction with tracking and a callback reports an arena leak when the two
counts differ. -/
theorem arena_leak_reported_iff {ctx : Context} (enabled : ctx.trackingEnabled = true)
    (installed : ctx.leakCallback ≠ NULL) :
    (∃ report ∈ leakReports ctx, report.message = arenaLeakMessage) ↔
      ctx.arenaCreateCount ≠ ctx.arenaDestroyCount := by
  have different : poolLeakMessage ≠ arenaLeakMessage := by decide
  rw [leakReports, if_pos ⟨enabled, installed⟩]
  by_cases pool : ctx.poolAllocCount ≠ ctx.poolFreeCount <;>
    by_cases arena : ctx.arenaCreateCount ≠ ctx.arenaDestroyCount <;>
    simp [pool, arena, different]

/-- What `get_stats` says of a live arena. -/
structure StatsAgree (m : Memory) (h : LiveArena) (stats : ArenaStats) : Prop where
  returned : arenaGetStats m h.address = some stats
  allocationCount : stats.allocationCount = h.allocs.length
  requested_le : (h.allocs.map Alloc.size).sum ≤ stats.used
  le_padded : stats.used ≤ (h.allocs.map fun x => x.size + x.alignment - 1).sum

/-- The statistics of a live arena agree with its allocations. -/
theorem ArenaHeap.statsAgree {a : ArenaView} (heap : ArenaHeap platform w views foreign)
    (member : a ∈ views) : StatsAgree w.mem a.client (chunkFigures a.count a.chunks) := by
  obtain ⟨rest, split⟩ := exists_split member
  have first := heap.perm split.symm
  have sound := heap.sound a member
  have bytes := first.mappedBytes_lt
  rw [mappedBytes_cons] at bytes
  have used : a.usedBytes ≤ a.mappedBytes := List.sum_le_sum fun c inChunks =>
    ((heap.shape a member).fit c inChunks).used.trans (Nat.sub_le _ _)
  have few : a.allocs.length < 2 ^ 64 :=
    lt_of_le_of_lt (sound.length_le.trans used) (lt_of_le_of_lt (Nat.le_add_right _ _) bytes)
  exact ⟨arenaGetStats_outcome first, sound.count.trans (Nat.mod_eq_of_lt few),
    sound.requested_le, sound.le_padded⟩

/-- **Arena accounting.** In every run of fewer than `2 ^ 64` arena calls on a context
with tracking, the counts differ by the number of live arenas; both sums of mapped
bytes are the bytes mapped for their chunks, which is a word, and the peak is the
largest total so far; `get_stats` counts the allocations since the last reset and
bounds their sizes; and a destruction with a callback reports an arena leak exactly
when an arena is live. -/
theorem arena_accounted (core : BcCore) (platform : Platform) (foreign : List Extent)
    {s t : ArenaState} {events : List ArenaEvent}
    (start : (arenaSystem core platform foreign).Start s)
    (enabled : s.world.ctx.trackingEnabled = true)
    (run : (arenaSystem core platform foreign).Run s events t)
    (short : arenaCalls events < 2 ^ 64) :
    t.world.ctx.arenaDestroyCount ≤ t.world.ctx.arenaCreateCount ∧
      t.world.ctx.arenaCreateCount - t.world.ctx.arenaDestroyCount = t.arenas.length ∧
      t.world.ctx.arenaTotalBytes = liveBytes t.world.mem t.arenas ∧
      t.world.ctx.totalMappedBytes = liveBytes t.world.mem t.arenas ∧
      liveBytes t.world.mem t.arenas < 2 ^ 64 ∧
      t.world.ctx.peakMappedBytes = t.totals.foldr max 0 ∧
      (∀ h ∈ t.arenas, ∃ stats, StatsAgree t.world.mem h stats) ∧
      (t.world.ctx.leakCallback ≠ NULL →
        ((∃ report ∈ (contextDestroy t.world).1, report.message = arenaLeakMessage) ↔
          ∃ h, h ∈ t.arenas)) := by
  have accounted : ArenaRunAccounted platform foreign events t :=
    run.traced (fun before step => before.step step) (ArenaRunAccounted.start start enabled)
  obtain ⟨tracking, views, heap, perm, agrees⟩ := accounted
  obtain ⟨tallied, _, peak⟩ := agrees short
  have live := heap.liveBytes_eq perm
  have length : t.arenas.length = views.length := by
    rw [perm.length_eq, List.length_map]
  have counts : t.world.ctx.arenaCreateCount = t.world.ctx.arenaDestroyCount + views.length :=
    tallied.arenas
  refine ⟨by omega, by omega, ?_, ?_, ?_, peak, fun h member => ?_, fun installed => ?_⟩
  · exact tallied.total.trans live.symm
  · exact tallied.mapped.trans live.symm
  · rw [live]
    exact heap.mappedBytes_lt
  · obtain ⟨a, inViews, rfl⟩ := List.mem_map.mp (perm.mem_iff.mp member)
    exact ⟨_, heap.statsAgree inViews⟩
  · rw [show (contextDestroy t.world).1 = leakReports t.world.ctx from rfl,
      arena_leak_reported_iff tracking installed, counts, ← List.length_pos_iff_exists_mem]
    omega

/-- Three arenas are made, one grows and one is destroyed: two are live with the bytes of
three blocks, and the peak is that of the four blocks before. -/
theorem arena_accounted_recycledBlock :
    (recycledBlock.world.ctx.arenaDestroyCount ≤ recycledBlock.world.ctx.arenaCreateCount ∧
      recycledBlock.world.ctx.arenaCreateCount - recycledBlock.world.ctx.arenaDestroyCount =
        recycledBlock.arenas.length ∧
      recycledBlock.world.ctx.arenaTotalBytes =
        liveBytes recycledBlock.world.mem recycledBlock.arenas ∧
      recycledBlock.world.ctx.totalMappedBytes =
        liveBytes recycledBlock.world.mem recycledBlock.arenas ∧
      liveBytes recycledBlock.world.mem recycledBlock.arenas < 2 ^ 64 ∧
      recycledBlock.world.ctx.peakMappedBytes = recycledBlock.totals.foldr max 0 ∧
      (∀ h ∈ recycledBlock.arenas, ∃ stats, StatsAgree recycledBlock.world.mem h stats) ∧
      (recycledBlock.world.ctx.leakCallback ≠ NULL →
        ((∃ report ∈ (contextDestroy recycledBlock.world).1,
          report.message = arenaLeakMessage) ↔ ∃ h, h ∈ recycledBlock.arenas))) ∧
    recycledBlock.arenas.length = 2 ∧ recycledBlock.world.ctx.arenaDestroyCount = 1 ∧
      recycledBlock.world.ctx.totalMappedBytes = 4096 + 8192 + 4096 ∧
      recycledBlock.world.ctx.peakMappedBytes = 4096 + 8192 + 8192 + 4096 := by
  have short : arenaCalls (System.performAll (ArenaState.event BcCore.reference Platform.x86)
      smallContext recyclingCalls).1 < 2 ^ 64 := by decide +kernel
  exact ⟨arena_accounted BcCore.reference Platform.x86 [] smallContext_start (by decide)
    recycledBlock_run short, by decide +kernel⟩

end BcAllocators
