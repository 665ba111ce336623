import BcAllocators.Pool.Failures

/-!
# Demand for a size class

A span of a class is carved only when the free list of the class is empty, that
is, when every block of the class is live. The live blocks of the class are then
one more than all the blocks that there were, so the number of spans is always
the least that holds the greatest number of blocks that were live at once
(`class_spans_peak`).

No block may be lost on the way. The blocks of a class are live or free, each once
(`PoolHeap.class_blocks`), and a reallocation that carves a span for the class had
its old block in another one (`poolReallocate_carves`). While the bytes are copied
the old block and the new one are both live, but in different classes, so the
states between calls show the peak of each class.
-/

set_option autoImplicit false

namespace BcAllocators

open Machine

variable {core : BcCore} {platform : Platform} {w : World} {spans : List Span}
variable {held free : PoolKind → List Nat} {kind : PoolKind} {s s' : PoolState}
variable {size block cls : Nat}

/-! ## Counting -/

/-- The blocks in a span of a class. -/
def blocksPerSpan (platform : Platform) (cls : Nat) : Nat :=
  max (classSize cls) platform.pageSize / classSize cls

/-- The live blocks of a class. -/
def liveCount (core : BcCore) (cls : Nat) (live : List LiveBlock) : Nat :=
  live.countP fun b => b.kind core = .sized cls

/-- The spans carved for a class. -/
def spanCount (cls : Nat) (spans : List Span) : Nat :=
  spans.countP fun sp => sp.kind = .sized cls

/-- The demand for a class: its live blocks. -/
def PoolState.demand (core : BcCore) (cls : Nat) (s : PoolState) : Nat :=
  liveCount core cls s.live

theorem liveCount_cons (b : LiveBlock) (live : List LiveBlock) :
    liveCount core cls (b :: live) =
      liveCount core cls live + if b.kind core = .sized cls then 1 else 0 := by
  unfold liveCount
  rw [List.countP_cons]
  simp only [decide_eq_true_eq]

theorem blocksPerSpan_pos (platform : Platform) (valid : cls < numClasses) :
    0 < blocksPerSpan platform cls := by
  have size := classSize_ge valid
  exact Nat.div_pos (le_max_left _ _) (by omega)

theorem heldBlocks_length (core : BcCore) (live : List LiveBlock) (cls : Nat) :
    (heldBlocks core live (.sized cls)).length = liveCount core cls live := by
  unfold heldBlocks liveCount
  rw [List.length_map, List.countP_eq_length_filter]

/-- Each span of a class has the same number of blocks. -/
theorem kindBlocks_length {base : Nat} (shaped : ∀ sp ∈ spans, sp.WellShaped platform)
    (cls : Nat) : (kindBlocks base spans (.sized cls)).length =
      blocksPerSpan platform cls * spanCount cls spans := by
  unfold kindBlocks spanCount
  rw [List.length_flatMap, List.countP_eq_length_filter, Nat.mul_comm]
  rw [List.sum_eq_card_nsmul _ (blocksPerSpan platform cls), List.length_map, smul_eq_mul]
  intro count member
  obtain ⟨sp, filtered, rfl⟩ := List.mem_map.mp member
  obtain ⟨inSpans, sized⟩ := List.mem_filter.mp filtered
  have kind : sp.kind = .sized cls := of_decide_eq_true sized
  have shape := shaped sp inSpans
  unfold Span.WellShaped at shape
  rw [kind] at shape
  unfold Span.blocks Span.blockSize blocksPerSpan
  rw [List.length_map, List.length_range, kind, shape.2]

/-- The blocks of a class are live or free. -/
theorem PoolHeap.class_blocks {live : List LiveBlock}
    (heap : PoolHeap platform w spans (heldBlocks core live) free) (cls : Nat) :
    liveCount core cls live + (free (.sized cls)).length =
      blocksPerSpan platform cls * spanCount cls spans := by
  have blocks := (heap.partition (.sized cls)).length_eq
  rwa [List.length_append, heldBlocks_length, kindBlocks_length heap.shaped] at blocks

/-- No more blocks are live than the spans have. -/
theorem PoolInv.liveCount_le (inv : PoolInv core platform s) (cls : Nat) :
    liveCount core cls s.live ≤ blocksPerSpan platform cls * spanCount cls s.spans := by
  obtain ⟨free, heap⟩ := inv.heap
  have blocks := heap.class_blocks cls
  omega

/-! ## When a span is carved -/

/-- An allocation that carves a span for a class found its free list empty. -/
theorem poolAllocate_carves (heap : PoolHeap platform w spans held free)
    (asked : requestKind core size = .sized cls)
    (moved : (poolAllocate core w size).1.ctx.region.bump ≠ w.ctx.region.bump) :
    free (.sized cls) = [] := by
  cases list : free (.sized cls) with
  | nil => rfl
  | cons a rest =>
      obtain ⟨_, nonnull, _⟩ := heap.popped list
      have region : (popFree w (.sized cls)).1.ctx.region = w.ctx.region :=
        Context.setFreeList_region _ _ _
      unfold poolAllocate at moved
      by_cases zero : size = 0
      · rw [if_pos zero] at moved
        exact absurd rfl moved
      · rw [if_neg zero, requestKind_eq_sized.mp asked] at moved
        dsimp only at moved
        rw [if_pos nonnull, trackAlloc_region, region] at moved
        exact absurd rfl moved

theorem poolFree_region (w : World) (ptr : Nat) : (poolFree w ptr).ctx.region = w.ctx.region := by
  unfold poolFree
  split
  · rfl
  · dsimp only
    split
    · rw [trackFree_region]
      exact Context.setFreeList_region _ _ _
    · split
      · rw [trackFree_region]
        exact Context.setFreeList_region _ _ _
      · rfl

/-- The last stage of a reallocation carves what its allocation carves. -/
theorem reallocateMove_region (core : BcCore) (w : World) (ptr usable newSize : Nat) :
    (reallocateMove core w ptr usable newSize).1.ctx.region =
      (poolAllocate core w newSize).1.ctx.region := by
  unfold reallocateMove
  dsimp only
  split
  · rfl
  · exact poolFree_region _ _

/-- A reallocation that carves a span for a class found its free list empty, and its
old block belongs to another class. -/
theorem poolReallocate_carves (heap : PoolHeap platform w spans held free)
    (owned : PoolHeap.Owns held free kind block) (asked : requestKind core size = .sized cls)
    (moved : (poolReallocate core w (block + kind.header) size).1.ctx.region.bump ≠
      w.ctx.region.bump) :
    free (.sized cls) = [] ∧ kind ≠ .sized cls := by
  have classified := requestKind_eq_sized.mp asked
  have user : block + kind.header ≠ NULL := by
    have address := (heap.block_address owned).1
    unfold NULL
    omega
  have carves : ∀ usable,
      (reallocateMove core w (block + kind.header) usable size).1.ctx.region.bump ≠
        w.ctx.region.bump → free (.sized cls) = [] := by
    intro usable moved
    rw [reallocateMove_region] at moved
    exact poolAllocate_carves heap asked moved
  unfold poolReallocate at moved
  by_cases zero : size = 0
  · rw [if_pos zero] at moved
    exact absurd rfl moved
  rw [if_neg zero, if_neg user, heap.getUsableSize_eq owned, classified] at moved
  cases kind with
  | sized old =>
      rw [decide_eq_false (by simp)] at moved
      dsimp only at moved
      rw [if_pos rfl] at moved
      by_cases same : pageClassOf w.ctx (block + (PoolKind.sized old).header) = UInt8.ofNat cls
      · rw [if_pos same] at moved
        exact absurd rfl moved
      · rw [if_neg same] at moved
        refine ⟨carves _ moved, ?_⟩
        rintro ⟨rfl⟩
        exact same (heap.user_class owned)
  | large =>
      rw [decide_eq_true rfl] at moved
      dsimp only at moved
      rw [if_neg (by simp)] at moved
      exact ⟨carves _ moved, by simp⟩

/-! ## Every call -/

/-- A call carved no span of the class, or it carved one when all its blocks were
live and one more was wanted. -/
def Demands (core : BcCore) (platform : Platform) (cls : Nat) (s s' : PoolState) : Prop :=
  spanCount cls s'.spans = spanCount cls s.spans ∨
    spanCount cls s'.spans = spanCount cls s.spans + 1 ∧
      liveCount core cls s'.live =
        blocksPerSpan platform cls * spanCount cls s.spans + 1

theorem demands_answered {others : List LiveBlock} {result : World × PtrResult}
    (carves : requestKind core size = .sized cls →
      result.1.ctx.region.bump ≠ s.world.ctx.region.bump →
      result.2.ok = true ∧
        liveCount core cls others = blocksPerSpan platform cls * spanCount cls s.spans) :
    Demands core platform cls s (s.answered core others size result).1 := by
  unfold Demands PoolState.answered
  dsimp only
  by_cases same : result.1.ctx.region.bump = s.world.ctx.region.bump
  · left
    rw [carvedSpan_same same, List.append_nil]
  unfold carvedSpan spanCount
  rw [if_neg same, List.countP_append, List.countP_singleton]
  by_cases asked : requestKind core size = .sized cls
  · right
    obtain ⟨granted, live⟩ := carves asked same
    refine ⟨by rw [if_pos (decide_eq_true asked)], ?_⟩
    rw [if_pos granted, liveCount_cons, live,
      if_pos (show LiveBlock.kind core ⟨_, size⟩ = .sized cls from asked)]
    rfl
  · left
    rw [if_neg (by simpa using asked), Nat.add_zero]

/-- Blocks of other kinds do not count. -/
theorem liveCount_dropLive (inv : PoolInv core platform s) {b : LiveBlock} (member : b ∈ s.live)
    (other : b.kind core ≠ .sized cls) :
    liveCount core cls (dropLive s.live b.ptr) = liveCount core cls s.live := by
  have all : liveCount core cls s.live = liveCount core cls (b :: dropLive s.live b.ptr) :=
    (dropLive_perm inv.nodup member).countP_eq _
  rw [all, liveCount_cons, if_neg other, Nat.add_zero]

theorem demands_allocate (inv : PoolInv core platform s) (cls size : Nat) :
    Demands core platform cls s (s.perform core (.allocate size)).1 := by
  obtain ⟨free, heap⟩ := inv.heap
  apply demands_answered
  intro asked moved
  have blocks := heap.class_blocks cls
  rw [poolAllocate_carves heap asked moved, List.length_nil, Nat.add_zero] at blocks
  refine ⟨?_, blocks⟩
  by_contra failed
  obtain ⟨_, same⟩ := poolAllocate_failed heap.geometry.base_pos (eq_false_of_ne_true failed)
  rw [same.region] at moved
  exact moved rfl

theorem demands_reallocate (inv : PoolInv core platform s) (cls newSize : Nat) {ptr : Nat}
    (pointer : ptr = NULL ∨ s.Live ptr) :
    Demands core platform cls s (s.perform core (.reallocate ptr newSize)).1 := by
  rcases pointer with rfl | ⟨b, member, rfl⟩
  · rw [inv.perform_null]
    exact demands_allocate inv cls newSize
  obtain ⟨free, heap⟩ := inv.heap
  have owned : PoolHeap.Owns (heldBlocks core s.live) free (b.kind core) (b.block core) :=
    List.mem_append_left _ (heldBlocks_of_mem core member)
  apply demands_answered
  intro asked moved
  have carves := moved
  rw [← (inv.placed b member).pointer] at carves
  obtain ⟨exhausted, other⟩ := poolReallocate_carves heap owned asked carves
  have blocks := heap.class_blocks cls
  rw [exhausted, List.length_nil, Nat.add_zero] at blocks
  refine ⟨?_, (liveCount_dropLive inv member other).trans blocks⟩
  by_contra failed
  obtain ⟨_, same⟩ := poolReallocate_failed heap.geometry.base_pos (eq_false_of_ne_true failed)
  rw [same.region] at moved
  exact moved rfl

/-- **A span is carved on demand.** -/
theorem demands_step {event : PoolEvent} (inv : PoolInv core platform s) (cls : Nat)
    (step : (poolSystem core platform).Next s event s') : Demands core platform cls s s' := by
  obtain ⟨call, result⟩ := event
  obtain ⟨allowed, performed⟩ := step
  obtain rfl : (s.perform core call).1 = s' := congrArg Prod.fst performed
  cases call with
  | allocate size => exact demands_allocate inv cls size
  | reallocate ptr newSize => exact demands_reallocate inv cls newSize allowed.2
  | free ptr => exact Or.inl rfl
  | write address bytes => exact Or.inl rfl

/-! ## Every run -/

/-- The spans of a class hold a peak, and no fewer spans would. -/
def HoldsPeak (core : BcCore) (platform : Platform) (cls peak : Nat) (s : PoolState) : Prop :=
  PoolInv core platform s ∧ spanCount cls s.spans = peak ⌈/⌉ blocksPerSpan platform cls

theorem HoldsPeak.step {peak : Nat} {event : PoolEvent} (valid : cls < numClasses)
    (before : HoldsPeak core platform cls peak s)
    (step : (poolSystem core platform).Next s event s') :
    HoldsPeak core platform cls (max peak (s'.demand core cls)) s' := by
  obtain ⟨inv, least⟩ := before
  have after := inv.step step
  have pos := blocksPerSpan_pos platform valid
  have enough : peak ≤ blocksPerSpan platform cls * spanCount cls s.spans :=
    (ceilDiv_le_iff_le_mul pos).mp least.ge
  have more := after.liveCount_le cls
  refine ⟨after, ?_⟩
  rcases demands_step inv cls step with same | ⟨carved, live⟩
  · rw [same] at more ⊢
    apply Nat.le_antisymm
    · rw [least]
      exact (gc_mul_ceilDiv pos).monotone_l (Nat.le_max_left _ _)
    · exact (ceilDiv_le_iff_le_mul pos).mpr (Nat.max_le.mpr ⟨enough, more⟩)
  · have wanted : s'.demand core cls =
        blocksPerSpan platform cls * spanCount cls s.spans + 1 := live
    rw [Nat.max_eq_right (by omega), wanted, carved]
    apply Nat.le_antisymm
    · by_contra fewer
      have short := (ceilDiv_le_iff_le_mul pos).mp (Nat.le_of_lt_succ (Nat.lt_of_not_le fewer))
      omega
    · rw [ceilDiv_le_iff_le_mul pos, Nat.mul_succ]
      omega

theorem HoldsPeak.start (core : BcCore) (platform : Platform) (cls : Nat)
    (start : (poolSystem core platform).Start s) :
    HoldsPeak core platform cls (s.demand core cls) s := by
  refine ⟨PoolInv.start start, ?_⟩
  obtain ⟨_, _, _, _, _, _, _, live, spans⟩ := start
  unfold PoolState.demand
  rw [live, spans]
  exact (zero_ceilDiv _).symm

/-- **The memory of a class is bounded by its peak demand.** In every run, the spans
carved for a class are the peak of its live blocks divided by the blocks in a span,
rounded up; and as long as no more blocks than that are live at once, no further span
is carved. -/
theorem class_spans_peak (core : BcCore) (platform : Platform) {s t : PoolState}
    {events : List PoolEvent} {cls peak : Nat} (valid : cls < numClasses)
    (start : (poolSystem core platform).Start s)
    (run : (poolSystem core platform).PeakRun (PoolState.demand core cls) s events t peak) :
    spanCount cls t.spans = peak ⌈/⌉ (max (classSize cls) platform.pageSize / classSize cls) ∧
      ∀ events' t' peak',
        (poolSystem core platform).PeakRun (PoolState.demand core cls) t events' t' peak' →
        peak' ≤ peak → spanCount cls t'.spans = spanCount cls t.spans := by
  have holds : ∀ {events t peak},
      (poolSystem core platform).PeakRun (PoolState.demand core cls) s events t peak →
      HoldsPeak core platform cls peak t := fun run =>
    run.invariant (fun before step => before.step valid step) (.start core platform cls start)
  refine ⟨(holds run).2, ?_⟩
  intro events' t' peak' further below
  have longer := holds (run.append further)
  rw [Nat.max_eq_left below] at longer
  exact longer.2.trans (holds run).2.symm

/-- A block of half a page is allocated and released. -/
theorem class_spans_peak_sixteenPages :
    let s₁ := (sixteenPages.perform BcCore.reference (.allocate 2048)).1
    let s₂ := (s₁.perform BcCore.reference (.free 65536)).1
    spanCount 7 s₂.spans =
        1 ⌈/⌉ (max (classSize 7) Platform.x86.pageSize / classSize 7) ∧
      ∀ events' t' peak',
        (poolSystem BcCore.reference Platform.x86).PeakRun
          (PoolState.demand BcCore.reference 7) s₂ events' t' peak' →
        peak' ≤ 1 → spanCount 7 t'.spans = spanCount 7 s₂.spans := by
  intro s₁ s₂
  have first : (poolSystem BcCore.reference Platform.x86).Next sixteenPages
      ⟨.allocate 2048, (sixteenPages.perform BcCore.reference (.allocate 2048)).2⟩ s₁ :=
    ⟨show (2048 : Nat) ≤ 65536 by decide, rfl⟩
  have second : (poolSystem BcCore.reference Platform.x86).Next s₁
      ⟨.free 65536, (s₁.perform BcCore.reference (.free 65536)).2⟩ s₂ :=
    ⟨Or.inr (Or.inr ⟨⟨65536, 2048⟩, by decide +kernel, rfl⟩), rfl⟩
  have fresh : (poolSystem BcCore.reference Platform.x86).PeakRun
      (PoolState.demand BcCore.reference 7) sixteenPages [] sixteenPages _ := .nil _
  have peaked := (fresh.snoc first).snoc second
  have one : max (max (sixteenPages.demand BcCore.reference 7) (s₁.demand BcCore.reference 7))
      (s₂.demand BcCore.reference 7) = 1 := by
    decide +kernel
  rw [one] at peaked
  exact class_spans_peak BcCore.reference Platform.x86 (by decide) sixteenPages_start peaked

end BcAllocators
