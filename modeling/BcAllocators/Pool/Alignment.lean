import BcAllocators.Pool.Client

/-!
# Sizes and alignment

Spans are whole pages, so every span starts at a page, however many spans came
before it, and a block of a class lies at a multiple of the class size from
there. The address of a block is therefore a multiple of the class size or of
the page, whichever is smaller (`PoolHeap.block_aligned`). It is a fact about
where blocks are, and so it holds of a recycled block as of a fresh one.
-/

set_option autoImplicit false

namespace BcAllocators

open Machine

variable {core : BcCore} {platform : Platform} {w : World} {spans : List Span} {sp : Span}
variable {held free : PoolKind → List Nat} {s : PoolState} {size block base cls : Nat}

/-- The smaller of a class size and the page divides both. -/
theorem min_dvd_class (platform : Platform) (valid : cls < numClasses) :
    min (classSize cls) platform.pageSize ∣ classSize cls ∧
      min (classSize cls) platform.pageSize ∣ platform.pageSize := by
  rcases Nat.le_total (classSize cls) platform.pageSize with less | less
  · rw [min_eq_left less]
    exact ⟨Nat.dvd_refl _,
      isPowerOfTwo_dvd (classSize_power valid) platform.pageSize_power less⟩
  · rw [min_eq_right less]
    exact ⟨isPowerOfTwo_dvd platform.pageSize_power (classSize_power valid) less,
      Nat.dvd_refl _⟩

/-- The bound of the interface, of pages of 4096 bytes, follows for every page. -/
theorem min_page_dvd (platform : Platform) (valid : cls < numClasses) :
    min (classSize cls) 4096 ∣ min (classSize cls) platform.pageSize := by
  have wide := platform.pageSize_ge
  have power : (min (classSize cls) 4096).isPowerOfTwo := by
    rcases min_choice (classSize cls) 4096 with same | same <;> rw [same]
    · exact classSize_power valid
    · exact ⟨12, rfl⟩
  have power' : (min (classSize cls) platform.pageSize).isPowerOfTwo := by
    rcases min_choice (classSize cls) platform.pageSize with same | same <;> rw [same]
    · exact classSize_power valid
    · exact platform.pageSize_power
  exact isPowerOfTwo_dvd power power' (min_le_min_left _ wide)

theorem sixteen_dvd_pageSize (platform : Platform) : 16 ∣ platform.pageSize :=
  Nat.pow_dvd_pow 2 (m := 4)
    (le_trans (show 4 ≤ 12 from Nat.le_of_ble_eq_true rfl) platform.twelve_le)

namespace PoolHeap

/-- A span starts at a page. -/
theorem span_aligned (heap : PoolHeap platform w spans held free) (member : sp ∈ spans) :
    platform.pageSize ∣ w.ctx.region.base + sp.offset :=
  Nat.dvd_add heap.geometry.base_aligned ((spans_aligned heap.tiles heap.shaped).2 sp member)

/-- **A block of a class is aligned** to its size or to the page. -/
theorem block_aligned (heap : PoolHeap platform w spans held free)
    (owned : Owns held free (.sized cls) block) :
    min (classSize cls) platform.pageSize ∣ block := by
  obtain ⟨sp, inSpans, shape, inBlocks, size⟩ := heap.located owned
  obtain ⟨stride, page⟩ := min_dvd_class platform (heap.block_kind owned)
  obtain ⟨i, _, rfl⟩ := Span.mem_blocks.mp inBlocks
  have same : sp.blockSize = classSize cls := size.symm
  rw [same]
  exact Nat.dvd_add (page.trans (heap.span_aligned inSpans)) (Nat.dvd_mul_left_of_dvd stride i)

/-- A large block is a whole span, and its header records the size of that. -/
theorem large_span (heap : PoolHeap platform w spans held free)
    (owned : Owns held free .large block) :
    ∃ sp ∈ spans, sp.kind = .large ∧ block = w.ctx.region.base + sp.offset ∧
      metaTotalSize w.mem block = sp.size := by
  obtain ⟨sp, inSpans, shape, inBlocks, _⟩ := heap.located owned
  rw [Span.blocks_large shape (heap.shaped sp inSpans).size_pos, List.mem_singleton] at inBlocks
  exact ⟨sp, inSpans, shape, inBlocks, inBlocks ▸ heap.totals sp inSpans shape⟩

/-- A block of a class that is not smaller than the page is a whole span. -/
theorem class_span (heap : PoolHeap platform w spans held free)
    (owned : Owns held free (.sized cls) block) (page : platform.pageSize ≤ classSize cls) :
    ∃ sp ∈ spans, sp.kind = .sized cls ∧ block = w.ctx.region.base + sp.offset := by
  obtain ⟨sp, inSpans, shape, inBlocks, size⟩ := heap.located owned
  have blockSize : sp.blockSize = classSize cls := size.symm
  have pos : 0 < classSize cls := lt_of_lt_of_le platform.pageSize_pos page
  have whole : sp.size = classSize cls := by
    have shaped := heap.shaped sp inSpans
    rw [Span.WellShaped, shape] at shaped
    rw [shaped.2, Nat.max_eq_left page]
  obtain ⟨i, inside, start⟩ := Span.mem_blocks.mp inBlocks
  rw [whole, blockSize, Nat.div_self pos] at inside
  obtain rfl : i = 0 := by omega
  rw [Nat.zero_mul, Nat.add_zero] at start
  exact ⟨sp, inSpans, shape, start⟩

end PoolHeap

/-! ## The contract of an allocation -/

/-- What the pool grants for a request of at most 4 MiB: a block of the least
class that is large enough, aligned to its size up to 4096 bytes. -/
def ClassGrant (w : World) (size ptr : Nat) : Prop :=
  ∃ cls < numClasses, pageClassOf w.ctx ptr = UInt8.ofNat cls ∧ size ≤ classSize cls ∧
    (∀ c < numClasses, size ≤ classSize c → cls ≤ c) ∧ min (classSize cls) 4096 ∣ ptr

/-- What the pool grants for a larger request: a pointer aligned to 16 bytes,
behind the header of a block that holds the header and the request up to its
recorded size, in a span of its own. -/
structure LargeGrant (w : World) (spans : List Span) (size ptr : Nat) : Prop where
  aligned : 16 ∣ ptr
  header : largeMetaSize ≤ ptr
  enough : 16 + size ≤ metaTotalSize w.mem (ptr - largeMetaSize)
  inside : ∃ sp ∈ spans, sp.kind = .large ∧ w.ctx.region.base + sp.offset ≤ ptr - largeMetaSize ∧
    ptr - largeMetaSize + metaTotalSize w.mem (ptr - largeMetaSize) ≤
      w.ctx.region.base + sp.offset + sp.size

/-- A block granted for a small request. -/
theorem PoolHeap.classGrant (heap : PoolHeap platform w spans held free)
    (owned : Owns held free (requestKind core size) block) (small : size ≤ maxClassSize) :
    ClassGrant w size (block + (requestKind core size).header) := by
  obtain ⟨cls, classified, valid, enough, least⟩ := sizeClassForSize_least core small
  have asked : requestKind core size = .sized cls := requestKind_eq_sized.mpr classified
  have named := heap.user_class owned
  rw [asked] at owned named ⊢
  exact ⟨cls, valid, named, enough, least,
    (min_page_dvd platform valid).trans (heap.block_aligned owned)⟩

/-- A block granted for a large request. -/
theorem PoolHeap.largeGrant (heap : PoolHeap platform w spans held free)
    (owned : Owns held free .large block)
    (fits : largeMetaSize + size ≤ metaTotalSize w.mem block) :
    LargeGrant w spans size (block + largeMetaSize) := by
  obtain ⟨sp, inSpans, shape, start, total⟩ := heap.large_span owned
  have page := heap.span_aligned inSpans
  have unit := sixteen_dvd_pageSize platform
  have header : 16 ∣ largeMetaSize := Nat.dvd_refl 16
  refine ⟨?_, Nat.le_add_left _ _, ?_, sp, inSpans, shape, ?_, ?_⟩
  · rw [start]
    exact Nat.dvd_add (unit.trans page) header
  · rw [Nat.add_sub_cancel]
    exact fits
  · rw [Nat.add_sub_cancel, start]
  · rw [Nat.add_sub_cancel, total, start]

/-- **The size and alignment contract of the pool.** In every reachable state, a
successful allocation of a size within the region grants a block of the
least sufficient class, or a large block of sufficient size, with the alignment
of each. -/
theorem pool_size_alignment (core : BcCore) (platform : Platform) {s : PoolState}
    (reachable : (poolSystem core platform).Reachable s) {size : Nat}
    (within : size ≤ s.world.ctx.region.totalSize)
    (ok : (s.perform core (.allocate size)).2.ok = true) :
    (size ≤ maxClassSize →
      ClassGrant (s.perform core (.allocate size)).1.world size
        (s.perform core (.allocate size)).2.out) ∧
    (maxClassSize < size →
      LargeGrant (s.perform core (.allocate size)).1.world
        (s.perform core (.allocate size)).1.spans size
        (s.perform core (.allocate size)).2.out) := by
  have inv := PoolInv.reachable reachable
  rcases inv.allocate_outcome within with ⟨w', same, refused⟩ | ⟨w', block, _, same, granted, _⟩
  · have failed := congrArg (fun result => result.2.ok) same
    dsimp only [PtrResult.failed] at failed
    exact absurd (failed.symm.trans ok) (by simp)
  · have performed : s.perform core (.allocate size) = s.answered core s.live size
        (w', ⟨true, block + (requestKind core size).header⟩) :=
      congrArg (s.answered core s.live size) same
    rw [performed]
    obtain ⟨free, heap⟩ := granted.heap
    have owned : PoolHeap.Owns (Function.update (heldBlocks core s.live) (requestKind core size)
        (block :: heldBlocks core s.live (requestKind core size))) free (requestKind core size)
        block := List.mem_append_left _ (by simp)
    have fits := granted.fits
    constructor
    · intro small
      exact heap.classGrant owned small
    · intro large
      have asked : requestKind core size = .large := (requestKind_eq_large core).mpr large
      rw [asked] at owned fits heap
      unfold PoolState.answered
      rw [asked]
      exact heap.largeGrant owned fits

/-- The small context with one of the two blocks of a page live. -/
def halfPage : PoolState := (sixteenPages.perform BcCore.reference (.allocate 2048)).1

theorem halfPage_reachable : (poolSystem BcCore.reference Platform.x86).Reachable halfPage :=
  reachable_perform (.allocate 2048) (.start sixteenPages_start)
    (show (2048 : Nat) ≤ 65536 by decide)

/-- The other block of the page serves the next request. -/
theorem pool_size_alignment_halfPage :
    (1500 ≤ maxClassSize →
      ClassGrant (halfPage.perform BcCore.reference (.allocate 1500)).1.world 1500
        (halfPage.perform BcCore.reference (.allocate 1500)).2.out) ∧
    (maxClassSize < 1500 →
      LargeGrant (halfPage.perform BcCore.reference (.allocate 1500)).1.world
        (halfPage.perform BcCore.reference (.allocate 1500)).1.spans 1500
        (halfPage.perform BcCore.reference (.allocate 1500)).2.out) :=
  pool_size_alignment BcCore.reference Platform.x86 halfPage_reachable
    (show (1500 : Nat) ≤ 65536 by decide) (by decide)

end BcAllocators
