import BcAllocators.Pool.Alignment
import BcAllocators.Slab.Client

/-!
# Alignment of objects

The slots of a page lie one object size after the other from the start of a block
of the pool. So they are multiples of the least power of two that is at least the
object size (`alignmentFor`) when the block is, and when the stride is, or when
there is only one slot. The block is when its size class serves it, up to the page
size; a large block is aligned to 16 bytes and never to more
(`slab_alignment_iff`). Above the page size, a block is aligned only where the region and
the spans before it happen to put it.
-/

set_option autoImplicit false

namespace BcAllocators

open Machine

variable {core : BcCore} {platform : Platform} {s : PoolState} {g : Grant}
variable {objectSize objectsPerSlab n : Nat}

/-! ## The least power of two -/

/-- The least power of two that is at least a size. -/
def alignmentFor (objectSize : Nat) : Nat := 2 ^ Nat.clog 2 objectSize

theorem alignmentFor_power (objectSize : Nat) : (alignmentFor objectSize).isPowerOfTwo :=
  ⟨Nat.clog 2 objectSize, rfl⟩

theorem alignmentFor_ge (objectSize : Nat) : objectSize ≤ alignmentFor objectSize :=
  Nat.le_pow_clog (by decide) objectSize

/-- It divides every power of two that is at least the size. -/
theorem alignmentFor_dvd (power : n.isPowerOfTwo) (enough : objectSize ≤ n) :
    alignmentFor objectSize ∣ n := by
  obtain ⟨k, rfl⟩ := power
  exact Nat.pow_dvd_pow 2 (Nat.clog_le_of_le_pow enough)

theorem alignmentFor_eq (power : objectSize.isPowerOfTwo) :
    alignmentFor objectSize = objectSize :=
  Nat.le_antisymm
    (Nat.le_of_dvd (isPowerOfTwo_pos power) (alignmentFor_dvd power (Nat.le_refl _)))
    (alignmentFor_ge objectSize)

/-- A stride keeps the alignment only if it is the power of two. -/
theorem power_of_alignmentFor_dvd (some : 0 < objectSize)
    (stride : alignmentFor objectSize ∣ objectSize) : objectSize.isPowerOfTwo := by
  have same : alignmentFor objectSize = objectSize :=
    Nat.le_antisymm (Nat.le_of_dvd some stride) (alignmentFor_ge objectSize)
  exact same ▸ alignmentFor_power objectSize

/-! ## Blocks of the pool -/

/-- Where the blocks of the pool are: a block of a class at a multiple of the class
size, up to the page; a large one 16 bytes behind a page. -/
theorem PoolInv.grant_aligned (inv : PoolInv core platform s) (held : g ∈ s.grants core) :
    (g.requested ≤ maxClassSize → ∃ cls < numClasses, g.requested ≤ classSize cls ∧
      min (classSize cls) platform.pageSize ∣ g.ptr) ∧
    (maxClassSize < g.requested → ∃ a, g.ptr = a + 16 ∧ platform.pageSize ∣ a) := by
  obtain ⟨b, member, rfl⟩ := mem_grants.mp held
  obtain ⟨free, heap⟩ := inv.heap
  have owned : PoolHeap.Owns (heldBlocks core s.live) free (b.kind core) (b.block core) :=
    List.mem_append_left _ (heldBlocks_of_mem core member)
  have pointer := (inv.placed b member).pointer
  constructor
  · intro small
    obtain ⟨cls, classified, valid, enough, _⟩ := sizeClassForSize_least core small
    have kind : b.kind core = .sized cls := requestKind_eq_sized.mpr classified
    rw [kind] at owned pointer
    refine ⟨cls, valid, enough, ?_⟩
    change _ ∣ b.ptr
    rw [← pointer]
    exact heap.block_aligned owned
  · intro large
    have kind : b.kind core = .large := (requestKind_eq_large core).mpr large
    rw [kind] at owned pointer
    obtain ⟨sp, inSpans, _, start, _⟩ := heap.large_span owned
    refine ⟨b.block core, pointer.symm, ?_⟩
    rw [start]
    exact heap.span_aligned inSpans

/-- A block of at least the object size is aligned for the objects, unless it is
large. -/
theorem PoolInv.grant_alignmentFor (inv : PoolInv core platform s) (held : g ∈ s.grants core)
    (enough : objectSize ≤ g.requested) (page : alignmentFor objectSize ≤ platform.pageSize) :
    alignmentFor objectSize ∣ g.ptr ↔
      g.requested ≤ maxClassSize ∨ alignmentFor objectSize ≤ 16 := by
  obtain ⟨sized, large⟩ := inv.grant_aligned held
  have inPage : alignmentFor objectSize ∣ platform.pageSize :=
    isPowerOfTwo_dvd (alignmentFor_power _) platform.pageSize_power page
  rcases Nat.lt_or_ge maxClassSize g.requested with big | small
  · obtain ⟨a, pointer, start⟩ := large big
    rw [pointer, Nat.dvd_add_right (inPage.trans start)]
    constructor
    · exact fun divides => Or.inr (Nat.le_of_dvd (by decide) divides)
    · intro either
      refine isPowerOfTwo_dvd (alignmentFor_power _) ⟨4, rfl⟩ ?_
      omega
  · obtain ⟨cls, valid, room, aligned⟩ := sized small
    refine ⟨fun _ => Or.inl small, fun _ => Nat.dvd_trans ?_ aligned⟩
    rcases min_choice (classSize cls) platform.pageSize with same | same <;> rw [same]
    · exact alignmentFor_dvd (classSize_power valid) (enough.trans room)
    · exact inPage

/-- **Above the page size** a block is aligned when it is not large and the span that it
is happens to be aligned. -/
theorem PoolInv.grant_aligned_above (inv : PoolInv core platform s) (held : g ∈ s.grants core)
    (enough : objectSize ≤ g.requested) (above : platform.pageSize < alignmentFor objectSize) :
    alignmentFor objectSize ∣ g.ptr ↔ g.requested ≤ maxClassSize ∧
      ∃ sp ∈ s.spans, g.ptr = s.world.ctx.region.base + sp.offset ∧
        alignmentFor objectSize ∣ s.world.ctx.region.base + sp.offset := by
  have page : platform.pageSize ∣ alignmentFor objectSize :=
    isPowerOfTwo_dvd platform.pageSize_power (alignmentFor_power _) above.le
  constructor
  · intro aligned
    rcases Nat.lt_or_ge maxClassSize g.requested with big | small
    · -- a page does not divide the 16 bytes of a header
      obtain ⟨a, pointer, start⟩ := (inv.grant_aligned held).2 big
      have divides := page.trans aligned
      rw [pointer, Nat.dvd_add_right start] at divides
      have header := Nat.le_of_dvd (by decide) divides
      have := platform.pageSize_ge
      omega
    refine ⟨small, ?_⟩
    obtain ⟨b, member, rfl⟩ := mem_grants.mp held
    obtain ⟨free, heap⟩ := inv.heap
    have owned : PoolHeap.Owns (heldBlocks core s.live) free (b.kind core) (b.block core) :=
      List.mem_append_left _ (heldBlocks_of_mem core member)
    have pointer := (inv.placed b member).pointer
    obtain ⟨cls, classified, valid, room, _⟩ := sizeClassForSize_least core small
    have kind : b.kind core = .sized cls := requestKind_eq_sized.mpr classified
    rw [kind] at owned pointer
    have wide : alignmentFor objectSize ≤ classSize cls :=
      Nat.le_of_dvd (isPowerOfTwo_pos (classSize_power valid))
        (alignmentFor_dvd (classSize_power valid) (enough.trans room))
    obtain ⟨sp, inSpans, _, start⟩ := heap.class_span owned (above.le.trans wide)
    have place : b.ptr = s.world.ctx.region.base + sp.offset := pointer.symm.trans start
    exact ⟨sp, inSpans, place, place ▸ aligned⟩
  · rintro ⟨_, sp, _, place, aligned⟩
    rw [place]
    exact aligned

/-! ## Slots -/

/-- The slabs whose objects are aligned as documented, on pages that are not
smaller than the alignment. -/
def AlignsSlots (objectSize objectsPerSlab : Nat) : Prop :=
  (objectsPerSlab = 1 ∨ objectSize.isPowerOfTwo) ∧
    (objectsPerSlab * objectSize ≤ maxClassSize ∨ alignmentFor objectSize ≤ 16)

/-- The slots of a page are aligned when its block and the stride are. -/
theorem pageSlots_aligned_iff {p : SlabPage} {unit : Nat} (some : 1 ≤ objectsPerSlab) :
    (∀ a ∈ p.slots objectSize objectsPerSlab, unit ∣ a) ↔
      unit ∣ p.objects.ptr ∧ (objectsPerSlab = 1 ∨ unit ∣ objectSize) := by
  constructor
  · intro all
    have first : unit ∣ p.objects.ptr := by
      have slot := all _ (SlabLayout.mem_pageSlots.mpr ⟨0, some, rfl⟩)
      rwa [Nat.zero_mul, Nat.add_zero] at slot
    refine ⟨first, or_iff_not_imp_left.mpr fun several => ?_⟩
    have second := all _ (SlabLayout.mem_pageSlots.mpr ⟨1, by omega, rfl⟩)
    rwa [Nat.one_mul, Nat.dvd_add_right first] at second
  · rintro ⟨first, stride⟩ a member
    obtain ⟨i, small, rfl⟩ := SlabLayout.mem_pageSlots.mp member
    refine Nat.dvd_add first ?_
    rcases stride with one | divides
    · rw [show i = 0 by omega, Nat.zero_mul]
      exact Nat.dvd_zero unit
    · exact Nat.dvd_mul_left_of_dvd divides i

section Runs

variable {region : Set Nat} {books : Option Balance} {t : SlabRun ClientPool} {v : SlabView}
variable {others : List Grant}

/-- The slots of a slab are aligned when the blocks are, and the stride keeps it. -/
theorem SlabRun.Shows.slots_aligned_blocks
    (shows : t.Shows (clientApi core) (clientView core platform region books) objectSize
      objectsPerSlab v others) :
    (∀ a ∈ v.slots, alignmentFor objectSize ∣ a) ↔
      (objectsPerSlab = 1 ∨ objectSize.isPowerOfTwo) ∧
        ∀ p ∈ v.pages, alignmentFor objectSize ∣ p.objects.ptr := by
  obtain ⟨_, rfl, rfl, _, _, pages, inv⟩ := shows
  have layout := inv.layout
  have size := layout.size_ge
  have stride : alignmentFor v.objectSize ∣ v.objectSize ↔ v.objectSize.isPowerOfTwo :=
    ⟨power_of_alignmentFor_dvd (by omega), fun power => by rw [alignmentFor_eq power]⟩
  have each : ∀ p ∈ v.pages, (∀ a ∈ p.slots v.objectSize v.objectsPerSlab,
      alignmentFor v.objectSize ∣ a) ↔ alignmentFor v.objectSize ∣ p.objects.ptr ∧
        (v.objectsPerSlab = 1 ∨ v.objectSize.isPowerOfTwo) := by
    intro p _
    rw [pageSlots_aligned_iff layout.some, stride]
  obtain ⟨p, rest, first⟩ := List.exists_cons_of_ne_nil pages
  have here : p ∈ v.pages := first ▸ List.mem_cons_self
  have within : ∀ q ∈ v.pages, ∀ a ∈ q.slots v.objectSize v.objectsPerSlab, a ∈ v.slots :=
    fun q member a slot => SlabLayout.mem_slots.mpr ⟨q, member, slot⟩
  constructor
  · intro all
    exact ⟨((each p here).mp fun a slot => all a (within p here a slot)).2, fun q member =>
      ((each q member).mp fun a slot => all a (within q member a slot)).1⟩
  · rintro ⟨strides, aligned⟩ a slot
    obtain ⟨q, member, inPage⟩ := SlabLayout.mem_slots.mp slot
    exact (each q member).mpr ⟨aligned q member, strides⟩ a inPage

/-- What the pool has granted for a page of a slab. -/
theorem SlabRun.Shows.objects_granted
    (shows : t.Shows (clientApi core) (clientView core platform region books) objectSize
      objectsPerSlab v others) {p : SlabPage} (member : p ∈ v.pages) :
    p.objects ∈ t.pool.state.grants core ∧ p.objects.requested = objectsPerSlab * objectSize ∧
      objectSize ≤ p.objects.requested := by
  obtain ⟨_, rfl, rfl, _, _, _, inv⟩ := shows
  have requested := inv.layout.requested p member
  refine ⟨inv.mem_grants (SlabLayout.mem_grants_objects member), requested, ?_⟩
  rw [requested]
  exact Nat.le_mul_of_pos_left _ inv.layout.some

/-- The pool of a slab keeps its invariant. -/
theorem SlabRun.Shows.poolInv
    (shows : t.Shows (clientApi core) (clientView core platform region books) objectSize
      objectsPerSlab v others) : PoolInv core platform t.pool.state :=
  (show ClientSound core platform region books t.pool.state from shows.inv.sound).inv

/-- A slab has a page. -/
theorem SlabRun.Shows.exists_page
    (shows : t.Shows (clientApi core) (clientView core platform region books) objectSize
      objectsPerSlab v others) : ∃ p, p ∈ v.pages :=
  List.exists_mem_of_ne_nil _ shows.some

/-- **The slots of a slab are aligned** exactly when it is one of those. -/
theorem SlabRun.Shows.slots_aligned_iff
    (shows : t.Shows (clientApi core) (clientView core platform region books) objectSize
      objectsPerSlab v others) (page : alignmentFor objectSize ≤ platform.pageSize) :
    (∀ a ∈ v.slots, alignmentFor objectSize ∣ a) ↔ AlignsSlots objectSize objectsPerSlab := by
  have pool := shows.poolInv
  obtain ⟨p, here⟩ := shows.exists_page
  have each : ∀ q ∈ v.pages, alignmentFor objectSize ∣ q.objects.ptr ↔
      objectsPerSlab * objectSize ≤ maxClassSize ∨ alignmentFor objectSize ≤ 16 := by
    intro q member
    obtain ⟨held, requested, enough⟩ := shows.objects_granted member
    rw [pool.grant_alignmentFor held enough page, requested]
  rw [shows.slots_aligned_blocks, AlignsSlots]
  refine and_congr_right fun _ => ⟨fun all => (each p here).mp (all p here), ?_⟩
  exact fun aligns q member => (each q member).mpr aligns

/-- Above the page size they are when each block of the slab is a span that happens to be
aligned. -/
theorem SlabRun.Shows.slots_aligned_above
    (shows : t.Shows (clientApi core) (clientView core platform region books) objectSize
      objectsPerSlab v others) (above : platform.pageSize < alignmentFor objectSize) :
    (∀ a ∈ v.slots, alignmentFor objectSize ∣ a) ↔
      (objectsPerSlab = 1 ∨ objectSize.isPowerOfTwo) ∧
        objectsPerSlab * objectSize ≤ maxClassSize ∧
        ∀ p ∈ v.pages, ∃ sp ∈ t.pool.state.spans,
          p.objects.ptr = t.pool.state.world.ctx.region.base + sp.offset ∧
            alignmentFor objectSize ∣ t.pool.state.world.ctx.region.base + sp.offset := by
  have pool := shows.poolInv
  obtain ⟨p, here⟩ := shows.exists_page
  have each : ∀ q ∈ v.pages, alignmentFor objectSize ∣ q.objects.ptr ↔
      objectsPerSlab * objectSize ≤ maxClassSize ∧ ∃ sp ∈ t.pool.state.spans,
        q.objects.ptr = t.pool.state.world.ctx.region.base + sp.offset ∧
          alignmentFor objectSize ∣ t.pool.state.world.ctx.region.base + sp.offset := by
    intro q member
    obtain ⟨held, requested, enough⟩ := shows.objects_granted member
    rw [pool.grant_aligned_above held enough above, requested]
  rw [shows.slots_aligned_blocks]
  refine and_congr_right fun _ => ⟨fun all => ?_, ?_⟩
  · exact ⟨((each p here).mp (all p here)).1, fun q member =>
      ((each q member).mp (all q member)).2⟩
  · exact fun ⟨small, placed⟩ q member => (each q member).mpr ⟨small, placed q member⟩

/-- A live object is a slot. -/
theorem SlabRun.Shows.live_aligned
    (shows : t.Shows (clientApi core) (clientView core platform region books) objectSize
      objectsPerSlab v others) (page : alignmentFor objectSize ≤ platform.pageSize)
    (aligns : AlignsSlots objectSize objectsPerSlab) :
    ∀ a ∈ t.live, alignmentFor objectSize ∣ a := by
  intro a member
  have live : a ∈ v.live := shows.live.mem_iff.mpr member
  exact (shows.slots_aligned_iff page).mpr aligns a (shows.inv.layout.live_mem live)

end Runs

/-- **Objects are aligned as documented** when the page is not smaller than the
alignment, there is one slot on a page or the object size is a power of two, and
the block of the objects is not large or the alignment is at most 16: then every
pointer that an allocation returns, and every live object, is a multiple of the
least power of two that is at least the object size, in every state of every run
from a sound state of the pool (`ClientSound.reachable`). On pages that are not
smaller than the alignment no other slab has all its slots aligned. Above the page size a
slab has that where the base of the region and the spans carved before it happen to put
its blocks. -/
theorem slab_alignment_iff (core : BcCore) (platform : Platform) (region : Set Nat)
    (books : Option Balance) (fits : objectsPerSlab * objectSize < 2 ^ 64)
    {t : SlabRun ClientPool}
    (inUse : (slabSystem (clientApi core) (clientView core platform region books) objectSize
      objectsPerSlab).Reachable t) :
    (AlignsSlots objectSize objectsPerSlab → alignmentFor objectSize ≤ platform.pageSize →
      (∀ a ∈ t.live, alignmentFor objectSize ∣ a) ∧
        ∀ after out, slabAllocate (clientApi core) t.pool t.slab = (after, ⟨true, out⟩) →
          after.faithful = true → alignmentFor objectSize ∣ out) ∧
    (alignmentFor objectSize ≤ platform.pageSize →
      ∃ pages free, SlabPartition ((clientApi core).memory t.pool) (t.pool.state.grants core)
          t.slab objectSize objectsPerSlab t.live pages free ∧
        ((∀ a ∈ pages.flatMap (SlabPage.slots objectSize objectsPerSlab),
            alignmentFor objectSize ∣ a) ↔ AlignsSlots objectSize objectsPerSlab)) ∧
    (platform.pageSize < alignmentFor objectSize →
      ∃ pages free, SlabPartition ((clientApi core).memory t.pool) (t.pool.state.grants core)
          t.slab objectSize objectsPerSlab t.live pages free ∧
        ((∀ a ∈ pages.flatMap (SlabPage.slots objectSize objectsPerSlab),
            alignmentFor objectSize ∣ a) ↔
          (objectsPerSlab = 1 ∨ objectSize.isPowerOfTwo) ∧
            objectsPerSlab * objectSize ≤ maxClassSize ∧
            ∀ p ∈ pages, ∃ sp ∈ t.pool.state.spans,
              p.objects.ptr = t.pool.state.world.ctx.region.base + sp.offset ∧
                alignmentFor objectSize ∣ t.pool.state.world.ctx.region.base + sp.offset)) := by
  have contract := pool_contract core platform region books
  obtain ⟨v, others, shows⟩ := SlabRun.shows_of_reachable contract fits inUse
  refine ⟨fun aligns page => ?_, fun page => ?_, fun above => ?_⟩
  · refine ⟨shows.live_aligned page aligns, fun after out allocated trusted => ?_⟩
    -- the pointer is a live object of the next state
    have trusted' : (t.perform (clientApi core) (clientView core platform region books)
        .allocate).1.pool.faithful = true := by
      unfold SlabRun.perform
      dsimp only
      rwa [allocated]
    obtain ⟨v', shows', _⟩ := shows.allocate contract trusted'
    refine shows'.live_aligned page aligns out ?_
    unfold SlabRun.perform
    dsimp only
    rw [allocated]
    exact List.mem_cons_self
  · have aligned := shows.slots_aligned_iff page
    have partition := shows.partition
    obtain ⟨_, rfl, rfl, _⟩ := shows
    exact ⟨v.pages, v.free, partition, aligned⟩
  · have aligned := shows.slots_aligned_above above
    have partition := shows.partition
    obtain ⟨_, rfl, rfl, _⟩ := shows
    exact ⟨v.pages, v.free, partition, aligned⟩

/-- A slab of objects of 1024 bytes aligns them. -/
theorem slab_alignment_iff_oneObject :
    ((∀ a ∈ oneObject.live, alignmentFor 1024 ∣ a) ∧
      ∀ after out, slabAllocate (clientApi BcCore.reference) oneObject.pool oneObject.slab =
          (after, ⟨true, out⟩) → after.faithful = true → alignmentFor 1024 ∣ out) ∧
    ∃ pages free, SlabPartition ((clientApi BcCore.reference).memory oneObject.pool)
        (oneObject.pool.state.grants BcCore.reference) oneObject.slab 1024 2 oneObject.live pages
        free ∧
      ((∀ a ∈ pages.flatMap (SlabPage.slots 1024 2), alignmentFor 1024 ∣ a) ↔
        AlignsSlots 1024 2) := by
  obtain ⟨runs, slots, _⟩ := slab_alignment_iff BcCore.reference Platform.x86 _ _
    (show 2 * 1024 < 2 ^ 64 by decide) oneObject_reachable
  have power : (1024 : Nat).isPowerOfTwo := ⟨10, rfl⟩
  have page : alignmentFor 1024 ≤ Platform.x86.pageSize := by
    rw [alignmentFor_eq power]
    decide
  exact ⟨runs ⟨Or.inr power, Or.inl (by decide)⟩ page, slots page⟩

/-- The small pool with a slab of objects of 24 bytes, two on a page: the creation
succeeds, and the first object it hands out is not a multiple of 32. -/
theorem first_object_misaligned :
    (slabCreate (clientApi BcCore.reference) ⟨sixteenPages, true⟩ 8192 24 2).2 = ⟨true, 65536⟩ ∧
      (slabAllocate (clientApi BcCore.reference)
        (slabCreate (clientApi BcCore.reference) ⟨sixteenPages, true⟩ 8192 24 2).1 65536).2 =
          ⟨true, 66456⟩ ∧
      ¬ alignmentFor 24 ∣ 66456 := by
  refine ⟨by decide +kernel, by decide +kernel, ?_⟩
  have unit : alignmentFor 24 = 32 := by
    unfold alignmentFor
    norm_num
  rw [unit]
  decide

end BcAllocators
