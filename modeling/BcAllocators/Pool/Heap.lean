import BcAllocators.Pool.FreeList
import BcAllocators.Pool.Spans

/-!
# The heap of a pool

`PoolHeap` ties the parts of a pool together: the spans that tile the region up
to the bump pointer, the page-class map, the sizes recorded in the headers of
large blocks, the twenty free lists, and the blocks that are held outside them.
It is indexed by the spans and by what each list and each holder has, so that
an operation is described by how these indices move.

There are four moves. Memory outside the list links and the recorded sizes may
change at will (`PoolHeap.write`); a block goes from its list to its holder
(`PoolHeap.pop`), or back (`PoolHeap.push`); and a new span is carved above the
bump pointer (`PoolHeap.carve`), whose blocks are all held at first. Every
function of the pool is a sequence of these.
-/

set_option autoImplicit false

namespace BcAllocators

open Machine

/-! ## Lists of the context -/

@[simp] theorem Context.freeList_setFreeList (ctx : Context) (kind : PoolKind) (fl : FreeList) :
    (ctx.setFreeList kind fl).freeList kind = fl := by
  cases kind <;> simp [Context.setFreeList, Context.freeList]

theorem Context.freeList_setFreeList_of_ne {kind other : PoolKind} (ctx : Context) (fl : FreeList)
    (different : other ≠ kind) : (ctx.setFreeList kind fl).freeList other = ctx.freeList other := by
  cases kind <;> cases other <;> simp_all [Context.setFreeList, Context.freeList]

@[simp] theorem Context.setFreeList_region (ctx : Context) (kind : PoolKind) (fl : FreeList) :
    (ctx.setFreeList kind fl).region = ctx.region := by
  cases kind <;> rfl

@[simp] theorem Context.setFreeList_pageSize (ctx : Context) (kind : PoolKind) (fl : FreeList) :
    (ctx.setFreeList kind fl).pageSize = ctx.pageSize := by
  cases kind <;> rfl

@[simp] theorem Context.setFreeList_pageShift (ctx : Context) (kind : PoolKind) (fl : FreeList) :
    (ctx.setFreeList kind fl).pageShift = ctx.pageShift := by
  cases kind <;> rfl

@[simp] theorem popFree_mem (w : World) (kind : PoolKind) : (popFree w kind).1.mem = w.mem := rfl

@[simp] theorem pushFree_mem (w : World) (kind : PoolKind) (ptr : Nat) :
    (pushFree w kind ptr).mem = (freeListPush (w.ctx.freeList kind) w.mem ptr).2 := rfl

/-! ## What the pool changes -/

/-- The figures of the tracking. -/
structure Tally where
  allocCount : Nat
  freeCount : Nat
  activeBytes : Nat
deriving DecidableEq, Repr

def Context.tally (ctx : Context) : Tally :=
  ⟨ctx.poolAllocCount, ctx.poolFreeCount, ctx.poolActiveBytes⟩

namespace Tally

/-- The tally after `track_alloc`. -/
def alloc (bytes : Nat) (tally : Tally) : Tally :=
  { tally with allocCount := wadd tally.allocCount 1,
               activeBytes := wadd tally.activeBytes bytes }

/-- The tally after `track_free`. -/
def free (bytes : Nat) (tally : Tally) : Tally :=
  { tally with freeCount := wadd tally.freeCount 1,
               activeBytes := wsub tally.activeBytes bytes }

/-- The tally after a large block has changed its size in place. -/
def resize (oldSize newSize : Nat) (tally : Tally) : Tally :=
  { tally with activeBytes := wadd (wsub tally.activeBytes oldSize) newSize }

end Tally

/-- Only what belongs to the pool has changed: its free lists, the bump pointer,
the page classes, the memory, and the tally, which changes as given when
tracking is enabled. -/
def PoolUpdate (change : Tally → Tally) (w w' : World) : Prop :=
  ∃ pools largePool bump pageClass tally m,
    (w.ctx.trackingEnabled = true → tally = change w.ctx.tally) ∧
    w' = { w with
      ctx := { w.ctx with
        pools := pools, largePool := largePool,
        region := { w.ctx.region with bump := bump, pageClass := pageClass },
        poolAllocCount := tally.allocCount, poolFreeCount := tally.freeCount,
        poolActiveBytes := tally.activeBytes },
      mem := m }

namespace PoolUpdate

variable {change change' : Tally → Tally} {w w' w'' : World}

theorem refl (w : World) : PoolUpdate id w w := ⟨_, _, _, _, w.ctx.tally, _, fun _ => rfl, rfl⟩

theorem trans (first : PoolUpdate change w w') (second : PoolUpdate change' w' w'') :
    PoolUpdate (change' ∘ change) w w'' := by
  obtain ⟨_, _, _, _, tally, _, changed, rfl⟩ := first
  obtain ⟨_, _, _, _, tally', _, changed', rfl⟩ := second
  refine ⟨_, _, _, _, tally', _, fun enabled => ?_, rfl⟩
  rw [changed' enabled, Function.comp_apply, ← changed enabled]
  rfl

/-- A step without tracking before another step. -/
theorem idThen (first : PoolUpdate id w w') (second : PoolUpdate change w' w'') :
    PoolUpdate change w w'' := first.trans second

theorem base (update : PoolUpdate change w w') : w'.ctx.region.base = w.ctx.region.base := by
  obtain ⟨_, _, _, _, _, _, _, rfl⟩ := update
  rfl

theorem totalSize (update : PoolUpdate change w w') :
    w'.ctx.region.totalSize = w.ctx.region.totalSize := by
  obtain ⟨_, _, _, _, _, _, _, rfl⟩ := update
  rfl

theorem trackingEnabled (update : PoolUpdate change w w') :
    w'.ctx.trackingEnabled = w.ctx.trackingEnabled := by
  obtain ⟨_, _, _, _, _, _, _, rfl⟩ := update
  rfl

/-- The tally of a context with tracking. -/
theorem tally (update : PoolUpdate change w w') (enabled : w.ctx.trackingEnabled = true) :
    w'.ctx.tally = change w.ctx.tally := by
  obtain ⟨_, _, _, _, tally, _, changed, rfl⟩ := update
  exact changed enabled

theorem memory (w : World) (m : Memory) : PoolUpdate id w { w with mem := m } :=
  ⟨_, _, _, _, w.ctx.tally, _, fun _ => rfl, rfl⟩

theorem push (w : World) (kind : PoolKind) (ptr : Nat) : PoolUpdate id w (pushFree w kind ptr) := by
  cases kind <;> exact ⟨_, _, _, _, w.ctx.tally, _, fun _ => rfl, rfl⟩

theorem pop (w : World) (kind : PoolKind) : PoolUpdate id w (popFree w kind).1 := by
  cases kind <;> exact ⟨_, _, _, _, w.ctx.tally, _, fun _ => rfl, rfl⟩

/-- A tracking function changes the tally alone. -/
theorem track {ctx : Context} (tally : Tally)
    (enabled : w.ctx.trackingEnabled = true → tally = change w.ctx.tally)
    (same : ctx = { w.ctx with
      poolAllocCount := tally.allocCount, poolFreeCount := tally.freeCount,
      poolActiveBytes := tally.activeBytes }) : PoolUpdate change w { w with ctx := ctx } := by
  subst same
  exact ⟨_, _, _, _, tally, _, enabled, rfl⟩

theorem trackAlloc (w : World) (bytes : Nat) :
    PoolUpdate (Tally.alloc bytes) w { w with ctx := trackAlloc w.ctx bytes } := by
  unfold BcAllocators.trackAlloc
  split
  · exact track (w.ctx.tally.alloc bytes) (fun _ => rfl) rfl
  · next disabled => exact track w.ctx.tally (fun enabled => absurd enabled disabled) rfl

theorem trackFree (w : World) (bytes : Nat) :
    PoolUpdate (Tally.free bytes) w { w with ctx := trackFree w.ctx bytes } := by
  unfold BcAllocators.trackFree
  split
  · exact track (w.ctx.tally.free bytes) (fun _ => rfl) rfl
  · next disabled => exact track w.ctx.tally (fun enabled => absurd enabled disabled) rfl

theorem trackResize (w : World) (oldSize newSize : Nat) :
    PoolUpdate (Tally.resize oldSize newSize) w
      { w with ctx := trackResize w.ctx oldSize newSize } := by
  unfold BcAllocators.trackResize
  split
  · exact track (w.ctx.tally.resize oldSize newSize) (fun _ => rfl) rfl
  · next disabled => exact track w.ctx.tally (fun enabled => absurd enabled disabled) rfl

end PoolUpdate

/-! ## The geometry of a region -/

/-- What a creation fixes for good: the page size, and a region of whole pages
that does not wrap. -/
structure Geometry (platform : Platform) (ctx : Context) : Prop where
  pageSize : ctx.pageSize = platform.pageSize
  pageShift : ctx.pageShift = platform.pageShift
  base_pos : 0 < ctx.region.base
  base_aligned : platform.pageSize ∣ ctx.region.base
  total_lt : ctx.region.totalSize < 2 ^ 63
  total_aligned : platform.pageSize ∣ ctx.region.totalSize
  region_lt : ctx.region.base + ctx.region.totalSize < 2 ^ 64

namespace Geometry

variable {platform : Platform} {w w' : World}

theorem update {change : Tally → Tally} (geometry : Geometry platform w.ctx)
    (update : PoolUpdate change w w') : Geometry platform w'.ctx := by
  obtain ⟨_, _, _, _, _, _, _, rfl⟩ := update
  exact ⟨geometry.pageSize, geometry.pageShift, geometry.base_pos, geometry.base_aligned,
    geometry.total_lt, geometry.total_aligned, geometry.region_lt⟩

/-- There is a page between the region and half the address space. -/
theorem total_add_page_le {ctx : Context} (geometry : Geometry platform ctx) :
    ctx.region.totalSize + platform.pageSize ≤ 2 ^ 63 :=
  platform.add_pageSize_le (Nat.le_refl 63) geometry.total_aligned geometry.total_lt

end Geometry

/-! ## The invariant -/

/-- The extent of a block: the class size, or the size recorded in the header of
a large block. -/
def blockExtent (m : Memory) : PoolKind → Nat → Extent
  | .sized cls, a => ⟨a, classSize cls⟩
  | .large, a => ⟨a, metaTotalSize m a⟩

@[simp] theorem blockExtent_start (m : Memory) (kind : PoolKind) (a : Nat) :
    (blockExtent m kind a).start = a := by
  cases kind <;> rfl

/-- **The heap invariant.** `held` are the blocks of each kind outside the free
lists, `free` those in them. -/
structure PoolHeap (platform : Platform) (w : World) (spans : List Span)
    (held free : PoolKind → List Nat) : Prop where
  geometry : Geometry platform w.ctx
  tiles : Extent.Tiles 0 (spans.map Span.extent) w.ctx.region.bump
  bump_le : w.ctx.region.bump ≤ w.ctx.region.totalSize
  shaped : ∀ sp ∈ spans, sp.WellShaped platform
  tagged : ∀ sp ∈ spans, ∀ page, sp.offset ≤ page * platform.pageSize →
    page * platform.pageSize < sp.offset + sp.size → w.ctx.region.pageClass page = sp.kind.tag
  untagged : ∀ page, w.ctx.region.bump ≤ page * platform.pageSize →
    w.ctx.region.pageClass page = pageClassUnassigned
  totals : ∀ sp ∈ spans, sp.kind = .large →
    metaTotalSize w.mem (w.ctx.region.base + sp.offset) = sp.size
  lists : ∀ kind, (w.ctx.freeList kind).Holds w.mem (free kind)
  partition : ∀ kind,
    (held kind ++ free kind).Perm (kindBlocks w.ctx.region.base spans kind)

namespace PoolHeap

variable {platform : Platform} {w : World} {spans : List Span}
variable {held free : PoolKind → List Nat} {kind kind' : PoolKind} {a a' : Nat}

/-! ## Where the blocks are -/

/-- A block is held or free. -/
def Owns (held free : PoolKind → List Nat) (kind : PoolKind) (a : Nat) : Prop :=
  a ∈ held kind ++ free kind

/-- A block belongs to a span, whose block size is the size of its extent. -/
theorem located (heap : PoolHeap platform w spans held free) (member : Owns held free kind a) :
    ∃ sp ∈ spans, sp.kind = kind ∧ a ∈ sp.blocks w.ctx.region.base ∧
      (blockExtent w.mem kind a).size = sp.blockSize := by
  obtain ⟨sp, inSpans, rfl, inBlocks⟩ :=
    mem_kindBlocks.mp ((heap.partition kind).mem_iff.mp member)
  refine ⟨sp, inSpans, rfl, inBlocks, ?_⟩
  cases shape : sp.kind with
  | sized cls => simp [blockExtent, Span.blockSize, shape]
  | large =>
      have pos := (heap.shaped sp inSpans).size_pos
      rw [Span.blocks_large shape pos, List.mem_singleton] at inBlocks
      subst inBlocks
      simp [blockExtent, Span.blockSize, shape, heap.totals sp inSpans shape]

/-- A block lies in the carved part of the region and has at least 16 bytes. -/
theorem block_bounds (heap : PoolHeap platform w spans held free)
    (member : Owns held free kind a) :
    w.ctx.region.base ≤ a ∧
      (blockExtent w.mem kind a).stop ≤ w.ctx.region.base + w.ctx.region.bump ∧
      16 ≤ (blockExtent w.mem kind a).size := by
  obtain ⟨sp, inSpans, _, inBlocks, size⟩ := heap.located member
  have shaped := heap.shaped sp inSpans
  have inside := shaped.block_inside inBlocks
  have below := span_below heap.tiles inSpans
  have enough := shaped.blockSize_ge
  unfold Extent.stop
  rw [blockExtent_start, size]
  omega

/-- The kind of a block is a class or large. -/
theorem block_kind (heap : PoolHeap platform w spans held free) {cls : Nat}
    (member : Owns held free (.sized cls) a) : cls < numClasses := by
  obtain ⟨sp, inSpans, shape, _⟩ := heap.located member
  have shaped := heap.shaped sp inSpans
  unfold Span.WellShaped at shaped
  rw [shape] at shaped
  exact shaped.1

/-- A large block has room for more than its header. -/
theorem large_size (heap : PoolHeap platform w spans held free) (member : Owns held free .large a) :
    largeMetaSize + maxClassSize < metaTotalSize w.mem a := by
  obtain ⟨sp, inSpans, shape, _, size⟩ := heap.located member
  have large := (heap.shaped sp inSpans).blockSize_large shape
  rw [← size] at large
  exact large

/-- A block has an address. -/
theorem block_address (heap : PoolHeap platform w spans held free)
    (member : Owns held free kind a) : 0 < a ∧ a < 2 ^ 64 := by
  obtain ⟨above, below, enough⟩ := heap.block_bounds member
  have := heap.bump_le
  have := heap.geometry.base_pos
  have := heap.geometry.region_lt
  unfold Extent.stop at below
  rw [blockExtent_start] at below
  omega

/-- **Blocks are apart.** -/
theorem block_apart (heap : PoolHeap platform w spans held free) (first : Owns held free kind a)
    (second : Owns held free kind' a') :
    a = a' ∧ kind = kind' ∨ (blockExtent w.mem kind a).Apart (blockExtent w.mem kind' a') := by
  obtain ⟨sp, inSpans, rfl, inBlocks, size⟩ := heap.located first
  obtain ⟨sp', inSpans', rfl, inBlocks', size'⟩ := heap.located second
  rcases blocks_apart heap.tiles heap.shaped inSpans inSpans' inBlocks inBlocks' with same | apart
  · exact Or.inl ⟨same.1, congrArg Span.kind same.2⟩
  · right
    unfold Extent.Apart Extent.stop
    rw [blockExtent_start, blockExtent_start, size, size']
    exact apart

/-- No block occurs twice, in its list or outside it. -/
theorem nodup (heap : PoolHeap platform w spans held free) (kind : PoolKind) :
    (held kind ++ free kind).Nodup :=
  (heap.partition kind).nodup_iff.mpr (kindBlocks_nodup heap.tiles heap.shaped kind)

/-- A held block is apart from every free one. -/
theorem held_apart_free (heap : PoolHeap platform w spans held free) (inHeld : a ∈ held kind)
    (inFree : a' ∈ free kind') :
    (blockExtent w.mem kind a).Apart (blockExtent w.mem kind' a') := by
  rcases heap.block_apart (List.mem_append_left _ inHeld) (List.mem_append_right _ inFree)
    with ⟨rfl, rfl⟩ | apart
  · exact absurd inFree ((List.nodup_append.mp (heap.nodup kind)).2.2 a inHeld a · rfl)
  · exact apart

/-- The page class of the page of a pointer into a block is the block's tag. -/
theorem pageClassOf_eq (heap : PoolHeap platform w spans held free)
    (member : Owns held free kind a) {ptr : Nat} (inside : ptr ∈ (blockExtent w.mem kind a).bytes) :
    pageClassOf w.ctx ptr = kind.tag := by
  obtain ⟨sp, inSpans, rfl, inBlocks, size⟩ := heap.located member
  have bounds := (heap.shaped sp inSpans).block_inside inBlocks
  have below := span_below heap.tiles inSpans
  have limit := heap.bump_le
  have region := heap.geometry.region_lt
  obtain ⟨count, extent⟩ := (heap.shaped sp inSpans).pageSize_dvd
  obtain ⟨first, offset⟩ := (spans_aligned heap.tiles heap.shaped).2 sp inSpans
  rw [Extent.mem_bytes, blockExtent_start, size] at inside
  have difference : wsub ptr w.ctx.region.base = ptr - w.ctx.region.base :=
    wsub_of_le (by omega) (by omega)
  unfold pageClassOf
  rw [difference, heap.geometry.pageShift, Nat.shiftRight_eq_div_pow]
  have pos := platform.pageSize_pos
  have floor := Nat.div_mul_le_self (ptr - w.ctx.region.base) platform.pageSize
  have lower : first ≤ (ptr - w.ctx.region.base) / platform.pageSize :=
    (Nat.le_div_iff_mul_le pos).mpr (by rw [Nat.mul_comm]; omega)
  refine heap.tagged sp inSpans _ ?_ ?_
  · rw [offset, Nat.mul_comm platform.pageSize]
    exact Nat.mul_le_mul_right _ lower
  · change (ptr - w.ctx.region.base) / platform.pageSize * platform.pageSize < _
    omega

/-! ## Moves -/

/-- Who holds a block outside the free lists does not matter. -/
theorem hold {held' : PoolKind → List Nat} (heap : PoolHeap platform w spans held free)
    (same : ∀ kind, (held' kind).Perm (held kind)) : PoolHeap platform w spans held' free :=
  { heap with partition := fun kind => ((same kind).append_right _).trans (heap.partition kind) }

/-- The heap does not depend on the rest of the context. -/
theorem context {change : Tally → Tally} {ctx : Context}
    (heap : PoolHeap platform w spans held free)
    (update : PoolUpdate change w { w with ctx := ctx }) (region : ctx.region = w.ctx.region)
    (lists : ∀ kind, ctx.freeList kind = w.ctx.freeList kind) :
    PoolHeap platform { w with ctx := ctx } spans held free where
  geometry := heap.geometry.update update
  tiles := region ▸ heap.tiles
  bump_le := region ▸ heap.bump_le
  shaped := heap.shaped
  tagged := by simpa only [region] using heap.tagged
  untagged := by simpa only [region] using heap.untagged
  totals := by simpa only [region] using heap.totals
  lists := by simpa only [lists] using heap.lists
  partition := by simpa only [region] using heap.partition

theorem trackAlloc (heap : PoolHeap platform w spans held free) (bytes : Nat) :
    PoolHeap platform { w with ctx := trackAlloc w.ctx bytes } spans held free := by
  refine heap.context (.trackAlloc w bytes) ?_ fun kind => ?_ <;>
    unfold BcAllocators.trackAlloc <;> split <;> rfl

theorem trackFree (heap : PoolHeap platform w spans held free) (bytes : Nat) :
    PoolHeap platform { w with ctx := trackFree w.ctx bytes } spans held free := by
  refine heap.context (.trackFree w bytes) ?_ fun kind => ?_ <;>
    unfold BcAllocators.trackFree <;> split <;> rfl

theorem trackResize (heap : PoolHeap platform w spans held free) (oldSize newSize : Nat) :
    PoolHeap platform { w with ctx := trackResize w.ctx oldSize newSize } spans held free := by
  refine heap.context (.trackResize w oldSize newSize) ?_ fun kind => ?_ <;>
    unfold BcAllocators.trackResize <;> split <;> rfl

/-- The heap reads the links of the free blocks and the recorded sizes. -/
theorem memory {m : Memory} (heap : PoolHeap platform w spans held free)
    (links : ∀ kind, ∀ a ∈ free kind, loadWord m a = loadWord w.mem a)
    (sizes : ∀ a, Owns held free .large a → metaTotalSize m a = metaTotalSize w.mem a) :
    PoolHeap platform { w with mem := m } spans held free where
  geometry := heap.geometry
  tiles := heap.tiles
  bump_le := heap.bump_le
  shaped := heap.shaped
  tagged := heap.tagged
  untagged := heap.untagged
  totals sp inSpans shape := by
    have inBlocks : w.ctx.region.base + sp.offset ∈ sp.blocks w.ctx.region.base := by
      rw [Span.blocks_large shape (heap.shaped sp inSpans).size_pos]
      exact List.mem_singleton_self _
    have owned : Owns held free .large (w.ctx.region.base + sp.offset) :=
      (heap.partition .large).mem_iff.mpr (mem_kindBlocks.mpr ⟨sp, inSpans, shape, inBlocks⟩)
    exact (sizes _ owned).trans (heap.totals sp inSpans shape)
  lists kind := (heap.lists kind).congr (links kind)
  partition := heap.partition

/-- The bytes of a block that its holder may write: all of a class block, and
all of a large one but the recorded size. -/
def writable (m : Memory) (kind : PoolKind) (a : Nat) : Set Nat :=
  {b | b ∈ (blockExtent m kind a).bytes ∧ (kind = .large → b < a + 8 ∨ a + 16 ≤ b)}

/-- **A held block may be written.** -/
theorem write {m : Memory} (heap : PoolHeap platform w spans held free) (inHeld : a ∈ held kind)
    (changes : ChangesOnly (writable w.mem kind a) w.mem m) :
    PoolHeap platform { w with mem := m } spans held free := by
  refine heap.memory (fun other b inFree => ?_) (fun b owned => ?_)
  · refine changes.loadWord fun c lower upper member => ?_
    have apart := heap.held_apart_free inHeld inFree
    have enough := (heap.block_bounds (List.mem_append_right _ inFree)).2.2
    refine apart.disjoint member.1 (Extent.mem_bytes.mpr ?_)
    rw [blockExtent_start]
    omega
  · refine changes.loadWord fun c lower upper member => ?_
    have enough := (heap.block_bounds owned).2.2
    rcases heap.block_apart (List.mem_append_left _ inHeld) owned with ⟨rfl, rfl⟩ | apart
    · have := member.2 rfl
      omega
    · refine apart.disjoint member.1 (Extent.mem_bytes.mpr ?_)
      rw [blockExtent_start]
      omega

/-- A pop from an empty list changes nothing. -/
theorem pop_nil (heap : PoolHeap platform w spans held free) (empty : free kind = []) :
    popFree w kind = (w, NULL) := by
  have nothing := heap.lists kind
  rw [empty] at nothing
  unfold popFree
  rw [nothing.pop_nil]
  cases kind with
  | sized cls => simp [Context.setFreeList, Context.freeList]
  | large => rfl

/-- **Pop hands out the first block of a list.** -/
theorem pop_cons {rest : List Nat} (heap : PoolHeap platform w spans held free)
    (first : free kind = a :: rest) :
    (popFree w kind).2 = a ∧
      PoolHeap platform (popFree w kind).1 spans (Function.update held kind (a :: held kind))
        (Function.update free kind rest) := by
  have holds := heap.lists kind
  rw [first] at holds
  obtain ⟨block, left⟩ := holds.pop_cons
  have region : (popFree w kind).1.ctx.region = w.ctx.region := Context.setFreeList_region _ _ _
  refine ⟨block, ?_⟩
  constructor
  case geometry => exact heap.geometry.update (PoolUpdate.pop w kind)
  case tiles => exact region ▸ heap.tiles
  case bump_le => exact region ▸ heap.bump_le
  case shaped => exact heap.shaped
  case tagged => simpa only [region] using heap.tagged
  case untagged => simpa only [region] using heap.untagged
  case totals => simpa only [region, popFree_mem] using heap.totals
  case lists =>
    intro other
    by_cases same : other = kind
    · subst same
      simpa [popFree] using left
    · simpa [popFree, same, Context.freeList_setFreeList_of_ne _ _ same] using heap.lists other
  case partition =>
    intro other
    rw [region]
    by_cases same : other = kind
    · subst same
      have parts := heap.partition other
      rw [first] at parts
      rw [Function.update_self, Function.update_self]
      exact List.perm_middle.symm.trans parts
    · rw [Function.update_of_ne same, Function.update_of_ne same]
      exact heap.partition other

/-- The first word of a block is writable. -/
theorem link_writable (heap : PoolHeap platform w spans held free) (inHeld : a ∈ held kind) :
    Set.Ico a (a + 8) ⊆ writable w.mem kind a := by
  intro b member
  have enough := (heap.block_bounds (List.mem_append_left _ inHeld)).2.2
  rw [Set.mem_Ico] at member
  refine ⟨Extent.mem_bytes.mpr ?_, fun _ => Or.inl member.2⟩
  rw [blockExtent_start]
  omega

/-- **Push takes a held block back.** -/
theorem push {rest : List Nat} (heap : PoolHeap platform w spans held free)
    (split : (held kind).Perm (a :: rest)) :
    ∃ blocks, blocks.Perm (a :: free kind) ∧
      PoolHeap platform (pushFree w kind a) spans (Function.update held kind rest)
        (Function.update free kind blocks) := by
  have inHeld : a ∈ held kind := split.mem_iff.mpr List.mem_cons_self
  have address := heap.block_address (List.mem_append_left _ inHeld)
  have changes := (FreeList.push_changesOnly (w.ctx.freeList kind) w.mem a).mono
    (heap.link_writable inHeld)
  have written := heap.write inHeld changes
  have apart : ∀ b ∈ free kind, a + 8 ≤ b ∨ b + 8 ≤ a := by
    intro b inFree
    have separate := heap.held_apart_free inHeld inFree
    have enough := (heap.block_bounds (List.mem_append_left _ inHeld)).2.2
    have enough' := (heap.block_bounds (List.mem_append_right _ inFree)).2.2
    unfold Extent.Apart Extent.stop at separate
    rw [blockExtent_start, blockExtent_start] at separate
    omega
  obtain ⟨blocks, perm, pushed⟩ := (heap.lists kind).push address apart
  have region : (pushFree w kind a).ctx.region = w.ctx.region := Context.setFreeList_region _ _ _
  refine ⟨blocks, perm, ?_⟩
  constructor
  case geometry => exact heap.geometry.update (PoolUpdate.push w kind a)
  case tiles => exact region ▸ heap.tiles
  case bump_le => exact region ▸ heap.bump_le
  case shaped => exact heap.shaped
  case tagged => simpa only [region] using heap.tagged
  case untagged => simpa only [region] using heap.untagged
  case totals => simpa only [region, pushFree_mem] using written.totals
  case lists =>
    intro other
    by_cases same : other = kind
    · subst same
      simpa [pushFree] using pushed
    · simpa [pushFree, same, Context.freeList_setFreeList_of_ne _ _ same] using written.lists other
  case partition =>
    intro other
    rw [region]
    by_cases same : other = kind
    · subst same
      rw [Function.update_self, Function.update_self]
      refine .trans ?_ (heap.partition other)
      exact (perm.append_left rest).trans
        (List.perm_middle.trans (split.symm.append_right (free other)))
    · rw [Function.update_of_ne same, Function.update_of_ne same]
      exact heap.partition other

/-- **Carve a span above the bump pointer.** All its blocks are held. -/
theorem carve {sp : Span} {w' : World} {change : Tally → Tally}
    (heap : PoolHeap platform w spans held free)
    (shaped : sp.WellShaped platform) (offset : sp.offset = w.ctx.region.bump)
    (fits : sp.offset + sp.size ≤ w.ctx.region.totalSize) (update : PoolUpdate change w w')
    (bump : w'.ctx.region.bump = sp.offset + sp.size)
    (classes : ∀ page, w'.ctx.region.pageClass page =
      if sp.offset ≤ page * platform.pageSize ∧ page * platform.pageSize < sp.offset + sp.size
      then sp.kind.tag else w.ctx.region.pageClass page)
    (lists : ∀ kind, w'.ctx.freeList kind = w.ctx.freeList kind)
    (changes : ChangesOnly (Set.Ico (w.ctx.region.base + sp.offset)
      (w.ctx.region.base + sp.offset + sp.size)) w.mem w'.mem)
    (recorded : sp.kind = .large →
      metaTotalSize w'.mem (w.ctx.region.base + sp.offset) = sp.size) :
    PoolHeap platform w' (spans ++ [sp])
      (Function.update held sp.kind (sp.blocks w.ctx.region.base ++ held sp.kind)) free := by
  have base := update.base
  -- the words of the old blocks lie below the new span
  have kept : ∀ a, w.ctx.region.base ≤ a → a + 8 ≤ w.ctx.region.base + w.ctx.region.bump →
      loadWord w'.mem a = loadWord w.mem a := fun a _ below =>
    changes.loadWord fun c _ upper member => by rw [Set.mem_Ico] at member; omega
  constructor
  case geometry => exact heap.geometry.update update
  case tiles =>
    rw [bump, List.map_append, List.map_singleton]
    exact heap.tiles.snoc offset rfl
  case bump_le => rwa [bump, update.totalSize]
  case shaped =>
    intro other member
    rcases List.mem_append.mp member with old | new
    · exact heap.shaped other old
    · exact List.mem_singleton.mp new ▸ shaped
  case tagged =>
    intro other member page lower upper
    rcases List.mem_append.mp member with old | new
    · have below := span_below heap.tiles old
      rw [classes, if_neg (by omega)]
      exact heap.tagged other old page lower upper
    · rw [List.mem_singleton.mp new] at lower upper ⊢
      rw [classes, if_pos ⟨lower, upper⟩]
  case untagged =>
    intro page above
    rw [bump] at above
    rw [classes, if_neg (by omega)]
    exact heap.untagged page (by omega)
  case totals =>
    intro other member shape
    rw [base]
    rcases List.mem_append.mp member with old | new
    · have below := span_below heap.tiles old
      have enough := (heap.shaped other old).blockSize_ge
      have inside := (heap.shaped other old).blockSize_le
      refine Eq.trans ?_ (heap.totals other old shape)
      exact kept _ (by omega) (by omega)
    · rw [List.mem_singleton.mp new] at shape ⊢
      exact recorded shape
  case lists =>
    intro kind
    rw [lists]
    refine (heap.lists kind).congr fun a inFree => ?_
    have ⟨above, below, enough⟩ := heap.block_bounds (List.mem_append_right (held kind) inFree)
    unfold Extent.stop at below
    rw [blockExtent_start] at below
    exact kept a above (by omega)
  case partition =>
    intro kind
    rw [base]
    by_cases same : kind = sp.kind
    · subst same
      rw [Function.update_self, kindBlocks_append_same rfl, List.append_assoc]
      exact (List.perm_append_comm).trans ((heap.partition sp.kind).append_right _)
    · rw [Function.update_of_ne same, kindBlocks_append_other (Ne.symm same)]
      exact heap.partition kind

end PoolHeap

end BcAllocators
