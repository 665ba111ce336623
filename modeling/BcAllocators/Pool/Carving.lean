import BcAllocators.Pool.Heap

/-!
# Carving

Each function that moves the bump pointer either finds the region full and
changes nothing, or appends one span to the tiling. `bump_allocate_class` keeps
the first block of its span and pushes the others on the free list of the
class; `allocate_large` makes its span one block and records its size.

The sum in `bump_raw` is not checked. The lemmas about large blocks therefore
ask that the sum does not wrap; for requests up to the size of the region it
never does (`largeTotal_no_wrap`).
-/

set_option autoImplicit false

namespace BcAllocators

open Machine

variable {core : BcCore} {platform : Platform} {w : World} {spans : List Span}
variable {held free : PoolKind → List Nat}

/-! ## Tagging pages -/

/-- The loop of `tag_page_class` sets the entries of a range of pages. -/
theorem tagPages_apply (value : UInt8) (count : Nat) : ∀ (pageClass : Nat → UInt8) (first p : Nat),
    tagPages pageClass value first count p =
      if first ≤ p ∧ p < first + count then value else pageClass p := by
  induction count with
  | zero =>
      intro pageClass first p
      rw [tagPages, if_neg (by omega)]
  | succ count ih =>
      intro pageClass first p
      rw [tagPages, ih]
      by_cases same : p = first
      · subst same
        rw [if_neg (by omega), if_pos (by omega), Function.update_self]
      · rw [Function.update_of_ne same]
        by_cases inside : first + 1 ≤ p ∧ p < first + 1 + count
        · rw [if_pos inside, if_pos (by omega)]
        · rw [if_neg inside, if_neg (by omega)]

/-- **`tag_page_class` tags the pages of a span**, and no others. -/
theorem tagPageClass_apply {ctx : Context} {offset size : Nat} {value : UInt8}
    (shift : ctx.pageShift = platform.pageShift) (start : platform.pageSize ∣ offset)
    (whole : platform.pageSize ∣ size) (pos : 0 < size) (fits : offset + size < 2 ^ 64)
    (page : Nat) : (tagPageClass ctx offset size value).region.pageClass page =
      if offset ≤ page * platform.pageSize ∧ page * platform.pageSize < offset + size
      then value else ctx.region.pageClass page := by
  obtain ⟨first, rfl⟩ := start
  obtain ⟨count, rfl⟩ := whole
  have unit := platform.pageSize_pos
  have some : 0 < count := Nat.pos_of_mul_pos_left pos
  have startPage : (platform.pageSize * first) >>> ctx.pageShift = first := by
    rw [shift, Nat.shiftRight_eq_div_pow]
    exact Nat.mul_div_cancel_left first unit
  have endPage : wsub (wadd (platform.pageSize * first) (platform.pageSize * count)) 1 >>>
      ctx.pageShift + 1 - first = count := by
    rw [wadd_of_lt fits, wsub_of_le (by omega) fits, shift, Nat.shiftRight_eq_div_pow,
      ← Nat.mul_add]
    have last : platform.pageSize * (first + count) - 1 =
        platform.pageSize * (first + count - 1) + (platform.pageSize - 1) := by
      obtain ⟨before, total⟩ : ∃ before, first + count = before + 1 := ⟨first + count - 1, by omega⟩
      rw [total, Nat.add_sub_cancel, Nat.mul_succ]
      omega
    rw [last]
    change (_ / platform.pageSize) + 1 - first = count
    rw [Nat.mul_add_div unit, Nat.div_eq_of_lt (by omega)]
    omega
  unfold tagPageClass
  dsimp only
  rw [startPage, endPage, tagPages_apply, ← Nat.mul_add, Nat.mul_comm page]
  simp only [Nat.mul_le_mul_left_iff unit, Nat.mul_lt_mul_left unit]

/-! ## The bump pointer -/

theorem bumpRaw_full {ctx : Context} {bytes : Nat}
    (full : ctx.region.totalSize < wadd ctx.region.bump bytes) : bumpRaw ctx bytes = (ctx, NULL) :=
  if_pos full

theorem bumpRaw_room {ctx : Context} {bytes : Nat}
    (room : wadd ctx.region.bump bytes ≤ ctx.region.totalSize) :
    bumpRaw ctx bytes =
      ({ ctx with region := { ctx.region with bump := wadd ctx.region.bump bytes } },
        ctx.region.base + ctx.region.bump) :=
  if_neg (Nat.not_lt.mpr room)

/-- The span that a call carved: what the bump pointer moved over. -/
def carvedSpan (kind : PoolKind) (ctx ctx' : Context) : List Span :=
  if ctx'.region.bump = ctx.region.bump then []
  else [⟨kind, ctx.region.bump, ctx'.region.bump - ctx.region.bump⟩]

theorem carvedSpan_same {kind : PoolKind} {ctx ctx' : Context}
    (same : ctx'.region.bump = ctx.region.bump) : carvedSpan kind ctx ctx' = [] :=
  if_pos same

theorem carvedSpan_moved {kind : PoolKind} {ctx ctx' : Context} {size : Nat} (pos : 0 < size)
    (moved : ctx'.region.bump = ctx.region.bump + size) :
    carvedSpan kind ctx ctx' = [⟨kind, ctx.region.bump, size⟩] := by
  unfold carvedSpan
  rw [if_neg (by omega), moved, Nat.add_sub_cancel_left]

/-! ## Blocks handed out -/

/-- The bytes between a block and the pointer of its user. -/
def PoolKind.header : PoolKind → Nat
  | .sized _ => 0
  | .large => largeMetaSize

/-- The bytes of the held blocks are as they were. -/
def KeepsHeld (m m' : Memory) (held : PoolKind → List Nat) : Prop :=
  ∀ kind, ∀ a ∈ held kind, ∀ b ∈ (blockExtent m kind a).bytes, m' b = m b

/-- A block of a kind was taken for a request: it is held, large enough and
carries the requested size if it is large, and the other held blocks are as
they were. -/
structure Granted (platform : Platform) (w : World) (spans : List Span)
    (held : PoolKind → List Nat) (kind : PoolKind) (size : Nat) (w' : World) (block : Nat) :
    Prop where
  heap : ∃ free, PoolHeap platform w' (spans ++ carvedSpan kind w.ctx w'.ctx)
    (Function.update held kind (block :: held kind)) free
  kept : KeepsHeld w.mem w'.mem held
  fits : kind.header + size ≤ (blockExtent w'.mem kind block).size
  recorded : kind = .large → userSize w'.mem block = size

/-- What happens above the bump pointer keeps the held blocks. -/
theorem PoolHeap.keepsHeld_above (heap : PoolHeap platform w spans held free) {m' : Memory}
    {top : Nat} (changes : ChangesOnly (Set.Ico (w.ctx.region.base + w.ctx.region.bump) top)
      w.mem m') : KeepsHeld w.mem m' held := by
  intro kind a inHeld b inside
  have below := (heap.block_bounds (List.mem_append_left _ inHeld)).2.1
  refine changes b fun member => ?_
  rw [Set.mem_Ico] at member
  have upper := inside.2
  omega

/-! ## Pushing the rest of a span -/

theorem pushAll_region (kind : PoolKind) (blocks : List Nat) (w : World) :
    (blocks.foldl (fun w a => pushFree w kind a) w).ctx.region = w.ctx.region := by
  induction blocks generalizing w with
  | nil => rfl
  | cons a rest ih =>
      rw [List.foldl_cons, ih]
      exact Context.setFreeList_region _ _ _

theorem pushAll_update (kind : PoolKind) (blocks : List Nat) (w : World) :
    PoolUpdate id w (blocks.foldl (fun w a => pushFree w kind a) w) := by
  induction blocks generalizing w with
  | nil => exact PoolUpdate.refl w
  | cons a rest ih => exact (PoolUpdate.push w kind a).idThen (ih _)

/-- Pushes write first words of the pushed blocks. -/
theorem pushAll_changesOnly (kind : PoolKind) {blocks : List Nat} (w : World) {s : Set Nat}
    (inside : ∀ a ∈ blocks, Set.Ico a (a + 8) ⊆ s) :
    ChangesOnly s w.mem (blocks.foldl (fun w a => pushFree w kind a) w).mem := by
  induction blocks generalizing w with
  | nil => exact ChangesOnly.refl s w.mem
  | cons a rest ih =>
      rw [List.foldl_cons]
      refine ChangesOnly.trans ?_ (ih _ fun b member => inside b (List.mem_cons_of_mem a member))
      exact (FreeList.push_changesOnly _ _ a).mono (inside a List.mem_cons_self)

/-- Held blocks may be pushed one after the other. -/
theorem PoolHeap.pushAll {kind : PoolKind} {blocks rest : List Nat} {w : World}
    {held free : PoolKind → List Nat} (heap : PoolHeap platform w spans held free)
    (split : (held kind).Perm (blocks ++ rest)) :
    ∃ free', PoolHeap platform (blocks.foldl (fun w a => pushFree w kind a) w) spans
      (Function.update held kind rest) free' := by
  induction blocks generalizing w held free with
  | nil =>
      refine ⟨free, heap.hold fun other => ?_⟩
      by_cases same : other = kind
      · subst same
        rw [Function.update_self]
        exact split.symm
      · rw [Function.update_of_ne same]
  | cons a others ih =>
      obtain ⟨entries, _, pushed⟩ := heap.push split
      obtain ⟨free', result⟩ := ih pushed (by rw [Function.update_self]; exact .refl _)
      exact ⟨free', by rwa [Function.update_idem] at result⟩

/-! ## `bump_allocate_class` -/

/-- The bytes of a span of a class. -/
def classSpan (platform : Platform) (cls : Nat) : Nat := max (classSize cls) platform.pageSize

theorem classSpan_lt {cls : Nat} (valid : cls < numClasses) : classSpan platform cls < 2 ^ 63 := by
  have small := classSize_le valid
  have page := platform.pageSize_lt
  unfold classSpan maxClassSize at *
  omega

theorem classBumpSize_eq {ctx : Context} {cls : Nat} (geometry : Geometry platform ctx)
    (valid : cls < numClasses) :
    classBumpSize core ctx cls = some (classSpan platform cls) := by
  have small := classSize_le valid
  have page := platform.pageSize_lt
  unfold classBumpSize classSpan
  dsimp only
  rw [geometry.pageSize]
  by_cases less : classSize cls < platform.pageSize
  · rw [if_pos less, max_eq_right (Nat.le_of_lt less)]
  · have multiple : platform.pageSize ∣ classSize cls :=
      isPowerOfTwo_dvd platform.pageSize_power (classSize_power valid) (Nat.le_of_not_lt less)
    unfold maxClassSize at small
    rw [if_neg less, max_eq_left (Nat.le_of_not_lt less)]
    refine (core.alignUp_eq_some (by omega) (by omega) platform.pageSize_power).mpr ⟨?_, by omega⟩
    exact (roundUp_of_dvd platform.pageSize_pos multiple).symm

/-- The world after a class span is carved, before its blocks are pushed. -/
def carveClass (platform : Platform) (w : World) (cls : Nat) : World :=
  let bumped := { w.ctx with region := { w.ctx.region with
    bump := w.ctx.region.bump + classSpan platform cls } }
  { w with ctx := tagPageClass bumped w.ctx.region.bump (classSpan platform cls)
                    (UInt8.ofNat cls) }

theorem carveClass_update (platform : Platform) (w : World) (cls : Nat) :
    PoolUpdate id w (carveClass platform w cls) :=
  ⟨_, _, _, _, w.ctx.tally, _, fun _ => rfl, rfl⟩

theorem bumpAllocateClass_full {cls : Nat} (heap : PoolHeap platform w spans held free)
    (valid : cls < numClasses)
    (full : w.ctx.region.totalSize < w.ctx.region.bump + classSpan platform cls) :
    bumpAllocateClass core w cls = (w, NULL) := by
  have span : classSpan platform cls < 2 ^ 63 := classSpan_lt valid
  have := heap.bump_le
  have := heap.geometry.total_lt
  have sum : wadd w.ctx.region.bump (classSpan platform cls) =
      w.ctx.region.bump + classSpan platform cls := wadd_of_lt (by omega)
  unfold bumpAllocateClass
  rw [classBumpSize_eq heap.geometry valid]
  dsimp only
  rw [bumpRaw_full (by rwa [sum]), if_pos rfl]

/-- The addresses that the loop of `bump_allocate_class` pushes. -/
def laterBlocks (platform : Platform) (w : World) (cls : Nat) : List Nat :=
  (List.range' 1 (classSpan platform cls / classSize cls - 1)).map fun i =>
    w.ctx.region.base + w.ctx.region.bump + i * classSize cls

theorem bumpAllocateClass_room {cls : Nat} (heap : PoolHeap platform w spans held free)
    (valid : cls < numClasses)
    (room : w.ctx.region.bump + classSpan platform cls ≤ w.ctx.region.totalSize) :
    bumpAllocateClass core w cls =
      ((laterBlocks platform w cls).foldl (fun w a => pushFree w (.sized cls) a)
        (carveClass platform w cls), w.ctx.region.base + w.ctx.region.bump) := by
  have := heap.geometry.total_lt
  have := heap.geometry.region_lt
  have base := heap.geometry.base_pos
  have sum : wadd w.ctx.region.bump (classSpan platform cls) =
      w.ctx.region.bump + classSpan platform cls := wadd_of_lt (by omega)
  have offset : wsub (w.ctx.region.base + w.ctx.region.bump) w.ctx.region.base =
      w.ctx.region.bump := by
    rw [wsub_of_le (by omega) (by omega), Nat.add_sub_cancel_left]
  unfold bumpAllocateClass
  rw [classBumpSize_eq heap.geometry valid]
  dsimp only
  rw [bumpRaw_room (by rwa [sum])]
  dsimp only
  rw [if_neg (show ¬ w.ctx.region.base + w.ctx.region.bump = NULL by unfold NULL; omega), sum,
    offset]
  unfold pushBlocks laterBlocks carveClass
  rw [List.foldl_map]

/-- The blocks of a class span: the one that is kept and the ones that are pushed. -/
theorem classSpan_blocks {cls : Nat} (valid : cls < numClasses) :
    Span.blocks w.ctx.region.base ⟨.sized cls, w.ctx.region.bump, classSpan platform cls⟩ =
      (w.ctx.region.base + w.ctx.region.bump) :: laterBlocks platform w cls := by
  have pos : 0 < classSize cls := by have := classSize_ge valid; omega
  have count : 0 < classSpan platform cls / classSize cls := Nat.div_pos (le_max_left _ _) pos
  obtain ⟨more, total⟩ : ∃ more, classSpan platform cls / classSize cls = more + 1 :=
    ⟨classSpan platform cls / classSize cls - 1, by omega⟩
  unfold Span.blocks laterBlocks Span.blockSize
  dsimp only
  rw [total, Nat.add_sub_cancel, List.range_eq_range', List.range'_succ, List.map_cons,
    Nat.zero_mul, Nat.add_zero]

theorem bumpAllocateClass_update (core : BcCore) {cls : Nat}
    (heap : PoolHeap platform w spans held free)
    (valid : cls < numClasses)
    (room : w.ctx.region.bump + classSpan platform cls ≤ w.ctx.region.totalSize) :
    PoolUpdate id w (bumpAllocateClass core w cls).1 := by
  rw [bumpAllocateClass_room heap valid room]
  exact (carveClass_update platform w cls).idThen (pushAll_update _ _ _)

/-- Carving a class writes links in its new span. -/
theorem bumpAllocateClass_changes (core : BcCore) {cls : Nat}
    (heap : PoolHeap platform w spans held free) (valid : cls < numClasses)
    (room : w.ctx.region.bump + classSpan platform cls ≤ w.ctx.region.totalSize) :
    ChangesOnly (Set.Ico (w.ctx.region.base + w.ctx.region.bump)
      (w.ctx.region.base + w.ctx.region.bump + classSpan platform cls)) w.mem
      (bumpAllocateClass core w cls).1.mem := by
  rw [bumpAllocateClass_room heap valid room]
  let sp : Span := ⟨.sized cls, w.ctx.region.bump, classSpan platform cls⟩
  have shaped : sp.WellShaped platform := ⟨valid, rfl⟩
  have blocks : sp.blocks w.ctx.region.base =
      (w.ctx.region.base + w.ctx.region.bump) :: laterBlocks platform w cls :=
    classSpan_blocks valid
  refine pushAll_changesOnly _ (carveClass platform w cls) fun a member b within => ?_
  have bounds := shaped.block_inside (blocks ▸ List.mem_cons_of_mem _ member)
  have wide := shaped.blockSize_ge
  rw [Set.mem_Ico] at within ⊢
  simp only [sp] at bounds wide ⊢
  omega

/-- **`bump_allocate_class` carves a span** and keeps its first block. -/
theorem bumpAllocateClass_granted (core : BcCore) {cls size : Nat}
    (heap : PoolHeap platform w spans held free)
    (valid : cls < numClasses) (enough : size ≤ classSize cls)
    (room : w.ctx.region.bump + classSpan platform cls ≤ w.ctx.region.totalSize) :
    Granted platform w spans held (.sized cls) size (bumpAllocateClass core w cls).1
      (w.ctx.region.base + w.ctx.region.bump) := by
  have changes := bumpAllocateClass_changes core heap valid room
  rw [bumpAllocateClass_room heap valid room] at changes ⊢
  dsimp only at changes ⊢
  have small : classSpan platform cls < 2 ^ 63 := classSpan_lt valid
  have := heap.geometry.total_lt
  have tail := classSize_ge valid
  have pos : 0 < classSpan platform cls := lt_of_lt_of_le (by omega) (le_max_left _ _)
  let sp : Span := ⟨.sized cls, w.ctx.region.bump, classSpan platform cls⟩
  have shaped : sp.WellShaped platform := ⟨valid, rfl⟩
  have blocks : sp.blocks w.ctx.region.base =
      (w.ctx.region.base + w.ctx.region.bump) :: laterBlocks platform w cls :=
    classSpan_blocks valid
  have carved := heap.carve shaped rfl room (carveClass_update platform w cls) rfl
    (tagPageClass_apply heap.geometry.pageShift (spans_aligned heap.tiles heap.shaped).1
      shaped.pageSize_dvd pos (by omega))
    (fun _ => rfl) (ChangesOnly.refl _ _) (fun large => by simp [sp] at large)
  have split : (Function.update held (.sized cls) (sp.blocks w.ctx.region.base ++
      held (.sized cls)) (.sized cls)).Perm (laterBlocks platform w cls ++
        (w.ctx.region.base + w.ctx.region.bump) :: held (.sized cls)) := by
    rw [Function.update_self, blocks, List.cons_append]
    exact List.perm_middle.symm
  obtain ⟨free', pushed⟩ := carved.pushAll split
  rw [Function.update_idem] at pushed
  have region := pushAll_region (.sized cls) (laterBlocks platform w cls)
    (carveClass platform w cls)
  refine ⟨⟨free', ?_⟩, heap.keepsHeld_above changes, ?_, fun large => by simp at large⟩
  · rwa [carvedSpan_moved pos (by rw [region]; rfl)]
  · simpa [PoolKind.header, blockExtent] using enough

/-! ## Large blocks -/

/-- The bytes of a large block: header and request, rounded to pages. -/
theorem largeTotal_eq_some {ctx : Context} {size total : Nat} (geometry : Geometry platform ctx)
    (word : size < 2 ^ 64) : largeTotal core ctx size = some total ↔
      total = roundUp (largeMetaSize + size) platform.pageSize ∧ total < 2 ^ 64 := by
  have page : platform.pageSize < 2 ^ 64 := platform.pageSize_lt.trans (by decide)
  have padded : largeTotal core ctx size =
      (core.safeAdd largeMetaSize size).bind fun raw => core.alignUp raw platform.pageSize := by
    rw [largeTotal, geometry.pageSize]
    cases core.safeAdd largeMetaSize size <;> rfl
  rw [padded]
  exact core.padded_eq_some (by decide) word page platform.pageSize_power

/-- A request up to the size of the region takes at most a page more. -/
theorem Geometry.largeRounded_le {ctx : Context} {size : Nat} (geometry : Geometry platform ctx)
    (allowed : size ≤ ctx.region.totalSize) :
    roundUp (largeMetaSize + size) platform.pageSize ≤
      ctx.region.totalSize + platform.pageSize := by
  have wide := platform.pageSize_ge
  have multiple := Nat.dvd_add geometry.total_aligned (Nat.dvd_refl platform.pageSize)
  refine roundUp_le platform.pageSize_pos multiple ?_
  unfold largeMetaSize
  omega

/-- A request up to the size of the region has a total. -/
theorem largeTotal_within (core : BcCore) {ctx : Context} {size : Nat}
    (geometry : Geometry platform ctx) (allowed : size ≤ ctx.region.totalSize) :
    largeTotal core ctx size = some (roundUp (largeMetaSize + size) platform.pageSize) := by
  have half := geometry.total_lt
  have page := geometry.total_add_page_le
  have rounded := geometry.largeRounded_le allowed
  exact (largeTotal_eq_some geometry (by omega)).mpr ⟨rfl, by omega⟩

/-- **A request up to the size of the region never wraps the sum in `bump_raw`.** -/
theorem largeTotal_no_wrap (core : BcCore) {size total : Nat}
    (heap : PoolHeap platform w spans held free)
    (allowed : size ≤ w.ctx.region.totalSize) (some : largeTotal core w.ctx size = some total) :
    w.ctx.region.bump + total < 2 ^ 64 := by
  have half := heap.geometry.total_lt
  have page := heap.geometry.total_add_page_le
  have below := heap.bump_le
  have rounded := heap.geometry.largeRounded_le allowed
  rw [largeTotal_within core heap.geometry allowed, Option.some.injEq] at some
  omega

theorem bumpAllocateLarge_full {size total : Nat}
    (full : w.ctx.region.totalSize < wadd w.ctx.region.bump total) :
    bumpAllocateLarge w total size = (w, NULL) := by
  unfold bumpAllocateLarge
  rw [bumpRaw_full full]
  exact if_pos rfl

/-- The world after a large span is carved. -/
def carveLarge (w : World) (total size : Nat) : World :=
  let bumped := { w.ctx with region := { w.ctx.region with bump := w.ctx.region.bump + total } }
  let block := w.ctx.region.base + w.ctx.region.bump
  { w with ctx := tagPageClass bumped w.ctx.region.bump total pageClassLarge,
           mem := storeWord (storeWord w.mem (block + 8) total) block size }

theorem carveLarge_update (w : World) (total size : Nat) :
    PoolUpdate id w (carveLarge w total size) :=
  ⟨_, _, _, _, w.ctx.tally, _, fun _ => rfl, rfl⟩

theorem bumpAllocateLarge_room {size total : Nat} (heap : PoolHeap platform w spans held free)
    (room : w.ctx.region.bump + total ≤ w.ctx.region.totalSize) :
    bumpAllocateLarge w total size =
      (carveLarge w total size, w.ctx.region.base + w.ctx.region.bump + largeMetaSize) := by
  have := heap.geometry.total_lt
  have := heap.geometry.region_lt
  have base := heap.geometry.base_pos
  have sum : wadd w.ctx.region.bump total = w.ctx.region.bump + total := wadd_of_lt (by omega)
  have offset : wsub (w.ctx.region.base + w.ctx.region.bump) w.ctx.region.base =
      w.ctx.region.bump := by
    rw [wsub_of_le (by omega) (by omega), Nat.add_sub_cancel_left]
  unfold bumpAllocateLarge
  rw [bumpRaw_room (by rwa [sum])]
  dsimp only
  rw [if_neg (show ¬ w.ctx.region.base + w.ctx.region.bump = NULL by unfold NULL; omega), sum,
    offset]
  rfl

/-- Carving a large block writes its header. -/
theorem carveLarge_changes (w : World) (size : Nat) {total : Nat} (header : largeMetaSize ≤ total) :
    ChangesOnly (Set.Ico (w.ctx.region.base + w.ctx.region.bump)
      (w.ctx.region.base + w.ctx.region.bump + total)) w.mem (carveLarge w total size).mem := by
  unfold largeMetaSize at header
  refine ChangesOnly.trans ((changesOnly_storeWord _ _ total).mono ?_)
    ((changesOnly_storeWord _ _ size).mono ?_)
  · intro b member
    rw [Set.mem_Ico] at member ⊢
    omega
  · intro b member
    rw [Set.mem_Ico] at member ⊢
    omega

/-- **`allocate_large` carves a span** that is one block with its size in the
header. -/
theorem carveLarge_granted {size total : Nat} (heap : PoolHeap platform w spans held free)
    (large : maxClassSize < size) (word : size < 2 ^ 64)
    (rounded : total = roundUp (largeMetaSize + size) platform.pageSize)
    (room : w.ctx.region.bump + total ≤ w.ctx.region.totalSize) :
    Granted platform w spans held .large size (carveLarge w total size)
      (w.ctx.region.base + w.ctx.region.bump) := by
  have := heap.geometry.total_lt
  have enough : largeMetaSize + size ≤ total := rounded ▸ le_roundUp platform.pageSize_pos
  have header : largeMetaSize = 16 := rfl
  let sp : Span := ⟨.large, w.ctx.region.bump, total⟩
  have shaped : sp.WellShaped platform := ⟨size, large, rounded⟩
  have blocks : sp.blocks w.ctx.region.base = [w.ctx.region.base + w.ctx.region.bump] :=
    Span.blocks_large rfl shaped.size_pos
  have changes := carveLarge_changes w size (show largeMetaSize ≤ total by omega)
  have recorded : metaTotalSize (carveLarge w total size).mem
      (w.ctx.region.base + w.ctx.region.bump) = total := by
    refine (loadWord_storeWord_of_apart (Or.inl (Nat.le_refl _))).trans ?_
    exact loadWord_storeWord_of_lt (by omega)
  have carved := heap.carve shaped rfl room (carveLarge_update w total size) rfl
    (tagPageClass_apply heap.geometry.pageShift (spans_aligned heap.tiles heap.shaped).1
      shaped.pageSize_dvd shaped.size_pos (show w.ctx.region.bump + total < 2 ^ 64 by omega))
    (fun _ => rfl) changes (fun _ => recorded)
  rw [blocks] at carved
  refine ⟨⟨free, ?_⟩, heap.keepsHeld_above changes, ?_, fun _ => ?_⟩
  · rwa [carvedSpan_moved shaped.size_pos rfl]
  · rw [blockExtent, recorded]
    exact enough
  · exact loadWord_storeWord_of_lt word

end BcAllocators
