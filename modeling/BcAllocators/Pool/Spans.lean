import BcAllocators.Pool.SizeClasses

/-!
# Spans

A span is the part of the region taken by one move of the bump pointer: the
blocks of one size class, or one large block. The spans of a pool are its
history; no function of the pool reads them.

A span of a class is cut into blocks of the class size, and a large span is one
block. The blocks of a tiling are pairwise apart (`blocks_apart`) and the list
of all of them repeats none (`kindBlocks_nodup`).
-/

set_option autoImplicit false

namespace BcAllocators

open Machine

/-- The entry of the page-class map for a kind of block. -/
def PoolKind.tag : PoolKind → UInt8
  | .sized cls => UInt8.ofNat cls
  | .large => pageClassLarge

/-- One move of the bump pointer, at an offset in the region. -/
structure Span where
  kind : PoolKind
  offset : Nat
  size : Nat
deriving DecidableEq, Repr

namespace Span

def extent (sp : Span) : Extent := ⟨sp.offset, sp.size⟩

/-- The size of the blocks of a span. -/
def blockSize (sp : Span) : Nat :=
  match sp.kind with
  | .sized cls => classSize cls
  | .large => sp.size

/-- The addresses of the blocks of a span. -/
def blocks (base : Nat) (sp : Span) : List Nat :=
  (List.range (sp.size / sp.blockSize)).map fun i => base + sp.offset + i * sp.blockSize

/-- The size of a span: the class size or a page for a class, and the header and
a request rounded to pages for a large block. -/
def WellShaped (platform : Platform) (sp : Span) : Prop :=
  match sp.kind with
  | .sized cls => cls < numClasses ∧ sp.size = max (classSize cls) platform.pageSize
  | .large => ∃ request, maxClassSize < request ∧
      sp.size = roundUp (largeMetaSize + request) platform.pageSize

variable {platform : Platform} {base : Nat} {sp : Span}

/-- A span of a class is the larger of the class size and the page, both powers
of two. -/
theorem max_power {cls : Nat} (valid : cls < numClasses) :
    (max (classSize cls) platform.pageSize).isPowerOfTwo := by
  rcases max_choice (classSize cls) platform.pageSize with same | same <;> rw [same]
  · exact classSize_power valid
  · exact platform.pageSize_power

theorem WellShaped.pageSize_dvd (shaped : sp.WellShaped platform) :
    platform.pageSize ∣ sp.size := by
  unfold WellShaped at shaped
  split at shaped
  · obtain ⟨valid, size⟩ := shaped
    rw [size]
    exact isPowerOfTwo_dvd platform.pageSize_power (max_power valid) (le_max_right _ _)
  · obtain ⟨request, _, size⟩ := shaped
    exact size ▸ dvd_roundUp _ _

theorem WellShaped.blockSize_dvd (shaped : sp.WellShaped platform) : sp.blockSize ∣ sp.size := by
  unfold WellShaped at shaped
  unfold blockSize
  split at shaped
  · obtain ⟨valid, size⟩ := shaped
    rw [size]
    exact isPowerOfTwo_dvd (classSize_power valid) (max_power valid) (le_max_left _ _)
  · exact Nat.dvd_refl _

theorem WellShaped.blockSize_ge (shaped : sp.WellShaped platform) : 16 ≤ sp.blockSize := by
  unfold WellShaped at shaped
  unfold blockSize
  split at shaped
  · exact classSize_ge shaped.1
  · obtain ⟨request, _, size⟩ := shaped
    have : largeMetaSize + request ≤ roundUp (largeMetaSize + request) platform.pageSize :=
      le_roundUp platform.pageSize_pos
    unfold largeMetaSize at *
    omega

/-- A large block has room for more than its header. -/
theorem WellShaped.blockSize_large (shaped : sp.WellShaped platform) (large : sp.kind = .large) :
    largeMetaSize + maxClassSize < sp.blockSize := by
  unfold WellShaped at shaped
  unfold blockSize
  rw [large] at shaped ⊢
  obtain ⟨request, above, size⟩ := shaped
  have : largeMetaSize + request ≤ roundUp (largeMetaSize + request) platform.pageSize :=
    le_roundUp platform.pageSize_pos
  dsimp only
  omega

theorem WellShaped.blockSize_le (shaped : sp.WellShaped platform) : sp.blockSize ≤ sp.size := by
  unfold WellShaped at shaped
  unfold blockSize
  split at shaped
  · exact shaped.2 ▸ le_max_left _ _
  · exact Nat.le_refl _

theorem WellShaped.size_pos (shaped : sp.WellShaped platform) : 0 < sp.size := by
  have := shaped.blockSize_ge
  have := shaped.blockSize_le
  omega

theorem mem_blocks {a : Nat} : a ∈ sp.blocks base ↔
    ∃ i < sp.size / sp.blockSize, a = base + sp.offset + i * sp.blockSize := by
  simp only [blocks, List.mem_map, List.mem_range, eq_comm]

/-- The block of a large span starts the span. -/
theorem blocks_large (kind : sp.kind = .large) (pos : 0 < sp.size) :
    sp.blocks base = [base + sp.offset] := by
  have same : sp.blockSize = sp.size := by unfold blockSize; rw [kind]
  simp [blocks, same, Nat.div_self pos]

/-- A block lies in its span. -/
theorem WellShaped.block_inside (shaped : sp.WellShaped platform) {a : Nat}
    (member : a ∈ sp.blocks base) :
    base + sp.offset ≤ a ∧ a + sp.blockSize ≤ base + sp.offset + sp.size := by
  obtain ⟨i, small, rfl⟩ := mem_blocks.mp member
  have whole := Nat.div_mul_cancel shaped.blockSize_dvd
  have fits : (i + 1) * sp.blockSize ≤ sp.size :=
    whole ▸ Nat.mul_le_mul_right sp.blockSize small
  rw [Nat.add_mul, Nat.one_mul] at fits
  omega

/-- Distinct blocks of a span are apart. -/
theorem blocks_apart_of_ne {a b : Nat} (ha : a ∈ sp.blocks base) (hb : b ∈ sp.blocks base)
    (different : a ≠ b) : a + sp.blockSize ≤ b ∨ b + sp.blockSize ≤ a := by
  obtain ⟨i, _, rfl⟩ := mem_blocks.mp ha
  obtain ⟨j, _, rfl⟩ := mem_blocks.mp hb
  have order : i < j ∨ j < i := by
    by_contra same
    exact different (by rw [show i = j by omega])
  rcases order with less | less
  · have := Nat.mul_le_mul_right sp.blockSize (Nat.succ_le_of_lt less)
    rw [Nat.succ_mul] at this
    omega
  · have := Nat.mul_le_mul_right sp.blockSize (Nat.succ_le_of_lt less)
    rw [Nat.succ_mul] at this
    omega

theorem WellShaped.blocks_nodup (shaped : sp.WellShaped platform) : (sp.blocks base).Nodup := by
  have pos := shaped.blockSize_ge
  refine List.Nodup.map (fun i j same => ?_) List.nodup_range
  have products : i * sp.blockSize = j * sp.blockSize := by simpa using same
  exact Nat.eq_of_mul_eq_mul_right (by omega) products

end Span

/-! ## The blocks of a list of spans -/

/-- The blocks of all spans of a kind. -/
def kindBlocks (base : Nat) (spans : List Span) (kind : PoolKind) : List Nat :=
  (spans.filter (fun sp => sp.kind = kind)).flatMap (Span.blocks base)

variable {platform : Platform} {base hi : Nat} {spans : List Span} {kind : PoolKind}

theorem mem_kindBlocks {a : Nat} :
    a ∈ kindBlocks base spans kind ↔ ∃ sp ∈ spans, sp.kind = kind ∧ a ∈ sp.blocks base := by
  simp only [kindBlocks, List.mem_flatMap, List.mem_filter, decide_eq_true_eq, and_assoc]

theorem kindBlocks_append_same {sp : Span} (same : sp.kind = kind) :
    kindBlocks base (spans ++ [sp]) kind = kindBlocks base spans kind ++ sp.blocks base := by
  simp [kindBlocks, List.filter_append, same]

theorem kindBlocks_append_other {sp : Span} (other : sp.kind ≠ kind) :
    kindBlocks base (spans ++ [sp]) kind = kindBlocks base spans kind := by
  simp [kindBlocks, List.filter_append, other]

/-- **Blocks of a tiling are apart**: two blocks are one block of one span, or
neither reaches into the other. -/
theorem blocks_apart (tiles : Extent.Tiles 0 (spans.map Span.extent) hi)
    (shaped : ∀ sp ∈ spans, sp.WellShaped platform) {sp sp' : Span} {a a' : Nat}
    (hsp : sp ∈ spans) (hsp' : sp' ∈ spans) (ha : a ∈ sp.blocks base)
    (ha' : a' ∈ sp'.blocks base) :
    a = a' ∧ sp = sp' ∨ a + sp.blockSize ≤ a' ∨ a' + sp'.blockSize ≤ a := by
  by_cases same : sp = sp'
  · subst same
    by_cases equal : a = a'
    · exact Or.inl ⟨equal, rfl⟩
    · exact Or.inr (Span.blocks_apart_of_ne ha ha' equal)
  · have inside := (shaped sp hsp).block_inside ha
    have inside' := (shaped sp' hsp').block_inside ha'
    have pairwise : spans.Pairwise fun s t => s.extent.Apart t.extent :=
      List.pairwise_map.mp tiles.pairwise
    have : Std.Symm fun s t : Span => s.extent.Apart t.extent := ⟨fun _ _ apart => apart.symm⟩
    have apart := pairwise.forall hsp hsp' same
    unfold Extent.Apart Extent.stop Span.extent at apart
    dsimp only at apart
    omega

/-- The list of blocks of a kind repeats none. -/
theorem kindBlocks_nodup (tiles : Extent.Tiles 0 (spans.map Span.extent) hi)
    (shaped : ∀ sp ∈ spans, sp.WellShaped platform) (kind : PoolKind) :
    (kindBlocks base spans kind).Nodup := by
  have pairwise : spans.Pairwise fun s t => s.extent.Apart t.extent :=
    List.pairwise_map.mp tiles.pairwise
  unfold kindBlocks
  refine List.nodup_flatMap.mpr ⟨fun sp member => ?_, ?_⟩
  · exact (shaped sp (List.mem_of_mem_filter member)).blocks_nodup
  · refine (pairwise.filter _).imp_of_mem fun {s t} hs ht apart a inFirst inSecond => ?_
    have shapedFirst := shaped s (List.mem_of_mem_filter hs)
    have shapedSecond := shaped t (List.mem_of_mem_filter ht)
    have first := shapedFirst.block_inside inFirst
    have second := shapedSecond.block_inside inSecond
    have := shapedFirst.blockSize_ge
    have := shapedSecond.blockSize_ge
    unfold Extent.Apart Extent.stop Span.extent at apart
    dsimp only at apart
    omega

/-- Spans start at pages, and so does the bump pointer. -/
theorem spans_aligned (tiles : Extent.Tiles 0 (spans.map Span.extent) hi)
    (shaped : ∀ sp ∈ spans, sp.WellShaped platform) :
    platform.pageSize ∣ hi ∧ ∀ sp ∈ spans, platform.pageSize ∣ sp.offset := by
  obtain ⟨top, starts⟩ := tiles.aligned (Nat.dvd_zero platform.pageSize) fun e member => by
    obtain ⟨sp, inSpans, rfl⟩ := List.mem_map.mp member
    exact (shaped sp inSpans).pageSize_dvd
  exact ⟨top, fun sp member => starts sp.extent (List.mem_map_of_mem member)⟩

/-- A span lies below the bump pointer. -/
theorem span_below (tiles : Extent.Tiles 0 (spans.map Span.extent) hi) {sp : Span}
    (member : sp ∈ spans) : sp.offset + sp.size ≤ hi :=
  (tiles.inside sp.extent (List.mem_map_of_mem member)).2

end BcAllocators
