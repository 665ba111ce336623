import BcAllocators.Arena.Moves

/-!
# What an arena contains

The allocations since the last reset lie in the used parts of the payloads,
aligned as requested and apart from each other, and the used bytes are accounted
for by their sizes and alignments (`ArenaView.Sound`). An allocation at the first
aligned address behind the used part of the last chunk keeps this, whatever the
other chunks hold; so do a new chunk and a reset.
-/

set_option autoImplicit false

namespace BcAllocators

open Machine

namespace Chunk

variable {c : Chunk} {x : Alloc}

/-- The first aligned address behind the used part of the payload. -/
def offer (c : Chunk) (alignment : Nat) : Nat := roundUp (c.start + c.used) alignment

/-- The allocation lies in the used part of the payload. -/
def Holds (c : Chunk) (x : Alloc) : Prop := c.start ≤ x.ptr ∧ x.extent.stop ≤ c.start + c.used

theorem Fit.start_add_capacity (fit : c.Fit) : c.start + c.capacity = c.stop := by
  have headers := fit.headers
  simp only [start, capacity, stop]
  omega

/-- What a chunk holds lies in its block. -/
theorem Holds.inside (holds : c.Holds x) (fit : c.Fit) :
    c.extent.start ≤ x.extent.start ∧ x.extent.stop ≤ c.extent.stop := by
  have stop := fit.start_add_capacity
  have used := fit.used
  obtain ⟨lower, upper⟩ := holds
  have above : c.block ≤ c.start := (Nat.le_add_right _ _).trans (Nat.le_add_right _ _)
  refine ⟨above.trans lower, upper.trans ?_⟩
  exact (Nat.add_le_add_left used c.start).trans (Nat.le_of_eq stop)

end Chunk

namespace ArenaView

variable {a : ArenaView} {c : Chunk} {x : Alloc}

/-- The used bytes of all chunks. -/
def usedBytes (a : ArenaView) : Nat := (a.chunks.map Chunk.used).sum

/-- The sizes of all allocations. -/
def requestedBytes (a : ArenaView) : Nat := (a.allocs.map Alloc.size).sum

/-- The sizes of all allocations with the most that their alignments can cost. -/
def paddedBytes (a : ArenaView) : Nat :=
  (a.allocs.map fun x => x.size + x.alignment - 1).sum

/-- **The allocations are where they should be.** -/
structure Sound (a : ArenaView) : Prop where
  size_pos : ∀ x ∈ a.allocs, 0 < x.size
  aligned : ∀ x ∈ a.allocs, x.alignment ∣ x.ptr
  inside : ∀ x ∈ a.allocs, ∃ c ∈ a.chunks, c.Holds x
  apart : (a.allocs.map Alloc.extent).Pairwise Extent.Apart
  count : a.count = a.allocs.length % 2 ^ 64
  requested_le : a.requestedBytes ≤ a.usedBytes
  le_padded : a.usedBytes ≤ a.paddedBytes

/-! ## Used bytes -/

theorem usedBytes_eq (a : ArenaView) :
    a.usedBytes = (a.front.map Chunk.used).sum + a.last.used := by
  simp [usedBytes, chunks]

theorem usedBytes_extend (a : ArenaView) (block mmapSize : Nat) :
    (a.extend block mmapSize).usedBytes = a.usedBytes := by
  rw [usedBytes_eq]
  rfl

/-! ## Changed views -/

theorem sound_fresh (block mmapSize initialChunkSize maxChunkSize : Nat) (growable : Bool) :
    (fresh block mmapSize initialChunkSize maxChunkSize growable).Sound := by
  refine ⟨?_, ?_, ?_, List.Pairwise.nil, rfl, Nat.le_refl _, Nat.le_refl _⟩
  · intro x member
    cases member
  · intro x member
    cases member
  · intro x member
    cases member

theorem sound_reset (a : ArenaView) : a.reset.Sound := by
  refine ⟨?_, ?_, ?_, List.Pairwise.nil, rfl, Nat.le_refl _, Nat.le_refl _⟩
  · intro x member
    cases member
  · intro x member
    cases member
  · intro x member
    cases member

theorem Sound.extend (sound : a.Sound) (block mmapSize : Nat) :
    (a.extend block mmapSize).Sound where
  size_pos := sound.size_pos
  aligned := sound.aligned
  inside x member := by
    obtain ⟨c, inChunks, holds⟩ := sound.inside x member
    exact ⟨c, List.mem_append_left _ inChunks, holds⟩
  apart := sound.apart
  count := sound.count
  requested_le := (usedBytes_extend a block mmapSize).symm ▸ sound.requested_le
  le_padded := (usedBytes_extend a block mmapSize).symm ▸ sound.le_padded

/-- An earlier allocation lies in front of the used part's end, or in another
block. -/
theorem Sound.apart_offer (sound : a.Sound) (shape : a.Shape) {y : Alloc} (member : y ∈ a.allocs)
    (above : a.last.start + a.last.used ≤ x.ptr) (within : x.extent.stop ≤ a.last.stop) :
    x.extent.Apart y.extent := by
  obtain ⟨c, inChunks, holds⟩ := sound.inside y member
  rcases mem_chunks.mp inChunks with inFront | rfl
  · refine ((shape.front_apart inFront).mono (holds.inside (shape.fit c inChunks))
      ⟨?_, within⟩).symm
    have start : a.last.block ≤ a.last.start + a.last.used :=
      ((Nat.le_add_right _ _).trans (Nat.le_add_right _ _)).trans (Nat.le_add_right _ _)
    exact start.trans above
  · exact Or.inr (holds.2.trans above)

/-- **An allocation at the offered address** keeps the contents sound. -/
theorem Sound.serve (sound : a.Sound) (shape : a.Shape) (size : 0 < x.size)
    (aligns : 0 < x.alignment) (offered : x.ptr = a.last.offer x.alignment)
    (within : x.extent.stop ≤ a.last.stop) :
    (a.serve x).Sound := by
  have above : a.last.start + a.last.used ≤ x.ptr := offered ▸ le_roundUp aligns
  have near : x.ptr < a.last.start + a.last.used + x.alignment := offered ▸ roundUp_lt aligns
  have total : (a.serve x).usedBytes =
      (a.front.map Chunk.used).sum + (x.ptr + x.size - a.last.start) := by
    rw [usedBytes_eq]
    rfl
  have before := usedBytes_eq a
  constructor
  · exact List.forall_mem_cons.mpr ⟨size, sound.size_pos⟩
  · intro y member
    rcases List.mem_cons.mp member with rfl | old
    · exact offered ▸ dvd_roundUp _ _
    · exact sound.aligned y old
  · intro y member
    rcases List.mem_cons.mp member with rfl | old
    · refine ⟨(a.serve y).last, last_mem _, (Nat.le_add_right _ _).trans above, ?_⟩
      change y.ptr + y.size ≤ a.last.start + (y.ptr + y.size - a.last.start)
      omega
    · obtain ⟨c, inChunks, holds⟩ := sound.inside y old
      rcases mem_chunks.mp inChunks with inFront | rfl
      · exact ⟨c, mem_chunks.mpr (Or.inl inFront), holds⟩
      · refine ⟨(a.serve x).last, last_mem _, holds.1, holds.2.trans ?_⟩
        change a.last.start + a.last.used ≤ a.last.start + (x.ptr + x.size - a.last.start)
        omega
  · refine List.pairwise_cons.mpr ⟨fun e member => ?_, sound.apart⟩
    obtain ⟨y, old, rfl⟩ := List.mem_map.mp member
    exact sound.apart_offer shape old above within
  · change wadd a.count 1 = (a.allocs.length + 1) % 2 ^ 64
    rw [sound.count, wadd, Nat.mod_add_mod]
  · have requested : (a.serve x).requestedBytes = x.size + a.requestedBytes := rfl
    have old := sound.requested_le
    omega
  · have padded : (a.serve x).paddedBytes = x.size + x.alignment - 1 + a.paddedBytes := rfl
    have old := sound.le_padded
    omega

/-- There are no more allocations than used bytes. -/
theorem Sound.length_le (sound : a.Sound) : a.allocs.length ≤ a.usedBytes := by
  have one : ∀ n ∈ a.allocs.map Alloc.size, 1 ≤ n := by
    intro n member
    obtain ⟨x, inAllocs, rfl⟩ := List.mem_map.mp member
    exact sound.size_pos x inAllocs
  have count := List.card_nsmul_le_sum _ 1 one
  rw [List.length_map, smul_eq_mul, Nat.mul_one] at count
  exact count.trans sound.requested_le

/-- The allocations of an arena lie in its blocks, behind the headers. -/
theorem Sound.payload (sound : a.Sound) (shape : a.Shape) (member : x ∈ a.allocs) :
    ∃ c ∈ a.chunks, c.start ≤ x.ptr ∧ x.extent.stop ≤ c.stop := by
  obtain ⟨c, inChunks, holds⟩ := sound.inside x member
  exact ⟨c, inChunks, holds.1, (holds.inside (shape.fit c inChunks)).2⟩

end ArenaView

end BcAllocators
