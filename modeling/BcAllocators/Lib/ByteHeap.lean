import BcAllocators.Lib.Extents

/-!
# Heaps of byte blocks

The abstract view of an allocator's memory: a heap gives each pointer in use the
bytes of its block, and nothing to any other address. Its operations say what a
caller of `malloc`, `realloc` and `free` relies on. An allocation is at a new
pointer, with bytes of its own; a reallocation keeps the common prefix; and each
operation leaves the other blocks as they are.

`contents` reads such a heap from a memory and a list of extents. It depends on
the bytes of the extents alone (`contents_congr`), so a frame condition on the
memory is a statement about the heap.
-/

set_option autoImplicit false

namespace Machine

/-- The bytes of each block, by pointer. -/
abbrev ByteHeap := Nat → Option (List UInt8)

namespace ByteHeap

/-- The heap without blocks. -/
def empty : ByteHeap := fun _ => none

/-- Replace a part of a block. -/
def splice (data : List UInt8) (offset : Nat) (bytes : List UInt8) : List UInt8 :=
  data.take offset ++ bytes ++ data.drop (offset + bytes.length)

/-! ## Operations -/

/-- A block of a size at a pointer that was not in use. -/
def Allocates (h : ByteHeap) (size p : Nat) (h' : ByteHeap) : Prop :=
  h p = none ∧ ∃ data, data.length = size ∧ h' = Function.update h p (some data)

/-- A block takes another size, at the same pointer or a new one, and keeps the
bytes that both sizes have. -/
def Reallocates (h : ByteHeap) (p size q : Nat) (h' : ByteHeap) : Prop :=
  ∃ old new, h p = some old ∧ (q = p ∨ h q = none) ∧ new.length = size ∧
    new.take (min old.length size) = old.take (min old.length size) ∧
    h' = Function.update (Function.update h p none) q (some new)

/-- A block is given up; nothing happens when the pointer is not in use. -/
def Frees (h : ByteHeap) (p : Nat) (h' : ByteHeap) : Prop := h' = Function.update h p none

/-- Bytes are written inside a block. -/
def Writes (h : ByteHeap) (address : Nat) (bytes : List UInt8) (h' : ByteHeap) : Prop :=
  ∃ p data, h p = some data ∧ p ≤ address ∧ address + bytes.length ≤ p + data.length ∧
    h' = Function.update h p (some (splice data (address - p) bytes))

/-! ## Heaps in memory -/

/-- The heap of some extents of a memory. -/
def contents (m : Memory) (blocks : List Extent) : ByteHeap := fun p =>
  (blocks.find? fun e => e.start = p).map fun e => loadBytes m e.start e.size

variable {m m' : Memory} {blocks : List Extent} {e : Extent} {p : Nat}

theorem contents_nil (m : Memory) : contents m [] = empty := rfl

theorem contents_cons (m : Memory) (e : Extent) (blocks : List Extent) :
    contents m (e :: blocks) =
      Function.update (contents m blocks) e.start (some (loadBytes m e.start e.size)) := by
  funext p
  unfold contents
  by_cases same : p = e.start
  · subst same
    rw [List.find?_cons_of_pos (by simp), Function.update_self]
    rfl
  · rw [List.find?_cons_of_neg (by simpa using Ne.symm same), Function.update_of_ne same]

/-- The heap depends on the bytes of its extents. -/
theorem contents_congr (same : ∀ e ∈ blocks, ∀ a ∈ e.bytes, m' a = m a) :
    contents m' blocks = contents m blocks := by
  induction blocks with
  | nil => rfl
  | cons e rest ih =>
      rw [contents_cons, contents_cons, ih fun f member => same f (List.mem_cons_of_mem e member)]
      rw [loadBytes_congr fun b lower upper => same e List.mem_cons_self b ⟨lower, upper⟩]

/-- Taking out the extents at a pointer gives up its block. -/
theorem contents_filter (m : Memory) (blocks : List Extent) (p : Nat) :
    contents m (blocks.filter fun e => e.start ≠ p) =
      Function.update (contents m blocks) p none := by
  induction blocks with
  | nil =>
      rw [List.filter_nil, contents_nil]
      exact (Function.update_eq_self p empty).symm
  | cons e rest ih =>
      by_cases same : e.start = p
      · rw [List.filter_cons_of_neg (by simpa using same), ih, contents_cons, same,
          Function.update_idem]
      · rw [List.filter_cons_of_pos (by simpa using same), contents_cons, ih, contents_cons,
          Function.update_comm same]

theorem contents_of_not_mem (dead : ∀ e ∈ blocks, e.start ≠ p) : contents m blocks p = none := by
  unfold contents
  rw [List.find?_eq_none.mpr fun e member => by simpa using dead e member]
  rfl

theorem contents_of_mem (nodup : (blocks.map Extent.start).Nodup) (member : e ∈ blocks) :
    contents m blocks e.start = some (loadBytes m e.start e.size) := by
  induction blocks with
  | nil => simp at member
  | cons f rest ih =>
      rw [contents_cons]
      rw [List.map_cons, List.nodup_cons] at nodup
      rcases List.mem_cons.mp member with rfl | inRest
      · rw [Function.update_self]
      · have different : e.start ≠ f.start := fun same =>
          nodup.1 (same ▸ List.mem_map_of_mem inRest)
        rw [Function.update_of_ne different, ih nodup.2 inRest]

/-- Bytes stored in a range are spliced into its contents. -/
theorem loadBytes_storeBytes_splice {a n address : Nat} {bytes : List UInt8} (lower : a ≤ address)
    (upper : address + bytes.length ≤ a + n) :
    loadBytes (storeBytes m address bytes) a n =
      splice (loadBytes m a n) (address - a) bytes := by
  obtain ⟨offset, rfl⟩ := Nat.exists_eq_add_of_le lower
  obtain ⟨rest, total⟩ : ∃ rest, n = offset + bytes.length + rest :=
    Nat.exists_eq_add_of_le (by omega)
  have before : loadBytes (storeBytes m (a + offset) bytes) a offset = loadBytes m a offset :=
    loadBytes_congr fun b _ inside => if_neg (by omega)
  have after : loadBytes (storeBytes m (a + offset) bytes) (a + (offset + bytes.length)) rest =
      loadBytes m (a + (offset + bytes.length)) rest :=
    loadBytes_congr fun b inside _ => if_neg (by omega)
  rw [total, loadBytes_add, loadBytes_add, before, loadBytes_storeBytes, after,
    Nat.add_sub_cancel_left, splice, loadBytes_add, loadBytes_add]
  congr 1
  · rw [List.append_assoc, List.take_left' (loadBytes_length m a offset)]
  · exact (List.drop_left' (by simp)).symm

/-- **A write inside one of the extents** changes the bytes of its block. -/
theorem contents_write (pairwise : blocks.Pairwise Extent.Apart)
    (nodup : (blocks.map Extent.start).Nodup) (member : e ∈ blocks) {address : Nat}
    {bytes : List UInt8} (lower : e.start ≤ address)
    (upper : address + bytes.length ≤ e.stop) :
    Writes (contents m blocks) address bytes
      (contents (storeBytes m address bytes) blocks) := by
  refine ⟨e.start, loadBytes m e.start e.size, contents_of_mem nodup member, lower, ?_, ?_⟩
  · rw [loadBytes_length]
    exact upper
  · rw [← loadBytes_storeBytes_splice lower upper]
    funext p
    by_cases here : p = e.start
    · rw [here, Function.update_self, contents_of_mem nodup member]
    · rw [Function.update_of_ne here]
      by_cases used : ∃ f ∈ blocks, f.start = p
      · obtain ⟨f, inBlocks, rfl⟩ := used
        rw [contents_of_mem nodup inBlocks, contents_of_mem nodup inBlocks]
        have apart := Extent.apart_of_mem pairwise inBlocks member fun same => here (same ▸ rfl)
        refine congrArg some (loadBytes_congr fun b low high => if_neg fun inside => ?_)
        exact apart.disjoint (Extent.mem_bytes.mpr ⟨low, high⟩)
          (Extent.mem_bytes.mpr ⟨by omega, by unfold Extent.stop at upper; omega⟩)
      · have dead : ∀ f ∈ blocks, f.start ≠ p := fun f inBlocks same => used ⟨f, inBlocks, same⟩
        rw [contents_of_not_mem dead, contents_of_not_mem dead]

end ByteHeap

end Machine
