import BcAllocators.Lib.Extents

/-!
# The platform: pages and mappings

The allocators take their memory from the operating system by `mmap`, return it
by `munmap` and give advice about it by `madvise`. The kernel chooses where a
mapping goes and whether it succeeds. Its choice is an argument of the model,
one answer for each call; an answer is accepted when it is a fresh page-aligned
range that does not wrap, and counts as a failed call otherwise. Every
behaviour of a correct kernel is therefore covered, and no other.

The kernel keeps the ledger of what is mapped, with the history of all
successful calls of `mmap` and of all calls of `munmap`.
-/

set_option autoImplicit false

namespace BcAllocators

open Machine

/-- What `sysconf` reports: a page size that is a power of two of at least 4096
bytes and positive as a `long`, and the size of a cache line. -/
structure Platform where
  pageShift : Nat
  cacheLineSize : Nat
  twelve_le : 12 ≤ pageShift
  lt_long : pageShift < 63

namespace Platform

variable (platform : Platform)

/-- `bc_allocators_platform_get_page_size`. -/
def pageSize : Nat := 2 ^ platform.pageShift

theorem pageSize_power : platform.pageSize.isPowerOfTwo := ⟨platform.pageShift, rfl⟩

theorem pageSize_ge : 4096 ≤ platform.pageSize :=
  Nat.pow_le_pow_right (n := 2) (i := 12) (by decide) platform.twelve_le

theorem pageSize_pos : 0 < platform.pageSize := Nat.pow_pos (by decide)

theorem pageSize_lt : platform.pageSize < 2 ^ 63 :=
  (Nat.pow_lt_pow_iff_right (by decide)).mpr platform.lt_long

/-- There is a page between a whole number of pages and a power of two above it, from
half the address space on. -/
theorem add_pageSize_le {n k : Nat} (half : 63 ≤ k) (aligned : platform.pageSize ∣ n)
    (small : n < 2 ^ k) : n + platform.pageSize ≤ 2 ^ k := by
  obtain ⟨count, total⟩ := aligned
  obtain ⟨limit, power⟩ : platform.pageSize ∣ 2 ^ k :=
    Nat.pow_dvd_pow 2 ((Nat.le_of_lt platform.lt_long).trans half)
  rw [total, power] at small ⊢
  have fewer : count + 1 ≤ limit := Nat.lt_of_mul_lt_mul_left small
  calc platform.pageSize * count + platform.pageSize = platform.pageSize * (count + 1) := by ring
    _ ≤ platform.pageSize * limit := Nat.mul_le_mul_left _ fewer

/-- The platform of the x86-64 build: pages of 4096 bytes, cache lines of 64. -/
def x86 : Platform where
  pageShift := 12
  cacheLineSize := 64
  twelve_le := Nat.le_refl _
  lt_long := by decide

end Platform

/-! ## Mappings -/

/-- The ledger of the kernel. -/
structure Kernel where
  /-- What is mapped now. -/
  mapped : List Extent
  /-- Every successful `mmap`, latest first. -/
  mapLog : List Extent
  /-- Every `munmap`, latest first. -/
  unmapLog : List Extent

namespace Kernel

/-- A mapping that a correct kernel may return: not empty, not at the null
address, page-aligned, not wrapping, and apart from everything mapped. -/
def Admissible (platform : Platform) (kernel : Kernel) (e : Extent) : Prop :=
  0 < e.size ∧ 0 < e.start ∧ e.start % platform.pageSize = 0 ∧ e.stop < 2 ^ 64 ∧
    ∀ f ∈ kernel.mapped, e.Apart f

instance (platform : Platform) (kernel : Kernel) (e : Extent) :
    Decidable (kernel.Admissible platform e) :=
  inferInstanceAs (Decidable (_ ∧ _ ∧ _ ∧ _ ∧ ∀ f ∈ _, _))

/-- The kernel's answer to a request for `size` bytes, when it is admissible. -/
def grant (platform : Platform) (kernel : Kernel) (size : Nat) : Option Nat → Option Nat
  | some a => if kernel.Admissible platform ⟨a, size⟩ then some a else none
  | none => none

/-- Enter a mapping in the ledger. -/
def map (kernel : Kernel) (e : Extent) : Kernel :=
  { kernel with mapped := e :: kernel.mapped, mapLog := e :: kernel.mapLog }

/-- `munmap` of a range that was mapped as such. -/
def unmap (kernel : Kernel) (e : Extent) : Kernel :=
  { kernel with mapped := kernel.mapped.erase e, unmapLog := e :: kernel.unmapLog }

theorem grant_eq_some {platform : Platform} {kernel : Kernel} {size a : Nat}
    {answer : Option Nat} :
    kernel.grant platform size answer = some a ↔
      answer = some a ∧ kernel.Admissible platform ⟨a, size⟩ := by
  cases answer with
  | none => simp [grant]
  | some b =>
      simp only [grant, Option.some.injEq]
      split
      · next admissible =>
          simp only [Option.some.injEq]
          exact ⟨fun same => ⟨same, same ▸ admissible⟩, fun both => both.1⟩
      · next refused =>
          simp only [reduceCtorEq, false_iff, not_and]
          rintro rfl
          exact refused

end Kernel

/-- `bc_allocators_platform_map`: the answer of the kernel, with the ledger and
the zero-filled pages of an anonymous mapping. -/
def platformMap (platform : Platform) (kernel : Kernel) (m : Memory) (size : Nat)
    (answer : Option Nat) : Option (Kernel × Memory × Nat) :=
  match kernel.grant platform size answer with
  | none => none
  | some a => some (kernel.map ⟨a, size⟩, fillBytes m a size 0, a)

/-- `madvise(MADV_DONTNEED)`: the pages of the range become zero pages. A range
that does not start at a page is refused and nothing happens. -/
def adviseDontNeed (platform : Platform) (m : Memory) (a len : Nat) : Memory :=
  if a % platform.pageSize = 0 then fillBytes m a (roundUp len platform.pageSize) 0 else m

/-- The range that `madvise(MADV_DONTNEED)` discards: the pages of the range, or nothing
when it does not start at a page. -/
def adviseDiscards (platform : Platform) (a len : Nat) : Extent :=
  ⟨a, if a % platform.pageSize = 0 then roundUp len platform.pageSize else 0⟩

/-- Discarded memory reads as zeros, and no other memory changes. -/
theorem adviseDontNeed_eq (platform : Platform) (m : Memory) (a len : Nat) :
    adviseDontNeed platform m a len =
      fillBytes m (adviseDiscards platform a len).start (adviseDiscards platform a len).size 0 := by
  unfold adviseDontNeed adviseDiscards
  dsimp only
  split
  · rfl
  · funext b
    exact (if_neg fun inside => absurd inside.2 (Nat.not_lt.mpr inside.1)).symm

theorem adviseDiscards_unaligned {platform : Platform} {a len : Nat}
    (unaligned : a % platform.pageSize ≠ 0) : (adviseDiscards platform a len).bytes = ∅ := by
  unfold adviseDiscards
  rw [if_neg unaligned]
  exact Set.Ico_self a

theorem adviseDontNeed_unaligned {platform : Platform} {m : Memory} {a len : Nat}
    (unaligned : a % platform.pageSize ≠ 0) : adviseDontNeed platform m a len = m :=
  if_neg unaligned

end BcAllocators
