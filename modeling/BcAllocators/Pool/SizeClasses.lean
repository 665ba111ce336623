import BcAllocators.Pool.Allocator

/-!
# Size classes

The class sizes are the powers of two from 16 bytes to 4 MiB. The bit
arithmetic of `size_class_for_size` is exact: it gives the least class whose
size is at least the request (`sizeClassForSize_least`), and `-1` exactly for
requests above the largest class.
-/

set_option autoImplicit false

namespace BcAllocators

open Machine

theorem classSize_eq {cls : Nat} (valid : cls < numClasses) : classSize cls = 2 ^ (cls + 4) := by
  have every : ∀ c < 19, classSize c = 2 ^ (c + 4) := by decide
  exact every cls valid

theorem classSize_power {cls : Nat} (valid : cls < numClasses) :
    (classSize cls).isPowerOfTwo := ⟨cls + 4, classSize_eq valid⟩

theorem classSize_ge {cls : Nat} (valid : cls < numClasses) : 16 ≤ classSize cls := by
  have every : ∀ c < 19, 16 ≤ classSize c := by decide
  exact every cls valid

theorem classSize_le {cls : Nat} (valid : cls < numClasses) : classSize cls ≤ maxClassSize := by
  have every : ∀ c < 19, classSize c ≤ maxClassSize := by decide
  exact every cls valid

variable {core : BcCore} {size cls : Nat}

theorem sizeClassForSize_none (core : BcCore) :
    sizeClassForSize core size = none ↔ maxClassSize < size := by
  unfold sizeClassForSize
  split
  · next large => simpa using large
  · next small =>
      split <;> simpa using small

/-- The bit arithmetic of a request above 16 bytes. -/
theorem sizeClassForSize_eq_log2 (core : BcCore) (lower : 16 < size) (upper : size ≤ maxClassSize) :
    sizeClassForSize core size = some (Nat.log2 (size - 1) - 3) ∧
      4 ≤ Nat.log2 (size - 1) ∧ Nat.log2 (size - 1) < 22 := by
  unfold maxClassSize at upper
  have nonzero : size - 1 ≠ 0 := by omega
  have four : 4 ≤ Nat.log2 (size - 1) := (Nat.le_log2 nonzero).mpr (by omega)
  have small : Nat.log2 (size - 1) < 22 := (Nat.log2_lt nonzero).mpr (by omega)
  refine ⟨?_, four, small⟩
  unfold sizeClassForSize maxClassSize
  rw [if_neg (by omega), if_neg (by omega),
    core.clzU64_eq (by omega) (by omega)]
  simp only [Option.some.injEq]
  omega

/-- **The class of a request is the least one that is large enough.** -/
theorem sizeClassForSize_least (core : BcCore) (upper : size ≤ maxClassSize) :
    ∃ cls, sizeClassForSize core size = some cls ∧ cls < numClasses ∧ size ≤ classSize cls ∧
      ∀ c < numClasses, size ≤ classSize c → cls ≤ c := by
  by_cases tiny : size ≤ 16
  · refine ⟨0, ?_, by decide, tiny, fun _ _ _ => Nat.zero_le _⟩
    unfold sizeClassForSize
    rw [if_neg (by omega), if_pos tiny]
  · obtain ⟨found, four, small⟩ := sizeClassForSize_eq_log2 core (by omega) upper
    have nonzero : size - 1 ≠ 0 := by omega
    have valid : Nat.log2 (size - 1) - 3 < numClasses := by unfold numClasses; omega
    refine ⟨_, found, valid, ?_, fun c hc enough => ?_⟩
    · have below := (Nat.log2_lt nonzero).mp (Nat.lt_succ_self (Nat.log2 (size - 1)))
      rw [classSize_eq valid, show Nat.log2 (size - 1) - 3 + 4 = Nat.log2 (size - 1) + 1 by omega]
      rw [Nat.succ_eq_add_one] at below
      omega
    · rw [classSize_eq hc] at enough
      have bound := (Nat.log2_lt nonzero).mpr (show size - 1 < 2 ^ (c + 4) by omega)
      omega

theorem sizeClassForSize_valid (found : sizeClassForSize core size = some cls) :
    cls < numClasses ∧ size ≤ classSize cls := by
  have upper : size ≤ maxClassSize := by
    by_contra large
    rw [(sizeClassForSize_none core).mpr (by omega)] at found
    exact absurd found (by simp)
  obtain ⟨least, again, valid, enough, _⟩ := sizeClassForSize_least core upper
  rw [found, Option.some.injEq] at again
  exact again ▸ ⟨valid, enough⟩

/-- The kind of block that serves a request. -/
def requestKind (core : BcCore) (size : Nat) : PoolKind :=
  match sizeClassForSize core size with
  | some cls => .sized cls
  | none => .large

theorem requestKind_eq_sized : requestKind core size = .sized cls ↔
    sizeClassForSize core size = some cls := by
  unfold requestKind
  split <;> simp_all

theorem requestKind_eq_large (core : BcCore) :
    requestKind core size = .large ↔ maxClassSize < size := by
  rw [← sizeClassForSize_none core]
  unfold requestKind
  split <;> simp_all

end BcAllocators
