import BcAllocators.Lib.Memory

/-!
# The functions taken from bc-core

The allocators call a small library for checked arithmetic, bit counting and
byte ranges. Its source is not part of the repository, so it enters the
development as a parameter: a record of functions together with what the
allocators rely on. A function's law says what it does on the arguments that
the allocators pass, and nothing about the others.

`BcCore.reference` is one such library, written out, on which the model can be
run.
-/

set_option autoImplicit false

namespace BcAllocators

open Machine

/-- The functions of bc-core and their laws. A `bool` function with an output
parameter gives `none` when it returns false. -/
structure BcCore where
  safeAdd : Nat → Nat → Option Nat
  safeMultiply : Nat → Nat → Option Nat
  alignUp : Nat → Nat → Option Nat
  clzU64 : Nat → Nat
  ctzU64 : Nat → Nat
  length : Memory → Nat → Nat
  copy : Memory → Nat → Nat → Nat → Memory
  memcpy : Memory → Nat → Nat → Nat → Memory
  zeroSecure : Memory → Nat → Nat → Memory
  safeAdd_eq : ∀ {a b : Nat}, a < 2 ^ 64 → b < 2 ^ 64 →
    safeAdd a b = if a + b < 2 ^ 64 then some (a + b) else none
  safeMultiply_eq : ∀ {a b : Nat}, a < 2 ^ 64 → b < 2 ^ 64 →
    safeMultiply a b = if a * b < 2 ^ 64 then some (a * b) else none
  alignUp_eq : ∀ {value alignment : Nat}, value < 2 ^ 64 → alignment < 2 ^ 64 →
    alignment.isPowerOfTwo → alignUp value alignment =
      if roundUp value alignment < 2 ^ 64 then some (roundUp value alignment) else none
  clzU64_eq : ∀ {x : Nat}, 0 < x → x < 2 ^ 64 → clzU64 x = 63 - Nat.log2 x
  ctzU64_eq : ∀ {k : Nat}, k < 64 → ctzU64 (2 ^ k) = k
  length_eq : ∀ {m : Memory} {source len : Nat}, len < 2 ^ 64 → m (source + len) = 0 →
    (∀ i < len, m (source + i) ≠ 0) → length m source = len
  copy_frame : ∀ (m : Memory) (dst src n : Nat),
    ChangesOnly (Set.Ico dst (dst + n)) m (copy m dst src n)
  copy_eq : ∀ {m : Memory} {dst src n : Nat}, dst + n ≤ src ∨ src + n ≤ dst →
    copy m dst src n = copyBytes m dst src n
  memcpy_frame : ∀ (m : Memory) (dst src n : Nat),
    ChangesOnly (Set.Ico dst (dst + n)) m (memcpy m dst src n)
  memcpy_eq : ∀ {m : Memory} {dst src n : Nat}, dst + n ≤ src ∨ src + n ≤ dst →
    memcpy m dst src n = copyBytes m dst src n
  zeroSecure_eq : ∀ (m : Memory) (a n : Nat), zeroSecure m a n = fillBytes m a n 0

namespace BcCore

variable (core : BcCore)

/-- Checked addition succeeds exactly when the sum is a word. -/
theorem safeAdd_eq_some {a b c : Nat} (ha : a < 2 ^ 64) (hb : b < 2 ^ 64) :
    core.safeAdd a b = some c ↔ c = a + b ∧ c < 2 ^ 64 := by
  rw [core.safeAdd_eq ha hb]
  split <;> simp only [Option.some.injEq, reduceCtorEq, false_iff, not_and] <;> omega

theorem safeAdd_eq_none {a b : Nat} (ha : a < 2 ^ 64) (hb : b < 2 ^ 64) :
    core.safeAdd a b = none ↔ 2 ^ 64 ≤ a + b := by
  rw [core.safeAdd_eq ha hb]
  split <;> simp only [reduceCtorEq, false_iff, true_iff] <;> omega

/-- Rounding up succeeds exactly when the rounded value is a word. -/
theorem alignUp_eq_some {value alignment c : Nat} (hv : value < 2 ^ 64) (ha : alignment < 2 ^ 64)
    (power : alignment.isPowerOfTwo) :
    core.alignUp value alignment = some c ↔ c = roundUp value alignment ∧ c < 2 ^ 64 := by
  rw [core.alignUp_eq hv ha power]
  split <;> simp only [Option.some.injEq, reduceCtorEq, false_iff, not_and] <;> omega

section padded

variable {header n page total : Nat} (headerWord : header < 2 ^ 64) (word : n < 2 ^ 64)
  (pageWord : page < 2 ^ 64) (power : page.isPowerOfTwo)

include headerWord word pageWord power

/-- A header and a size in whole pages have a total exactly when it is a word. -/
theorem padded_eq_some :
    ((core.safeAdd header n).bind fun raw => core.alignUp raw page) = some total ↔
      total = roundUp (header + n) page ∧ total < 2 ^ 64 := by
  have least : header + n ≤ roundUp (header + n) page := le_roundUp (isPowerOfTwo_pos power)
  cases added : core.safeAdd header n with
  | none =>
      have overflows := (core.safeAdd_eq_none headerWord word).mp added
      simp only [Option.bind_none, reduceCtorEq, false_iff, not_and]
      omega
  | some raw =>
      obtain ⟨rfl, small⟩ := (core.safeAdd_eq_some headerWord word).mp added
      exact core.alignUp_eq_some small pageWord power

theorem padded_eq_none :
    ((core.safeAdd header n).bind fun raw => core.alignUp raw page) = none ↔
      2 ^ 64 ≤ roundUp (header + n) page := by
  rw [Option.eq_none_iff_forall_not_mem]
  constructor
  · intro refused
    by_contra small
    exact refused _ ((core.padded_eq_some headerWord word pageWord power).mpr
      ⟨rfl, Nat.lt_of_not_le small⟩)
  · intro large total some
    obtain ⟨rfl, small⟩ := (core.padded_eq_some headerWord word pageWord power).mp some
    exact Nat.not_le_of_lt small large

end padded

end BcCore

/-! ## A reference library -/

/-- Count the bytes before the first zero byte, within a budget. -/
def scanLength (m : Memory) (source : Nat) : Nat → Nat → Nat
  | 0, i => i
  | budget + 1, i => if m (source + i) = 0 then i else scanLength m source budget (i + 1)

theorem scanLength_eq {m : Memory} {source len : Nat} (ends : m (source + len) = 0) :
    ∀ (budget i : Nat), i ≤ len → len ≤ i + budget → (∀ j < len, i ≤ j → m (source + j) ≠ 0) →
      scanLength m source budget i = len
  | 0, i, le, bound, _ => by
      rw [scanLength]
      omega
  | budget + 1, i, le, bound, before => by
      rw [scanLength]
      split
      · next zero =>
          by_contra different
          exact before i (by omega) (Nat.le_refl i) zero
      · next nonzero =>
          have different : i ≠ len := fun same => nonzero (same ▸ ends)
          exact scanLength_eq ends budget (i + 1) (by omega) (by omega)
            fun j small after => before j small (by omega)

/-- The number of trailing zero bits of a word. -/
def trailingZeros (x : Nat) : Nat := ((List.range 64).find? fun i => x.testBit i).getD 64

theorem trailingZeros_two_pow {k : Nat} (small : k < 64) : trailingZeros (2 ^ k) = k := by
  unfold trailingZeros
  have found : (List.range 64).find? (fun i => (2 ^ k).testBit i) = some k := by
    rw [List.find?_range_eq_some]
    refine ⟨by simp, List.mem_range.mpr small, fun j before => ?_⟩
    simp [Nat.ne_of_gt before]
  rw [found, Option.getD_some]

/-- A library with the documented behaviour, on which the model runs. -/
def BcCore.reference : BcCore where
  safeAdd a b := if a + b < 2 ^ 64 then some (a + b) else none
  safeMultiply a b := if a * b < 2 ^ 64 then some (a * b) else none
  alignUp value alignment :=
    if roundUp value alignment < 2 ^ 64 then some (roundUp value alignment) else none
  clzU64 x := 63 - Nat.log2 x
  ctzU64 := trailingZeros
  length m source := scanLength m source (2 ^ 64) 0
  copy := copyBytes
  memcpy := copyBytes
  zeroSecure m a n := fillBytes m a n 0
  safeAdd_eq _ _ := rfl
  safeMultiply_eq _ _ := rfl
  alignUp_eq _ _ _ := rfl
  clzU64_eq _ _ := rfl
  ctzU64_eq := trailingZeros_two_pow
  length_eq word ends before :=
    scanLength_eq ends (2 ^ 64) 0 (Nat.zero_le _) (by omega) fun j small _ => before j small
  copy_frame := changesOnly_copyBytes
  copy_eq _ := rfl
  memcpy_frame := changesOnly_copyBytes
  memcpy_eq _ := rfl
  zeroSecure_eq _ _ _ := rfl

end BcAllocators
