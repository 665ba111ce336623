import BcAllocators.TypedArray.Refinement

/-!
# Appends that return

The loop of `append_bulk` doubles the capacity without a check, and the check in
front of it only covers the new length. A power of two that is doubled past
`2 ^ 63` becomes zero and stays zero, so an append that needs more than that never
returns (`append_hangs`). It returns exactly when the new length is refused, is
within the capacity, or is reached by a shift of the capacity
(`append_returns_iff`); a new length of at most `2 ^ 63` always is, and for a power
of two no other is (`shiftReaches_two_pow_iff`). An append that is done has doubled
without wrapping, since the pool grants no block for a capacity that large.
-/

set_option autoImplicit false

namespace BcAllocators

open Machine

variable {σ : Type} {core : BcCore} {pool : PoolApi σ} {view : PoolView σ} {elementSize : Nat}
variable {t : ArrayState σ} {fuel src count : Nat} {result : ArrayState σ × Bool}

/-- The capacity after an append that was done and had to grow is the start doubled
some number of times, and is enough. -/
def DoubledExactly (t t' : ArrayState σ) (required : Nat) : Prop :=
  (∃ k, t'.array.capacity = startCapacity t.array.capacity * 2 ^ k) ∧
    required ≤ t'.array.capacity

/-- The append returns: refused, or done after a loop that did not wrap. -/
def AppendReturns (core : BcCore) (pool : PoolApi σ) (view : PoolView σ) (elementSize : Nat)
    (t : ArrayState σ) (src count : Nat) : Prop :=
  ∃ fuel result, arrayAppendBulk core pool elementSize fuel t src count = some result ∧
    (view.Trusted result.1.pool → result.2 = true →
      t.array.capacity < t.array.length + count →
      DoubledExactly t result.1 (t.array.length + count))

/-- **An append that is done has not wrapped**: it has the first capacity, doubling
from the old one, that is enough. -/
theorem ArrayInv.append_capacity (contract : PoolContract pool view)
    (inv : ArrayInv view elementSize t) (pos : 0 < elementSize) (sizeWord : elementSize < 2 ^ 64)
    (countWord : count < 2 ^ 64)
    (returned : arrayAppendBulk core pool elementSize fuel t src count = some result)
    (trusted : view.Trusted result.1.pool) (done : result.2 = true) :
    LeastDoubling t.array.capacity (t.array.length + count) result.1.array.capacity := by
  have small := inv.capacity_lt contract pos
  have within := inv.length_le
  have word : startCapacity t.array.capacity < 2 ^ 64 := startCapacity_lt (by omega) (by omega)
  by_cases nothing : count = 0
  · subst nothing
    rw [arrayAppendBulk_zero] at returned
    cases returned
    exact Or.inl ⟨within, rfl⟩
  by_cases wraps : 2 ^ 64 ≤ t.array.length + count
  · rw [arrayAppendBulk_wraps nothing (by omega) countWord wraps] at returned
    cases returned
    cases done
  rw [arrayAppendBulk_eq nothing (Nat.not_le.mp wraps)] at returned
  by_cases enough : t.array.length + count ≤ t.array.capacity
  · rw [makeRoom_of_le enough] at returned
    cases returned
    exact Or.inl ⟨enough, rfl⟩
  rw [makeRoom_of_lt (Nat.not_le.mp enough), Option.map_map, Option.map_eq_some_iff] at returned
  obtain ⟨newCap, doubled, rfl⟩ := returned
  have reached := doubleCapacity_ge doubled
  have newWord := doubleCapacity_lt doubled word
  unfold Function.comp finishAppend at trusted done ⊢
  by_cases refused : (arrayReserve core pool elementSize t newCap).2 = false
  · rw [if_pos refused] at done
    cases done
  rw [if_neg refused] at trusted ⊢
  have capacity := arrayReserve_capacity (by omega) (Bool.eq_true_of_not_eq_false refused)
  -- the pool granted the new capacity, so it is in the lower half of the range
  have kept := contract.trusted_setMemory.mp trusted
  have half := (arrayReserve_spec contract inv sizeWord newWord kept).inv.capacity_lt contract pos
  rw [capacity] at half
  have exactly := doubleCapacity_exact doubled word (by omega)
  exact Or.inr ⟨Nat.not_le.mp enough, capacity.symm ▸ reached, capacity.symm ▸ exactly⟩

theorem LeastDoubling.doubledExactly {t' : ArrayState σ} {required : Nat}
    (least : LeastDoubling t.array.capacity required t'.array.capacity)
    (grows : t.array.capacity < required) : DoubledExactly t t' required := by
  rcases least with ⟨enough, _⟩ | ⟨_, enough, k, same, _⟩
  · omega
  · exact ⟨⟨k, same⟩, enough⟩

/-- **Appends that return.** For every array that its operations lead to, an append
returns, and has not wrapped when it is done, exactly when the new length does not
fit in a word, is within the capacity, or is reached by some shift of the capacity
that the loop starts from. -/
theorem append_returns_iff (contract : PoolContract pool view) (pos : 0 < elementSize)
    (sizeWord : elementSize < 2 ^ 64)
    (reachable : (arraySystem core pool view elementSize).Reachable t) (src : Nat)
    (countWord : count < 2 ^ 64) :
    AppendReturns core pool view elementSize t src count ↔
      2 ^ 64 ≤ t.array.length + count ∨ t.array.length + count ≤ t.array.capacity ∨
        ShiftReaches (startCapacity t.array.capacity) (t.array.length + count) := by
  obtain ⟨s, events, start, run⟩ := reachable
  obtain ⟨inv, _⟩ := array_simulates contract pos sizeWord start run
  have small := inv.capacity_lt contract pos
  have within := inv.length_le
  have returns := @arrayAppendBulk_returns_iff _ core pool elementSize t src count (by omega)
    countWord (by omega)
  constructor
  · rintro ⟨fuel, result, returned, _⟩
    rcases returns.mp ⟨fuel, result, returned⟩ with nothing | reason
    · exact Or.inr (Or.inl (by omega))
    · exact reason
  · intro reason
    obtain ⟨fuel, result, returned⟩ := returns.mpr (Or.inr reason)
    refine ⟨fuel, result, returned, ?_⟩
    intro trusted done grows
    have least := inv.append_capacity contract pos sizeWord countWord returned trusted done
    exact least.doubledExactly grows

theorem append_returns_iff_pushedArray :
    AppendReturns BcCore.reference (faultyPool BcCore.reference)
        (faultyView BcCore.reference Platform.x86 sixteenPages) 8 pushedArray 4096 20 ↔
      2 ^ 64 ≤ pushedArray.array.length + 20 ∨
        pushedArray.array.length + 20 ≤ pushedArray.array.capacity ∨
        ShiftReaches (startCapacity pushedArray.array.capacity)
          (pushedArray.array.length + 20) :=
  append_returns_iff (faulty_contract _ _ _) (by decide) (by decide)
    (pushedArray_run.reachable emptyArray_start) 4096 (by decide)

/-- An append of `SIZE_MAX` elements to an empty array never returns. -/
theorem append_hangs :
    smallArrays.Reachable emptyArray ∧
      ∀ fuel, arrayAppendBulk BcCore.reference (faultyPool BcCore.reference) 8 fuel emptyArray
        4096 (2 ^ 64 - 1) = none := by
  refine ⟨.start emptyArray_start, ?_⟩
  intro fuel
  by_contra returned
  obtain ⟨result, returned⟩ := Option.ne_none_iff_exists'.mp returned
  have reason := (arrayAppendBulk_returns_iff (by decide) (by decide) (by decide)).mp
    ⟨fuel, result, returned⟩
  have start : startCapacity emptyArray.array.capacity = 2 ^ 3 := rfl
  rw [start, shiftReaches_two_pow_iff (by decide)] at reason
  revert reason
  decide

end BcAllocators
