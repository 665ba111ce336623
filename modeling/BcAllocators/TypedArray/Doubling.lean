import BcAllocators.TypedArray.Array

/-!
# Doubling the capacity

The loop of `append_bulk` doubles a capacity until it is large enough. After `k`
rounds it holds the start shifted by `k` places and cut to a word, so it halts
exactly when some such shift reaches the target (`doubleCapacity_halts_iff`). A
target in the lower half of the range is always reached
(`shift_reaches_of_le`), and without wrapping (`doubleCapacity_exact`).
-/

set_option autoImplicit false

namespace BcAllocators

open Machine

variable {start required fuel newCap : Nat}

/-- The rounds of the loop shift the capacity. -/
theorem double_iterate (word : start < 2 ^ 64) (k : Nat) :
    (fun c => wmul c 2)^[k] start = wmul start (2 ^ k) := by
  induction k with
  | zero =>
      rw [Nat.pow_zero, wmul_of_lt (by omega), Nat.mul_one]
      rfl
  | succ k ih =>
      rw [Function.iterate_succ_apply', ih]
      simp [wmul, Nat.pow_succ, Nat.mul_assoc]

/-- Shifting by a whole word leaves nothing. -/
theorem wmul_wordSize {k : Nat} (large : 64 ≤ k) : wmul start (2 ^ k) = 0 := by
  apply Nat.mod_eq_zero_of_dvd
  exact Dvd.dvd.mul_left (Nat.pow_dvd_pow 2 large) start

/-- A shift of the start reaches the target. -/
def ShiftReaches (start required : Nat) : Prop := ∃ k < 64, required ≤ wmul start (2 ^ k)

instance : Decidable (ShiftReaches start required) :=
  inferInstanceAs (Decidable (∃ k < 64, required ≤ wmul start (2 ^ k)))

/-- **The loop halts exactly when a shift of the start reaches the target.** -/
theorem doubleCapacity_halts_iff (word : start < 2 ^ 64) :
    (∃ fuel newCap, doubleCapacity fuel start required = some newCap) ↔
      ShiftReaches start required := by
  refine whileLoop_halts_iff.trans ⟨?_, ?_⟩
  · rintro ⟨k, reached⟩
    rw [double_iterate word, Nat.not_lt] at reached
    by_cases small : k < 64
    · exact ⟨k, small, reached⟩
    · rw [wmul_wordSize (Nat.not_lt.mp small)] at reached
      exact ⟨0, by simp, reached.trans (Nat.zero_le _)⟩
  · rintro ⟨k, _, reached⟩
    refine ⟨k, ?_⟩
    rwa [double_iterate word, Nat.not_lt]

/-- The loop halts with a capacity that is large enough. -/
theorem doubleCapacity_ge (halted : doubleCapacity fuel start required = some newCap) :
    required ≤ newCap := by
  obtain ⟨_, _, _, done, _⟩ := whileLoop_eq_some_iff.mp halted
  exact Nat.not_lt.mp done

/-- The result of the loop is a word. -/
theorem doubleCapacity_lt (halted : doubleCapacity fuel start required = some newCap)
    (word : start < 2 ^ 64) : newCap < 2 ^ 64 := by
  refine @whileLoop_invariant _ _ _ _ (fun c => c < 2 ^ 64) ?_ _ _ _ halted word
  intro c _ _
  exact wmul_lt c 2

/-- The first capacity that is enough, when one is doubled as it stands. -/
def LeastDoubling (capacity required c : Nat) : Prop :=
  required ≤ capacity ∧ c = capacity ∨
    capacity < required ∧ required ≤ c ∧ ∃ k, c = startCapacity capacity * 2 ^ k ∧
      ∀ j < k, startCapacity capacity * 2 ^ j < required

/-- There is one such capacity. -/
theorem LeastDoubling.unique {capacity c c' : Nat} (first : LeastDoubling capacity required c)
    (second : LeastDoubling capacity required c') : c = c' := by
  rcases first with ⟨_, rfl⟩ | ⟨short, enough, k, rfl, before⟩
  · rcases second with ⟨_, same⟩ | ⟨short, _⟩
    · exact same.symm
    · omega
  · rcases second with ⟨long, _⟩ | ⟨_, enough', k', rfl, before'⟩
    · omega
    · -- neither exponent is below the other
      rcases Nat.lt_trichotomy k k' with less | rfl | more
      · have := before' k less
        omega
      · rfl
      · have := before k' more
        omega

/-- **The loop does not wrap** on the way to a target in the lower half of the
range, and stops at the first capacity that is enough. -/
theorem doubleCapacity_exact (halted : doubleCapacity fuel start required = some newCap)
    (word : start < 2 ^ 64) (half : required ≤ 2 ^ 63) :
    ∃ k, newCap = start * 2 ^ k ∧ ∀ j < k, start * 2 ^ j < required := by
  have exactly : newCap < 2 ^ 64 ∧
      ∃ k, newCap = start * 2 ^ k ∧ ∀ j < k, start * 2 ^ j < required := by
    refine @whileLoop_invariant _ _ _ _ (fun c => c < 2 ^ 64 ∧
      ∃ k, c = start * 2 ^ k ∧ ∀ j < k, start * 2 ^ j < required) ?_ _ _ _
      halted ⟨word, 0, by simp⟩
    rintro c ⟨_, k, rfl, before⟩ below
    have fits : start * 2 ^ k * 2 < 2 ^ 64 := by omega
    refine ⟨wmul_lt _ _, k + 1, ?_, ?_⟩
    · rw [wmul_of_lt fits, Nat.pow_succ, Nat.mul_assoc]
    · intro j earlier
      rcases Nat.lt_succ_iff_lt_or_eq.mp earlier with less | rfl
      · exact before j less
      · exact below
  exact exactly.2

/-- Some shift of a word reaches any target in the lower half of the range. -/
theorem shift_reaches_of_le (pos : 0 < start) (word : start < 2 ^ 64) (half : required ≤ 2 ^ 63) :
    ShiftReaches start required := by
  -- the shift that brings the leading bit to the front
  have log : Nat.log2 start < 64 := (Nat.log2_lt (by omega)).mpr word
  have lower : 2 ^ Nat.log2 start ≤ start := Nat.log2_self_le (by omega)
  have upper : start < 2 ^ (Nat.log2 start + 1) := Nat.lt_log2_self
  refine ⟨63 - Nat.log2 start, by omega, ?_⟩
  have front : 2 ^ 63 = 2 ^ Nat.log2 start * 2 ^ (63 - Nat.log2 start) := by
    rw [← Nat.pow_add]
    congr 1
    omega
  have next : 2 ^ 64 = 2 ^ (Nat.log2 start + 1) * 2 ^ (63 - Nat.log2 start) := by
    rw [← Nat.pow_add]
    congr 1
    omega
  have fits : start * 2 ^ (63 - Nat.log2 start) < 2 ^ 64 := by
    rw [next]
    exact Nat.mul_lt_mul_of_pos_right upper (Nat.two_pow_pos _)
  rw [wmul_of_lt fits]
  refine half.trans ?_
  rw [front]
  exact Nat.mul_le_mul_right _ lower

/-- The shifts of a power of two reach no more than half of the range. -/
theorem shiftReaches_two_pow_iff {j : Nat} (word : j < 64) :
    ShiftReaches (2 ^ j) required ↔ required ≤ 2 ^ 63 := by
  constructor
  · rintro ⟨k, _, reached⟩
    refine reached.trans ?_
    unfold wmul
    rw [← Nat.pow_add]
    by_cases small : j + k < 64
    · exact (Nat.mod_le _ _).trans (Nat.pow_le_pow_right (by decide) (by omega))
    · rw [Nat.mod_eq_zero_of_dvd (Nat.pow_dvd_pow 2 (Nat.not_lt.mp small))]
      exact Nat.zero_le _
  · exact shift_reaches_of_le (Nat.two_pow_pos j) (Nat.pow_lt_pow_right (by decide) word)

theorem startCapacity_pos (capacity : Nat) : 0 < startCapacity capacity := by
  unfold startCapacity
  split <;> omega

theorem startCapacity_lt {capacity bound : Nat} (word : capacity < bound) (eight : 8 < bound) :
    startCapacity capacity < bound := by
  unfold startCapacity
  split <;> omega

/-! ## When an append returns -/

section Append

variable {σ : Type} {core : BcCore} {pool : PoolApi σ} {elementSize : Nat} {t : ArrayState σ}
variable {src count : Nat}

/-- The part of an append after it has made room. -/
def finishAppend (core : BcCore) (pool : PoolApi σ) (elementSize src count required : Nat)
    (made : ArrayState σ × Bool) : ArrayState σ × Bool :=
  if made.2 = false then (made.1, false)
  else (copyElements core pool elementSize made.1 src count required, true)

theorem arrayAppendBulk_zero :
    arrayAppendBulk core pool elementSize fuel t src 0 = some (t, true) := rfl

/-- An append whose new length does not wrap makes room first. -/
theorem arrayAppendBulk_eq (some : count ≠ 0) (fits : t.array.length + count < 2 ^ 64) :
    arrayAppendBulk core pool elementSize fuel t src count =
      (makeRoom core pool elementSize fuel t (t.array.length + count)).map
        (finishAppend core pool elementSize src count (t.array.length + count)) := by
  unfold arrayAppendBulk
  rw [if_neg some, wadd_of_lt fits]
  dsimp only
  rw [if_neg (Nat.not_lt.mpr (Nat.le_add_right _ _))]
  cases makeRoom core pool elementSize fuel t (t.array.length + count) with
  | none => rfl
  | some made => simp only [Option.map_some, finishAppend, apply_ite Option.some]

/-- An append whose new length wraps is refused. -/
theorem arrayAppendBulk_wraps (some : count ≠ 0) (length : t.array.length < 2 ^ 64)
    (countWord : count < 2 ^ 64) (wraps : 2 ^ 64 ≤ t.array.length + count) :
    arrayAppendBulk core pool elementSize fuel t src count = .some (t, false) := by
  unfold arrayAppendBulk
  rw [if_neg some, wadd_of_le length countWord wraps]
  exact if_pos (by omega)

theorem makeRoom_of_le (enough : required ≤ t.array.capacity) :
    makeRoom core pool elementSize fuel t required = some (t, true) := if_pos enough

/-- When there is not enough, the capacity that the loop gives is reserved. -/
theorem makeRoom_of_lt (short : t.array.capacity < required) :
    makeRoom core pool elementSize fuel t required =
      (doubleCapacity fuel (startCapacity t.array.capacity) required).map
        (arrayReserve core pool elementSize t) := by
  unfold makeRoom
  rw [if_neg (Nat.not_le.mpr short)]
  cases doubleCapacity fuel (startCapacity t.array.capacity) required with
  | none => rfl
  | some newCap => rfl

/-- Room is made when there is enough, or when the loop halts. -/
theorem makeRoom_returns_iff (word : t.array.capacity < 2 ^ 64) :
    (∃ fuel made, makeRoom core pool elementSize fuel t required = some made) ↔
      required ≤ t.array.capacity ∨ ShiftReaches (startCapacity t.array.capacity) required := by
  by_cases enough : required ≤ t.array.capacity
  · simp [makeRoom_of_le enough, enough]
  · simp only [makeRoom_of_lt (Nat.not_le.mp enough), enough, false_or, Option.map_eq_some_iff]
    rw [← doubleCapacity_halts_iff (startCapacity_lt word (by decide))]
    constructor
    · rintro ⟨fuel, _, newCap, halted, _⟩
      exact ⟨fuel, newCap, halted⟩
    · rintro ⟨fuel, newCap, halted⟩
      exact ⟨fuel, _, newCap, halted, rfl⟩

/-- **An append returns** exactly when it has nothing to append, refuses, finds room
or can double up to what it needs. -/
theorem arrayAppendBulk_returns_iff (length : t.array.length < 2 ^ 64)
    (countWord : count < 2 ^ 64) (capacity : t.array.capacity < 2 ^ 64) :
    (∃ fuel result, arrayAppendBulk core pool elementSize fuel t src count = some result) ↔
      count = 0 ∨ 2 ^ 64 ≤ t.array.length + count ∨
        t.array.length + count ≤ t.array.capacity ∨
        ShiftReaches (startCapacity t.array.capacity) (t.array.length + count) := by
  by_cases nothing : count = 0
  · subst nothing
    simp [arrayAppendBulk_zero]
  · by_cases wraps : 2 ^ 64 ≤ t.array.length + count
    · simp only [arrayAppendBulk_wraps nothing length countWord wraps, wraps, true_or, or_true,
        iff_true]
      exact ⟨0, _, rfl⟩
    · simp only [arrayAppendBulk_eq nothing (Nat.not_le.mp wraps), nothing, wraps, false_or,
        Option.map_eq_some_iff]
      rw [← @makeRoom_returns_iff _ _ core pool elementSize t capacity]
      constructor
      · rintro ⟨fuel, _, made, halted, _⟩
        exact ⟨fuel, made, halted⟩
      · rintro ⟨fuel, made, halted⟩
        exact ⟨fuel, _, made, halted, rfl⟩

end Append

end BcAllocators
