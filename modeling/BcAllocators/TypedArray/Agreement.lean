import BcAllocators.TypedArray.Termination

/-!
# Appending is pushing

An append doubles the capacity up to its target before it copies anything; a push
doubles it once, when the array is full. Both end at the first capacity, doubling
from the old one, that is enough (`LeastDoubling`): for the append this is what the
loop computes, and for the pushes it is kept from one to the next
(`LeastDoubling.next`). So an append and the pushes of the same elements, on arrays
that are equal, end with equal arrays (`append_agrees_with_pushes`).
-/

set_option autoImplicit false

namespace BcAllocators

open Machine

variable {σ : Type} {core : BcCore} {pool : PoolApi σ} {view : PoolView σ} {elementSize : Nat}
variable {t : ArrayState σ}

/-! ## The capacity after a push -/

/-- The capacity after a push. -/
def pushCapacity (length capacity : Nat) : Nat :=
  if length < capacity then capacity else if capacity = 0 then 8 else capacity * 2

/-- **A push keeps the capacity the first that is enough.** -/
theorem LeastDoubling.next {start length capacity : Nat}
    (least : LeastDoubling start length capacity) (within : length ≤ capacity) :
    LeastDoubling start (length + 1) (pushCapacity length capacity) := by
  unfold pushCapacity
  by_cases below : length < capacity
  · rw [if_pos below]
    rcases least with ⟨_, rfl⟩ | ⟨short, _, k, same, before⟩
    · exact Or.inl ⟨below, rfl⟩
    · refine Or.inr ⟨by omega, below, k, same, ?_⟩
      intro j earlier
      exact Nat.lt_succ_of_lt (before j earlier)
  · rw [if_neg below]
    have full : length = capacity := Nat.le_antisymm within (Nat.not_lt.mp below)
    subst full
    rcases least with ⟨_, rfl⟩ | ⟨short, _, k, same, before⟩
    · -- the first doubling, or the first capacity
      by_cases nothing : length = 0
      · subst nothing
        exact Or.inr ⟨by omega, by simp, 0, by simp [startCapacity], by simp⟩
      · rw [if_neg nothing]
        refine Or.inr ⟨by omega, by omega, 1, by simp [startCapacity, nothing], ?_⟩
        intro j earlier
        obtain rfl : j = 0 := by omega
        simp [startCapacity, nothing]
    · rw [if_neg (by omega)]
      refine Or.inr ⟨by omega, by omega, k + 1, ?_, ?_⟩
      · rw [Nat.pow_succ, ← Nat.mul_assoc, ← same]
      · intro j earlier
        rcases Nat.lt_succ_iff_lt_or_eq.mp earlier with less | rfl
        · exact Nat.lt_succ_of_lt (before j less)
        · rw [← same]
          exact Nat.lt_succ_self length

/-- The room for a push has this capacity. -/
theorem ArrayInv.pushRoom_capacity (contract : PoolContract pool view)
    (inv : ArrayInv view elementSize t) (pos : 0 < elementSize)
    (done : (pushRoom core pool elementSize t).2 = true) :
    (pushRoom core pool elementSize t).1.array.capacity =
      pushCapacity t.array.length t.array.capacity := by
  have small := inv.capacity_lt contract pos
  have within := inv.length_le
  unfold pushRoom pushCapacity at *
  by_cases below : t.array.length < t.array.capacity
  · rw [if_pos below, if_pos below]
  · have double : wmul t.array.capacity 2 = t.array.capacity * 2 := wmul_of_lt (by omega)
    rw [if_neg below, double] at done ⊢
    rw [if_neg below]
    apply arrayReserve_capacity ?_ done
    split <;> omega

/-- A push that is done has this capacity. -/
theorem ArrayInv.push_capacity (contract : PoolContract pool view)
    (inv : ArrayInv view elementSize t) (pos : 0 < elementSize) {value : Element elementSize}
    (done : (arrayPush core pool elementSize t value).2 = true) :
    (arrayPush core pool elementSize t value).1.array.capacity =
      pushCapacity t.array.length t.array.capacity := by
  rw [arrayPush_eq] at done ⊢
  split at done
  · cases done
  · next granted =>
      rw [if_neg granted]
      exact inv.pushRoom_capacity contract pos (Bool.eq_true_of_not_eq_false granted)

/-! ## Trust -/

section Trust

variable (contract : PoolContract pool view)

include contract

/-- A pool that keeps its contract up to the end of a reserve has kept it before. -/
theorem trusted_arrayReserve {newCap : Nat}
    (trusted : view.Trusted (arrayReserve core pool elementSize t newCap).1.pool) :
    view.Trusted t.pool := by
  have asked : ∀ size, view.Trusted (requestData pool t size).1 → view.Trusted t.pool := by
    intro size
    unfold requestData
    split
    · exact contract.trusted_allocate
    · exact contract.trusted_reallocate
  unfold arrayReserve at trusted
  split at trusted
  · exact trusted
  · split at trusted
    · exact trusted
    · dsimp only at trusted
      split at trusted
      · exact asked _ trusted
      · exact asked _ trusted

theorem trusted_arrayPush {value : Element elementSize}
    (trusted : view.Trusted (arrayPush core pool elementSize t value).1.pool) :
    view.Trusted t.pool := by
  rw [arrayPush_eq] at trusted
  have made : view.Trusted (pushRoom core pool elementSize t).1.pool := by
    split at trusted
    · exact trusted
    · exact contract.trusted_setMemory.mp trusted
  unfold pushRoom at made
  split at made
  · exact made
  · exact trusted_arrayReserve contract made

end Trust

/-! ## Pushes -/

/-- Push the elements of a list, until a push is refused. -/
def arrayPushAll (core : BcCore) (pool : PoolApi σ) (elementSize : Nat) :
    ArrayState σ → List (Element elementSize) → ArrayState σ × Bool
  | t, [] => (t, true)
  | t, value :: values =>
      if (arrayPush core pool elementSize t value).2 = false then
        ((arrayPush core pool elementSize t value).1, false)
      else arrayPushAll core pool elementSize (arrayPush core pool elementSize t value).1 values

theorem trusted_arrayPushAll (contract : PoolContract pool view)
    {values : List (Element elementSize)}
    (trusted : view.Trusted (arrayPushAll core pool elementSize t values).1.pool) :
    view.Trusted t.pool := by
  induction values generalizing t with
  | nil => exact trusted
  | cons value values ih =>
      unfold arrayPushAll at trusted
      split at trusted
      · exact trusted_arrayPush contract trusted
      · exact trusted_arrayPush contract (ih trusted)

/-- What pushes that are all done leave: an array with the elements behind the old
ones, and the first capacity, doubling from a start, that is enough. -/
structure Pushed (pool : PoolApi σ) (view : PoolView σ) (elementSize start : Nat)
    (t t' : ArrayState σ) (values : List (Element elementSize)) : Prop where
  inv : ArrayInv view elementSize t'
  elements : arrayElements pool elementSize t' = arrayElements pool elementSize t ++ values
  length : t'.array.length = t.array.length + values.length
  capacity : LeastDoubling start t'.array.length t'.array.capacity

theorem arrayElements_length (t : ArrayState σ) :
    (arrayElements pool elementSize t).length = t.array.length := by
  simp [arrayElements]

section Pushes

variable (contract : PoolContract pool view) (pos : 0 < elementSize)
  (sizeWord : elementSize < 2 ^ 64)

include contract pos sizeWord

/-- One push. -/
theorem ArrayInv.pushed (inv : ArrayInv view elementSize t) {start : Nat}
    (least : LeastDoubling start t.array.length t.array.capacity) {value : Element elementSize}
    (trusted : view.Trusted (arrayPush core pool elementSize t value).1.pool)
    (done : (arrayPush core pool elementSize t value).2 = true) :
    Pushed pool view elementSize start t (arrayPush core pool elementSize t value).1 [value] := by
  have capacity := inv.push_capacity contract pos done
  have outcome := arrayPush_spec contract inv pos sizeWord trusted
  generalize arrayPush core pool elementSize t value = result at outcome done capacity ⊢
  cases outcome with
  | done step =>
      have length := congrArg List.length step.elements
      rw [List.length_append, arrayElements_length, arrayElements_length] at length
      refine ⟨step.inv, step.elements, length, ?_⟩
      rw [capacity, length]
      exact least.next inv.length_le
  | refused step same => cases done

/-- **All pushes.** -/
theorem ArrayInv.pushedAll (inv : ArrayInv view elementSize t) {start : Nat}
    (least : LeastDoubling start t.array.length t.array.capacity)
    {values : List (Element elementSize)}
    (trusted : view.Trusted (arrayPushAll core pool elementSize t values).1.pool)
    (done : (arrayPushAll core pool elementSize t values).2 = true) :
    Pushed pool view elementSize start t (arrayPushAll core pool elementSize t values).1
      values := by
  induction values generalizing t with
  | nil => exact ⟨inv, (List.append_nil _).symm, rfl, least⟩
  | cons value values ih =>
      unfold arrayPushAll at trusted done ⊢
      split at done
      · cases done
      · next first =>
          rw [if_neg first] at trusted ⊢
          have one := inv.pushed contract pos sizeWord least
            (trusted_arrayPushAll contract trusted) (Bool.eq_true_of_not_eq_false first)
          have rest := ih one.inv one.capacity trusted done
          refine ⟨rest.inv, ?_, ?_, rest.capacity⟩
          · rw [rest.elements, one.elements, List.append_assoc, List.singleton_append]
          · rw [rest.length, one.length]
            simp only [List.length_cons, List.length_nil]
            omega

end Pushes

/-! ## The agreement -/

/-- Two arrays are equal, each in its pool. -/
structure ArraysEqual {σ τ : Type} (pool : PoolApi σ) (pool' : PoolApi τ) (elementSize : Nat)
    (t : ArrayState σ) (u : ArrayState τ) : Prop where
  length : t.array.length = u.array.length
  capacity : t.array.capacity = u.array.capacity
  elements : arrayElements pool elementSize t = arrayElements pool' elementSize u

/-- **An append agrees with pushes.** When an append to an array that its operations
lead to is done, and so are the pushes of the same elements to an equal array,
perhaps in another pool, then the arrays are equal again. -/
theorem append_agrees_with_pushes {τ : Type} {pool' : PoolApi τ} {view' : PoolView τ}
    (contract : PoolContract pool view) (contract' : PoolContract pool' view')
    (pos : 0 < elementSize) (sizeWord : elementSize < 2 ^ 64)
    (reachable : (arraySystem core pool view elementSize).Reachable t) {u : ArrayState τ}
    (reachable' : (arraySystem core pool' view' elementSize).Reachable u)
    (equal : ArraysEqual pool pool' elementSize t u) {fuel src count : Nat}
    (countWord : count < 2 ^ 64) (source : t.Source view elementSize src count)
    {t' : ArrayState σ} {u' : ArrayState τ}
    (appended : arrayAppendBulk core pool elementSize fuel t src count = some (t', true))
    (pushed : arrayPushAll core pool' elementSize u
      (loadElements (pool.memory t.pool) src elementSize count) = (u', true))
    (trusted : view.Trusted t'.pool) (trusted' : view'.Trusted u'.pool) :
    ArraysEqual pool pool' elementSize t' u' := by
  obtain ⟨_, _, start, run⟩ := reachable
  obtain ⟨inv, _⟩ := array_simulates contract pos sizeWord start run
  obtain ⟨_, _, start', run'⟩ := reachable'
  obtain ⟨inv', _⟩ := array_simulates contract' pos sizeWord start' run'
  -- what the append leaves
  have least := inv.append_capacity contract pos sizeWord countWord appended trusted rfl
  have outcome := arrayAppendBulk_spec contract inv pos sizeWord countWord source appended trusted
  have elements : arrayElements pool elementSize t' = arrayElements pool elementSize t ++
      loadElements (pool.memory t.pool) src elementSize count := by
    cases outcome with
    | done step => exact step.elements
  have length := congrArg List.length elements
  rw [List.length_append, arrayElements_length, arrayElements_length, loadElements_length] at length
  -- what the pushes leave
  have kept : view'.Trusted (arrayPushAll core pool' elementSize u
      (loadElements (pool.memory t.pool) src elementSize count)).1.pool := by rwa [pushed]
  have all := inv'.pushedAll contract' pos sizeWord (Or.inl ⟨inv'.length_le, rfl⟩) kept
    (congrArg Prod.snd pushed)
  rw [pushed] at all
  have length' := all.length
  rw [loadElements_length] at length'
  have least' := all.capacity
  rw [length', ← equal.length, ← equal.capacity] at least'
  constructor
  case length => rw [length, length', equal.length]
  case capacity => exact least.unique least'
  case elements => rw [elements, all.elements, equal.elements]

/-! ## A small agreement -/

/-- A call that was done, out of one that may not return. -/
theorem eq_some_of_done {α : Type} {returned : Option (α × Bool)} {other : α}
    (done : (returned.getD (other, false)).2 = true) :
    returned = some ((returned.getD (other, false)).1, true) := by
  cases returned with
  | none => cases done
  | some result => exact congrArg some (Prod.ext rfl done)

/-- The small array after an append of ten elements from outside the region. -/
def appendedTen : ArrayState (FaultyPool ClientPool) × Bool :=
  (arrayAppendBulk BcCore.reference (faultyPool BcCore.reference) 8 2 pushedArray 4096 10).getD
    (pushedArray, false)

/-- The small array after pushes of these elements. -/
def pushedTen : ArrayState (FaultyPool ClientPool) × Bool :=
  arrayPushAll BcCore.reference (faultyPool BcCore.reference) 8 pushedArray
    (loadElements ((faultyPool BcCore.reference).memory pushedArray.pool) 4096 8 10)

theorem append_agrees_with_pushes_ten :
    ArraysEqual (faultyPool BcCore.reference) (faultyPool BcCore.reference) 8 appendedTen.1
      pushedTen.1 := by
  have contract := faulty_contract BcCore.reference Platform.x86 sixteenPages
  have reachable := pushedArray_run.reachable emptyArray_start
  have source : pushedArray.Source (faultyView BcCore.reference Platform.x86 sixteenPages) 8
      4096 10 := by
    intro a inside
    apply Or.inl
    intro within
    have start : 65536 ≤ a := within.1
    have stop : a < 4096 + 10 * 8 := inside.2
    omega
  have appended : appendedTen.2 = true := by decide +kernel
  have pushed : pushedTen.2 = true := by decide +kernel
  have trusted : appendedTen.1.pool.pool.faithful = true := by decide +kernel
  have trusted' : pushedTen.1.pool.pool.faithful = true := by decide +kernel
  exact append_agrees_with_pushes contract contract (by decide) (by decide) reachable reachable
    ⟨rfl, rfl, rfl⟩ (by decide) source (eq_some_of_done appended) (Prod.ext rfl pushed) trusted
    trusted'

end BcAllocators
