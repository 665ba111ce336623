import Mathlib

/-!
# Loops

`whileLoop goes body fuel s` repeats the body for as long as the condition holds,
and tests the condition at most `fuel` times; it has no result when that is not
enough. So the loop halts from a state when some amount of fuel gives a result.

It halts exactly when one of the iterates of the body is outside the condition
(`whileLoop_halts_iff`), and the result is the first such iterate
(`whileLoop_eq_some_iff`). What the body keeps, the loop keeps
(`whileLoop_invariant`).
-/

set_option autoImplicit false

namespace Machine

universe u

variable {α : Type u} (goes : α → Prop) [DecidablePred goes] (body : α → α)

/-- `while (goes) body`, with a bound on the number of tests. -/
def whileLoop : Nat → α → Option α
  | 0, _ => none
  | fuel + 1, s => if goes s then whileLoop fuel (body s) else some s

variable {goes body}

/-- **The result of a loop is the first iterate outside the condition.** -/
theorem whileLoop_eq_some_iff {fuel : Nat} {s t : α} :
    whileLoop goes body fuel s = some t ↔
      ∃ k < fuel, body^[k] s = t ∧ ¬ goes t ∧ ∀ j < k, goes (body^[j] s) := by
  induction fuel generalizing s with
  | zero => simp [whileLoop]
  | succ fuel ih =>
      by_cases here : goes s
      · rw [whileLoop, if_pos here, ih]
        constructor
        · rintro ⟨k, enough, result, done, before⟩
          refine ⟨k + 1, Nat.succ_lt_succ enough, result, done, ?_⟩
          intro j earlier
          cases j with
          | zero => exact here
          | succ j => exact before j (Nat.lt_of_succ_lt_succ earlier)
        · rintro ⟨k, enough, result, done, before⟩
          cases k with
          | zero =>
              subst result
              exact absurd here done
          | succ k =>
              refine ⟨k, Nat.lt_of_succ_lt_succ enough, result, done, ?_⟩
              intro j earlier
              exact before (j + 1) (Nat.succ_lt_succ earlier)
      · rw [whileLoop, if_neg here]
        constructor
        · intro same
          cases same
          exact ⟨0, Nat.succ_pos fuel, rfl, here, by simp⟩
        · rintro ⟨k, _, result, _, before⟩
          cases k with
          | zero => exact congrArg some result
          | succ k => exact absurd (before 0 (Nat.succ_pos k)) here

/-- **A loop halts exactly when some iterate is outside the condition.** -/
theorem whileLoop_halts_iff {s : α} :
    (∃ fuel t, whileLoop goes body fuel s = some t) ↔ ∃ k, ¬ goes (body^[k] s) := by
  constructor
  · rintro ⟨fuel, t, halted⟩
    obtain ⟨k, _, rfl, done, _⟩ := whileLoop_eq_some_iff.mp halted
    exact ⟨k, done⟩
  · intro leaves
    classical
    refine ⟨Nat.find leaves + 1, body^[Nat.find leaves] s, whileLoop_eq_some_iff.mpr ?_⟩
    refine ⟨Nat.find leaves, Nat.lt_succ_self _, rfl, Nat.find_spec leaves, ?_⟩
    intro j earlier
    exact not_not.mp (Nat.find_min leaves earlier)

/-- **What the body keeps, the loop keeps.** -/
theorem whileLoop_invariant {Inv : α → Prop} (keeps : ∀ {a}, Inv a → goes a → Inv (body a))
    {fuel : Nat} {s t : α} (halted : whileLoop goes body fuel s = some t) (initial : Inv s) :
    Inv t := by
  induction fuel generalizing s with
  | zero => simp [whileLoop] at halted
  | succ fuel ih =>
      rw [whileLoop] at halted
      split at halted
      · next here => exact ih halted (keeps initial here)
      · cases halted
        exact initial

end Machine
