import Mathlib

/-!
# Sixty-four-bit words

Addresses and sizes are natural numbers below `2 ^ 64`. The operators below are
the unsigned operators of the machine: they wrap, and each comes with the
condition under which it does not.

Rounding up to a multiple is the other arithmetic of an allocator. `roundUp` is
the mathematical function, with no bound; it is the least multiple that is not
below its argument (`roundUp_le`), and it exceeds its argument by less than the
unit (`roundUp_lt`).
-/

set_option autoImplicit false

namespace Machine

/-! ## Wrapping operators -/

/-- Unsigned addition. -/
def wadd (a b : Nat) : Nat := (a + b) % 2 ^ 64

/-- Unsigned subtraction of a word. -/
def wsub (a b : Nat) : Nat := (a + (2 ^ 64 - b)) % 2 ^ 64

/-- Unsigned multiplication. -/
def wmul (a b : Nat) : Nat := a * b % 2 ^ 64

theorem wadd_lt (a b : Nat) : wadd a b < 2 ^ 64 := Nat.mod_lt _ (by decide)

theorem wsub_lt (a b : Nat) : wsub a b < 2 ^ 64 := Nat.mod_lt _ (by decide)

theorem wmul_lt (a b : Nat) : wmul a b < 2 ^ 64 := Nat.mod_lt _ (by decide)

theorem wadd_of_lt {a b : Nat} (fits : a + b < 2 ^ 64) : wadd a b = a + b :=
  Nat.mod_eq_of_lt fits

/-- A sum of two words that does not fit loses exactly one `2 ^ 64`. -/
theorem wadd_of_le {a b : Nat} (ha : a < 2 ^ 64) (hb : b < 2 ^ 64) (wraps : 2 ^ 64 ≤ a + b) :
    wadd a b = a + b - 2 ^ 64 := by
  unfold wadd
  omega

theorem wsub_of_le {a b : Nat} (le : b ≤ a) (ha : a < 2 ^ 64) : wsub a b = a - b := by
  unfold wsub
  omega

theorem wmul_of_lt {a b : Nat} (fits : a * b < 2 ^ 64) : wmul a b = a * b :=
  Nat.mod_eq_of_lt fits

/-! ## Words as residues -/

/-- Counters that wrap are exact up to multiples of `2 ^ 64`. -/
abbrev Residue := ZMod (2 ^ 64)

theorem wadd_residue (a b : Nat) : ((wadd a b : Nat) : Residue) = a + b := by
  unfold wadd
  rw [ZMod.natCast_mod, Nat.cast_add]

theorem wsub_residue {a b : Nat} (word : b ≤ 2 ^ 64) : ((wsub a b : Nat) : Residue) = a - b := by
  unfold wsub
  rw [ZMod.natCast_mod, Nat.cast_add, Nat.cast_sub word, ZMod.natCast_self]
  ring

/-- Words with the same residue are the same. -/
theorem eq_of_residue {a b : Nat} (ha : a < 2 ^ 64) (hb : b < 2 ^ 64)
    (same : (a : Residue) = b) : a = b := by
  have congruent := (ZMod.natCast_eq_natCast_iff a b (2 ^ 64)).mp same
  exact Nat.ModEq.eq_of_lt_of_lt congruent ha hb

/-! ## Rounding up -/

/-- The least multiple of `unit` that is at least `value`. -/
def roundUp (value unit : Nat) : Nat := (value + (unit - 1)) / unit * unit

theorem dvd_roundUp (value unit : Nat) : unit ∣ roundUp value unit := Nat.dvd_mul_left _ _

theorem le_roundUp {value unit : Nat} (pos : 0 < unit) : value ≤ roundUp value unit := by
  have split := Nat.div_add_mod (value + (unit - 1)) unit
  have small := Nat.mod_lt (value + (unit - 1)) pos
  rw [Nat.mul_comm] at split
  unfold roundUp
  omega

theorem roundUp_lt {value unit : Nat} (pos : 0 < unit) : roundUp value unit < value + unit := by
  have below := Nat.div_mul_le_self (value + (unit - 1)) unit
  unfold roundUp
  omega

/-- Rounding up gives the least multiple: any multiple above the value is above
the rounded value. -/
theorem roundUp_le {value unit bound : Nat} (pos : 0 < unit) (multiple : unit ∣ bound)
    (le : value ≤ bound) : roundUp value unit ≤ bound := by
  obtain ⟨count, rfl⟩ := multiple
  have quotient : (value + (unit - 1)) / unit < count + 1 := by
    rw [Nat.div_lt_iff_lt_mul pos, Nat.add_mul, Nat.one_mul, Nat.mul_comm count]
    omega
  unfold roundUp
  rw [Nat.mul_comm unit]
  exact Nat.mul_le_mul_right unit (Nat.le_of_lt_succ quotient)

theorem roundUp_of_dvd {value unit : Nat} (pos : 0 < unit) (multiple : unit ∣ value) :
    roundUp value unit = value :=
  Nat.le_antisymm (roundUp_le pos multiple (Nat.le_refl _)) (le_roundUp pos)

theorem roundUp_mono {small large unit : Nat} (pos : 0 < unit) (le : small ≤ large) :
    roundUp small unit ≤ roundUp large unit :=
  roundUp_le pos (dvd_roundUp large unit) (le.trans (le_roundUp pos))

/-! ## Powers of two -/

theorem isPowerOfTwo_pos {n : Nat} (power : n.isPowerOfTwo) : 0 < n :=
  Nat.pos_of_isPowerOfTwo power

/-- Of two powers of two the smaller divides the larger. -/
theorem isPowerOfTwo_dvd {m n : Nat} (hm : m.isPowerOfTwo) (hn : n.isPowerOfTwo) (le : m ≤ n) :
    m ∣ n := by
  obtain ⟨j, rfl⟩ := hm
  obtain ⟨k, rfl⟩ := hn
  exact Nat.pow_dvd_pow 2 ((Nat.pow_le_pow_iff_right (by decide)).mp le)

end Machine
