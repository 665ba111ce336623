import BcAllocators.Lib.Memory

/-!
# Elements in memory

An array keeps elements of one size one after another. `loadElements` reads some
of them from an address on. Reading depends on the bytes alone, wherever they
stand (`loadElements_moved`), and splits at any element (`loadElements_add`), so
an array that grows at its end reads as the old elements and the new ones.
-/

set_option autoImplicit false

namespace Machine

variable {size : Nat}

/-- An element of a size, as its bytes. -/
abbrev Element (size : Nat) := { bytes : List UInt8 // bytes.length = size }

def loadElement (m : Memory) (a size : Nat) : Element size :=
  ⟨loadBytes m a size, loadBytes_length m a size⟩

/-- Elements that stand one after another. -/
def loadElements (m : Memory) (a size n : Nat) : List (Element size) :=
  (List.range n).map fun i => loadElement m (a + i * size) size

@[simp] theorem loadElements_zero (m : Memory) (a size : Nat) : loadElements m a size 0 = [] := rfl

@[simp] theorem loadElements_length (m : Memory) (a size n : Nat) :
    (loadElements m a size n).length = n := by
  simp [loadElements]

theorem loadElements_one (m : Memory) (a size : Nat) :
    loadElements m a size 1 = [loadElement m a size] := by
  simp [loadElements]

/-- Elements are read in two parts. -/
theorem loadElements_add (m : Memory) (a size n k : Nat) :
    loadElements m a size (n + k) =
      loadElements m a size n ++ loadElements m (a + n * size) size k := by
  simp [loadElements, List.range_add, Function.comp_def, Nat.add_mul, Nat.add_assoc]

/-- The end of an element is not behind the end of all of them. -/
theorem element_within {i n : Nat} (before : i < n) (size : Nat) : i * size + size ≤ n * size := by
  rw [← Nat.succ_mul]
  exact Nat.mul_le_mul_right size before

/-- **Elements are where their bytes are.** -/
theorem loadElements_moved {m m' : Memory} {a a' n : Nat}
    (same : ∀ i < n * size, m' (a' + i) = m (a + i)) :
    loadElements m' a' size n = loadElements m a size n := by
  apply List.map_congr_left
  intro i member
  have inside := element_within (List.mem_range.mp member) size
  apply Subtype.ext
  apply loadBytes_eq_iff.mpr
  intro j small
  have byte := same (i * size + j) (by omega)
  rwa [← Nat.add_assoc, ← Nat.add_assoc] at byte

/-- A stored element is read back. -/
theorem loadElement_storeBytes (m : Memory) (a : Nat) (value : Element size) :
    loadElement (storeBytes m a value.1) a size = value := by
  obtain ⟨bytes, rfl⟩ := value
  exact Subtype.ext (loadBytes_storeBytes m a bytes)

/-- Copied elements are those of the source. -/
theorem loadElements_copyBytes (m : Memory) (dst src size n : Nat) :
    loadElements (copyBytes m dst src (n * size)) dst size n = loadElements m src size n := by
  apply loadElements_moved
  intro i small
  exact loadBytes_eq_iff.mp (loadBytes_copyBytes m dst src (n * size)) i small

end Machine
