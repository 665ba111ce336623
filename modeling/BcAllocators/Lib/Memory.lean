import BcAllocators.Lib.Words

/-!
# Byte memory

A memory gives a byte to every address. Words of eight bytes are loaded and
stored in little-endian order, as the machine keeps them, so a structure laid
over another one shares its bytes.

The frame of an operation is the set of addresses it may change
(`ChangesOnly`). Loads depend on their eight bytes alone
(`loadWord_congr`), which turns a frame into the statement that a field kept
its value.
-/

set_option autoImplicit false

namespace Machine

abbrev Memory := Nat → UInt8

/-! ## Words -/

/-- The little-endian word at an address. -/
def loadWord (m : Memory) (a : Nat) : Nat :=
  (m a).toNat + 256 * ((m (a + 1)).toNat + 256 * ((m (a + 2)).toNat + 256 * ((m (a + 3)).toNat +
    256 * ((m (a + 4)).toNat + 256 * ((m (a + 5)).toNat + 256 * ((m (a + 6)).toNat +
      256 * (m (a + 7)).toNat))))))

/-- Store the low eight bytes of a number. -/
def storeWord (m : Memory) (a v : Nat) : Memory := fun b =>
  if a ≤ b ∧ b < a + 8 then UInt8.ofNat (v / 256 ^ (b - a)) else m b

theorem storeWord_of_not_mem {m : Memory} {a v b : Nat} (outside : b < a ∨ a + 8 ≤ b) :
    storeWord m a v b = m b := by
  unfold storeWord
  rw [if_neg (by omega)]

theorem storeWord_byte {m : Memory} {a v k : Nat} (small : k < 8) :
    (storeWord m a v (a + k)).toNat = v / 256 ^ k % 256 := by
  unfold storeWord
  rw [if_pos (by omega), Nat.add_sub_cancel_left]
  exact UInt8.toNat_ofNat' ..

/-- **A stored word is loaded back**, up to truncation to a word. -/
theorem loadWord_storeWord (m : Memory) (a v : Nat) :
    loadWord (storeWord m a v) a = v % 2 ^ 64 := by
  have b0 := storeWord_byte (m := m) (a := a) (v := v) (k := 0) (by decide)
  have b1 := storeWord_byte (m := m) (a := a) (v := v) (k := 1) (by decide)
  have b2 := storeWord_byte (m := m) (a := a) (v := v) (k := 2) (by decide)
  have b3 := storeWord_byte (m := m) (a := a) (v := v) (k := 3) (by decide)
  have b4 := storeWord_byte (m := m) (a := a) (v := v) (k := 4) (by decide)
  have b5 := storeWord_byte (m := m) (a := a) (v := v) (k := 5) (by decide)
  have b6 := storeWord_byte (m := m) (a := a) (v := v) (k := 6) (by decide)
  have b7 := storeWord_byte (m := m) (a := a) (v := v) (k := 7) (by decide)
  simp only [Nat.add_zero, pow_zero, Nat.div_one] at b0
  unfold loadWord
  rw [b0, b1, b2, b3, b4, b5, b6, b7]
  -- the digits of `v` in base 256, peeled off one at a time
  rw [show 2 ^ 64 = 256 * (256 * (256 * (256 * (256 * (256 * (256 * 256)))))) by norm_num]
  simp only [Nat.mod_mul, Nat.div_div_eq_div_mul]
  norm_num only

theorem loadWord_storeWord_of_lt {m : Memory} {a v : Nat} (word : v < 2 ^ 64) :
    loadWord (storeWord m a v) a = v := by
  rw [loadWord_storeWord, Nat.mod_eq_of_lt word]

/-- A load depends on its eight bytes. -/
theorem loadWord_congr {m m' : Memory} {a : Nat}
    (same : ∀ b, a ≤ b → b < a + 8 → m' b = m b) : loadWord m' a = loadWord m a := by
  unfold loadWord
  rw [same a (by omega) (by omega), same (a + 1) (by omega) (by omega),
    same (a + 2) (by omega) (by omega), same (a + 3) (by omega) (by omega),
    same (a + 4) (by omega) (by omega), same (a + 5) (by omega) (by omega),
    same (a + 6) (by omega) (by omega), same (a + 7) (by omega) (by omega)]

/-- A store leaves the words it does not overlap. -/
theorem loadWord_storeWord_of_apart {m : Memory} {a v b : Nat} (apart : a + 8 ≤ b ∨ b + 8 ≤ a) :
    loadWord (storeWord m a v) b = loadWord m b :=
  loadWord_congr fun _ _ _ => storeWord_of_not_mem (by omega)

/-- One more low byte. -/
theorem byte_add_lt {d r bound : Nat} (byte : d < 2 ^ 8) (rest : r < bound) :
    d + 256 * r < 256 * bound := by
  omega

theorem loadWord_lt (m : Memory) (a : Nat) : loadWord m a < 2 ^ 64 := by
  have byte : ∀ b, (m b).toNat < 2 ^ 8 := fun b => (m b).toNat_lt
  have low : ∀ {r bound : Nat} (b : Nat), r < bound → (m b).toNat + 256 * r < 256 * bound :=
    fun b => byte_add_lt (byte b)
  refine lt_of_lt_of_eq (low a (low (a + 1) (low (a + 2) (low (a + 3) (low (a + 4)
    (low (a + 5) (low (a + 6) (byte (a + 7))))))))) ?_
  norm_num

/-! ## Ranges of bytes -/

/-- Store one byte. -/
def storeByte (m : Memory) (a : Nat) (v : UInt8) : Memory := Function.update m a v

/-- Fill a range with one byte. -/
def fillBytes (m : Memory) (a n : Nat) (v : UInt8) : Memory := fun b =>
  if a ≤ b ∧ b < a + n then v else m b

/-- Copy a range, all bytes read before any is written. -/
def copyBytes (m : Memory) (dst src n : Nat) : Memory := fun b =>
  if dst ≤ b ∧ b < dst + n then m (src + (b - dst)) else m b

/-- The bytes of a range. -/
def loadBytes (m : Memory) (a n : Nat) : List UInt8 := (List.range n).map fun i => m (a + i)

/-- Store a list of bytes. -/
def storeBytes (m : Memory) (a : Nat) (bytes : List UInt8) : Memory := fun b =>
  if a ≤ b ∧ b < a + bytes.length then bytes.getD (b - a) 0 else m b

@[simp] theorem loadBytes_length (m : Memory) (a n : Nat) : (loadBytes m a n).length = n := by
  simp [loadBytes]

theorem loadBytes_congr {m m' : Memory} {a n : Nat}
    (same : ∀ b, a ≤ b → b < a + n → m' b = m b) : loadBytes m' a n = loadBytes m a n := by
  unfold loadBytes
  refine List.map_congr_left fun i member => ?_
  have small := List.mem_range.mp member
  exact same _ (by omega) (by omega)

theorem loadBytes_add (m : Memory) (a n k : Nat) :
    loadBytes m a (n + k) = loadBytes m a n ++ loadBytes m (a + n) k := by
  simp [loadBytes, List.range_add, Nat.add_assoc, Function.comp_def]

theorem loadBytes_take (m : Memory) (a n k : Nat) (le : k ≤ n) :
    (loadBytes m a n).take k = loadBytes m a k := by
  obtain ⟨rest, rfl⟩ := Nat.exists_eq_add_of_le le
  rw [loadBytes_add, List.take_left' (loadBytes_length m a k)]

theorem loadBytes_drop (m : Memory) (a n k : Nat) (le : k ≤ n) :
    (loadBytes m a n).drop k = loadBytes m (a + k) (n - k) := by
  obtain ⟨rest, rfl⟩ := Nat.exists_eq_add_of_le le
  rw [loadBytes_add, List.drop_left' (loadBytes_length m a k), Nat.add_sub_cancel_left]

theorem loadBytes_storeBytes (m : Memory) (a : Nat) (bytes : List UInt8) :
    loadBytes (storeBytes m a bytes) a bytes.length = bytes := by
  refine List.ext_getElem (by simp) fun i _ within => ?_
  simp [loadBytes, storeBytes, within]

theorem loadBytes_copyBytes (m : Memory) (dst src n : Nat) :
    loadBytes (copyBytes m dst src n) dst n = loadBytes m src n := by
  unfold loadBytes
  refine List.map_congr_left fun i member => ?_
  have small := List.mem_range.mp member
  unfold copyBytes
  rw [if_pos (by omega), Nat.add_sub_cancel_left]

/-- Two lists of bytes read from two ranges are equal when the bytes are. -/
theorem loadBytes_eq_iff {m m' : Memory} {a a' n : Nat} :
    loadBytes m a n = loadBytes m' a' n ↔ ∀ i < n, m (a + i) = m' (a' + i) := by
  unfold loadBytes
  rw [List.map_inj_left]
  simp only [List.mem_range]

/-! ## Frames -/

/-- Only addresses of the set may have changed. -/
def ChangesOnly (s : Set Nat) (m m' : Memory) : Prop := ∀ b, b ∉ s → m' b = m b

theorem ChangesOnly.refl (s : Set Nat) (m : Memory) : ChangesOnly s m m := fun _ _ => rfl

theorem ChangesOnly.trans {s : Set Nat} {m m' m'' : Memory} (first : ChangesOnly s m m')
    (second : ChangesOnly s m' m'') : ChangesOnly s m m'' :=
  fun b outside => (second b outside).trans (first b outside)

theorem ChangesOnly.mono {s t : Set Nat} {m m' : Memory} (subset : s ⊆ t)
    (changes : ChangesOnly s m m') : ChangesOnly t m m' :=
  fun b outside => changes b fun member => outside (subset member)

theorem changesOnly_storeWord (m : Memory) (a v : Nat) :
    ChangesOnly (Set.Ico a (a + 8)) m (storeWord m a v) := by
  intro b outside
  simp only [Set.mem_Ico, not_and, not_lt] at outside
  exact storeWord_of_not_mem (by omega)

theorem changesOnly_fillBytes (m : Memory) (a n : Nat) (v : UInt8) :
    ChangesOnly (Set.Ico a (a + n)) m (fillBytes m a n v) :=
  fun _ outside => if_neg outside

theorem changesOnly_copyBytes (m : Memory) (dst src n : Nat) :
    ChangesOnly (Set.Ico dst (dst + n)) m (copyBytes m dst src n) :=
  fun _ outside => if_neg outside

theorem changesOnly_storeBytes (m : Memory) (a : Nat) (bytes : List UInt8) :
    ChangesOnly (Set.Ico a (a + bytes.length)) m (storeBytes m a bytes) :=
  fun _ outside => if_neg outside

theorem changesOnly_storeByte (m : Memory) (a : Nat) (v : UInt8) :
    ChangesOnly {a} m (storeByte m a v) :=
  fun _ outside => Function.update_of_ne outside _ _

/-- A word outside the frame keeps its value. -/
theorem ChangesOnly.loadWord {s : Set Nat} {m m' : Memory} (changes : ChangesOnly s m m') {a : Nat}
    (outside : ∀ b, a ≤ b → b < a + 8 → b ∉ s) : Machine.loadWord m' a = Machine.loadWord m a :=
  loadWord_congr fun b lower upper => changes b (outside b lower upper)

end Machine
