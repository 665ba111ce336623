import BcAllocators.Lib.Memory

/-!
# Memories that change alike

Two runs of a program that differ in what a client has stored are compared byte by
byte. `Follows` says that a pair of memories has been changed alike: wherever the two
agreed before, they agree afterwards. Stores of the same value at the same address
have this property, and it composes. A word that the two have in common stays in
common (`Follows.word`), so a program that branches on such words takes the same
branches in both runs.
-/

set_option autoImplicit false

namespace Machine

/-- Wherever `m` and `n` agree, `m'` and `n'` do. -/
def Follows (m m' n n' : Memory) : Prop := ∀ p, m p = n p → m' p = n' p

variable {m m' m'' n n' n'' : Memory}

/-! ## Words in common -/

/-- The bytes of a word are determined by the word. -/
theorem loadWord_bytes {a : Nat} (same : loadWord m a = loadWord n a) :
    ∀ b, a ≤ b → b < a + 8 → m b = n b := by
  have digits : ∀ {x y : UInt8} {q r : Nat}, x.toNat + 256 * q = y.toNat + 256 * r →
      x = y ∧ q = r := by
    intro x y q r equal
    have hx := x.toNat_lt
    have hy := y.toNat_lt
    refine ⟨UInt8.toNat_inj.mp ?_, ?_⟩ <;> omega
  rw [loadWord, loadWord] at same
  obtain ⟨b0, same⟩ := digits same
  obtain ⟨b1, same⟩ := digits same
  obtain ⟨b2, same⟩ := digits same
  obtain ⟨b3, same⟩ := digits same
  obtain ⟨b4, same⟩ := digits same
  obtain ⟨b5, same⟩ := digits same
  obtain ⟨b6, last⟩ := digits same
  have b7 := UInt8.toNat_inj.mp last
  intro b lower upper
  obtain ⟨k, rfl⟩ := Nat.exists_eq_add_of_le lower
  have small : k < 8 := Nat.lt_of_add_lt_add_left upper
  interval_cases k <;> assumption

namespace Follows

theorem refl (m n : Memory) : Follows m m n n := fun _ same => same

theorem trans (first : Follows m m' n n') (second : Follows m' m'' n' n'') :
    Follows m m'' n n'' := fun p same => second p (first p same)

/-- **A word in common stays in common.** -/
theorem word (follows : Follows m m' n n') {a : Nat} (same : loadWord n a = loadWord m a) :
    loadWord n' a = loadWord m' a :=
  loadWord_congr fun b lower upper =>
    (follows b (loadWord_bytes same.symm b lower upper)).symm

/-! ## Equal stores -/

theorem storeWord (m n : Memory) (a v : Nat) :
    Follows m (storeWord m a v) n (storeWord n a v) := by
  intro p same
  simp only [Machine.storeWord]
  split
  · rfl
  · exact same

theorem storeByte (m n : Memory) (a : Nat) (v : UInt8) :
    Follows m (storeByte m a v) n (storeByte n a v) := by
  intro p same
  simp only [Machine.storeByte, Function.update_apply]
  split
  · rfl
  · exact same

theorem fillBytes (m n : Memory) (a k : Nat) (v : UInt8) :
    Follows m (fillBytes m a k v) n (fillBytes n a k v) := by
  intro p same
  simp only [Machine.fillBytes]
  split
  · rfl
  · exact same

/-- Outside a frame that both changes share, agreement stays. -/
theorem agree_outside {s : Set Nat} (left : ChangesOnly s m m') (right : ChangesOnly s n n')
    {p : Nat} (outside : p ∉ s) (same : m p = n p) : m' p = n' p :=
  ((left p outside).trans same).trans (right p outside).symm

end Follows

end Machine
