import BcAllocators.Lib.Links
import BcAllocators.Pool.Allocator

/-!
# Free lists

A free list is two stacks. The magazine holds the most recent entries of an
array; the overflow list is threaded through the first words of the blocks that
did not fit. `FreeList.Holds` gives both stacks of a list in a memory.

Pop takes the first block of the magazine, and of the overflow list when the
magazine is empty, and writes no memory. Push writes memory only when the
magazine is full, and then only the first word of the block. Neither reads
anything but the blocks of the list.
-/

set_option autoImplicit false

namespace BcAllocators

open Machine

namespace FreeList

/-- The entries of the magazine, the last one pushed first. -/
def magazine (fl : FreeList) : List Nat := (fl.mag.toList.take fl.magCount).reverse

/-- The free list denotes the given blocks: those of the magazine, then those of
the overflow list. -/
structure Holds (m : Memory) (fl : FreeList) (blocks : List Nat) : Prop where
  split : ∃ chain, blocks = fl.magazine ++ chain ∧ Linked (loadWord m) fl.head chain
  addresses : ∀ a ∈ blocks, 0 < a ∧ a < 2 ^ 64

variable {m m' : Memory} {fl : FreeList} {blocks : List Nat}

theorem magazine_length (fl : FreeList) : fl.magazine.length = fl.magCount := by
  have le := fl.magCount_le
  simp only [magazine, List.length_reverse, List.length_take, Vector.length_toList]
  omega

/-- An empty list holds nothing. -/
theorem holds_empty (m : Memory) : Holds m FreeList.empty [] :=
  ⟨⟨[], by simp [magazine, FreeList.empty], rfl⟩, by simp⟩

/-- What a list holds depends on the first words of its blocks. -/
theorem Holds.congr (holds : Holds m fl blocks)
    (same : ∀ a ∈ blocks, loadWord m' a = loadWord m a) : Holds m' fl blocks := by
  obtain ⟨chain, rfl, linked⟩ := holds.split
  exact ⟨⟨chain, rfl, linked.congr fun a member =>
    same a (List.mem_append_right _ member)⟩, holds.addresses⟩

/-! ## Pop -/

theorem magazine_pop {last : Nat} {rest : List Nat} (top : fl.magazine = last :: rest)
    (within : fl.magCount - 1 < magSize) :
    fl.mag[fl.magCount - 1] = last ∧ (fl.mag.toList.take (fl.magCount - 1)).reverse = rest := by
  have length := fl.magazine_length
  rw [top, List.length_cons] at length
  have succ : fl.magCount = fl.magCount - 1 + 1 := by omega
  have inside : fl.magCount - 1 < fl.mag.toList.length := by simpa using within
  unfold magazine at top
  rw [succ, List.take_succ_eq_append_getElem inside, List.reverse_append, List.reverse_singleton,
    List.singleton_append, List.cons.injEq] at top
  exact ⟨by simpa using top.1, top.2⟩

/-- A list that holds nothing gives the null pointer and stays as it is. -/
theorem Holds.pop_nil (holds : Holds m fl []) : freeListPop fl m = (fl, NULL) := by
  obtain ⟨chain, empty, linked⟩ := holds.split
  obtain ⟨noMagazine, rfl⟩ := List.append_eq_nil_iff.mp empty.symm
  have count := fl.magazine_length
  rw [noMagazine, List.length_nil] at count
  have head : fl.head = NULL := linked
  unfold freeListPop
  rw [dif_neg (by omega), if_neg (by simp [head]), head]

/-- **Pop gives the first block and leaves the others.** -/
theorem Holds.pop_cons {a : Nat} {rest : List Nat} (holds : Holds m fl (a :: rest)) :
    (freeListPop fl m).2 = a ∧ Holds m (freeListPop fl m).1 rest := by
  obtain ⟨chain, split, linked⟩ := holds.split
  have addresses := fun b (member : b ∈ rest) => holds.addresses b (List.mem_cons_of_mem a member)
  have count := fl.magazine_length
  unfold freeListPop
  cases top : fl.magazine with
  | nil =>
      rw [top, List.length_nil] at count
      rw [top, List.nil_append] at split
      subst split
      obtain ⟨here, nonnull, tail⟩ := linked
      rw [dif_neg (by omega), if_pos (by rw [here]; exact nonnull)]
      refine ⟨here, ⟨rest, ?_, here ▸ tail⟩, addresses⟩
      have : ({ fl with head := loadWord m fl.head } : FreeList).magazine = [] := top
      rw [this, List.nil_append]
  | cons last others =>
      rw [top, List.length_cons] at count
      rw [top, List.cons_append, List.cons.injEq] at split
      obtain ⟨rfl, rfl⟩ := split
      have within : fl.magCount - 1 < magSize := by have := fl.magCount_le; omega
      obtain ⟨entry, remaining⟩ := magazine_pop top within
      rw [dif_pos (by omega)]
      exact ⟨entry, ⟨chain, congrArg (· ++ chain) remaining.symm, linked⟩, addresses⟩

/-! ## Push -/

theorem magazine_push {ptr : Nat} (room : fl.magCount < magSize) :
    ((fl.mag.set fl.magCount ptr).toList.take (fl.magCount + 1)).reverse =
      ptr :: fl.magazine := by
  have inside : fl.magCount < (fl.mag.set fl.magCount ptr).toList.length := by simpa using room
  rw [List.take_succ_eq_append_getElem inside, List.reverse_append, List.reverse_singleton,
    List.singleton_append]
  congr 1
  · simp
  · rw [Vector.toList_set, List.take_set_of_le (Nat.le_refl _), magazine]

/-- Push writes at most the first word of the block. -/
theorem push_changesOnly (fl : FreeList) (m : Memory) (ptr : Nat) :
    ChangesOnly (Set.Ico ptr (ptr + 8)) m (freeListPush fl m ptr).2 := by
  unfold freeListPush
  split
  · exact ChangesOnly.refl _ m
  · exact changesOnly_storeWord m ptr fl.head

/-- A block pushed on a magazine with room comes first. -/
theorem Holds.push_room {a : Nat} (holds : Holds m fl blocks) (address : 0 < a ∧ a < 2 ^ 64)
    (room : fl.magCount < magSize) :
    (freeListPush fl m a).2 = m ∧ Holds m (freeListPush fl m a).1 (a :: blocks) := by
  obtain ⟨chain, rfl, linked⟩ := holds.split
  unfold freeListPush
  rw [dif_pos room]
  refine ⟨rfl, ⟨chain, ?_, linked⟩, ?_⟩
  · rw [← List.cons_append, ← magazine_push room]
    rfl
  · intro b member
    rcases List.mem_cons.mp member with rfl | old
    · exact address
    · exact holds.addresses b old

/-- A block pushed on a full magazine comes first in the overflow list. -/
theorem Holds.push_full {a : Nat} (holds : Holds m fl blocks) (address : 0 < a ∧ a < 2 ^ 64)
    (full : ¬ fl.magCount < magSize) (apart : ∀ b ∈ blocks, a + 8 ≤ b ∨ b + 8 ≤ a) :
    ∃ chain, blocks = fl.magazine ++ chain ∧
      Holds (freeListPush fl m a).2 (freeListPush fl m a).1 (fl.magazine ++ a :: chain) := by
  obtain ⟨chain, rfl, linked⟩ := holds.split
  refine ⟨chain, rfl, ?_⟩
  have headWord : fl.head < 2 ^ 64 := by
    cases chain with
    | nil => have null : fl.head = 0 := linked; omega
    | cons b rest =>
        rw [linked.1]
        exact (holds.addresses b (by simp)).2
  unfold freeListPush
  rw [dif_neg full]
  have link : loadWord (storeWord m a fl.head) a = fl.head := loadWord_storeWord_of_lt headWord
  have kept : Linked (loadWord (storeWord m a fl.head)) fl.head chain :=
    linked.congr fun b member =>
      loadWord_storeWord_of_apart (apart b (List.mem_append_right _ member))
  refine ⟨⟨a :: chain, rfl, kept.push (Nat.ne_of_gt address.1) link⟩, ?_⟩
  intro b member
  rcases List.mem_append.mp member with inMagazine | inChain
  · exact holds.addresses b (List.mem_append_left _ inMagazine)
  · rcases List.mem_cons.mp inChain with rfl | old
    · exact address
    · exact holds.addresses b (List.mem_append_right _ old)

/-- **Push adds the block**, whichever of the two stacks takes it. -/
theorem Holds.push {a : Nat} (holds : Holds m fl blocks) (address : 0 < a ∧ a < 2 ^ 64)
    (apart : ∀ b ∈ blocks, a + 8 ≤ b ∨ b + 8 ≤ a) :
    ∃ blocks', blocks'.Perm (a :: blocks) ∧
      Holds (freeListPush fl m a).2 (freeListPush fl m a).1 blocks' := by
  by_cases room : fl.magCount < magSize
  · obtain ⟨same, pushed⟩ := holds.push_room address room
    exact ⟨a :: blocks, .refl _, same.symm ▸ pushed⟩
  · obtain ⟨chain, rfl, pushed⟩ := holds.push_full address room apart
    exact ⟨_, List.perm_middle, pushed⟩

end FreeList

end BcAllocators
