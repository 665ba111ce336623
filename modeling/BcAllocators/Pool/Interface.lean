import BcAllocators.Pool.Allocator

/-!
# The pool as its users see it

The slab and the typed array are clients of the pool: they call three of its
functions and read and write memory. `PoolApi` is what they call, over any state
that carries a memory, so that the code of a client is one definition for the
pool itself (`poolApi`), and for a pool with a record of what its clients hold.

What a client relies on is a contract (`PoolContract`), stated about such a
record (`PoolView`): the blocks that are held, each with the size asked for and
the size it can be used for. An allocation is refused, or gives a block apart
from every other; a reallocation is refused, or keeps the bytes that both sizes
have; a release takes back the one block; and none of them touches the bytes of
other blocks, or memory that does not belong to the pool. A pool may break the
contract; `Trusted` says that it has not done so up to now.
-/

set_option autoImplicit false

namespace BcAllocators

open Machine

/-- The functions of the pool that its users call, and the memory that they use
directly. -/
structure PoolApi (σ : Type) where
  memory : σ → Memory
  setMemory : σ → Memory → σ
  allocate : σ → Nat → σ × PtrResult
  reallocate : σ → Nat → Nat → σ × PtrResult
  free : σ → Nat → σ

/-- The functions of `bc_allocators_pool.c`. -/
def poolApi (core : BcCore) : PoolApi World where
  memory w := w.mem
  setMemory w m := { w with mem := m }
  allocate := poolAllocate core
  reallocate := poolReallocate core
  free := poolFree

/-! ## Blocks that are held -/

/-- A block in the hands of a user: its pointer, the size last asked for, and the
bytes that may be used. -/
structure Grant where
  ptr : Nat
  requested : Nat
  usable : Nat
deriving DecidableEq, Repr

/-- The bytes of a block. -/
def Grant.extent (g : Grant) : Extent := ⟨g.ptr, g.usable⟩

/-- The blocks without the one at a pointer. -/
def dropGrant (grants : List Grant) (ptr : Nat) : List Grant :=
  grants.filter fun g => g.ptr ≠ ptr

/-- What is known of a pool besides its state: the blocks held, the memory that
it manages, the states that it can be in, and whether it has kept its contract. -/
structure PoolView (σ : Type) where
  grants : σ → List Grant
  territory : Set Nat
  Sound : σ → Prop
  Trusted : σ → Prop

/-- A byte that an operation of the pool leaves alone while some blocks are held. -/
def PoolView.Spared {σ : Type} (view : PoolView σ) (grants : List Grant) (a : Nat) : Prop :=
  a ∉ view.territory ∨ ∃ g ∈ grants, a ∈ g.extent.bytes

/-- Between two states the bytes of some blocks, and those outside the pool, are
the same. -/
def Keeps {σ : Type} (api : PoolApi σ) (view : PoolView σ) (grants : List Grant) (s s' : σ) :
    Prop :=
  ∀ a, view.Spared grants a → api.memory s' a = api.memory s a

section Outcomes

variable {σ : Type} (api : PoolApi σ) (view : PoolView σ)

/-- The outcomes of an allocation. -/
def AllocateSpec (s : σ) (size : Nat) (result : σ × PtrResult) : Prop :=
  Keeps api view (view.grants s) s result.1 ∧
    (result.2 = .failed ∧ view.grants result.1 = view.grants s ∨
      ∃ g, result.2 = ⟨true, g.ptr⟩ ∧ g.requested = size ∧
        view.grants result.1 = g :: view.grants s)

/-- The outcomes of a reallocation of a block that is held. -/
def ReallocateSpec (s : σ) (g : Grant) (size : Nat) (result : σ × PtrResult) : Prop :=
  result.2 = .failed ∧ view.grants result.1 = view.grants s ∧
      Keeps api view (view.grants s) s result.1 ∨
    ∃ g', result.2 = ⟨true, g'.ptr⟩ ∧ g'.requested = size ∧
      view.grants result.1 = g' :: dropGrant (view.grants s) g.ptr ∧
      Keeps api view (dropGrant (view.grants s) g.ptr) s result.1 ∧
      ∀ i < min g.requested size, api.memory result.1 (g'.ptr + i) = api.memory s (g.ptr + i)

/-- **The contract of the pool** with its users. -/
structure PoolContract : Prop where
  memory_setMemory : ∀ s m, api.memory (api.setMemory s m) = m
  setMemory_memory : ∀ s, api.setMemory s (api.memory s) = s
  setMemory_setMemory : ∀ s m m', api.setMemory (api.setMemory s m) m' = api.setMemory s m'
  trusted_setMemory : ∀ {s m}, view.Trusted (api.setMemory s m) ↔ view.Trusted s
  trusted_allocate : ∀ {s size}, view.Trusted (api.allocate s size).1 → view.Trusted s
  trusted_reallocate : ∀ {s ptr size}, view.Trusted (api.reallocate s ptr size).1 → view.Trusted s
  trusted_free : ∀ {s ptr}, view.Trusted (api.free s ptr) ↔ view.Trusted s
  /-- Blocks are apart. -/
  apart : ∀ {s}, view.Sound s → ((view.grants s).map Grant.extent).Pairwise Extent.Apart
  /-- A block has an address and holds what was asked for, which is not more than
  half the address space. -/
  bounds : ∀ {s}, view.Sound s → ∀ g ∈ view.grants s, 0 < g.ptr ∧ 0 < g.requested ∧
    g.requested ≤ g.usable ∧ g.usable < 2 ^ 63 ∧ g.extent.stop < 2 ^ 64 ∧
    g.extent.bytes ⊆ view.territory
  /-- A user may write a block. -/
  write : ∀ {s m} {g : Grant}, view.Sound s → g ∈ view.grants s →
    ChangesOnly g.extent.bytes (api.memory s) m →
    view.Sound (api.setMemory s m) ∧ view.grants (api.setMemory s m) = view.grants s
  allocate : ∀ {s size}, view.Sound s → size < 2 ^ 64 →
    view.Trusted (api.allocate s size).1 →
    view.Sound (api.allocate s size).1 ∧ AllocateSpec api view s size (api.allocate s size)
  reallocate : ∀ {s size} {g : Grant}, view.Sound s → g ∈ view.grants s → size < 2 ^ 64 →
    view.Trusted (api.reallocate s g.ptr size).1 →
    view.Sound (api.reallocate s g.ptr size).1 ∧
      ReallocateSpec api view s g size (api.reallocate s g.ptr size)
  free : ∀ {s} {g : Grant}, view.Sound s → g ∈ view.grants s → view.Sound (api.free s g.ptr) ∧
    view.grants (api.free s g.ptr) = dropGrant (view.grants s) g.ptr ∧
    Keeps api view (dropGrant (view.grants s) g.ptr) s (api.free s g.ptr)
  free_null : ∀ {s}, view.Sound s → view.Sound (api.free s NULL) ∧
    view.grants (api.free s NULL) = view.grants s ∧
    Keeps api view (view.grants s) s (api.free s NULL)

end Outcomes

/-! ## Consequences -/

namespace Keeps

variable {σ : Type} {api : PoolApi σ} {view : PoolView σ} {grants grants' : List Grant}
variable {s s' s'' : σ}

theorem refl (s : σ) : Keeps api view grants s s := fun _ _ => rfl

theorem trans (first : Keeps api view grants s s') (second : Keeps api view grants s' s'') :
    Keeps api view grants s s'' :=
  fun a spared => (second a spared).trans (first a spared)

theorem mono (keeps : Keeps api view grants s s') (fewer : ∀ g ∈ grants', g ∈ grants) :
    Keeps api view grants' s s' := by
  intro a spared
  apply keeps a
  cases spared with
  | inl outside => exact Or.inl outside
  | inr held =>
      obtain ⟨g, member, inside⟩ := held
      exact Or.inr ⟨g, fewer g member, inside⟩

/-- The bytes of a block. -/
theorem block (keeps : Keeps api view grants s s') {g : Grant} (member : g ∈ grants) :
    ∀ a ∈ g.extent.bytes, api.memory s' a = api.memory s a :=
  fun a inside => keeps a (Or.inr ⟨g, member, inside⟩)

end Keeps

/-- Dropping one block leaves the others. -/
theorem dropGrant_cons {g : Grant} {gs : List Grant} (others : ∀ h ∈ gs, h.ptr ≠ g.ptr) :
    dropGrant (g :: gs) g.ptr = gs := by
  unfold dropGrant
  rw [List.filter_cons_of_neg (by simp)]
  exact List.filter_eq_self.mpr fun h member => by simpa using others h member

namespace PoolContract

variable {σ : Type} {api : PoolApi σ} {view : PoolView σ} {s : σ} {g h : Grant}

/-- Distinct blocks are apart. -/
theorem apart_of_ne (contract : PoolContract api view) (sound : view.Sound s)
    (hg : g ∈ view.grants s) (hh : h ∈ view.grants s) (different : g ≠ h) :
    g.extent.Apart h.extent := by
  have pairwise : (view.grants s).Pairwise fun g h => g.extent.Apart h.extent :=
    List.pairwise_map.mp (contract.apart sound)
  have : Std.Symm fun g h : Grant => g.extent.Apart h.extent := ⟨fun _ _ apart => apart.symm⟩
  exact pairwise.forall hg hh different

/-- A pointer belongs to one block. -/
theorem ptr_injective (contract : PoolContract api view) (sound : view.Sound s)
    (hg : g ∈ view.grants s) (hh : h ∈ view.grants s) (same : g.ptr = h.ptr) : g = h := by
  by_contra different
  have apart := contract.apart_of_ne sound hg hh different
  have := contract.bounds sound g hg
  have := contract.bounds sound h hh
  unfold Extent.Apart Extent.stop Grant.extent at apart
  dsimp only at apart
  omega

/-- The blocks that are left are those at other pointers. -/
theorem mem_drop (contract : PoolContract api view) (sound : view.Sound s)
    (hg : g ∈ view.grants s) :
    h ∈ dropGrant (view.grants s) g.ptr ↔ h ∈ view.grants s ∧ h ≠ g := by
  unfold dropGrant
  rw [List.mem_filter]
  constructor
  · rintro ⟨member, other⟩
    refine ⟨member, ?_⟩
    rintro rfl
    simp at other
  · rintro ⟨member, other⟩
    refine ⟨member, ?_⟩
    simp only [ne_eq, decide_not, Bool.not_eq_eq_eq_not, Bool.not_true, decide_eq_false_iff_not]
    exact fun same => other (contract.ptr_injective sound member hg same)

/-- No block is held twice. -/
theorem grants_nodup (contract : PoolContract api view) (sound : view.Sound s) :
    (view.grants s).Nodup := by
  refine (List.pairwise_map.mp (contract.apart sound)).imp_of_mem fun {a b} ha _ apart => ?_
  rintro rfl
  have bounds := contract.bounds sound a ha
  unfold Extent.Apart Extent.stop Grant.extent at apart
  dsimp only at apart
  omega

/-- The other blocks are at other pointers. -/
theorem others_ne (contract : PoolContract api view) (sound : view.Sound s) {gs : List Grant}
    (held : (view.grants s).Perm (g :: gs)) : ∀ h ∈ gs, h.ptr ≠ g.ptr := by
  have nodup := contract.grants_nodup sound
  intro h member same
  have equal := contract.ptr_injective sound
    (held.mem_iff.mpr (List.mem_cons_of_mem g member)) (held.mem_iff.mpr List.mem_cons_self) same
  exact (List.nodup_cons.mp (held.nodup_iff.mp nodup)).1 (equal ▸ member)

/-- No block is at the null pointer. -/
theorem drop_null (contract : PoolContract api view) (sound : view.Sound s) :
    dropGrant (view.grants s) NULL = view.grants s := by
  apply List.filter_eq_self.mpr
  intro h member
  have address := (contract.bounds sound h member).1
  exact decide_eq_true (Nat.ne_of_gt address)

/-- A write to one block keeps the others. -/
theorem write_keeps (contract : PoolContract api view) (sound : view.Sound s)
    (hg : g ∈ view.grants s) {gs : List Grant} (others : ∀ h ∈ gs, h ∈ view.grants s ∧ g ≠ h)
    {m : Memory} (changes : ChangesOnly g.extent.bytes (api.memory s) m) :
    Keeps api view gs s (api.setMemory s m) := by
  intro a spared
  refine (congrFun (contract.memory_setMemory s m) a).trans (changes a fun inside => ?_)
  cases spared with
  | inl outside => exact outside ((contract.bounds sound g hg).2.2.2.2.2 inside)
  | inr held =>
      obtain ⟨h, member, within⟩ := held
      have apart := contract.apart_of_ne sound hg (others h member).1 (others h member).2
      exact apart.disjoint inside within

/-- A user may write all the blocks that it holds. -/
theorem write_all (contract : PoolContract api view) (sound : view.Sound s) {gs : List Grant}
    (held : ∀ g ∈ gs, g ∈ view.grants s) {m : Memory}
    (changes : ChangesOnly {a | ∃ g ∈ gs, a ∈ g.extent.bytes} (api.memory s) m) :
    view.Sound (api.setMemory s m) ∧ view.grants (api.setMemory s m) = view.grants s := by
  classical
  induction gs generalizing m with
  | nil =>
      have same : m = api.memory s := funext fun a => changes a (by simp)
      rw [same, contract.setMemory_memory]
      exact ⟨sound, rfl⟩
  | cons g rest ih =>
      -- the other blocks are written first, then the bytes of this one
      let m₁ : Memory := fun a => if a ∈ g.extent.bytes then api.memory s a else m a
      have first : ChangesOnly {a | ∃ h ∈ rest, a ∈ h.extent.bytes} (api.memory s) m₁ := by
        intro a outside
        by_cases inside : a ∈ g.extent.bytes
        · exact if_pos inside
        · refine (if_neg inside).trans (changes a ?_)
          rintro ⟨h, member, within⟩
          rcases List.mem_cons.mp member with rfl | inRest
          · exact inside within
          · exact outside ⟨h, inRest, within⟩
      obtain ⟨sound₁, same₁⟩ := ih (fun h member => held h (List.mem_cons_of_mem g member)) first
      have second : ChangesOnly g.extent.bytes (api.memory (api.setMemory s m₁)) m := by
        rw [contract.memory_setMemory]
        intro a outside
        exact (if_neg outside).symm
      have written := contract.write sound₁ (same₁ ▸ held g List.mem_cons_self) second
      rwa [contract.setMemory_setMemory, same₁] at written

end PoolContract

end BcAllocators
