import BcAllocators.Pool.Client
import BcAllocators.Pool.Interface

/-!
# Neighbours in a pool

A client of the pool shares it with others, who make calls of their own between
its calls. They free, reallocate and write only blocks that are not the client's.
Whatever they do, a pool that keeps its contract leaves the client its blocks and
the bytes in them (`PoolContract.neighbour`).
-/

set_option autoImplicit false

namespace BcAllocators

open Machine

variable {σ : Type} {pool : PoolApi σ} {view : PoolView σ} {s s' : σ}
variable {taken rest : List Grant} {g : Grant}

/-- A call of another client. -/
def PoolApi.neighbour (pool : PoolApi σ) (s : σ) : PoolCall → σ
  | .allocate size => (pool.allocate s size).1
  | .reallocate ptr newSize => (pool.reallocate s ptr newSize).1
  | .free ptr => pool.free s ptr
  | .write address bytes => pool.setMemory s (storeBytes (pool.memory s) address bytes)

/-- A block that is held, but not by the client. -/
def PoolView.Foreign (view : PoolView σ) (s : σ) (taken : List Grant) (g : Grant) : Prop :=
  g ∈ view.grants s ∧ g ∉ taken

/-- The calls of others that leave the blocks of the client alone. -/
def PoolView.Neighbourly (view : PoolView σ) (s : σ) (taken : List Grant) : PoolCall → Prop
  | .allocate size => size < 2 ^ 64
  | .reallocate ptr newSize => newSize < 2 ^ 64 ∧ ∃ g, view.Foreign s taken g ∧ g.ptr = ptr
  | .free ptr => ptr = NULL ∨ ∃ g, view.Foreign s taken g ∧ g.ptr = ptr
  | .write address bytes => ∃ g, view.Foreign s taken g ∧ g.ptr ≤ address ∧
      address + bytes.length ≤ g.extent.stop

/-- The client still has its blocks, with their bytes. -/
structure Undisturbed (pool : PoolApi σ) (view : PoolView σ) (taken : List Grant) (s s' : σ) :
    Prop where
  sound : view.Sound s'
  held : ∃ rest, (view.grants s').Perm (taken ++ rest)
  keeps : Keeps pool view taken s s'

/-- Dropping a block of others keeps those of the client. -/
theorem PoolContract.drop_foreign (contract : PoolContract pool view) (sound : view.Sound s)
    (held : (view.grants s).Perm (taken ++ rest)) (other : view.Foreign s taken g) :
    (dropGrant (view.grants s) g.ptr).Perm (taken ++ dropGrant rest g.ptr) := by
  unfold dropGrant
  refine (held.filter _).trans ?_
  rw [List.filter_append]
  refine List.Perm.append_right _ (.of_eq ?_)
  refine List.filter_eq_self.mpr fun h member => ?_
  -- a block of the client at the same pointer would be the block of the other
  have inHeld : h ∈ view.grants s := held.mem_iff.mpr (List.mem_append_left _ member)
  have different : h.ptr ≠ g.ptr := by
    intro same
    exact other.2 (contract.ptr_injective sound inHeld other.1 same ▸ member)
  simpa using different

/-- **Neighbours leave the client its blocks.** -/
theorem PoolContract.neighbour (contract : PoolContract pool view) (sound : view.Sound s)
    (held : (view.grants s).Perm (taken ++ rest)) {call : PoolCall}
    (allowed : view.Neighbourly s taken call) (trusted : view.Trusted (pool.neighbour s call)) :
    Undisturbed pool view taken s (pool.neighbour s call) := by
  have own : ∀ h ∈ taken, h ∈ view.grants s :=
    fun h member => held.mem_iff.mpr (List.mem_append_left rest member)
  cases call with
  | allocate size =>
      obtain ⟨sound', keeps, outcome⟩ := contract.allocate sound allowed trusted
      refine ⟨sound', ?_, keeps.mono own⟩
      rcases outcome with ⟨_, same⟩ | ⟨g, _, _, more⟩
      · exact ⟨rest, (List.Perm.of_eq same).trans held⟩
      · exact ⟨g :: rest, (List.Perm.of_eq more).trans
          ((held.cons g).trans List.perm_middle.symm)⟩
  | reallocate ptr newSize =>
      obtain ⟨word, g, other, rfl⟩ := allowed
      obtain ⟨sound', outcome⟩ := contract.reallocate sound other.1 word trusted
      have dropped := contract.drop_foreign sound held other
      rcases outcome with ⟨_, same, keeps⟩ | ⟨g', _, _, moved, keeps, _⟩
      · exact ⟨sound', ⟨rest, (List.Perm.of_eq same).trans held⟩, keeps.mono own⟩
      · refine ⟨sound', ⟨g' :: dropGrant rest g.ptr, ?_⟩, keeps.mono fun h member => ?_⟩
        · exact (List.Perm.of_eq moved).trans ((dropped.cons g').trans List.perm_middle.symm)
        · exact dropped.mem_iff.mpr (List.mem_append_left _ member)
  | free ptr =>
      rcases allowed with rfl | ⟨g, other, rfl⟩
      · obtain ⟨sound', same, keeps⟩ := contract.free_null sound
        exact ⟨sound', ⟨rest, (List.Perm.of_eq same).trans held⟩, keeps.mono own⟩
      · obtain ⟨sound', left, keeps⟩ := contract.free sound other.1
        have dropped := contract.drop_foreign sound held other
        refine ⟨sound', ⟨dropGrant rest g.ptr, (List.Perm.of_eq left).trans dropped⟩, ?_⟩
        exact keeps.mono fun h member => dropped.mem_iff.mpr (List.mem_append_left _ member)
  | write address bytes =>
      obtain ⟨g, other, lower, upper⟩ := allowed
      have changes : ChangesOnly g.extent.bytes (pool.memory s)
          (storeBytes (pool.memory s) address bytes) := by
        refine (changesOnly_storeBytes _ _ _).mono fun b inside => ?_
        rw [Set.mem_Ico] at inside
        exact ⟨lower.trans inside.1, lt_of_lt_of_le inside.2 upper⟩
      obtain ⟨sound', same⟩ := contract.write sound other.1 changes
      refine ⟨sound', ⟨rest, (List.Perm.of_eq same).trans held⟩, ?_⟩
      exact contract.write_keeps sound other.1
        (fun h member => ⟨own h member, fun same => other.2 (same ▸ member)⟩) changes

end BcAllocators
