import BcAllocators.Pool.Interface

/-!
# A pool whose calls may fail

A pool may refuse a request for reasons of its own. `PoolApi.faulty` adds such
refusals to any pool: a list of flags goes with the state, and each allocation or
reallocation takes the next flag and, when it is set, fails and does nothing. A
pool with faults keeps the contract that the pool keeps (`PoolContract.faulty`).
-/

set_option autoImplicit false

namespace BcAllocators

variable {σ : Type} {api : PoolApi σ} {view : PoolView σ}

/-- A pool and the faults to come. -/
structure FaultyPool (σ : Type) where
  pool : σ
  faults : List Bool

namespace FaultyPool

/-- A call that fails when the next fault says so. -/
def attempt (c : FaultyPool σ) (call : σ → σ × PtrResult) : FaultyPool σ × PtrResult :=
  if c.faults.head? = some true then (⟨c.pool, c.faults.tail⟩, .failed)
  else (⟨(call c.pool).1, c.faults.tail⟩, (call c.pool).2)

/-- An attempt fails and does nothing, or is the call. -/
theorem attempt_cases (c : FaultyPool σ) (call : σ → σ × PtrResult) :
    c.attempt call = (⟨c.pool, c.faults.tail⟩, .failed) ∨
      c.attempt call = (⟨(call c.pool).1, c.faults.tail⟩, (call c.pool).2) := by
  unfold attempt
  split
  · exact Or.inl rfl
  · exact Or.inr rfl

end FaultyPool

/-- The functions of a pool, with faults. -/
def PoolApi.faulty (api : PoolApi σ) : PoolApi (FaultyPool σ) where
  memory c := api.memory c.pool
  setMemory c m := { c with pool := api.setMemory c.pool m }
  allocate c size := c.attempt fun s => api.allocate s size
  reallocate c ptr size := c.attempt fun s => api.reallocate s ptr size
  free c ptr := { c with pool := api.free c.pool ptr }

/-- A pool with faults is seen as the pool. -/
def PoolView.faulty (view : PoolView σ) : PoolView (FaultyPool σ) where
  grants c := view.grants c.pool
  territory := view.territory
  Sound c := view.Sound c.pool
  Trusted c := view.Trusted c.pool

/-- **Faults do not break the contract.** -/
theorem PoolContract.faulty (contract : PoolContract api view) :
    PoolContract api.faulty view.faulty where
  memory_setMemory c m := contract.memory_setMemory c.pool m
  setMemory_memory c := congrArg (FaultyPool.mk · c.faults) (contract.setMemory_memory c.pool)
  setMemory_setMemory c m m' :=
    congrArg (FaultyPool.mk · c.faults) (contract.setMemory_setMemory c.pool m m')
  trusted_setMemory := contract.trusted_setMemory
  trusted_allocate {c size} trusted := by
    change view.Trusted (c.attempt _).1.pool at trusted
    rcases c.attempt_cases fun s => api.allocate s size with same | same
    · rwa [same] at trusted
    · rw [same] at trusted
      exact contract.trusted_allocate trusted
  trusted_reallocate {c ptr size} trusted := by
    change view.Trusted (c.attempt _).1.pool at trusted
    rcases c.attempt_cases fun s => api.reallocate s ptr size with same | same
    · rwa [same] at trusted
    · rw [same] at trusted
      exact contract.trusted_reallocate trusted
  trusted_free := contract.trusted_free
  apart sound := contract.apart sound
  bounds sound := contract.bounds sound
  write sound held changes := contract.write sound held changes
  allocate {c size} sound word trusted := by
    change view.Trusted (c.attempt _).1.pool at trusted
    change view.Sound (c.attempt _).1.pool ∧ AllocateSpec _ _ c size (c.attempt _)
    rcases c.attempt_cases fun s => api.allocate s size with same | same
    · rw [same]
      exact ⟨sound, fun _ _ => rfl, Or.inl ⟨rfl, rfl⟩⟩
    · rw [same] at trusted ⊢
      exact contract.allocate sound word trusted
  reallocate {c size g} sound held word trusted := by
    change view.Trusted (c.attempt _).1.pool at trusted
    change view.Sound (c.attempt _).1.pool ∧ ReallocateSpec _ _ c g size (c.attempt _)
    rcases c.attempt_cases fun s => api.reallocate s g.ptr size with same | same
    · rw [same]
      exact ⟨sound, Or.inl ⟨rfl, rfl, fun _ _ => rfl⟩⟩
    · rw [same] at trusted ⊢
      exact contract.reallocate sound held word trusted
  free sound held := contract.free sound held
  free_null sound := contract.free_null sound

end BcAllocators
