import BcAllocators.Slab.Client
import BcAllocators.TypedArray.Refinement

/-!
# The pool without the record of its clients

The results about slabs and typed arrays are about a pool whose state carries more
than the code has: what its clients hold, and whether it has kept its contract.
The code of a slab or of an array does not read that record. A map that forgets it
(`PoolApi.Forgets`) commutes with each of their functions, so a run with the
record is a run of the code alone, on the pool itself, with the same results and
the same memory (`slab_reachable_forgets`, `array_reachable_forgets`).

The pool of `bc_allocators_pool.c` is the pool of its clients without the record
(`clientApi_forgets`).
-/

set_option autoImplicit false

namespace BcAllocators

open Machine

variable {σ τ : Type} {pool : PoolApi σ} {plain : PoolApi τ} {forget : σ → τ}

/-! ## Forgetting -/

/-- The functions of a pool do on the states without a record what those of
another pool do on the states with it. -/
structure PoolApi.Forgets (pool : PoolApi σ) (plain : PoolApi τ) (forget : σ → τ) : Prop where
  memory : ∀ s, plain.memory (forget s) = pool.memory s
  setMemory : ∀ s m, plain.setMemory (forget s) m = forget (pool.setMemory s m)
  allocate : ∀ s size, plain.allocate (forget s) size =
    Prod.map forget id (pool.allocate s size)
  reallocate : ∀ s ptr newSize, plain.reallocate (forget s) ptr newSize =
    Prod.map forget id (pool.reallocate s ptr newSize)
  free : ∀ s ptr, plain.free (forget s) ptr = forget (pool.free s ptr)

/-- **The pool of a client is the pool of the code**, with a record. -/
theorem clientApi_forgets (core : BcCore) :
    (clientApi core).Forgets (poolApi core) fun c => c.state.world where
  memory _ := rfl
  setMemory _ _ := rfl
  allocate _ _ := rfl
  reallocate _ _ _ := rfl
  free _ _ := rfl

namespace PoolApi.Forgets

variable (forgets : pool.Forgets plain forget) {s t : σ} {size : Nat} {answer : PtrResult}

include forgets

theorem allocate_eq (allocated : pool.allocate s size = (t, answer)) :
    plain.allocate (forget s) size = (forget t, answer) := by
  rw [forgets.allocate, allocated]
  rfl

end PoolApi.Forgets

variable (forgets : pool.Forgets plain forget) (s : σ) (slab : Nat)

include forgets

/-! ## Slabs -/

theorem allocateNewPage_forgets : allocateNewPage plain (forget s) slab =
    Prod.map forget id (allocateNewPage pool s slab) := by
  rcases first : pool.allocate s sizeofSlabPage with ⟨s₁, page⟩
  rcases second : pool.allocate s₁
    (wmul (slabObjectsPerSlab (pool.memory s₁) slab) (slabObjectSize (pool.memory s₁) slab))
    with ⟨s₂, objects⟩
  simp only [allocateNewPage, first, forgets.allocate_eq first, forgets.memory, second,
    forgets.allocate_eq second, forgets.setMemory, forgets.free]
  split_ifs <;> rfl

theorem slabCreate_forgets (memory objectSize objectsPerSlab : Nat) :
    slabCreate plain (forget s) memory objectSize objectsPerSlab =
      Prod.map forget id (slabCreate pool s memory objectSize objectsPerSlab) := by
  rcases first : pool.allocate s sizeofSlab with ⟨s₁, slab⟩
  simp only [slabCreate, first, forgets.allocate_eq first, forgets.memory, forgets.setMemory,
    allocateNewPage_forgets forgets, Prod.map_fst, Prod.map_snd, id_eq, forgets.free]
  split_ifs <;> rfl

theorem destroyPages_forgets (fuel page : Nat) :
    destroyPages plain fuel (forget s) page = (destroyPages pool fuel s page).map forget := by
  induction fuel generalizing s page with
  | zero => rfl
  | succ fuel ih =>
      simp only [destroyPages, forgets.memory, forgets.free]
      split_ifs
      · rfl
      · exact ih _ _

theorem slabDestroy_forgets :
    slabDestroy plain (forget s) slab = (slabDestroy pool s slab).map forget := by
  simp only [slabDestroy, forgets.memory, destroyPages_forgets forgets]
  cases destroyPages pool (2 ^ 64) s (slabPages (pool.memory s) slab) with
  | none => rfl
  | some t => exact congrArg some (forgets.free t slab)

theorem slabAllocate_forgets :
    slabAllocate plain (forget s) slab = Prod.map forget id (slabAllocate pool s slab) := by
  by_cases empty : slabFreeListHead (pool.memory s) slab = NULL
  · rcases added : allocateNewPage pool s slab with ⟨s₁, ready⟩
    simp only [slabAllocate, forgets.memory, if_pos empty, allocateNewPage_forgets forgets, added,
      Prod.map_apply, id_eq, forgets.setMemory]
    split_ifs <;> rfl
  · simp only [slabAllocate, forgets.memory, if_neg empty, forgets.setMemory]
    split_ifs <;> rfl

theorem slabFree_forgets (ptr : Nat) :
    slabFree plain (forget s) slab ptr = forget (slabFree pool s slab ptr) := by
  simp only [slabFree, forgets.memory, forgets.setMemory]

theorem neighbour_forgets (call : PoolCall) :
    plain.neighbour (forget s) call = forget (pool.neighbour s call) := by
  cases call with
  | allocate size => exact congrArg Prod.fst (forgets.allocate s size)
  | reallocate ptr newSize => exact congrArg Prod.fst (forgets.reallocate s ptr newSize)
  | free ptr => exact forgets.free s ptr
  | write address bytes =>
      simp only [PoolApi.neighbour, forgets.memory, forgets.setMemory]

omit forgets

/-- The code that a call of a slab runs. -/
def SlabCall.run (pool : PoolApi σ) (slab : Nat) (s : σ) : SlabCall → σ × PtrResult
  | .allocate => slabAllocate pool s slab
  | .free ptr => (slabFree pool s slab ptr, ⟨true, NULL⟩)
  | .write address bytes =>
      (pool.setMemory s (storeBytes (pool.memory s) address bytes), ⟨true, NULL⟩)
  | .neighbour call => (pool.neighbour s call, ⟨true, NULL⟩)

/-- The code of a slab, on a pool without a record. -/
def slabCode (pool : PoolApi σ) (objectSize objectsPerSlab slab : Nat) : System σ SlabEvent where
  Start s := ∃ s₀ memory, slabCreate pool s₀ memory objectSize objectsPerSlab = (s, ⟨true, slab⟩)
  Next s event s' := event.call.run pool slab s = (s', event.result)

/-- A call of a client runs its code. -/
theorem SlabRun.perform_run (t : SlabRun σ) (pool : PoolApi σ) (view : PoolView σ)
    (call : SlabCall) :
    call.run pool t.slab t.pool =
        ((t.perform pool view call).1.pool, (t.perform pool view call).2) ∧
      (t.perform pool view call).1.slab = t.slab := by
  cases call with
  | allocate =>
      rw [SlabRun.perform, SlabCall.run, Prod.mk.eta]
      exact ⟨rfl, rfl⟩
  | free ptr =>
      rw [SlabRun.perform, SlabCall.run]
      exact ⟨rfl, rfl⟩
  | write address bytes =>
      rw [SlabRun.perform, SlabCall.run]
      exact ⟨rfl, rfl⟩
  | neighbour call =>
      rw [SlabRun.perform, SlabCall.run]
      exact ⟨rfl, rfl⟩

theorem SlabCall.run_forgets (forgets : pool.Forgets plain forget) (call : SlabCall) :
    call.run plain slab (forget s) = Prod.map forget id (call.run pool slab s) := by
  cases call with
  | allocate => exact slabAllocate_forgets forgets s slab
  | free ptr => exact congrArg (·, _) (slabFree_forgets forgets s slab ptr)
  | write address bytes =>
      simp only [SlabCall.run, forgets.memory, forgets.setMemory, Prod.map_apply, id_eq]
  | neighbour call => exact congrArg (·, _) (neighbour_forgets forgets s call)

section slabRuns

variable (forgets : pool.Forgets plain forget) {view : PoolView σ} {objectSize objectsPerSlab : Nat}
  {t t' : SlabRun σ}

include forgets

/-- **A run of clients of a slab is a run of the code of the slab** on the pool
without the record, with the same results. -/
theorem slab_run_forgets {events : List SlabEvent}
    (run : (slabSystem pool view objectSize objectsPerSlab).Run t events t') :
    (slabCode plain objectSize objectsPerSlab t.slab).Run (forget t.pool) events
      (forget t'.pool) ∧ t'.slab = t.slab := by
  have steps : ∀ {u u' : SlabRun σ} {event : SlabEvent} {s : τ},
      s = forget u.pool ∧ u.slab = t.slab →
      (slabSystem pool view objectSize objectsPerSlab).Next u event u' →
      ∃ s', (slabCode plain objectSize objectsPerSlab t.slab).Next s event s' ∧
        s' = forget u'.pool ∧ u'.slab = t.slab := by
    rintro u u' event _ ⟨rfl, same⟩ ⟨_, _, performed⟩
    obtain ⟨ran, slab⟩ := u.perform_run pool view event.call
    rw [performed] at ran slab
    refine ⟨forget u'.pool, ?_, rfl, slab.trans same⟩
    change event.call.run plain t.slab (forget u.pool) = (forget u'.pool, event.result)
    rw [SlabCall.run_forgets _ _ forgets, ← same, ran]
    rfl
  obtain ⟨s, follows, rfl, slab⟩ := run.simulate
    (slabCode plain objectSize objectsPerSlab t.slab)
    (fun (u : SlabRun σ) s => s = forget u.pool ∧ u.slab = t.slab) steps ⟨rfl, rfl⟩
  exact ⟨follows, slab⟩

/-- **What clients of a slab can reach, the code of the slab reaches** on the pool
without the record. -/
theorem slab_reachable_forgets
    (reachable : (slabSystem pool view objectSize objectsPerSlab).Reachable t) :
    (slabCode plain objectSize objectsPerSlab t.slab).Reachable (forget t.pool) := by
  obtain ⟨u, events, ⟨s, memory, _, _, created, _, _⟩, run⟩ := reachable
  obtain ⟨follows, slab⟩ := slab_run_forgets forgets run
  refine ⟨forget u.pool, events, ⟨forget s, memory, ?_⟩, slab ▸ follows⟩
  rw [slabCreate_forgets forgets, created, slab]
  rfl

end slabRuns

/-! ## Typed arrays -/

/-- An array in another pool. -/
abbrev ArrayState.map (change : σ → τ) (t : ArrayState σ) : ArrayState τ :=
  ⟨change t.pool, t.array⟩

section array

variable (core : BcCore) {elementSize : Nat} (t : ArrayState σ)

include forgets

theorem requestData_forgets (newSize : Nat) : requestData plain (t.map forget) newSize =
    Prod.map forget id (requestData pool t newSize) := by
  by_cases absent : t.array.data = NULL
  · simp only [requestData, if_pos absent]
    exact forgets.allocate t.pool newSize
  · simp only [requestData, if_neg absent]
    exact forgets.reallocate t.pool t.array.data newSize

theorem arrayReserve_forgets (newCap : Nat) :
    arrayReserve core plain elementSize (t.map forget) newCap =
      Prod.map (ArrayState.map forget) id (arrayReserve core pool elementSize t newCap) := by
  by_cases enough : newCap ≤ t.array.capacity
  · simp only [arrayReserve, if_pos enough]
    rfl
  · simp only [arrayReserve, if_neg enough]
    cases core.safeMultiply newCap elementSize with
    | none => rfl
    | some newSize =>
        simp only [requestData_forgets forgets, Prod.map_fst, Prod.map_snd, id_eq]
        split_ifs <;> rfl

theorem storeLast_forgets (value : Element elementSize) :
    storeLast plain elementSize (t.map forget) value =
      (storeLast pool elementSize t value).map forget := by
  simp only [storeLast, ArrayState.map, forgets.memory, forgets.setMemory]

theorem arrayPush_forgets (value : Element elementSize) :
    arrayPush core plain elementSize (t.map forget) value =
      Prod.map (ArrayState.map forget) id (arrayPush core pool elementSize t value) := by
  by_cases room : t.array.length < t.array.capacity
  · simp only [arrayPush, if_pos room]
    exact congrArg (·, true) (storeLast_forgets forgets t value)
  · rcases grown : arrayReserve core pool elementSize t
      (if t.array.capacity = 0 then 8 else wmul t.array.capacity 2) with ⟨u, done⟩
    simp only [arrayPush, if_neg room, arrayReserve_forgets forgets, grown, Prod.map_apply, id_eq]
    split_ifs
    · rfl
    · exact congrArg (·, true) (storeLast_forgets forgets u value)

theorem makeRoom_forgets (fuel required : Nat) :
    makeRoom core plain elementSize fuel (t.map forget) required =
      (makeRoom core pool elementSize fuel t required).map
        (Prod.map (ArrayState.map forget) id) := by
  by_cases enough : required ≤ t.array.capacity
  · simp only [makeRoom, if_pos enough]
    rfl
  · simp only [makeRoom, if_neg enough]
    cases doubleCapacity fuel (startCapacity t.array.capacity) required with
    | none => rfl
    | some newCap => exact congrArg some (arrayReserve_forgets forgets core t newCap)

theorem copyElements_forgets (src count required : Nat) :
    copyElements core plain elementSize (t.map forget) src count required =
      (copyElements core pool elementSize t src count required).map forget := by
  simp only [copyElements, ArrayState.map, forgets.memory, forgets.setMemory]

theorem arrayAppendBulk_forgets (fuel src count : Nat) :
    arrayAppendBulk core plain elementSize fuel (t.map forget) src count =
      (arrayAppendBulk core pool elementSize fuel t src count).map
        (Prod.map (ArrayState.map forget) id) := by
  by_cases nothing : count = 0
  · simp only [arrayAppendBulk, if_pos nothing]
    rfl
  · by_cases wraps : wadd t.array.length count < t.array.length
    · simp only [arrayAppendBulk, if_neg nothing, if_pos wraps]
      rfl
    · simp only [arrayAppendBulk, if_neg nothing, if_neg wraps,
        makeRoom_forgets forgets]
      cases makeRoom core pool elementSize fuel t (wadd t.array.length count) with
      | none => rfl
      | some room =>
          simp only [Option.map_some, Prod.map_fst, Prod.map_snd, id_eq]
          split_ifs
          · rfl
          · exact congrArg (fun u => some (u, true))
              (copyElements_forgets forgets core _ src count _)

theorem arrayPerform_forgets (fuel : Nat) (call : ArrayCall elementSize) :
    (t.map forget).perform core plain fuel call =
      (t.perform core pool fuel call).map (Prod.map (ArrayState.map forget) id) := by
  cases call with
  | push value => exact congrArg some (arrayPush_forgets forgets core t value)
  | appendBulk src count => exact arrayAppendBulk_forgets forgets core t fuel src count
  | reserve newCap => exact congrArg some (arrayReserve_forgets forgets core t newCap)
  | clear => rfl
  | destroy =>
      simp only [ArrayState.perform, arrayDestroy, ArrayState.map, forgets.free, Option.map_some,
        Prod.map_apply, id_eq]
  | neighbour call =>
      simp only [ArrayState.perform, ArrayState.map, neighbour_forgets forgets, Option.map_some,
        Prod.map_apply, id_eq]

end array

/-- The code of a typed array, on a pool without a record. -/
def arrayCode (core : BcCore) (pool : PoolApi σ) (elementSize : Nat) :
    System (ArrayState σ) (ListEvent elementSize) where
  Start t := t.array = .empty
  Next t event t' := ∃ call : ArrayCall elementSize, event.op = call.op (pool.memory t.pool) ∧
    ∃ fuel, t.perform core pool fuel call = some (t', event.done)

section arrayRuns

variable (forgets : pool.Forgets plain forget) {view : PoolView σ} {core : BcCore}
  {elementSize : Nat} {t t' : ArrayState σ}

include forgets

/-- **A run of clients of an array is a run of the code of the array** on the pool
without the record, with the same results. -/
theorem array_run_forgets {events : List (ListEvent elementSize)}
    (run : (arraySystem core pool view elementSize).Run t events t') :
    (arrayCode core plain elementSize).Run (t.map forget) events (t'.map forget) := by
  have steps : ∀ {u u' : ArrayState σ} {event : ListEvent elementSize} {r : ArrayState τ},
      r = u.map forget → (arraySystem core pool view elementSize).Next u event u' →
      ∃ r', (arrayCode core plain elementSize).Next r event r' ∧ r' = u'.map forget := by
    rintro u u' event _ rfl ⟨_, call, _, op, fuel, performed⟩
    refine ⟨u'.map forget, ⟨call, op.trans ?_, fuel, ?_⟩, rfl⟩
    · exact congrArg call.op (forgets.memory u.pool).symm
    · rw [arrayPerform_forgets forgets, performed]
      rfl
  obtain ⟨r, follows, rfl⟩ := run.simulate (arrayCode core plain elementSize)
    (fun u r => r = u.map forget) steps rfl
  exact follows

/-- **What clients of an array can reach, the code of the array reaches** on the
pool without the record. -/
theorem array_reachable_forgets
    (reachable : (arraySystem core pool view elementSize).Reachable t) :
    (arrayCode core plain elementSize).Reachable (t.map forget) := by
  obtain ⟨u, events, ⟨_, empty⟩, run⟩ := reachable
  exact ⟨u.map forget, events, empty, array_run_forgets forgets run⟩

end arrayRuns

end BcAllocators
