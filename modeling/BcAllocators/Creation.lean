import BcAllocators.Context

/-!
# Creation and destruction of a context

A creation that succeeds has made three mappings, each admissible when it was
made, and the new context records their addresses and sizes
(`contextCreate_some`). A creation that fails has unmapped whatever it had
mapped (`contextCreate_none`).
-/

set_option autoImplicit false

namespace BcAllocators

open Machine

variable {core : BcCore} {platform : Platform} {kernel kernel' : Kernel} {m m' : Memory}

/-! ## Mappings -/

theorem platformMap_eq_some {size a : Nat} {answer : Option Nat} :
    platformMap platform kernel m size answer = some (kernel', m', a) ↔
      kernel.Admissible platform ⟨a, size⟩ ∧ answer = some a ∧
        kernel' = kernel.map ⟨a, size⟩ ∧ m' = fillBytes m a size 0 := by
  unfold platformMap
  cases granted : kernel.grant platform size answer with
  | none =>
      simp only [reduceCtorEq, false_iff, not_and]
      intro admissible answered
      rw [Kernel.grant_eq_some.mpr ⟨answered, admissible⟩] at granted
      simp at granted
  | some b =>
      obtain ⟨answered, admissible⟩ := Kernel.grant_eq_some.mp granted
      simp only [Option.some.injEq, Prod.mk.injEq]
      constructor
      · rintro ⟨rfl, rfl, rfl⟩
        exact ⟨admissible, answered, rfl, rfl⟩
      · rintro ⟨_, again, rfl, rfl⟩
        obtain rfl : b = a := Option.some.inj (answered.symm.trans again)
        exact ⟨rfl, rfl, rfl⟩

/-- Unmapping what was mapped last restores the mappings. -/
theorem Kernel.unmap_map (kernel : Kernel) (e : Extent) :
    ((kernel.map e).unmap e).mapped = kernel.mapped :=
  List.erase_cons_head ..

/-! ## A creation that succeeds -/

/-- The sizes that a creation asks for. -/
def regionSize (platform : Platform) (config : Option ContextConfig) : Nat :=
  roundUp (ContextConfig.effective config).maxPoolMemory platform.pageSize

def pageClassMapSize (platform : Platform) (config : Option ContextConfig) : Nat :=
  roundUp (regionSize platform config / platform.pageSize) platform.pageSize

def contextMapSize (platform : Platform) : Nat := roundUp sizeofContext platform.pageSize

/-- The configuration is one that the C structure can hold. -/
def ContextConfig.Word (config : Option ContextConfig) : Prop :=
  ∀ c, config = some c → c.maxPoolMemory < 2 ^ 64

theorem ContextConfig.effective_lt {config : Option ContextConfig}
    (word : ContextConfig.Word config) :
    (ContextConfig.effective config).maxPoolMemory < 2 ^ 64 := by
  cases config with
  | none => simp only [ContextConfig.effective, defaultMax]; decide
  | some c =>
      have small := word c rfl
      simp only [ContextConfig.effective]
      split
      · simp only [defaultMax]; decide
      · exact small

/-- What a successful creation has done. -/
structure Created (core : BcCore) (platform : Platform) (config : Option ContextConfig)
    (kernel : Kernel) (m : Memory) (kernel' : Kernel) (m' : Memory) (ctx : Context) : Prop where
  context : ctx = initContext core platform (ContextConfig.effective config) ctx.address
    ctx.region.base ctx.region.pageClassBase (regionSize platform config)
    (pageClassMapSize platform config) (contextMapSize platform)
  total_lt : regionSize platform config < 2 ^ 64
  address : kernel.Admissible platform ⟨ctx.address, contextMapSize platform⟩
  region : (kernel.map ⟨ctx.address, contextMapSize platform⟩).Admissible platform
    ⟨ctx.region.base, regionSize platform config⟩
  pageClass : ((kernel.map ⟨ctx.address, contextMapSize platform⟩).map
      ⟨ctx.region.base, regionSize platform config⟩).Admissible platform
    ⟨ctx.region.pageClassBase, pageClassMapSize platform config⟩
  kernel_eq : kernel' = ((kernel.map ⟨ctx.address, contextMapSize platform⟩).map
      ⟨ctx.region.base, regionSize platform config⟩).map
    ⟨ctx.region.pageClassBase, pageClassMapSize platform config⟩

/-- The sizes of a creation, as far as they are words. -/
theorem creationSizes (core : BcCore) (platform : Platform) {config : Option ContextConfig}
    (word : ContextConfig.Word config) :
    (core.alignUp (ContextConfig.effective config).maxPoolMemory platform.pageSize =
      if regionSize platform config < 2 ^ 64 then some (regionSize platform config) else none) ∧
    (regionSize platform config < 2 ^ 64 →
      core.alignUp (regionSize platform config / platform.pageSize) platform.pageSize =
        some (pageClassMapSize platform config)) ∧
    core.alignUp sizeofContext platform.pageSize = some (contextMapSize platform) := by
  have page : platform.pageSize < 2 ^ 64 := platform.pageSize_lt.trans (by decide)
  have pos := platform.pageSize_pos
  have power := platform.pageSize_power
  refine ⟨core.alignUp_eq (ContextConfig.effective_lt word) page power, fun total => ?_, ?_⟩
  · have fewer : regionSize platform config / platform.pageSize < 2 ^ 52 := by
      rw [Nat.div_lt_iff_lt_mul pos]
      have := platform.pageSize_ge
      omega
    refine (core.alignUp_eq_some (by omega) page power).mpr ⟨rfl, ?_⟩
    have above : roundUp (regionSize platform config / platform.pageSize) platform.pageSize <
      regionSize platform config / platform.pageSize + platform.pageSize := roundUp_lt pos
    have := platform.pageSize_lt
    unfold pageClassMapSize
    omega
  · refine (core.alignUp_eq_some (by decide) page power).mpr ⟨rfl, ?_⟩
    have above : roundUp sizeofContext platform.pageSize < sizeofContext + platform.pageSize :=
      roundUp_lt pos
    have := platform.pageSize_lt
    unfold contextMapSize sizeofContext at *
    omega

/-- **A successful creation** has made its three mappings. -/
theorem contextCreate_some {config : Option ContextConfig} {answers : CreateAnswers} {ctx : Context}
    (word : ContextConfig.Word config)
    (created : contextCreate core platform config kernel m answers = (kernel', m', some ctx)) :
    Created core platform config kernel m kernel' m' ctx := by
  obtain ⟨total, pageClass, context⟩ := creationSizes core platform word
  unfold contextCreate at created
  dsimp only at created
  rw [total] at created
  by_cases small : regionSize platform config < 2 ^ 64
  swap
  · rw [if_neg small] at created
    simp at created
  rw [if_pos small] at created
  dsimp only at created
  rw [pageClass small] at created
  dsimp only at created
  rw [context] at created
  dsimp only at created
  cases first : platformMap platform kernel m (contextMapSize platform) answers.context with
  | none => simp [first] at created
  | some one =>
      obtain ⟨kernel₁, m₁, address⟩ := one
      rw [first] at created
      dsimp only at created
      obtain ⟨admissible₁, _, rfl, rfl⟩ := platformMap_eq_some.mp first
      cases second : platformMap platform (kernel.map ⟨address, contextMapSize platform⟩)
          (fillBytes m address (contextMapSize platform) 0) (regionSize platform config)
          answers.region with
      | none => simp [second] at created
      | some two =>
          obtain ⟨kernel₂, m₂, base⟩ := two
          rw [second] at created
          dsimp only at created
          obtain ⟨admissible₂, _, rfl, rfl⟩ := platformMap_eq_some.mp second
          split at created
          · simp at created
          · next kernel₃ m₃ pageClassBase third =>
              obtain ⟨admissible₃, _, rfl, rfl⟩ := platformMap_eq_some.mp third
              simp only [Prod.mk.injEq, Option.some.injEq] at created
              obtain ⟨rfl, rfl, rfl⟩ := created
              exact ⟨rfl, small, admissible₁, admissible₂, admissible₃, rfl⟩

/-! ## A creation that fails -/

/-- **A failed creation** has unmapped what it had mapped. -/
theorem contextCreate_none {config : Option ContextConfig} {answers : CreateAnswers}
    (refused : contextCreate core platform config kernel m answers = (kernel', m', none)) :
    kernel'.mapped = kernel.mapped ∧ ∃ blocks, kernel'.mapLog = blocks ++ kernel.mapLog ∧
      kernel'.unmapLog.Perm (blocks ++ kernel.unmapLog) := by
  have nothing : kernel.mapped = kernel.mapped ∧ ∃ blocks, kernel.mapLog = blocks ++ kernel.mapLog ∧
      kernel.unmapLog.Perm (blocks ++ kernel.unmapLog) := ⟨rfl, [], rfl, .refl _⟩
  simp only [contextCreate] at refused
  split at refused
  · cases refused
    exact nothing
  split at refused
  · cases refused
    exact nothing
  split at refused
  · cases refused
    exact nothing
  split at refused
  · cases refused
    exact nothing
  next kernel₁ m₁ address first =>
  obtain ⟨_, _, rfl, _⟩ := platformMap_eq_some.mp first
  split at refused
  · cases refused
    exact ⟨Kernel.unmap_map _ _, [_], rfl, .refl _⟩
  next kernel₂ m₂ base second =>
  obtain ⟨_, _, rfl, _⟩ := platformMap_eq_some.mp second
  split at refused
  · cases refused
    refine ⟨?_, [_, _], rfl, .swap _ _ _⟩
    exact (congrArg (List.erase · _) (Kernel.unmap_map _ _)).trans (Kernel.unmap_map kernel _)
  · cases refused

/-! ## Safe arithmetic -/

/-- The size of an array is computed exactly when the array is not empty and its whole
pages are a word. -/
theorem computeAllocSize_eq_some {ctx : Context} {elementSize count size : Nat}
    (page : ctx.pageSize = platform.pageSize) (elementWord : elementSize < 2 ^ 64)
    (countWord : count < 2 ^ 64) :
    computeAllocSize core ctx elementSize count = some size ↔
      0 < elementSize ∧ 0 < count ∧ size = roundUp (elementSize * count) platform.pageSize ∧
        size < 2 ^ 64 := by
  have least : elementSize * count ≤ roundUp (elementSize * count) platform.pageSize :=
    le_roundUp platform.pageSize_pos
  unfold computeAllocSize
  rw [page, core.safeMultiply_eq elementWord countWord]
  by_cases empty : elementSize = 0 ∨ count = 0
  · rw [if_pos empty]
    simp only [reduceCtorEq, false_iff]
    omega
  rw [if_neg empty]
  by_cases small : elementSize * count < 2 ^ 64
  · rw [if_pos small]
    refine (core.alignUp_eq_some small (platform.pageSize_lt.trans (by decide))
      platform.pageSize_power).trans ?_
    constructor
    · rintro ⟨rfl, fits⟩
      exact ⟨by omega, by omega, rfl, fits⟩
    · rintro ⟨_, _, rfl, fits⟩
      exact ⟨rfl, fits⟩
  · rw [if_neg small]
    simp only [reduceCtorEq, false_iff]
    rintro ⟨_, _, rfl, fits⟩
    omega

end BcAllocators
