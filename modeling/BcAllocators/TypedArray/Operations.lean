import BcAllocators.TypedArray.Doubling

/-!
# What the operations of a typed array do

The elements of an array are in a block that the pool granted for its capacity
(`ArrayInv`), so their addresses do not wrap and the array grows at its end
without touching anything else (`ArrayInv.extend`). An operation is done, and the
elements are then the new list, or it is refused, and the array and its elements
are as before (`ArrayOutcome`); either way the other blocks of the pool keep their
bytes (`ArrayStep`).

Making room is the same for a push and for an append (`Room`): there is a capacity
for the elements to come, in a block that has moved with its elements, or nothing
has changed.
-/

set_option autoImplicit false

namespace BcAllocators

open Machine

variable {σ : Type} {core : BcCore} {pool : PoolApi σ} {view : PoolView σ} {elementSize : Nat}
variable {t t' t'' : ArrayState σ} {l l' : List (Element elementSize)} {g : Grant}

/-! ## The block of the elements -/

/-- The blocks of the pool that are not the array's. -/
def ArrayState.others (view : PoolView σ) (t : ArrayState σ) : List Grant :=
  dropGrant (view.grants t.pool) t.array.data

/-- A block was granted for the elements of an array. -/
structure TypedArray.Holds (arr : TypedArray) (elementSize : Nat) (g : Grant) : Prop where
  ptr : g.ptr = arr.data
  requested : g.requested = arr.capacity * elementSize

/-- The elements are within a capacity, and the capacity is that of a block; only
an array without capacity has none. -/
structure ArrayInv (view : PoolView σ) (elementSize : Nat) (t : ArrayState σ) : Prop where
  sound : view.Sound t.pool
  length_le : t.array.length ≤ t.array.capacity
  block : t.array.data = NULL ∧ t.array.capacity = 0 ∨
    ∃ g ∈ view.grants t.pool, t.array.Holds elementSize g

theorem ArrayInv.empty {s : σ} (sound : view.Sound s) :
    ArrayInv view elementSize ⟨s, .empty⟩ := ⟨sound, Nat.le_refl 0, Or.inl ⟨rfl, rfl⟩⟩

namespace ArrayInv

/-- The elements up to the capacity are in half of the address space. -/
theorem bounds (contract : PoolContract pool view) (inv : ArrayInv view elementSize t) :
    t.array.capacity * elementSize < 2 ^ 63 ∧
      t.array.data + t.array.capacity * elementSize < 2 ^ 64 := by
  rcases inv.block with ⟨null, nothing⟩ | ⟨g, held, ptr, requested⟩
  · rw [null, nothing]
    simp [NULL]
  · obtain ⟨_, _, room, half, stop, _⟩ := contract.bounds inv.sound g held
    unfold Extent.stop Grant.extent at stop
    dsimp only at stop
    omega

theorem capacity_lt (contract : PoolContract pool view) (pos : 0 < elementSize)
    (inv : ArrayInv view elementSize t) : t.array.capacity < 2 ^ 63 :=
  lt_of_le_of_lt (Nat.le_mul_of_pos_right _ pos) (inv.bounds contract).1

/-- A slot within the capacity is where the product says. -/
theorem slot_eq (contract : PoolContract pool view) (inv : ArrayInv view elementSize t) {i : Nat}
    (within : i ≤ t.array.capacity) :
    t.array.slot elementSize i = t.array.data + i * elementSize := by
  have bounds := inv.bounds contract
  have before := Nat.mul_le_mul_right elementSize within
  unfold TypedArray.slot
  rw [wmul_of_lt (by omega), wadd_of_lt (by omega)]

/-- The elements stand one after another from the start of the data. -/
theorem elements_eq (contract : PoolContract pool view) (inv : ArrayInv view elementSize t) :
    arrayElements pool elementSize t =
      loadElements (pool.memory t.pool) t.array.data elementSize t.array.length := by
  apply List.map_congr_left
  intro i member
  have before := List.mem_range.mp member
  rw [inv.slot_eq contract (before.le.trans inv.length_le)]

/-- Arrays with the same bytes have the same elements. -/
theorem elements_congr (contract : PoolContract pool view) (inv : ArrayInv view elementSize t)
    (inv' : ArrayInv view elementSize t') (length : t'.array.length = t.array.length)
    (same : ∀ i < t.array.length * elementSize,
      pool.memory t'.pool (t'.array.data + i) = pool.memory t.pool (t.array.data + i)) :
    arrayElements pool elementSize t' = arrayElements pool elementSize t := by
  rw [inv.elements_eq contract, inv'.elements_eq contract, length]
  exact loadElements_moved same

/-- An array that has some capacity has a block. -/
theorem exists_block (inv : ArrayInv view elementSize t) (pos : 0 < t.array.capacity) :
    ∃ g ∈ view.grants t.pool, t.array.Holds elementSize g := by
  rcases inv.block with ⟨_, nothing⟩ | block
  · omega
  · exact block

/-- A part of the capacity is in the block. -/
theorem part_inside (contract : PoolContract pool view) (inv : ArrayInv view elementSize t)
    (held : g ∈ view.grants t.pool) (holds : t.array.Holds elementSize g) {i n : Nat}
    (within : i + n ≤ t.array.capacity) :
    g.ptr ≤ t.array.slot elementSize i ∧
      t.array.slot elementSize i + n * elementSize ≤ g.extent.stop := by
  obtain ⟨_, _, room, _⟩ := contract.bounds inv.sound g held
  have parts := Nat.mul_le_mul_right elementSize within
  rw [Nat.add_mul] at parts
  rw [inv.slot_eq contract (by omega), holds.ptr]
  have requested := holds.requested
  unfold Extent.stop Grant.extent
  dsimp only
  rw [holds.ptr]
  omega

/-- The bytes of the elements are in a block that is not one of the others. -/
theorem byte_own (contract : PoolContract pool view) (inv : ArrayInv view elementSize t) {i : Nat}
    (within : i < t.array.capacity * elementSize) :
    ∃ g ∈ view.grants t.pool, t.array.Holds elementSize g ∧
      t.array.data + i ∈ g.extent.bytes := by
  have some : 0 < t.array.capacity * elementSize := by omega
  obtain ⟨g, held, holds⟩ := inv.exists_block (Nat.pos_of_mul_pos_right some)
  refine ⟨g, held, holds, ?_⟩
  obtain ⟨_, _, room, _⟩ := contract.bounds inv.sound g held
  have requested := holds.requested
  have ptr := holds.ptr
  rw [Extent.mem_bytes]
  unfold Grant.extent
  dsimp only
  omega

/-- A byte that is spared for the sake of the other blocks is not the array's. -/
theorem spared_outside (contract : PoolContract pool view) (inv : ArrayInv view elementSize t)
    {a : Nat} (spared : view.Spared (t.others view) a) (held : g ∈ view.grants t.pool)
    (holds : t.array.Holds elementSize g) : a ∉ g.extent.bytes := by
  intro inside
  cases spared with
  | inl outside => exact outside ((contract.bounds inv.sound g held).2.2.2.2.2 inside)
  | inr other =>
      obtain ⟨h, member, within⟩ := other
      unfold ArrayState.others at member
      rw [← holds.ptr, contract.mem_drop inv.sound held] at member
      exact (contract.apart_of_ne inv.sound member.1 held member.2).disjoint within inside

end ArrayInv

/-! ## What an operation does -/

/-- An operation leaves an array with the given elements, and the other blocks of the
pool as they were. -/
structure ArrayStep (pool : PoolApi σ) (view : PoolView σ) (elementSize : Nat)
    (t t' : ArrayState σ) (l : List (Element elementSize)) : Prop where
  inv : ArrayInv view elementSize t'
  elements : arrayElements pool elementSize t' = l
  others : t'.others view = t.others view
  keeps : Keeps pool view (t.others view) t.pool t'.pool

theorem ArrayStep.refl (inv : ArrayInv view elementSize t) :
    ArrayStep pool view elementSize t t (arrayElements pool elementSize t) :=
  ⟨inv, rfl, rfl, .refl t.pool⟩

theorem ArrayStep.trans (first : ArrayStep pool view elementSize t t' l)
    (second : ArrayStep pool view elementSize t' t'' l') :
    ArrayStep pool view elementSize t t'' l' := by
  refine ⟨second.inv, second.elements, second.others.trans first.others, ?_⟩
  have keeps := second.keeps
  rw [first.others] at keeps
  exact first.keeps.trans keeps

/-- An operation is done, with the given elements, or it is refused. -/
inductive ArrayOutcome (pool : PoolApi σ) (view : PoolView σ) (elementSize : Nat)
    (t : ArrayState σ) (l : List (Element elementSize)) : ArrayState σ × Bool → Prop where
  | done {t' : ArrayState σ} (step : ArrayStep pool view elementSize t t' l) :
      ArrayOutcome pool view elementSize t l (t', true)
  | refused {t' : ArrayState σ}
      (step : ArrayStep pool view elementSize t t' (arrayElements pool elementSize t))
      (same : t'.array = t.array) : ArrayOutcome pool view elementSize t l (t', false)

/-- **An array grows at its end** when the memory changes there only. -/
theorem ArrayInv.extend (contract : PoolContract pool view) (inv : ArrayInv view elementSize t)
    {k : Nat} (some : 0 < k) (within : t.array.length + k ≤ t.array.capacity) {m : Memory}
    (changes : ChangesOnly (Set.Ico (t.array.slot elementSize t.array.length)
      (t.array.slot elementSize t.array.length + k * elementSize)) (pool.memory t.pool) m) :
    ArrayStep pool view elementSize t
      ⟨pool.setMemory t.pool m, { t.array with length := t.array.length + k }⟩
      (arrayElements pool elementSize t ++
        loadElements m (t.array.slot elementSize t.array.length) elementSize k) := by
  obtain ⟨g, held, holds⟩ := inv.exists_block (by omega)
  have inside := inv.part_inside contract held holds within
  have inBlock : ChangesOnly g.extent.bytes (pool.memory t.pool) m := by
    apply changes.mono
    intro a written
    exact ⟨inside.1.trans written.1, lt_of_lt_of_le written.2 inside.2⟩
  obtain ⟨sound, same⟩ := contract.write inv.sound held inBlock
  have inv' : ArrayInv view elementSize
      ⟨pool.setMemory t.pool m, { t.array with length := t.array.length + k }⟩ :=
    ⟨sound, within, Or.inr ⟨g, same ▸ held, holds.ptr, holds.requested⟩⟩
  refine ⟨inv', ?_, ?_, ?_⟩
  · rw [inv'.elements_eq contract, inv.elements_eq contract, contract.memory_setMemory,
      loadElements_add, inv.slot_eq contract inv.length_le]
    dsimp only
    congr 1
    -- the old elements are in front of the bytes that change
    apply loadElements_moved
    intro i before
    apply changes
    rw [inv.slot_eq contract inv.length_le, Set.mem_Ico]
    omega
  · unfold ArrayState.others
    rw [same]
  · apply contract.write_keeps inv.sound held ?_ inBlock
    intro h member
    unfold ArrayState.others at member
    rw [← holds.ptr, contract.mem_drop inv.sound held] at member
    exact ⟨member.1, member.2.symm⟩

/-! ## Making room -/

/-- The pool granted a block for the elements, with the bytes of the old one. -/
structure DataGranted (pool : PoolApi σ) (view : PoolView σ) (elementSize : Nat)
    (t : ArrayState σ) (size : Nat) (s' : σ) (g : Grant) : Prop where
  sound : view.Sound s'
  requested : g.requested = size
  grants : view.grants s' = g :: t.others view
  keeps : Keeps pool view (t.others view) t.pool s'
  moved : ∀ i < min (t.array.capacity * elementSize) size,
    pool.memory s' (g.ptr + i) = pool.memory t.pool (t.array.data + i)

/-- The pool refused, and the blocks are as they were. -/
structure DataRefused (pool : PoolApi σ) (view : PoolView σ) (t : ArrayState σ) (s' : σ) :
    Prop where
  sound : view.Sound s'
  grants : view.grants s' = view.grants t.pool
  keeps : Keeps pool view (view.grants t.pool) t.pool s'

/-- **What the pool answers to an array**, whether it has a block or not. -/
theorem requestData_spec (contract : PoolContract pool view) (inv : ArrayInv view elementSize t)
    {size : Nat} (word : size < 2 ^ 64) (trusted : view.Trusted (requestData pool t size).1) :
    (requestData pool t size).2 = .failed ∧
        DataRefused pool view t (requestData pool t size).1 ∨
      ∃ g, (requestData pool t size).2 = ⟨true, g.ptr⟩ ∧
        DataGranted pool view elementSize t size (requestData pool t size).1 g := by
  unfold requestData at trusted ⊢
  rcases inv.block with ⟨null, nothing⟩ | ⟨g, held, holds⟩
  · rw [if_pos null] at trusted ⊢
    have all : t.others view = view.grants t.pool := by
      unfold ArrayState.others
      rw [null, contract.drop_null inv.sound]
    obtain ⟨sound, keeps, outcome⟩ := contract.allocate inv.sound word trusted
    rcases outcome with ⟨failed, same⟩ | ⟨g, result, requested, more⟩
    · exact Or.inl ⟨failed, sound, same, keeps⟩
    · refine Or.inr ⟨g, result, sound, requested, all ▸ more, all ▸ keeps, ?_⟩
      intro i small
      rw [nothing] at small
      omega
  · have address := (contract.bounds inv.sound g held).1
    have some : t.array.data ≠ NULL := by
      rw [← holds.ptr]
      exact Nat.ne_of_gt address
    rw [if_neg some, ← holds.ptr] at trusted ⊢
    have all : t.others view = dropGrant (view.grants t.pool) g.ptr := by
      rw [holds.ptr]
      rfl
    obtain ⟨sound, outcome⟩ := contract.reallocate inv.sound held word trusted
    rcases outcome with ⟨failed, same, keeps⟩ | ⟨g', result, requested, more, keeps, moved⟩
    · exact Or.inl ⟨failed, sound, same, keeps⟩
    · refine Or.inr ⟨g', result, sound, requested, all ▸ more, all ▸ keeps, ?_⟩
      rw [← holds.requested, ← holds.ptr]
      exact moved

/-- There is room for some elements, in a block with the elements so far. -/
structure Room (pool : PoolApi σ) (view : PoolView σ) (elementSize : Nat)
    (t : ArrayState σ) (required : Nat) (t' : ArrayState σ) : Prop where
  step : ArrayStep pool view elementSize t t' (arrayElements pool elementSize t)
  length : t'.array.length = t.array.length
  enough : required ≤ t'.array.capacity

/-- There is room, or the array is as it was. -/
inductive RoomOutcome (pool : PoolApi σ) (view : PoolView σ) (elementSize : Nat)
    (t : ArrayState σ) (required : Nat) : ArrayState σ × Bool → Prop where
  | done {t' : ArrayState σ} (room : Room pool view elementSize t required t') :
      RoomOutcome pool view elementSize t required (t', true)
  | refused {t' : ArrayState σ}
      (step : ArrayStep pool view elementSize t t' (arrayElements pool elementSize t))
      (same : t'.array = t.array) : RoomOutcome pool view elementSize t required (t', false)

/-- A refusal leaves the array and its elements. -/
theorem DataRefused.step (contract : PoolContract pool view) (inv : ArrayInv view elementSize t)
    {s' : σ} (refused : DataRefused pool view t s') :
    ArrayStep pool view elementSize t ⟨s', t.array⟩ (arrayElements pool elementSize t) := by
  have inv' : ArrayInv view elementSize ⟨s', t.array⟩ := by
    refine ⟨refused.sound, inv.length_le, ?_⟩
    have block := inv.block
    rwa [← refused.grants] at block
  refine ⟨inv', ?_, ?_, ?_⟩
  · apply inv.elements_congr contract inv' rfl
    intro i small
    have within := Nat.mul_le_mul_right elementSize inv.length_le
    obtain ⟨g, held, _, inside⟩ := inv.byte_own contract (lt_of_lt_of_le small within)
    exact refused.keeps.block held _ inside
  · unfold ArrayState.others
    rw [refused.grants]
  · apply refused.keeps.mono
    intro h member
    exact (List.mem_filter.mp member).1

/-- A new block has the elements. -/
theorem DataGranted.room (contract : PoolContract pool view) (inv : ArrayInv view elementSize t)
    {s' : σ} {newCap : Nat} (larger : t.array.capacity < newCap)
    (granted : DataGranted pool view elementSize t (newCap * elementSize) s' g) :
    Room pool view elementSize t newCap
      ⟨s', { t.array with data := g.ptr, capacity := newCap }⟩ := by
  have inv' : ArrayInv view elementSize
      ⟨s', { t.array with data := g.ptr, capacity := newCap }⟩ := by
    refine ⟨granted.sound, inv.length_le.trans larger.le, Or.inr ⟨g, ?_, rfl, granted.requested⟩⟩
    rw [granted.grants]
    exact List.mem_cons_self
  refine ⟨⟨inv', ?_, ?_, granted.keeps⟩, rfl, Nat.le_refl _⟩
  · apply inv.elements_congr contract inv' rfl
    intro i small
    have within := Nat.mul_le_mul_right elementSize inv.length_le
    have grown := Nat.mul_le_mul_right elementSize larger.le
    exact granted.moved i (by omega)
  · have own := contract.others_ne granted.sound (.of_eq granted.grants)
    exact (congrArg (dropGrant · g.ptr) granted.grants).trans (dropGrant_cons own)

/-- **What a reserve does.** -/
theorem arrayReserve_spec (contract : PoolContract pool view) (inv : ArrayInv view elementSize t)
    (sizeWord : elementSize < 2 ^ 64) {newCap : Nat} (word : newCap < 2 ^ 64)
    (trusted : view.Trusted (arrayReserve core pool elementSize t newCap).1.pool) :
    RoomOutcome pool view elementSize t newCap
      (arrayReserve core pool elementSize t newCap) := by
  unfold arrayReserve at trusted ⊢
  split at trusted
  · next enough =>
      rw [if_pos enough]
      exact .done ⟨.refl inv, rfl, enough⟩
  · next short =>
      rw [if_neg short]
      rw [core.safeMultiply_eq word sizeWord] at trusted ⊢
      by_cases fits : newCap * elementSize < 2 ^ 64
      · rw [if_pos fits] at trusted ⊢
        dsimp only at trusted ⊢
        have kept : view.Trusted (requestData pool t (newCap * elementSize)).1 := by
          split at trusted <;> exact trusted
        rcases requestData_spec contract inv fits kept with ⟨failed, refused⟩ | ⟨g, result, granted⟩
        · rw [failed]
          exact .refused (refused.step contract inv) rfl
        · rw [result]
          exact .done (granted.room contract inv (Nat.not_le.mp short))
      · rw [if_neg fits]
        exact .refused (.refl inv) rfl

/-- A reserve that grows has the capacity that it was asked for. -/
theorem arrayReserve_capacity {newCap : Nat} (larger : t.array.capacity < newCap)
    (done : (arrayReserve core pool elementSize t newCap).2 = true) :
    (arrayReserve core pool elementSize t newCap).1.array.capacity = newCap := by
  unfold arrayReserve at done ⊢
  rw [if_neg (Nat.not_le.mpr larger)] at done ⊢
  split at done
  · cases done
  · dsimp only at done ⊢
    split at done
    · cases done
    · next granted => rw [if_neg granted]

/-- Room for more elements is room for fewer. -/
theorem RoomOutcome.mono {required enough : Nat} (fewer : required ≤ enough)
    {result : ArrayState σ × Bool}
    (outcome : RoomOutcome pool view elementSize t enough result) :
    RoomOutcome pool view elementSize t required result := by
  cases outcome with
  | done room => exact .done ⟨room.step, room.length, fewer.trans room.enough⟩
  | refused step same => exact .refused step same

theorem RoomOutcome.inv {required : Nat} {result : ArrayState σ × Bool}
    (outcome : RoomOutcome pool view elementSize t required result) :
    ArrayInv view elementSize result.1 := by
  cases outcome with
  | done room => exact room.step.inv
  | refused step same => exact step.inv

/-- Making room keeps the elements. -/
theorem RoomOutcome.arrayOutcome {required : Nat} {result : ArrayState σ × Bool}
    (outcome : RoomOutcome pool view elementSize t required result) :
    ArrayOutcome pool view elementSize t (arrayElements pool elementSize t) result := by
  cases outcome with
  | done room => exact .done room.step
  | refused step same => exact .refused step same

/-! ## Push -/

/-- The part of a push before it stores the element. -/
def pushRoom (core : BcCore) (pool : PoolApi σ) (elementSize : Nat) (t : ArrayState σ) :
    ArrayState σ × Bool :=
  if t.array.length < t.array.capacity then (t, true)
  else
    arrayReserve core pool elementSize t
      (if t.array.capacity = 0 then 8 else wmul t.array.capacity 2)

/-- A push makes room and stores the element. -/
theorem arrayPush_eq (t : ArrayState σ) (value : Element elementSize) :
    arrayPush core pool elementSize t value =
      if (pushRoom core pool elementSize t).2 = false then
        ((pushRoom core pool elementSize t).1, false)
      else (storeLast pool elementSize (pushRoom core pool elementSize t).1 value, true) := by
  unfold arrayPush pushRoom
  split
  · rfl
  · rfl

/-- The capacity that a push asks for is twice the old one. -/
theorem pushRoom_spec (contract : PoolContract pool view) (inv : ArrayInv view elementSize t)
    (pos : 0 < elementSize) (sizeWord : elementSize < 2 ^ 64)
    (trusted : view.Trusted (pushRoom core pool elementSize t).1.pool) :
    RoomOutcome pool view elementSize t (t.array.length + 1)
      (pushRoom core pool elementSize t) := by
  have small := inv.capacity_lt contract pos
  have within := inv.length_le
  unfold pushRoom at trusted ⊢
  split at trusted
  · next below =>
      rw [if_pos below]
      exact .done ⟨.refl inv, rfl, below⟩
  · next full =>
      rw [if_neg full]
      have double : wmul t.array.capacity 2 = t.array.capacity * 2 := wmul_of_lt (by omega)
      rw [double] at trusted ⊢
      refine (arrayReserve_spec contract inv sizeWord ?_ trusted).mono ?_
      · split <;> omega
      · split <;> omega

/-- An element is stored behind the others. -/
theorem Room.storeLast (contract : PoolContract pool view) {t₁ : ArrayState σ}
    (room : Room pool view elementSize t (t.array.length + 1) t₁) (pos : 0 < elementSize)
    (value : Element elementSize) :
    ArrayStep pool view elementSize t (storeLast pool elementSize t₁ value)
      (arrayElements pool elementSize t ++ [value]) := by
  have inv := room.step.inv
  have within : t₁.array.length + 1 ≤ t₁.array.capacity := room.length ▸ room.enough
  have small := inv.capacity_lt contract pos
  have changes : ChangesOnly (Set.Ico (t₁.array.slot elementSize t₁.array.length)
      (t₁.array.slot elementSize t₁.array.length + 1 * elementSize)) (pool.memory t₁.pool)
      (storeBytes (pool.memory t₁.pool) (t₁.array.slot elementSize t₁.array.length) value.1) := by
    have frame := changesOnly_storeBytes (pool.memory t₁.pool)
      (t₁.array.slot elementSize t₁.array.length) value.1
    rw [value.2] at frame
    rwa [Nat.one_mul]
  have stored := inv.extend contract Nat.one_pos within changes
  rw [loadElements_one, loadElement_storeBytes, room.step.elements] at stored
  have last : t₁.array.length + 1 = wadd t₁.array.length 1 := (wadd_of_lt (by omega)).symm
  rw [last] at stored
  exact room.step.trans stored

/-- **What a push does.** -/
theorem arrayPush_spec (contract : PoolContract pool view) (inv : ArrayInv view elementSize t)
    (pos : 0 < elementSize) (sizeWord : elementSize < 2 ^ 64) {value : Element elementSize}
    (trusted : view.Trusted (arrayPush core pool elementSize t value).1.pool) :
    ArrayOutcome pool view elementSize t (arrayElements pool elementSize t ++ [value])
      (arrayPush core pool elementSize t value) := by
  rw [arrayPush_eq] at trusted ⊢
  have kept : view.Trusted (pushRoom core pool elementSize t).1.pool := by
    split at trusted
    · exact trusted
    · exact contract.trusted_setMemory.mp trusted
  have outcome := pushRoom_spec contract inv pos sizeWord kept
  generalize pushRoom core pool elementSize t = made at outcome ⊢
  cases outcome with
  | done room => exact .done (room.storeLast contract pos value)
  | refused step same => exact .refused step same

/-! ## Append -/

/-- The bytes of a source are spared for the sake of the other blocks. -/
def ArrayState.Source (view : PoolView σ) (elementSize : Nat) (t : ArrayState σ)
    (src count : Nat) : Prop :=
  ∀ a ∈ Set.Ico src (src + count * elementSize), view.Spared (t.others view) a

/-- Whatever room an append makes is enough. -/
theorem makeRoom_spec (contract : PoolContract pool view) (inv : ArrayInv view elementSize t)
    (pos : 0 < elementSize) (sizeWord : elementSize < 2 ^ 64) {fuel required : Nat}
    {made : ArrayState σ × Bool}
    (halted : makeRoom core pool elementSize fuel t required = some made)
    (trusted : view.Trusted made.1.pool) :
    RoomOutcome pool view elementSize t required made := by
  by_cases enough : required ≤ t.array.capacity
  · rw [makeRoom_of_le enough] at halted
    cases halted
    exact .done ⟨.refl inv, rfl, enough⟩
  · rw [makeRoom_of_lt (Nat.not_le.mp enough), Option.map_eq_some_iff] at halted
    obtain ⟨newCap, doubled, rfl⟩ := halted
    have small := inv.capacity_lt contract pos
    have word : startCapacity t.array.capacity < 2 ^ 64 := startCapacity_lt (by omega) (by omega)
    have outcome := arrayReserve_spec contract inv sizeWord (doubleCapacity_lt doubled word) trusted
    exact outcome.mono (doubleCapacity_ge doubled)

/-- A source is apart from the slots behind the elements. -/
theorem ArrayInv.source_apart (contract : PoolContract pool view)
    (inv : ArrayInv view elementSize t) {src count : Nat}
    (source : t.Source view elementSize src count)
    (within : t.array.length + count ≤ t.array.capacity) :
    t.array.slot elementSize t.array.length + count * elementSize ≤ src ∨
      src + count * elementSize ≤ t.array.slot elementSize t.array.length := by
  by_contra overlap
  rw [not_or, Nat.not_le, Nat.not_le] at overlap
  have some : 0 < t.array.capacity := by
    rcases Nat.eq_zero_or_pos count with rfl | pos
    · omega
    · omega
  obtain ⟨g, held, holds⟩ := inv.exists_block some
  have inside := inv.part_inside contract held holds within
  -- the later one of the two starts is in both ranges
  have common := inv.spared_outside contract
    (source (max src (t.array.slot elementSize t.array.length)) ⟨by omega, by omega⟩) held holds
  apply common
  rw [Extent.mem_bytes]
  unfold Extent.stop Grant.extent at inside
  unfold Grant.extent
  dsimp only at inside ⊢
  omega

/-- Elements are copied behind the others. -/
theorem Room.copyElements (contract : PoolContract pool view) {t₁ : ArrayState σ}
    {src count : Nat} (room : Room pool view elementSize t (t.array.length + count) t₁)
    (some : 0 < count) (source : t.Source view elementSize src count) :
    ArrayStep pool view elementSize t
      (copyElements core pool elementSize t₁ src count (t.array.length + count))
      (arrayElements pool elementSize t ++
        loadElements (pool.memory t.pool) src elementSize count) := by
  have inv := room.step.inv
  have within : t₁.array.length + count ≤ t₁.array.capacity := room.length ▸ room.enough
  have exactly : wmul count elementSize = count * elementSize := by
    have part := Nat.mul_le_mul_right elementSize (Nat.le_of_add_left_le within)
    have bounds := inv.bounds contract
    exact wmul_of_lt (by omega)
  have source₁ : t₁.Source view elementSize src count := by
    intro a member
    rw [room.step.others]
    exact source a member
  have apart := inv.source_apart contract source₁ within
  have copied := core.memcpy_eq (m := pool.memory t₁.pool) apart
  have changes := core.memcpy_frame (pool.memory t₁.pool)
    (t₁.array.slot elementSize t₁.array.length) src (count * elementSize)
  have stored := inv.extend contract some within changes
  have same : loadElements (pool.memory t₁.pool) src elementSize count =
      loadElements (pool.memory t.pool) src elementSize count := by
    apply loadElements_moved
    intro i small
    exact room.step.keeps _ (source _ ⟨by omega, by omega⟩)
  rw [copied, loadElements_copyBytes, same, room.step.elements, ← copied, ← exactly,
    room.length] at stored
  rw [← room.length] at stored ⊢
  exact room.step.trans stored

/-- **What an append does**, if it returns. -/
theorem arrayAppendBulk_spec (contract : PoolContract pool view)
    (inv : ArrayInv view elementSize t) (pos : 0 < elementSize) (sizeWord : elementSize < 2 ^ 64)
    {fuel src count : Nat} (countWord : count < 2 ^ 64) {result : ArrayState σ × Bool}
    (source : t.Source view elementSize src count)
    (returned : arrayAppendBulk core pool elementSize fuel t src count = some result)
    (trusted : view.Trusted result.1.pool) :
    ArrayOutcome pool view elementSize t
      (arrayElements pool elementSize t ++
        loadElements (pool.memory t.pool) src elementSize count) result := by
  have lengthWord : t.array.length < 2 ^ 64 := by
    have small := inv.capacity_lt contract pos
    have within := inv.length_le
    omega
  by_cases nothing : count = 0
  · subst nothing
    rw [arrayAppendBulk_zero] at returned
    cases returned
    rw [loadElements_zero, List.append_nil]
    exact .done (.refl inv)
  · by_cases wraps : 2 ^ 64 ≤ t.array.length + count
    · rw [arrayAppendBulk_wraps nothing lengthWord countWord wraps] at returned
      cases returned
      exact .refused (.refl inv) rfl
    · rw [arrayAppendBulk_eq nothing (Nat.not_le.mp wraps), Option.map_eq_some_iff] at returned
      obtain ⟨made, halted, rfl⟩ := returned
      have kept : view.Trusted made.1.pool := by
        unfold finishAppend at trusted
        split at trusted
        · exact trusted
        · exact contract.trusted_setMemory.mp trusted
      cases makeRoom_spec contract inv pos sizeWord halted kept with
      | done room => exact .done (room.copyElements contract (Nat.pos_of_ne_zero nothing) source)
      | refused step same => exact .refused step same

/-! ## Clear and destroy -/

/-- **What a clear does.** -/
theorem arrayClear_spec (inv : ArrayInv view elementSize t) :
    ArrayStep pool view elementSize t (arrayClear t) [] := by
  refine ⟨⟨inv.sound, Nat.zero_le _, inv.block.imp id ?_⟩, rfl, rfl, .refl t.pool⟩
  rintro ⟨g, held, holds⟩
  exact ⟨g, held, holds.ptr, holds.requested⟩

/-- **What a destroy does**: the block is released. -/
theorem arrayDestroy_spec (contract : PoolContract pool view)
    (inv : ArrayInv view elementSize t) :
    ArrayStep pool view elementSize t (arrayDestroy pool t) [] := by
  have released : view.Sound (pool.free t.pool t.array.data) ∧
      view.grants (pool.free t.pool t.array.data) = t.others view ∧
      Keeps pool view (t.others view) t.pool (pool.free t.pool t.array.data) := by
    unfold ArrayState.others
    rcases inv.block with ⟨null, _⟩ | ⟨g, held, holds⟩
    · rw [null, contract.drop_null inv.sound]
      exact contract.free_null inv.sound
    · rw [← holds.ptr]
      exact contract.free inv.sound held
  obtain ⟨sound, left, keeps⟩ := released
  refine ⟨.empty sound, rfl, ?_, keeps⟩
  have same := contract.drop_null sound
  unfold ArrayState.others arrayDestroy
  dsimp only
  rw [same, left]
  rfl

end BcAllocators
