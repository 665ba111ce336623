import BcAllocators.Lib.Transitions
import BcAllocators.Pool.Contract
import BcAllocators.Pool.Neighbours
import BcAllocators.TypedArray.Operations

/-!
# A typed array is a list

A client calls the functions of a typed array in any order, on an array that is
zero at the start, while other clients of the pool make calls of their own. It
appends from sources that are not in the block of the array. Each call has the
operation on a list that it stands for, and says whether it was done.

The elements of the array are what the same operations make of the empty list
(`array_simulates`). The capacity is within the block, all elements are stored
there, and a call that is refused changes nothing (`typed_array_refines_list`).
-/

set_option autoImplicit false

namespace BcAllocators

open Machine

/-! ## Lists -/

/-- What the calls do to a list. -/
inductive ListOp (size : Nat) where
  | push (value : Element size)
  | append (values : List (Element size))
  | reserve (capacity : Nat)
  | clear
  | destroy
  | neighbour

/-- An operation, and whether it was done. -/
structure ListEvent (size : Nat) where
  op : ListOp size
  done : Bool

variable {size : Nat}

def ListOp.apply (l : List (Element size)) : ListOp size → List (Element size)
  | .push value => l ++ [value]
  | .append values => l ++ values
  | .reserve _ => l
  | .clear => []
  | .destroy => []
  | .neighbour => l

/-- An operation that is refused does nothing. -/
def ListEvent.apply (l : List (Element size)) (event : ListEvent size) : List (Element size) :=
  if event.done then event.op.apply l else l

/-- Lists under these operations, from the empty list. -/
def listSystem (size : Nat) : System (List (Element size)) (ListEvent size) where
  Start l := l = []
  Next l event l' := l' = event.apply l

/-- A run of lists is a fold. -/
theorem listSystem_run {events : List (ListEvent size)} {l l' : List (Element size)}
    (run : (listSystem size).Run l events l') : l' = events.foldl ListEvent.apply l := by
  induction run with
  | nil => rfl
  | snoc _ step ih =>
      rw [List.foldl_append, ← ih]
      exact step

/-! ## Runs of an array -/

variable {σ : Type} {core : BcCore} {pool : PoolApi σ} {view : PoolView σ} {elementSize : Nat}
variable {s t t' : ArrayState σ}

inductive ArrayCall (elementSize : Nat) where
  | push (value : Element elementSize)
  | appendBulk (src count : Nat)
  | reserve (newCap : Nat)
  | clear
  | destroy
  | neighbour (call : PoolCall)

/-- The operation that a call stands for, given the memory that it is made in. -/
def ArrayCall.op (m : Memory) : ArrayCall elementSize → ListOp elementSize
  | .push value => .push value
  | .appendBulk src count => .append (loadElements m src elementSize count)
  | .reserve newCap => .reserve newCap
  | .clear => .clear
  | .destroy => .destroy
  | .neighbour _ => .neighbour

namespace ArrayState

/-- The block of the array, if it has one. -/
def own (view : PoolView σ) (t : ArrayState σ) : List Grant :=
  (view.grants t.pool).filter fun g => g.ptr = t.array.data

/-- The calls of a correct client, and of the others. -/
def Allows (view : PoolView σ) (t : ArrayState σ) : ArrayCall elementSize → Prop
  | .push _ => True
  | .appendBulk src count => count < 2 ^ 64 ∧ t.Source view elementSize src count
  | .reserve newCap => newCap < 2 ^ 64
  | .clear => True
  | .destroy => True
  | .neighbour call => view.Neighbourly t.pool (t.own view) call

/-- The effect of a call; an append may need some fuel. -/
def perform (core : BcCore) (pool : PoolApi σ) (fuel : Nat) (t : ArrayState σ) :
    ArrayCall elementSize → Option (ArrayState σ × Bool)
  | .push value => some (arrayPush core pool elementSize t value)
  | .appendBulk src count => arrayAppendBulk core pool elementSize fuel t src count
  | .reserve newCap => some (arrayReserve core pool elementSize t newCap)
  | .clear => some (arrayClear t, true)
  | .destroy => some (arrayDestroy pool t, true)
  | .neighbour call => some ({ t with pool := pool.neighbour t.pool call }, true)

end ArrayState

/-- Correct clients of an array that is zero at the start, in a pool that keeps its
contract. -/
def arraySystem (core : BcCore) (pool : PoolApi σ) (view : PoolView σ) (elementSize : Nat) :
    System (ArrayState σ) (ListEvent elementSize) where
  Start t := view.Sound t.pool ∧ t.array = .empty
  Next t event t' := view.Trusted t'.pool ∧ ∃ call : ArrayCall elementSize,
    t.Allows view call ∧ event.op = call.op (pool.memory t.pool) ∧
      ∃ fuel, t.perform core pool fuel call = some (t', event.done)

/-! ## One step -/

/-- The array is as it was. -/
structure SameArray (pool : PoolApi σ) (elementSize : Nat) (t t' : ArrayState σ) : Prop where
  array : t'.array = t.array
  elements : arrayElements pool elementSize t' = arrayElements pool elementSize t

/-- A step leaves an array with the elements that the list has then; when it is
refused, it leaves the same array. -/
structure StepRefines (pool : PoolApi σ) (view : PoolView σ) (elementSize : Nat)
    (t : ArrayState σ) (event : ListEvent elementSize) (t' : ArrayState σ) : Prop where
  inv : ArrayInv view elementSize t'
  elements : arrayElements pool elementSize t' =
    event.apply (arrayElements pool elementSize t)
  refused : event.done = false → SameArray pool elementSize t t'

/-- A call that is done or refused, with the elements of its operation. -/
theorem ArrayOutcome.refines {op : ListOp elementSize} {done : Bool}
    (outcome : ArrayOutcome pool view elementSize t (op.apply (arrayElements pool elementSize t))
      (t', done)) : StepRefines pool view elementSize t ⟨op, done⟩ t' := by
  cases outcome with
  | done step => exact ⟨step.inv, step.elements, fun no => Bool.noConfusion no⟩
  | refused step same => exact ⟨step.inv, step.elements, fun _ => ⟨same, step.elements⟩⟩

/-- **Neighbours leave the array its elements.** -/
theorem ArrayInv.neighbour (contract : PoolContract pool view)
    (inv : ArrayInv view elementSize t) {call : PoolCall}
    (allowed : view.Neighbourly t.pool (t.own view) call)
    (trusted : view.Trusted (pool.neighbour t.pool call)) :
    StepRefines pool view elementSize t ⟨.neighbour, true⟩
      { t with pool := pool.neighbour t.pool call } := by
  have held : (view.grants t.pool).Perm (t.own view ++ (view.grants t.pool).filter
      fun g => !decide (g.ptr = t.array.data)) := (List.filter_append_perm _ _).symm
  obtain ⟨sound, ⟨rest, still⟩, keeps⟩ := contract.neighbour inv.sound held allowed trusted
  have owned : ∀ {g : Grant}, g ∈ view.grants t.pool → t.array.Holds elementSize g →
      g ∈ t.own view := by
    intro g member holds
    exact List.mem_filter.mpr ⟨member, decide_eq_true holds.ptr⟩
  have inv' : ArrayInv view elementSize { t with pool := pool.neighbour t.pool call } := by
    refine ⟨sound, inv.length_le, inv.block.imp id ?_⟩
    rintro ⟨g, member, holds⟩
    exact ⟨g, still.mem_iff.mpr (List.mem_append_left rest (owned member holds)), holds⟩
  refine ⟨inv', ?_, fun no => Bool.noConfusion no⟩
  apply inv.elements_congr contract inv' rfl
  intro i small
  have within := Nat.mul_le_mul_right elementSize inv.length_le
  obtain ⟨g, member, holds, inside⟩ := inv.byte_own contract (lt_of_lt_of_le small within)
  exact keeps.block (owned member holds) _ inside

section Steps

variable (contract : PoolContract pool view) (pos : 0 < elementSize)
  (sizeWord : elementSize < 2 ^ 64)

include contract pos sizeWord

/-- **What a call of the array itself does**: it is done or refused, and leaves the
blocks of others alone. -/
theorem ArrayInv.outcome (inv : ArrayInv view elementSize t) {event : ListEvent elementSize}
    (step : (arraySystem core pool view elementSize).Next t event t')
    (own : event.op ≠ .neighbour) :
    ArrayOutcome pool view elementSize t (event.op.apply (arrayElements pool elementSize t))
      (t', event.done) := by
  obtain ⟨op, done⟩ := event
  obtain ⟨trusted, call, allowed, rfl, fuel, performed⟩ := step
  cases call with
  | push value =>
      have result : arrayPush core pool elementSize t value = (t', done) :=
        Option.some.inj performed
      have kept : view.Trusted (arrayPush core pool elementSize t value).1.pool := by
        rwa [result]
      have outcome := arrayPush_spec contract inv pos sizeWord kept
      rwa [result] at outcome
  | appendBulk src count =>
      exact arrayAppendBulk_spec contract inv pos sizeWord allowed.1 allowed.2 performed trusted
  | reserve newCap =>
      have result : arrayReserve core pool elementSize t newCap = (t', done) :=
        Option.some.inj performed
      have kept : view.Trusted (arrayReserve core pool elementSize t newCap).1.pool := by
        rwa [result]
      have outcome := (arrayReserve_spec contract inv sizeWord allowed kept).arrayOutcome
      rwa [result] at outcome
  | clear =>
      cases performed
      exact .done (arrayClear_spec inv)
  | destroy =>
      cases performed
      exact .done (arrayDestroy_spec contract inv)
  | neighbour call => exact absurd rfl own

/-- **What one step does to an array**, for each of the calls. -/
theorem ArrayInv.step (inv : ArrayInv view elementSize t) {event : ListEvent elementSize}
    (step : (arraySystem core pool view elementSize).Next t event t') :
    StepRefines pool view elementSize t event t' := by
  by_cases own : event.op ≠ .neighbour
  · exact (inv.outcome contract pos sizeWord step own).refines
  obtain ⟨op, done⟩ := event
  obtain ⟨trusted, call, allowed, rfl, fuel, performed⟩ := step
  cases call with
  | neighbour call =>
      cases performed
      exact inv.neighbour contract allowed trusted
  | push | appendBulk | reserve | clear | destroy => exact absurd (by nofun) own

/-- **The array simulates the list**: a run of the array is a run of the list with
the same events, and at its end the elements are the list. -/
theorem array_simulates {events : List (ListEvent elementSize)}
    (start : (arraySystem core pool view elementSize).Start s)
    (run : (arraySystem core pool view elementSize).Run s events t) :
    ArrayInv view elementSize t ∧
      (listSystem elementSize).Run [] events (arrayElements pool elementSize t) := by
  have initial : ArrayInv view elementSize s ∧ arrayElements pool elementSize s = [] := by
    obtain ⟨sound, empty⟩ := start
    obtain ⟨s, array⟩ := s
    obtain rfl : array = .empty := empty
    exact ⟨.empty sound, rfl⟩
  have steps : ∀ {t t' : ArrayState σ} {event : ListEvent elementSize}
      {l : List (Element elementSize)},
      ArrayInv view elementSize t ∧ arrayElements pool elementSize t = l →
      (arraySystem core pool view elementSize).Next t event t' →
      ∃ l', (listSystem elementSize).Next l event l' ∧
        ArrayInv view elementSize t' ∧ arrayElements pool elementSize t' = l' := by
    rintro t t' event l ⟨inv, rfl⟩ step
    have refines := inv.step contract pos sizeWord step
    exact ⟨_, rfl, refines.inv, refines.elements⟩
  obtain ⟨l, abstractRun, inv, same⟩ := run.simulate (listSystem elementSize)
    (fun t l => ArrayInv view elementSize t ∧ arrayElements pool elementSize t = l) steps initial
  rw [same]
  exact ⟨inv, abstractRun⟩

end Steps
/-! ## The refinement -/

/-- Where a call stores elements, and the state that it stores them in: a push and an
append store behind the elements, once there is room (`arrayPush_eq`,
`arrayAppendBulk_eq`). -/
inductive ArrayStores (core : BcCore) (pool : PoolApi σ) (t : ArrayState σ) :
    ArrayCall elementSize → ArrayState σ → Extent → Prop where
  | push {value : Element elementSize} {t₁ : ArrayState σ}
      (room : pushRoom core pool elementSize t = (t₁, true)) :
      ArrayStores core pool t (.push value) t₁
        ⟨t₁.array.slot elementSize t₁.array.length, elementSize⟩
  | appendBulk {fuel src count : Nat} {t₁ : ArrayState σ} (counted : count ≠ 0)
      (fits : t.array.length + count < 2 ^ 64)
      (room : makeRoom core pool elementSize fuel t (t.array.length + count) =
        some (t₁, true)) :
      ArrayStores core pool t (.appendBulk src count) t₁
        ⟨t₁.array.slot elementSize t₁.array.length, wmul count elementSize⟩

/-- The calls that add elements. -/
def ArrayCall.Adds : ArrayCall elementSize → Prop
  | .push _ => True
  | .appendBulk _ _ => True
  | _ => False

/-- A call has stored elements, and changed no other byte than the pool did to make room
for them. -/
def StoredOnly (core : BcCore) (pool : PoolApi σ) (t : ArrayState σ)
    (call : ArrayCall elementSize) (t' : ArrayState σ) : Prop :=
  ∃ t₁ range, ArrayStores core pool t call t₁ range ∧
    ChangesOnly range.bytes (pool.memory t₁.pool) (pool.memory t'.pool)

/-- A range is in the block of the elements. -/
def ArrayState.InBlock (view : PoolView σ) (t : ArrayState σ) (range : Extent) : Prop :=
  ∃ g ∈ view.grants t.pool, g.ptr = t.array.data ∧ g.ptr ≤ range.start ∧
    range.stop ≤ g.extent.stop

/-- Room for elements is in the block. -/
theorem Room.inBlock (contract : PoolContract pool view) {t₁ : ArrayState σ} {k n : Nat}
    (room : Room pool view elementSize t (t.array.length + k) t₁) (some : 0 < k)
    (bytes : n ≤ k * elementSize) :
    t₁.InBlock view ⟨t₁.array.slot elementSize t₁.array.length, n⟩ := by
  have within : t₁.array.length + k ≤ t₁.array.capacity := room.length ▸ room.enough
  have inv := room.step.inv
  obtain ⟨g, held, holds⟩ := inv.exists_block (by omega)
  have inside := inv.part_inside contract held holds within
  refine ⟨g, held, holds.ptr, inside.1, ?_⟩
  have stop := inside.2
  unfold Extent.stop at stop ⊢
  dsimp only
  omega

/-- **An array with the elements of a list**: they are within the capacity, the
capacity is within the block, and whatever is called next stores elements in the
block only, changes nothing when it is refused, and returns. A call that adds elements
stores them in such a range, and changes no other byte than the pool did to make room. -/
structure ArrayRefines (core : BcCore) (pool : PoolApi σ) (view : PoolView σ)
    (elementSize : Nat) (t : ArrayState σ) (l : List (Element elementSize)) : Prop where
  elements : arrayElements pool elementSize t = l
  length_le : t.array.length ≤ t.array.capacity
  fits : t.array.capacity * elementSize < 2 ^ 64
  null : t.array.data = NULL → t.array.capacity = 0
  block : t.array.data ≠ NULL → ∃ g ∈ view.grants t.pool, g.ptr = t.array.data ∧
    t.array.capacity * elementSize ≤ g.usable
  stores : ∀ (call : ArrayCall elementSize) t₁ range, ArrayStores core pool t call t₁ range →
    view.Trusted t₁.pool → t₁.InBlock view range
  writes : ∀ (call : ArrayCall elementSize) fuel t', call.Adds → t.Allows view call →
    t.perform core pool fuel call = some (t', true) → t' = t ∨ StoredOnly core pool t call t'
  refused : ∀ event t', (arraySystem core pool view elementSize).Next t event t' →
    event.done = false → SameArray pool elementSize t t'
  returns : ∀ src count, t.array.length + count ≤ 2 ^ 63 →
    ∃ fuel result, arrayAppendBulk core pool elementSize fuel t src count = some result

section Results

variable (contract : PoolContract pool view) (pos : 0 < elementSize)
  (sizeWord : elementSize < 2 ^ 64)

include contract pos sizeWord

/-- The stores of a call are in the block. -/
theorem ArrayInv.stores_inBlock (inv : ArrayInv view elementSize t)
    {call : ArrayCall elementSize} {t₁ : ArrayState σ} {range : Extent}
    (stores : ArrayStores core pool t call t₁ range) (trusted : view.Trusted t₁.pool) :
    t₁.InBlock view range := by
  cases stores with
  | push made =>
      have kept : view.Trusted (pushRoom core pool elementSize t).1.pool := by rwa [made]
      have outcome := pushRoom_spec contract inv pos sizeWord kept
      rw [made] at outcome
      cases outcome with
      | done room => exact room.inBlock contract Nat.one_pos (by omega)
  | appendBulk counted fits made =>
      have outcome := makeRoom_spec contract inv pos sizeWord made trusted
      cases outcome with
      | done room => exact room.inBlock contract (Nat.pos_of_ne_zero counted) (Nat.mod_le _ _)

omit pos sizeWord in
/-- A push that is done stores its element once there is room. -/
theorem push_writes {value : Element elementSize}
    (done : arrayPush core pool elementSize t value = (t', true)) :
    StoredOnly core pool t (.push value) t' := by
  rw [arrayPush_eq] at done
  cases made : pushRoom core pool elementSize t with
  | mk t₁ room =>
      rw [made] at done
      cases room with
      | false => exact absurd (congrArg Prod.snd done) (by simp)
      | true =>
          refine ⟨t₁, _, .push made, ?_⟩
          obtain rfl : storeLast pool elementSize t₁ value = t' := congrArg Prod.fst done
          have stored := changesOnly_storeBytes (pool.memory t₁.pool)
            (t₁.array.slot elementSize t₁.array.length) value.1
          rw [value.2] at stored
          rw [storeLast, contract.memory_setMemory]
          exact stored

omit sizeWord in
/-- An append that is done copies its elements once there is room, if there are any. -/
theorem ArrayInv.append_writes (inv : ArrayInv view elementSize t) {fuel src count : Nat}
    (countWord : count < 2 ^ 64)
    (done : arrayAppendBulk core pool elementSize fuel t src count = some (t', true)) :
    t' = t ∨ StoredOnly core pool t (.appendBulk src count : ArrayCall elementSize) t' := by
  have small := inv.capacity_lt contract pos
  have within := inv.length_le
  by_cases nothing : count = 0
  · subst nothing
    rw [arrayAppendBulk_zero] at done
    cases done
    exact Or.inl rfl
  by_cases wraps : 2 ^ 64 ≤ t.array.length + count
  · rw [arrayAppendBulk_wraps nothing (by omega) countWord wraps] at done
    cases done
  rw [arrayAppendBulk_eq nothing (Nat.not_le.mp wraps), Option.map_eq_some_iff] at done
  obtain ⟨⟨t₁, room⟩, made, finished⟩ := done
  cases room with
  | false => exact absurd (congrArg Prod.snd finished) (by simp [finishAppend])
  | true =>
      refine Or.inr ⟨t₁, _, .appendBulk nothing (Nat.not_le.mp wraps) made, ?_⟩
      obtain rfl : copyElements core pool elementSize t₁ src count (t.array.length + count) = t' :=
        congrArg Prod.fst finished
      rw [copyElements, contract.memory_setMemory]
      exact core.memcpy_frame _ _ _ _

omit sizeWord in
/-- **A call that adds elements stores them in such a range only**, beyond what the pool
did to make room. -/
theorem ArrayInv.adds_writes (inv : ArrayInv view elementSize t) {call : ArrayCall elementSize}
    {fuel : Nat} (adds : call.Adds) (allowed : t.Allows view call)
    (performed : t.perform core pool fuel call = some (t', true)) :
    t' = t ∨ StoredOnly core pool t call t' := by
  cases call with
  | push value => exact Or.inr (push_writes contract (Option.some.inj performed))
  | appendBulk src count => exact inv.append_writes contract pos allowed.1 performed
  | reserve newCap => exact adds.elim
  | clear => exact adds.elim
  | destroy => exact adds.elim
  | neighbour call => exact adds.elim

omit sizeWord in
/-- An append up to half of the range returns. -/
theorem ArrayInv.append_returns (inv : ArrayInv view elementSize t) (src : Nat) {count : Nat}
    (half : t.array.length + count ≤ 2 ^ 63) :
    ∃ fuel result, arrayAppendBulk core pool elementSize fuel t src count = some result := by
  have small := inv.capacity_lt contract pos
  apply (arrayAppendBulk_returns_iff (by omega) (by omega) (by omega)).mpr
  apply Or.inr
  apply Or.inr
  apply Or.inr
  exact shift_reaches_of_le (startCapacity_pos _) (startCapacity_lt (by omega) (by omega)) half

/-- **A typed array refines a list.** In a pool that keeps its contract, whichever of
its calls fail, every run of an array from zero leaves the elements that the same
operations make of the empty list, in a block of the pool. -/
theorem typed_array_refines_list {events : List (ListEvent elementSize)}
    (start : (arraySystem core pool view elementSize).Start s)
    (run : (arraySystem core pool view elementSize).Run s events t) :
    ArrayRefines core pool view elementSize t (events.foldl ListEvent.apply []) := by
  obtain ⟨inv, abstractRun⟩ := array_simulates contract pos sizeWord start run
  have bounds := inv.bounds contract
  constructor
  case elements => exact listSystem_run abstractRun
  case length_le => exact inv.length_le
  case fits => omega
  case null =>
    intro null
    rcases inv.block with ⟨_, nothing⟩ | ⟨g, held, holds⟩
    · exact nothing
    · have address := (contract.bounds inv.sound g held).1
      rw [holds.ptr, null] at address
      exact absurd address (Nat.lt_irrefl 0)
  case block =>
    intro some
    rcases inv.block with ⟨null, _⟩ | ⟨g, held, holds⟩
    · exact absurd null some
    · obtain ⟨_, _, room, _⟩ := contract.bounds inv.sound g held
      exact ⟨g, held, holds.ptr, holds.requested ▸ room⟩
  case stores =>
    exact fun call t₁ range stores trusted =>
      inv.stores_inBlock contract pos sizeWord stores trusted
  case writes =>
    exact fun call fuel t' adds allowed performed =>
      inv.adds_writes contract pos adds allowed performed
  case refused => exact fun event t' step => (inv.step contract pos sizeWord step).refused
  case returns => exact fun src count half => inv.append_returns contract pos src half

end Results

/-! ## A small array -/

/-- An empty array, in a region of sixteen pages whose first allocation fails. -/
def emptyArray : ArrayState (FaultyPool ClientPool) :=
  ⟨⟨⟨sixteenPages, true⟩, [true, false]⟩, .empty⟩

def sevens : Element 8 := ⟨[7, 7, 7, 7, 7, 7, 7, 7], rfl⟩

/-- The array after a push that is refused. -/
def refusedPush : ArrayState (FaultyPool ClientPool) :=
  (arrayPush BcCore.reference (faultyPool BcCore.reference) 8 emptyArray sevens).1

/-- The array after a second push. -/
def pushedArray : ArrayState (FaultyPool ClientPool) :=
  (arrayPush BcCore.reference (faultyPool BcCore.reference) 8 refusedPush sevens).1

/-- The system of these arrays. -/
abbrev smallArrays : System (ArrayState (FaultyPool ClientPool)) (ListEvent 8) :=
  arraySystem BcCore.reference (faultyPool BcCore.reference)
    (faultyView BcCore.reference Platform.x86 sixteenPages) 8

theorem emptyArray_start : smallArrays.Start emptyArray :=
  ⟨ClientSound.start sixteenPages_start, rfl⟩

/-- A push is a step of a correct client. -/
theorem push_next {core : BcCore} {pool : PoolApi σ} {view : PoolView σ} {t : ArrayState σ}
    {value : Element elementSize} {done : Bool}
    (trusted : view.Trusted (arrayPush core pool elementSize t value).1.pool)
    (result : (arrayPush core pool elementSize t value).2 = done) :
    (arraySystem core pool view elementSize).Next t ⟨.push value, done⟩
      (arrayPush core pool elementSize t value).1 :=
  ⟨trusted, .push value, trivial, rfl, 0, congrArg some (Prod.ext rfl result)⟩

theorem pushedArray_run :
    smallArrays.Run emptyArray [⟨.push sevens, false⟩, ⟨.push sevens, true⟩] pushedArray := by
  have first : smallArrays.Next emptyArray ⟨.push sevens, false⟩ refusedPush := by
    refine push_next ?_ ?_
    · exact show refusedPush.pool.pool.faithful = true by decide +kernel
    · decide +kernel
  have second : smallArrays.Next refusedPush ⟨.push sevens, true⟩ pushedArray := by
    refine push_next ?_ ?_
    · exact show pushedArray.pool.pool.faithful = true by decide +kernel
    · decide +kernel
  exact ((System.Run.nil emptyArray).snoc first).snoc second

theorem typed_array_refines_list_pushedArray :
    ArrayRefines BcCore.reference (faultyPool BcCore.reference)
      (faultyView BcCore.reference Platform.x86 sixteenPages) 8 pushedArray [sevens] :=
  typed_array_refines_list (faulty_contract _ _ _) (by decide) (by decide) emptyArray_start
    pushedArray_run

end BcAllocators
