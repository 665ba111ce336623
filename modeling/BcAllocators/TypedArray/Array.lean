import BcAllocators.Lib.Elements
import BcAllocators.Lib.Loops
import BcAllocators.Pool.Interface

/-!
# The typed array

The functions that `BC_TYPED_ARRAY_DEFINE` of `bc_allocators_typed_array.h`
generates, in the order of the source, for an element type of `elementSize` bytes
and over the functions of the pool. The array is a structure of its owner, so it
goes along with the pool as a value; the elements are bytes in memory.

Arithmetic on `size_t` wraps, also in the address of an element. The loop of
`append_bulk` may never end: `append_bulk` takes a bound on the number of its
tests and has no result when the loop has not ended by then.
-/

set_option autoImplicit false

namespace BcAllocators

open Machine

/-- `prefix##_t` -/
structure TypedArray where
  data : Nat
  length : Nat
  capacity : Nat
deriving DecidableEq, Repr

/-- `{0}`. -/
def TypedArray.empty : TypedArray := ⟨NULL, 0, 0⟩

/-- The address of `data[index]`. -/
def TypedArray.slot (elementSize : Nat) (arr : TypedArray) (index : Nat) : Nat :=
  wadd arr.data (wmul index elementSize)

/-- The pool, and an array of one of its clients. -/
structure ArrayState (σ : Type) where
  pool : σ
  array : TypedArray

section Interface

variable {σ : Type} (core : BcCore) (pool : PoolApi σ) (elementSize : Nat)

/-- `prefix##_clear`. -/
def arrayClear (t : ArrayState σ) : ArrayState σ :=
  { t with array := { t.array with length := 0 } }

/-- `prefix##_destroy`. -/
def arrayDestroy (t : ArrayState σ) : ArrayState σ :=
  { pool := pool.free t.pool t.array.data
    array := { data := NULL, length := 0, capacity := 0 } }

/-- The two calls of `prefix##_reserve` that ask the pool for the elements. -/
def requestData (t : ArrayState σ) (newSize : Nat) : σ × PtrResult :=
  if t.array.data = NULL then pool.allocate t.pool newSize
  else pool.reallocate t.pool t.array.data newSize

/-- `prefix##_reserve`. -/
def arrayReserve (t : ArrayState σ) (newCap : Nat) : ArrayState σ × Bool :=
  if newCap ≤ t.array.capacity then (t, true)
  else
    match core.safeMultiply newCap elementSize with
    | none => (t, false)
    | some newSize =>
      let answer := requestData pool t newSize
      if answer.2.ok = false then ({ t with pool := answer.1 }, false)
      else
        ({ pool := answer.1
           array := { t.array with data := answer.2.out, capacity := newCap } }, true)

/-- `arr->data[arr->length++] = value`. -/
def storeLast (t : ArrayState σ) (value : Element elementSize) : ArrayState σ :=
  { pool := pool.setMemory t.pool
      (storeBytes (pool.memory t.pool) (t.array.slot elementSize t.array.length) value.1)
    array := { t.array with length := wadd t.array.length 1 } }

/-- `prefix##_push`. -/
def arrayPush (t : ArrayState σ) (value : Element elementSize) : ArrayState σ × Bool :=
  if t.array.length < t.array.capacity then (storeLast pool elementSize t value, true)
  else
    let newCap := if t.array.capacity = 0 then 8 else wmul t.array.capacity 2
    let grown := arrayReserve core pool elementSize t newCap
    if grown.2 = false then (grown.1, false)
    else (storeLast pool elementSize grown.1 value, true)

/-- The capacity at which `prefix##_append_bulk` starts to double. -/
def startCapacity (capacity : Nat) : Nat := if capacity = 0 then 8 else capacity

/-- `while (new_cap < required) new_cap *= 2`. -/
def doubleCapacity (fuel newCap required : Nat) : Option Nat :=
  whileLoop (fun c => c < required) (fun c => wmul c 2) fuel newCap

/-- The part of `prefix##_append_bulk` that makes room for the elements. -/
def makeRoom (fuel : Nat) (t : ArrayState σ) (required : Nat) : Option (ArrayState σ × Bool) :=
  if required ≤ t.array.capacity then some (t, true)
  else
    match doubleCapacity fuel (startCapacity t.array.capacity) required with
    | none => none
    | some newCap => some (arrayReserve core pool elementSize t newCap)

/-- The call of `bc_core_memcpy`, and the new length. -/
def copyElements (t : ArrayState σ) (src count required : Nat) : ArrayState σ :=
  { pool := pool.setMemory t.pool
      (core.memcpy (pool.memory t.pool) (t.array.slot elementSize t.array.length) src
        (wmul count elementSize))
    array := { t.array with length := required } }

/-- `prefix##_append_bulk`. -/
def arrayAppendBulk (fuel : Nat) (t : ArrayState σ) (src count : Nat) :
    Option (ArrayState σ × Bool) :=
  if count = 0 then some (t, true)
  else
    let required := wadd t.array.length count
    if required < t.array.length then some (t, false)
    else
      match makeRoom core pool elementSize fuel t required with
      | none => none
      | some room =>
        if room.2 = false then some (room.1, false)
        else some (copyElements core pool elementSize room.1 src count required, true)

/-- `data[0..length)`, as a client reads it. -/
def arrayElements (t : ArrayState σ) : List (Element elementSize) :=
  (List.range t.array.length).map fun i =>
    loadElement (pool.memory t.pool) (t.array.slot elementSize i) elementSize

end Interface

end BcAllocators
