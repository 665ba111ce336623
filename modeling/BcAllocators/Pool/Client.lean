import BcAllocators.Creation
import BcAllocators.Lib.Transitions
import BcAllocators.Pool.Reallocation

/-!
# Clients of the pool

A client creates a context and then calls the pool and writes to its blocks, in
any order. It asks for at most the size of the region, frees and reallocates
null and live pointers only (or frees a pointer outside the region), and writes
inside its live blocks. The state of such a run is the world, the live blocks
with the sizes last requested for them, and the spans carved so far; only the
world is seen by the code.

`PoolInv` holds in every reachable state: the heap invariant with exactly the
live blocks held, each of them with room for its request.
-/

set_option autoImplicit false

namespace BcAllocators

open Machine

/-! ## Live blocks -/

/-- A pointer that the pool has handed out, with the size last requested. -/
structure LiveBlock where
  ptr : Nat
  requested : Nat
deriving DecidableEq, Repr

namespace LiveBlock

variable (core : BcCore) (b : LiveBlock)

/-- The kind of block that serves the request. -/
def kind : PoolKind := requestKind core b.requested

/-- The address of the block, in front of its header. -/
def block : Nat := b.ptr - (b.kind core).header

/-- The bytes behind the pointer: the block without its header. -/
def payload (m : Memory) : Extent :=
  ⟨b.ptr, (blockExtent m (b.kind core) (b.block core)).size - (b.kind core).header⟩

/-- The bytes that were asked for. -/
def request : Extent := ⟨b.ptr, b.requested⟩

end LiveBlock

/-- The blocks of a kind that are live. -/
def heldBlocks (core : BcCore) (live : List LiveBlock) (kind : PoolKind) : List Nat :=
  (live.filter fun b => b.kind core = kind).map fun b => b.block core

/-- The live blocks without a pointer. -/
def dropLive (live : List LiveBlock) (ptr : Nat) : List LiveBlock :=
  live.filter fun b => b.ptr ≠ ptr

/-! ## Runs -/

/-- The world, and what the client knows of its own history. -/
structure PoolState where
  world : World
  live : List LiveBlock
  spans : List Span

inductive PoolCall where
  | allocate (size : Nat)
  | reallocate (ptr newSize : Nat)
  | free (ptr : Nat)
  | write (address : Nat) (bytes : List UInt8)
deriving DecidableEq, Repr

/-- A call with what it returned. -/
structure PoolEvent where
  call : PoolCall
  result : PtrResult
deriving DecidableEq, Repr

namespace PoolState

variable (core : BcCore) (s : PoolState)

/-- The client holds the pointer. -/
def Live (ptr : Nat) : Prop := ∃ b ∈ s.live, b.ptr = ptr

/-- The calls of a correct client. -/
def Allows : PoolCall → Prop
  | .allocate size => size ≤ s.world.ctx.region.totalSize
  | .reallocate ptr newSize =>
      newSize ≤ s.world.ctx.region.totalSize ∧ (ptr = NULL ∨ s.Live ptr)
  | .free ptr => ptr = NULL ∨ ptrInRegion s.world.ctx ptr = false ∨ s.Live ptr
  | .write address bytes => ∃ b ∈ s.live, b.ptr ≤ address ∧
      address + bytes.length ≤ (b.payload core s.world.mem).stop

instance : DecidablePred (s.Allows core)
  | .allocate size => inferInstanceAs (Decidable (size ≤ s.world.ctx.region.totalSize))
  | .reallocate ptr newSize => inferInstanceAs (Decidable
      (newSize ≤ s.world.ctx.region.totalSize ∧ (ptr = NULL ∨ ∃ b ∈ s.live, b.ptr = ptr)))
  | .free ptr => inferInstanceAs (Decidable
      (ptr = NULL ∨ ptrInRegion s.world.ctx ptr = false ∨ ∃ b ∈ s.live, b.ptr = ptr))
  | .write address bytes => inferInstanceAs (Decidable (∃ b ∈ s.live, b.ptr ≤ address ∧
      address + bytes.length ≤ (b.payload core s.world.mem).stop))

/-- The state after an allocating call for a size, given the live blocks that
the call leaves when it succeeds. -/
def answered (others : List LiveBlock) (size : Nat) (result : World × PtrResult) :
    PoolState × PtrResult :=
  ({ world := result.1
     live := if result.2.ok then ⟨result.2.out, size⟩ :: others else s.live
     spans := s.spans ++ carvedSpan (requestKind core size) s.world.ctx result.1.ctx },
    result.2)

/-- The effect of a call. -/
def perform : PoolCall → PoolState × PtrResult
  | .allocate size => s.answered core s.live size (poolAllocate core s.world size)
  | .reallocate ptr newSize =>
      s.answered core (dropLive s.live ptr) newSize (poolReallocate core s.world ptr newSize)
  | .free ptr =>
      ({ s with world := poolFree s.world ptr, live := dropLive s.live ptr }, ⟨true, NULL⟩)
  | .write address bytes =>
      ({ s with world := { s.world with mem := storeBytes s.world.mem address bytes } },
        ⟨true, NULL⟩)

/-- A call as an event, and the state that it leads to. -/
def event (call : PoolCall) : PoolEvent × PoolState :=
  (⟨call, (s.perform core call).2⟩, (s.perform core call).1)

end PoolState

/-- Correct clients of a fresh context whose region is smaller than half the
address space. -/
def poolSystem (core : BcCore) (platform : Platform) : System PoolState PoolEvent where
  Start s := ∃ config kernel m answers,
    ContextConfig.Word config ∧
    contextCreate core platform config kernel m answers =
      (s.world.kernel, s.world.mem, some s.world.ctx) ∧
    s.world.ctx.region.totalSize < 2 ^ 63 ∧ s.live = [] ∧ s.spans = []
  Next s event s' := s.Allows core event.call ∧ s.perform core event.call = (s', event.result)

/-! ## The invariant -/

variable {core : BcCore} {platform : Platform}

/-- A live block has room for its request, and a large one records it. -/
structure LiveBlock.Placed (core : BcCore) (m : Memory) (b : LiveBlock) : Prop where
  pos : 0 < b.requested
  pointer : b.block core + (b.kind core).header = b.ptr
  fits : (b.kind core).header + b.requested ≤ (blockExtent m (b.kind core) (b.block core)).size
  recorded : b.kind core = .large → userSize m (b.block core) = b.requested

/-- **The invariant of a correct client.** -/
structure PoolInv (core : BcCore) (platform : Platform) (s : PoolState) : Prop where
  heap : ∃ free, PoolHeap platform s.world s.spans (heldBlocks core s.live) free
  placed : ∀ b ∈ s.live, b.Placed core s.world.mem
  nodup : (s.live.map LiveBlock.ptr).Nodup

theorem mem_heldBlocks {live : List LiveBlock} {kind : PoolKind} {a : Nat} :
    a ∈ heldBlocks core live kind ↔ ∃ b ∈ live, b.kind core = kind ∧ b.block core = a := by
  simp [heldBlocks, and_assoc]

theorem heldBlocks_of_mem (core : BcCore) {live : List LiveBlock} {b : LiveBlock}
    (member : b ∈ live) :
    b.block core ∈ heldBlocks core live (b.kind core) :=
  mem_heldBlocks.mpr ⟨b, member, rfl, rfl⟩

theorem heldBlocks_cons (b : LiveBlock) (live : List LiveBlock) :
    heldBlocks core (b :: live) = Function.update (heldBlocks core live) (b.kind core)
      (b.block core :: heldBlocks core live (b.kind core)) := by
  funext kind
  by_cases same : kind = b.kind core
  · subst same
    simp [heldBlocks]
  · rw [Function.update_of_ne same]
    simp [heldBlocks, Ne.symm same]

theorem heldBlocks_perm (core : BcCore) {live live' : List LiveBlock} (perm : live.Perm live')
    (kind : PoolKind) :
    (heldBlocks core live kind).Perm (heldBlocks core live' kind) :=
  (perm.filter _).map _

/-- A pointer occurs once among the live blocks. -/
theorem dropLive_perm {live : List LiveBlock} (nodup : (live.map LiveBlock.ptr).Nodup)
    {b : LiveBlock} (member : b ∈ live) : live.Perm (b :: dropLive live b.ptr) := by
  have same : dropLive live b.ptr = live.erase b := by
    rw [nodup.of_map.erase_eq_filter]
    refine List.filter_congr fun c inLive => ?_
    have injective := List.inj_on_of_nodup_map nodup inLive member
    by_cases equal : c = b
    · simp [equal]
    · have different : c.ptr ≠ b.ptr := fun pointers => equal (injective pointers)
      simp [equal, different]
  rw [same]
  exact List.perm_cons_erase member

/-- The held blocks of a client, with one taken out. -/
theorem heldBlocks_split (core : BcCore) {live : List LiveBlock}
    (nodup : (live.map LiveBlock.ptr).Nodup)
    {b : LiveBlock} (member : b ∈ live) :
    (heldBlocks core live (b.kind core)).Perm
        (b.block core :: heldBlocks core (dropLive live b.ptr) (b.kind core)) ∧
      ∀ kind, (Function.update (heldBlocks core live) (b.kind core)
          (heldBlocks core (dropLive live b.ptr) (b.kind core)) kind).Perm
        (heldBlocks core (dropLive live b.ptr) kind) := by
  have perm := fun kind => heldBlocks_perm core (dropLive_perm nodup member) kind
  rw [heldBlocks_cons] at perm
  refine ⟨by simpa using perm (b.kind core), fun kind => ?_⟩
  by_cases same : kind = b.kind core
  · subst same
    rw [Function.update_self]
  · rw [Function.update_of_ne same]
    have other := perm kind
    rwa [Function.update_of_ne same] at other

/-! ## What keeps the invariant -/

variable {s : PoolState} {w w' : World} {spans : List Span} {held free : PoolKind → List Nat}

/-- Two users have different pointers. -/
theorem PoolHeap.user_injective {kind kind' : PoolKind} {a a' : Nat}
    (heap : PoolHeap platform w spans held free) (first : Owns held free kind a)
    (second : Owns held free kind' a') (same : a + kind.header = a' + kind'.header) :
    a = a' ∧ kind = kind' := by
  rcases heap.block_apart first second with equal | apart
  · exact equal
  · have inside := heap.user_inside first
    rw [same] at inside
    exact absurd (heap.user_inside second) (apart.disjoint inside)

/-- A block stays placed while its bytes are kept. -/
theorem LiveBlock.Placed.kept {m m' : Memory} {b : LiveBlock} (placed : b.Placed core m)
    (kept : KeepsHeld m m' held) (inHeld : b.block core ∈ held (b.kind core))
    (room : 16 ≤ (blockExtent m (b.kind core) (b.block core)).size) : b.Placed core m' where
  pos := placed.pos
  pointer := placed.pointer
  fits := by
    rw [kept.extent_eq inHeld room]
    exact placed.fits
  recorded large := (kept.userSize_eq inHeld room).trans (placed.recorded large)

/-- **A granted block joins the live ones.** -/
theorem PoolInv.grant {others : List LiveBlock} {size block : Nat}
    (heap : ∀ kind, ∀ a ∈ held kind, 16 ≤ (blockExtent w.mem kind a).size)
    (same : ∀ kind, (held kind).Perm (heldBlocks core others kind))
    (placed : ∀ b ∈ others, b.Placed core w.mem) (nodup : (others.map LiveBlock.ptr).Nodup)
    (some : 0 < size)
    (granted : Granted platform w spans held (requestKind core size) size w' block) :
    PoolInv core platform
      { world := w'
        live := ⟨block + (requestKind core size).header, size⟩ :: others
        spans := spans ++ carvedSpan (requestKind core size) w.ctx w'.ctx } := by
  obtain ⟨free, after⟩ := granted.heap
  let b : LiveBlock := ⟨block + (requestKind core size).header, size⟩
  have address : b.block core = block := Nat.add_sub_cancel _ _
  have inHeld : ∀ c ∈ others, c.block core ∈ held (c.kind core) := fun c member =>
    (same _).mem_iff.mpr (heldBlocks_of_mem core member)
  have now : ∀ kind, (heldBlocks core (b :: others) kind).Perm
      (Function.update held (requestKind core size)
        (block :: held (requestKind core size)) kind) := by
    intro kind
    rw [heldBlocks_cons, address]
    by_cases equal : kind = requestKind core size
    · subst equal
      rw [show b.kind core = requestKind core size from rfl, Function.update_self,
        Function.update_self]
      exact (same _).symm.cons block
    · rw [show b.kind core = requestKind core size from rfl, Function.update_of_ne equal,
        Function.update_of_ne equal]
      exact (same kind).symm
  refine ⟨⟨free, after.hold now⟩, fun c member => ?_, ?_⟩
  · rcases List.mem_cons.mp member with rfl | old
    · refine ⟨some, ?_, ?_, fun large => ?_⟩
      · change b.block core + _ = _
        rw [address]
        rfl
      · change _ ≤ (blockExtent _ _ (b.block core)).size
        rw [address]
        exact granted.fits
      · change userSize _ (b.block core) = _
        rw [address]
        exact granted.recorded large
    · exact (placed c old).kept granted.kept (inHeld c old) (heap _ _ (inHeld c old))
  · refine List.nodup_cons.mpr ⟨fun member => ?_, nodup⟩
    -- a live block with the same pointer would be the granted block
    obtain ⟨c, old, pointer⟩ := List.mem_map.mp member
    have owned : PoolHeap.Owns (Function.update held (requestKind core size)
        (block :: held (requestKind core size))) free (c.kind core) (c.block core) :=
      List.mem_append_left _ ((now _).mem_iff.mp
        (heldBlocks_of_mem core (List.mem_cons_of_mem b old)))
    have new : PoolHeap.Owns (Function.update held (requestKind core size)
        (block :: held (requestKind core size))) free (requestKind core size) block :=
      List.mem_append_left _ (by simp)
    obtain ⟨equal, kinds⟩ := after.user_injective owned new (by
      rw [(placed c old).pointer, pointer])
    have once := after.nodup (requestKind core size)
    rw [Function.update_self, List.cons_append, List.nodup_cons] at once
    exact once.1 (List.mem_append_left _ (equal ▸ kinds ▸ inHeld c old))

/-- A refusal keeps the invariant. -/
theorem PoolInv.refuse (inv : PoolInv core platform s) {kind : PoolKind}
    (refused : Refused platform s.world s.spans (heldBlocks core s.live) w') :
    PoolInv core platform
      { world := w', live := s.live,
        spans := s.spans ++ carvedSpan kind s.world.ctx w'.ctx } where
  heap := by
    rw [carvedSpan_same (by rw [refused.region]), List.append_nil]
    exact refused.heap
  placed := by
    simpa only [refused.mem] using inv.placed
  nodup := inv.nodup

/-- The bytes that a release or a move takes a live block to have lie in it. -/
theorem LiveBlock.Placed.bounded {m : Memory} {b : LiveBlock} (placed : b.Placed core m) :
    (b.kind core).header + (b.kind core).charge (userSize m (b.block core)) ≤
      (blockExtent m (b.kind core) (b.block core)).size := by
  cases shape : b.kind core with
  | sized cls => simp [PoolKind.header, PoolKind.charge, blockExtent]
  | large =>
      have fits := placed.fits
      rw [shape] at fits
      rw [PoolKind.charge, placed.recorded shape]
      exact fits

/-! ## Every call keeps the invariant -/

theorem PoolInv.total_lt (inv : PoolInv core platform s) :
    s.world.ctx.region.totalSize < 2 ^ 63 := by
  obtain ⟨free, heap⟩ := inv.heap
  exact heap.geometry.total_lt

/-- An allowed allocation has one of the outcomes of an allocation. -/
theorem PoolInv.allocate_outcome (inv : PoolInv core platform s) {size : Nat}
    (allowed : size ≤ s.world.ctx.region.totalSize) :
    AllocateOutcome core platform s.world s.spans (heldBlocks core s.live) size
      (poolAllocate core s.world size) := by
  obtain ⟨free, heap⟩ := inv.heap
  have half := inv.total_lt
  exact poolAllocate_outcome core heap (by omega) fun total => largeTotal_no_wrap core heap allowed

theorem PoolInv.allocate (inv : PoolInv core platform s) {size : Nat}
    (allowed : size ≤ s.world.ctx.region.totalSize) :
    PoolInv core platform
      (s.answered core s.live size (poolAllocate core s.world size)).1 := by
  unfold PoolState.answered
  rcases inv.allocate_outcome allowed with
    ⟨w', same, refused⟩ | ⟨w', block, some, same, granted, _⟩
  · rw [same]
    exact inv.refuse refused
  · rw [same]
    obtain ⟨free, heap⟩ := inv.heap
    exact PoolInv.grant heap.held_room (fun _ => .refl _) inv.placed inv.nodup some granted

theorem poolReallocate_null (core : BcCore) (w : World) (newSize : Nat) :
    poolReallocate core w NULL newSize = poolAllocate core w newSize := by
  unfold poolReallocate
  by_cases zero : newSize = 0
  · rw [if_pos zero, poolAllocate, if_pos zero]
  · rw [if_neg zero, if_pos rfl]

/-- A pointer that is not live is not dropped. -/
theorem dropLive_of_not_live {live : List LiveBlock} {ptr : Nat}
    (dead : ∀ b ∈ live, b.ptr ≠ ptr) : dropLive live ptr = live := by
  refine List.filter_eq_self.mpr fun b member => ?_
  simpa using dead b member

/-- A live pointer points into the region. -/
theorem PoolInv.inRegion (inv : PoolInv core platform s) {b : LiveBlock} (member : b ∈ s.live) :
    ptrInRegion s.world.ctx b.ptr = true := by
  obtain ⟨free, heap⟩ := inv.heap
  rw [← (inv.placed b member).pointer]
  exact heap.user_inRegion (List.mem_append_left _ (heldBlocks_of_mem core member))

theorem null_not_inRegion {ctx : Context} (geometry : Geometry platform ctx) :
    ptrInRegion ctx NULL = false := by
  have := geometry.base_pos
  unfold ptrInRegion NULL
  rw [decide_eq_false_iff_not]
  omega

theorem PoolInv.null_dead (inv : PoolInv core platform s) : ∀ b ∈ s.live, b.ptr ≠ NULL := by
  intro b member null
  obtain ⟨free, heap⟩ := inv.heap
  have inside := inv.inRegion member
  rw [null, null_not_inRegion heap.geometry] at inside
  exact absurd inside (by simp)

/-- The extents of the live blocks are apart. -/
theorem PoolInv.live_apart (inv : PoolInv core platform s) :
    s.live.Pairwise fun b c => (blockExtent s.world.mem (b.kind core) (b.block core)).Apart
      (blockExtent s.world.mem (c.kind core) (c.block core)) := by
  obtain ⟨free, heap⟩ := inv.heap
  have distinct : s.live.Pairwise fun b c => b.ptr ≠ c.ptr := List.pairwise_map.mp inv.nodup
  refine distinct.imp_of_mem fun {b c} inLive inLive' different => ?_
  rcases heap.block_apart (List.mem_append_left _ (heldBlocks_of_mem core inLive))
    (List.mem_append_left _ (heldBlocks_of_mem core inLive')) with ⟨same, kinds⟩ | apart
  · refine absurd ?_ different
    rw [← (inv.placed b inLive).pointer, ← (inv.placed c inLive').pointer, same, kinds]
  · exact apart

/-- The live blocks without one of them, as held blocks. -/
theorem PoolInv.others (inv : PoolInv core platform s) (ptr : Nat) :
    (∀ c ∈ dropLive s.live ptr, c.Placed core s.world.mem) ∧
      ((dropLive s.live ptr).map LiveBlock.ptr).Nodup :=
  ⟨fun c inOthers => inv.placed c (List.mem_of_mem_filter inOthers),
    inv.nodup.sublist (List.filter_sublist.map _)⟩

/-- A reallocation of the null pointer is an allocation. -/
theorem PoolInv.perform_null (inv : PoolInv core platform s) (newSize : Nat) :
    s.perform core (.reallocate NULL newSize) = s.perform core (.allocate newSize) := by
  unfold PoolState.perform
  dsimp only
  rw [dropLive_of_not_live inv.null_dead, poolReallocate_null]

/-- The blocks that stay held when one is taken out are those of the others. -/
theorem PoolInv.held_others (inv : PoolInv core platform s) {b : LiveBlock} (member : b ∈ s.live) :
    ∀ c ∈ dropLive s.live b.ptr, c.block core ∈ Function.update (heldBlocks core s.live)
      (b.kind core) (heldBlocks core (dropLive s.live b.ptr) (b.kind core)) (c.kind core) :=
  fun _ inOthers => ((heldBlocks_split core inv.nodup member).2 _).mem_iff.mpr
    (heldBlocks_of_mem core inOthers)

/-- A reallocation of a live block has one of the outcomes of a reallocation, as
long as its sum with the bump pointer does not wrap. -/
theorem PoolInv.reallocate_outcome (inv : PoolInv core platform s) {b : LiveBlock}
    (member : b ∈ s.live) {newSize : Nat} (word : newSize < 2 ^ 64)
    (noWrap : ∀ total, largeTotal core s.world.ctx newSize = some total →
      s.world.ctx.region.bump + total < 2 ^ 64) :
    ReallocateOutcome core platform s.world s.spans (heldBlocks core s.live) (b.kind core)
      (b.block core) (heldBlocks core (dropLive s.live b.ptr) (b.kind core)) newSize
      (poolReallocate core s.world b.ptr newSize) := by
  obtain ⟨free, heap⟩ := inv.heap
  have placed := inv.placed b member
  have outcome := poolReallocate_outcome core heap (heldBlocks_split core inv.nodup member).1
    placed.bounded word noWrap
  rwa [placed.pointer] at outcome

theorem PoolInv.no_wrap (inv : PoolInv core platform s) {size : Nat}
    (allowed : size ≤ s.world.ctx.region.totalSize) :
    size < 2 ^ 64 ∧ ∀ total, largeTotal core s.world.ctx size = some total →
      s.world.ctx.region.bump + total < 2 ^ 64 := by
  obtain ⟨free, heap⟩ := inv.heap
  have half := inv.total_lt
  exact ⟨by omega, fun total => largeTotal_no_wrap core heap allowed⟩

theorem PoolInv.reallocate (inv : PoolInv core platform s) {ptr newSize : Nat}
    (allowed : newSize ≤ s.world.ctx.region.totalSize) (pointer : ptr = NULL ∨ s.Live ptr) :
    PoolInv core platform
      (s.answered core (dropLive s.live ptr) newSize
        (poolReallocate core s.world ptr newSize)).1 := by
  rcases pointer with rfl | ⟨b, member, rfl⟩
  · rw [dropLive_of_not_live inv.null_dead, poolReallocate_null]
    exact inv.allocate allowed
  obtain ⟨word, noWrap⟩ := inv.no_wrap allowed
  unfold PoolState.answered
  rcases inv.reallocate_outcome member word noWrap with
    ⟨w', result, refused⟩ | ⟨w', newBlock, some, result, regranted⟩
  · rw [result]
    exact inv.refuse refused
  · rw [result]
    obtain ⟨free, heap⟩ := inv.heap
    obtain ⟨split, same⟩ := heldBlocks_split core inv.nodup member
    obtain ⟨others, nodup⟩ := inv.others b.ptr
    exact PoolInv.grant
      (fun kind a inHeld => heap.held_room kind a (mem_of_mem_update split kind a inHeld))
      same others nodup some regranted.granted

/-- A pointer that may be freed is live, or nothing happens. -/
theorem PoolInv.free_cases (inv : PoolInv core platform s) {ptr : Nat}
    (pointer : ptr = NULL ∨ ptrInRegion s.world.ctx ptr = false ∨ s.Live ptr) :
    poolFree s.world ptr = s.world ∧ dropLive s.live ptr = s.live ∨ s.Live ptr := by
  obtain ⟨free, heap⟩ := inv.heap
  have outside : ptrInRegion s.world.ctx ptr = false →
      poolFree s.world ptr = s.world ∧ dropLive s.live ptr = s.live := by
    intro off
    refine ⟨poolFree_outside off, dropLive_of_not_live ?_⟩
    rintro b member rfl
    rw [inv.inRegion member] at off
    exact absurd off (by simp)
  rcases pointer with rfl | off | live
  · exact Or.inl (outside (null_not_inRegion heap.geometry))
  · exact Or.inl (outside off)
  · exact Or.inr live

/-- The release of a live block. -/
theorem PoolInv.released (inv : PoolInv core platform s) {b : LiveBlock} (member : b ∈ s.live) :
    Released platform s.world s.spans (Function.update (heldBlocks core s.live) (b.kind core)
        (heldBlocks core (dropLive s.live b.ptr) (b.kind core)))
      ((b.kind core).charge (userSize s.world.mem (b.block core)))
      (poolFree s.world b.ptr) := by
  obtain ⟨free, heap⟩ := inv.heap
  have released := poolFree_released heap (heldBlocks_split core inv.nodup member).1
  rwa [(inv.placed b member).pointer] at released

theorem PoolInv.release (inv : PoolInv core platform s) {ptr : Nat}
    (pointer : ptr = NULL ∨ ptrInRegion s.world.ctx ptr = false ∨ s.Live ptr) :
    PoolInv core platform
      { s with world := poolFree s.world ptr, live := dropLive s.live ptr } := by
  rcases inv.free_cases pointer with ⟨nothing, dead⟩ | ⟨b, member, rfl⟩
  · rw [nothing, dead]
    exact inv
  obtain ⟨free, heap⟩ := inv.heap
  obtain ⟨split, same⟩ := heldBlocks_split core inv.nodup member
  have released := inv.released member
  obtain ⟨others, nodup⟩ := inv.others b.ptr
  obtain ⟨free', after⟩ := released.heap
  refine ⟨⟨free', after.hold fun kind => (same kind).symm⟩, fun c inOthers => ?_, nodup⟩
  have inHeld := inv.held_others member c inOthers
  exact (others c inOthers).kept released.kept inHeld
    (heap.held_room _ _ (mem_of_mem_update split _ _ inHeld))

/-- A write inside the payload of a live block. -/
theorem PoolInv.write (inv : PoolInv core platform s) {m : Memory} {b : LiveBlock}
    (member : b ∈ s.live)
    (changes : ChangesOnly (b.payload core s.world.mem).bytes s.world.mem m) :
    PoolInv core platform { s with world := { s.world with mem := m } } := by
  obtain ⟨free, heap⟩ := inv.heap
  have placed := inv.placed b member
  obtain ⟨split, same⟩ := heldBlocks_split core inv.nodup member
  have pointer := placed.pointer
  have fits := placed.fits
  have user : (b.payload core s.world.mem).bytes ⊆
      PoolHeap.writable s.world.mem (b.kind core) (b.block core) := by
    intro c inside
    rw [Extent.mem_bytes] at inside
    unfold LiveBlock.payload at inside
    dsimp only at inside
    refine ⟨Extent.mem_bytes.mpr (by rw [blockExtent_start]; omega), fun large => Or.inr ?_⟩
    have header : (b.kind core).header = 16 := by rw [large]; rfl
    omega
  have written := changes.mono user
  refine ⟨⟨free, heap.write (heldBlocks_of_mem core member) written⟩, fun c live => ?_, inv.nodup⟩
  by_cases own : c = b
  · -- the header of the written block lies in front of its payload
    subst own
    have header : c.kind core = .large → ∀ a, c.block core ≤ a → a < c.block core + 16 →
        m a = s.world.mem a := by
      intro large a _ upper
      refine changes a fun inside => ?_
      rw [Extent.mem_bytes] at inside
      unfold LiveBlock.payload at inside
      have size : (c.kind core).header = 16 := by rw [large]; rfl
      dsimp only at inside
      omega
    refine ⟨placed.pos, pointer, ?_, fun large => ?_⟩
    · cases shape : c.kind core with
      | sized cls => simpa [shape, blockExtent] using fits
      | large =>
          have total : metaTotalSize m (c.block core) = metaTotalSize s.world.mem (c.block core) :=
            loadWord_congr fun a lower upper => header shape a (by omega) (by omega)
          rw [shape, blockExtent] at fits
          rw [blockExtent, total]
          exact fits
    · refine Eq.trans ?_ (placed.recorded large)
      exact loadWord_congr fun a lower upper => header large a lower (by omega)
  · have kept := heap.keepsHeld_write split written
    have different : c.ptr ≠ b.ptr := fun pointers =>
      own (List.inj_on_of_nodup_map inv.nodup live member pointers)
    have inOthers : c ∈ dropLive s.live b.ptr :=
      List.mem_filter.mpr ⟨live, by simpa using different⟩
    have inHeld := (same _).mem_iff.mpr (heldBlocks_of_mem core inOthers)
    exact (inv.placed c live).kept kept inHeld
      (heap.held_room _ _ (mem_of_mem_update split _ _ inHeld))

/-! ## Fresh contexts -/

/-- A fresh context has the geometry of its region. -/
theorem Created.geometry {config : Option ContextConfig} {kernel kernel' : Kernel}
    {m m' : Memory} {ctx : Context}
    (created : Created core platform config kernel m kernel' m' ctx)
    (half : ctx.region.totalSize < 2 ^ 63) : Geometry platform ctx := by
  obtain ⟨_, basePos, aligned, stop, _⟩ := created.region
  have total : ctx.region.totalSize = regionSize platform config := by
    rw [created.context]
    rfl
  refine ⟨?_, ?_, basePos, Nat.dvd_of_mod_eq_zero aligned, half, ?_, ?_⟩
  · rw [created.context]
    rfl
  · rw [created.context]
    exact core.ctzU64_eq (platform.lt_long.trans (by decide))
  · rw [total]
    exact dvd_roundUp _ _
  · rw [total]
    exact stop

/-- **A fresh context has an empty heap.** -/
theorem Created.poolInv {config : Option ContextConfig} {kernel : Kernel} {m : Memory}
    (created : Created core platform config kernel m w.kernel w.mem w.ctx)
    (half : w.ctx.region.totalSize < 2 ^ 63) :
    PoolInv core platform { world := w, live := [], spans := [] } := by
  have geometry := created.geometry half
  have context := created.context
  have bump : w.ctx.region.bump = 0 := by
    rw [context]
    rfl
  refine ⟨⟨fun _ => [], ?_⟩, by simp, List.nodup_nil⟩
  constructor
  case geometry => exact geometry
  case tiles => exact bump.symm
  case bump_le =>
    rw [bump]
    exact Nat.zero_le _
  case shaped => simp
  case tagged => simp
  case untagged =>
    intro page _
    rw [context]
    rfl
  case totals => simp
  case lists =>
    intro kind
    have empty : w.ctx.freeList kind = FreeList.empty := by
      rw [context]
      cases kind <;> rfl
    rw [empty]
    exact FreeList.holds_empty w.mem
  case partition =>
    intro kind
    exact .refl _

theorem PoolInv.start (start : (poolSystem core platform).Start s) : PoolInv core platform s := by
  obtain ⟨config, kernel, m, answers, word, created, half, live, spans⟩ := start
  obtain ⟨world, _, _⟩ := s
  subst live spans
  exact (contextCreate_some word created).poolInv half

/-! ## Every run -/

/-- **Each call of a correct client keeps the invariant.** -/
theorem PoolInv.step {s' : PoolState} {event : PoolEvent} (inv : PoolInv core platform s)
    (step : (poolSystem core platform).Next s event s') : PoolInv core platform s' := by
  obtain ⟨call, result⟩ := event
  obtain ⟨allowed, performed⟩ := step
  have same : s' = (s.perform core call).1 := (congrArg Prod.fst performed).symm
  subst same
  cases call with
  | allocate size => exact inv.allocate allowed
  | reallocate ptr newSize => exact inv.reallocate allowed.1 allowed.2
  | free ptr => exact inv.release allowed
  | write address bytes =>
      obtain ⟨b, member, lower, upper⟩ := allowed
      refine inv.write member ((changesOnly_storeBytes _ _ _).mono ?_)
      intro a inside
      rw [Set.mem_Ico] at inside
      exact ⟨lower.trans inside.1, lt_of_lt_of_le inside.2 upper⟩

/-- A call changes nothing but the pool. -/
theorem PoolInv.update {s' : PoolState} {event : PoolEvent} (inv : PoolInv core platform s)
    (step : (poolSystem core platform).Next s event s') :
    ∃ change, PoolUpdate change s.world s'.world := by
  obtain ⟨call, result⟩ := event
  obtain ⟨allowed, performed⟩ := step
  obtain rfl : (s.perform core call).1 = s' := congrArg Prod.fst performed
  have allocates : ∀ size, size ≤ s.world.ctx.region.totalSize →
      ∃ change, PoolUpdate change s.world (poolAllocate core s.world size).1 := by
    intro size within
    rcases inv.allocate_outcome within with
      ⟨w', same, refused⟩ | ⟨w', block, _, same, _, update⟩
    · rw [same]
      exact ⟨id, refused.update⟩
    · rw [same]
      exact ⟨_, update⟩
  cases call with
  | allocate size => exact allocates size allowed
  | reallocate ptr newSize =>
      rcases allowed.2 with rfl | ⟨b, member, rfl⟩
      · rw [inv.perform_null]
        exact allocates newSize allowed.1
      obtain ⟨word, noWrap⟩ := inv.no_wrap allowed.1
      unfold PoolState.perform
      dsimp only [PoolState.answered]
      rcases inv.reallocate_outcome member word noWrap with
        ⟨w', same, refused⟩ | ⟨w', newBlock, _, same, regranted⟩
      · rw [same]
        exact ⟨id, refused.update⟩
      · rw [same]
        obtain ⟨change, update, _⟩ := regranted.update
        exact ⟨change, update⟩
  | free ptr =>
      unfold PoolState.perform
      dsimp only
      rcases inv.free_cases allowed with ⟨nothing, _⟩ | ⟨b, member, rfl⟩
      · rw [nothing]
        exact ⟨id, PoolUpdate.refl s.world⟩
      · exact ⟨_, (inv.released member).update⟩
  | write address bytes => exact ⟨id, PoolUpdate.memory s.world _⟩

/-- **The invariant holds in every reachable state.** -/
theorem PoolInv.reachable (reachable : (poolSystem core platform).Reachable s) :
    PoolInv core platform s :=
  System.Reachable.invariant (fun _ start => PoolInv.start start)
    (fun inv step => inv.step step) reachable

/-- **The heap of a pool is well formed in every reachable state.** The spans
tile the carved part of the region and have the sizes of the two ways of carving;
the page-class map names the class of every carved page and is untouched above;
the headers of large spans record their sizes; and each block of a kind is live
or in the free list of its kind, exactly once. -/
theorem pool_heap_wellFormed (core : BcCore) (platform : Platform) {s : PoolState}
    (reachable : (poolSystem core platform).Reachable s) :
    ∃ free, PoolHeap platform s.world s.spans (heldBlocks core s.live) free ∧
      (∀ kind, (heldBlocks core s.live kind ++ free kind).Nodup) ∧
      ∀ kind a, (∃ sp ∈ s.spans, sp.kind = kind ∧ a ∈ sp.blocks s.world.ctx.region.base) ↔
        a ∈ heldBlocks core s.live kind ∨ a ∈ free kind := by
  obtain ⟨free, heap⟩ := (PoolInv.reachable reachable).heap
  refine ⟨free, heap, heap.nodup, fun kind a => ?_⟩
  rw [← mem_kindBlocks, ← (heap.partition kind).mem_iff, List.mem_append]

/-! ## A small context -/

/-- A tracked context with a region of sixteen pages, on a machine where nothing
else is mapped. -/
def sixteenPages : PoolState where
  world :=
    { ctx := initContext BcCore.reference Platform.x86 ⟨65536, true, 1, 7⟩ 4096 65536 8192 65536
        4096 4096
      mem := fillBytes (fillBytes (fillBytes (fun _ => 0) 4096 4096 0) 65536 65536 0) 8192 4096 0
      kernel :=
        { mapped := [⟨8192, 4096⟩, ⟨65536, 65536⟩, ⟨4096, 4096⟩]
          mapLog := [⟨8192, 4096⟩, ⟨65536, 65536⟩, ⟨4096, 4096⟩]
          unmapLog := [] } }
  live := []
  spans := []

theorem sixteenPages_start : (poolSystem BcCore.reference Platform.x86).Start sixteenPages := by
  refine ⟨some ⟨65536, true, 1, 7⟩, ⟨[], [], []⟩, fun _ => 0,
    ⟨some 4096, some 65536, some 8192⟩, ?_, rfl, by decide, rfl, rfl⟩
  rintro c ⟨rfl⟩
  decide

/-- A correct client may make any allowed call. -/
theorem reachable_perform (call : PoolCall) (reachable : (poolSystem core platform).Reachable s)
    (allowed : s.Allows core call) :
    (poolSystem core platform).Reachable (s.perform core call).1 :=
  reachable.next (show (poolSystem core platform).Next s ⟨call, (s.perform core call).2⟩ _ from
    ⟨allowed, rfl⟩)

/-- Allowed calls are a run. -/
theorem poolRun_calls {calls : List PoolCall} (reachable : (poolSystem core platform).Reachable s)
    (allowed : System.AllowsAll (PoolState.event core) (PoolState.Allows core) s calls) :
    (poolSystem core platform).Run s (System.performAll (PoolState.event core) s calls).1
      (System.performAll (PoolState.event core) s calls).2 := by
  refine System.Reachable.run_calls ?_ reachable allowed
  exact fun _ _ _ allows => ⟨allows, rfl⟩

/-- Two blocks are allocated and one of them written, then it is moved to a larger
class. -/
def movingCalls : List PoolCall :=
  [.allocate 24, .allocate 40, .write 65536 [1, 2, 3], .reallocate 65536 5000]

/-- The small context after these calls. -/
def movedBlock : PoolState :=
  (System.performAll (PoolState.event BcCore.reference) sixteenPages movingCalls).2

/-- The small context after an allocation of 24 bytes and its release. -/
def oneRelease : PoolState :=
  ((sixteenPages.perform BcCore.reference (.allocate 24)).1.perform BcCore.reference
    (.free 65536)).1

theorem oneRelease_reachable :
    (poolSystem BcCore.reference Platform.x86).Reachable oneRelease :=
  reachable_perform (.free 65536)
    (reachable_perform (.allocate 24) (.start sixteenPages_start)
      (show (24 : Nat) ≤ 65536 by decide))
    (Or.inr (Or.inr ⟨⟨65536, 24⟩, by decide, rfl⟩))

theorem oneRelease_wellFormed :
    ∃ free, PoolHeap Platform.x86 oneRelease.world oneRelease.spans
        (heldBlocks BcCore.reference oneRelease.live) free ∧
      (∀ kind, (heldBlocks BcCore.reference oneRelease.live kind ++ free kind).Nodup) ∧
      ∀ kind a, (∃ sp ∈ oneRelease.spans, sp.kind = kind ∧
          a ∈ sp.blocks oneRelease.world.ctx.region.base) ↔
        a ∈ heldBlocks BcCore.reference oneRelease.live kind ∨ a ∈ free kind :=
  pool_heap_wellFormed BcCore.reference Platform.x86 oneRelease_reachable

example : oneRelease.spans = [⟨.sized 1, 0, 4096⟩] := by decide

end BcAllocators
