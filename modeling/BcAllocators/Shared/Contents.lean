import BcAllocators.Shared.Client

/-!
# What clients of one context keep

A client of a context holds pool blocks and allocations of arenas (`Object`). No call
on behalf of another object changes a byte of it: not a call of the pool for another
block, not a call of any arena for a pool block, and not a call of the pool for an
allocation. So an object stays held, and its bytes stay what they are, through every
run whose calls spare it (`shared_objects_stay`).
-/

set_option autoImplicit false

namespace BcAllocators

open Machine

variable {core : BcCore} {platform : Platform} {foreign : List Extent}

/-! ## Blocks of the pool -/

/-- The call gives up no block at the pointer, and is no write to the address. -/
def PoolCall.Spares (ptr p : Nat) : PoolCall → Prop
  | .allocate _ => True
  | .reallocate other _ => other ≠ ptr
  | .free other => other ≠ ptr
  | .write address bytes => p ∉ Set.Ico address (address + bytes.length)

/-- A block is live with the payload that it had, and the byte is what it was. -/
structure BlockStays (core : BcCore) (s s' : PoolState) (b : LiveBlock) (p : Nat) : Prop where
  live : b ∈ s'.live
  payload : b.payload core s'.world.mem = b.payload core s.world.mem
  same : s'.world.mem p = s.world.mem p

section blocks

variable {s s' : PoolState} {b : LiveBlock} {p : Nat}

/-- A block that stays live keeps its payload when the pool goes on. -/
theorem PoolInv.block_stays {w' : World} {live : List LiveBlock} {carved : List Span}
    {held : PoolKind → List Nat} (inv : PoolInv core platform s)
    (inv' : PoolInv core platform ⟨w', live, s.spans ++ carved⟩)
    (base : w'.ctx.region.base = s.world.ctx.region.base) (member : b ∈ s.live)
    (member' : b ∈ live) (kept : KeepsHeld s.world.mem w'.mem held)
    (inHeld : b.block core ∈ held (b.kind core))
    (inside : p ∈ (b.payload core s.world.mem).bytes) :
    BlockStays core s ⟨w', live, s.spans ++ carved⟩ b p where
  live := member'
  payload := by
    have grant := inv.payload_same inv' base (fun _ => List.mem_append_left _) member member'
    exact congrArg (Extent.mk b.ptr) (congrArg Grant.usable grant)
  same := kept _ _ inHeld p ((inv.placed b member).payload_inside inside)

theorem PoolInv.allocate_stays (inv : PoolInv core platform s) {size : Nat}
    (allowed : size ≤ s.world.ctx.region.totalSize) (member : b ∈ s.live)
    (inside : p ∈ (b.payload core s.world.mem).bytes) :
    BlockStays core s (s.perform core (.allocate size)).1 b p := by
  have after := inv.allocate allowed
  rw [PoolState.perform]
  unfold PoolState.answered at after ⊢
  rcases inv.allocate_outcome allowed with
    ⟨w', same, refused⟩ | ⟨w', block, _, same, granted, update⟩
  · rw [same]
    exact ⟨member, congrArg (b.payload core) refused.mem, congrFun refused.mem p⟩
  · rw [same] at after ⊢
    exact inv.block_stays after update.base member (List.mem_cons_of_mem _ member) granted.kept
      (heldBlocks_of_mem core member) inside

theorem PoolInv.reallocate_stays (inv : PoolInv core platform s) {ptr newSize : Nat}
    (allowed : newSize ≤ s.world.ctx.region.totalSize) (pointer : ptr = NULL ∨ s.Live ptr)
    (other : ptr ≠ b.ptr) (member : b ∈ s.live)
    (inside : p ∈ (b.payload core s.world.mem).bytes) :
    BlockStays core s (s.perform core (.reallocate ptr newSize)).1 b p := by
  rcases pointer with rfl | ⟨d, member', rfl⟩
  · rw [inv.perform_null]
    exact inv.allocate_stays allowed member inside
  have after := inv.reallocate allowed (Or.inr ⟨d, member', rfl⟩)
  obtain ⟨word, noWrap⟩ := inv.no_wrap allowed
  have inOthers : b ∈ dropLive s.live d.ptr :=
    List.mem_filter.mpr ⟨member, decide_eq_true (Ne.symm other)⟩
  rw [PoolState.perform]
  unfold PoolState.answered at after ⊢
  rcases inv.reallocate_outcome member' word noWrap with
    ⟨w', same, refused⟩ | ⟨w', newBlock, _, same, regranted⟩
  · rw [same]
    exact ⟨member, congrArg (b.payload core) refused.mem, congrFun refused.mem p⟩
  · rw [same] at after ⊢
    obtain ⟨_, update, _⟩ := regranted.update
    exact inv.block_stays after update.base member (List.mem_cons_of_mem _ inOthers)
      regranted.granted.kept (inv.held_others member' b inOthers) inside

theorem PoolInv.free_stays (inv : PoolInv core platform s) {ptr : Nat}
    (pointer : ptr = NULL ∨ ptrInRegion s.world.ctx ptr = false ∨ s.Live ptr)
    (other : ptr ≠ b.ptr) (member : b ∈ s.live)
    (inside : p ∈ (b.payload core s.world.mem).bytes) :
    BlockStays core s (s.perform core (.free ptr)).1 b p := by
  have after := inv.release pointer
  rw [PoolState.perform]
  rcases inv.free_cases pointer with ⟨nothing, dead⟩ | ⟨d, member', rfl⟩
  · rw [nothing, dead]
    exact ⟨member, rfl, rfl⟩
  have inOthers : b ∈ dropLive s.live d.ptr :=
    List.mem_filter.mpr ⟨member, decide_eq_true (Ne.symm other)⟩
  have released := inv.released member'
  rw [← List.append_nil s.spans] at after ⊢
  exact inv.block_stays after released.update.base member inOthers released.kept
    (inv.held_others member' b inOthers) inside

/-- **A step of the pool leaves the blocks alone that it spares.** -/
theorem PoolInv.keeps_block {event : PoolEvent} (inv : PoolInv core platform s)
    (member : b ∈ s.live) (inside : p ∈ (b.payload core s.world.mem).bytes)
    (spares : event.call.Spares b.ptr p)
    (step : (poolSystem core platform).Next s event s') : BlockStays core s s' b p := by
  have inv' := inv.step step
  obtain ⟨call, result⟩ := event
  obtain ⟨allowed, performed⟩ := step
  obtain rfl : (s.perform core call).1 = s' := congrArg Prod.fst performed
  cases call with
  | allocate size => exact inv.allocate_stays allowed member inside
  | reallocate ptr newSize =>
      exact inv.reallocate_stays allowed.1 allowed.2 spares member inside
  | free ptr => exact inv.free_stays allowed spares member inside
  | write address bytes =>
      refine ⟨member, ?_, changesOnly_storeBytes s.world.mem address bytes p spares⟩
      have grant := inv.payload_same inv' rfl (fun _ => id) member member
      exact congrArg (Extent.mk b.ptr) (congrArg Grant.usable grant)

end blocks

/-! ## Objects -/

/-- What a client may hold: a pool block, or an allocation of an arena. -/
inductive Object where
  | block (b : LiveBlock)
  | alloc (arena : Nat) (x : Alloc)

namespace Object

/-- The bytes of an object that are its client's. -/
def extent (core : BcCore) (m : Memory) : Object → Extent
  | .block b => b.payload core m
  | .alloc _ x => x.extent

/-- A client holds the object. -/
def Held (s : ContextState) : Object → Prop
  | .block b => b ∈ s.live
  | .alloc arena x => ∃ h ∈ s.arenas, h.address = arena ∧ x ∈ h.allocs

/-- The call neither gives the object up nor is a write to the address. What is
allocated otherwise is always spared by the calls of the other part. -/
def SparedBy (p : Nat) : Object → ContextEvent → Prop
  | .block b, .inl event => event.call.Spares b.ptr p
  | .alloc arena _, .inr event => event.call.Spares arena p
  | _, _ => True

/-- The object is held with the bytes that it had, and one of them is what it was. -/
structure Stays (core : BcCore) (s t : ContextState) (o : Object) (p : Nat) : Prop where
  held : o.Held t
  extent : o.extent core t.world.mem = o.extent core s.world.mem
  same : t.world.mem p = s.world.mem p

end Object

variable {s s' t : ContextState} {o : Object} {p : Nat}

/-- What a client holds in an arena lies outside the region. -/
theorem ArenaInv.alloc_not_region {a : ArenaState} (inv : ArenaInv platform foreign a)
    {h : LiveArena} {x : Alloc} (live : h ∈ a.arenas) (inAllocs : x ∈ h.allocs)
    (inside : p ∈ x.extent.bytes) : p ∉ a.world.ctx.region.addresses := by
  obtain ⟨views, heap, perm⟩ := inv
  obtain ⟨view, inViews, rfl⟩ := List.mem_map.mp (perm.mem_iff.mp live)
  obtain ⟨c, inChunks, within, _⟩ := heap.alloc_inside inViews inAllocs inside
  exact fun inRegion => heap.not_region inRegion
    ⟨c.extent, List.mem_flatMap.mpr ⟨view, inViews, List.mem_map_of_mem inChunks⟩, within⟩

/-- A turn of the arenas leaves the payload of a pool block as it is. -/
theorem PoolInv.payload_stable {q : PoolState} {w' : World} (inv : PoolInv core platform q)
    (other : ArenaGuarantee q.world w') {b : LiveBlock} (member : b ∈ q.live) :
    b.payload core w'.mem = b.payload core q.world.mem := by
  obtain ⟨_, _, _, _, context⟩ := other.update
  have base : w'.ctx.region.base = q.world.ctx.region.base := by rw [context]
  have grant := inv.payload_same (inv.stable other) base (fun _ => id) member member
  exact congrArg (Extent.mk b.ptr) (congrArg Grant.usable grant)

/-- **A step leaves the objects alone that it spares.** -/
theorem SharedInv.keeps {event : ContextEvent} (inv : SharedInv core platform foreign s)
    (held : o.Held s) (inside : p ∈ (o.extent core s.world.mem).bytes)
    (spares : o.SparedBy p event)
    (step : (contextSystem core platform foreign).Next s event s') : o.Stays core s s' p := by
  obtain ⟨pool, arenas, _⟩ := inv
  cases event with
  | inl event =>
      obtain ⟨q, step, rfl⟩ := step
      cases o with
      | block b =>
          have stays := pool.keeps_block held inside spares step
          exact ⟨stays.live, stays.payload, stays.same⟩
      | alloc arena x =>
          refine ⟨held, rfl, ?_⟩
          obtain ⟨h, live, _, inAllocs⟩ := held
          exact (pool.stays step).changes p (arenas.alloc_not_region live inAllocs inside)
  | inr event =>
      obtain ⟨a, step, rfl⟩ := step
      cases o with
      | block b =>
          have other := arenas.guarantee step
          exact ⟨held, pool.payload_stable other held,
            other.spares p (pool.payload_territory held inside)⟩
      | alloc arena x =>
          obtain ⟨h, live, rfl, inAllocs⟩ := held
          have stays := arenas.keeps live inAllocs inside spares step
          exact ⟨stays.held, rfl, stays.same⟩

/-! ## Every run -/

/-- What a run from a state leaves alone when its steps spare it. -/
structure SharedRunStays (core : BcCore) (platform : Platform) (foreign : List Extent)
    (s : ContextState) (o : Object) (p : Nat) (events : List ContextEvent)
    (t : ContextState) : Prop where
  inv : SharedInv core platform foreign t
  stays : (∀ event ∈ events, o.SparedBy p event) → o.Stays core s t p

theorem SharedRunStays.step {t' : ContextState} {events : List ContextEvent}
    {event : ContextEvent} (run : SharedRunStays core platform foreign s o p events t)
    (inside : p ∈ (o.extent core s.world.mem).bytes)
    (step : (contextSystem core platform foreign).Next t event t') :
    SharedRunStays core platform foreign s o p (events ++ [event]) t' := by
  refine ⟨run.inv.step step, fun spares => ?_⟩
  have before := run.stays fun event earlier => spares event (List.mem_append_left _ earlier)
  have last := spares event (List.mem_append_right _ List.mem_cons_self)
  have after := run.inv.keeps before.held (before.extent ▸ inside) last step
  exact ⟨after.held, after.extent.trans before.extent, after.same.trans before.same⟩

/-- **What a client holds stays its own.** From any reachable state of a shared context
and through any run whose calls spare an object, a pool block or an allocation of an
arena, the object stays held at the same extent and each of its bytes stays what it
was, whatever the calls of the pool and of the arenas do to everything else. -/
theorem shared_objects_stay (core : BcCore) (platform : Platform) (foreign : List Extent)
    {events : List ContextEvent}
    (reachable : (contextSystem core platform foreign).Reachable s)
    (run : (contextSystem core platform foreign).Run s events t) (held : o.Held s)
    (inside : p ∈ (o.extent core s.world.mem).bytes)
    (spares : ∀ event ∈ events, o.SparedBy p event) :
    o.Held t ∧ o.extent core t.world.mem = o.extent core s.world.mem ∧
      t.world.mem p = s.world.mem p := by
  have start : SharedRunStays core platform foreign s o p [] s :=
    ⟨SharedInv.reachable reachable, fun _ => ⟨held, rfl, rfl⟩⟩
  have stays := (run.traced (fun before step => before.step inside step) start).stays spares
  exact ⟨stays.held, stays.extent, stays.same⟩

/-- The pool block of the small context stays through the creation of an arena and an
allocation from it. -/
theorem shared_objects_stay_sharedAllocation :
    Object.Held sharedAllocation (.block ⟨65536, 24⟩) ∧
      Object.extent BcCore.reference sharedAllocation.world.mem (.block ⟨65536, 24⟩) =
        Object.extent BcCore.reference sharedBlock.world.mem (.block ⟨65536, 24⟩) ∧
      sharedAllocation.world.mem 65540 = sharedBlock.world.mem 65540 := by
  have created : (contextSystem BcCore.reference Platform.x86 []).Next sharedBlock
      (.inr ⟨.createGrowable 100 0 (some 131072), _⟩) sharedArena :=
    ⟨_, ⟨show (100 : Nat) < 2 ^ 64 ∧ (0 : Nat) < 2 ^ 64 by decide, rfl⟩, rfl⟩
  have allocated : (contextSystem BcCore.reference Platform.x86 []).Next sharedArena
      (.inr ⟨.allocate 131072 24 16 none, _⟩) sharedAllocation :=
    ⟨_, ⟨⟨⟨⟨131072, []⟩, by decide, rfl⟩, by decide, by decide⟩, rfl⟩, rfl⟩
  refine shared_objects_stay BcCore.reference Platform.x86 [] sharedBlock_reachable
    (((System.Run.nil sharedBlock).snoc created).snoc allocated)
    (show (⟨65536, 24⟩ : LiveBlock) ∈ sharedBlock.live by decide)
    (Extent.mem_bytes.mpr (by decide)) fun event member => ?_
  simp only [List.nil_append, List.cons_append, List.mem_cons, List.not_mem_nil,
    or_false] at member
  rcases member with rfl | rfl <;> trivial

end BcAllocators
