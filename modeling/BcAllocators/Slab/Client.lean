import BcAllocators.Lib.Transitions
import BcAllocators.Pool.Contract
import BcAllocators.Pool.Neighbours
import BcAllocators.Slab.Lifecycle

/-!
# Clients of a slab

A client creates a slab and then allocates and frees objects and writes to them,
in any order, while other clients of the pool make calls of their own. It frees
live objects only and writes inside live objects. The state of such a run is the
pool, the address of the slab, the live objects and the blocks that the calls of
the slab have taken from the pool; the code sees the first two.

In every reachable state there is a slab with these live objects and these
blocks (`SlabRun.Shows`). So its free slots and its live objects are its slots,
each once, and a page is added only when every slot is live
(`slab_state_machine`).
-/

set_option autoImplicit false

namespace BcAllocators

open Machine

variable {σ : Type} {pool : PoolApi σ} {view : PoolView σ} {s s' : σ} {v : SlabView}
variable {others : List Grant} {objectSize objectsPerSlab : Nat}

/-! ## Runs -/

/-- A slab in use: the pool and the address, and what its client knows. -/
structure SlabRun (σ : Type) where
  pool : σ
  slab : Nat
  live : List Nat
  taken : List Grant

inductive SlabCall where
  | allocate
  | free (ptr : Nat)
  | write (address : Nat) (bytes : List UInt8)
  | neighbour (call : PoolCall)
deriving DecidableEq, Repr

/-- A call with what it returned. -/
structure SlabEvent where
  call : SlabCall
  result : PtrResult
deriving DecidableEq, Repr

/-- The blocks that are held after a call and not before. -/
def newGrants (view : PoolView σ) (s s' : σ) : List Grant :=
  (view.grants s').filter fun g => g ∉ view.grants s

namespace SlabRun

variable (pool : PoolApi σ) (view : PoolView σ) (objectSize : Nat) (t : SlabRun σ)

/-- The calls of a correct client, and of the others. -/
def Allows : SlabCall → Prop
  | .allocate => True
  | .free ptr => ptr ∈ t.live
  | .write address bytes => ∃ a ∈ t.live, a ≤ address ∧ address + bytes.length ≤ a + objectSize
  | .neighbour call => view.Neighbourly t.pool t.taken call

/-- The effect of a call. -/
def perform : SlabCall → SlabRun σ × PtrResult
  | .allocate =>
      let answer := slabAllocate pool t.pool t.slab
      ({ t with pool := answer.1
                live := if answer.2.ok then answer.2.out :: t.live else t.live
                taken := newGrants view t.pool answer.1 ++ t.taken }, answer.2)
  | .free ptr =>
      ({ t with pool := slabFree pool t.pool t.slab ptr, live := t.live.erase ptr }, ⟨true, NULL⟩)
  | .write address bytes =>
      ({ t with pool := pool.setMemory t.pool (storeBytes (pool.memory t.pool) address bytes) },
        ⟨true, NULL⟩)
  | .neighbour call => ({ t with pool := pool.neighbour t.pool call }, ⟨true, NULL⟩)

end SlabRun

/-- Correct clients of a new slab, in a pool that keeps its contract. -/
def slabSystem (pool : PoolApi σ) (view : PoolView σ) (objectSize objectsPerSlab : Nat) :
    System (SlabRun σ) SlabEvent where
  Start t := ∃ s memory, view.Sound s ∧ view.Trusted t.pool ∧
    slabCreate pool s memory objectSize objectsPerSlab = (t.pool, ⟨true, t.slab⟩) ∧
    t.live = [] ∧ t.taken = newGrants view s t.pool
  Next t event t' := view.Trusted t'.pool ∧ t.Allows view objectSize event.call ∧
    t.perform pool view event.call = (t', event.result)

/-! ## Blocks that are taken -/

theorem newGrants_same (same : view.grants s' = view.grants s) : newGrants view s s' = [] := by
  unfold newGrants
  rw [same]
  exact List.filter_eq_nil_iff.mpr fun g member => by simpa using member

/-- The blocks added in front of the others are the new ones. -/
theorem PoolContract.newGrants_append (contract : PoolContract pool view)
    (sound : view.Sound s') {new : List Grant} (more : view.grants s' = new ++ view.grants s) :
    newGrants view s s' = new := by
  have nodup := contract.grants_nodup sound
  rw [more] at nodup
  have fresh : ∀ g ∈ new, g ∉ view.grants s :=
    fun g member old => (List.nodup_append.mp nodup).2.2 g member g old rfl
  have stale : (view.grants s).filter (fun g => g ∉ view.grants s) = [] := newGrants_same rfl
  unfold newGrants
  rw [more, List.filter_append, stale, List.append_nil]
  exact List.filter_eq_self.mpr fun g member => by simpa using fresh g member

/-! ## What a run shows -/

/-- The state of a run is a slab with the objects and the blocks of the client. -/
structure SlabRun.Shows (pool : PoolApi σ) (view : PoolView σ) (objectSize objectsPerSlab : Nat)
    (t : SlabRun σ) (v : SlabView) (others : List Grant) : Prop where
  address : v.address = t.slab
  objectSize : v.objectSize = objectSize
  objectsPerSlab : v.objectsPerSlab = objectsPerSlab
  live : v.live.Perm t.live
  taken : v.grants.Perm t.taken
  some : v.pages ≠ []
  inv : SlabInv pool view t.pool v others

/-- A write inside a live object keeps the slab. -/
theorem SlabInv.writeObject (contract : PoolContract pool view)
    (inv : SlabInv pool view s v others) {a address : Nat} {bytes : List UInt8}
    (live : a ∈ v.live) (lower : a ≤ address)
    (upper : address + bytes.length ≤ a + v.objectSize) :
    SlabInv pool view (pool.setMemory s (storeBytes (pool.memory s) address bytes)) v others := by
  obtain ⟨p, inPages, slot⟩ := SlabLayout.mem_slots.mp (inv.layout.live_mem live)
  have inside := inv.layout.slot_inside inPages slot
  have changes := changesOnly_storeBytes (pool.memory s) address bytes
  refine inv.write contract rfl (changes.mono fun b within => ?_)
    (inv.shape.congr fun b reads => ?_) inv.layout
  · rw [Set.mem_Ico] at within
    exact ⟨p.objects, SlabLayout.mem_grants_objects inPages, inside.1.trans (lower.trans within.1),
      lt_of_lt_of_le within.2 (upper.trans inside.2)⟩
  · refine changes b fun within => ?_
    rw [Set.mem_Ico] at within
    exact inv.layout.live_unread live (lower.trans within.1) (lt_of_lt_of_le within.2 upper) reads

namespace SlabRun

variable {t t' : SlabRun σ} {event : SlabEvent}

/-- A new slab is shown, with one page. -/
theorem Shows.created (contract : PoolContract pool view)
    (fits : objectsPerSlab * objectSize < 2 ^ 64)
    (start : (slabSystem pool view objectSize objectsPerSlab).Start t) :
    ∃ v others, t.Shows pool view objectSize objectsPerSlab v others ∧ v.pages.length = 1 := by
  obtain ⟨s, memory, sound, trusted, created, live, taken⟩ := start
  have kept : view.Trusted (slabCreate pool s memory objectSize objectsPerSlab).1 := by
    rwa [created]
  rcases slabCreate_spec contract sound fits kept with ⟨failed, _⟩ | ⟨v, result, slab⟩
  · rw [created] at failed
    simp [PtrResult.failed] at failed
  · rw [created] at result slab
    obtain ⟨p, pages, grants⟩ := slab.page
    refine ⟨v, view.grants s, ⟨?_, slab.objectSize, slab.objectsPerSlab, ?_, ?_, ?_, slab.inv⟩, ?_⟩
    · exact (congrArg PtrResult.out result).symm
    · rw [live, slab.live]
    · have more : view.grants t.pool = [p.objects, p.page, v.header] ++ view.grants s := grants
      rw [taken, contract.newGrants_append slab.inv.sound more]
      unfold SlabView.grants
      rw [pages]
      exact (List.perm_append_singleton v.header [p.objects, p.page]).symm
    · rw [pages]
      exact List.cons_ne_nil p []
    · rw [pages]
      rfl

/-- A new slab is shown. -/
theorem Shows.start (contract : PoolContract pool view)
    (fits : objectsPerSlab * objectSize < 2 ^ 64)
    (start : (slabSystem pool view objectSize objectsPerSlab).Start t) :
    ∃ v others, t.Shows pool view objectSize objectsPerSlab v others := by
  obtain ⟨v, others, shows, _⟩ := Shows.created contract fits start
  exact ⟨v, others, shows⟩

/-- What an allocation does to a slab that is shown. -/
theorem Shows.allocate (contract : PoolContract pool view)
    (shows : t.Shows pool view objectSize objectsPerSlab v others)
    (trusted : view.Trusted (t.perform pool view .allocate).1.pool) :
    ∃ v', (t.perform pool view .allocate).1.Shows pool view objectSize objectsPerSlab v' others ∧
      (v'.pages = v.pages ∨ v.free = [] ∧ ∃ p, v'.pages = p :: v.pages) := by
  obtain ⟨address, size, count, live, taken, some, inv⟩ := shows
  unfold SlabRun.perform at trusted ⊢
  dsimp only at trusted ⊢
  rw [← address] at trusted ⊢
  have outcome := slabAllocate_spec contract inv trusted
  generalize slabAllocate pool t.pool v.address = answer at outcome ⊢
  cases outcome with
  | refused _ failed nothing =>
      rw [failed, newGrants_same nothing.grants]
      exact ⟨v, ⟨rfl, size, count, live, taken, some, nothing.slab inv⟩, Or.inl rfl⟩
  | @reused a rest result same object =>
      rw [result, newGrants_same same]
      exact ⟨v.move rest (a :: v.live), ⟨rfl, size, count, live.cons a, taken, some, object.inv⟩,
        Or.inl rfl⟩
  | @added p a rest full result more object =>
      have new : view.grants answer.1 = [p.objects, p.page] ++ view.grants t.pool := more
      rw [result, contract.newGrants_append object.inv.sound new]
      refine ⟨(v.withPage p).move rest (a :: v.live),
        ⟨rfl, size, count, live.cons a, ?_, List.cons_ne_nil p _, object.inv⟩,
        Or.inr ⟨full, p, rfl⟩⟩
      -- the header stays in front of the new blocks
      have front : (v.withPage p).grants.Perm ([p.objects, p.page] ++ v.grants) :=
        (@List.perm_middle _ v.header [p.objects, p.page] _).symm
      exact front.trans (taken.append_left [p.objects, p.page])

/-- **What a step does to a slab that is shown**: it shows a slab again, with the
same pages, or with one more because an allocation found no free slot. -/
theorem Shows.step (contract : PoolContract pool view)
    (shows : t.Shows pool view objectSize objectsPerSlab v others)
    (step : (slabSystem pool view objectSize objectsPerSlab).Next t event t') :
    ∃ v' others', t'.Shows pool view objectSize objectsPerSlab v' others' ∧
      (v'.pages = v.pages ∨
        event.call = .allocate ∧ v.free = [] ∧ ∃ p, v'.pages = p :: v.pages) := by
  obtain ⟨call, result⟩ := event
  obtain ⟨trusted, allowed, performed⟩ := step
  obtain rfl : (t.perform pool view call).1 = t' := congrArg Prod.fst performed
  cases call with
  | allocate =>
      obtain ⟨v', shows', pages⟩ := shows.allocate contract trusted
      exact ⟨v', others, shows', pages.imp id fun added => ⟨rfl, added⟩⟩
  | free ptr =>
      obtain ⟨address, size, count, live, taken, some, inv⟩ := shows
      have split : v.live.Perm (ptr :: t.live.erase ptr) :=
        live.trans (List.perm_cons_erase allowed)
      obtain ⟨inv', _⟩ := slabFree_spec contract inv split
      refine ⟨v.move (ptr :: v.free) (t.live.erase ptr), others, ?_, Or.inl rfl⟩
      unfold SlabRun.perform
      dsimp only
      rw [address] at inv'
      generalize slabFree pool t.pool t.slab ptr = s' at inv' ⊢
      exact ⟨address, size, count, .refl _, taken, some, inv'⟩
  | write address bytes =>
      obtain ⟨slab, size, count, live, taken, some, inv⟩ := shows
      obtain ⟨a, member, lower, upper⟩ := allowed
      have inv' := inv.writeObject contract (live.mem_iff.mpr member) lower (size ▸ upper)
      exact ⟨v, others, ⟨slab, size, count, live, taken, some, inv'⟩, Or.inl rfl⟩
  | neighbour call =>
      obtain ⟨address, size, count, live, taken, some, inv⟩ := shows
      have held := inv.held.trans (taken.append_right others)
      obtain ⟨sound, ⟨rest, held'⟩, keeps⟩ :=
        contract.neighbour inv.sound held allowed trusted
      have inv' := inv.keep sound (held'.trans (taken.symm.append_right rest))
        (keeps.mono fun g member => taken.mem_iff.mp member)
      exact ⟨v, rest, ⟨address, size, count, live, taken, some, inv'⟩, Or.inl rfl⟩

/-- **Every reachable state shows a slab.** -/
theorem shows_of_reachable (contract : PoolContract pool view)
    (fits : objectsPerSlab * objectSize < 2 ^ 64)
    (reachable : (slabSystem pool view objectSize objectsPerSlab).Reachable t) :
    ∃ v others, t.Shows pool view objectSize objectsPerSlab v others := by
  refine reachable.invariant (fun t start => Shows.start contract fits start) ?_
  intro t t' event shown step
  obtain ⟨v, others, shows⟩ := shown
  obtain ⟨v', others', shows', _⟩ := shows.step contract step
  exact ⟨v', others', shows'⟩

theorem perform_slab (t : SlabRun σ) (call : SlabCall) :
    (t.perform pool view call).1.slab = t.slab := by
  unfold perform
  cases call <;> dsimp only

end SlabRun

/-- The slab that a successful creation leaves. -/
def SlabRun.created (view : PoolView σ) (s : σ) (result : σ × PtrResult) : SlabRun σ where
  pool := result.1
  slab := result.2.out
  live := []
  taken := newGrants view s result.1

theorem SlabRun.start_created {s : σ} (sound : view.Sound s) (memory : Nat)
    (trusted : view.Trusted (slabCreate pool s memory objectSize objectsPerSlab).1)
    (ok : (slabCreate pool s memory objectSize objectsPerSlab).2.ok = true) :
    (slabSystem pool view objectSize objectsPerSlab).Start
      (.created view s (slabCreate pool s memory objectSize objectsPerSlab)) := by
  refine ⟨s, memory, sound, trusted, ?_, rfl, rfl⟩
  generalize slabCreate pool s memory objectSize objectsPerSlab = result at ok ⊢
  obtain ⟨s', ⟨flag, out⟩⟩ := result
  dsimp only [SlabRun.created] at ok ⊢
  rw [ok]

theorem SlabRun.reachable_created {s : σ} (sound : view.Sound s) (memory : Nat)
    (trusted : view.Trusted (slabCreate pool s memory objectSize objectsPerSlab).1)
    (ok : (slabCreate pool s memory objectSize objectsPerSlab).2.ok = true) :
    (slabSystem pool view objectSize objectsPerSlab).Reachable
      (.created view s (slabCreate pool s memory objectSize objectsPerSlab)) :=
  .start (start_created sound memory trusted ok)

/-- A correct client may make any allowed call that the pool lives up to. -/
theorem SlabRun.next_perform {t t' : SlabRun σ} (call : SlabCall)
    (after : (t.perform pool view call).1 = t') (trusted : view.Trusted t'.pool)
    (allowed : t.Allows view objectSize call) :
    (slabSystem pool view objectSize objectsPerSlab).Next t
      ⟨call, (t.perform pool view call).2⟩ t' := ⟨trusted, allowed, Prod.ext after rfl⟩

theorem SlabRun.reachable_perform {t t' : SlabRun σ}
    (reachable : (slabSystem pool view objectSize objectsPerSlab).Reachable t) (call : SlabCall)
    (after : (t.perform pool view call).1 = t') (trusted : view.Trusted t'.pool)
    (allowed : t.Allows view objectSize call) :
    (slabSystem pool view objectSize objectsPerSlab).Reachable t' :=
  reachable.next (next_perform call after trusted allowed)

/-! ## The state machine -/

/-- The slots of a slab in a memory: the free ones are a chain, and with the live
ones they are all the slots of its pages, each once and each in the block of its
page. -/
structure SlabPartition (m : Memory) (grants : List Grant) (slab objectSize objectsPerSlab : Nat)
    (live : List Nat) (pages : List SlabPage) (free : List Nat) : Prop where
  chain : Stack m (slab + 24) free
  chain_nodup : free.Nodup
  linked : Linked (pageNext m) (slabPages m slab) (pages.map fun p => p.page.ptr)
  blocks : ∀ p ∈ pages, pageObjects m p.page.ptr = p.objects.ptr ∧ p.objects ∈ grants
  disjoint : (free ++ live).Nodup
  exactly : (free ++ live).Perm (pages.flatMap (SlabPage.slots objectSize objectsPerSlab))
  count : free.length + live.length = slabCount m slab * objectsPerSlab
  inside : ∀ p ∈ pages, ∀ a ∈ p.slots objectSize objectsPerSlab,
    p.objects.ptr ≤ a ∧ a + objectSize ≤ p.objects.extent.stop
  apart : (pages.flatMap (SlabPage.slots objectSize objectsPerSlab)).Pairwise fun a b =>
    a + objectSize ≤ b ∨ b + objectSize ≤ a
  used : slabUsedObjects m slab = live.length
  freeObjects : (slabGetStats m slab).freeObjects = free.length

/-- A slab that is shown has its slots partitioned. -/
theorem SlabRun.Shows.partition {t : SlabRun σ}
    (shows : t.Shows pool view objectSize objectsPerSlab v others) :
    SlabPartition (pool.memory t.pool) (view.grants t.pool) t.slab objectSize objectsPerSlab t.live
      v.pages v.free := by
  obtain ⟨address, size, count, live, taken, some, inv⟩ := shows
  have shape := inv.shape
  have layout := inv.layout
  subst size count
  rw [← address]
  have same : (v.free ++ t.live).Perm (v.free ++ v.live) := live.symm.append_left v.free
  have length := live.length_eq
  constructor
  case chain => exact shape.free
  case chain_nodup => exact shape.free.nodup
  case linked => exact shape.pages
  case blocks =>
    intro p member
    exact ⟨shape.objects p member, inv.mem_grants (SlabLayout.mem_grants_objects member)⟩
  case disjoint => exact same.nodup_iff.mpr layout.nodup
  case exactly => exact same.trans layout.slots
  case count =>
    rw [shape.slabCount, ← length]
    exact layout.length_add
  case inside => exact fun p member a slot => layout.slot_inside member slot
  case apart => exact layout.slots_pairwise
  case used => rw [shape.usedObjects, length]
  case freeObjects => rw [slabGetStats_spec shape layout]

/-- **The state machine of a slab.** In every state that a correct client reaches,
in a pool that keeps its contract, the free slots are a chain without repetition,
the free slots and the live objects are the slots of the pages, each exactly once,
apart from each other and inside the blocks of the pages, and the statistics count
them. A step that changes the number of pages is an allocation that finds every
slot live, and adds one page. -/
theorem slab_state_machine (contract : PoolContract pool view)
    (fits : objectsPerSlab * objectSize < 2 ^ 64) {t : SlabRun σ}
    (reachable : (slabSystem pool view objectSize objectsPerSlab).Reachable t) :
    ∃ pages free, SlabPartition (pool.memory t.pool) (view.grants t.pool) t.slab objectSize
        objectsPerSlab t.live pages free ∧
      ∀ event t', (slabSystem pool view objectSize objectsPerSlab).Next t event t' →
        slabCount (pool.memory t'.pool) t.slab ≠ slabCount (pool.memory t.pool) t.slab →
        event.call = .allocate ∧ free = [] ∧
          t.live.Perm (pages.flatMap (SlabPage.slots objectSize objectsPerSlab)) ∧
          slabCount (pool.memory t'.pool) t.slab = slabCount (pool.memory t.pool) t.slab + 1 := by
  obtain ⟨v, others, shows⟩ := SlabRun.shows_of_reachable contract fits reachable
  refine ⟨v.pages, v.free, shows.partition, fun event t' step changed => ?_⟩
  have slab : t'.slab = t.slab := by
    have after : (t.perform pool view event.call).1 = t' := congrArg Prod.fst step.2.2
    rw [← after]
    exact SlabRun.perform_slab t event.call
  obtain ⟨v', others', shows', pages⟩ := shows.step contract step
  have before := shows.inv.shape.slabCount
  have after := shows'.inv.shape.slabCount
  rw [shows.address] at before
  rw [shows'.address, slab] at after
  rcases pages with same | ⟨call, full, p, more⟩
  · rw [same] at after
    exact absurd (after.trans before.symm) changed
  · refine ⟨call, full, ?_, ?_⟩
    · have exactly := shows.partition.exactly
      rwa [full, List.nil_append] at exactly
    · rw [after, before, more, List.length_cons]

/-! ## A small slab -/

/-- The pool of sixteen pages as its clients see it. -/
def smallView : PoolView ClientPool :=
  clientView BcCore.reference Platform.x86 sixteenPages.world.ctx.region.addresses
    (sixteenPages.books BcCore.reference)

/-- A new slab with two objects of 1024 bytes on a page, in a region of sixteen
pages. -/
def twoObjects : SlabRun ClientPool :=
  .created smallView ⟨sixteenPages, true⟩
    (slabCreate (clientApi BcCore.reference) ⟨sixteenPages, true⟩ 8192 1024 2)

theorem twoObjects_reachable :
    (slabSystem (clientApi BcCore.reference) smallView 1024 2).Reachable twoObjects :=
  SlabRun.reachable_created (ClientSound.start sixteenPages_start) 8192
    (show (slabCreate (clientApi BcCore.reference) ⟨sixteenPages, true⟩ 8192 1024 2).1.faithful =
      true by decide +kernel) (by decide +kernel)

/-- The small slab once an object is live. -/
def oneObject : SlabRun ClientPool :=
  (twoObjects.perform (clientApi BcCore.reference) smallView .allocate).1

theorem oneObject_reachable :
    (slabSystem (clientApi BcCore.reference) smallView 1024 2).Reachable oneObject := by
  have trusted : oneObject.pool.faithful = true := by decide +kernel
  exact SlabRun.reachable_perform twoObjects_reachable .allocate rfl trusted trivial

theorem slab_state_machine_oneObject :
    ∃ pages free, SlabPartition ((clientApi BcCore.reference).memory oneObject.pool)
        (smallView.grants oneObject.pool) oneObject.slab 1024 2 oneObject.live pages free ∧
      ∀ event t',
        (slabSystem (clientApi BcCore.reference) smallView 1024 2).Next oneObject event t' →
        slabCount ((clientApi BcCore.reference).memory t'.pool) oneObject.slab ≠
          slabCount ((clientApi BcCore.reference).memory oneObject.pool) oneObject.slab →
        event.call = .allocate ∧ free = [] ∧
          oneObject.live.Perm (pages.flatMap (SlabPage.slots 1024 2)) ∧
          slabCount ((clientApi BcCore.reference).memory t'.pool) oneObject.slab =
            slabCount ((clientApi BcCore.reference).memory oneObject.pool) oneObject.slab + 1 :=
  slab_state_machine (pool_contract _ _ _ _) (by decide) oneObject_reachable

end BcAllocators
