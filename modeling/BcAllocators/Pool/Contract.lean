import BcAllocators.Pool.Books
import BcAllocators.Pool.Failures
import BcAllocators.Pool.Faults
import BcAllocators.Pool.Interface
import BcAllocators.Pool.Territory

/-!
# The pool keeps its contract

The pool together with what its clients know of it (`ClientPool`) is a pool in
the sense of `PoolApi`, and it meets the contract (`pool_contract`): its blocks
are the payloads of the live blocks, its territory is the region, and its sound
states are those of a correct client. It may be trusted as long as it has refused
every request beyond its region.
-/

set_option autoImplicit false

namespace BcAllocators

open Machine

variable {core : BcCore} {platform : Platform} {s s' : PoolState} {size : Nat}

/-! ## A pool with its clients -/

/-- A state of the pool, and whether every request beyond the region was refused
up to now. -/
structure ClientPool where
  state : PoolState
  faithful : Bool

/-- A request is within the region or was refused. -/
def keepsWithin (s : PoolState) (size : Nat) (result : PtrResult) : Bool :=
  decide (size ≤ s.world.ctx.region.totalSize) || !result.ok

namespace ClientPool

/-- A call that asks for a size. -/
def ask (core : BcCore) (c : ClientPool) (size : Nat) (call : PoolCall) :
    ClientPool × PtrResult :=
  let performed := c.state.perform core call
  (⟨performed.1, c.faithful && keepsWithin c.state size performed.2⟩, performed.2)

end ClientPool

/-- The functions of the pool, with the record of the live blocks. -/
def clientApi (core : BcCore) : PoolApi ClientPool where
  memory c := c.state.world.mem
  setMemory c m := { c with state := { c.state with world := { c.state.world with mem := m } } }
  allocate c size := c.ask core size (.allocate size)
  reallocate c ptr size := c.ask core size (.reallocate ptr size)
  free c ptr := { c with state := (c.state.perform core (.free ptr)).1 }

/-- A live block as its user sees it. -/
def LiveBlock.grant (core : BcCore) (m : Memory) (b : LiveBlock) : Grant :=
  ⟨b.ptr, b.requested, (b.payload core m).size⟩

/-- The blocks that the clients of a pool hold. -/
def PoolState.grants (core : BcCore) (s : PoolState) : List Grant :=
  s.live.map (LiveBlock.grant core s.world.mem)

/-- The states of a correct client of the pool on a region, with given books. -/
structure ClientSound (core : BcCore) (platform : Platform) (region : Set Nat)
    (books : Option Balance) (s : PoolState) : Prop where
  inv : PoolInv core platform s
  home : s.world.ctx.region.addresses = region
  booked : s.Booked core books

/-- The pool on a region, with given books. -/
def clientView (core : BcCore) (platform : Platform) (region : Set Nat) (books : Option Balance) :
    PoolView ClientPool where
  grants c := c.state.grants core
  territory := region
  Sound c := ClientSound core platform region books c.state
  Trusted c := c.faithful = true

/-! ## The payloads of live blocks -/

theorem mem_grants {g : Grant} :
    g ∈ s.grants core ↔ ∃ b ∈ s.live, b.grant core s.world.mem = g := List.mem_map

/-- A payload lies in its block. -/
theorem LiveBlock.Placed.payload_inside {m : Memory} {b : LiveBlock} (placed : b.Placed core m)
    {a : Nat} (inside : a ∈ (b.payload core m).bytes) :
    a ∈ (blockExtent m (b.kind core) (b.block core)).bytes := by
  have pointer := placed.pointer
  rw [Extent.mem_bytes] at *
  rw [blockExtent_start]
  unfold LiveBlock.payload at inside
  dsimp only at inside
  omega

/-- A request is within what it is charged for. -/
theorem LiveBlock.Placed.requested_le_charge {m : Memory} {b : LiveBlock}
    (placed : b.Placed core m) : b.requested ≤ b.charge core := by
  have fits := placed.fits
  unfold LiveBlock.charge
  cases shape : b.kind core with
  | sized cls =>
      rw [shape] at fits
      exact (Nat.le_add_left _ _).trans fits
  | large => exact Nat.le_refl _

theorem dropLive_grants (m : Memory) (live : List LiveBlock) (ptr : Nat) :
    (dropLive live ptr).map (LiveBlock.grant core m) =
      dropGrant (live.map (LiveBlock.grant core m)) ptr := by
  unfold dropLive dropGrant
  rw [List.filter_map]
  rfl

/-- The size of a block is that of its span, and so it stays the same as the pool
goes on. -/
theorem PoolHeap.extent_same {w w' : World} {spans spans' : List Span}
    {held free held' free' : PoolKind → List Nat} {kind : PoolKind} {a : Nat}
    (heap : PoolHeap platform w spans held free) (heap' : PoolHeap platform w' spans' held' free')
    (base : w'.ctx.region.base = w.ctx.region.base) (more : ∀ sp ∈ spans, sp ∈ spans')
    (owned : Owns held free kind a) (owned' : Owns held' free' kind a) :
    blockExtent w'.mem kind a = blockExtent w.mem kind a := by
  obtain ⟨sp, inSpans, _, inBlocks, size⟩ := heap.located owned
  obtain ⟨sp', inSpans', _, inBlocks', size'⟩ := heap'.located owned'
  rw [base] at inBlocks'
  have wide := (heap.shaped sp inSpans).blockSize_ge
  have wide' := (heap'.shaped sp' inSpans').blockSize_ge
  have same : sp = sp' := by
    rcases blocks_apart heap'.tiles heap'.shaped (more sp inSpans) inSpans' inBlocks inBlocks' with
      equal | apart
    · exact equal.2
    · omega
  have sizes : (blockExtent w'.mem kind a).size = (blockExtent w.mem kind a).size := by
    rw [size, size', same]
  cases kind with
  | sized cls => rfl
  | large => exact congrArg (Extent.mk a) sizes

/-- The payload of a block that stays live. -/
theorem PoolInv.payload_same (inv : PoolInv core platform s) (inv' : PoolInv core platform s')
    (base : s'.world.ctx.region.base = s.world.ctx.region.base)
    (more : ∀ sp ∈ s.spans, sp ∈ s'.spans) {b : LiveBlock} (member : b ∈ s.live)
    (member' : b ∈ s'.live) : b.grant core s'.world.mem = b.grant core s.world.mem := by
  obtain ⟨_, heap⟩ := inv.heap
  obtain ⟨_, heap'⟩ := inv'.heap
  unfold LiveBlock.grant LiveBlock.payload
  rw [heap.extent_same heap' base more (List.mem_append_left _ (heldBlocks_of_mem core member))
    (List.mem_append_left _ (heldBlocks_of_mem core member'))]

/-- The blocks of others, as they were before. -/
theorem PoolInv.grants_same (inv : PoolInv core platform s) (inv' : PoolInv core platform s')
    (base : s'.world.ctx.region.base = s.world.ctx.region.base)
    (more : ∀ sp ∈ s.spans, sp ∈ s'.spans) {others : List LiveBlock}
    (before : ∀ b ∈ others, b ∈ s.live) (after : ∀ b ∈ others, b ∈ s'.live) :
    others.map (LiveBlock.grant core s'.world.mem) =
      others.map (LiveBlock.grant core s.world.mem) :=
  List.map_congr_left fun b member =>
    inv.payload_same inv' base more (before b member) (after b member)

/-! ## Bytes that are kept -/

/-- A step that writes to the region and keeps the blocks of some clients keeps
their payloads and all memory outside. -/
theorem PoolInv.keeps (inv : PoolInv core platform s) {c c' : ClientPool} {region : Set Nat}
    {books : Option Balance} {held : PoolKind → List Nat} {others : List LiveBlock}
    (before : c.state = s) (home : s.world.ctx.region.addresses = region)
    (stays : StaysInside s.world c'.state.world)
    (kept : KeepsHeld s.world.mem c'.state.world.mem held)
    (live : ∀ b ∈ others, b ∈ s.live ∧ b.block core ∈ held (b.kind core)) :
    Keeps (clientApi core) (clientView core platform region books)
      (others.map (LiveBlock.grant core s.world.mem)) c c' := by
  subst before
  intro a spared
  cases spared with
  | inl outside => exact stays.changes a (home ▸ outside)
  | inr payload =>
      obtain ⟨g, member, inside⟩ := payload
      obtain ⟨b, inOthers, rfl⟩ := List.mem_map.mp member
      obtain ⟨inLive, inHeld⟩ := live b inOthers
      exact kept (b.kind core) (b.block core) inHeld a
        ((inv.placed b inLive).payload_inside inside)

/-- The sum of a request that was within the region, or refused, does not wrap. -/
theorem PoolInv.faithful_no_wrap (inv : PoolInv core platform s) (word : size < 2 ^ 64)
    {call : PoolCall} (asks : AsksFor s size call)
    (within : keepsWithin s size (s.perform core call).2 = true) :
    ∀ total, largeTotal core s.world.ctx size = some total →
      s.world.ctx.region.bump + total < 2 ^ 64 := by
  unfold keepsWithin at within
  rw [Bool.or_eq_true, decide_eq_true_iff] at within
  cases within with
  | inl small =>
      obtain ⟨free, heap⟩ := inv.heap
      exact fun total => largeTotal_no_wrap core heap small
  | inr refused => exact inv.failed_no_wrap word asks (by simpa using refused)

/-! ## The contract, call by call -/

section Calls

variable {region : Set Nat} {books : Option Balance} {c : ClientPool} {g : Grant}

theorem ClientSound.allocate (sound : ClientSound core platform region books c.state)
    (word : size < 2 ^ 64)
    (within : keepsWithin c.state size (c.state.perform core (.allocate size)).2 = true) :
    ClientSound core platform region books (c.state.perform core (.allocate size)).1 ∧
      AllocateSpec (clientApi core) (clientView core platform region books) c size
        (c.ask core size (.allocate size)) := by
  obtain ⟨inv, home, booked⟩ := sound
  obtain ⟨free, heap⟩ := inv.heap
  have noWrap := inv.faithful_no_wrap word .allocate within
  have stays := poolAllocate_territory core heap word noWrap
  unfold ClientPool.ask
  rcases poolAllocate_outcome core heap word noWrap with
    ⟨w', same, refused⟩ | ⟨w', block, some, same, granted, update⟩
  · have performed : c.state.perform core (.allocate size) =
        c.state.answered core c.state.live size (w', .failed) :=
      congrArg (c.state.answered core c.state.live size) same
    rw [performed]
    rw [same] at stays
    refine ⟨⟨inv.refuse refused, stays.region.trans home, booked.same refused.update⟩, ?_,
      Or.inl ⟨rfl, ?_⟩⟩
    · exact fun a _ => congrFun refused.mem a
    · exact congrArg (fun m => c.state.live.map (LiveBlock.grant core m)) refused.mem
  · have performed : c.state.perform core (.allocate size) = c.state.answered core c.state.live
        size (w', ⟨true, block + (requestKind core size).header⟩) :=
      congrArg (c.state.answered core c.state.live size) same
    rw [performed]
    rw [same] at stays
    have inv' := PoolInv.grant heap.held_room (fun _ => .refl _) inv.placed inv.nodup some granted
    refine ⟨⟨inv', stays.region.trans home, booked.grant update⟩, ?_,
      Or.inr ⟨LiveBlock.grant core w'.mem ⟨block + (requestKind core size).header, size⟩,
        rfl, rfl, ?_⟩⟩
    · exact inv.keeps rfl home stays granted.kept fun b member =>
        ⟨member, heldBlocks_of_mem core member⟩
    · refine congrArg (List.cons _) ?_
      exact inv.grants_same inv' update.base (fun _ => List.mem_append_left _) (fun _ => id)
        fun b => List.mem_cons_of_mem _

theorem ClientSound.free (sound : ClientSound core platform region books c.state)
    (held : g ∈ c.state.grants core) :
    ClientSound core platform region books (c.state.perform core (.free g.ptr)).1 ∧
      (c.state.perform core (.free g.ptr)).1.grants core =
        dropGrant (c.state.grants core) g.ptr ∧
      Keeps (clientApi core) (clientView core platform region books)
        (dropGrant (c.state.grants core) g.ptr) c ((clientApi core).free c g.ptr) := by
  obtain ⟨inv, home, booked⟩ := sound
  obtain ⟨b, member, rfl⟩ := mem_grants.mp held
  obtain ⟨free, heap⟩ := inv.heap
  have released := inv.released member
  have stays := poolFree_territory heap (heldBlocks_split core inv.nodup member).1
  rw [(inv.placed b member).pointer] at stays
  rw [(inv.placed b member).charge_eq] at released
  have inv' := inv.release (Or.inr (Or.inr ⟨b, member, rfl⟩))
  have others : ∀ d ∈ dropLive c.state.live b.ptr, d ∈ c.state.live :=
    fun d => List.mem_of_mem_filter
  unfold PoolState.grants
  rw [← dropLive_grants]
  refine ⟨⟨inv', stays.region.trans home, booked.release inv member released.update⟩, ?_, ?_⟩
  · exact inv.grants_same inv' released.update.base (fun _ => id) others fun _ => id
  · exact inv.keeps rfl home stays released.kept fun d inOthers =>
      ⟨others d inOthers, inv.held_others member d inOthers⟩

theorem ClientSound.reallocate (sound : ClientSound core platform region books c.state)
    (held : g ∈ c.state.grants core) (word : size < 2 ^ 64)
    (within : keepsWithin c.state size (c.state.perform core (.reallocate g.ptr size)).2 = true) :
    ClientSound core platform region books (c.state.perform core (.reallocate g.ptr size)).1 ∧
      ReallocateSpec (clientApi core) (clientView core platform region books) c g size
        (c.ask core size (.reallocate g.ptr size)) := by
  obtain ⟨inv, home, booked⟩ := sound
  obtain ⟨b, member, rfl⟩ := mem_grants.mp held
  have noWrap := inv.faithful_no_wrap word (.reallocate ⟨b, member, rfl⟩) within
  obtain ⟨free, heap⟩ := inv.heap
  have placed := inv.placed b member
  have stays := poolReallocate_territory core heap (heldBlocks_split core inv.nodup member).1 word
    noWrap
  rw [placed.pointer] at stays
  unfold ClientPool.ask
  rcases inv.reallocate_outcome member word noWrap with
    ⟨w', same, refused⟩ | ⟨w', block, some, same, regranted⟩
  · have performed : c.state.perform core (.reallocate b.ptr size) =
        c.state.answered core (dropLive c.state.live b.ptr) size (w', .failed) :=
      congrArg (c.state.answered core _ size) same
    change ClientSound core platform region books
        (c.state.perform core (.reallocate b.ptr size)).1 ∧ _
    rw [show (b.grant core c.state.world.mem).ptr = b.ptr from rfl, performed]
    rw [same] at stays
    refine ⟨⟨inv.refuse refused, stays.region.trans home, booked.same refused.update⟩,
      Or.inl ⟨rfl, ?_, fun a _ => congrFun refused.mem a⟩⟩
    exact congrArg (fun m => c.state.live.map (LiveBlock.grant core m)) refused.mem
  · have performed : c.state.perform core (.reallocate b.ptr size) =
        c.state.answered core (dropLive c.state.live b.ptr) size
          (w', ⟨true, block + (requestKind core size).header⟩) :=
      congrArg (c.state.answered core _ size) same
    rw [show (b.grant core c.state.world.mem).ptr = b.ptr from rfl, performed]
    rw [same] at stays
    obtain ⟨_, equal⟩ := heldBlocks_split core inv.nodup member
    obtain ⟨placed', nodup'⟩ := inv.others b.ptr
    have inv' := PoolInv.grant
      (fun kind a inHeld => heap.held_room kind a (mem_of_mem_update
        (heldBlocks_split core inv.nodup member).1 kind a inHeld))
      equal placed' nodup' some regranted.granted
    have others : ∀ d ∈ dropLive c.state.live b.ptr, d ∈ c.state.live :=
      fun d => List.mem_of_mem_filter
    obtain ⟨change, update, recharge⟩ := regranted.update
    rw [placed.charge_eq] at recharge
    refine ⟨⟨inv', stays.region.trans home, booked.exchange inv member update recharge⟩,
      Or.inr ⟨LiveBlock.grant core w'.mem ⟨block + (requestKind core size).header, size⟩,
        rfl, rfl, ?_, ?_, fun i small => ?_⟩⟩
    · refine congrArg (List.cons _) (Eq.trans ?_ (dropLive_grants _ _ _))
      exact inv.grants_same inv' update.base (fun _ => List.mem_append_left _) others
        fun d => List.mem_cons_of_mem _
    · refine Eq.subst (motive := fun gs => Keeps _ _ gs _ _) (dropLive_grants _ _ _) ?_
      exact inv.keeps rfl home stays regranted.granted.kept fun d inOthers =>
        ⟨others d inOthers, inv.held_others member d inOthers⟩
    · have copied := regranted.copied i (lt_of_lt_of_le small (min_le_min_right _ ?_))
      · rw [placed.pointer] at copied
        exact copied
      · rw [placed.charge_eq]
        exact placed.requested_le_charge

/-- A write inside a block changes neither the blocks nor the books. -/
theorem ClientSound.write {m : Memory} (sound : ClientSound core platform region books c.state)
    (held : g ∈ c.state.grants core)
    (changes : ChangesOnly g.extent.bytes c.state.world.mem m) :
    ClientSound core platform region books ((clientApi core).setMemory c m).state ∧
      ((clientApi core).setMemory c m).state.grants core = c.state.grants core := by
  obtain ⟨inv, home, booked⟩ := sound
  obtain ⟨b, member, rfl⟩ := mem_grants.mp held
  have inv' := inv.write member changes
  refine ⟨⟨inv', home, booked.same (PoolUpdate.memory c.state.world m)⟩, ?_⟩
  exact inv.grants_same inv' rfl (fun _ => id) (fun _ => id) fun _ => id

/-- A release of the null pointer does nothing. -/
theorem PoolInv.free_null (inv : PoolInv core platform s) :
    (s.perform core (.free NULL)).1 = s := by
  obtain ⟨free, heap⟩ := inv.heap
  have outside := null_not_inRegion heap.geometry
  unfold PoolState.perform
  dsimp only
  rw [poolFree_outside outside, dropLive_of_not_live inv.null_dead]

/-- Payloads are apart. -/
theorem PoolInv.grants_apart (inv : PoolInv core platform s) :
    ((s.grants core).map Grant.extent).Pairwise Extent.Apart := by
  unfold PoolState.grants
  rw [List.map_map]
  refine List.pairwise_map.mpr (inv.live_apart.imp_of_mem fun {b d} inLive inLive' apart => ?_)
  have pointer := (inv.placed b inLive).pointer
  have pointer' := (inv.placed d inLive').pointer
  have fits := (inv.placed b inLive).fits
  have fits' := (inv.placed d inLive').fits
  refine apart.mono ?_ ?_ <;>
    · simp only [Function.comp_apply, LiveBlock.grant, Grant.extent, LiveBlock.payload,
        Extent.stop, blockExtent_start]
      omega

/-- A payload has an address, holds the request and lies in the region. -/
theorem PoolInv.grant_bounds (inv : PoolInv core platform s) (held : g ∈ s.grants core) :
    0 < g.ptr ∧ 0 < g.requested ∧ g.requested ≤ g.usable ∧ g.usable < 2 ^ 63 ∧
      g.extent.stop < 2 ^ 64 ∧ g.extent.bytes ⊆ s.world.ctx.region.addresses := by
  obtain ⟨b, member, rfl⟩ := mem_grants.mp held
  obtain ⟨free, heap⟩ := inv.heap
  have owned : PoolHeap.Owns (heldBlocks core s.live) free (b.kind core) (b.block core) :=
    List.mem_append_left _ (heldBlocks_of_mem core member)
  have placed := inv.placed b member
  have pointer := placed.pointer
  have fits := placed.fits
  obtain ⟨above, below, _⟩ := heap.block_bounds owned
  have top := heap.bump_le
  have half := heap.geometry.total_lt
  have base := heap.geometry.base_pos
  have region := heap.geometry.region_lt
  unfold Extent.stop at below
  rw [blockExtent_start] at below
  unfold LiveBlock.grant Grant.extent Extent.stop LiveBlock.payload
  dsimp only
  refine ⟨by omega, placed.pos, by omega, by omega, by omega, fun a inside => ?_⟩
  exact heap.block_territory owned (placed.payload_inside inside)

end Calls

/-- **The pool keeps its contract** with its clients. -/
theorem pool_contract (core : BcCore) (platform : Platform) (region : Set Nat)
    (books : Option Balance) :
    PoolContract (clientApi core) (clientView core platform region books) where
  memory_setMemory _ _ := rfl
  setMemory_memory _ := rfl
  setMemory_setMemory _ _ _ := rfl
  trusted_setMemory := Iff.rfl
  trusted_allocate trusted := (Bool.and_eq_true_iff.mp trusted).1
  trusted_reallocate trusted := (Bool.and_eq_true_iff.mp trusted).1
  trusted_free := Iff.rfl
  apart sound := sound.inv.grants_apart
  bounds sound g held := sound.home ▸ sound.inv.grant_bounds held
  write sound held changes := sound.write held changes
  allocate sound word trusted := sound.allocate word (Bool.and_eq_true_iff.mp trusted).2
  reallocate sound held word trusted :=
    sound.reallocate held word (Bool.and_eq_true_iff.mp trusted).2
  free sound held := sound.free held
  free_null {c} sound := by
    have nothing : (clientApi core).free c NULL = c :=
      congrArg (fun s => ClientPool.mk s c.faithful) sound.inv.free_null
    rw [nothing]
    exact ⟨sound, rfl, Keeps.refl c⟩

/-! ## Reachable states -/

/-- The books of a state that has been in use for some time are its own. -/
theorem ClientSound.of_inv (inv : PoolInv core platform s)
    (words : s.world.ctx.trackingEnabled = true → s.world.ctx.tally.Words) :
    ClientSound core platform s.world.ctx.region.addresses (s.books core) s :=
  ⟨inv, rfl, rfl, words⟩

/-- A fresh context is sound. -/
theorem ClientSound.start (start : (poolSystem core platform).Start s) :
    ClientSound core platform s.world.ctx.region.addresses (s.books core) s := by
  refine .of_inv (PoolInv.start start) fun _ => ?_
  obtain ⟨config, kernel, m, answers, word, created, _⟩ := start
  have context := (contextCreate_some word created).context
  have tally : s.world.ctx.tally = ⟨0, 0, 0⟩ := by
    rw [context]
    rfl
  rw [tally]
  exact ⟨by decide, by decide, by decide⟩

/-- A request within the region keeps the pool faithful. -/
theorem keepsWithin_of_le (within : size ≤ s.world.ctx.region.totalSize) (result : PtrResult) :
    keepsWithin s size result = true := by
  unfold keepsWithin
  rw [decide_eq_true within, Bool.true_or]

/-- A request whose sum does not wrap keeps the pool faithful too. -/
theorem PoolInv.keepsWithin_of_exact (inv : PoolInv core platform s) (word : size < 2 ^ 64)
    (exact : ¬ BumpWraps platform s.world.ctx size) {call : PoolCall}
    (asks : AsksFor s size call) : keepsWithin s size (s.perform core call).2 = true := by
  rcases Nat.lt_or_ge s.world.ctx.region.totalSize size with oversize | within
  · rw [keepsWithin, (oversize_refused inv oversize word exact asks).1]
    exact Bool.or_true _
  · exact keepsWithin_of_le within _

/-- **Each call of a correct client is one of the contract.** -/
theorem ClientSound.step {region : Set Nat} {books : Option Balance} {event : PoolEvent}
    (sound : ClientSound core platform region books s)
    (step : (poolSystem core platform).Next s event s') :
    ClientSound core platform region books s' := by
  obtain ⟨call, result⟩ := event
  obtain ⟨allowed, performed⟩ := step
  obtain rfl : (s.perform core call).1 = s' := congrArg Prod.fst performed
  let c : ClientPool := ⟨s, true⟩
  have here : ClientSound core platform region books c.state := sound
  have half := sound.inv.total_lt
  cases call with
  | allocate size =>
      have within : size ≤ s.world.ctx.region.totalSize := allowed
      exact (here.allocate (by omega) (keepsWithin_of_le within _)).1
  | reallocate ptr size =>
      have within : size ≤ s.world.ctx.region.totalSize := allowed.1
      rcases allowed.2 with rfl | ⟨b, member, rfl⟩
      · rw [sound.inv.perform_null]
        exact (here.allocate (by omega) (keepsWithin_of_le within _)).1
      · exact (here.reallocate (mem_grants.mpr ⟨b, member, rfl⟩) (by omega)
          (keepsWithin_of_le within _)).1
  | free ptr =>
      rcases sound.inv.free_cases allowed with ⟨nothing, dead⟩ | ⟨b, member, rfl⟩
      · have same : (s.perform core (.free ptr)).1 = s := by
          unfold PoolState.perform
          dsimp only
          rw [nothing, dead]
        rw [same]
        exact sound
      · exact (here.free (mem_grants.mpr ⟨b, member, rfl⟩)).1
  | write address bytes =>
      obtain ⟨b, member, lower, upper⟩ := allowed
      refine (here.write (mem_grants.mpr ⟨b, member, rfl⟩)
        ((changesOnly_storeBytes _ _ _).mono ?_)).1
      intro a inside
      rw [Set.mem_Ico] at inside
      exact ⟨lower.trans inside.1, lt_of_lt_of_le inside.2 upper⟩

/-- **Every reachable state of the pool is sound**, with books of its own. -/
theorem ClientSound.reachable (reachable : (poolSystem core platform).Reachable s) :
    ClientSound core platform s.world.ctx.region.addresses (s.books core) s := by
  obtain ⟨first, events, start, run⟩ := reachable
  have sound := run.invariant (fun sound step => ClientSound.step sound step)
    (ClientSound.start start)
  exact .of_inv sound.inv sound.booked.words

/-! ## Calls that may fail -/

/-- The functions of the pool, any of whose allocations may fail. -/
def faultyPool (core : BcCore) : PoolApi (FaultyPool ClientPool) := (clientApi core).faulty

/-- The pool of a reachable state as its clients see it. -/
def faultyView (core : BcCore) (platform : Platform) (s : PoolState) :
    PoolView (FaultyPool ClientPool) :=
  (clientView core platform s.world.ctx.region.addresses (s.books core)).faulty

theorem faulty_contract (core : BcCore) (platform : Platform) (s : PoolState) :
    PoolContract (faultyPool core) (faultyView core platform s) :=
  (pool_contract core platform _ _).faulty

theorem faulty_trusted {c : FaultyPool ClientPool} :
    (faultyView core platform s).Trusted c ↔ c.pool.faithful = true := Iff.rfl

end BcAllocators
